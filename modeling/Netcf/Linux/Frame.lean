import Netcf.Linux.Define

set_option autoImplicit false

-- A property of the driver's state that the primitives keep is kept by every step made of them,
-- whether the step succeeds or fails.
namespace Netcf.Linux

open Shared.Faulty Schema Stylesheet

variable {C D F : Type}

structure Kept [EmptyCollection C] (augeas : Augeas C D) (good : Ncf C D → Prop)
    (allowed : (Files C → Option (Files C)) → Prop) : Prop where
  faults : ∀ ncf later, good ncf → good { ncf with faults := later }
  getAugeas : Preserves good (getAugeas augeas)
  augUpdate : ∀ code change, allowed change → Preserves good (augUpdate code change)

theorem preserves_tree {good : Ncf C D → Prop} : Preserves good (tree : Api C D (Files C)) := by
  refine preserves_get.bind fun ncf => ?_
  cases ncf.augeas with
  | none => exact preserves_throw _
  | some aug => exact preserves_pure _

theorem preserves_stage {α : Type} {good : Ncf C D → Prop} (step : Step) {program : Api C D α}
    (inner : Preserves good program) : Preserves good (stage step program) := by
  intro ncf before
  have after := inner ncf before
  change good (final (EStateM.adaptExcept _ program ncf))
  unfold EStateM.adaptExcept
  cases run : program ncf <;> rw [run] at after <;> exact after

-- What is asked of the operations in which the drivers differ.
structure Backend.Reads (backend : Backend C D F) (augeas : Augeas C D) (good : Ncf C D → Prop) : Prop where
  isBond : ∀ name, Preserves good (backend.isBond augeas name)
  isBridge : ∀ name, Preserves good (backend.isBridge augeas name)
  bridgeSlaves : ∀ name, Preserves good (backend.bridgeSlaves augeas name)

structure Backend.Respects (backend : Backend C D F) (augeas : Augeas C D) (good : Ncf C D → Prop) : Prop
    extends backend.Reads augeas good where
  rmInterface : ∀ name, Preserves good (backend.rmInterface augeas name)
  augPutXml : ∀ forest, Preserves good (backend.augPutXml augeas forest)

namespace Kept

variable [EmptyCollection C] {augeas : Augeas C D} {good : Ncf C D → Prop}
  {allowed : (Files C → Option (Files C)) → Prop} (kept : Kept augeas good allowed)
include kept

theorem flaky : Preserves good (flaky : Api C D Bool) := by
  intro ncf before
  unfold Linux.flaky
  split
  · exact before
  · exact kept.faults ncf _ before

theorem attempt (code : Errcode) : Preserves good (attempt code : Api C D Unit) :=
  preserves_attempt code kept.faults

theorem augMatch {α : Type} (query : Files C → α) : Preserves good (augMatch query : Api C D α) :=
  (kept.attempt _).bind fun _ => preserves_tree.bind fun _ => preserves_pure _

theorem augFmtMatch {α : Type} (query : Files C → α) : Preserves good (augFmtMatch augeas query) :=
  kept.getAugeas.bind fun _ => (kept.attempt _).bind fun _ => kept.augMatch query

theorem augFmtFind {α : Type} (query : Files C → Option α) : Preserves good (augFmtFind augeas query) := by
  refine (kept.augFmtMatch query).bind fun found => ?_
  cases found with
  | none => exact preserves_throw _
  | some a => exact preserves_pure a

theorem augGet (value : Option String) : Preserves good (augGet value : Api C D String) := by
  refine (kept.attempt _).bind fun _ => ?_
  cases value with
  | none => exact preserves_throw _
  | some text => exact preserves_pure _

theorem copySlaves (machine : Machine) (devices : Files C → List (Option String)) :
    Preserves good (copySlaves machine augeas devices) :=
  kept.getAugeas.bind fun _ => (kept.augFmtMatch _).bind fun _ => preserves_mapM (fun (slave : Option String × Nat) =>
    (kept.augGet slave.1).bind fun _ => kept.flaky.bind fun _ =>
      (preserves_onlyIf _ (preserves_throw _)).bind fun _ => preserves_pure _) _

theorem modprobedAliasBond (allows : ∀ f, allowed (onModprobe f)) (name : String) :
    Preserves good (modprobedAliasBond augeas name) := by
  have update : ∀ f, Preserves good (Linux.augUpdate .other (onModprobe f) : Api C D Unit) :=
    fun f => kept.augUpdate _ _ (allows f)
  have add : Preserves good (addAlias name : Api C D Unit) :=
    (kept.attempt _).bind fun _ => (preserves_ignoring _ (kept.augMatch _)).bind fun _ =>
      (preserves_onlyIf _ (update _)).bind fun _ => preserves_ignoring _ (update _)
  exact kept.getAugeas.bind fun _ => (kept.augFmtMatch _).bind fun _ =>
    (preserves_onlyIf _ add).bind fun _ => (kept.attempt _).bind fun _ => update _

theorem modprobedUnaliasBond (allows : ∀ f, allowed (onModprobe f)) (name : String) :
    Preserves good (modprobedUnaliasBond augeas name) :=
  kept.getAugeas.bind fun _ => (kept.attempt _).bind fun _ => kept.augUpdate _ _ (allows _)

section Define

theorem parseXml (libxml : Libxml) (text : String) :
    Preserves good (parseXml libxml text : Api C D libxml.Doc) := by
  refine (kept.attempt _).bind fun _ => ?_
  cases libxml.parse text with
  | none => exact preserves_throw _
  | some doc => exact preserves_pure _

omit kept [EmptyCollection C] in
theorem rngValidate (libxml : Libxml) (doc : libxml.Doc) :
    Preserves good (rngValidate libxml doc : Api C D Interface) := by
  unfold Linux.rngValidate
  cases libxml.validate doc with
  | none => exact preserves_throw _
  | some document => exact preserves_pure _

theorem deviceNameFromXml (document : Interface) :
    Preserves good (deviceNameFromXml document : Api C D String) :=
  (kept.attempt _).bind fun _ => (kept.attempt _).bind fun _ =>
    (preserves_onlyIf _ (kept.attempt _)).bind fun _ => (kept.attempt _).bind fun _ => preserves_pure _

theorem applyStylesheet (get : Interface → Except TransformError F) (document : Interface) :
    Preserves good (applyStylesheet get document : Api C D F) := by
  refine (kept.attempt _).bind fun _ => (kept.attempt _).bind fun _ => ?_
  cases get document with
  | error e => exact preserves_throw _
  | ok forest => exact preserves_pure _

variable {backend : Backend C D F}

theorem rmAllInterfaces (respects : backend.Respects augeas good) (document : Interface) :
    Preserves good (rmAllInterfaces augeas backend document) := by
  refine (kept.attempt _).bind fun _ => (kept.attempt _).bind fun _ => preserves_forM (fun name => ?_) _
  cases name with
  | none => exact preserves_throw _
  | some name => exact (kept.attempt _).bind fun _ => respects.rmInterface name

theorem bondSetup (reads : backend.Reads augeas good) (allows : ∀ f, allowed (onModprobe f))
    (name : String) (adding : Bool) : Preserves good (bondSetup augeas backend name adding) := by
  have one : ∀ name, Preserves good (setupIfBond augeas backend adding name) :=
    fun name => (reads.isBond name).bind fun _ => preserves_ite
      (preserves_ite (kept.modprobedAliasBond allows name) (kept.modprobedUnaliasBond allows name))
      (preserves_pure _)
  exact (one name).bind fun _ => (reads.isBridge name).bind fun _ => preserves_ite
    ((reads.bridgeSlaves name).bind fun slaves => preserves_forM one slaves) (preserves_pure _)

theorem defineInTree (respects : backend.Respects augeas good) (allows : ∀ f, allowed (onModprobe f))
    (libxml : Libxml) (text : String) : Preserves good (defineInTree augeas backend libxml text) :=
  (preserves_stage _ kept.getAugeas).bind fun _ =>
    (preserves_stage _ (kept.parseXml libxml text)).bind fun doc =>
    (preserves_stage _ (rngValidate libxml doc)).bind fun document =>
    (preserves_stage _ (kept.deviceNameFromXml document)).bind fun name =>
    (preserves_stage _ (kept.rmAllInterfaces respects document)).bind fun _ =>
    (preserves_stage _ (kept.applyStylesheet backend.get document)).bind fun forest =>
    (preserves_stage _ (respects.augPutXml forest)).bind fun _ =>
    (preserves_stage _ (kept.bondSetup respects.toReads allows name true)).bind fun _ => preserves_pure _

end Define

end Kept

end Netcf.Linux
