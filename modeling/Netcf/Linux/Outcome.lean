import Netcf.Linux.Atomicity

set_option autoImplicit false

-- What a successful drv_define or drv_undefine has done, step by step.
namespace Netcf.Linux

open Shared.Faulty Schema

variable {C D F : Type}

section Kept

def Shows (disk : D) (tables : List (Option Entries)) (P : Files C → Prop) (ncf : Ncf C D) : Prop :=
  ∃ files, Loaded disk tables ncf files ∧ P files

theorem shows_kept [EmptyCollection C] (augeas : Augeas C D) (disk : D) (tables : List (Option Entries))
    (P : Files C → Prop) :
    Kept augeas (Shows disk tables P) fun change =>
      ∀ files changed, P files → change files = some changed → P changed where
  faults _ later := by
    rintro ⟨files, loaded, holds⟩
    exact ⟨files, loaded.faults later, holds⟩
  getAugeas := by
    rintro ncf ⟨files, loaded, holds⟩
    rw [getAugeas_loaded loaded]
    exact ⟨files, loaded, holds⟩
  augUpdate code change keeps := by
    refine (preserves_attempt _ ?_).bind fun _ => ?_
    · rintro ncf later ⟨files, loaded, holds⟩
      exact ⟨files, loaded.faults later, holds⟩
    · rintro ncf ⟨files, loaded, holds⟩
      rw [bind_of_ok _ (tree_loaded loaded)]
      cases result : change files with
      | none => exact ⟨files, loaded, holds⟩
      | some changed =>
        refine ⟨changed, ⟨loaded.store, ?_, loaded.copied, loaded.loaded⟩, keeps files changed holds result⟩
        change ncf.augeas.map _ = _
        rw [loaded.present]
        rfl

end Kept

section Views

variable {τ : Type} {disk : D} {tables : List (Option Entries)} {view : Files C → τ}

def Viewed (disk : D) (tables : List (Option Entries)) (view : Files C → τ) (ncf : Ncf C D) (t : τ) : Prop :=
  Shows disk tables (fun files => view files = t) ncf

theorem effect_augUpdate {f : τ → τ} (code : Errcode) {change : Files C → Option (Files C)}
    (does : ∀ files changed, change files = some changed → view changed = f (view files)) :
    Effect (Viewed disk tables view) (augUpdate code change : Api C D Unit) f := by
  rintro ncf t u after ⟨files, loaded, rfl⟩ run
  obtain ⟨_, middle, attempted, rest⟩ := bind_ok run
  obtain ⟨later, rfl⟩ := attempt_ok attempted
  have shown := loaded.faults later
  rw [bind_of_ok _ (tree_loaded shown)] at rest
  cases result : change files with
  | none =>
    rw [result] at rest
    cases rest
  | some changed =>
    rw [result] at rest
    cases rest
    refine ⟨changed, ⟨shown.store, ?_, shown.copied, shown.loaded⟩, does files changed result⟩
    change ncf.augeas.map _ = _
    rw [loaded.present]
    rfl

theorem effect_attempt (code : Errcode) : Effect (Viewed disk tables view) (attempt code : Api C D Unit) id := by
  rintro ncf t u after ⟨files, loaded, shown⟩ run
  obtain ⟨later, rfl⟩ := attempt_ok run
  exact ⟨files, loaded.faults later, shown⟩

-- A program made of calls that leave alone what is shown.
theorem effect_kept [EmptyCollection C] (augeas : Augeas C D) {α : Type} {program : Api C D α}
    (keeps : ∀ t, Kept augeas (fun ncf => Viewed disk tables view ncf t)
      (fun change => ∀ files changed, view files = t → change files = some changed → view changed = t) →
        Preserves (fun ncf => Viewed disk tables view ncf t) program) :
    Effect (Viewed disk tables view) program id :=
  effect_of_preserves fun t => keeps t (shows_kept augeas disk tables fun files => view files = t)

theorem effect_getAugeas [EmptyCollection C] (augeas : Augeas C D) :
    Effect (Viewed disk tables view) (getAugeas augeas) id :=
  effect_kept augeas fun _ kept => kept.getAugeas

end Views

def Later (ncf after : Ncf C D) : Prop :=
  ∃ later, after = { ncf with faults := later } ∧ (Calm ncf → later = [])

theorem Later.refl (ncf : Ncf C D) : Later ncf ncf :=
  ⟨ncf.faults, rfl, id⟩

theorem Later.trans {ncf middle after : Ncf C D} (first : Later ncf middle) (second : Later middle after) :
    Later ncf after := by
  obtain ⟨faults, rfl, calm⟩ := first
  obtain ⟨faults', rfl, calm'⟩ := second
  exact ⟨faults', rfl, fun quiet => calm' (calm quiet)⟩

theorem Later.loaded {disk : D} {tables : List (Option Entries)} {ncf after : Ncf C D} {files : Files C}
    (later : Later ncf after) (loaded : Loaded disk tables ncf files) : Loaded disk tables after files := by
  obtain ⟨faults, rfl, _⟩ := later
  exact loaded.faults faults

theorem Later.calm {ncf after : Ncf C D} (later : Later ncf after) (calm : Calm ncf) : Calm after := by
  obtain ⟨faults, rfl, quiet⟩ := later
  exact quiet calm

theorem attempt_later {code : Errcode} {ncf after : Ncf C D} (run : attempt code ncf = .ok () after) :
    Later ncf after := by
  obtain ⟨later, rfl⟩ := attempt_ok run
  refine ⟨later, rfl, fun calm => ?_⟩
  rw [attempt_calm code calm] at run
  injection run with _ same
  exact (congrArg Ncf.faults same).symm.trans calm

section Steps

variable {libxml : Libxml}

theorem parseXml_ok {text : String} {doc : libxml.Doc} {ncf after : Ncf C D}
    (run : parseXml libxml text ncf = .ok doc after) : libxml.parse text = some doc ∧ Later ncf after := by
  obtain ⟨_, middle, attempted, rest⟩ := bind_ok run
  have later := attempt_later attempted
  cases parsed : libxml.parse text with
  | none =>
    rw [parsed] at rest
    cases rest
  | some found =>
    rw [parsed] at rest
    cases rest
    exact ⟨rfl, later⟩

theorem rngValidate_ok {doc : libxml.Doc} {document : Interface} {ncf after : Ncf C D}
    (run : rngValidate libxml doc ncf = .ok document after) :
    libxml.validate doc = some document ∧ Later ncf after := by
  unfold rngValidate at run
  cases valid : libxml.validate doc with
  | none =>
    rw [valid] at run
    cases run
  | some found =>
    rw [valid] at run
    cases run
    exact ⟨rfl, Later.refl _⟩

theorem onlyIf_later {test : Bool} {code : Errcode} {ncf after : Ncf C D}
    (run : onlyIf test (attempt code) ncf = .ok () after) : Later ncf after := by
  cases test with
  | false =>
    cases run
    exact Later.refl _
  | true => exact attempt_later run

theorem deviceNameFromXml_ok {document : Interface} {name : String} {ncf after : Ncf C D}
    (run : deviceNameFromXml document ncf = .ok name after) : name = deviceName document ∧ Later ncf after := by
  obtain ⟨_, one, first, rest⟩ := bind_ok run
  obtain ⟨_, two, second, rest⟩ := bind_ok rest
  obtain ⟨_, three, third, rest⟩ := bind_ok rest
  obtain ⟨_, four, fourth, rest⟩ := bind_ok rest
  cases rest
  exact ⟨rfl, (attempt_later first).trans ((attempt_later second).trans
    ((onlyIf_later third).trans (attempt_later fourth)))⟩

theorem applyStylesheet_ok {get : Interface → Except Stylesheet.TransformError F} {document : Interface}
    {forest : F} {ncf after : Ncf C D} (run : applyStylesheet get document ncf = .ok forest after) :
    get document = .ok forest ∧ Later ncf after := by
  obtain ⟨_, one, first, rest⟩ := bind_ok run
  obtain ⟨_, two, second, rest⟩ := bind_ok rest
  have later := (attempt_later first).trans (attempt_later second)
  cases result : get document with
  | error e =>
    rw [result] at rest
    cases rest
  | ok found =>
    rw [result] at rest
    cases rest
    exact ⟨rfl, later⟩

theorem augSave_ok {augeas : Augeas C D} {disk : D} {tables : List (Option Entries)} {ncf after : Ncf C D}
    {files : Files C} (loaded : Loaded disk tables ncf files) (run : augSave augeas ncf = .ok () after) :
    Later { ncf with disk := augeas.write disk files } after := by
  obtain ⟨_, middle, attempted, rest⟩ := bind_ok run
  have later := attempt_later attempted
  rw [bind_of_ok _ (tree_loaded (later.loaded loaded))] at rest
  cases rest
  obtain ⟨faults, rfl, calm⟩ := later
  exact ⟨faults, by rw [← loaded.store.1], calm⟩

theorem augSave_calm {augeas : Augeas C D} {disk : D} {tables : List (Option Entries)} {ncf : Ncf C D}
    {files : Files C} (loaded : Loaded disk tables ncf files) (calm : Calm ncf) :
    augSave augeas ncf = .ok () { ncf with disk := augeas.write disk files } := by
  unfold augSave
  rw [bind_of_ok _ (attempt_calm .other calm), bind_of_ok _ (tree_loaded loaded), ← loaded.store.1]
  rfl

end Steps

structure Saved (augeas : Augeas C D) (ncf : Ncf C D) (files : Files C) (after : Ncf C D) : Prop where
  disk : after.disk = augeas.write ncf.disk files
  present : after.augeas = some ⟨entries ncf.augeasXfmTables, files⟩
  tables : after.augeasXfmTables = ncf.augeasXfmTables
  registered : Registered after

theorem Later.saved {augeas : Augeas C D} {ncf saving after : Ncf C D} {files : Files C}
    (loaded : Loaded ncf.disk ncf.augeasXfmTables saving files)
    (later : Later { saving with disk := augeas.write ncf.disk files } after) : Saved augeas ncf files after := by
  obtain ⟨faults, rfl, _⟩ := later
  refine ⟨rfl, loaded.present, loaded.store.2, ?_⟩
  intro _ aug found
  rw [loaded.present] at found
  cases found
  rw [loaded.store.2]

-- Only /etc/modprobe.d is changed by bond_setup.
theorem bondSetup_config [EmptyCollection C] {augeas : Augeas C D} {backend : Backend C D F} {disk : D}
    {tables : List (Option Entries)} {files : Files C} {name : String} {adding : Bool} {ncf after : Ncf C D}
    (reads : backend.Reads augeas (Shows disk tables fun other => other.config = files.config))
    (loaded : Loaded disk tables ncf files) (run : bondSetup augeas backend name adding ncf = .ok () after) :
    ∃ aliased, Loaded disk tables after aliased ∧ aliased.config = files.config := by
  have kept := shows_kept augeas disk tables fun other => other.config = files.config
  have setup := kept.bondSetup reads (by
    intro f before changed same result
    obtain ⟨modprobe, _, rfl⟩ := Option.map_eq_some_iff.mp result
    exact same) name adding
  exact setup.ok run ⟨files, loaded, rfl⟩

section Outcome

variable [EmptyCollection C] {augeas : Augeas C D} {backend : Backend C D F} {libxml : Libxml}
  {faults : List Bool} {ncf after : Ncf C D} {nif : NetcfIf}

structure Defining (augeas : Augeas C D) (backend : Backend C D F) (document : Interface) (forest : F)
    (ncf start removed ready written saving after : Ncf C D) : Prop where
  loaded : Loaded ncf.disk ncf.augeasXfmTables start (augeas.read (entries ncf.augeasXfmTables) ncf.disk)
  transforms : backend.get document = .ok forest
  removes : rmAllInterfaces augeas backend document start = .ok () removed
  waits : Later removed ready
  puts : backend.augPutXml augeas forest ready = .ok () written
  aliases : bondSetup augeas backend (deviceName document) true written = .ok () saving
  saves : ∀ {files}, Loaded ncf.disk ncf.augeasXfmTables saving files → Saved augeas ncf files after

theorem drvDefine_ok {text : String} (registered : Registered ncf)
    (run : drvDefine augeas backend libxml text (enter faults ncf) = .ok nif after) :
    ∃ document, libxml.accepts text = some document ∧ nif.name = deviceName document ∧
      ∃ forest start removed ready written saving,
        Defining augeas backend document forest ncf start removed ready written saving after ∧
          (faults = [] → Calm start) := by
  obtain ⟨name, saving, inTree, rest⟩ := bind_ok run
  obtain ⟨_, opened, loading, inTree⟩ := bind_ok inTree
  obtain ⟨doc, parsed, parsing, inTree⟩ := bind_ok inTree
  obtain ⟨document, valid, validating, inTree⟩ := bind_ok inTree
  obtain ⟨_, start, naming, inTree⟩ := bind_ok inTree
  obtain ⟨_, removed, removing, inTree⟩ := bind_ok inTree
  obtain ⟨forest, ready, transforming, inTree⟩ := bind_ok inTree
  obtain ⟨_, written, putting, inTree⟩ := bind_ok inTree
  obtain ⟨_, _, aliasing, done⟩ := bind_ok inTree
  cases done
  obtain ⟨_, saved, save, making⟩ := bind_ok rest
  obtain ⟨_, _, made, done⟩ := bind_ok (stage_ok making)
  cases done
  have loaded := @getAugeas_loads _ _ _ _ { ncf with faults := faults } _ registered (stage_ok loading)
  obtain ⟨text_parsed, toParsed⟩ := parseXml_ok (stage_ok parsing)
  obtain ⟨doc_valid, toValid⟩ := rngValidate_ok (stage_ok validating)
  obtain ⟨rfl, toStart⟩ := deviceNameFromXml_ok (stage_ok naming)
  obtain ⟨transforms, waits⟩ := applyStylesheet_ok (stage_ok transforming)
  have toStart := toParsed.trans (toValid.trans toStart)
  refine ⟨document, ?_, rfl, forest, start, removed, ready, written, saving, ?_, ?_⟩
  · simp [Libxml.accepts, text_parsed, doc_valid]
  · refine ⟨toStart.loaded loaded, transforms, stage_ok removing, waits, stage_ok putting, stage_ok aliasing, ?_⟩
    intro files shown
    exact ((augSave_ok shown (stage_ok save)).trans (attempt_later made)).saved shown
  · rintro rfl
    apply toStart.calm
    obtain ⟨_, calmly, ran, calm⟩ := @runs_getAugeas _ _ _ augeas (enter [] ncf) rfl
    rw [stage_ok loading] at ran
    cases ran
    exact calm

end Outcome

end Netcf.Linux
