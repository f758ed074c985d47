import Netcf.Linux.Aliases

set_option autoImplicit false

-- What the programs that the drivers share do to the loaded tree while nothing fails.
namespace Netcf.Linux

open Shared.Faulty Schema
open Stylesheet (Machine)

variable {C D F : Type}

section Answers

variable {disk : D} {tables : List (Option Entries)} {files : Files C}

theorem answers_attempt (code : Errcode) :
    Answers (Loaded disk tables) Calm files (attempt code : Api C D Unit) () :=
  (implements_attempt code).answers rfl

theorem answers_refusable {α : Type} {found : Option α} {a : α} (same : found = some a) :
    Answers (Loaded disk tables) Calm files (refusable found : Api C D α) a := by
  rw [same]
  exact answers_pure a

theorem refusable_ok {α : Type} {found : Option α} {ncf after : Ncf C D} {a : α}
    (run : (refusable found : Api C D α) ncf = .ok a after) : found = some a ∧ after = ncf := by
  cases found with
  | none => cases run
  | some b =>
    cases run
    exact ⟨rfl, rfl⟩

variable [EmptyCollection C] {augeas : Augeas C D}

theorem answers_getAugeas : Answers (Loaded disk tables) Calm files (getAugeas augeas) () :=
  implements_getAugeas.answers rfl

theorem answers_augFmtMatch {α : Type} (query : Files C → α) :
    Answers (Loaded disk tables) Calm files (augFmtMatch augeas query) (query files) :=
  (implements_augFmtMatch query).answers rfl

theorem answers_augFmtFind {α : Type} {query : Files C → Option α} {a : α} (found : query files = some a) :
    Answers (Loaded disk tables) Calm files (augFmtFind augeas query) a :=
  (answers_augFmtMatch query).bind (answers_refusable found)

theorem augFmtFind_refused {α : Type} {query : Files C → Option α} {ncf : Ncf C D} (refused : query files = none)
    (loaded : Loaded disk tables ncf files) (calm : Calm ncf) :
    ∃ after, augFmtFind augeas query ncf = .error .other after := by
  obtain ⟨after, matched, _⟩ := (answers_augFmtMatch query).runs loaded calm
  rw [refused] at matched
  exact ⟨after, bind_of_ok _ matched⟩

theorem augFmtFind_ok {α : Type} {query : Files C → Option α} {ncf after : Ncf C D} {a : α}
    (loaded : Loaded disk tables ncf files) (run : augFmtFind augeas query ncf = .ok a after) :
    query files = some a ∧ Loaded disk tables after files := by
  obtain ⟨found, middle, matched, rest⟩ := bind_ok run
  obtain ⟨same, still⟩ := (answers_augFmtMatch query).ok loaded matched
  obtain ⟨present, rfl⟩ := refusable_ok rest
  exact ⟨same ▸ present, still⟩

end Answers

section Yields

variable {disk : D} {tables : List (Option Entries)} {files : Files C} {α : Type}

-- On a loaded tree the program succeeds unless something outside fails, and then it ends as it should.
def Yields (disk : D) (tables : List (Option Entries)) (files : Files C) (program : Api C D α)
    (ends : α → Ncf C D → Prop) : Prop :=
  ∀ ncf, Loaded disk tables ncf files →
    (Calm ncf → ∃ a after, program ncf = .ok a after) ∧ ∀ a after, program ncf = .ok a after → ends a after

theorem Loaded.unique {ncf : Ncf C D} {other : Files C} (loaded : Loaded disk tables ncf files)
    (again : Loaded disk tables ncf other) : files = other := by
  have same := loaded.present.symm.trans again.present
  simpa using same

theorem calm_loaded (disk : D) (tables : List (Option Entries)) (files : Files C) :
    ∃ ncf, Loaded disk tables ncf files ∧ Calm ncf :=
  ⟨⟨disk, some ⟨entries tables, files⟩, tables, false, false, []⟩, ⟨⟨rfl, rfl⟩, rfl, rfl, rfl⟩, rfl⟩

theorem yields_answer {program : Api C D α} {a : α} (answers : Answers (Loaded disk tables) Calm files program a)
    {P : α → Prop} : Yields disk tables files program (fun b _ => P b) ↔ P a := by
  constructor
  · intro yields
    obtain ⟨ncf, loaded, calm⟩ := calm_loaded disk tables files
    obtain ⟨after, ran, _⟩ := answers.runs loaded calm
    exact (yields ncf loaded).2 a after ran
  · intro holds ncf loaded
    refine ⟨fun calm => ?_, fun b after run => ?_⟩
    · obtain ⟨after, ran, _⟩ := answers.runs loaded calm
      exact ⟨a, after, ran⟩
    · rw [(answers.ok loaded run).1]
      exact holds

theorem yields_change {program : Api C D α} {model : StateT (Files C) (Except Errcode) α} {a : α} {changed : Files C}
    (implements : Implements (Loaded disk tables) Calm program model) (result : model files = .ok (a, changed))
    {P : Files C → Prop} :
    Yields disk tables files program (fun _ after => ∃ tree, Loaded disk tables after tree ∧ P tree) ↔ P changed := by
  constructor
  · intro yields
    obtain ⟨ncf, loaded, calm⟩ := calm_loaded disk tables files
    obtain ⟨after, ran, now, _⟩ := implements.runs loaded calm result
    obtain ⟨tree, shown, holds⟩ := (yields ncf loaded).2 a after ran
    rwa [now.unique shown]
  · intro holds ncf loaded
    refine ⟨fun calm => ?_, fun b after run => ?_⟩
    · obtain ⟨after, ran, _⟩ := implements.runs loaded calm result
      exact ⟨a, after, ran⟩
    · obtain ⟨tree, same, shown⟩ := implements.ok loaded run
      cases result.symm.trans same
      exact ⟨changed, shown, holds⟩

theorem yields_then {first : Api C D Unit} {next : Api C D α} {model : StateT (Files C) (Except Errcode) Unit} {a : α}
    {changed : Files C} (implements : Implements (Loaded disk tables) Calm first model)
    (result : model files = .ok ((), changed)) (answers : Answers (Loaded disk tables) Calm changed next a)
    {P : α → Files C → Prop} :
    Yields disk tables files (do first; next) (fun b after => ∃ tree, Loaded disk tables after tree ∧ P b tree) ↔
      P a changed := by
  constructor
  · intro yields
    obtain ⟨ncf, loaded, calm⟩ := calm_loaded disk tables files
    obtain ⟨middle, ran, now, calm⟩ := implements.runs loaded calm result
    obtain ⟨after, answered, still, _⟩ := answers.runs now calm
    obtain ⟨tree, shown, holds⟩ := (yields ncf loaded).2 a after ((bind_of_ok _ ran).trans answered)
    rwa [still.unique shown]
  · intro holds ncf loaded
    refine ⟨fun calm => ?_, fun b after run => ?_⟩
    · obtain ⟨middle, ran, now, calm⟩ := implements.runs loaded calm result
      obtain ⟨after, answered, _⟩ := answers.runs now calm
      exact ⟨a, after, (bind_of_ok _ ran).trans answered⟩
    · obtain ⟨_, middle, ran, rest⟩ := bind_ok run
      obtain ⟨tree, same, shown⟩ := implements.ok loaded ran
      cases result.symm.trans same
      obtain ⟨rfl, still⟩ := answers.ok shown rest
      exact ⟨changed, still, holds⟩

end Yields

section Removing

variable {augeas : Augeas C D} {backend : Backend C D F} {disk : D} {tables : List (Option Entries)}

-- rm_all_interfaces stops at an interface element without a name.
def rmModel (remove : String → StateT (Files C) (Except Errcode) Unit) :
    Option String → StateT (Files C) (Except Errcode) Unit
  | some name => remove name
  | none => throw .nomem

theorem implements_rmAll {remove : String → StateT (Files C) (Except Errcode) Unit}
    (each : ∀ name, Implements (Loaded disk tables) Calm (backend.rmInterface augeas name) (remove name))
    (document : Interface) :
    Implements (Loaded disk tables) Calm (rmAllInterfaces augeas backend document)
      ((backend.mentioned document).forM (rmModel remove)) := by
  have step : ∀ name : Option String, Implements (Loaded disk tables) Calm
      (match name with
        | some name => do
          attempt .nomem
          backend.rmInterface augeas name
        | none => throw .nomem) (rmModel remove name) := by
    intro name
    cases name with
    | none => exact implements_throw _
    | some name => exact (implements_attempt .nomem).bind fun _ => each name
  have all := implements_forM step (backend.mentioned document)
  exact (implements_attempt .nomem).bind fun _ => (implements_attempt .nomem).bind fun _ => all

theorem rmModel_named {remove : String → StateT (Files C) (Except Errcode) Unit} {names : List (Option String)}
    {files after : Files C} {u : Unit} (run : names.forM (rmModel remove) files = .ok (u, after)) :
    names = names.reduceOption.map some := by
  induction names generalizing files with
  | nil => rfl
  | cons name rest ih =>
    obtain ⟨_, middle, first, others⟩ := model_bind_ok run
    cases name with
    | none => cases first
    | some name =>
      change some name :: rest = some name :: rest.reduceOption.map some
      rw [← ih others]

end Removing

section Copies

variable {disk : D} {tables : List (Option Entries)} {machine : Machine}

-- bridge_slaves while nothing fails.
def copyModel (machine : Machine) (slave : Option String × Nat) : StateT (Files C) (Except Errcode) String :=
  match slave.1 with
  | none => throw .internal
  | some text => if 0 < slave.2 && machine.nullBehind slave.2 then throw .nomem else pure text

def copiesModel (machine : Machine) (devices : Files C → List (Option String)) :
    StateT (Files C) (Except Errcode) (List String) := do
  let found ← ask devices
  found.zipIdx.mapM (copyModel machine)

theorem implements_copySlave (slave : Option String × Nat) :
    Implements (Quiet disk tables) Calm (copySlave machine slave : Api C D String) (copyModel machine slave) := by
  obtain ⟨value, i⟩ := slave
  intro ncf files quiet
  have calm : Calm ncf := quiet.2
  right
  cases value with
  | none =>
    have missing : (augGet none : Api C D String) ncf = .error .internal ncf := bind_of_ok _ (attempt_calm .other calm)
    exact ⟨ncf, bind_of_error _ missing⟩
  | some text =>
    have got : (augGet (some text) : Api C D String) ncf = .ok text ncf := bind_of_ok _ (attempt_calm .other calm)
    have kept : (flaky : Api C D Bool) ncf = .ok false ncf := by
      unfold flaky
      rw [show ncf.faults = [] from calm]
    unfold copySlave copyModel
    rw [bind_of_ok _ got, bind_of_ok _ kept]
    cases 0 < i && machine.nullBehind i with
    | true => exact ⟨ncf, rfl⟩
    | false => exact ⟨ncf, rfl, quiet, id⟩

theorem implements_copySlaves [EmptyCollection C] {augeas : Augeas C D} (devices : Files C → List (Option String)) :
    Implements (Quiet disk tables) Calm (copySlaves machine augeas devices) (copiesModel machine devices) :=
  (toQuiet implements_getAugeas).bind fun _ => (toQuiet (implements_augFmtMatch devices)).bind fun found =>
    implements_mapM implements_copySlave found.zipIdx

theorem clear_from_succ {count k : Nat} :
    (∀ i < count + 1, 0 < k + i → machine.nullBehind (k + i) = false) ↔
      (0 < k → machine.nullBehind k = false) ∧ ∀ i < count, 0 < k + 1 + i → machine.nullBehind (k + 1 + i) = false := by
  constructor
  · intro clear
    refine ⟨clear 0 (Nat.succ_pos count), fun i small _ => ?_⟩
    have next := clear (i + 1) (Nat.succ_lt_succ small) (by omega)
    rwa [show k + (i + 1) = k + 1 + i by omega] at next
  · rintro ⟨first, later⟩ i small positive
    cases i with
    | zero => exact first positive
    | succ j => exact (show k + (j + 1) = k + 1 + j by omega) ▸ later j (Nat.lt_of_succ_lt_succ small) (by omega)

theorem copies_from {values : List (Option String)} (valued : none ∉ values) (files : Files C) (k : Nat) :
    (values.zipIdx k).mapM (copyModel machine) files =
      if ∀ i < values.length, 0 < k + i → machine.nullBehind (k + i) = false then .ok (values.reduceOption, files)
      else .error .nomem := by
  induction values generalizing k with
  | nil => rfl
  | cons value rest ih =>
    cases value with
    | none => simp at valued
    | some text =>
      have others := ih (fun missing => valued (List.mem_cons_of_mem _ missing)) (k + 1)
      rw [List.zipIdx_cons, List.mapM_cons, List.length_cons]
      simp only [clear_from_succ]
      cases null : 0 < k && machine.nullBehind k with
      | true =>
        have stops : copyModel machine (some text, k) files = .error .nomem := by
          simp [copyModel, null]
          rfl
        rw [model_bind_of_error _ stops, if_neg]
        rintro ⟨first, _⟩
        simp_all
      | false =>
        have first : copyModel machine (some text, k) files = .ok (text, files) := by
          simp [copyModel, null]
          rfl
        have here : 0 < k → machine.nullBehind k = false := by simpa using null
        rw [model_bind_of_ok _ first]
        by_cases clear : ∀ i < rest.length, 0 < k + 1 + i → machine.nullBehind (k + 1 + i) = false
        · rw [if_pos clear] at others
          rw [if_pos ⟨here, clear⟩, model_bind_of_ok _ others]
          rfl
        · rw [if_neg clear] at others
          rw [if_neg fun both => clear both.2, model_bind_of_error _ others]

theorem copiesModel_eq {devices : Files C → List (Option String)} {files : Files C} (valued : none ∉ devices files) :
    copiesModel machine devices files =
      if Clear machine.nullBehind (devices files).length then .ok ((devices files).reduceOption, files) else .error .nomem := by
  have all := @copies_from _ machine _ valued files 0
  simp only [Nat.zero_add] at all
  exact (model_bind_of_ok _ rfl).trans all

end Copies

section BondSetup

variable {bonded : C → String → Bool} {adding : Bool}

def setupModel (adding : Bool) (name : String) : StateT (Files C) (Except Errcode) Unit :=
  change .other (onModprobe (aliasing adding name))

def setupIfBondModel (bonded : C → String → Bool) (adding : Bool) (name : String) :
    StateT (Files C) (Except Errcode) Unit :=
  fun files => if bonded files.config name then setupModel adding name files else .ok ((), files)

theorem setupModel_config {name : String} {files after : Files C} {u : Unit}
    (run : setupModel adding name files = .ok (u, after)) : after.config = files.config := by
  obtain ⟨modprobe, _, rfl⟩ := Option.map_eq_some_iff.mp (change_ok run)
  rfl

-- Which of the names are those of bonds depends on the configuration only, so it can be asked once.
theorem setupIfBond_forM (names : List String) (files : Files C) :
    names.forM (setupIfBondModel bonded adding) files =
      (names.filter (bonded files.config)).forM (setupModel adding) files := by
  induction names generalizing files with
  | nil => rfl
  | cons name rest ih =>
    cases bond : bonded files.config name with
    | false =>
      have here : setupIfBondModel bonded adding name files = .ok ((), files) := by simp [setupIfBondModel, bond]
      rw [List.filter_cons_of_neg (by simp [bond]), model_forM_cons, model_bind_of_ok _ here]
      exact ih files
    | true =>
      have same : setupIfBondModel bonded adding name files = setupModel adding name files := by
        simp [setupIfBondModel, bond]
      rw [List.filter_cons_of_pos bond, model_forM_cons, model_forM_cons]
      cases result : setupModel adding name files with
      | error code => rw [model_bind_of_error _ (same.trans result), model_bind_of_error _ result]
      | ok pair =>
        rw [model_bind_of_ok _ (same.trans result), model_bind_of_ok _ result, ih, setupModel_config result]

theorem unalias_all (names : List String) (files : Files C) :
    names.forM (setupModel false) files =
      .ok ((), { files with modprobe := removeAliases names files.modprobe }) := by
  induction names generalizing files with
  | nil => rfl
  | cons name rest ih =>
    have first : setupModel false name files = .ok ((), { files with modprobe := removeAlias name files.modprobe }) :=
      change_some rfl
    rw [model_forM_cons, model_bind_of_ok _ first, ih]
    rfl

theorem alias_all {names targets : List String} {others : List ModprobeNode} {files after : Files C} {u : Unit}
    (listed : ∀ name ∈ names, name ∈ targets) (run : names.forM (setupModel true) files = .ok (u, after))
    (adjusted : Adjusted targets others files.modprobe) :
    Adjusted targets others after.modprobe ∧ after.config = files.config := by
  apply @forM_change_ok _ _ _ _ _ (fun other => Adjusted targets others other.modprobe ∧ other.config = files.config) _
    _ _ _ run ⟨adjusted, rfl⟩
  rintro name member before changed ⟨still, same⟩ result
  obtain ⟨modprobe, aliased, rfl⟩ := Option.map_eq_some_iff.mp result
  exact ⟨aliasBond_adjusted (listed name member) still aliased, same⟩

theorem alias_all_bonding {names : List String} {files after : Files C} {u : Unit}
    (only : OnlyBonding files.modprobe) (run : names.forM (setupModel true) files = .ok (u, after)) :
    OnlyBonding after.modprobe ∧ after.config = files.config ∧
      ∀ other, bondingAlias other after.modprobe = true ↔ other ∈ names ∨ bondingAlias other files.modprobe = true := by
  induction names generalizing files with
  | nil =>
    cases run
    exact ⟨only, rfl, by simp⟩
  | cons name rest ih =>
    obtain ⟨_, middle, first, others⟩ := model_bind_ok run
    obtain ⟨modprobe, aliased, rfl⟩ := Option.map_eq_some_iff.mp (change_ok first)
    obtain ⟨still, added⟩ := aliasBond_bonding only aliased
    obtain ⟨ends, same, total⟩ := ih still others
    refine ⟨ends, same, fun other => ?_⟩
    rw [total, added, List.mem_cons]
    tauto

def bondSetupModel (bonded bridging : C → String → Bool) (slaves : StateT (Files C) (Except Errcode) (List String))
    (name : String) (adding : Bool) : StateT (Files C) (Except Errcode) Unit := do
  setupIfBondModel bonded adding name
  let bridge ← ask fun files => bridging files.config name
  if bridge then
    let found ← slaves
    found.forM (setupIfBondModel bonded adding)

theorem setupIfBond_config {name : String} {files after : Files C} {u : Unit}
    (run : setupIfBondModel bonded adding name files = .ok (u, after)) : after.config = files.config := by
  unfold setupIfBondModel at run
  split at run
  · exact setupModel_config run
  · cases run
    rfl

theorem bondSetup_asked {bridging : C → String → Bool} {slaves : StateT (Files C) (Except Errcode) (List String)}
    {name : String} {files after : Files C} {u : Unit}
    (run : bondSetupModel bonded bridging slaves name adding files = .ok (u, after))
    (bridge : bridging files.config name = true) :
    ∃ middle found later, middle.config = files.config ∧ slaves middle = .ok (found, later) := by
  obtain ⟨_, middle, first, rest⟩ := model_bind_ok run
  have same := setupIfBond_config first
  obtain ⟨answer, still, asked, rest⟩ := model_bind_ok rest
  cases asked
  rw [← same] at bridge
  rw [if_pos bridge] at rest
  obtain ⟨found, later, listed, _⟩ := model_bind_ok rest
  exact ⟨middle, found, later, same, listed⟩

-- The names that bond_setup goes through are settled by the configuration it starts from.
theorem bondSetup_targets {bridging : C → String → Bool} {slaves : StateT (Files C) (Except Errcode) (List String)}
    {name : String} {files : Files C} {found : List String}
    (asked : bridging files.config name = true →
      ∀ after, after.config = files.config → slaves after = .ok (found, after)) :
    bondSetupModel bonded bridging slaves name adding files =
      ((name :: if bridging files.config name then found else []).filter (bonded files.config)).forM
        (setupModel adding) files := by
  rw [← setupIfBond_forM, model_forM_cons]
  apply model_bind_congr
  intro u after run
  have same := setupIfBond_config run
  have answered : ask (fun files : Files C => bridging files.config name) after =
      .ok (bridging files.config name, after) := by
    rw [← same]
    rfl
  rw [model_bind_of_ok _ answered]
  cases bridge : bridging files.config name with
  | false => rfl
  | true =>
    simp only [if_true]
    rw [model_bind_of_ok _ (asked bridge after same)]

variable [EmptyCollection C] {augeas : Augeas C D} {backend : Backend C D F} {disk : D}
  {tables : List (Option Entries)}

theorem implements_setupIfBond {name : String}
    (asks : Implements (Loaded disk tables) Calm (backend.isBond augeas name)
      (ask fun files => bonded files.config name)) (adding : Bool) :
    Implements (Quiet disk tables) Calm (setupIfBond augeas backend adding name)
      (setupIfBondModel bonded adding name) := by
  have parts := (toQuiet asks).bind fun found =>
    implements_ite found (@implements_setup _ _ disk tables _ augeas adding name) (implements_pure ())
  refine parts.congr fun files => ?_
  rw [model_bind_of_ok _ rfl, setupIfBondModel]
  dsimp only
  by_cases bond : bonded files.config name = true
  · rw [if_pos bond, if_pos bond]
    rfl
  · rw [if_neg bond, if_neg bond]
    rfl

theorem implements_bondSetup {bridging : C → String → Bool} {slaves : StateT (Files C) (Except Errcode) (List String)}
    {name : String}
    (bonds : ∀ name, Implements (Loaded disk tables) Calm (backend.isBond augeas name)
      (ask fun files => bonded files.config name))
    (bridges : Implements (Loaded disk tables) Calm (backend.isBridge augeas name)
      (ask fun files => bridging files.config name))
    (ports : Implements (Quiet disk tables) Calm (backend.bridgeSlaves augeas name) slaves) (adding : Bool) :
    Implements (Quiet disk tables) Calm (bondSetup augeas backend name adding)
      (bondSetupModel bonded bridging slaves name adding) :=
  (implements_setupIfBond (bonds name) adding).bind fun _ =>
    (toQuiet bridges).bind fun bridge =>
      implements_ite bridge (ports.bind fun found =>
        implements_forM (fun port => implements_setupIfBond (bonds port) adding) found) (implements_pure ())

end BondSetup

section Steps

variable {disk : D} {tables : List (Option Entries)} {files : Files C} {libxml : Libxml} {document : Interface}

theorem answers_parseXml {text : String} {doc : libxml.Doc} (parsed : libxml.parse text = some doc) :
    Answers (Loaded disk tables) Calm files (parseXml libxml text : Api C D libxml.Doc) doc := by
  refine (answers_attempt .nomem).bind ?_
  rw [parsed]
  exact answers_pure doc

theorem answers_rngValidate {doc : libxml.Doc} (valid : libxml.validate doc = some document) :
    Answers (Loaded disk tables) Calm files (rngValidate libxml doc : Api C D Interface) document := by
  unfold rngValidate
  rw [valid]
  exact answers_pure document

theorem answers_deviceNameFromXml (document : Interface) :
    Answers (Loaded disk tables) Calm files (deviceNameFromXml document : Api C D String)
      (deviceName document) := by
  have unnamed : Answers (Loaded disk tables) Calm files
      (onlyIf document.rootName.isNone (attempt .nomem) : Api C D Unit) () := by
    cases document.rootName.isNone with
    | true => exact answers_attempt .nomem
    | false => exact answers_pure ()
  exact (answers_attempt .nomem).bind ((answers_attempt .nomem).bind (unnamed.bind
    ((answers_attempt .internal).bind (answers_pure _))))

theorem answers_applyStylesheet {get : Interface → Except Stylesheet.TransformError F} {forest : F}
    (transforms : get document = .ok forest) :
    Answers (Loaded disk tables) Calm files (applyStylesheet get document : Api C D F) forest := by
  refine (answers_attempt .nomem).bind ((answers_attempt .nomem).bind ?_)
  rw [transforms]
  exact answers_pure forest

theorem makeNetcfIf_calm (name : String) {ncf : Ncf C D} (calm : Calm ncf) :
    makeNetcfIf name ncf = .ok ⟨name⟩ ncf := by
  unfold makeNetcfIf
  rw [bind_of_ok _ (attempt_calm .nomem calm)]
  rfl

end Steps

section Driver

variable [EmptyCollection C] {augeas : Augeas C D} {backend : Backend C D F} {disk : D}
  {tables : List (Option Entries)} {document : Interface} {forest : F}
  {ncf start removed ready written saving after : Ncf C D}

-- What drv_define does to the tree when nothing fails on the way, in the terms of its three steps.
theorem Defining.models {remove put setup : StateT (Files C) (Except Errcode) Unit}
    (removals : Implements (Loaded ncf.disk ncf.augeasXfmTables) Calm (rmAllInterfaces augeas backend document) remove)
    (puts : Implements (Loaded ncf.disk ncf.augeasXfmTables) Calm (backend.augPutXml augeas forest) put)
    (setups : Implements (Quiet ncf.disk ncf.augeasXfmTables) Calm
      (bondSetup augeas backend (deviceName document) true) setup)
    (defining : Defining augeas backend document forest ncf start removed ready written saving after)
    (calm : Calm start) :
    ∃ cleared filled aliased,
      remove (augeas.read (entries ncf.augeasXfmTables) ncf.disk) = .ok ((), cleared) ∧
      put cleared = .ok ((), filled) ∧ setup filled = .ok ((), aliased) ∧ Saved augeas ncf aliased after := by
  obtain ⟨cleared, clearing, quiet⟩ := (toQuiet removals).ok ⟨defining.loaded, calm⟩ defining.removes
  have waiting : Quiet ncf.disk ncf.augeasXfmTables ready cleared :=
    ⟨defining.waits.loaded quiet.1, defining.waits.calm quiet.2⟩
  obtain ⟨filled, filling, quiet⟩ := (toQuiet puts).ok waiting defining.puts
  obtain ⟨aliased, aliasing, quiet⟩ := setups.ok quiet defining.aliases
  exact ⟨cleared, filled, aliased, clearing, filling, aliasing, defining.saves quiet.1⟩

-- When nothing fails and the three steps go through, so does drv_define.
theorem drvDefine_calm {libxml : Libxml} {text : String} {remove put setup : StateT (Files C) (Except Errcode) Unit}
    {cleared filled aliased : Files C}
    (removals : Implements (Loaded ncf.disk ncf.augeasXfmTables) Calm (rmAllInterfaces augeas backend document) remove)
    (puts : Implements (Loaded ncf.disk ncf.augeasXfmTables) Calm (backend.augPutXml augeas forest) put)
    (setups : Implements (Quiet ncf.disk ncf.augeasXfmTables) Calm
      (bondSetup augeas backend (deviceName document) true) setup)
    (registered : Registered ncf) (accepted : libxml.accepts text = some document)
    (transforms : backend.get document = .ok forest)
    (clearing : remove (augeas.read (entries ncf.augeasXfmTables) ncf.disk) = .ok ((), cleared))
    (filling : put cleared = .ok ((), filled)) (aliasing : setup filled = .ok ((), aliased)) :
    ∃ final, drvDefine augeas backend libxml text (enter [] ncf) = .ok ⟨deviceName document⟩ final ∧
      final.augeasXfmTables = ncf.augeasXfmTables ∧ final.disk = augeas.write ncf.disk aliased := by
  obtain ⟨doc, parsed, valid⟩ := Option.bind_eq_some_iff.mp accepted
  obtain ⟨_, opened, opening, calm⟩ := @runs_getAugeas _ _ _ augeas (enter [] ncf) rfl
  have loaded := @getAugeas_loads _ _ _ _ { ncf with faults := [] } _ registered opening
  obtain ⟨one, parsing, loaded, calm⟩ := (answers_parseXml parsed).runs loaded calm
  obtain ⟨two, validating, loaded, calm⟩ := (answers_rngValidate valid).runs loaded calm
  obtain ⟨three, naming, loaded, calm⟩ := (answers_deviceNameFromXml document).runs loaded calm
  obtain ⟨four, removing, loaded, calm⟩ := removals.runs loaded calm clearing
  obtain ⟨five, transforming, loaded, calm⟩ := (answers_applyStylesheet transforms).runs loaded calm
  obtain ⟨six, putting, loaded, calm⟩ := puts.runs loaded calm filling
  obtain ⟨saving, adding, quiet, _⟩ := setups.runs ⟨loaded, calm⟩ calm aliasing
  have inTree : defineInTree augeas backend libxml text (enter [] ncf) = .ok (deviceName document) saving := by
    unfold defineInTree
    rw [bind_of_ok _ (stage_of_ok _ opening), bind_of_ok _ (stage_of_ok _ parsing),
      bind_of_ok _ (stage_of_ok _ validating), bind_of_ok _ (stage_of_ok _ naming),
      bind_of_ok _ (stage_of_ok _ removing), bind_of_ok _ (stage_of_ok _ transforming),
      bind_of_ok _ (stage_of_ok _ putting), bind_of_ok _ (stage_of_ok _ adding)]
    rfl
  have still : Calm { saving with disk := augeas.write ncf.disk aliased } := quiet.2
  refine ⟨{ saving with disk := augeas.write ncf.disk aliased }, ?_, quiet.1.store.2, rfl⟩
  unfold drvDefine
  rw [bind_of_ok _ inTree, bind_of_ok _ (stage_of_ok _ (augSave_calm quiet.1 quiet.2))]
  exact stage_of_ok _ (makeNetcfIf_calm _ still)

theorem drvUndefine_calm {setup remove : StateT (Files C) (Except Errcode) Unit} {root : String}
    {files unaliased left : Files C} {entered opened : Ncf C D}
    (setups : Implements (Quiet disk tables) Calm (bondSetup augeas backend root false) setup)
    (removals : Implements (Loaded disk tables) Calm (backend.rmInterface augeas root) remove)
    (opening : getAugeas augeas entered = .ok () opened) (quiet : Quiet disk tables opened files)
    (unaliasing : setup files = .ok ((), unaliased)) (removing : remove unaliased = .ok ((), left)) :
    ∃ final, drvUndefine augeas backend ⟨root⟩ entered = .ok () final ∧ final.augeasXfmTables = tables ∧
      final.disk = augeas.write disk left := by
  obtain ⟨cleaned, setup, quiet, calm⟩ := setups.runs quiet quiet.2 unaliasing
  obtain ⟨removed, removing, quiet, calm⟩ := (toQuiet removals).runs quiet calm removing
  have saving := @augSave_calm _ _ augeas _ _ _ _ quiet.1 calm
  have last : (backend.rmInterface augeas root >>= fun _ => augSave augeas) cleaned = _ :=
    (bind_of_ok _ removing).trans saving
  have run : drvUndefine augeas backend ⟨root⟩ entered =
      (backend.rmInterface augeas root >>= fun _ => augSave augeas) cleaned := by
    unfold drvUndefine
    rw [bind_of_ok _ opening, bind_of_ok _ setup]
  exact ⟨_, run.trans last, quiet.1.store.2, rfl⟩

end Driver

section Saved

variable [EmptyCollection C] {augeas : Augeas C D}

-- A reading after drv_define, from the tree that its save has left on the disk.
theorem saved_loads {files : Files C} {faults : List Bool} {ncf after opened : Ncf C D}
    (identity : ∀ disk files, augeas.read (entries ncf.augeasXfmTables) (augeas.write disk files) = files)
    (saved : Saved augeas ncf files after) (run : getAugeas augeas (enter faults after) = .ok () opened) :
    Loaded after.disk after.augeasXfmTables opened files := by
  have loaded := @getAugeas_loads _ _ _ _ { after with faults := faults } _ saved.registered run
  rwa [show augeas.read (entries after.augeasXfmTables) after.disk = files by
    rw [saved.tables, saved.disk, identity]] at loaded

end Saved

section Settled

-- A driver that has loaded the tree, and nothing is going to fail.
def settled (table : Entries) (disk : D) (files : Files C) : Ncf C D :=
  ⟨disk, some ⟨entries [some table], files⟩, [some table], false, false, []⟩

theorem quiet_settled (table : Entries) (disk : D) (files : Files C) :
    Quiet disk [some table] (settled table disk files) files :=
  ⟨⟨⟨rfl, rfl⟩, rfl, rfl, rfl⟩, rfl⟩

end Settled

end Netcf.Linux
