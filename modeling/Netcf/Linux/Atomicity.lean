import Netcf.Shared.Simulation
import Netcf.Linux.Frame

set_option autoImplicit false

-- A drv_define that fails before its save leaves nothing behind: the next API call loads the tree
-- that the failed call had started from.
namespace Netcf.Linux

open Shared.Faulty Shared.Simulation Schema

variable {C D F : Type}

-- Nothing has been written, and the flags tell the truth about the instance.
structure Sound (disk : D) (tables : List (Option Entries)) (ncf : Ncf C D) : Prop where
  store : SameStore disk tables ncf
  registered : Registered ncf

theorem sound_updateInstance {disk : D} {tables : List (Option Entries)} {change : Instance C → Instance C}
    (keeps : ∀ aug, (change aug).load = aug.load) :
    Preserves (Sound disk tables) (updateInstance change : Api C D Unit) := by
  apply preserves_modify
  intro ncf sound
  refine ⟨sound.store, ?_⟩
  intro copied aug found
  obtain ⟨old, present, rfl⟩ := Option.map_eq_some_iff.mp found
  rw [keeps]
  exact sound.registered copied old present

theorem sound_kept [EmptyCollection C] (augeas : Augeas C D) (disk : D) (tables : List (Option Entries)) :
    Kept augeas (Sound disk tables) fun _ => True where
  faults _ _ sound := ⟨sound.store, sound.registered⟩
  getAugeas := by
    intro ncf sound
    cases run : getAugeas augeas ncf with
    | ok _ after =>
      have same := (getAugeas_ok sound.registered run).1
      exact ⟨⟨same.disk.trans sound.store.1, same.tables.trans sound.store.2⟩,
        getAugeas_registered sound.registered run⟩
    | error code after =>
      obtain ⟨same, dropped⟩ := getAugeas_error run
      refine ⟨⟨same.disk.trans sound.store.1, same.tables.trans sound.store.2⟩, ?_⟩
      intro _ aug found
      simp [final, dropped] at found
  augUpdate code change _ := by
    refine (preserves_attempt _ fun _ _ sound => ⟨sound.store, sound.registered⟩).bind fun _ =>
      preserves_tree.bind fun files => ?_
    cases change files with
    | none => exact preserves_throw _
    | some changed => exact sound_updateInstance fun _ => rfl

theorem stage_of_ok {α : Type} (step : Step) {program : Api C D α} {ncf after : Ncf C D} {a : α}
    (run : program ncf = .ok a after) : stage step program ncf = .ok a after := by
  change EStateM.adaptExcept _ program ncf = _
  unfold EStateM.adaptExcept
  rw [run]

theorem stage_of_error {α : Type} (step : Step) {program : Api C D α} {ncf after : Ncf C D} {code : Errcode}
    (run : program ncf = .error code after) : stage step program ncf = .error ⟨step, code⟩ after := by
  change EStateM.adaptExcept _ program ncf = _
  unfold EStateM.adaptExcept
  rw [run]

theorem stage_error {α : Type} {step : Step} {program : Api C D α} {ncf after : Ncf C D} {failure : Failure}
    (run : stage step program ncf = .error failure after) :
    failure.step = step ∧ program ncf = .error failure.code after := by
  cases inner : program ncf with
  | ok a middle =>
    rw [stage_of_ok step inner] at run
    cases run
  | error code middle =>
    rw [stage_of_error step inner] at run
    cases run
    exact ⟨rfl, rfl⟩

theorem stage_ok {α : Type} {step : Step} {program : Api C D α} {ncf after : Ncf C D} {a : α}
    (run : stage step program ncf = .ok a after) : program ncf = .ok a after := by
  cases inner : program ncf with
  | ok a middle =>
    rw [stage_of_ok step inner] at run
    cases run
    rfl
  | error code middle =>
    rw [stage_of_error step inner] at run
    cases run

-- The operations of a driver go through Augeas and write nothing themselves.
def Backend.Safe (backend : Backend C D F) (augeas : Augeas C D) : Prop :=
  ∀ disk tables, backend.Respects augeas (Sound disk tables)

section Define

variable [EmptyCollection C] {augeas : Augeas C D} {backend : Backend C D F}
  {disk : D} {tables : List (Option Entries)}

theorem augSave_error {ncf after : Ncf C D} {code : Errcode} (run : augSave augeas ncf = .error code after)
    (sound : Sound disk tables ncf) : Sound disk tables after := by
  rcases bind_error run with failed | ⟨_, middle, attempted, rest⟩
  · exact ((sound_kept augeas disk tables).attempt _).error failed sound
  · have still := ((sound_kept augeas disk tables).attempt _).ok attempted sound
    rcases bind_error rest with failed | ⟨files, later, found, saved⟩
    · exact preserves_tree.error failed still
    · cases saved

-- A save that fails has written nothing; one that succeeds leaves only make_netcf_if to fail.
theorem drvDefine_error (safe : backend.Safe augeas) {libxml : Libxml} {text : String}
    {ncf after : Ncf C D} {failure : Failure}
    (run : drvDefine augeas backend libxml text ncf = .error failure after)
    (before : failure.step ≠ .makeNetcfIf) (sound : Sound disk tables ncf) : Sound disk tables after := by
  have inTree : Preserves (Sound disk tables) (defineInTree augeas backend libxml text) :=
    (sound_kept augeas disk tables).defineInTree (safe disk tables) (fun _ => trivial) libxml text
  rcases bind_error run with failed | ⟨name, middle, ran, rest⟩
  · exact inTree.error failed sound
  · have still := inTree.ok ran sound
    rcases bind_error rest with failed | ⟨_, saved, _, made⟩
    · exact augSave_error (stage_error failed).2 still
    · exact absurd (stage_error made).1 before

theorem drvUndefine_error (safe : backend.Safe augeas) {nif : NetcfIf} {ncf after : Ncf C D}
    {code : Errcode} (run : drvUndefine augeas backend nif ncf = .error code after)
    (sound : Sound disk tables ncf) : Sound disk tables after := by
  have kept := sound_kept augeas disk tables
  have setup := kept.bondSetup (safe disk tables).toReads (fun _ => trivial) nif.name false
  have remove := (safe disk tables).rmInterface nif.name
  rcases bind_error run with failed | ⟨_, one, ran, rest⟩
  · exact kept.getAugeas.error failed sound
  replace sound := kept.getAugeas.ok ran sound
  rcases bind_error rest with failed | ⟨_, two, ran, rest⟩
  · exact setup.error failed sound
  replace sound := setup.ok ran sound
  rcases bind_error rest with failed | ⟨_, three, ran, rest⟩
  · exact remove.error failed sound
  · exact augSave_error rest (remove.ok ran sound)

end Define

section Calls

variable [EmptyCollection C] (augeas : Augeas C D) (backend : Backend C D F) (libxml : Libxml)

-- The public calls, each with the faults that occur in it. A call that only looks at the configuration starts with
-- get_augeas and works on the tree it gets.
inductive Call
  | look (faults : List Bool)
  | define (text : String) (faults : List Bool)
  | undefine (nif : NetcfIf) (faults : List Bool)

inductive Answer (C : Type)
  | tree (files : Files C)
  | defined (nif : NetcfIf)
  | undefined
  | failed (failure : Failure)
  | refused (code : Errcode)

def Answer.writes : Answer C → Bool
  | .tree _ | .refused _ => false
  | .defined _ | .undefined => true
  | .failed failure => failure.step = .makeNetcfIf

def enter (faults : List Bool) (ncf : Ncf C D) : Ncf C D :=
  apiEntry { ncf with faults := faults }

def obtained (result : EStateM.Result Errcode (Ncf C D) Unit) : Answer C :=
  match result with
  | .error code _ => .refused code
  | .ok _ after =>
    match after.augeas with
    | some aug => .tree aug.files
    | none => .refused .internal

def serve : Call → Ncf C D → Answer C × Ncf C D
  | .look faults, ncf =>
    let result := getAugeas augeas (enter faults ncf)
    (obtained result, final result)
  | .define text faults, ncf =>
    match drvDefine augeas backend libxml text (enter faults ncf) with
    | .ok nif after => (.defined nif, after)
    | .error failure after => (.failed failure, after)
  | .undefine nif faults, ncf =>
    match drvUndefine augeas backend nif (enter faults ncf) with
    | .ok _ after => (.undefined, after)
    | .error code after => (.refused code, after)

-- After drv_init: one table is registered and no instance exists yet.
def fresh (table : Entries) (disk : D) : Ncf C D where
  disk := disk
  augeas := none
  augeasXfmTables := [some table]
  copyAugeasXfm := true
  loadAugeas := false
  faults := []

variable {augeas backend libxml}

omit [EmptyCollection C] in
theorem sound_enter {disk : D} {tables : List (Option Entries)} {ncf : Ncf C D}
    (sound : Sound disk tables ncf) (faults : List Bool) : Sound disk tables (enter faults ncf) :=
  ⟨sound.store, sound.registered⟩

theorem serve_sound (safe : backend.Safe augeas) {disk : D} {tables : List (Option Entries)}
    {call : Call} {ncf : Ncf C D} (sound : Sound disk tables ncf)
    (quiet : (serve augeas backend libxml call ncf).1.writes = false) :
    Sound disk tables (serve augeas backend libxml call ncf).2 := by
  cases call with
  | look faults => exact (sound_kept augeas disk tables).getAugeas _ (sound_enter sound faults)
  | define text faults =>
    cases run : drvDefine augeas backend libxml text (enter faults ncf) with
    | ok nif after => simp [serve, run, Answer.writes] at quiet
    | error failure after =>
      have before : failure.step ≠ .makeNetcfIf := by simpa [serve, run, Answer.writes] using quiet
      simp only [serve, run]
      exact drvDefine_error safe run before (sound_enter sound faults)
  | undefine nif faults =>
    cases run : drvUndefine augeas backend nif (enter faults ncf) with
    | ok _ after => simp [serve, run, Answer.writes] at quiet
    | error code after =>
      simp only [serve, run]
      exact drvUndefine_error safe run (sound_enter sound faults)

omit [EmptyCollection C] in
theorem preserves_registered {ε α : Type} {program : EStateM ε (Ncf C D) α}
    (sound : ∀ disk tables, Preserves (Sound disk tables) program) : Preserves Registered program := by
  intro ncf registered
  exact (sound ncf.disk ncf.augeasXfmTables ncf ⟨⟨rfl, rfl⟩, registered⟩).registered

theorem registered_kept (augeas : Augeas C D) : Kept augeas Registered fun _ => True where
  faults _ _ registered := registered
  getAugeas := preserves_registered fun disk tables => (sound_kept augeas disk tables).getAugeas
  augUpdate code change allowed :=
    preserves_registered fun disk tables => (sound_kept augeas disk tables).augUpdate code change allowed

omit [EmptyCollection C] in
theorem registered_respects (safe : backend.Safe augeas) : backend.Respects augeas Registered where
  rmInterface name := preserves_registered fun disk tables => (safe disk tables).rmInterface name
  augPutXml forest := preserves_registered fun disk tables => (safe disk tables).augPutXml forest
  isBond name := preserves_registered fun disk tables => (safe disk tables).isBond name
  isBridge name := preserves_registered fun disk tables => (safe disk tables).isBridge name
  bridgeSlaves name := preserves_registered fun disk tables => (safe disk tables).bridgeSlaves name

theorem registered_augSave : Preserves Registered (augSave augeas) :=
  ((registered_kept augeas).attempt _).bind fun _ =>
    preserves_tree.bind fun _ => preserves_modify fun _ registered => registered

theorem registered_serve (safe : backend.Safe augeas) (call : Call) {ncf : Ncf C D}
    (registered : Registered ncf) : Registered (serve augeas backend libxml call ncf).2 := by
  have kept := registered_kept augeas
  have respects := registered_respects safe
  cases call with
  | look faults => exact kept.getAugeas (enter faults ncf) registered
  | define text faults =>
    have defines : Preserves Registered (drvDefine augeas backend libxml text) :=
      (kept.defineInTree respects (fun _ => trivial) libxml text).bind fun _ =>
        (preserves_stage _ registered_augSave).bind fun _ => preserves_stage _
          ((kept.attempt _).bind fun _ => preserves_pure _)
    have after := defines (enter faults ncf) registered
    simp only [serve]
    cases run : drvDefine augeas backend libxml text (enter faults ncf) <;> rw [run] at after <;> exact after
  | undefine nif faults =>
    have undefines : Preserves Registered (drvUndefine augeas backend nif) :=
      kept.getAugeas.bind fun _ => (kept.bondSetup respects.toReads (fun _ => trivial) nif.name false).bind fun _ =>
        (respects.rmInterface _).bind fun _ => registered_augSave
    have after := undefines (enter faults ncf) registered
    simp only [serve]
    cases run : drvUndefine augeas backend nif (enter faults ncf) <;> rw [run] at after <;> exact after

-- Whatever a call obtains from get_augeas is what the disk holds.
theorem obtained_tree {disk : D} {tables : List (Option Entries)} {ncf : Ncf C D}
    (sound : Sound disk tables ncf) {faults : List Bool} {files : Files C}
    (answer : obtained (getAugeas augeas (enter faults ncf)) = .tree files) :
    files = augeas.read (entries tables) disk := by
  cases run : getAugeas augeas (enter faults ncf) with
  | error code after =>
    rw [run] at answer
    cases answer
  | ok _ after =>
    have loaded := @getAugeas_loads _ _ _ _ { ncf with faults := faults } _ sound.registered run
    rw [run] at answer
    simp only [obtained, loaded.present, Answer.tree.injEq] at answer
    rw [← answer, ← sound.store.1, ← sound.store.2]

theorem obtained_calm {disk : D} {tables : List (Option Entries)} {ncf : Ncf C D}
    (sound : Sound disk tables ncf) :
    obtained (getAugeas augeas (enter [] ncf)) = .tree (augeas.read (entries tables) disk) := by
  obtain ⟨_, after, run, _⟩ := @runs_getAugeas _ _ _ augeas (enter [] ncf) rfl
  have loaded := @getAugeas_loads _ _ _ _ { ncf with faults := [] } _ sound.registered run
  rw [run]
  simp only [obtained, loaded.present]
  rw [← sound.store.1, ← sound.store.2]

-- As long as no call writes, every tree is the one on the disk at the start.
theorem run_sound (safe : backend.Safe augeas) {disk : D} {tables : List (Option Entries)}
    {calls : List Call} {ncf : Ncf C D} (sound : Sound disk tables ncf)
    (quiet : ∀ answer ∈ (run (serve augeas backend libxml) calls ncf).1, answer.writes = false) :
    Sound disk tables (run (serve augeas backend libxml) calls ncf).2 ∧
      ∀ files, .tree files ∈ (run (serve augeas backend libxml) calls ncf).1 →
        files = augeas.read (entries tables) disk := by
  induction calls generalizing ncf with
  | nil => exact ⟨sound, by simp [run]⟩
  | cons call rest ih =>
    simp only [run, List.mem_cons] at quiet ⊢
    have moved := serve_sound safe sound (quiet _ (Or.inl rfl))
    obtain ⟨after, trees⟩ := ih moved (fun answer member => quiet answer (Or.inr member))
    refine ⟨after, ?_⟩
    rintro files (here | later)
    · cases call with
      | look faults => exact obtained_tree sound here.symm
      | define text faults =>
        simp only [serve] at here
        split at here <;> cases here
      | undefine nif faults =>
        simp only [serve] at here
        split at here <;> cases here
    · exact trees files later

def reached (augeas : Augeas C D) (backend : Backend C D F) (libxml : Libxml) (table : Entries) (disk : D)
    (history : List Call) : Ncf C D :=
  (run (serve augeas backend libxml) history (fresh table disk)).2

theorem registered_reached (safe : backend.Safe augeas) (table : Entries) (disk : D)
    (history : List Call) : Registered (reached augeas backend libxml table disk history) := by
  apply run_invariant (serve augeas backend libxml) Registered (fun _ => True)
    (fun call ncf _ registered => registered_serve safe call registered) history (fun _ _ => trivial)
  intro copied
  simp [fresh] at copied

theorem failed_define_leaves_tree (safe : backend.Safe augeas) {table : Entries} {disk : D}
    {history later : List Call} {text : String} {faults : List Bool} {failure : Failure}
    {before after : Ncf C D} (start : before = reached augeas backend libxml table disk history)
    (failed : serve augeas backend libxml (.define text faults) before = (.failed failure, after))
    (listed : failure.step ≠ .makeNetcfIf)
    (quiet : ∀ answer ∈ (run (serve augeas backend libxml) later after).1, answer.writes = false) :
    ∃ files, (serve augeas backend libxml (.look []) before).1 = .tree files ∧
      (serve augeas backend libxml (.look []) (run (serve augeas backend libxml) later after).2).1 =
        .tree files ∧
      ∀ found, .tree found ∈ (run (serve augeas backend libxml) later after).1 → found = files := by
  have registered : Registered before := start ▸ registered_reached safe table disk history
  have sound : Sound before.disk before.augeasXfmTables before := ⟨⟨rfl, rfl⟩, registered⟩
  have still : Sound before.disk before.augeasXfmTables after := by
    have silent : (serve augeas backend libxml (.define text faults) before).1.writes = false := by
      simpa [failed, Answer.writes] using listed
    have moved := serve_sound safe sound silent
    rwa [failed] at moved
  obtain ⟨ended, trees⟩ := run_sound safe still quiet
  exact ⟨_, obtained_calm sound, obtained_calm ended, trees⟩

end Calls

end Netcf.Linux
