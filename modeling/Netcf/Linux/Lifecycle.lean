import Netcf.Linux.Augeas

set_option autoImplicit false

-- What get_augeas guarantees, from any state in which the flags of the driver can be.
namespace Netcf.Linux

open Shared.Faulty

variable {C D : Type}

theorem attempt_calm (code : Errcode) {ncf : Ncf C D} (calm : ncf.faults = []) :
    attempt code ncf = .ok () ncf := by
  simp [attempt, flaky, calm, bind, EStateM.bind, pure, EStateM.pure]

theorem attempt_cases (code : Errcode) (ncf : Ncf C D) :
    ∃ later, attempt code ncf = .ok () { ncf with faults := later } ∨
      attempt code ncf = .error code { ncf with faults := later } := by
  cases faults : ncf.faults with
  | nil => exact ⟨ncf.faults, Or.inl (attempt_calm code faults)⟩
  | cons fails later =>
    refine ⟨later, ?_⟩
    cases fails
    · left
      simp [attempt, flaky, faults, bind, EStateM.bind, pure, EStateM.pure]
    · right
      have stops : (flaky : Api C D Bool) ncf = .ok true { ncf with faults := later } := by simp [flaky, faults]
      unfold attempt
      rw [bind_of_ok _ stops]
      rfl

theorem flaky_run (ncf : Ncf C D) :
    ∃ fails later, flaky ncf = .ok fails { ncf with faults := later } := by
  unfold flaky
  split
  · exact ⟨false, ncf.faults, rfl⟩
  · exact ⟨_, _, rfl⟩

theorem attempt_ok {code : Errcode} {ncf after : Ncf C D} (run : attempt code ncf = .ok () after) :
    ∃ later, after = { ncf with faults := later } := by
  rcases attempt_cases code ncf with ⟨later, succeeded | failed⟩
  · rw [run] at succeeded
    cases succeeded
    exact ⟨later, rfl⟩
  · rw [run] at failed
    cases failed

theorem preserves_attempt (code : Errcode) {good : Ncf C D → Prop}
    (stays : ∀ ncf later, good ncf → good { ncf with faults := later }) :
    Preserves good (attempt code) := by
  intro ncf before
  rcases attempt_cases code ncf with ⟨later, run | run⟩ <;> rw [run] <;> exact stays ncf later before

theorem loadErrors_cases (ncf : Ncf C D) :
    ∃ later, loadErrors ncf = .ok () { ncf with faults := later } ∨
      loadErrors ncf = .error .other { ncf with faults := later } := by
  obtain ⟨fails, later, ran⟩ := flaky_run ncf
  unfold loadErrors
  rw [bind_of_ok _ ran]
  cases fails
  · exact attempt_cases .other { ncf with faults := later }
  · exact ⟨later, Or.inl rfl⟩

theorem preserves_loadErrors {good : Ncf C D → Prop}
    (stays : ∀ ncf later, good ncf → good { ncf with faults := later }) :
    Preserves good (loadErrors : Api C D Unit) := by
  intro ncf before
  rcases loadErrors_cases ncf with ⟨later, run | run⟩ <;> rw [run] <;> exact stays ncf later before

theorem loadErrors_ok {ncf after : Ncf C D} (run : loadErrors ncf = .ok () after) :
    ∃ later, after = { ncf with faults := later } := by
  rcases loadErrors_cases ncf with ⟨later, succeeded | failed⟩
  · rw [run] at succeeded
    cases succeeded
    exact ⟨later, rfl⟩
  · rw [run] at failed
    cases failed

-- The entries under /augeas/load when all tables have been copied.
def entries (tables : List (Option Entries)) : Entries :=
  tables.reduceOption.flatten.foldl setEntry []

def Registered (ncf : Ncf C D) : Prop :=
  ncf.copyAugeasXfm = false → ∀ aug ∈ ncf.augeas, aug.load = entries ncf.augeasXfmTables

theorem copyLoop_ok {list : Entries} {ncf after : Ncf C D} {aug : Instance C} (present : ncf.augeas = some aug)
    (run : (list.forM fun entry => do
      attempt .other
      updateInstance fun aug => { aug with load := setEntry aug.load entry } : Api C D Unit) ncf = .ok () after) :
    ∃ later, after = { ncf with
      augeas := some { aug with load := list.foldl setEntry aug.load }, faults := later } := by
  induction list generalizing ncf aug with
  | nil =>
    cases run
    exact ⟨after.faults, by rw [List.foldl_nil, ← present]⟩
  | cons entry rest ih =>
    obtain ⟨_, middle, first, others⟩ := bind_ok run
    obtain ⟨_, start, attempted, updated⟩ := bind_ok first
    obtain ⟨later, rfl⟩ := attempt_ok attempted
    cases updated
    exact ih (by rw [present]; rfl) others

structure Unchanged (before after : Ncf C D) : Prop where
  disk : after.disk = before.disk
  tables : after.augeasXfmTables = before.augeasXfmTables

-- An instance that is there is kept; otherwise there is a new one, whose tables are still to be copied.
theorem createInstance_cases [EmptyCollection C] {ncf after : Ncf C D} (run : createInstance ncf = .ok () after) :
    (∃ aug, ncf.augeas = some aug ∧ after = ncf) ∨
      ∃ later, after =
        { ncf with augeas := some ⟨[], ⟨∅, [], []⟩⟩, copyAugeasXfm := true, faults := later } := by
  obtain ⟨_, start, found, rest⟩ := bind_ok run
  cases found
  cases present : ncf.augeas with
  | some aug =>
    simp only [present, Option.isNone_some, Bool.false_eq_true, if_false] at rest
    cases rest
    exact Or.inl ⟨aug, rfl, rfl⟩
  | none =>
    simp only [present, Option.isNone_none, if_true] at rest
    obtain ⟨_, one, first, rest⟩ := bind_ok rest
    obtain ⟨_, two, second, rest⟩ := bind_ok rest
    obtain ⟨later, rfl⟩ := attempt_ok first
    obtain ⟨later', rfl⟩ := attempt_ok second
    cases rest
    exact Or.inr ⟨later', rfl⟩

theorem createInstance_ok [EmptyCollection C] {ncf after : Ncf C D} (registered : Registered ncf)
    (run : createInstance ncf = .ok () after) :
    Unchanged ncf after ∧ after.loadAugeas = ncf.loadAugeas ∧ Registered after ∧
      ∃ aug, after.augeas = some aug := by
  rcases createInstance_cases run with ⟨aug, present, rfl⟩ | ⟨later, rfl⟩
  · exact ⟨⟨rfl, rfl⟩, rfl, registered, aug, present⟩
  · exact ⟨⟨rfl, rfl⟩, rfl, by simp [Registered], _, rfl⟩

theorem copyTables_ok {ncf after : Ncf C D} {aug : Instance C} (registered : Registered ncf)
    (present : ncf.augeas = some aug) (run : copyTables ncf = .ok () after) :
    Unchanged ncf after ∧ (ncf.loadAugeas = true → after.loadAugeas = true) ∧
      after.copyAugeasXfm = false ∧
      ∃ files, after.augeas = some ⟨entries ncf.augeasXfmTables, files⟩ := by
  obtain ⟨_, start, found, rest⟩ := bind_ok run
  cases found
  cases copy : ncf.copyAugeasXfm with
  | false =>
    simp only [copy, Bool.false_eq_true, if_false] at rest
    cases rest
    refine ⟨⟨rfl, rfl⟩, id, copy, aug.files, ?_⟩
    rw [present, ← registered copy aug present]
  | true =>
    simp only [copy, if_true] at rest
    obtain ⟨_, one, first, rest⟩ := bind_ok rest
    obtain ⟨_, two, cleared, rest⟩ := bind_ok rest
    obtain ⟨_, three, state, rest⟩ := bind_ok rest
    obtain ⟨_, four, loop, rest⟩ := bind_ok rest
    obtain ⟨later, rfl⟩ := attempt_ok first
    cases cleared
    cases state
    rcases copyLoop_ok (show _ = some { aug with load := [] } by simp [present]) loop with ⟨later', rfl⟩
    cases rest
    exact ⟨⟨rfl, rfl⟩, fun _ => rfl, rfl, aug.files, rfl⟩

theorem loadFiles_ok {augeas : Augeas C D} {ncf after : Ncf C D} {load : Entries} {files : Files C}
    (present : ncf.augeas = some ⟨load, files⟩) (run : loadFiles augeas ncf = .ok () after) :
    Unchanged ncf after ∧ after.copyAugeasXfm = ncf.copyAugeasXfm ∧ after.loadAugeas = false ∧
      ∃ found, after.augeas = some ⟨load, found⟩ ∧
        (ncf.loadAugeas = true → found = augeas.read load ncf.disk) := by
  obtain ⟨_, start, found, rest⟩ := bind_ok run
  cases found
  cases flag : ncf.loadAugeas with
  | false =>
    simp only [flag, Bool.false_eq_true, if_false] at rest
    cases rest
    exact ⟨⟨rfl, rfl⟩, rfl, flag, files, present, by simp⟩
  | true =>
    simp only [flag, if_true] at rest
    obtain ⟨_, one, first, rest⟩ := bind_ok rest
    obtain ⟨_, two, state, rest⟩ := bind_ok rest
    obtain ⟨_, three, updated, rest⟩ := bind_ok rest
    obtain ⟨_, four, second, rest⟩ := bind_ok rest
    obtain ⟨later, rfl⟩ := attempt_ok first
    cases state
    cases updated
    obtain ⟨later', rfl⟩ := loadErrors_ok second
    cases rest
    exact ⟨⟨rfl, rfl⟩, rfl, rfl, _, by simp [present], fun _ => rfl⟩

section GetAugeas

variable [EmptyCollection C] {augeas : Augeas C D}

theorem getAugeas_body {ncf after : Ncf C D} (run : getAugeas augeas ncf = .ok () after) :
    (do createInstance; copyTables; loadFiles augeas : Api C D Unit) ncf = .ok () after := by
  unfold getAugeas closingOnError at run
  split at run
  · rename_i found
    rw [found]
    exact run
  · cases run

theorem getAugeas_ok {ncf after : Ncf C D} (registered : Registered ncf)
    (run : getAugeas augeas ncf = .ok () after) :
    Unchanged ncf after ∧ after.copyAugeasXfm = false ∧ after.loadAugeas = false ∧
      ∃ files, after.augeas = some ⟨entries ncf.augeasXfmTables, files⟩ ∧
        (ncf.loadAugeas = true → files = augeas.read (entries ncf.augeasXfmTables) ncf.disk) := by
  obtain ⟨_, one, created, rest⟩ := bind_ok (getAugeas_body run)
  obtain ⟨_, two, copied, loaded⟩ := bind_ok rest
  obtain ⟨same, flag, stillRegistered, aug, present⟩ := createInstance_ok registered created
  obtain ⟨same', flag', copy, files, present'⟩ := copyTables_ok stillRegistered present copied
  obtain ⟨same'', copy', load, found, present'', fresh⟩ := loadFiles_ok present' loaded
  refine ⟨⟨?_, ?_⟩, copy'.trans copy, load, found, ?_, ?_⟩
  · rw [same''.disk, same'.disk, same.disk]
  · rw [same''.tables, same'.tables, same.tables]
  · rw [present'', same.tables]
  · intro wanted
    rw [fresh (flag' (flag.trans wanted)), same'.disk, same.disk, same.tables]

theorem getAugeas_registered {ncf after : Ncf C D} (registered : Registered ncf)
    (run : getAugeas augeas ncf = .ok () after) : Registered after := by
  obtain ⟨same, _, _, files, present, _⟩ := getAugeas_ok registered run
  intro _ aug found
  rw [present] at found
  cases found
  rw [same.tables]

def SameStore (disk : D) (tables : List (Option Entries)) (ncf : Ncf C D) : Prop :=
  ncf.disk = disk ∧ ncf.augeasXfmTables = tables

omit [EmptyCollection C] in
theorem preserves_updateInstance (change : Instance C → Instance C) (disk : D)
    (tables : List (Option Entries)) :
    Preserves (SameStore disk tables) (updateInstance change : Api C D Unit) :=
  preserves_modify fun _ before => before

theorem preserves_body (disk : D) (tables : List (Option Entries)) :
    Preserves (SameStore disk tables) (do createInstance; copyTables; loadFiles augeas : Api C D Unit) := by
  have attempts : ∀ code : Errcode, Preserves (SameStore disk tables) (attempt code : Api C D Unit) :=
    fun code => preserves_attempt code fun _ _ before => before
  have create : Preserves (SameStore disk tables) (createInstance : Api C D Unit) :=
    preserves_get.bind fun _ => preserves_ite
      ((attempts _).bind fun _ => (attempts _).bind fun _ => preserves_modify fun _ before => before)
      (preserves_pure _)
  have copy : Preserves (SameStore disk tables) (copyTables : Api C D Unit) :=
    preserves_get.bind fun _ => preserves_ite
      ((attempts _).bind fun _ => (preserves_updateInstance _ _ _).bind fun _ =>
        preserves_get.bind fun _ =>
          (preserves_forM (fun _ => (attempts _).bind fun _ => preserves_updateInstance _ _ _) _).bind fun _ =>
            preserves_modify fun _ before => before)
      (preserves_pure _)
  have errors : Preserves (SameStore disk tables) (loadErrors : Api C D Unit) :=
    preserves_loadErrors fun _ _ before => before
  have load : Preserves (SameStore disk tables) (loadFiles augeas) :=
    preserves_get.bind fun _ => preserves_ite
      ((attempts _).bind fun _ => preserves_get.bind fun _ => (preserves_updateInstance _ _ _).bind fun _ =>
        errors.bind fun _ => preserves_modify fun _ before => before)
      (preserves_pure _)
  exact create.bind fun _ => copy.bind fun _ => load

-- A failed get_augeas drops the instance.
theorem getAugeas_error {ncf after : Ncf C D} {code : Errcode}
    (run : getAugeas augeas ncf = .error code after) :
    Unchanged ncf after ∧ after.augeas = none := by
  unfold getAugeas closingOnError at run
  split at run
  · cases run
  · rename_i found
    cases run
    have kept := (preserves_body ncf.disk ncf.augeasXfmTables).error found ⟨rfl, rfl⟩
    exact ⟨⟨kept.1, kept.2⟩, rfl⟩

def Calm (ncf : Ncf C D) : Prop :=
  ncf.faults = []

omit [EmptyCollection C] in
theorem runs_attempt (code : Errcode) : Runs Calm (attempt code : Api C D Unit) :=
  fun ncf calm => ⟨(), ncf, attempt_calm code calm, calm⟩

omit [EmptyCollection C] in
theorem runs_updateInstance (change : Instance C → Instance C) :
    Runs Calm (updateInstance change : Api C D Unit) :=
  runs_modify fun _ calm => calm

omit [EmptyCollection C] in
theorem runs_loadErrors : Runs Calm (loadErrors : Api C D Unit) := by
  intro ncf calm
  have quiet : (flaky : Api C D Bool) ncf = .ok false ncf := by
    unfold flaky
    rw [calm]
  unfold loadErrors
  rw [bind_of_ok _ quiet]
  exact ⟨(), ncf, attempt_calm _ calm, calm⟩

theorem runs_getAugeas : Runs Calm (getAugeas augeas) := by
  have create : Runs Calm (createInstance : Api C D Unit) :=
    runs_get.bind fun _ => runs_ite
      ((runs_attempt _).bind fun _ => (runs_attempt _).bind fun _ => runs_modify fun _ calm => calm)
      (runs_pure _)
  have copy : Runs Calm (copyTables : Api C D Unit) :=
    runs_get.bind fun _ => runs_ite
      ((runs_attempt _).bind fun _ => (runs_updateInstance _).bind fun _ => runs_get.bind fun _ =>
        (runs_forM (fun _ => (runs_attempt _).bind fun _ => runs_updateInstance _) _).bind fun _ =>
          runs_modify fun _ calm => calm)
      (runs_pure _)
  have load : Runs Calm (loadFiles augeas) :=
    runs_get.bind fun _ => runs_ite
      ((runs_attempt _).bind fun _ => runs_get.bind fun _ => (runs_updateInstance _).bind fun _ =>
        runs_loadErrors.bind fun _ => runs_modify fun _ calm => calm)
      (runs_pure _)
  intro ncf calm
  obtain ⟨_, after, run, still⟩ := (create.bind fun _ => copy.bind fun _ => load) ncf calm
  refine ⟨(), after, ?_, still⟩
  unfold getAugeas closingOnError
  rw [run]

end GetAugeas

section Loaded

variable [EmptyCollection C] {augeas : Augeas C D} {disk : D} {tables : List (Option Entries)}

structure Loaded (disk : D) (tables : List (Option Entries)) (ncf : Ncf C D) (files : Files C) : Prop where
  store : SameStore disk tables ncf
  present : ncf.augeas = some ⟨entries tables, files⟩
  copied : ncf.copyAugeasXfm = false
  loaded : ncf.loadAugeas = false

theorem getAugeas_loads {ncf after : Ncf C D} (registered : Registered ncf)
    (run : getAugeas augeas (apiEntry ncf) = .ok () after) :
    Loaded ncf.disk ncf.augeasXfmTables after
      (augeas.read (entries ncf.augeasXfmTables) ncf.disk) := by
  obtain ⟨same, copy, load, files, present, fresh⟩ := @getAugeas_ok _ _ _ _ (apiEntry ncf) _ registered run
  refine ⟨⟨same.disk, same.tables⟩, ?_, copy, load⟩
  rw [present, fresh rfl]
  rfl

theorem createInstance_present {ncf : Ncf C D} (present : ncf.augeas.isSome = true) :
    createInstance ncf = .ok () ncf := by
  unfold createInstance
  rw [bind_of_ok _ (get_run ncf), Option.isNone_eq_false_iff.mpr present]
  rfl

omit [EmptyCollection C] in
theorem copyTables_copied {ncf : Ncf C D} (copied : ncf.copyAugeasXfm = false) :
    copyTables ncf = .ok () ncf := by
  unfold copyTables
  rw [bind_of_ok _ (get_run ncf), copied]
  rfl

omit [EmptyCollection C] in
theorem loadFiles_loaded {ncf : Ncf C D} (loaded : ncf.loadAugeas = false) :
    loadFiles augeas ncf = .ok () ncf := by
  unfold loadFiles
  rw [bind_of_ok _ (get_run ncf), loaded]
  rfl

theorem getAugeas_loaded {ncf : Ncf C D} {files : Files C} (loaded : Loaded disk tables ncf files) :
    getAugeas augeas ncf = .ok () ncf := by
  have present : ncf.augeas.isSome = true := by
    rw [loaded.present]
    rfl
  unfold getAugeas closingOnError
  rw [bind_of_ok _ (createInstance_present present), bind_of_ok _ (copyTables_copied loaded.copied),
    loadFiles_loaded loaded.loaded]

omit [EmptyCollection C] in
theorem Loaded.faults {ncf : Ncf C D} {files : Files C} (loaded : Loaded disk tables ncf files)
    (later : List Bool) : Loaded disk tables { ncf with faults := later } files :=
  ⟨loaded.store, loaded.present, loaded.copied, loaded.loaded⟩

theorem implements_getAugeas :
    Implements (Loaded disk tables) Calm (getAugeas augeas) (pure () : StateT (Files C) (Except Errcode) Unit) := by
  intro ncf files loaded
  exact Or.inr ⟨ncf, getAugeas_loaded loaded, loaded, id⟩

omit [EmptyCollection C] in
theorem implements_attempt (code : Errcode) :
    Implements (Loaded disk tables) Calm (attempt code : Api C D Unit)
      (pure () : StateT (Files C) (Except Errcode) Unit) := by
  intro ncf files loaded
  by_cases calm : Calm ncf
  · exact Or.inr ⟨ncf, attempt_calm code calm, loaded, id⟩
  · rcases attempt_cases code ncf with ⟨later, run | run⟩
    · exact Or.inr ⟨_, run, loaded.faults later, fun quiet => absurd quiet calm⟩
    · exact Or.inl ⟨calm, code, _, run⟩

omit [EmptyCollection C] in
theorem tree_loaded {ncf : Ncf C D} {files : Files C} (loaded : Loaded disk tables ncf files) :
    tree ncf = .ok files ncf := by
  unfold tree
  rw [bind_of_ok _ (get_run ncf)]
  simp only [loaded.present]
  rfl

omit [EmptyCollection C] in
theorem implements_tree :
    Implements (Loaded disk tables) Calm (tree : Api C D (Files C))
      (get : StateT (Files C) (Except Errcode) (Files C)) := by
  intro ncf files loaded
  exact Or.inr ⟨ncf, tree_loaded loaded, loaded, id⟩

def ask {α : Type} (query : Files C → α) : StateT (Files C) (Except Errcode) α :=
  fun files => .ok (query files, files)

omit [EmptyCollection C] in
theorem implements_augMatch {α : Type} (query : Files C → α) :
    Implements (Loaded disk tables) Calm (augMatch query : Api C D α) (ask query) :=
  (implements_attempt _).bind fun _ => implements_tree.bind fun _ => implements_pure _

-- What a successful aug_rm, aug_set or aug_insert does to the tree.
def change (code : Errcode) (f : Files C → Option (Files C)) : StateT (Files C) (Except Errcode) Unit :=
  fun files =>
    match f files with
    | some changed => .ok ((), changed)
    | none => .error code

omit [EmptyCollection C] in
theorem implements_augUpdate (code : Errcode) (f : Files C → Option (Files C)) :
    Implements (Loaded disk tables) Calm (augUpdate code f : Api C D Unit) (change code f) := by
  have tail : Implements (Loaded disk tables) Calm
      (do match f (← tree) with
        | some changed => updateInstance fun aug => { aug with files := changed }
        | none => throw code : Api C D Unit) (change code f) := by
    intro ncf files loaded
    right
    rw [bind_of_ok _ (tree_loaded loaded), change]
    cases f files with
    | none => exact ⟨ncf, rfl⟩
    | some changed =>
      refine ⟨_, rfl, ⟨loaded.store, ?_, loaded.copied, loaded.loaded⟩, id⟩
      simp [loaded.present]
  exact (implements_attempt code).bind fun _ => tail

omit [EmptyCollection C] in
theorem change_ok {code : Errcode} {f : Files C → Option (Files C)} {files changed : Files C} {u : Unit}
    (run : change code f files = .ok (u, changed)) : f files = some changed := by
  unfold change at run
  cases result : f files with
  | none =>
    rw [result] at run
    cases run
  | some found =>
    rw [result] at run
    cases run
    rfl

omit [EmptyCollection C] in
theorem change_some {code : Errcode} {f : Files C → Option (Files C)} {files changed : Files C}
    (result : f files = some changed) : change code f files = .ok ((), changed) := by
  unfold change
  rw [result]

omit [EmptyCollection C] in
theorem change_none {code : Errcode} {f : Files C → Option (Files C)} {files : Files C}
    (result : f files = none) : change code f files = .error code := by
  unfold change
  rw [result]

omit [EmptyCollection C] in
theorem forM_change_ok {α : Type} {code : Errcode} {f : α → Files C → Option (Files C)} {list : List α}
    {P : Files C → Prop} (keeps : ∀ a ∈ list, ∀ files changed, P files → f a files = some changed → P changed)
    {files after : Files C} {u : Unit} (run : (list.forM fun a => change code (f a)) files = .ok (u, after))
    (before : P files) : P after := by
  induction list generalizing files with
  | nil =>
    cases run
    exact before
  | cons a rest ih =>
    obtain ⟨_, middle, first, others⟩ := model_bind_ok run
    exact ih (fun b later => keeps b (List.mem_cons_of_mem a later)) others
      (keeps a List.mem_cons_self files middle before (change_ok first))

end Loaded

end Netcf.Linux
