import Netcf.Transaction.Refinement

set_option autoImplicit false

-- The script when commands fail: whether a failed change_begin leaves a transaction behind, and whether a
-- failed change_rollback can be repeated.
namespace Netcf.Transaction

variable {Content : Type}

theorem copyLoop_finished (cp : FileName → Option (Option Content)) (source : Dir Content)
    (names : List FileName) (target : Dir Content) :
    (copyLoop cp source names target).finished = true ↔
      ∀ name ∈ names, name ∈ source → cp name = none := by
  induction names generalizing target with
  | nil => simp [copyLoop]
  | cons first rest ih =>
      cases present : source.lookup first with
      | none =>
          have absent : first ∉ source := AList.lookup_eq_none.mp present
          simp [copyLoop, present, ih, absent]
      | some c =>
          have here : first ∈ source := AList.lookup_isSome.mp (by simp [present])
          cases outcome : cp first <;> simp [copyLoop, present, outcome, ih, here]

theorem copyLoop_glob_finished (cp : FileName → Option (Option Content)) (source target : Dir Content) :
    (copyLoop cp source (glob source) target).finished = true ↔ ∀ name ∈ source, cp name = none := by
  rw [copyLoop_finished]
  exact ⟨fun all name present => all name ((mem_glob source name).mpr present) present,
    fun all name _ present => all name present⟩

theorem copyLoop_log (cp : FileName → Option (Option Content)) (source : Dir Content)
    (names : List FileName) (target : Dir Content)
    (finished : (copyLoop cp source names target).finished = true) :
    ∀ e ∈ (copyLoop cp source names target).log, e.failed = false := by
  induction names generalizing target with
  | nil => simp [copyLoop]
  | cons first rest ih =>
      cases present : source.lookup first with
      | none =>
          simp only [copyLoop, present] at finished ⊢
          exact ih target finished
      | some c =>
          cases outcome : cp first with
          | none =>
              simp only [copyLoop, present, outcome, List.forall_mem_cons, true_and] at finished ⊢
              exact ih _ finished
          | some left => simp [copyLoop, present, outcome] at finished

theorem changeBegin_outcome (faults : Faults Content) (w : World Content) (closed : w.snapshot = none) :
    ((changeBegin faults w).status = 0 ↔
        faults.mkdir = false ∧ (∀ name ∈ w.config, faults.save name = none) ∧ faults.date = false) ∧
      ((changeBegin faults w).world.snapshot = none ↔ faults.mkdir = true) := by
  have loop := copyLoop_glob_finished faults.save w.config ∅
  by_cases made : faults.mkdir
  · simp [changeBegin, closed, made]
  · cases finished : (copyLoop faults.save w.config (glob w.config) ∅).finished <;>
      cases dated : faults.date <;> simp_all [changeBegin]

theorem changeRollback_closed [DecidableEq Content] (faults : Faults Content) (stamp : String)
    (w : World Content) (closed : w.snapshot = none) :
    changeRollback faults stamp w = ⟨einvalidInThisState, w, []⟩ := by
  simp [changeRollback, closed]

theorem changeBegin_config (faults : Faults Content) (w : World Content) :
    (changeBegin faults w).world.config = w.config := by
  unfold changeBegin
  split
  · rfl
  · simp only
    split_ifs <;> rfl

def BeginIsAtomic [DecidableEq Content] (faults : Faults Content) (w : World Content) : Prop :=
  (changeBegin faults w).status ≠ 0 →
    (changeBegin faults w).world.snapshot = none ∧
      ∀ later stamp argument, argument = .changeRollback ∨ argument = .start →
        files (main argument later stamp (changeBegin faults w).world).world.config = files w.config

theorem begin_atomic_iff [DecidableEq Content] (faults : Faults Content) (w : World Content)
    (closed : w.snapshot = none) :
    BeginIsAtomic faults w ↔
      faults.mkdir = true ∨
        (∀ name ∈ w.config, faults.save name = none) ∧ faults.date = false := by
  obtain ⟨status, snapshot⟩ := changeBegin_outcome faults w closed
  constructor
  · intro atomic
    by_cases ok : (changeBegin faults w).status = 0
    · exact .inr (status.mp ok).2
    · exact .inl (snapshot.mp (atomic ok).1)
  · intro condition failed
    have made : faults.mkdir = true := by
      by_contra fine
      obtain made | ⟨saved, dated⟩ := condition
      · exact fine made
      · exact failed (status.mpr ⟨by simpa using fine, saved, dated⟩)
    have gone := snapshot.mpr made
    refine ⟨gone, ?_⟩
    rintro later stamp argument (rfl | rfl) <;>
      simp [main, changeRollback_closed later stamp _ gone, changeBegin_config]

def twoFiles : World Nat where
  config := (AList.singleton ⟨.ifcfg, "lo"⟩ 2).insert ⟨.ifcfg, "eth0"⟩ 1
  snapshot := none
  rollbacks := ∅

def loSaveFails : Faults Nat :=
  { Faults.none with save := fun name => if name.suffix = "lo" then some none else none }

theorem begin_atomic_iff_mkdir :
    twoFiles.snapshot = none ∧ BeginIsAtomic { Faults.none with mkdir := true } twoFiles :=
  ⟨rfl, (begin_atomic_iff { Faults.none with mkdir := true } twoFiles rfl).mpr (.inl rfl)⟩

-- The copy of the second file fails: the half-made snapshot stays, and the next rollback deletes
-- the file that was not copied.
theorem begin_failure_deletes_config :
    twoFiles.snapshot = none ∧ ¬ BeginIsAtomic loSaveFails twoFiles ∧
      (changeBegin loSaveFails twoFiles).status = 1 ∧
      (changeBegin loSaveFails twoFiles).world.snapshot ≠ none ∧
      files twoFiles.config ⟨.ifcfg, "lo"⟩ = some 2 ∧
      files (main .changeRollback Faults.none "t" (changeBegin loSaveFails twoFiles).world).world.config
        ⟨.ifcfg, "lo"⟩ = none ∧
      files (main .start Faults.none "t" (changeBegin loSaveFails twoFiles).world).world.config
        ⟨.ifcfg, "lo"⟩ = none := by
  have opened : (changeBegin loSaveFails twoFiles).world.snapshot ≠ none := by decide
  exact ⟨rfl, fun atomic => opened (atomic (by decide)).1, by decide, opened, by decide, by decide, by decide⟩

variable [DecidableEq Content]

-- The restoring loop has to leave at this file: it is to be copied back, and the `cp` fails.
def stops (faults : Faults Content) (config saved : FileName → Option Content) (name : FileName) : Bool :=
  match config name, saved name with
  | some current, some c => differs faults name c current && (faults.restore name).isSome
  | _, _ => false

theorem restoreFile_outcome (faults : Faults Content) (name : FileName)
    (config snapshot : Dir Content) (ret : Nat) (present : name ∈ config) :
    let round := restoreFile faults name config snapshot ret
    round.finished = !stops faults (files config) (files snapshot) name ∧
      files round.snapshot = (if stops faults (files config) (files snapshot) name || faults.rmCopy name
        then files snapshot else Function.update (files snapshot) name none) ∧
      (∀ other ≠ name, files round.config other = files config other) := by
  obtain ⟨current, found⟩ := Option.isSome_iff_exists.mp (AList.lookup_isSome.mpr present)
  have now : files config name = some current := found
  cases saved : snapshot.lookup name with
  | none =>
      have gone : files snapshot name = none := saved
      have unchanged := update_eq_files gone
      cases removed : faults.rmConfig name <;>
        simp +contextual [restoreFile, found, saved, stops, now, gone, removed, unchanged, files_erase]
  | some c =>
      have kept : files snapshot name = some c := saved
      cases copied : faults.restore name with
      | none =>
          cases changed : differs faults name c current <;> cases erased : faults.rmCopy name <;>
            simp +contextual [restoreFile, found, saved, stops, now, kept, copied, changed, erased,
              files_erase, files_insert]
      | some left =>
          cases changed : differs faults name c current <;> cases erased : faults.rmCopy name <;>
            cases left <;>
            simp +contextual [restoreFile, found, saved, stops, now, kept, copied, changed, erased,
              files_erase, files_insert, leave]

omit [DecidableEq Content] in
-- The files of the rounds to come are still there.
theorem present_later {first : FileName} {rest : List FileName} {before after : Dir Content} (fresh : first ∉ rest)
    (present : ∀ name ∈ first :: rest, name ∈ before)
    (others : ∀ other ≠ first, files after other = files before other) : ∀ name ∈ rest, name ∈ after := by
  intro name member
  have here := present name (List.mem_cons_of_mem first member)
  rw [← AList.lookup_isSome] at here ⊢
  exact (congrArg Option.isSome (others name fun same => fresh (same ▸ member))).trans here

theorem restoreLoop_outcome (faults : Faults Content) (stop : FileName → Bool) (names : List FileName)
    (config snapshot : Dir Content) (ret : Nat) (distinct : names.Nodup)
    (present : ∀ name ∈ names, name ∈ config)
    (agrees : ∀ name ∈ names, stop name = stops faults (files config) (files snapshot) name) :
    let loop := restoreLoop faults names config snapshot ret
    (loop.finished = true ↔ ∀ name ∈ names, stop name = false) ∧
      files loop.snapshot = fun name =>
        if name ∈ names.takeWhile (fun name => !stop name) ∧ faults.rmCopy name = false then none
        else files snapshot name := by
  induction names generalizing config snapshot ret with
  | nil => simp [restoreLoop]
  | cons first rest ih =>
      obtain ⟨fresh, distinct⟩ := List.nodup_cons.mp distinct
      obtain ⟨done, copies, others⟩ :=
        restoreFile_outcome faults first config snapshot ret (present first (by simp))
      rw [← agrees first (by simp)] at done copies
      cases stopped : stop first with
      | true =>
          simp only [stopped, Bool.not_true, Bool.true_or, if_true] at done copies
          simp [restoreLoop, done, stopped, copies]
      | false =>
          simp only [stopped, Bool.not_false, Bool.false_or] at done copies
          simp only [restoreLoop, done, if_true]
          generalize restoreFile faults first config snapshot ret = round at done copies others
          have elsewhere (name : FileName) (member : name ∈ rest) : name ≠ first :=
            fun same => fresh (same ▸ member)
          have still := present_later fresh present others
          have untouched (name : FileName) (member : name ∈ rest) :
              files round.snapshot name = files snapshot name := by
            rw [copies]
            split_ifs <;> simp [elsewhere name member]
          obtain ⟨done', copies'⟩ := ih round.config round.snapshot round.rollbackRet distinct still
            (by
              intro name member
              rw [agrees name (List.mem_cons_of_mem first member)]
              simp only [stops, others name (elsewhere name member), untouched name member])
          refine ⟨by simpa [stopped] using done', copies'.trans ?_⟩
          funext name
          by_cases same : name = first
          · subst same
            have later : name ∉ rest.takeWhile (fun name => !stop name) :=
              fun member => fresh ((List.takeWhile_sublist _).subset member)
            cases erased : faults.rmCopy name <;> simp [copies, erased, stopped, later]
          · have here : files round.snapshot name = files snapshot name := by
              rw [copies]
              split_ifs <;> simp [same]
            simp [stopped, same, here]

theorem changeRollback_snapshot (faults : Faults Content) (stamp : String) (w : World Content)
    (saved : Dir Content) (opened : w.snapshot = some saved) :
    let loop := restoreLoop faults (glob w.config) w.config saved 0
    let outcome := changeRollback faults stamp w
    outcome.world.snapshot =
      if faults.mkdir = true ∨ ∃ name ∈ w.config, faults.save name ≠ none then some saved
      else if loop.finished = true ∧ ∀ name ∈ loop.snapshot, faults.restoreLeft name = none then
        faults.rmSnapshot.map (restrict loop.snapshot)
      else some loop.snapshot := by
  have archive := copyLoop_glob_finished faults.save w.config
    (((pruneLoop faults (obsolete w) 0 w.rollbacks).rollbacks.lookup stamp).getD ∅)
  have left := copyLoop_glob_finished faults.restoreLeft
    (restoreLoop faults (glob w.config) w.config saved 0).snapshot
    (restoreLoop faults (glob w.config) w.config saved 0).config
  cases made : faults.mkdir with
  | true => simp [changeRollback, opened, made]
  | false =>
      by_cases archived : ∀ name ∈ w.config, faults.save name = none
      · have done := archive.mpr archived
        have fine : ¬ ∃ name ∈ w.config, faults.save name ≠ none := by simpa using archived
        by_cases finished : (restoreLoop faults (glob w.config) w.config saved 0).finished = true
        · by_cases copied : ∀ name ∈ (restoreLoop faults (glob w.config) w.config saved 0).snapshot,
              faults.restoreLeft name = none
          · have done' := left.mpr copied
            intro loop outcome
            rw [if_neg (by simpa using fine), if_pos ⟨finished, copied⟩]
            cases removed : faults.rmSnapshot <;>
              simp [outcome, loop, changeRollback, opened, made, done, finished, done', removeSnapshot,
                removed]
          · have done' := mt left.mp copied
            intro loop outcome
            rw [if_neg (by simpa using fine), if_neg (fun reached => copied reached.2)]
            simp [outcome, loop, changeRollback, opened, made, done, finished, done']
        · simp [changeRollback, opened, made, done, fine, finished]
      · have done := mt archive.mp archived
        have broken : ∃ name ∈ w.config, faults.save name ≠ none := by simpa using archived
        simp [changeRollback, opened, made, done, broken]

-- No saved file has been erased from the snapshot when a failing `change_rollback` returns: it failed while it was
-- archiving the config, or every saved file it passed kept its copy because the `rm` failed, and so did those that
-- a failing final `rm -rf` met.
def Resumable (faults : Faults Content) (config : Dir Content) (saved : FileName → Option Content) : Prop :=
  (faults.mkdir = true ∨ ∃ name ∈ config, faults.save name ≠ none) ∨
    (∀ name ∈ (glob config).takeWhile (fun name => !stops faults (files config) saved name),
        saved name ≠ none → faults.rmCopy name = true) ∧
      ((∀ name ∈ config, stops faults (files config) saved name = false) →
        (∀ name, saved name ≠ none → faults.restoreLeft name = none) →
        ∀ kept, faults.rmSnapshot = some kept → ∀ name, saved name ≠ none → kept name = true)

omit [DecidableEq Content] in
theorem passed_intact_iff {faults : Faults Content} {passed : List FileName} {saved left : Dir Content}
    (copies : files left = fun name =>
      if name ∈ passed ∧ faults.rmCopy name = false then none else files saved name) :
    files left = files saved ↔ ∀ name ∈ passed, files saved name ≠ none → faults.rmCopy name = true := by
  rw [copies]
  constructor
  · intro same name inside kept
    by_contra erased
    have at_ := congrFun same name
    simp only [inside, Bool.not_eq_true] at at_ erased
    exact kept (by simpa [erased] using at_.symm)
  · intro all
    funext name
    by_cases kept : files saved name = none
    · simp [kept]
    · have here (inside : name ∈ passed) := all name inside kept
      split_ifs with gone
      · simp [here gone.1] at gone
      · rfl

omit [DecidableEq Content] in
theorem restrict_intact_iff {snapshot saved : Dir Content} (kept : FileName → Bool)
    (smaller : ∀ name, files saved name = none → files snapshot name = none) :
    files (restrict snapshot kept) = files saved ↔
      files snapshot = files saved ∧ ∀ name, files saved name ≠ none → kept name = true := by
  have restricted (name : FileName) :
      files (restrict snapshot kept) name = if kept name then files snapshot name else none :=
    lookup_restrict snapshot kept name
  constructor
  · intro same
    have each (name : FileName) (present : files saved name ≠ none) :
        kept name = true ∧ files snapshot name = files saved name := by
      have at_ := congrFun same name
      rw [restricted] at at_
      split_ifs at at_ with keep
      · exact ⟨keep, at_⟩
      · exact absurd at_.symm present
    refine ⟨?_, fun name present => (each name present).1⟩
    funext name
    by_cases present : files saved name = none
    · rw [smaller name present, present]
    · exact (each name present).2
  · rintro ⟨same, all⟩
    funext name
    rw [restricted, same]
    split_ifs with keep
    · rfl
    · by_contra present
      exact keep (all name (fun absent => present absent.symm))

theorem snapshot_intact_iff (faults : Faults Content) (stamp : String) (w : World Content)
    (saved left : Dir Content) (opened : w.snapshot = some saved)
    (remains : (changeRollback faults stamp w).world.snapshot = some left) :
    files left = files saved ↔ Resumable faults w.config (files saved) := by
  obtain ⟨finished, copies⟩ := restoreLoop_outcome faults
    (stops faults (files w.config) (files saved)) (glob w.config) w.config saved 0
    (nodup_glob w.config) (fun name => (mem_glob w.config name).mp) (fun _ _ => rfl)
  rw [changeRollback_snapshot faults stamp w saved opened] at remains
  generalize restoreLoop faults (glob w.config) w.config saved 0 = loop at finished copies remains
  have intact := passed_intact_iff copies
  have members (same : files loop.snapshot = files saved) (name : FileName) :
      name ∈ loop.snapshot ↔ files saved name ≠ none := by
    rw [← same]
    simp [files, AList.lookup_eq_none]
  have completed : loop.finished = true ↔
      ∀ name ∈ w.config, stops faults (files w.config) (files saved) name = false := by
    simpa [mem_glob] using finished
  split_ifs at remains with archive reached
  · obtain rfl : saved = left := by simpa using remains
    simp [Resumable, archive]
  · obtain ⟨kept, removed, rfl⟩ := Option.map_eq_some_iff.mp remains
    have smaller (name : FileName) (absent : files saved name = none) : files loop.snapshot name = none := by
      rw [copies]
      simp [absent]
    rw [restrict_intact_iff kept smaller]
    simp only [Resumable, archive, false_or, ← intact, removed, Option.some.injEq]
    refine and_congr_right fun same => ⟨?_, fun final => ?_⟩
    · rintro all - - other rfl
      exact all
    · exact final (completed.mp reached.1) (fun name present => reached.2 name ((members same name).mpr present)) kept rfl
  · obtain rfl : loop.snapshot = left := by simpa using remains
    simp only [Resumable, archive, false_or, ← intact]
    refine ⟨fun same => ⟨same, fun passed copied => ?_⟩, fun both => both.1⟩
    refine absurd ⟨completed.mpr passed, fun name present => ?_⟩ reached
    exact copied name ((members same name).mp present)

omit [DecidableEq Content] in
theorem changeBegin_saved (faults : Faults Content) (w : World Content) (closed : w.snapshot = none)
    (begun : (changeBegin faults w).status = 0) :
    ∃ saved, (changeBegin faults w).world.snapshot = some saved ∧ files saved = files w.config := by
  obtain ⟨made, saved, dated⟩ := (changeBegin_outcome faults w closed).1.mp begun
  obtain ⟨done, dir⟩ := copyLoop_glob faults.save w.config ∅ saved
  refine ⟨_, by simp [changeBegin, closed, made, done], dir.trans ?_⟩
  funext name
  simp [files]

def World.edit (w : World Content) (config : Dir Content) : World Content :=
  { w with config := config }

theorem rollback_retry_iff (beginFaults faults : Faults Content) (stamp again : String)
    (w : World Content) (edited : Dir Content) (closed : w.snapshot = none)
    (begun : (changeBegin beginFaults w).status = 0)
    (remains : (changeRollback faults stamp
      ((changeBegin beginFaults w).world.edit edited)).world.snapshot ≠ none) :
    files (changeRollback Faults.none again (changeRollback faults stamp
        ((changeBegin beginFaults w).world.edit edited)).world).world.config = files w.config ↔
      Resumable faults edited (files w.config) := by
  obtain ⟨saved, opened, same⟩ := changeBegin_saved beginFaults w closed begun
  obtain ⟨left, still⟩ := Option.ne_none_iff_exists'.mp remains
  obtain ⟨-, restored, -⟩ := changeRollback_succeeds again _ left still
  rw [restored, ← same]
  exact snapshot_intact_iff faults stamp ((changeBegin beginFaults w).world.edit edited)
    saved left opened still

theorem rollback_retry_iff_archive :
    (changeRollback loSaveFails "t" ((changeBegin Faults.none twoFiles).world.edit twoFiles.config)).status = 1 ∧
      files (changeRollback Faults.none "u" (changeRollback loSaveFails "t"
        ((changeBegin Faults.none twoFiles).world.edit twoFiles.config)).world).world.config =
        files twoFiles.config := by
  have resumable : Resumable loSaveFails twoFiles.config (files twoFiles.config) :=
    Or.inl (Or.inr ⟨⟨.ifcfg, "lo"⟩, by decide, by decide⟩)
  refine ⟨by decide, ?_⟩
  exact (rollback_retry_iff Faults.none loSaveFails "t" "u" twoFiles twoFiles.config rfl (by decide)
    (by decide)).mpr resumable

-- Both files were edited. The first one is restored and its copy erased, then the `cp` of the
-- second one fails: the second rollback takes the first file for a new one and removes it.
theorem rollback_retry_loses_config :
    let edited : Dir Nat := (AList.singleton ⟨.ifcfg, "lo"⟩ 4).insert ⟨.ifcfg, "eth0"⟩ 3
    let faults : Faults Nat :=
      { Faults.none with restore := fun name => if name.suffix = "lo" then some (some 4) else none }
    let failed := changeRollback faults "t" ((changeBegin Faults.none twoFiles).world.edit edited)
    (changeBegin Faults.none twoFiles).status = 0 ∧ failed.status = 1 ∧ failed.world.snapshot ≠ none ∧
      files failed.world.config ⟨.ifcfg, "eth0"⟩ = some 1 ∧
      files twoFiles.config ⟨.ifcfg, "eth0"⟩ = some 1 ∧
      files (changeRollback Faults.none "u" failed.world).world.config ⟨.ifcfg, "eth0"⟩ = none := by
  decide

end Netcf.Transaction
