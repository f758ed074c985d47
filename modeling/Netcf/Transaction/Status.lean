import Mathlib.Data.List.TakeWhile
import Netcf.Transaction.Failure

set_option autoImplicit false

-- When the status of an invocation of the script tells the truth about what was done.
namespace Netcf.Transaction

variable {Content : Type}

def Event.mustReport (e : Event) : Bool := e.failed && (e.command.copies || e.command.removes)

theorem pruneLoop_log (faults : Faults Content) (stamps : List String) (ret : Nat)
    (rollbacks : AList (fun _ : String => Dir Content)) :
    (∀ e ∈ (pruneLoop faults stamps ret rollbacks).log, e.mustReport = false) ↔
      ∀ r ∈ stamps, faults.prune r = none := by
  induction stamps generalizing ret rollbacks with
  | nil => simp [pruneLoop]
  | cons r rest ih =>
      cases outcome : faults.prune r with
      | none =>
          have quiet : (⟨.rmRollback r, false⟩ : Event).mustReport = false := rfl
          simp only [pruneLoop, outcome, List.forall_mem_cons, quiet, ih, true_and]
      | some kept => simp [pruneLoop, outcome, Event.mustReport, Command.removes]

variable [DecidableEq Content]

def Settles (faults : Faults Content) (config saved : FileName → Option Content) (name : FileName) : Prop :=
  stops faults config saved name = false ∧
    (saved name ≠ none → faults.rmCopy name = false) ∧ (saved name = none → faults.rmConfig name = false)

theorem restoreFile_status (faults : Faults Content) (name : FileName) (config snapshot : Dir Content)
    (present : name ∈ config) :
    let round := restoreFile faults name config snapshot 0
    (round.finished = true ∧ round.rollbackRet = 0 ↔ Settles faults (files config) (files snapshot) name) ∧
      (Settles faults (files config) (files snapshot) name → ∀ e ∈ round.log, e.mustReport = false) := by
  obtain ⟨current, found⟩ := Option.isSome_iff_exists.mp (AList.lookup_isSome.mpr present)
  have now : files config name = some current := found
  cases saved : snapshot.lookup name with
  | none =>
      have gone : files snapshot name = none := saved
      cases removed : faults.rmConfig name <;>
        simp [restoreFile, found, saved, Settles, stops, now, gone, removed, Event.mustReport]
  | some c =>
      have kept : files snapshot name = some c := saved
      cases copied : faults.restore name <;> cases changed : differs faults name c current <;>
        cases erased : faults.rmCopy name <;>
        simp [restoreFile, found, saved, Settles, stops, now, kept, copied, changed, erased,
          Event.mustReport, Command.copies, Command.removes]

-- The status a round starts with is either kept or set to 1.
theorem restoreFile_ret (faults : Faults Content) (name : FileName) (config snapshot : Dir Content) (ret : Nat) :
    (restoreFile faults name config snapshot ret).rollbackRet = ret ∨
      (restoreFile faults name config snapshot ret).rollbackRet = 1 := by
  unfold restoreFile
  cases config.lookup name with
  | none => exact Or.inl rfl
  | some current =>
      cases snapshot.lookup name with
      | none => cases faults.rmConfig name <;> simp
      | some c =>
          cases faults.rmCopy name <;> cases changed : differs faults name c current <;>
            cases faults.restore name <;> simp [changed]

theorem restoreLoop_ret (faults : Faults Content) (names : List FileName) (config snapshot : Dir Content)
    (ret : Nat) :
    (restoreLoop faults names config snapshot ret).rollbackRet = ret ∨
      (restoreLoop faults names config snapshot ret).rollbackRet = 1 := by
  induction names generalizing config snapshot ret with
  | nil => exact Or.inl rfl
  | cons first rest ih =>
      have round := restoreFile_ret faults first config snapshot ret
      simp only [restoreLoop]
      split_ifs
      · rcases ih (restoreFile faults first config snapshot ret).config
          (restoreFile faults first config snapshot ret).snapshot
          (restoreFile faults first config snapshot ret).rollbackRet with kept | set
        · rw [kept]
          exact round
        · exact Or.inr set
      · exact round

theorem restoreLoop_status (faults : Faults Content) (names : List FileName)
    (config snapshot : Dir Content) (distinct : names.Nodup) (present : ∀ name ∈ names, name ∈ config) :
    let loop := restoreLoop faults names config snapshot 0
    (loop.finished = true ∧ loop.rollbackRet = 0 ↔
        ∀ name ∈ names, Settles faults (files config) (files snapshot) name) ∧
      ((∀ name ∈ names, Settles faults (files config) (files snapshot) name) →
        ∀ e ∈ loop.log, e.mustReport = false) := by
  induction names generalizing config snapshot with
  | nil => simp [restoreLoop]
  | cons first rest ih =>
      obtain ⟨fresh, distinct⟩ := List.nodup_cons.mp distinct
      obtain ⟨status, log⟩ := restoreFile_status faults first config snapshot (present first (by simp))
      obtain ⟨done, copies, others⟩ :=
        restoreFile_outcome faults first config snapshot 0 (present first (by simp))
      have ret := restoreLoop_ret faults rest (restoreFile faults first config snapshot 0).config
        (restoreFile faults first config snapshot 0).snapshot
        (restoreFile faults first config snapshot 0).rollbackRet
      simp only [restoreLoop]
      generalize restoreFile faults first config snapshot 0 = round at status log done copies others ret
      by_cases settled : Settles faults (files config) (files snapshot) first
      · obtain ⟨finished, zero⟩ := status.mpr settled
        have elsewhere (name : FileName) (member : name ∈ rest) : name ≠ first :=
          fun same => fresh (same ▸ member)
        have still := present_later fresh present others
        have same (name : FileName) (member : name ∈ rest) :
            Settles faults (files round.config) (files round.snapshot) name ↔
              Settles faults (files config) (files snapshot) name := by
          have untouched : files round.snapshot name = files snapshot name := by
            rw [copies]
            split_ifs <;> simp [elsewhere name member]
          simp only [Settles, stops, others name (elsewhere name member), untouched]
        obtain ⟨status', log'⟩ := ih round.config round.snapshot distinct still
        simp only [forall₂_congr same] at status' log'
        simp only [finished, zero, if_true, List.forall_mem_cons, settled, true_and, List.forall_mem_append]
        exact ⟨status', fun all => ⟨log settled, log' all⟩⟩
      · simp only [List.forall_mem_cons, settled, false_and, iff_false, IsEmpty.forall_iff, and_true]
        split_ifs with finished
        · rintro ⟨_, later⟩
          dsimp only at later
          have zero : round.rollbackRet = 0 := by omega
          exact settled (status.mp ⟨finished, zero⟩)
        · exact fun both => finished both.1

-- What is left over in the snapshot, case (4): the files that the config directory did not have.
theorem restoreLoop_leftover (faults : Faults Content) (config saved : Dir Content)
    (settled : ∀ name ∈ config, Settles faults (files config) (files saved) name) (name : FileName) :
    name ∈ (restoreLoop faults (glob config) config saved 0).snapshot ↔ name ∈ saved ∧ name ∉ config := by
  obtain ⟨-, copies⟩ := restoreLoop_outcome faults (stops faults (files config) (files saved))
    (glob config) config saved 0 (nodup_glob config) (fun name => (mem_glob config name).mp) (fun _ _ => rfl)
  have all : (glob config).takeWhile (fun name => !stops faults (files config) (files saved) name) =
      glob config := by
    rw [List.takeWhile_eq_self_iff]
    intro name member
    simp [(settled name ((mem_glob config name).mp member)).1]
  rw [all] at copies
  rw [← AList.lookup_isSome, ← AList.lookup_isSome]
  change (files _ name).isSome = true ↔ (files saved name).isSome = true ∧ _
  rw [copies]
  by_cases here : name ∈ config
  · cases kept : files saved name with
    | none => simp [kept]
    | some c => simp [here, mem_glob, (settled name here).2.1 (by simp [kept])]
  · simp [here, mem_glob]

-- Every command that the script would run in this state, with the transaction `saved`, succeeds.
-- A failing `cmp` counts as a difference and is not listed.
structure Clean (faults : Faults Content) (w : World Content) (saved : Dir Content) : Prop where
  prune : ∀ r ∈ obsolete w, faults.prune r = none
  mkdir : faults.mkdir = false
  save : ∀ name ∈ w.config, faults.save name = none
  restore : ∀ name ∈ w.config, Settles faults (files w.config) (files saved) name
  restoreLeft : ∀ name ∈ saved, name ∉ w.config → faults.restoreLeft name = none
  rmSnapshot : faults.rmSnapshot = none

theorem changeRollback_stages (faults : Faults Content) (stamp : String) (w : World Content)
    (saved : Dir Content) (opened : w.snapshot = some saved)
    {pruned : Pruned Content} (prune : pruneLoop faults (obsolete w) 0 w.rollbacks = pruned)
    {archived : Copied Content} (archive : copyLoop faults.save w.config (glob w.config)
      ((pruned.rollbacks.lookup stamp).getD ∅) = archived)
    {restored : Restored Content} (restore : restoreLoop faults (glob w.config) w.config saved 0 = restored)
    {left : Copied Content} (copyLeft : copyLoop faults.restoreLeft restored.snapshot
      (glob restored.snapshot) restored.config = left) :
    let outcome := changeRollback faults stamp w
    outcome.status ≤ 1 ∧
      (outcome.status = 0 ↔ faults.mkdir = false ∧ archived.finished = true ∧ restored.finished = true ∧
        left.finished = true ∧ restored.rollbackRet = 0 ∧ faults.rmSnapshot = none) ∧
      (outcome.status = 0 → outcome.log = pruned.log ++ ⟨.mkdir, false⟩ :: archived.log ++ restored.log ++
        left.log ++ [⟨.rmSnapshot, false⟩]) := by
  have bound : restored.rollbackRet ≤ 1 := by
    have ret := restoreLoop_ret faults (glob w.config) w.config saved 0
    rw [restore] at ret
    omega
  simp only [changeRollback, opened, prune, archive, restore, copyLeft, removeSnapshot]
  split_ifs with made archived' restored' left'
  · simp [made]
  · cases faults.rmSnapshot <;> simp_all
  · simp [left']
  · simp [restored']
  · simp [archived']

theorem changeRollback_status (faults : Faults Content) (stamp : String) (w : World Content)
    (saved : Dir Content) (opened : w.snapshot = some saved) :
    let outcome := changeRollback faults stamp w
    outcome.status ≤ 1 ∧
      (outcome.status = 0 ∧ (∀ e ∈ outcome.log, e.mustReport = false) ↔ Clean faults w saved) := by
  have pruned := pruneLoop_log faults (obsolete w) 0 w.rollbacks
  generalize prune : pruneLoop faults (obsolete w) 0 w.rollbacks = p at pruned
  have archived := copyLoop_glob_finished faults.save w.config ((p.rollbacks.lookup stamp).getD ∅)
  have archiveLog := copyLoop_log faults.save w.config (glob w.config) ((p.rollbacks.lookup stamp).getD ∅)
  generalize archive : copyLoop faults.save w.config (glob w.config)
    ((p.rollbacks.lookup stamp).getD ∅) = a at archived archiveLog
  obtain ⟨restored, restoreLog⟩ := restoreLoop_status faults (glob w.config) w.config saved
    (nodup_glob w.config) (fun name => (mem_glob w.config name).mp)
  generalize restore : restoreLoop faults (glob w.config) w.config saved 0 = r at restored restoreLog
  have lefts := copyLoop_glob_finished faults.restoreLeft r.snapshot r.config
  have leftLog := copyLoop_log faults.restoreLeft r.snapshot (glob r.snapshot) r.config
  generalize copyLeft : copyLoop faults.restoreLeft r.snapshot (glob r.snapshot) r.config = l at lefts leftLog
  obtain ⟨bound, zero, logged⟩ :=
    changeRollback_stages faults stamp w saved opened prune archive restore copyLeft
  simp only [mem_glob] at restored restoreLog
  have members (settled : ∀ name ∈ w.config, Settles faults (files w.config) (files saved) name) :=
    restore ▸ restoreLoop_leftover faults w.config saved settled
  have quiet : (⟨.mkdir, false⟩ : Event).mustReport = false ∧
      (⟨.rmSnapshot, false⟩ : Event).mustReport = false := ⟨rfl, rfl⟩
  have silent (e : Event) (fine : e.failed = false) : e.mustReport = false := by
    simp [Event.mustReport, fine]
  refine ⟨bound, ⟨?_, ?_⟩⟩
  · rintro ⟨status, log⟩
    obtain ⟨made, archiveDone, restoreDone, leftDone, ret, removed⟩ := zero.mp status
    have settled := restored.mp ⟨restoreDone, ret⟩
    rw [logged status] at log
    simp only [List.forall_mem_append] at log
    exact ⟨pruned.mp log.1.1.1.1, made, archived.mp archiveDone, settled,
      fun name kept absent => lefts.mp leftDone name ((members settled name).mpr ⟨kept, absent⟩), removed⟩
  · intro clean
    obtain ⟨restoreDone, ret⟩ := restored.mpr clean.restore
    have archiveDone := archived.mpr clean.save
    have leftDone := lefts.mpr (fun name kept =>
      have both := (members clean.restore name).mp kept
      clean.restoreLeft name both.1 both.2)
    have status := zero.mpr ⟨clean.mkdir, archiveDone, restoreDone, leftDone, ret, clean.rmSnapshot⟩
    refine ⟨status, ?_⟩
    rw [logged status]
    simp only [List.forall_mem_append, List.forall_mem_cons, quiet]
    exact ⟨⟨⟨⟨pruned.mpr clean.prune, trivial, fun e member => silent e (archiveLog archiveDone e member)⟩,
      restoreLog clean.restore⟩, fun e member => silent e (leftLog leftDone e member)⟩, trivial, by simp⟩

-- The statuses tell the truth: a commit exits 0 only when the snapshot is gone, a rollback reports every copy and
-- removal that failed, and `start` passes on what its rollback returned, except that there was no transaction.
structure StatusesFaithful (faults : Faults Content) (stamp : String) (w : World Content) : Prop where
  commit : (main .changeCommit faults stamp w).status = 0 →
    (main .changeCommit faults stamp w).world.snapshot = none
  rollback : (∃ e ∈ (main .changeRollback faults stamp w).log, e.mustReport = true) →
    (main .changeRollback faults stamp w).status ≠ 0
  start : (main .start faults stamp w).status =
    if (changeRollback faults stamp w).status = 0 ∨ (changeRollback faults stamp w).status = einvalidInThisState
    then 0 else (changeRollback faults stamp w).status

theorem statuses_faithful_iff (faults : Faults Content) (stamp : String) (w : World Content) :
    StatusesFaithful faults stamp w ↔ ∀ saved, w.snapshot = some saved → Clean faults w saved := by
  have started : (main .start faults stamp w).status = 0 := rfl
  constructor
  · intro faithful saved opened
    obtain ⟨bound, clean⟩ := changeRollback_status faults stamp w saved opened
    have status : (changeRollback faults stamp w).status = 0 := by
      have passed := faithful.start
      rw [started] at passed
      split_ifs at passed with fine
      · rcases fine with zero | invalid
        · exact zero
        · rw [invalid, einvalidInThisState] at bound
          omega
      · exact passed.symm
    refine clean.mp ⟨status, fun e member => ?_⟩
    by_contra failed
    exact faithful.rollback ⟨e, member, by simpa using failed⟩ status
  · intro clean
    cases opened : w.snapshot with
    | none =>
        have rolled := changeRollback_closed faults stamp w opened
        refine ⟨?_, ?_, ?_⟩
        · simp [main, changeCommit, opened]
        · simp [main, rolled]
        · simp [started, rolled]
    | some saved =>
        obtain ⟨-, status⟩ := changeRollback_status faults stamp w saved opened
        obtain ⟨zero, quiet⟩ := status.mpr (clean saved opened)
        refine ⟨?_, ?_, ?_⟩
        · simp [main, changeCommit, opened, (clean saved opened).rmSnapshot]
        · rintro ⟨e, member, failed⟩
          simp [quiet e member] at failed
        · simp [started, zero]

def manyRollbacks : World Nat where
  config := ∅
  snapshot := some ∅
  rollbacks := (List.range 21).foldl (fun stamps n => stamps.insert (toString (n + 10)) ∅) ∅

def snapshotStays : Faults Nat := { Faults.none with rmSnapshot := some fun _ => true }

def archiveStays : Faults Nat := { Faults.none with prune := fun _ => some fun _ => true }

-- Three failures that no status shows: the `rm -rf` of a commit, the `rm -rf` of an old archive,
-- and, at boot, the `mkdir` of a rollback that returned 1.
theorem statuses_hide_failures :
    ¬ StatusesFaithful snapshotStays "t" manyRollbacks ∧
      (main .changeCommit snapshotStays "t" manyRollbacks).status = 0 ∧
      (main .changeCommit snapshotStays "t" manyRollbacks).world.snapshot ≠ none ∧
      (⟨.rmRollback "10", true⟩ : Event) ∈ (main .changeRollback archiveStays "t" manyRollbacks).log ∧
      (main .changeRollback archiveStays "t" manyRollbacks).status = 0 ∧
      (changeRollback { Faults.none with mkdir := true } "t" manyRollbacks).status = 1 ∧
      (main .start { Faults.none with mkdir := true } "t" manyRollbacks).status = 0 := by
  refine ⟨fun faithful => ?_, by decide, by decide, by decide, by decide, by decide, by decide⟩
  exact absurd (faithful.commit (by decide)) (by decide)

end Netcf.Transaction
