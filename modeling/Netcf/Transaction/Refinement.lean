import Netcf.Transaction.Abstract
import Netcf.Transaction.Script

set_option autoImplicit false

-- Without failing commands the script acts on the files of a directory, taken as a map, as the abstract
-- transaction does.
namespace Netcf.Transaction

open Shared.Simulation

variable {Content : Type}

def files (d : Dir Content) : FileName → Option Content := fun name => d.lookup name

theorem files_insert (d : Dir Content) (name : FileName) (c : Content) :
    files (d.insert name c) = Function.update (files d) name (some c) := by
  funext other
  by_cases same : other = name
  · subst same
    simp [files]
  · simp [files, same, AList.lookup_insert_ne]

theorem files_erase (d : Dir Content) (name : FileName) :
    files (d.erase name) = Function.update (files d) name none := by
  funext other
  by_cases same : other = name
  · subst same
    simp [files]
  · simp [files, same, AList.lookup_erase_ne]

theorem files_of_not_mem_glob (d : Dir Content) (name : FileName) (absent : name ∉ glob d) :
    files d name = none := by
  rw [mem_glob] at absent
  exact AList.lookup_eq_none.mpr absent

theorem update_eq_files {d : Dir Content} {name : FileName} {c : Option Content}
    (holds : files d name = c) : Function.update (files d) name c = files d := by
  rw [← holds]
  exact Function.update_eq_self name (files d)

theorem copyLoop_succeeds (cp : FileName → Option (Option Content)) (source : Dir Content)
    (names : List FileName) (target : Dir Content)
    (succeed : ∀ name ∈ names, name ∈ source → cp name = none) :
    (copyLoop cp source names target).finished = true ∧
      files (copyLoop cp source names target).dir = fun name =>
        if name ∈ names then (files source name).or (files target name) else files target name := by
  induction names generalizing target with
  | nil => simp [copyLoop]
  | cons first rest ih =>
      have later (target : Dir Content) := ih target
        (fun name member => succeed name (List.mem_cons_of_mem first member))
      cases present : source.lookup first with
      | none =>
          obtain ⟨done, dir⟩ := later target
          refine ⟨by simpa [copyLoop, present] using done, ?_⟩
          funext name
          have at_ := congrFun dir name
          have missing : files source first = none := present
          by_cases same : name = first
          · subst same
            simp_all [copyLoop]
          · simpa [copyLoop, present, same] using at_
      | some c =>
          have ok : cp first = none := succeed first (by simp)
            (AList.lookup_isSome.mp (by simp [present]))
          obtain ⟨done, dir⟩ := later (target.insert first c)
          refine ⟨by simpa [copyLoop, present, ok] using done, ?_⟩
          funext name
          have at_ := congrFun dir name
          have found : files source first = some c := present
          by_cases same : name = first
          · subst same
            simp_all [copyLoop, files_insert]
          · simpa [copyLoop, present, ok, same, files_insert] using at_

theorem copyLoop_glob (cp : FileName → Option (Option Content)) (source target : Dir Content)
    (succeed : ∀ name ∈ source, cp name = none) :
    (copyLoop cp source (glob source) target).finished = true ∧
      files (copyLoop cp source (glob source) target).dir =
        fun name => (files source name).or (files target name) := by
  obtain ⟨done, dir⟩ := copyLoop_succeeds cp source (glob source) target
    (fun name _ present => succeed name present)
  refine ⟨done, dir.trans ?_⟩
  funext name
  by_cases listed : name ∈ glob source
  · simp [listed]
  · simp [listed, files_of_not_mem_glob source name listed]

variable [DecidableEq Content]

theorem restoreFile_succeeds (name : FileName) (config snapshot : Dir Content) (ret : Nat)
    (present : name ∈ config) :
    let round := restoreFile Faults.none name config snapshot ret
    round.finished = true ∧ round.rollbackRet = ret ∧
      files round.config = Function.update (files config) name (files snapshot name) ∧
      files round.snapshot = Function.update (files snapshot) name none := by
  obtain ⟨current, found⟩ := Option.isSome_iff_exists.mp (AList.lookup_isSome.mpr present)
  cases saved : snapshot.lookup name with
  | none =>
      have gone : files snapshot name = none := saved
      have unchanged := update_eq_files gone
      simp [restoreFile, found, saved, Faults.none, files_erase, gone, unchanged]
  | some c =>
      have kept : files snapshot name = some c := saved
      by_cases same : c = current
      · subst same
        have unchanged := update_eq_files (d := config) found
        simp [restoreFile, found, saved, Faults.none, differs, files_erase, kept, unchanged]
      · simp [restoreFile, found, saved, Faults.none, differs, files_erase, files_insert, kept, same]

theorem restoreLoop_succeeds (names : List FileName) (config snapshot : Dir Content) (ret : Nat)
    (distinct : names.Nodup) (present : ∀ name ∈ names, name ∈ config) :
    let loop := restoreLoop Faults.none names config snapshot ret
    loop.finished = true ∧ loop.rollbackRet = ret ∧
      (files loop.config = fun name =>
        if name ∈ names then files snapshot name else files config name) ∧
      files loop.snapshot = fun name => if name ∈ names then none else files snapshot name := by
  induction names generalizing config snapshot ret with
  | nil => simp [restoreLoop]
  | cons first rest ih =>
      obtain ⟨fresh, distinct⟩ := List.nodup_cons.mp distinct
      obtain ⟨done, status, settled, dropped⟩ :=
        restoreFile_succeeds first config snapshot ret (present first (by simp))
      -- the round only touches its own file, so the later files are still there
      have still : ∀ name ∈ rest, name ∈ (restoreFile Faults.none first config snapshot ret).config := by
        intro name member
        have other : name ≠ first := fun same => fresh (same ▸ member)
        have here := present name (List.mem_cons_of_mem first member)
        rw [← AList.lookup_isSome] at here ⊢
        have at_ := congrFun settled name
        simp only [files, Function.update_of_ne other] at at_
        rwa [at_]
      obtain ⟨done', status', settled', dropped'⟩ := ih _ _
        (restoreFile Faults.none first config snapshot ret).rollbackRet distinct still
      simp only [restoreLoop, done, if_true]
      refine ⟨done', status'.trans status, settled'.trans ?_, dropped'.trans ?_⟩ <;>
        funext name <;> by_cases same : name = first <;>
        simp [settled, dropped, same, fresh]

theorem changeRollback_succeeds (stamp : String) (w : World Content) (saved : Dir Content)
    (opened : w.snapshot = some saved) :
    (changeRollback Faults.none stamp w).status = 0 ∧
      files (changeRollback Faults.none stamp w).world.config = files saved ∧
      (changeRollback Faults.none stamp w).world.snapshot = none := by
  obtain ⟨archived, -⟩ := copyLoop_glob (Faults.none : Faults Content).save w.config
    (((pruneLoop Faults.none (obsolete w) 0 w.rollbacks).rollbacks.lookup stamp).getD ∅)
    (fun _ _ => rfl)
  obtain ⟨done, status, settled, dropped⟩ := restoreLoop_succeeds (glob w.config) w.config saved 0
    (nodup_glob w.config) (fun name => (mem_glob w.config name).mp)
  obtain ⟨copied, result⟩ := copyLoop_glob (Faults.none : Faults Content).restoreLeft
    (restoreLoop Faults.none (glob w.config) w.config saved 0).snapshot
    (restoreLoop Faults.none (glob w.config) w.config saved 0).config (fun _ _ => rfl)
  have unlisted (name : FileName) (absent : name ∉ glob w.config) : files w.config name = none :=
    files_of_not_mem_glob w.config name absent
  have mkdir : (Faults.none : Faults Content).mkdir = false := rfl
  have rmSnapshot : (Faults.none : Faults Content).rmSnapshot = none := rfl
  simp only [changeRollback, opened, mkdir, archived, done, copied, if_true, removeSnapshot, rmSnapshot]
  refine ⟨status, result.trans ?_, rfl⟩
  funext name
  rw [settled, dropped]
  by_cases listed : name ∈ glob w.config
  · simp [listed]
  · simp [listed, unlisted name listed]

omit [DecidableEq Content] in
theorem changeBegin_succeeds (w : World Content) (closed : w.snapshot = none) :
    (changeBegin Faults.none w).status = 0 ∧
      (changeBegin Faults.none w).world.config = w.config ∧
      (changeBegin Faults.none w).world.snapshot.map files = some (files w.config) := by
  obtain ⟨done, dir⟩ := copyLoop_glob (Faults.none : Faults Content).save w.config ∅ (fun _ _ => rfl)
  have mkdir : (Faults.none : Faults Content).mkdir = false := rfl
  have date : (Faults.none : Faults Content).date = false := rfl
  simp only [changeBegin, closed, mkdir, done, date, if_true]
  refine ⟨rfl, rfl, congrArg some (dir.trans ?_)⟩
  funext name
  simp [files]

inductive Action (Content : Type) where
  | changeBegin
  | changeCommit
  | changeRollback (stamp : String)
  | write (name : FileName) (c : Content)
  | delete (name : FileName)

def step : Action Content → World Content → Nat × World Content
  | .changeBegin, w => ((changeBegin Faults.none w).status, (changeBegin Faults.none w).world)
  | .changeCommit, w => ((changeCommit Faults.none w).status, (changeCommit Faults.none w).world)
  | .changeRollback stamp, w =>
      ((changeRollback Faults.none stamp w).status, (changeRollback Faults.none stamp w).world)
  | .write name c, w => (0, { w with config := w.config.insert name c })
  | .delete name, w => (0, { w with config := w.config.erase name })

-- The directories as maps; the rollback archives are not part of the transaction.
def view (w : World Content) : Abstract.State (FileName → Option Content) :=
  ⟨files w.config, w.snapshot.map files⟩

def Action.abstract : Action Content → Abstract.Action (FileName → Option Content)
  | .changeBegin => .begin
  | .changeCommit => .commit
  | .changeRollback _ => .rollback
  | .write name c => .edit fun m => Function.update m name (some c)
  | .delete name => .edit fun m => Function.update m name none

theorem step_simulates :
    Simulates view (@step Content _) (fun a => Abstract.step a.abstract) := by
  intro a w
  cases a with
  | changeBegin =>
      cases opened : w.snapshot with
      | none =>
          obtain ⟨status, config, snapshot⟩ := changeBegin_succeeds w opened
          simp [step, view, Action.abstract, Abstract.step, status, config, snapshot, opened]
      | some saved => simp [step, view, Action.abstract, Abstract.step, changeBegin, opened,
          einvalidInThisState, Abstract.invalid]
  | changeCommit =>
      cases opened : w.snapshot <;>
        simp [step, view, Action.abstract, Abstract.step, changeCommit, opened, Faults.none,
          einvalidInThisState, Abstract.invalid]
  | changeRollback stamp =>
      cases opened : w.snapshot with
      | none => simp [step, view, Action.abstract, Abstract.step, changeRollback, opened,
          einvalidInThisState, Abstract.invalid]
      | some saved =>
          obtain ⟨status, config, snapshot⟩ := changeRollback_succeeds stamp w saved opened
          simp [step, view, Action.abstract, Abstract.step, status, config, snapshot, opened]
  | write name c => simp [step, view, Action.abstract, Abstract.step, files_insert]
  | delete name => simp [step, view, Action.abstract, Abstract.step, files_erase]

structure Transactional (w : World Content) : Prop where
  begin_iff : (changeBegin Faults.none w).status = 0 ↔ w.snapshot = none
  begin_saves : w.snapshot = none →
    view (changeBegin Faults.none w).world = ⟨files w.config, some (files w.config)⟩
  commit_iff : (changeCommit Faults.none w).status = 0 ↔ w.snapshot ≠ none
  commit_keeps : w.snapshot ≠ none → view (changeCommit Faults.none w).world = ⟨files w.config, none⟩
  rollback_iff : ∀ stamp, (changeRollback Faults.none stamp w).status = 0 ↔ w.snapshot ≠ none
  rollback_restores : ∀ stamp saved, w.snapshot = some saved →
    view (changeRollback Faults.none stamp w).world = ⟨files saved, none⟩
  refused : ∀ a, (step a w).1 ≠ 0 → step a w = (199, w)

theorem transactional (w : World Content) : Transactional w := by
  cases opened : w.snapshot with
  | none =>
      obtain ⟨begun, config, snapshot⟩ := changeBegin_succeeds w opened
      refine ⟨?_, ?_, ?_, ?_, ?_, ?_, ?_⟩
      · simp [begun, opened]
      · intro _
        simp [view, config, snapshot]
      · simp [changeCommit, opened, einvalidInThisState]
      · simp [opened]
      · simp [changeRollback, opened, einvalidInThisState]
      · simp [opened]
      · intro a refused
        cases a <;> simp_all [step, changeCommit, changeRollback, einvalidInThisState]
  | some saved =>
      refine ⟨?_, ?_, ?_, ?_, ?_, ?_, ?_⟩
      · simp [changeBegin, opened, einvalidInThisState]
      · simp [opened]
      · simp [changeCommit, opened, Faults.none]
      · intro _
        simp [changeCommit, opened, Faults.none, view]
      · intro stamp
        simp [changeRollback_succeeds stamp w saved opened, opened]
      · intro stamp other same
        obtain ⟨-, config, snapshot⟩ := changeRollback_succeeds stamp w saved opened
        obtain rfl : saved = other := by simpa [opened] using same
        simp [view, config, snapshot]
      · intro a refused
        cases a with
        | changeBegin => simp [step, changeBegin, opened, einvalidInThisState]
        | changeRollback stamp => simp [step, changeRollback_succeeds stamp w saved opened] at refused
        | _ => simp [step, changeCommit, opened, Faults.none] at refused

def Action.keepsOpen (a : Action Content) : Prop := a.abstract.keepsOpen

-- Every run of the script and of edits is a run of the abstract transaction, with the same statuses; in every
-- state it reaches the functions behave as a transaction does; and a rollback returns to the config map of the
-- begin it belongs to, whatever was edited in between.
theorem script_refines_transaction (actions : List (Action Content)) (start : World Content) :
    (run step actions start).1 =
        (run (fun a => Abstract.step a.abstract) actions (view start)).1 ∧
      view (run step actions start).2 =
        (run (fun a => Abstract.step a.abstract) actions (view start)).2 ∧
      Transactional (run step actions start).2 ∧
      ∀ between stamp, (run step actions start).2.snapshot = none → (∀ a ∈ between, Action.keepsOpen a) →
        view (run step (.changeBegin :: between ++ [.changeRollback stamp]) (run step actions start).2).2 =
          view (run step actions start).2 := by
  obtain ⟨statuses, views⟩ := step_simulates.run actions start
  refine ⟨statuses, views, transactional _, ?_⟩
  intro between stamp closed open_
  generalize (run step actions start).2 = w at closed
  have restored := Abstract.rollback_restores (view w) (by simp [view, closed])
    (between.map Action.abstract) (by simpa [Action.keepsOpen] using open_)
  rw [(step_simulates.run _ w).2, run_comp]
  simp only [List.cons_append, List.map_cons, List.map_append, List.map_nil, Action.abstract] at restored ⊢
  rw [restored]
  simp [view, closed]

end Netcf.Transaction
