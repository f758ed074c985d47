import Netcf.Shared.Simulation

set_option autoImplicit false

-- What a transaction is for: a value that is edited in place, with at most one saved earlier value.
namespace Netcf.Transaction.Abstract

open Shared.Simulation

variable {M : Type}

structure State (M : Type) where
  current : M
  saved : Option M

inductive Action (M : Type) where
  | begin
  | commit
  | rollback
  | edit (change : M → M)

def invalid : Nat := 199

def step : Action M → State M → Nat × State M
  | .begin, s =>
      match s.saved with
      | none => (0, { s with saved := some s.current })
      | some _ => (invalid, s)
  | .commit, s =>
      match s.saved with
      | none => (invalid, s)
      | some _ => (0, { s with saved := none })
  | .rollback, s =>
      match s.saved with
      | none => (invalid, s)
      | some m => (0, ⟨m, none⟩)
  | .edit change, s => (0, { s with current := change s.current })

theorem step_status (a : Action M) (s : State M) : (step a s).1 = 0 ∨ (step a s).1 = invalid := by
  cases a with
  | edit change => exact Or.inl rfl
  | begin => cases opened : s.saved <;> simp [step, opened]
  | commit => cases opened : s.saved <;> simp [step, opened]
  | rollback => cases opened : s.saved <;> simp [step, opened]

theorem step_refused {a : Action M} {s : State M} (refused : (step a s).1 = invalid) : (step a s).2 = s := by
  cases a with
  | edit change => simp [step, invalid] at refused
  | begin => cases opened : s.saved <;> simp_all [step, invalid]
  | commit => cases opened : s.saved <;> simp_all [step, invalid]
  | rollback => cases opened : s.saved <;> simp_all [step, invalid]

theorem begin_saves {s : State M} (begun : (step .begin s).1 = 0) :
    (step .begin s).2.saved = some s.current := by
  cases opened : s.saved with
  | none => simp [step, opened]
  | some m => simp [step, opened, invalid] at begun

theorem rollback_returns {s : State M} {m : M} (saved : s.saved = some m) : (step .rollback s).2 = ⟨m, none⟩ := by
  simp [step, saved]

-- Nothing but a commit or a rollback closes an open transaction.
def Action.keepsOpen : Action M → Prop
  | .commit | .rollback => False
  | .begin | .edit _ => True

theorem step_saved (m : M) (a : Action M) (s : State M) (open_ : a.keepsOpen)
    (saved : s.saved = some m) : (step a s).2.saved = some m := by
  cases a with
  | begin => simp [step, saved]
  | edit change => simpa [step] using saved
  | commit => exact open_.elim
  | rollback => exact open_.elim

theorem run_saved (m : M) (actions : List (Action M)) (s : State M)
    (open_ : ∀ a ∈ actions, a.keepsOpen) (saved : s.saved = some m) :
    (run step actions s).2.saved = some m :=
  run_invariant step (fun s => s.saved = some m) Action.keepsOpen (step_saved m) actions open_ s saved

theorem rollback_restores (s : State M) (closed : s.saved = none) (between : List (Action M))
    (open_ : ∀ a ∈ between, a.keepsOpen) :
    (run step (.begin :: between ++ [.rollback]) s).2 = ⟨s.current, none⟩ := by
  have opened : (step .begin s).2.saved = some s.current := by simp [step, closed]
  have kept := run_saved s.current between (step .begin s).2 open_ opened
  have rolled (t : State M) (saved : t.saved = some s.current) :
      (step .rollback t).2 = ⟨s.current, none⟩ := by
    simp [step, saved]
  simp only [List.cons_append, run, run_append]
  exact rolled _ kept

-- Somebody asks for an action. What is asked for may not reach the value, and what is answered need not be what
-- the action answers.
structure Request (M R : Type) where
  action : Option (Action M)
  reply : Nat → R

def Request.serve {R : Type} (request : Request M R) (s : State M) : R × State M :=
  match request.action with
  | none => (request.reply 0, s)
  | some action => (request.reply (step action s).1, (step action s).2)

end Netcf.Transaction.Abstract
