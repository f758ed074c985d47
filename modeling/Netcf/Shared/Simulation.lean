import Mathlib.Data.List.Basic

set_option autoImplicit false

-- Runs of a deterministic machine that answers every action, and functions from one machine to another.
namespace Shared.Simulation

universe u v w x y

variable {A : Type u} {B : Type y} {O : Type v} {S : Type w} {T : Type x}

def run (step : A → S → O × S) : List A → S → List O × S
  | [], s => ([], s)
  | a :: rest, s =>
      let next := step a s
      let later := run step rest next.2
      (next.1 :: later.1, later.2)

theorem run_append (step : A → S → O × S) (front back : List A) (s : S) :
    run step (front ++ back) s =
      ((run step front s).1 ++ (run step back (run step front s).2).1,
        (run step back (run step front s).2).2) := by
  induction front generalizing s with
  | nil => rfl
  | cons a rest ih => simp [run, ih]

theorem run_comp (step : A → S → O × S) (f : B → A) (actions : List B) (s : S) :
    run (fun b => step (f b)) actions s = run step (actions.map f) s := by
  induction actions generalizing s with
  | nil => rfl
  | cons b rest ih => simp [run, ih]

-- One step of the concrete machine is one step of the abstract one.
def Simulates (view : S → T) (concrete : A → S → O × S) (abstract : A → T → O × T) : Prop :=
  ∀ a s, (concrete a s).1 = (abstract a (view s)).1 ∧
    view (concrete a s).2 = (abstract a (view s)).2

theorem Simulates.run {view : S → T} {concrete : A → S → O × S} {abstract : A → T → O × T}
    (simulates : Simulates view concrete abstract) (actions : List A) (s : S) :
    (Simulation.run concrete actions s).1 = (Simulation.run abstract actions (view s)).1 ∧
      view (Simulation.run concrete actions s).2 =
        (Simulation.run abstract actions (view s)).2 := by
  induction actions generalizing s with
  | nil => exact ⟨rfl, rfl⟩
  | cons a rest ih =>
      obtain ⟨output, moved⟩ := simulates a s
      have later := ih (concrete a s).2
      rw [moved] at later
      simp only [Simulation.run, output]
      exact ⟨congrArg _ later.1, later.2⟩

-- The same for a run of which only the actions that occur are known to simulate.
theorem simulated_run (view : S → T) {concrete : A → S → O × S} {abstract : A → T → O × T} (actions : List A)
    (steps : ∀ a ∈ actions, ∀ s, (concrete a s).1 = (abstract a (view s)).1 ∧
      view (concrete a s).2 = (abstract a (view s)).2) (s : S) :
    (run concrete actions s).1 = (run abstract actions (view s)).1 ∧
      view (run concrete actions s).2 = (run abstract actions (view s)).2 := by
  induction actions generalizing s with
  | nil => exact ⟨rfl, rfl⟩
  | cons a rest ih =>
      obtain ⟨output, moved⟩ := steps a (by simp) s
      have later := ih (fun b member => steps b (List.mem_cons_of_mem a member)) (concrete a s).2
      rw [moved] at later
      simp only [run, output]
      exact ⟨congrArg _ later.1, later.2⟩

theorem run_invariant (step : A → S → O × S) (keeps : S → Prop)
    (allowed : A → Prop) (preserved : ∀ a s, allowed a → keeps s → keeps (step a s).2)
    (actions : List A) (fine : ∀ a ∈ actions, allowed a) (s : S) (start : keeps s) :
    keeps (run step actions s).2 := by
  induction actions generalizing s with
  | nil => exact start
  | cons a rest ih =>
      apply ih (fun b member => fine b (List.mem_cons_of_mem a member))
      exact preserved a s (fine a (by simp)) start

-- What is kept by every step whose answer allows for it holds after a run with such answers.
theorem run_answered (step : A → S → O × S) (keeps : S → Prop) (allowed : A → O → Prop)
    (preserved : ∀ a s, keeps s → allowed a (step a s).1 → keeps (step a s).2) (actions : List A) (s : S)
    (fine : ∀ pair ∈ actions.zip (run step actions s).1, allowed pair.1 pair.2) (start : keeps s) :
    keeps (run step actions s).2 := by
  induction actions generalizing s with
  | nil => exact start
  | cons a rest ih =>
      simp only [run, List.zip_cons_cons, List.forall_mem_cons] at fine
      exact ih (step a s).2 fine.2 (preserved a s start fine.1)

end Shared.Simulation
