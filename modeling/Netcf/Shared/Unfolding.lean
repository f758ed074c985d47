import Mathlib.Data.Fintype.Card
import Mathlib.Data.Set.Finite.List
import Mathlib.Logic.Relation

set_option autoImplicit false

-- Unfolding an acyclic graph, given by the successors of each vertex, into a tree.
namespace Shared.Unfolding

universe u v

variable {α : Type u} {β : Type v} {succ : α → List α}

def Below (succ : α → List α) (b a : α) : Prop :=
  b ∈ succ a

def Acyclic (succ : α → List α) (vertices : List α) : Prop :=
  ∀ a ∈ vertices, ¬Relation.TransGen (Below succ) a a

theorem Acyclic.wellFounded {vertices : List α} (acyclic : Acyclic succ vertices)
    (closed : ∀ a, ∀ b ∈ succ a, b ∈ vertices) : WellFounded (Below succ) := by
  let after : {a // a ∈ vertices} → {a // a ∈ vertices} → Prop := fun b a => Relation.TransGen (Below succ) b.1 a.1
  have : Finite {a // a ∈ vertices} := vertices.finite_toSet.to_subtype
  have : IsTrans {a // a ∈ vertices} after := ⟨fun _ _ _ first second => first.trans second⟩
  have : Std.Irrefl after := ⟨fun a => acyclic a.1 a.2⟩
  have grounded := Finite.wellFounded_of_trans_of_irrefl after
  have inside : ∀ a : {a // a ∈ vertices}, Acc (Below succ) a.1 := by
    intro a
    induction a using grounded.induction with
    | _ a ih => exact ⟨_, fun b step => ih ⟨b, closed a.1 b step⟩ (Relation.TransGen.single step)⟩
  exact ⟨fun a => ⟨_, fun b step => inside ⟨b, closed a b step⟩⟩⟩

theorem acyclic_of_rank {vertices : List α} (rank : α → Nat)
    (less : ∀ a ∈ vertices, ∀ b ∈ succ a, b ∈ vertices ∧ rank b < rank a) : Acyclic succ vertices := by
  have smaller : ∀ {a b}, Relation.TransGen (Below succ) b a → a ∈ vertices → rank b < rank a := by
    intro a b chain
    induction chain with
    | single step => exact fun member => (less _ member _ step).2
    | tail _ step ih =>
      intro member
      obtain ⟨inside, lower⟩ := less _ member _ step
      exact (ih inside).trans lower
  exact fun a member chain => Nat.lt_irrefl _ (smaller chain member)

-- The tree of a vertex, which NODE puts together from the trees of its successors.
noncomputable def unfold (grounded : WellFounded (Below succ)) (node : α → List β → β) : α → β :=
  grounded.fix fun a tree => node a ((succ a).attach.map fun b => tree b.1 b.2)

theorem unfold_eq (grounded : WellFounded (Below succ)) (node : α → List β → β) (a : α) :
    unfold grounded node a = node a ((succ a).map (unfold grounded node)) := by
  unfold unfold
  rw [WellFounded.fix_eq]
  congr 1
  exact List.attach_map_val

theorem exists_bound {P : α → Nat → Prop} (list : List α)
    (each : ∀ a ∈ list, ∃ enough, ∀ fuel ≥ enough, P a fuel) :
    ∃ enough, ∀ fuel ≥ enough, ∀ a ∈ list, P a fuel := by
  induction list with
  | nil => exact ⟨0, fun _ _ _ member => absurd member List.not_mem_nil⟩
  | cons a rest ih =>
    obtain ⟨first, here⟩ := each a List.mem_cons_self
    obtain ⟨second, later⟩ := ih fun b member => each b (List.mem_cons_of_mem _ member)
    refine ⟨max first second, fun fuel enough => List.forall_mem_cons.mpr ⟨?_, ?_⟩⟩
    · exact here fuel (by omega)
    · exact later fuel (by omega)

-- A property that one more unit of fuel carries up from the successors holds with enough of it.
theorem enough_fuel (grounded : WellFounded (Below succ)) {P : α → Nat → Prop}
    (step : ∀ a fuel, (∀ b ∈ succ a, P b fuel) → P a (fuel + 1)) (a : α) :
    ∃ enough, ∀ fuel ≥ enough, P a fuel := by
  induction a using grounded.induction with
  | _ a ih =>
    obtain ⟨enough, below⟩ := exists_bound (succ a) ih
    refine ⟨enough + 1, fun fuel more => ?_⟩
    obtain ⟨fuel, rfl⟩ : ∃ less, fuel = less + 1 := ⟨fuel - 1, by omega⟩
    exact step a fuel (below fuel (by omega))

end Shared.Unfolding
