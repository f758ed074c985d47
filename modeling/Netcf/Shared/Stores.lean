import Mathlib.Data.List.Basic

set_option autoImplicit false

-- Pointers put into arrays whose size the writer may not look at.
namespace Shared.Stores

variable {α : Type}

structure Store (α : Type) where
  index : Nat
  capacity : Nat
  value : Option α

def Store.InBounds (store : Store α) : Prop :=
  store.index < store.capacity

def placed (capacity first : Nat) (values : List α) : List (Store α) :=
  (values.zipIdx first).map fun place => ⟨place.2, capacity, some place.1⟩

-- The slots of an array after the stores. One that goes past the end does not change a slot.
def written (array : List (Option α)) (stores : List (Store α)) : List (Option α) :=
  stores.foldl (fun array store => array.set store.index store.value) array

theorem placed_nil (capacity first : Nat) : placed capacity first ([] : List α) = [] :=
  rfl

theorem placed_cons (capacity first : Nat) (a : α) (rest : List α) :
    placed capacity first (a :: rest) = ⟨first, capacity, some a⟩ :: placed capacity (first + 1) rest := by
  rw [placed, List.zipIdx_cons, List.map_cons]
  rfl

theorem length_placed (capacity first : Nat) (values : List α) : (placed capacity first values).length = values.length := by
  rw [placed, List.length_map, List.length_zipIdx]

theorem values_placed (capacity first : Nat) (values : List α) :
    (placed capacity first values).filterMap Store.value = values := by
  rw [placed, List.filterMap_map]
  change (values.zipIdx first).filterMap (fun place => some place.1) = values
  rw [List.filterMap_eq_map', List.zipIdx_map_fst]

theorem placed_inBounds_iff (capacity first : Nat) (values : List α) :
    (∀ store ∈ placed capacity first values, store.InBounds) ↔ values = [] ∨ first + values.length ≤ capacity := by
  induction values generalizing first with
  | nil => simp [placed_nil]
  | cons a rest ih =>
    rw [placed_cons, List.forall_mem_cons, ih]
    simp only [Store.InBounds, reduceCtorEq, false_or, List.length_cons]
    constructor
    · rintro ⟨here, rfl | later⟩
      · exact here
      · omega
    · intro all
      exact ⟨by omega, Or.inr (by omega)⟩

theorem set_take {list : List α} {i : Nat} (inside : i < list.length) (a : α) :
    (list.set i a).take (i + 1) = list.take i ++ [a] := by
  rw [List.take_add_one, List.take_set_of_le (Nat.le_refl i), List.getElem?_set_self inside, Option.toList_some]

theorem written_placed (capacity first : Nat) (values : List α) {array : List (Option α)}
    (room : first + values.length ≤ array.length) :
    written array (placed capacity first values) =
      array.take first ++ (values.map some ++ array.drop (first + values.length)) := by
  induction values generalizing first array with
  | nil => rw [placed_nil, List.map_nil, List.nil_append, List.length_nil, Nat.add_zero, List.take_append_drop]; rfl
  | cons a rest ih =>
    rw [List.length_cons] at room
    rw [placed_cons]
    change written (array.set first (some a)) (placed capacity (first + 1) rest) = _
    rw [ih (first + 1) (by rw [List.length_set]; omega), set_take (by omega), List.drop_set_of_lt (by omega),
      List.append_assoc, List.singleton_append, List.map_cons, List.cons_append, List.length_cons, Nat.add_assoc,
      Nat.add_comm 1]

end Shared.Stores
