import Mathlib.Data.List.Pairwise

set_option autoImplicit false

-- Things on a shelf, each with the key that it is called for under and with further keys.  No key belongs to
-- two, and what is new takes the place of whatever is called for under one of its own keys.
namespace Shared.Shelf

universe u v

variable {X : Type u} {K : Type v} [DecidableEq K] (root : X → K) (keys : X → List K)

def shelve (x : X) (shelf : List X) : List X :=
  (shelf.filter fun y => root y ∉ keys x) ++ [x]

def discard (key : K) (shelf : List X) : List X :=
  shelf.filter fun y => root y ≠ key

def Apart (shelf : List X) : Prop :=
  shelf.Pairwise fun x y => (keys x).Disjoint (keys y)

-- What the new thing has a key in common with is replaced by it as a whole.
def Fits (x : X) (shelf : List X) : Prop :=
  ∀ y ∈ shelf, root y ∈ keys x ∨ (keys y).Disjoint (keys x)

-- The key does not take a part of something away.
def Whole (key : K) (shelf : List X) : Prop :=
  ∀ y ∈ shelf, key ∈ keys y → root y = key

instance (x : X) (shelf : List X) : Decidable (Fits root keys x shelf) :=
  inferInstanceAs (Decidable (∀ y ∈ shelf, root y ∈ keys x ∨ ∀ ⦃key⦄, key ∈ keys y → key ∈ keys x → False))

instance (key : K) (shelf : List X) : Decidable (Whole root keys key shelf) :=
  inferInstanceAs (Decidable (∀ y ∈ shelf, key ∈ keys y → root y = key))

variable {root keys} {x y : X} {shelf : List X}

theorem apart_shelve (apart : Apart keys shelf) (fits : Fits root keys x shelf) :
    Apart keys (shelve root keys x shelf) := by
  refine List.pairwise_append.mpr ⟨apart.sublist List.filter_sublist, List.pairwise_singleton _ _, ?_⟩
  intro y listed z last
  cases List.mem_singleton.mp last
  obtain ⟨member, stays⟩ := List.mem_filter.mp listed
  rcases fits y member with replaced | disjoint
  · simp [replaced] at stays
  · exact disjoint

omit [DecidableEq K] in
theorem apart_filter (apart : Apart keys shelf) (p : X → Bool) : Apart keys (shelf.filter p) :=
  apart.sublist List.filter_sublist

omit [DecidableEq K] in
theorem Apart.same (apart : Apart keys shelf) {key : K} (left : x ∈ shelf) (right : y ∈ shelf) (inLeft : key ∈ keys x)
    (inRight : key ∈ keys y) : x = y := by
  by_contra other
  have symmetric : Std.Symm fun x y => (keys x).Disjoint (keys y) := ⟨fun _ _ disjoint _ later first => disjoint first later⟩
  exact List.Pairwise.forall apart left right other inLeft inRight

omit [DecidableEq K] in
theorem flatMap_filter {Y : Type*} (p : X → Bool) (f : X → List Y) (shelf : List X) :
    (shelf.filter p).flatMap f = shelf.flatMap fun x => if p x = true then f x else [] := by
  induction shelf with
  | nil => rfl
  | cons x rest ih =>
    by_cases kept : p x = true
    · rw [List.filter_cons_of_pos kept, List.flatMap_cons, List.flatMap_cons, if_pos kept, ih]
    · rw [List.filter_cons_of_neg kept, List.flatMap_cons, if_neg kept, List.nil_append, ih]

end Shared.Shelf
