import Netcf.Shared.Faulty

set_option autoImplicit false

-- An array of pointers to allocated blocks.  An access that leaves the array or goes to a block that is
-- not allocated is a fault.
namespace Shared.Blocks

open Shared.Faulty

variable {A α : Type}

inductive Fault
  | outOfBounds | nullPointer | notAllocated
  deriving DecidableEq

inductive Access (A : Type)
  | read (address : A)
  | freed (address : A)
  deriving DecidableEq

-- LOG are the accesses to blocks in their order.
structure Memory (A α : Type) where
  slots : List (Option A)
  blocks : A → Option α
  log : List (Access A)

abbrev Act (A α : Type) := EStateM Fault (Memory A α)

section Operations

def load (i : Nat) : Act A α (Option A) := fun m =>
  match m.slots[i]? with
  | some pointer => .ok pointer m
  | none => .error .outOfBounds m

def store (i : Nat) (pointer : Option A) : Act A α Unit := fun m =>
  if i < m.slots.length then .ok () { m with slots := m.slots.set i pointer } else .error .outOfBounds m

def read (pointer : Option A) : Act A α α := fun m =>
  match pointer with
  | none => .error .nullPointer m
  | some a =>
    match m.blocks a with
    | none => .error .notAllocated m
    | some content => .ok content { m with log := m.log ++ [.read a] }

def moved (dst src count : Nat) (slots : List (Option A)) : List (Option A) :=
  slots.take dst ++ ((slots.drop src).take count ++ slots.drop (dst + count))

def memmove (dst src : Nat) (count : Int) : Act A α Unit := fun m =>
  if 0 ≤ count ∧ src + count ≤ m.slots.length ∧ dst + count ≤ m.slots.length then
    .ok () { m with slots := moved dst src count.toNat m.slots }
  else .error .outOfBounds m

variable [DecidableEq A]

-- To free a null pointer does nothing.
def free (pointer : Option A) : Act A α Unit := fun m =>
  match pointer with
  | none => .ok () m
  | some a =>
    match m.blocks a with
    | none => .error .notAllocated m
    | some _ =>
      .ok () { m with blocks := fun b => if b = a then none else m.blocks b, log := m.log ++ [.freed a] }

end Operations

section Runs

variable {m : Memory A α} {front back : List (Option A)} {pointer : Option A} {a : A} {content : α}

theorem load_run (slots : m.slots = front ++ pointer :: back) : load front.length m = .ok pointer m := by
  unfold load
  rw [slots, List.getElem?_append_right (Nat.le_refl _), Nat.sub_self, List.getElem?_cons_zero]

theorem store_run (slots : m.slots = front ++ pointer :: back) (other : Option A) :
    store front.length other m = .ok () { m with slots := front ++ other :: back } := by
  have inside : front.length < m.slots.length := by
    rw [slots, List.length_append, List.length_cons]
    omega
  rw [store, if_pos inside, slots, List.set_append_right _ _ (Nat.le_refl _), Nat.sub_self, List.set_cons_zero]

theorem read_run (allocated : m.blocks a = some content) :
    read (some a) m = .ok content { m with log := m.log ++ [.read a] } := by
  rw [read, allocated]

-- All that is behind the slot goes up by one; the last slot stays as it was.
theorem moved_up : ∃ last, moved front.length (front.length + 1) back.length (front ++ pointer :: back) =
    front ++ (back ++ [last]) := by
  obtain ⟨last, left⟩ : ∃ last, (pointer :: back).drop back.length = [last] :=
    List.length_eq_one_iff.mp (by rw [List.length_drop, List.length_cons]; omega)
  refine ⟨last, ?_⟩
  unfold moved
  have behind : (front ++ pointer :: back).drop (front.length + 1) = back := by
    rw [List.drop_append, List.drop_of_length_le (by omega), Nat.add_sub_cancel_left]
    rfl
  have end_ : (front ++ pointer :: back).drop (front.length + back.length) = [last] := by
    rw [List.drop_append, List.drop_of_length_le (by omega), Nat.add_sub_cancel_left, left]
    rfl
  rw [List.take_left, behind, end_, List.take_length]

theorem memmove_run (slots : m.slots = front ++ pointer :: back) :
    ∃ last, memmove front.length (front.length + 1) ((m.slots.length : Int) - (front.length + 1)) m =
      .ok () { m with slots := front ++ (back ++ [last]) } := by
  obtain ⟨last, up⟩ := @moved_up A front back pointer
  have count : ((m.slots.length : Int) - (front.length + 1)) = back.length := by
    rw [slots, List.length_append, List.length_cons]
    omega
  have inside : (0 : Int) ≤ back.length ∧ ((front.length + 1 : Nat) : Int) + back.length ≤ m.slots.length ∧
      (front.length : Int) + back.length ≤ m.slots.length := by
    rw [slots, List.length_append, List.length_cons]
    omega
  refine ⟨last, ?_⟩
  rw [memmove, count, if_pos inside, Int.toNat_natCast, slots, up]

variable [DecidableEq A]

theorem free_run (allocated : m.blocks a = some content) :
    free (some a) m =
      .ok () { m with blocks := fun b => if b = a then none else m.blocks b, log := m.log ++ [.freed a] } := by
  rw [free, allocated]

end Runs

end Shared.Blocks
