import Mathlib.Data.List.Infix

set_option autoImplicit false

-- Attempts one after the other: one is made if all before it have worked.  They are numbered over a history.
namespace Shared.Attempts

universe u

variable {A : Type u} (works starts : Nat → Bool)

def tried : Nat → List A → List A
  | _, [] => []
  | n, a :: rest => if works n then a :: tried (n + 1) rest else if starts n then [a] else []

def allWork : Nat → List A → Bool
  | _, [] => true
  | n, _ :: rest => works n && allWork (n + 1) rest

variable {works starts} {n : Nat} {list front back : List A}

theorem tried_all (all : allWork works n list = true) : tried works starts n list = list := by
  induction list generalizing n with
  | nil => rfl
  | cons a rest ih =>
    obtain ⟨first, later⟩ := Bool.and_eq_true_iff.mp all
    rw [tried, if_pos first, ih later]

theorem allWork_append :
    allWork works n (front ++ back) = (allWork works n front && allWork works (n + front.length) back) := by
  induction front generalizing n with
  | nil => rfl
  | cons a rest ih =>
    rw [List.cons_append, allWork, allWork, ih, Bool.and_assoc, List.length_cons, Nat.add_right_comm, Nat.add_assoc]

theorem tried_append :
    tried works starts n (front ++ back) =
      if allWork works n front = true then front ++ tried works starts (n + front.length) back
      else tried works starts n front := by
  induction front generalizing n with
  | nil => rfl
  | cons a rest ih =>
    rw [List.cons_append, tried, tried, allWork, List.length_cons, ih]
    cases first : works n with
    | false => rfl
    | true =>
      have next : n + (rest.length + 1) = n + 1 + rest.length := by omega
      rw [Bool.true_and, if_pos rfl, if_pos rfl, next, apply_ite (a :: ·)]
      rfl

theorem allWork_iff : allWork works n list = true ↔ ∀ i < list.length, works (n + i) = true := by
  induction list generalizing n with
  | nil => simp [allWork]
  | cons a rest ih =>
    rw [allWork, Bool.and_eq_true, ih, List.length_cons]
    constructor
    · rintro ⟨first, later⟩ i within
      cases i with
      | zero => exact first
      | succ i =>
        have next := later i (by omega)
        rwa [Nat.add_right_comm] at next
    · intro all
      refine ⟨all 0 (by omega), fun i within => ?_⟩
      have next := all (i + 1) (by omega)
      rwa [Nat.add_right_comm, Nat.add_assoc]

end Shared.Attempts
