import Mathlib.Data.List.Nodup
import Netcf.Shared.Faulty

set_option autoImplicit false

-- Loops over an array that leave some of its elements out, or keep only what came last.
namespace Shared.Loops

open Shared.Faulty

section Unique

variable {α : Type} [DecidableEq α]

def adjoin (seen : List α) (a : α) : List α :=
  if a ∈ seen then seen else seen ++ [a]

-- Every element is compared with those that have been kept before it.
def unique (list : List α) : List α :=
  list.foldl adjoin []

theorem mem_adjoin {seen : List α} {a b : α} : b ∈ adjoin seen a ↔ b ∈ seen ∨ b = a := by
  unfold adjoin
  by_cases old : a ∈ seen
  · rw [if_pos old]
    constructor
    · exact Or.inl
    · rintro (member | rfl)
      · exact member
      · exact old
  · rw [if_neg old, List.mem_append, List.mem_singleton]

theorem nodup_adjoin {seen : List α} (distinct : seen.Nodup) (a : α) : (adjoin seen a).Nodup := by
  unfold adjoin
  by_cases old : a ∈ seen
  · rwa [if_pos old]
  · rw [if_neg old]
    exact List.nodup_append.mpr ⟨distinct, List.nodup_singleton a, by
      intro b member c single
      rw [List.mem_singleton.mp single]
      exact fun same => old (same ▸ member)⟩

theorem foldl_adjoin (list : List α) {seen : List α} (distinct : seen.Nodup) :
    (list.foldl adjoin seen).Nodup ∧ ∀ b, b ∈ list.foldl adjoin seen ↔ b ∈ seen ∨ b ∈ list := by
  induction list generalizing seen with
  | nil => exact ⟨distinct, fun b => by simp⟩
  | cons a rest ih =>
    have later := ih (nodup_adjoin distinct a)
    refine ⟨later.1, ?_⟩
    intro b
    rw [List.foldl_cons, later.2 b, mem_adjoin, List.mem_cons, or_assoc]

theorem nodup_unique (list : List α) : (unique list).Nodup :=
  (foldl_adjoin list List.nodup_nil).1

theorem mem_unique {list : List α} {a : α} : a ∈ unique list ↔ a ∈ list := by
  rw [unique, (foldl_adjoin list List.nodup_nil).2]
  simp

end Unique

section Sieve

variable {ε σ τ α : Type}

-- The elements that pass the test are taken out, and the later ones are moved to close the gap.
def sieve (test : α → EStateM ε σ Bool) (i : Nat) (array : List α) : EStateM ε σ (List α) :=
  if inside : i < array.length then do
    if ← test (array.get ⟨i, inside⟩) then sieve test i (array.eraseIdx i)
    else sieve test (i + 1) array
  else pure array
termination_by array.length - i
decreasing_by
  · rw [List.length_eraseIdx_of_lt inside]
    omega
  · omega

variable {shows : σ → τ → Prop} {calm : σ → Prop} {t : τ} {test : α → EStateM ε σ Bool} {g : α → Bool}

theorem answers_sieve_from {i : Nat} {array : List α}
    (each : ∀ a ∈ array, Answers shows calm t (test a) (g a)) :
    Answers shows calm t (sieve test i array) (array.take i ++ (array.drop i).filter fun a => !g a) := by
  -- The distance to the end of the array shrinks whether an element goes or stays.
  induction left : array.length - i using Nat.strongRecOn generalizing i array with
  | ind distance ih =>
    unfold sieve
    by_cases inside : i < array.length
    · rw [dif_pos inside, List.drop_eq_getElem_cons inside]
      refine (each _ (List.getElem_mem inside)).bind ?_
      cases passes : g (array.get ⟨i, inside⟩) with
      | true =>
        have shorter := List.length_eraseIdx_of_lt inside
        have later := @ih ((array.eraseIdx i).length - i) (by omega) i (array.eraseIdx i)
          (fun a member => each a (List.mem_of_mem_eraseIdx member)) rfl
        have split : array.eraseIdx i = array.take i ++ array.drop (i + 1) := List.eraseIdx_eq_take_drop_succ array i
        have front : (array.take i).length = i := List.length_take_of_le (Nat.le_of_lt inside)
        rw [split, List.take_append_of_le_length (Nat.le_of_eq front.symm),
          List.take_of_length_le (Nat.le_of_eq front),
          List.drop_append_of_le_length (Nat.le_of_eq front.symm),
          List.drop_of_length_le (Nat.le_of_eq front), List.nil_append] at later
        rw [split, List.filter_cons_of_neg (by simpa using passes)]
        exact later
      | false =>
        have later := ih (array.length - (i + 1)) (by omega) each rfl
        rw [List.take_add_one, List.getElem?_eq_getElem inside, Option.toList_some, List.append_assoc,
          List.singleton_append] at later
        rw [List.filter_cons_of_pos (by simpa using passes)]
        exact later
    · rw [dif_neg inside, List.take_of_length_le (by omega), List.drop_of_length_le (by omega), List.filter_nil,
        List.append_nil]
      exact answers_pure _

theorem answers_sieve {array : List α} (each : ∀ a ∈ array, Answers shows calm t (test a) (g a)) :
    Answers shows calm t (sieve test 0 array) (array.filter fun a => !g a) := by
  have all := @answers_sieve_from _ _ _ _ shows calm t test g 0 array each
  rwa [List.take_zero, List.drop_zero, List.nil_append] at all

end Sieve

section Overwrite

variable {α β : Type} (value : α → Option β)

-- Every element that has a value replaces the result.
def overwrite (start : β) : List α → β
  | [] => start
  | a :: rest => overwrite ((value a).getD start) rest

theorem overwrite_eq (start : β) (list : List α) :
    overwrite value start list = (list.filterMap value).getLast?.getD start := by
  induction list generalizing start with
  | nil => rfl
  | cons a rest ih =>
    rw [overwrite, ih]
    cases here : value a with
    | none => rw [List.filterMap_cons_none here, Option.getD_none]
    | some b => rw [List.filterMap_cons_some here, List.getLast?_cons, Option.getD_some, Option.getD_some]

end Overwrite

section Readings

variable {α β : Type} (sets reads : α → Option β) (start : β)

theorem overwrite_append (value : α → Option β) (start : β) (front back : List α) :
    overwrite value start (front ++ back) = overwrite value (overwrite value start front) back := by
  induction front generalizing start with
  | nil => rfl
  | cons a rest ih => exact ih _

theorem overwrite_flatMap {γ : Type} (value : α → Option β) (parts : γ → List α) (start : β) (list : List γ) :
    overwrite value start (list.flatMap parts) =
      overwrite (fun c => ((parts c).filterMap value).getLast?) start list := by
  induction list generalizing start with
  | nil => rfl
  | cons c rest ih =>
    rw [List.flatMap_cons, overwrite_append, ih, overwrite_eq value start (parts c)]
    rfl

-- What is read of an element is made good for: by a value behind it, or by the value that there is in front of it,
-- where the element itself has one that is not read or has none that is.
inductive MadeGood (front : List α) (a : α) (back : List α) : Prop
  | later {b : α} (behind : b ∈ back) (valued : (sets b).isSome = true)
  | missed {value : β} (has : sets a = some value) (unread : reads a = none)
      (before : overwrite reads start front = value)
  | feigned {value : β} (without : sets a = none) (read : reads a = some value)
      (before : overwrite sets start front = value)

-- The last element that is not read as it is is made good for.
def Concur (list : List α) : Prop :=
  ∀ front a back, list = front ++ a :: back → reads a ≠ sets a → (∀ b ∈ back, reads b = sets b) →
    MadeGood sets reads start front a back

variable {sets reads start} {front back list : List α} {a : α}

theorem overwrite_congr (same : ∀ b ∈ list, reads b = sets b) :
    overwrite reads start list = overwrite sets start list := by
  rw [overwrite_eq, overwrite_eq, List.filterMap_congr same]

theorem overwrite_none (none_left : ∀ b ∈ list, sets b = none) : overwrite sets start list = start := by
  rw [overwrite_eq, List.filterMap_eq_nil_iff.mpr none_left]
  rfl

theorem overwrite_some {b : α} (behind : b ∈ list) (valued : (sets b).isSome = true) (other : β) :
    overwrite sets start list = overwrite sets other list := by
  obtain ⟨value, has⟩ := Option.isSome_iff_exists.mp valued
  have present : list.filterMap sets ≠ [] := List.ne_nil_of_mem (List.mem_filterMap.mpr ⟨b, behind, has⟩)
  rw [overwrite_eq, overwrite_eq, List.getLast?_eq_some_getLast present]
  rfl

theorem madeGood_iff (differ : reads a ≠ sets a) (same : ∀ b ∈ back, reads b = sets b) :
    overwrite reads start (front ++ a :: back) = overwrite sets start (front ++ a :: back) ↔
      MadeGood sets reads start front a back := by
  rw [overwrite_append, overwrite_append, overwrite, overwrite, overwrite_congr same]
  by_cases valued : ∃ b ∈ back, (sets b).isSome = true
  · obtain ⟨b, behind, has⟩ := valued
    exact ⟨fun _ => .later behind has, fun _ => overwrite_some behind has _⟩
  · have none_left : ∀ b ∈ back, sets b = none := fun b behind =>
      Option.not_isSome_iff_eq_none.mp fun has => valued ⟨b, behind, has⟩
    rw [overwrite_none none_left, overwrite_none none_left]
    constructor
    · intro equal
      cases has : sets a with
      | none =>
        cases read : reads a with
        | none => exact absurd (read.trans has.symm) differ
        | some value =>
          rw [has, read] at equal
          exact .feigned has read equal.symm
      | some value =>
        cases read : reads a with
        | none =>
          rw [has, read] at equal
          exact .missed has read equal
        | some other =>
          rw [has, read] at equal
          exact absurd (read.trans ((congrArg some equal).trans has.symm)) differ
    · rintro (⟨behind, has⟩ | ⟨has, unread, before⟩ | ⟨without, read, before⟩)
      · exact absurd ⟨_, behind, has⟩ valued
      · rw [has, unread]
        exact before
      · rw [without, read]
        exact before.symm

theorem last_differing (list : List α) :
    (∀ b ∈ list, reads b = sets b) ∨
      ∃ front a back, list = front ++ a :: back ∧ reads a ≠ sets a ∧ ∀ b ∈ back, reads b = sets b := by
  induction list with
  | nil => exact .inl fun b member => absurd member List.not_mem_nil
  | cons first rest ih =>
    rcases ih with same | ⟨front, a, back, rfl, differ, same⟩
    · by_cases here : reads first = sets first
      · exact .inl (List.forall_mem_cons.mpr ⟨here, same⟩)
      · exact .inr ⟨[], first, rest, rfl, here, same⟩
    · exact .inr ⟨first :: front, a, back, rfl, differ, same⟩

theorem concur_iff : overwrite reads start list = overwrite sets start list ↔ Concur sets reads start list := by
  constructor
  · rintro equal front a back rfl differ same
    exact (madeGood_iff differ same).mp equal
  · intro concur
    rcases @last_differing _ _ sets reads list with same | ⟨front, a, back, rfl, differ, same⟩
    · exact overwrite_congr same
    · exact (madeGood_iff differ same).mpr (concur front a back rfl differ same)

end Readings

end Shared.Loops
