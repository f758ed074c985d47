import Mathlib.Data.List.Basic
import Mathlib.Data.List.Nodup

set_option autoImplicit false

-- The children of a tree's node by label and position: a child is called LABEL[i] when it has a
-- sibling of the same label, and a position that no child has yet is a new child at the end.
namespace Shared.Siblings

variable {α : Type}

section Numbered

variable {label : α → String}

def numbered (label : α → String) (list : List α) : List (String × α) :=
  list.zipIdx.map fun place =>
    let same := fun other : α => decide (label other = label place.1)
    if list.countP same = 1 then (label place.1, place.1)
    else (label place.1 ++ "[" ++ toString ((list.take place.2).countP same + 1) ++ "]", place.1)

theorem countP_label {list : List α} (distinct : (list.map label).Nodup) {a : α} (member : a ∈ list) :
    list.countP (fun other => decide (label other = label a)) = 1 := by
  have once : (list.map label).count (label a) = 1 :=
    List.count_eq_one_of_mem distinct (List.mem_map_of_mem member)
  rw [List.count, List.countP_map] at once
  rw [← once]
  rfl

theorem numbered_of_nodup {list : List α} (distinct : (list.map label).Nodup) :
    numbered label list = list.map fun a => (label a, a) := by
  unfold numbered
  rw [List.map_congr_left fun place member =>
    if_pos (countP_label distinct (List.fst_mem_of_mem_zipIdx member))]
  conv_rhs => rw [← List.zipIdx_map_fst 0 list, List.map_map]
  rfl

-- Where no name shows a position every label is there once.
theorem nodup_of_plain {list : List α} (plain : ∀ shown ∈ numbered label list, '[' ∉ shown.1.toList) :
    (list.map label).Nodup := by
  have once : ∀ a ∈ list, list.countP (fun other => decide (label other = label a)) = 1 := by
    intro a member
    obtain ⟨i, inside, rfl⟩ := List.mem_iff_getElem.mp member
    by_contra several
    have place : (list[i], i) ∈ list.zipIdx := by
      rw [List.mem_zipIdx_iff_getElem?]
      exact List.getElem?_eq_getElem inside
    have named := plain _ (List.mem_map_of_mem place)
    simp only [several, if_false] at named
    simp at named
  rw [List.nodup_iff_count_le_one]
  intro name
  by_cases listed : name ∈ list.map label
  · obtain ⟨a, member, rfl⟩ := List.mem_map.mp listed
    have counted := once a member
    rw [List.count, List.countP_map]
    exact Nat.le_of_eq counted
  · rw [List.count_eq_zero_of_not_mem listed]
    exact Nat.zero_le 1

end Numbered

section Positions

variable {p : α → Bool} {fresh : α} {f : α → α}

-- f at the n-th child of a kind, counted from 1, which is created when there are fewer.
def updateNth (p : α → Bool) (fresh : α) (f : α → α) : Nat → List α → List α
  | _, [] => [f fresh]
  | n, a :: rest =>
    if p a then
      if n = 1 then f a :: rest else a :: updateNth p fresh f (n - 1) rest
    else a :: updateNth p fresh f n rest

theorem updateNth_new (list : List α) :
    updateNth p fresh f (list.countP p + 1) list = list ++ [f fresh] := by
  induction list with
  | nil => rfl
  | cons a rest ih =>
    cases found : p a with
    | false => simp [updateNth, found, ih]
    | true => simp [updateNth, found, ih]

theorem updateNth_last {a : α} (found : p a = true) (list : List α) :
    updateNth p fresh f (list.countP p + 1) (list ++ [a]) = list ++ [f a] := by
  induction list with
  | nil => simp [updateNth, found]
  | cons b rest ih =>
    cases here : p b with
    | false => simp [updateNth, here, ih]
    | true => simp [updateNth, here, ih]

end Positions

end Shared.Siblings
