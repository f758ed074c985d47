import Mathlib.Data.List.Nodup

set_option autoImplicit false

namespace Shared.Lists

variable {α β κ : Type}

-- Two texts that agree have the same in front of the first separator.
theorem append_cons_inj_of_first {x : α} {front back front' back' : List α} (absent : x ∉ front)
    (absent' : x ∉ front') (same : front ++ x :: back = front' ++ x :: back') : front = front' ∧ back = back' := by
  induction front generalizing front' with
  | nil =>
    cases front' with
    | nil => exact ⟨rfl, (List.cons.inj same).2⟩
    | cons first rest =>
      rw [(List.cons.inj same).1] at absent'
      exact absurd List.mem_cons_self absent'
  | cons first rest ih =>
    cases front' with
    | nil =>
      rw [(List.cons.inj same).1] at absent
      exact absurd List.mem_cons_self absent
    | cons first' rest' =>
      obtain ⟨rfl, tails⟩ := List.cons.inj same
      obtain ⟨rfl, rfl⟩ := ih (fun later => absent (List.mem_cons_of_mem _ later))
        (fun later => absent' (List.mem_cons_of_mem _ later)) tails
      exact ⟨rfl, rfl⟩

theorem flatMap_unique {list : List α} {key : α → κ} (distinct : (list.map key).Nodup) {a : α}
    (listed : a ∈ list) {f : α → List β} (silent : ∀ b ∈ list, key b ≠ key a → f b = []) :
    list.flatMap f = f a := by
  induction list with
  | nil => simp at listed
  | cons b rest ih =>
    rw [List.map_cons, List.nodup_cons] at distinct
    rw [List.flatMap_cons]
    by_cases here : key b = key a
    · have absent : a ∉ rest := fun later => distinct.1 (here ▸ List.mem_map_of_mem later)
      have same : a = b := (List.mem_cons.mp listed).resolve_right absent
      have quiet : rest.flatMap f = [] := by
        rw [List.flatMap_eq_nil_iff]
        intro c later
        apply silent c (List.mem_cons_of_mem b later)
        intro equal
        exact distinct.1 (here ▸ equal ▸ List.mem_map_of_mem later)
      rw [quiet, same, List.append_nil]
    · have later : a ∈ rest := by
        rcases List.mem_cons.mp listed with same | later
        · exact absurd (congrArg key same.symm) here
        · exact later
      rw [silent b List.mem_cons_self here, List.nil_append]
      exact ih distinct.2 later fun c member => silent c (List.mem_cons_of_mem b member)

theorem filter_unique [DecidableEq κ] {list : List α} {key : α → κ} (distinct : (list.map key).Nodup) {a : α}
    (listed : a ∈ list) : list.filter (fun b => decide (key b = key a)) = [a] := by
  induction list with
  | nil => cases listed
  | cons b rest ih =>
    rw [List.map_cons, List.nodup_cons] at distinct
    rcases List.mem_cons.mp listed with rfl | later
    · have others : rest.filter (fun b => decide (key b = key a)) = [] := by
        rw [List.filter_eq_nil_iff]
        intro c member same
        exact distinct.1 (of_decide_eq_true same ▸ List.mem_map_of_mem member)
      rw [List.filter_cons_of_pos (by simp), others]
    · have apart : key b ≠ key a := fun same => distinct.1 (same ▸ List.mem_map_of_mem later)
      rw [List.filter_cons_of_neg (by simpa using apart)]
      exact ih distinct.2 later

theorem find_unique [DecidableEq κ] {list : List α} {key : α → κ} (distinct : (list.map key).Nodup) {a : α}
    (listed : a ∈ list) : list.find? (fun b => decide (key b = key a)) = some a := by
  rw [← List.head?_filter, filter_unique distinct listed, List.head?_cons]

theorem eraseDups_of_nodup [BEq α] [LawfulBEq α] {list : List α} (distinct : list.Nodup) :
    list.eraseDups = list := by
  induction list with
  | nil => rfl
  | cons a rest ih =>
    rw [List.nodup_cons] at distinct
    have others : rest.filter (fun b => !b == a) = rest := by
      rw [List.filter_eq_self]
      intro b member
      have apart : b ≠ a := fun same => distinct.1 (same ▸ member)
      simpa using apart
    rw [List.eraseDups_cons, others, ih distinct.2]

theorem nodup_eraseDups [BEq α] [LawfulBEq α] (list : List α) : list.eraseDups.Nodup := by
  induction long : list.length using Nat.strongRecOn generalizing list with
  | ind size ih =>
    cases list with
    | nil => exact List.nodup_nil
    | cons a rest =>
      have shorter : (rest.filter fun b => !b == a).length < size :=
        long ▸ Nat.lt_succ_of_le (List.length_filter_le _ _)
      rw [List.eraseDups_cons, List.nodup_cons]
      refine ⟨?_, ih _ shorter _ rfl⟩
      simp [List.mem_eraseDups]

theorem split_of_countP {p : α → Bool} {list : List α} (once : list.countP p = 1) :
    ∃ front a back, list = front ++ a :: back ∧ p a = true ∧ (∀ b ∈ front, p b = false) ∧
      ∀ b ∈ back, p b = false := by
  induction list with
  | nil => simp at once
  | cons a rest ih =>
    cases here : p a with
    | true =>
      rw [List.countP_cons_of_pos here] at once
      refine ⟨[], a, rest, rfl, here, by simp, ?_⟩
      have none_later := List.countP_eq_zero.mp (Nat.succ.inj once)
      simpa using none_later
    | false =>
      rw [List.countP_cons_of_neg (by simp [here])] at once
      obtain ⟨front, b, back, rfl, found, before, after⟩ := ih once
      refine ⟨a :: front, b, back, rfl, found, ?_, after⟩
      intro c member
      rcases List.mem_cons.mp member with rfl | later
      · exact here
      · exact before c later

-- Changing the only element that satisfies a predicate.
def alter (p : α → Bool) (f : α → α) (list : List α) : List α :=
  list.map fun a => if p a then f a else a

theorem alter_of_split {p : α → Bool} {f : α → α} {front back : List α} {a : α} (found : p a = true)
    (before : ∀ b ∈ front, p b = false) (after : ∀ b ∈ back, p b = false) :
    alter p f (front ++ a :: back) = front ++ f a :: back := by
  have keeps : ∀ list : List α, (∀ b ∈ list, p b = false) → alter p f list = list := by
    intro list none_here
    rw [alter, @List.map_congr_left _ _ _ _ id fun b member => by simp [none_here b member], List.map_id]
  have first := keeps front before
  have last := keeps back after
  unfold alter at *
  rw [List.map_append, List.map_cons, first, last, if_pos found]

section Lookups

variable [DecidableEq κ] {key : α → κ}

theorem eq_of_keys {left right : List α} (keys : left.map key = right.map key)
    (each : ∀ k, left.filter (fun a => key a = k) = right.filter (fun a => key a = k)) : left = right := by
  induction left generalizing right with
  | nil => simpa using keys.symm
  | cons a rest ih =>
    rcases right with _ | ⟨b, others⟩
    · simp at keys
    rw [List.map_cons, List.map_cons, List.cons.injEq] at keys
    have here := each (key a)
    rw [List.filter_cons_of_pos (by simp), List.filter_cons_of_pos (by simp [keys.1])] at here
    obtain ⟨rfl, same⟩ := List.cons_eq_cons.mp here
    rw [ih keys.2]
    intro k
    by_cases found : key a = k
    · rwa [← found]
    · have there := each k
      rwa [List.filter_cons_of_neg (by simpa using found), List.filter_cons_of_neg (by simpa using found)] at there

theorem filter_lookups (wanted : List κ) (list : List α) (k : κ) :
    (wanted.flatMap fun w => list.filter fun a => key a = w).filter (fun a => key a = k) =
      (List.replicate (wanted.count k) (list.filter fun a => key a = k)).flatten := by
  induction wanted with
  | nil => rfl
  | cons w rest ih =>
    rw [List.flatMap_cons, List.filter_append, ih, List.filter_filter]
    by_cases same : w = k
    · subst same
      rw [List.count_cons_self, List.replicate_succ, List.flatten_cons]
      simp
    · rw [List.count_cons_of_ne same]
      have none : list.filter (fun a => decide (key a = k) && decide (key a = w)) = [] := by
        rw [List.filter_eq_nil_iff]
        intro a _ both
        simp only [Bool.and_eq_true, decide_eq_true_eq] at both
        exact same (both.2.symm.trans both.1)
      rw [none, List.nil_append]

-- Looking up keys one after the other gives back the list as soon as it gives back the keys.
theorem lookups_eq_iff {wanted : List κ} {list : List α} :
    (wanted.flatMap fun w => list.filter fun a => key a = w) = list ↔
      (wanted.flatMap fun w => (list.map key).filter fun k => k = w) = list.map key := by
  have keys : (wanted.flatMap fun w => list.filter fun a => key a = w).map key =
      wanted.flatMap fun w => (list.map key).filter fun k => k = w := by
    rw [List.map_flatMap]
    congr 1
    funext w
    rw [List.filter_map]
    rfl
  rw [← keys]
  constructor
  · intro same
    rw [same]
  · intro same
    refine eq_of_keys same fun k => ?_
    rw [filter_lookups]
    have lengths : ((wanted.flatMap fun w => list.filter fun a => key a = w).filter fun a => key a = k).length =
        (list.filter fun a => key a = k).length := by
      have counted := congrArg (fun keys => (keys.filter fun other => other = k).length) same
      simp only [List.filter_map, List.length_map] at counted
      exact counted
    rw [filter_lookups] at lengths
    rcases found : list.filter (fun a => key a = k) with _ | ⟨a, rest⟩
    · simp
    · rw [found, List.length_flatten, List.map_replicate, List.sum_replicate_nat, List.length_cons] at lengths
      have once : wanted.count k = 1 :=
        Nat.eq_of_mul_eq_mul_right (Nat.succ_pos rest.length) (lengths.trans (Nat.one_mul _).symm)
      simp [once]

end Lookups

theorem nodup_filterMap_iff {list : List α} (distinct : list.Nodup) {f : α → Option β} :
    (list.filterMap f).Nodup ↔ ∀ a ∈ list, ∀ b ∈ list, (f a).isSome = true → f a = f b → a = b := by
  induction list with
  | nil => simp
  | cons a rest ih =>
    obtain ⟨fresh, others⟩ := List.nodup_cons.mp distinct
    cases value : f a with
    | none =>
      rw [List.filterMap_cons_none value, ih others]
      constructor
      · intro inner b member c later some same
        rcases List.mem_cons.mp member with rfl | here
        · simp [value] at some
        · rcases List.mem_cons.mp later with rfl | there
          · rw [same, value] at some
            cases some
          · exact inner b here c there some same
      · exact fun all b member c later =>
          all b (List.mem_cons_of_mem a member) c (List.mem_cons_of_mem a later)
    | some found =>
      rw [List.filterMap_cons_some value, List.nodup_cons, ih others, List.mem_filterMap]
      constructor
      · rintro ⟨apart, inner⟩ b member c later some same
        rcases List.mem_cons.mp member with rfl | here <;> rcases List.mem_cons.mp later with rfl | there
        · rfl
        · exact absurd ⟨c, there, same.symm.trans value⟩ apart
        · exact absurd ⟨b, here, same.trans value⟩ apart
        · exact inner b here c there some same
      · intro all
        constructor
        · rintro ⟨b, member, same⟩
          have equal := all a List.mem_cons_self b (List.mem_cons_of_mem a member) (by simp [value]) (value.trans same.symm)
          exact fresh (equal ▸ member)
        · exact fun b member c later =>
            all b (List.mem_cons_of_mem a member) c (List.mem_cons_of_mem a later)

theorem filter_eq_filter_iff {p q : α → Bool} {list : List α} :
    list.filter p = list.filter q ↔ ∀ a ∈ list, p a = q a := by
  constructor
  · intro same a member
    rw [Bool.eq_iff_iff]
    constructor
    · exact fun chosen => (List.mem_filter.mp (same ▸ List.mem_filter.mpr ⟨member, chosen⟩)).2
    · exact fun chosen => (List.mem_filter.mp (same ▸ List.mem_filter.mpr ⟨member, chosen⟩)).2
  · exact fun agree => List.filter_congr agree

section Groups

variable {p : α → Bool} {q : β → Bool} {parts : β → List α}

theorem filter_parts_of_kept {groups : List β}
    (kept : ∀ group ∈ groups, q group = true → ∀ part ∈ parts group, p part = true) :
    ((groups.filter q).flatMap parts).Sublist ((groups.flatMap parts).filter p) := by
  induction groups with
  | nil => exact List.Sublist.refl _
  | cons group rest ih =>
    have later := ih fun other member => kept other (List.mem_cons_of_mem group member)
    rw [List.flatMap_cons, List.filter_append, List.filter_cons]
    split
    · rename_i wanted
      rw [List.flatMap_cons, List.filter_eq_self.mpr (kept group List.mem_cons_self wanted)]
      exact later.append_left _
    · exact later.trans (List.sublist_append_right _ _)

-- Keeping parts one by one keeps whole groups only when every part decides as its group does.
theorem filter_parts_eq_iff {groups : List β} :
    (groups.flatMap parts).filter p = (groups.filter q).flatMap parts ↔
      ∀ group ∈ groups, ∀ part ∈ parts group, p part = q group := by
  constructor
  · intro same
    have kept : ∀ group ∈ groups, q group = true → ∀ part ∈ parts group, p part = true := by
      intro group member wanted part inside
      have found : part ∈ (groups.flatMap parts).filter p := by
        rw [same]
        exact List.mem_flatMap.mpr ⟨group, List.mem_filter.mpr ⟨member, wanted⟩, inside⟩
      exact (List.mem_filter.mp found).2
    induction groups with
    | nil => exact fun _ member => absurd member List.not_mem_nil
    | cons group rest ih =>
      have keptLater := fun other member => kept other (List.mem_cons_of_mem group member)
      rw [List.flatMap_cons, List.filter_append, List.filter_cons] at same
      cases wanted : q group with
      | true =>
        have all := kept group List.mem_cons_self wanted
        rw [if_pos wanted, List.flatMap_cons, List.filter_eq_self.mpr all] at same
        intro other member part inside
        rcases List.mem_cons.mp member with rfl | later
        · rw [all part inside, wanted]
        · exact ih (List.append_cancel_left same) keptLater other later part inside
      | false =>
        rw [if_neg (by rw [wanted]; exact Bool.false_ne_true)] at same
        -- What the rest keeps is already as long as all that is kept.
        have short : (parts group).filter p = [] := by
          have least := (filter_parts_of_kept keptLater).length_le
          rw [← same, List.length_append] at least
          exact List.eq_nil_of_length_eq_zero (by omega)
        rw [short, List.nil_append] at same
        intro other member part inside
        rcases List.mem_cons.mp member with rfl | later
        · rw [wanted]
          exact Bool.eq_false_iff.mpr fun chosen => List.not_mem_nil (short ▸ List.mem_filter.mpr ⟨inside, chosen⟩)
        · exact ih same keptLater other later part inside
  · intro agree
    induction groups with
    | nil => rfl
    | cons group rest ih =>
      have here := agree group List.mem_cons_self
      rw [List.flatMap_cons, List.filter_append, List.filter_cons,
        ih fun other member => agree other (List.mem_cons_of_mem group member)]
      cases wanted : q group with
      | true =>
        rw [if_pos rfl, List.flatMap_cons,
          List.filter_eq_self.mpr fun part inside => (here part inside).trans wanted]
      | false =>
        rw [if_neg Bool.false_ne_true,
          List.filter_eq_nil_iff.mpr fun part inside => by rw [here part inside, wanted]; exact Bool.false_ne_true,
          List.nil_append]

end Groups

theorem find_alter [DecidableEq κ] {key : α → κ} {f : α → α} (keeps : ∀ a, key (f a) = key a) (list : List α)
    (changed k : κ) :
    (alter (fun a => decide (key a = changed)) f list).find? (fun a => decide (key a = k)) =
      if k = changed then (list.find? fun a => decide (key a = changed)).map f
      else list.find? fun a => decide (key a = k) := by
  have found : (fun a => decide (key a = k)) ∘ (fun a => if decide (key a = changed) then f a else a) =
      fun a => decide (key a = k) := by
    funext a
    by_cases here : key a = changed <;> simp [here, keeps]
  rw [alter, List.find?_map, found]
  by_cases same : k = changed
  · subst same
    rw [if_pos rfl]
    apply Option.map_congr
    intro a present
    rw [if_pos (List.find?_some present)]
  · rw [if_neg same]
    cases present : list.find? fun a => decide (key a = k) with
    | none => rfl
    | some a =>
      have here : key a = k := by simpa using List.find?_some present
      simp [here, same]

end Shared.Lists
