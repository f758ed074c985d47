import Mathlib.Data.List.Sort
import Mathlib.Data.String.Basic

set_option autoImplicit false

-- The last element in the order of a key, how words compare once something is put after them, and
-- numbers in so many digits.
namespace Shared.Ordering

section Last

variable {α κ : Type} [LinearOrder κ] (key : α → κ)

-- The last of the elements that pass the test.
def lastBy (p : α → Bool) (list : List α) : Option α :=
  ((list.insertionSort fun a b => key a ≤ key b).filter p).getLast?

variable {key} {p : α → Bool} {list : List α}

theorem lastBy_none_iff : lastBy key p list = none ↔ ∀ a ∈ list, p a = false := by
  rw [lastBy, List.getLast?_eq_none_iff, List.filter_eq_nil_iff]
  simp only [List.mem_insertionSort, Bool.not_eq_true]

theorem lastBy_some {a : α} (last : lastBy key p list = some a) :
    a ∈ list ∧ p a = true ∧ ∀ b ∈ list, p b = true → key b ≤ key a := by
  have inside := List.mem_filter.mp (List.mem_of_getLast? last)
  refine ⟨(List.mem_insertionSort _).mp inside.1, inside.2, ?_⟩
  intro b member chosen
  obtain ⟨front, split⟩ := List.getLast?_eq_some_iff.mp last
  have sorted : ((list.insertionSort fun a b => key a ≤ key b).filter p).Pairwise fun a b => key a ≤ key b :=
    (List.pairwise_insertionSort (fun a b => key a ≤ key b) list).sublist List.filter_sublist
  have found : b ∈ (list.insertionSort fun a b => key a ≤ key b).filter p :=
    List.mem_filter.mpr ⟨(List.mem_insertionSort _).mpr member, chosen⟩
  rw [split] at sorted found
  rcases List.mem_append.mp found with before | here
  · exact (List.pairwise_append.mp sorted).2.2 b before a (List.mem_singleton_self a)
  · exact le_of_eq (congrArg key (List.mem_singleton.mp here))

theorem lastBy_key {a : α} (member : a ∈ list) (chosen : p a = true)
    (greatest : ∀ b ∈ list, p b = true → key b ≤ key a) : (lastBy key p list).map key = some (key a) := by
  cases last : lastBy key p list with
  | none =>
    have absent := lastBy_none_iff.mp last a member
    rw [chosen] at absent
    cases absent
  | some b =>
    obtain ⟨inside, passes, above⟩ := lastBy_some last
    exact congrArg some (le_antisymm (greatest b inside passes) (above a member chosen))

theorem lastBy_map {β : Type} (f : β → α) (list : List β) :
    lastBy key p (list.map f) = (lastBy (fun b => key (f b)) (fun b => p (f b)) list).map f := by
  unfold lastBy
  rw [← List.map_insertionSort (fun a b => key (f a) ≤ key (f b)) (fun a b => key a ≤ key b) f list
    fun _ _ _ _ => Iff.rfl, List.filter_map, List.getLast?_map]
  rfl

end Last

section Shadow

variable {α : Type} [LinearOrder α] {sep : α} {word longer rest other : List α}

-- The word goes on in the longer one with something that comes before the separator.
def Shadowed (sep : α) (word longer : List α) : Prop :=
  ∃ c tail, longer = word ++ c :: tail ∧ c < sep

theorem append_lt_append_iff {front left right : List α} : front ++ left < front ++ right ↔ left < right := by
  induction front with
  | nil => rfl
  | cons a front ih => rw [List.cons_append, List.cons_append, List.cons_lt_cons_self, ih]

theorem Shadowed.lt (shadowed : Shadowed sep word longer) : longer ++ sep :: other < word ++ sep :: rest := by
  obtain ⟨c, tail, rfl, before⟩ := shadowed
  rw [List.append_assoc]
  exact List.append_left_lt (List.cons_lt_cons_iff.mpr (Or.inl before))

theorem lt_of_not_shadowed (below : word < longer) (absent : sep ∉ longer) (clear : ¬ Shadowed sep word longer) :
    word ++ sep :: rest < longer ++ sep :: other := by
  induction word generalizing longer with
  | nil =>
    cases longer with
    | nil => exact absurd below (List.not_lt_nil _)
    | cons c tail =>
      have apart : c ≠ sep := fun same => absent (same ▸ List.mem_cons_self)
      have after : sep < c := lt_of_le_of_ne (not_lt.mp fun before => clear ⟨c, tail, rfl, before⟩) apart.symm
      exact List.cons_lt_cons_iff.mpr (Or.inl after)
  | cons a front ih =>
    cases longer with
    | nil => exact absurd below (List.not_lt_nil _)
    | cons b tail =>
      rcases List.cons_lt_cons_iff.mp below with first | ⟨rfl, later⟩
      · exact List.cons_lt_cons_iff.mpr (Or.inl first)
      · refine List.cons_lt_cons_iff.mpr (Or.inr ⟨rfl, ih later (fun inside => absent (List.mem_cons_of_mem a inside)) ?_⟩)
        rintro ⟨c, last, split, before⟩
        exact clear ⟨c, last, by rw [split]; rfl, before⟩

end Shadow

section Padded

-- A number below 10 ^ WIDTH in WIDTH digits.
def padded : Nat → Nat → List Char
  | 0, _ => []
  | width + 1, n => padded width (n / 10) ++ [Nat.digitChar (n % 10)]

theorem length_padded (width n : Nat) : (padded width n).length = width := by
  induction width generalizing n with
  | zero => rfl
  | succ width ih => rw [padded, List.length_append, ih, List.length_singleton]

variable {α : Type} [LinearOrder α]

theorem append_lt_of_lt {left right : List α} (same : left.length = right.length) (below : left < right)
    (rest other : List α) : left ++ rest < right ++ other := by
  induction left generalizing right with
  | nil =>
    rw [List.length_nil] at same
    rw [List.length_eq_zero_iff.mp same.symm] at below
    exact absurd below (List.lt_irrefl [])
  | cons a left ih =>
    cases right with
    | nil => cases same
    | cons b right =>
      refine List.cons_lt_cons_iff.mpr ?_
      rcases List.cons_lt_cons_iff.mp below with first | ⟨equal, later⟩
      · exact Or.inl first
      · exact Or.inr ⟨equal, ih (Nat.succ.inj same) later⟩

theorem digitChar_lt {m n : Nat} (below : m < n) (digit : n < 10) : Nat.digitChar m < Nat.digitChar n := by
  have all : ∀ n < 10, ∀ m < n, Nat.digitChar m < Nat.digitChar n := by decide
  exact all n digit m below

theorem padded_lt {width m n : Nat} (below : m < n) (room : n < 10 ^ width) :
    padded width m < padded width n := by
  induction width generalizing m n with
  | zero => omega
  | succ width ih =>
    rw [Nat.pow_succ] at room
    rw [padded, padded]
    by_cases tens : m / 10 < n / 10
    · exact append_lt_of_lt ((length_padded _ _).trans (length_padded _ _).symm) (ih tens (by omega)) _ _
    · have equal : m / 10 = n / 10 := by omega
      rw [equal, append_lt_append_iff]
      exact List.cons_lt_cons_iff.mpr (Or.inl (digitChar_lt (by omega) (by omega)))

end Padded

end Shared.Ordering
