import Mathlib.Data.List.Infix

set_option autoImplicit false

-- Leftmost search for a word in a text that is built from tokens and separators.  A word without
-- separators never straddles two tokens, so the search can skip a token that does not contain it.
namespace Shared.Search

variable {α : Type} [DecidableEq α]

theorem go_accumulator (word text seen : List α) :
    List.dropInfix?.go word text seen =
      (List.dropInfix?.go word text []).map fun found => (seen.reverse ++ found.1, found.2) := by
  induction text generalizing seen with
  | nil =>
    unfold List.dropInfix?.go
    split <;> simp
  | cons x xs ih =>
    unfold List.dropInfix?.go
    cases found : (x :: xs).dropPrefix? word with
    | none =>
      simp only []
      rw [ih (x :: seen), ih [x], Option.map_map]
      congr 1
      funext found
      simp
    | some rest => simp

theorem dropPrefix?_append (word rest : List α) : (word ++ rest).dropPrefix? word = some rest :=
  List.dropPrefix?_append_of_beq rest (by simp)

theorem dropPrefix?_none {word text : List α} (absent : ¬ word <+: text) :
    text.dropPrefix? word = none := by
  cases found : text.dropPrefix? word with
  | none => rfl
  | some rest =>
    obtain ⟨front, split, same⟩ := List.dropPrefix?_eq_some_iff.mp found
    have equal := eq_of_beq same
    subst equal
    exact absurd ⟨rest, split.symm⟩ absent

theorem dropInfix?_here (word rest : List α) :
    (word ++ rest).dropInfix? word = some ([], rest) := by
  cases word with
  | nil => simp
  | cons x xs =>
    unfold List.dropInfix?
    rw [List.cons_append]
    unfold List.dropInfix?.go
    rw [← List.cons_append, dropPrefix?_append]
    rfl

theorem dropInfix?_later {word : List α} {x : α} {xs : List α} (absent : ¬ word <+: x :: xs) :
    (x :: xs).dropInfix? word =
      (xs.dropInfix? word).map fun found => (x :: found.1, found.2) := by
  unfold List.dropInfix?
  rw [List.dropInfix?.go, dropPrefix?_none absent]
  simp only []
  rw [go_accumulator]
  rfl

theorem dropInfix?_none {word text : List α} (absent : ¬ word <:+: text) :
    text.dropInfix? word = none := by
  cases found : text.dropInfix? word with
  | none => rfl
  | some halves =>
    obtain ⟨⟨middle, split, same⟩, _⟩ := List.dropInfix?_eq_some_iff.mp found
    have equal := eq_of_beq same
    subst equal
    exact absurd ⟨halves.1, halves.2, split.symm⟩ absent

omit [DecidableEq α] in
theorem isPrefix_before_separator {word token rest : List α} {x : α} (outside : x ∉ word)
    (start : word <+: token ++ x :: rest) : word <+: token := by
  rcases List.prefix_or_prefix_of_prefix (List.prefix_append token (x :: rest)) start with
    longer | shorter
  · obtain ⟨tail, rfl⟩ := longer
    cases tail with
    | nil => simp
    | cons y ys =>
      have same := (List.prefix_append_right_inj token).mp start
      have head := (List.cons_prefix_cons.mp same).1
      subst head
      simp at outside
  · exact shorter

theorem dropInfix?_skip {word token rest : List α} {x : α} (outside : x ∉ word)
    (absent : ¬ word <:+: token) :
    (token ++ x :: rest).dropInfix? word =
      (rest.dropInfix? word).map fun found => (token ++ x :: found.1, found.2) := by
  induction token with
  | nil =>
    have misses : ¬ word <+: x :: rest := by
      intro start
      exact absent (isPrefix_before_separator outside start).isInfix
    rw [List.nil_append, dropInfix?_later misses]
    rfl
  | cons y ys ih =>
    have misses : ¬ word <+: y :: (ys ++ x :: rest) := by
      intro start
      exact absent (isPrefix_before_separator outside start).isInfix
    have tail : ¬ word <:+: ys := fun inside => absent (inside.trans (List.suffix_cons y ys).isInfix)
    rw [List.cons_append, dropInfix?_later misses, ih tail, Option.map_map]
    rfl

theorem dropInfix?_mark {token rest : List α} {x : α} (outside : x ∉ token) :
    (token ++ x :: rest).dropInfix? [x] = some (token, rest) := by
  induction token with
  | nil => exact dropInfix?_here [x] rest
  | cons y ys ih =>
    simp only [List.mem_cons, not_or] at outside
    have misses : ¬ [x] <+: y :: (ys ++ x :: rest) := by
      intro start
      exact outside.1 (List.cons_prefix_cons.mp start).1
    rw [List.cons_append, dropInfix?_later misses, ih outside.2]
    rfl

-- The first occurrence in a text stays the first one when something is put behind the text.
theorem dropInfix?_within {word text : List α} (rest : List α) (inside : word <:+: text) :
    (text ++ rest).dropInfix? word =
      (text.dropInfix? word).map fun found => (found.1, found.2 ++ rest) := by
  induction text with
  | nil =>
    have empty : word = [] := by simpa using inside
    subst empty
    exact dropInfix?_here [] rest
  | cons x xs ih =>
    by_cases start : word <+: x :: xs
    · obtain ⟨tail, split⟩ := start
      rw [← split, List.append_assoc, dropInfix?_here, dropInfix?_here]
      rfl
    · have later : word <:+: xs := (List.infix_cons_iff.mp inside).resolve_left start
      -- An occurrence that reached into `rest` would be longer than the text that contains the word.
      have misses : ¬ word <+: x :: (xs ++ rest) := by
        intro straddles
        have before : x :: xs <+: x :: (xs ++ rest) := List.prefix_append (x :: xs) rest
        exact start (List.prefix_of_prefix_length_le straddles before inside.length_le)
      rw [List.cons_append, dropInfix?_later misses, dropInfix?_later start, ih later,
        Option.map_map, Option.map_map]
      rfl

def behindFirst (text word : List α) : Option (List α) :=
  (text.dropInfix? word).map Prod.snd

def Ends (separator : α → Bool) (rest : List α) : Prop :=
  ∀ x ∈ rest.head?, separator x = true

-- The text consists of the tokens, in this order, and of separators around and between them.
inductive Spaced (separator : α → Bool) : List α → List (List α) → Prop
  | done : Spaced separator [] []
  | skip {x : α} {rest : List α} {tokens : List (List α)} (blank : separator x = true)
      (more : Spaced separator rest tokens) : Spaced separator (x :: rest) tokens
  | token (front : List α) {rest : List α} {tokens : List (List α)} (ends : Ends separator rest)
      (more : Spaced separator rest tokens) : Spaced separator (front ++ rest) (front :: tokens)

omit [DecidableEq α] in
theorem Spaced.weaken {separator wider : α → Bool} {text : List α} {tokens : List (List α)}
    (wide : ∀ x, separator x = true → wider x = true) (spaced : Spaced separator text tokens) :
    Spaced wider text tokens := by
  induction spaced with
  | done => exact .done
  | skip blank _ ih => exact .skip (wide _ blank) ih
  | token front ends _ ih => exact .token front (fun x head => wide x (ends x head)) ih

omit [DecidableEq α] in
theorem Spaced.close {separator : α → Bool} {x : α} {text : List α} {tokens : List (List α)}
    (blank : separator x = true) (spaced : Spaced separator text tokens) :
    Spaced separator (text ++ [x]) tokens := by
  induction spaced with
  | done => exact .skip blank .done
  | skip first _ ih => exact .skip first ih
  | @token front rest tokens ends _ ih =>
    rw [List.append_assoc]
    refine .token front ?_ ih
    cases rest with
    | nil => simpa [Ends] using blank
    | cons y ys => exact ends

theorem behindFirst_inside {word text : List α} (inside : word <:+: text) :
    ∃ rest, behindFirst text word = some rest ∧ rest <:+ text := by
  induction text with
  | nil =>
    have empty : word = [] := by simpa using inside
    subst empty
    exact ⟨[], rfl, List.suffix_refl []⟩
  | cons x xs ih =>
    by_cases start : word <+: x :: xs
    · obtain ⟨tail, split⟩ := start
      refine ⟨tail, ?_, ⟨word, split⟩⟩
      rw [behindFirst, ← split, dropInfix?_here]
      rfl
    · obtain ⟨rest, found, suffix⟩ := ih ((List.infix_cons_iff.mp inside).resolve_left start)
      refine ⟨rest, ?_, suffix.trans (List.suffix_cons x xs)⟩
      rw [behindFirst, dropInfix?_later start, Option.map_map]
      exact found

theorem behindFirst_within {word text : List α} (rest : List α) (inside : word <:+: text) :
    behindFirst (text ++ rest) word = (behindFirst text word).map (· ++ rest) := by
  rw [behindFirst, dropInfix?_within rest inside, Option.map_map, behindFirst, Option.map_map]
  rfl

theorem behindFirst_skip {word token rest : List α} {x : α} (outside : x ∉ word)
    (absent : ¬ word <:+: token) :
    behindFirst (token ++ x :: rest) word = behindFirst rest word := by
  rw [behindFirst, dropInfix?_skip outside absent, Option.map_map]
  rfl

-- A token that does not contain the word can be skipped, whether a separator follows or nothing.
theorem behindFirst_token {separator : α → Bool} {word token rest : List α} (filled : word ≠ [])
    (outside : ∀ x ∈ word, separator x = false) (ends : Ends separator rest)
    (absent : ¬ word <:+: token) :
    behindFirst (token ++ rest) word = behindFirst rest word := by
  have nowhere : ¬ word <:+: [] := by simpa using filled
  cases rest with
  | nil => rw [List.append_nil, behindFirst, behindFirst, dropInfix?_none absent, dropInfix?_none nowhere]
  | cons x xs =>
    have apart : x ∉ word := by
      intro member
      have blank : separator x = true := ends x rfl
      rw [outside x member] at blank
      exact Bool.false_ne_true blank
    rw [behindFirst_skip apart absent]
    exact (@behindFirst_skip _ _ _ [] _ _ apart nowhere).symm

theorem behindFirst_spaced {separator : α → Bool} {word text found : List α} {tokens : List (List α)}
    (filled : word ≠ []) (outside : ∀ x ∈ word, separator x = false)
    (spaced : Spaced separator text tokens)
    (first : tokens.find? (fun token => word <:+: token) = some found) :
    ∃ tail, Ends separator tail ∧ behindFirst text word = (behindFirst found word).map (· ++ tail) := by
  induction spaced with
  | done => simp at first
  | @skip x rest tokens blank _ ih =>
    obtain ⟨tail, ends, same⟩ := ih first
    have nowhere : ¬ word <:+: [] := by simpa using filled
    have apart : x ∉ word := by
      intro member
      rw [outside x member] at blank
      exact Bool.false_ne_true blank
    exact ⟨tail, ends, (@behindFirst_skip _ _ _ [] _ _ apart nowhere).trans same⟩
  | @token front rest tokens ends _ ih =>
    by_cases inside : word <:+: front
    · rw [List.find?_cons_of_pos (by simpa using inside)] at first
      cases first
      exact ⟨rest, ends, behindFirst_within rest inside⟩
    · rw [List.find?_cons_of_neg (by simpa using inside)] at first
      obtain ⟨tail, stops, same⟩ := ih first
      exact ⟨tail, stops, (behindFirst_token filled outside ends inside).trans same⟩

end Shared.Search
