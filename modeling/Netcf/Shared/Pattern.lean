import Mathlib.Computability.RegularExpressions

set_option autoImplicit false

-- Patterns in the notation of a schema's data type library, and the texts a pattern accepts.
namespace Shared.Pattern

open RegularExpression

def range (low high : Char) : List Char :=
  (List.range' low.toNat (high.toNat + 1 - low.toNat)).map Char.ofNat

def oneOf (chars : List Char) : RegularExpression Char :=
  chars.foldr (fun c rest => char c + rest) 0

def oneOrMore (pattern : RegularExpression Char) : RegularExpression Char :=
  pattern * pattern.star

def optional (pattern : RegularExpression Char) : RegularExpression Char :=
  1 + pattern

def upTo (pattern : RegularExpression Char) : Nat → RegularExpression Char
  | 0 => 1
  | n + 1 => 1 + pattern * upTo pattern n

def between (pattern : RegularExpression Char) (least most : Nat) : RegularExpression Char :=
  pattern ^ least * upTo pattern (most - least)

structure Lexeme (pattern : RegularExpression Char) where
  text : String
  accepted : pattern.rmatch text.toList = true
  deriving DecidableEq

theorem Lexeme.text_injective {pattern : RegularExpression Char} :
    Function.Injective (Lexeme.text : Lexeme pattern → String) := by
  rintro ⟨left, _⟩ ⟨right, _⟩ same
  cases same
  rfl

def within (allowed : Char → Bool) : RegularExpression Char → Bool
  | .zero | .epsilon => true
  | .char c => allowed c
  | .plus p q | .comp p q => within allowed p && within allowed q
  | .star p => within allowed p

theorem within_correct {allowed : Char → Bool} {pattern : RegularExpression Char}
    (closed : within allowed pattern = true) {word : List Char} (matched : word ∈ pattern.matches') :
    ∀ c ∈ word, allowed c = true := by
  induction pattern generalizing word with
  | zero => exact absurd matched (by simp [matches'])
  | epsilon =>
    have empty : word = [] := by simpa [matches'] using matched
    simp [empty]
  | char letter =>
    have single : word = [letter] := matched
    simpa [single, within] using closed
  | plus p q left right =>
    simp only [within, Bool.and_eq_true] at closed
    rcases matched with first | second
    · exact left closed.1 first
    · exact right closed.2 second
  | comp p q left right =>
    simp only [within, Bool.and_eq_true] at closed
    obtain ⟨front, first, back, second, rfl⟩ := Language.mem_mul.mp matched
    intro c inside
    rcases List.mem_append.mp inside with inFront | inBack
    · exact left closed.1 first c inFront
    · exact right closed.2 second c inBack
  | star p ih =>
    obtain ⟨pieces, rfl, each⟩ := Language.mem_kstar.mp matched
    intro c inside
    obtain ⟨piece, listed, inPiece⟩ := List.mem_flatten.mp inside
    exact ih closed (each piece listed) c inPiece

theorem Lexeme.mem_matches {pattern : RegularExpression Char} (lexeme : Lexeme pattern) :
    lexeme.text.toList ∈ pattern.matches' :=
  (rmatch_iff_matches' pattern _).mp lexeme.accepted

theorem Lexeme.within {pattern : RegularExpression Char} (lexeme : Lexeme pattern)
    {allowed : Char → Bool} (closed : Pattern.within allowed pattern = true) :
    ∀ c ∈ lexeme.text.toList, allowed c = true :=
  within_correct closed lexeme.mem_matches

theorem Lexeme.nonempty {pattern : RegularExpression Char} (lexeme : Lexeme pattern)
    (proper : pattern.matchEpsilon = false) : lexeme.text.toList ≠ [] := by
  intro empty
  have accepted := lexeme.accepted
  rw [empty] at accepted
  simp [rmatch, proper] at accepted

section Pieces

variable {pattern : RegularExpression Char} {word : List Char}

theorem mem_oneOf {chars : List Char} : word ∈ (oneOf chars).matches' ↔ ∃ c ∈ chars, word = [c] := by
  induction chars with
  | nil =>
    constructor
    · intro matched
      exact absurd matched (Language.notMem_zero word)
    · rintro ⟨c, member, _⟩
      cases member
  | cons c rest ih =>
    simp only [List.mem_cons, exists_eq_or_imp, ← ih]
    rfl

-- A word is put together from pieces that match the pattern, a number of them that is allowed.
def Pieces (pattern : RegularExpression Char) (allowed : Nat → Prop) (word : List Char) : Prop :=
  ∃ pieces : List (List Char), allowed pieces.length ∧ (∀ piece ∈ pieces, piece ∈ pattern.matches') ∧
    word = pieces.flatten

theorem no_pieces {allowed : Nat → Prop} (zero : allowed 0) : Pieces pattern allowed [] :=
  ⟨[], zero, List.forall_mem_nil _, rfl⟩

theorem pieces_pow {n : Nat} (matched : word ∈ (pattern ^ n).matches') : Pieces pattern (· = n) word := by
  rw [matches'_pow] at matched
  obtain ⟨pieces, whole, count, each⟩ := Language.mem_pow.mp matched
  exact ⟨pieces, count, each, whole⟩

theorem pieces_upTo {n : Nat} (matched : word ∈ (upTo pattern n).matches') : Pieces pattern (· ≤ n) word := by
  induction n generalizing word with
  | zero =>
    have empty : word = [] := matched
    rw [empty]
    exact no_pieces (Nat.le_refl 0)
  | succ n ih =>
    rcases matched with empty | more
    · have empty : word = [] := empty
      rw [empty]
      exact no_pieces (Nat.zero_le _)
    · obtain ⟨first, here, rest, later, rfl⟩ := Language.mem_mul.mp more
      obtain ⟨pieces, few, each, rfl⟩ := ih later
      exact ⟨first :: pieces, Nat.succ_le_succ few, List.forall_mem_cons.mpr ⟨here, each⟩, rfl⟩

theorem pieces_optional (matched : word ∈ (optional pattern).matches') : Pieces pattern (· ≤ 1) word := by
  rcases matched with empty | once
  · have empty : word = [] := empty
    rw [empty]
    exact no_pieces (Nat.zero_le 1)
  · exact ⟨[word], Nat.le_refl 1, List.forall_mem_singleton.mpr once, List.flatten_singleton.symm⟩

theorem pieces_between {least most : Nat} (ordered : least ≤ most)
    (matched : word ∈ (between pattern least most).matches') :
    Pieces pattern (fun n => least ≤ n ∧ n ≤ most) word := by
  obtain ⟨front, first, back, second, rfl⟩ := Language.mem_mul.mp matched
  obtain ⟨pieces, exactly, each, rfl⟩ := pieces_pow first
  obtain ⟨others, few, all, rfl⟩ := pieces_upTo second
  refine ⟨pieces ++ others, ?_, List.forall_mem_append.mpr ⟨each, all⟩, List.flatten_append.symm⟩
  rw [List.length_append]
  omega

theorem Pieces.chars {chars : List Char} {allowed : Nat → Prop} (pieces : Pieces (oneOf chars) allowed word) :
    allowed word.length ∧ ∀ c ∈ word, c ∈ chars := by
  obtain ⟨list, count, each, rfl⟩ := pieces
  have flat : list.flatten.length = list.length ∧ ∀ c ∈ list.flatten, c ∈ chars := by
    clear count
    induction list with
    | nil => exact ⟨rfl, List.forall_mem_nil _⟩
    | cons piece rest ih =>
      obtain ⟨here, later⟩ := List.forall_mem_cons.mp each
      obtain ⟨c, member, rfl⟩ := mem_oneOf.mp here
      obtain ⟨length, inside⟩ := ih later
      rw [List.flatten_cons, List.singleton_append]
      exact ⟨congrArg (· + 1) length, List.forall_mem_cons.mpr ⟨member, inside⟩⟩
  rw [flat.1]
  exact ⟨count, flat.2⟩

end Pieces

end Shared.Pattern
