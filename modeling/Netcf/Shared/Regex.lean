import Mathlib.Computability.Language

set_option autoImplicit false

-- Regular expressions with classes of letters and differences, and the languages they stand for.
namespace Shared.Regex

open Computability

variable {α : Type}

inductive RegExp (α : Type) where
  | none
  | empty
  | one (letters : α → Bool)
  | alt (p q : RegExp α)
  | seq (p q : RegExp α)
  | star (p : RegExp α)
  | minus (p q : RegExp α)

namespace RegExp

def plus (p : RegExp α) : RegExp α :=
  .seq p (.star p)

def optional (p : RegExp α) : RegExp α :=
  .alt .empty p

def text [DecidableEq α] (word : List α) : RegExp α :=
  word.foldr (fun letter rest => .seq (.one (· == letter)) rest) .empty

def language : RegExp α → Language α
  | .none => 0
  | .empty => 1
  | .one letters => {word | ∃ letter, letters letter = true ∧ word = [letter]}
  | .alt p q => p.language + q.language
  | .seq p q => p.language * q.language
  | .star p => p.language∗
  | .minus p q => {word | word ∈ p.language ∧ word ∉ q.language}

def nullable : RegExp α → Bool
  | .none | .one _ => false
  | .empty | .star _ => true
  | .alt p q => p.nullable || q.nullable
  | .seq p q => p.nullable && q.nullable
  | .minus p q => p.nullable && !q.nullable

def deriv (letter : α) : RegExp α → RegExp α
  | .none | .empty => .none
  | .one letters => if letters letter then .empty else .none
  | .alt p q => .alt (p.deriv letter) (q.deriv letter)
  | .seq p q =>
      if p.nullable then .alt (.seq (p.deriv letter) q) (q.deriv letter) else .seq (p.deriv letter) q
  | .star p => .seq (p.deriv letter) (.star p)
  | .minus p q => .minus (p.deriv letter) (q.deriv letter)

def accepts : RegExp α → List α → Bool
  | p, [] => p.nullable
  | p, letter :: rest => (p.deriv letter).accepts rest

section Languages

variable {p q : RegExp α} {word : List α}

theorem mem_one {letters : α → Bool} :
    word ∈ (one letters).language ↔ ∃ letter, letters letter = true ∧ word = [letter] := Iff.rfl

theorem mem_none : word ∈ (none : RegExp α).language ↔ False :=
  iff_of_false (Language.notMem_zero word) not_false

theorem mem_empty : word ∈ (empty : RegExp α).language ↔ word = [] := Iff.rfl

theorem mem_alt : word ∈ (alt p q).language ↔ word ∈ p.language ∨ word ∈ q.language := Iff.rfl

theorem mem_seq : word ∈ (seq p q).language ↔ ∃ front ∈ p.language, ∃ back ∈ q.language, front ++ back = word :=
  Language.mem_mul

theorem mem_star : word ∈ (star p).language ↔
    ∃ pieces : List (List α), word = pieces.flatten ∧ ∀ piece ∈ pieces, piece ∈ p.language :=
  Language.mem_kstar

theorem mem_minus : word ∈ (minus p q).language ↔ word ∈ p.language ∧ word ∉ q.language := Iff.rfl

theorem mem_optional : word ∈ (optional p).language ↔ word = [] ∨ word ∈ p.language := Iff.rfl

theorem mem_text [DecidableEq α] {letters : List α} : word ∈ (text letters).language ↔ word = letters := by
  induction letters generalizing word with
  | nil => exact Iff.rfl
  | cons letter rest ih =>
    have unfolded : text (letter :: rest) = .seq (.one (· == letter)) (text rest) := rfl
    rw [unfolded, mem_seq]
    constructor
    · rintro ⟨_, ⟨first, same, rfl⟩, back, behind, rfl⟩
      rw [ih.mp behind, eq_of_beq same]
      rfl
    · rintro rfl
      exact ⟨[letter], ⟨letter, beq_self_eq_true letter, rfl⟩, rest, ih.mpr rfl, rfl⟩

end Languages

section Matching

variable {p q : RegExp α} {letter : α} {word : List α}

theorem nullable_iff (p : RegExp α) : p.nullable = true ↔ [] ∈ p.language := by
  induction p with
  | none => simp [nullable, language]
  | empty => simp [nullable, language]
  | one letters => simp [nullable, mem_one]
  | alt p q left right => simp [nullable, mem_alt, left, right]
  | seq p q left right => simp [nullable, mem_seq, left, right]
  | star p _ => simp [nullable, language, Language.nil_mem_kstar]
  | minus p q left right => simp [nullable, mem_minus, left, ← right]

theorem cons_mem_seq : letter :: word ∈ (seq p q).language ↔
    (∃ front back, letter :: front ∈ p.language ∧ back ∈ q.language ∧ front ++ back = word) ∨
      ([] ∈ p.language ∧ letter :: word ∈ q.language) := by
  rw [mem_seq]
  constructor
  · rintro ⟨front, inP, back, inQ, whole⟩
    cases front with
    | nil =>
      rw [← whole]
      exact .inr ⟨inP, inQ⟩
    | cons first rest =>
      obtain ⟨rfl, rfl⟩ := List.cons.inj whole
      exact .inl ⟨rest, back, inP, inQ, rfl⟩
  · rintro (⟨front, back, inP, inQ, rfl⟩ | ⟨inP, inQ⟩)
    · exact ⟨letter :: front, inP, back, inQ, rfl⟩
    · exact ⟨[], inP, letter :: word, inQ, rfl⟩

theorem cons_mem_star : letter :: word ∈ (star p).language ↔
    ∃ front back, letter :: front ∈ p.language ∧ back ∈ (star p).language ∧ front ++ back = word := by
  constructor
  · intro matched
    -- The first piece that is not empty begins with the letter.
    obtain ⟨pieces, whole, each⟩ := Language.mem_kstar_iff_exists_nonempty.mp matched
    cases pieces with
    | nil => cases whole
    | cons piece rest =>
      obtain ⟨inP, filled⟩ := each piece List.mem_cons_self
      cases piece with
      | nil => exact absurd rfl filled
      | cons first front =>
        obtain ⟨rfl, rfl⟩ := List.cons.inj whole
        refine ⟨front, rest.flatten, inP, mem_star.mpr ⟨rest, rfl, fun piece member => ?_⟩, rfl⟩
        exact (each piece (List.mem_cons_of_mem _ member)).1
  · rintro ⟨front, back, inP, inStar, rfl⟩
    obtain ⟨pieces, rfl, each⟩ := mem_star.mp inStar
    exact mem_star.mpr ⟨(letter :: front) :: pieces, rfl, List.forall_mem_cons.mpr ⟨inP, each⟩⟩

theorem mem_deriv (p : RegExp α) (letter : α) (word : List α) :
    word ∈ (p.deriv letter).language ↔ letter :: word ∈ p.language := by
  induction p generalizing word with
  | none => exact Iff.rfl
  | empty =>
    constructor
    · intro matched
      exact absurd matched (Language.notMem_zero word)
    · intro matched
      cases mem_empty.mp matched
  | one letters =>
    rw [deriv, mem_one]
    split
    · rw [mem_empty]
      constructor
      · rintro rfl
        exact ⟨letter, by assumption, rfl⟩
      · rintro ⟨first, _, same⟩
        exact (List.cons.inj same).2
    · rename_i outside
      constructor
      · intro matched
        exact absurd matched (Language.notMem_zero word)
      · rintro ⟨first, inside, same⟩
        rw [(List.cons.inj same).1] at outside
        exact absurd inside outside
  | alt p q left right => rw [deriv, mem_alt, mem_alt, left, right]
  | seq p q left right =>
    rw [cons_mem_seq, ← nullable_iff, deriv]
    have behind : word ∈ (seq (p.deriv letter) q).language ↔
        ∃ front back, letter :: front ∈ p.language ∧ back ∈ q.language ∧ front ++ back = word := by
      simp only [mem_seq, left, exists_and_left]
    split
    · rename_i skipped
      rw [mem_alt, behind, right]
      simp only [skipped, true_and]
    · rename_i stays
      rw [behind]
      exact (or_iff_left fun skipped => stays skipped.1).symm
  | star p ih =>
    rw [cons_mem_star, deriv, mem_seq]
    simp only [ih, exists_and_left]
  | minus p q left right => rw [deriv, mem_minus, mem_minus, left, right]

theorem accepts_iff (p : RegExp α) (word : List α) : p.accepts word = true ↔ word ∈ p.language := by
  induction word generalizing p with
  | nil => exact nullable_iff p
  | cons letter rest ih => rw [accepts, ih, mem_deriv]

end Matching

section Letters

variable {within : α → Prop} {word : List α}

-- Every letter that the expression can read has a property.
def Within (within : α → Prop) : RegExp α → Prop
  | .none | .empty => True
  | .one letters => ∀ letter, letters letter = true → within letter
  | .alt p q | .seq p q => p.Within within ∧ q.Within within
  | .star p | .minus p _ => p.Within within

theorem Within.letters {p : RegExp α} (closed : p.Within within) (matched : word ∈ p.language) :
    ∀ letter ∈ word, within letter := by
  induction p generalizing word with
  | none => exact absurd matched (Language.notMem_zero word)
  | empty =>
    rw [mem_empty.mp matched]
    exact List.forall_mem_nil _
  | one letters =>
    obtain ⟨letter, inside, rfl⟩ := mem_one.mp matched
    exact List.forall_mem_singleton.mpr (closed letter inside)
  | alt p q left right =>
    rcases mem_alt.mp matched with inP | inQ
    · exact left closed.1 inP
    · exact right closed.2 inQ
  | seq p q left right =>
    obtain ⟨front, inP, back, inQ, rfl⟩ := mem_seq.mp matched
    exact List.forall_mem_append.mpr ⟨left closed.1 inP, right closed.2 inQ⟩
  | star p ih =>
    obtain ⟨pieces, rfl, each⟩ := mem_star.mp matched
    intro letter inside
    obtain ⟨piece, listed, inPiece⟩ := List.mem_flatten.mp inside
    exact ih closed (each piece listed) letter inPiece
  | minus p q left _ => exact left closed matched.1

end Letters

section Blocks

variable {p q : RegExp α} {word : List α}

theorem mem_plus : word ∈ (plus p).language ↔
    ∃ pieces : List (List α), pieces ≠ [] ∧ word = pieces.flatten ∧ ∀ piece ∈ pieces, piece ∈ p.language := by
  rw [plus, mem_seq]
  constructor
  · rintro ⟨front, inP, _, inStar, rfl⟩
    obtain ⟨pieces, rfl, each⟩ := mem_star.mp inStar
    exact ⟨front :: pieces, List.cons_ne_nil _ _, rfl, List.forall_mem_cons.mpr ⟨inP, each⟩⟩
  · rintro ⟨pieces, filled, rfl, each⟩
    obtain ⟨front, rest, rfl⟩ := List.exists_cons_of_ne_nil filled
    obtain ⟨inP, later⟩ := List.forall_mem_cons.mp each
    exact ⟨front, inP, rest.flatten, mem_star.mpr ⟨rest, rfl, later⟩, rfl⟩

theorem mem_plus_one {letters : α → Bool} (filled : word ≠ []) (each : ∀ letter ∈ word, letters letter = true) :
    word ∈ (plus (one letters)).language := by
  refine mem_plus.mpr ⟨word.map ([·]), by simpa using filled, ?_, ?_⟩
  · rw [← List.flatMap_def, List.flatMap_singleton']
  intro piece listed
  obtain ⟨letter, inside, rfl⟩ := List.mem_map.mp listed
  exact mem_one.mpr ⟨letter, each letter inside, rfl⟩

def block (p q : RegExp α) : RegExp α :=
  .seq (.star p) (.seq q (.star p))

-- A word of pieces that match P or Q, one of them Q.
def Mixed (p q : RegExp α) (word : List α) : Prop :=
  ∃ pieces : List (List α), word = pieces.flatten ∧
    (∀ piece ∈ pieces, piece ∈ p.language ∨ piece ∈ q.language) ∧ ∃ piece ∈ pieces, piece ∈ q.language

theorem mixed_of_block (matched : word ∈ (block p q).language) : Mixed p q word := by
  obtain ⟨_, before, _, behind, rfl⟩ := mem_seq.mp matched
  obtain ⟨middle, inQ, _, after, rfl⟩ := mem_seq.mp behind
  obtain ⟨first, rfl, eachFirst⟩ := mem_star.mp before
  obtain ⟨last, rfl, eachLast⟩ := mem_star.mp after
  refine ⟨first ++ middle :: last, by simp, ?_, middle, by simp, inQ⟩
  intro piece member
  rcases List.mem_append.mp member with inFirst | inRest
  · exact .inl (eachFirst piece inFirst)
  · rcases List.mem_cons.mp inRest with rfl | inLast
    · exact .inr inQ
    · exact .inl (eachLast piece inLast)

theorem mixed_append {front back : List α} (first : Mixed p q front) (second : Mixed p q back) :
    Mixed p q (front ++ back) := by
  obtain ⟨left, rfl, eachLeft, piece, member, inQ⟩ := first
  obtain ⟨right, rfl, eachRight, _⟩ := second
  exact ⟨left ++ right, List.flatten_append.symm, List.forall_mem_append.mpr ⟨eachLeft, eachRight⟩,
    piece, List.mem_append_left _ member, inQ⟩

theorem block_of_pieces {middle : List α} {last : List (List α)} (inQ : middle ∈ q.language)
    (each : ∀ piece ∈ last, piece ∈ p.language) : middle ++ last.flatten ∈ (block p q).language :=
  mem_seq.mpr ⟨[], mem_star.mpr ⟨[], rfl, List.forall_mem_nil _⟩, _,
    mem_seq.mpr ⟨middle, inQ, _, mem_star.mpr ⟨last, rfl, each⟩, rfl⟩, rfl⟩

theorem block_prepend {piece : List α} (inP : piece ∈ p.language) (matched : word ∈ (block p q).language) :
    piece ++ word ∈ (block p q).language := by
  obtain ⟨_, before, back, behind, rfl⟩ := mem_seq.mp matched
  obtain ⟨first, rfl, each⟩ := mem_star.mp before
  exact mem_seq.mpr ⟨_, mem_star.mpr ⟨piece :: first, rfl, List.forall_mem_cons.mpr ⟨inP, each⟩⟩, back, behind,
    List.append_assoc _ _ _⟩

-- Blocks of P around one Q, one after the other, are any pieces of the two with a Q among them.
theorem mem_plus_block : word ∈ (plus (block p q)).language ↔ Mixed p q word := by
  constructor
  · intro matched
    obtain ⟨blocks, filled, rfl, each⟩ := mem_plus.mp matched
    clear matched
    induction blocks with
    | nil => exact absurd rfl filled
    | cons first rest ih =>
      obtain ⟨here, later⟩ := List.forall_mem_cons.mp each
      rcases List.eq_nil_or_concat rest with rfl | ⟨_, _, rfl⟩
      · simpa using mixed_of_block here
      · exact mixed_append (mixed_of_block here) (ih (by simp) later)
  · rintro ⟨pieces, rfl, each, some⟩
    rw [mem_plus]
    induction pieces with
    | nil => simp at some
    | cons piece rest ih =>
      obtain ⟨here, later⟩ := List.forall_mem_cons.mp each
      by_cases again : ∃ piece ∈ rest, piece ∈ q.language
      · obtain ⟨blocks, filled, whole, matched⟩ := ih later again
        obtain ⟨first, others, rfl⟩ := List.exists_cons_of_ne_nil filled
        rw [List.flatten_cons, whole]
        rcases here with inP | inQ
        · obtain ⟨inBlock, remaining⟩ := List.forall_mem_cons.mp matched
          exact ⟨(piece ++ first) :: others, List.cons_ne_nil _ _, by simp,
            List.forall_mem_cons.mpr ⟨block_prepend inP inBlock, remaining⟩⟩
        · have alone : piece ∈ (block p q).language := by
            have nothingBehind : ∀ piece ∈ ([] : List (List α)), piece ∈ p.language := List.forall_mem_nil _
            simpa using block_of_pieces inQ nothingBehind
          exact ⟨piece :: first :: others, List.cons_ne_nil _ _, rfl, List.forall_mem_cons.mpr ⟨alone, matched⟩⟩
      · -- No Q behind the first piece, so it is the Q and only P follow it.
        have inQ : piece ∈ q.language := by
          obtain ⟨special, member, inQ⟩ := some
          rcases List.mem_cons.mp member with rfl | behind
          · exact inQ
          · exact absurd ⟨special, behind, inQ⟩ again
        have onlyP : ∀ piece ∈ rest, piece ∈ p.language := fun other member =>
          (later other member).resolve_right fun inQ => again ⟨other, member, inQ⟩
        exact ⟨[(piece :: rest).flatten], List.cons_ne_nil _ _, by simp,
          List.forall_mem_singleton.mpr (block_of_pieces inQ onlyP)⟩

end Blocks

section Codes

variable {β : Type} {code : β → List α} {p q : RegExp α} {first second : β → Prop} {word : List α}

-- The words of the expression are the codes of the things with a property.
def Codes (code : β → List α) (property : β → Prop) (p : RegExp α) : Prop :=
  ∀ word, word ∈ p.language ↔ ∃ thing, property thing ∧ word = code thing

theorem codes_alt (inP : Codes code first p) (inQ : Codes code second q) :
    Codes code (fun thing => first thing ∨ second thing) (alt p q) := by
  intro word
  rw [mem_alt, inP, inQ, ← exists_or]
  simp only [or_and_right]

theorem exists_things {property : β → Prop} {words : List (List α)}
    (each : ∀ word ∈ words, ∃ thing, property thing ∧ word = code thing) :
    ∃ things : List β, words = things.map code ∧ ∀ thing ∈ things, property thing := by
  induction words with
  | nil => exact ⟨[], rfl, List.forall_mem_nil _⟩
  | cons word rest ih =>
    obtain ⟨here, later⟩ := List.forall_mem_cons.mp each
    obtain ⟨thing, holds, rfl⟩ := here
    obtain ⟨things, rfl, all⟩ := ih later
    exact ⟨thing :: things, rfl, List.forall_mem_cons.mpr ⟨holds, all⟩⟩

theorem codes_plus (codes : Codes code first p) :
    Codes (List.flatMap code) (fun things => things ≠ [] ∧ ∀ thing ∈ things, first thing) (plus p) := by
  intro word
  rw [mem_plus]
  constructor
  · rintro ⟨pieces, filled, rfl, each⟩
    obtain ⟨things, rfl, all⟩ := exists_things fun piece member => (codes piece).mp (each piece member)
    exact ⟨things, ⟨fun empty => filled (by rw [empty]; rfl), all⟩, rfl⟩
  · rintro ⟨things, ⟨filled, all⟩, rfl⟩
    refine ⟨things.map code, fun empty => filled (List.map_eq_nil_iff.mp empty), rfl, ?_⟩
    intro piece member
    obtain ⟨thing, listed, rfl⟩ := List.mem_map.mp member
    exact (codes _).mpr ⟨thing, all thing listed, rfl⟩

theorem codes_blocks (inP : Codes code first p) (inQ : Codes code second q)
    (apart : ∀ thing other, code thing = code other → thing = other) :
    Codes (List.flatMap code)
      (fun things => (∀ thing ∈ things, first thing ∨ second thing) ∧ ∃ thing ∈ things, second thing)
      (plus (block p q)) := by
  intro word
  rw [mem_plus_block]
  constructor
  · rintro ⟨pieces, rfl, each, piece, member, special⟩
    obtain ⟨things, rfl, all⟩ := exists_things fun piece member => (codes_alt inP inQ piece).mp (each piece member)
    obtain ⟨thing, listed, rfl⟩ := List.mem_map.mp member
    obtain ⟨other, holds, same⟩ := (inQ _).mp special
    exact ⟨things, ⟨all, thing, listed, apart _ _ same ▸ holds⟩, rfl⟩
  · rintro ⟨things, ⟨all, thing, listed, holds⟩, rfl⟩
    refine ⟨things.map code, rfl, ?_, code thing, List.mem_map_of_mem listed, (inQ _).mpr ⟨thing, holds, rfl⟩⟩
    intro piece member
    obtain ⟨other, listed, rfl⟩ := List.mem_map.mp member
    exact (codes_alt inP inQ _).mpr ⟨other, all other listed, rfl⟩

theorem Codes.mem (codes : Codes code first p) (apart : ∀ thing other, code thing = code other → thing = other)
    {thing : β} : code thing ∈ p.language ↔ first thing := by
  rw [codes]
  constructor
  · rintro ⟨other, holds, same⟩
    rwa [apart _ _ same]
  · intro holds
    exact ⟨thing, holds, rfl⟩

end Codes

end RegExp

end Shared.Regex
