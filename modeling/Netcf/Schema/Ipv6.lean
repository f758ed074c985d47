import Netcf.Schema.Lexical

set_option autoImplicit false

-- The texts of IPv6 addresses as RFC 4291 has them, and what the schema's pattern accepts.
namespace Netcf.Schema

open Shared.Pattern
open RegularExpression (char matches' matches'_mul)

section Forms

def isHexDigit (c : Char) : Bool :=
  c.isDigit || ('a' ≤ c && c ≤ 'f') || ('A' ≤ c && c ≤ 'F')

-- Sixteen bits, as one to four hexadecimal digits.
def IsGroup (text : List Char) : Prop :=
  (1 ≤ text.length ∧ text.length ≤ 4) ∧ ∀ c ∈ text, isHexDigit c = true

def IsOctet (text : List Char) : Prop :=
  (1 ≤ text.length ∧ text.length ≤ 3) ∧ (∀ c ∈ text, c.isDigit = true) ∧ Nat.ofDigitChars 10 text 0 ≤ 255

inductive IsDotted : List Char → Prop
  | quad {a b c d : List Char} : IsOctet a → IsOctet b → IsOctet c → IsOctet d →
      IsDotted (a ++ '.' :: (b ++ '.' :: (c ++ '.' :: d)))

-- Groups with colons between them. Where DOTTED allows it a dotted quad stands for the last two.
inductive Groups (dotted : Bool) : Nat → List Char → Prop
  | group {text : List Char} : IsGroup text → Groups dotted 1 text
  | quad {text : List Char} : dotted = true → IsDotted text → Groups dotted 2 text
  | more {n : Nat} {first rest : List Char} : IsGroup first → Groups dotted n rest →
      Groups dotted (n + 1) (first ++ ':' :: rest)

inductive Side (dotted : Bool) : Nat → List Char → Prop
  | empty : Side dotted 0 []
  | groups {n : Nat} {text : List Char} : Groups dotted n text → Side dotted n text

-- A "::" stands for one or more groups that are zero.
inductive WellFormed : List Char → Prop
  | full {text : List Char} : Groups true 8 text → WellFormed text
  | compressed {m n : Nat} {front back : List Char} : m + n ≤ 7 → Side false m front → Side true n back →
      WellFormed (front ++ ':' :: ':' :: back)

end Forms

section Heads

variable {dotted : Bool} {n : Nat} {text : List Char}

theorem head_of_chars {p : Char → Bool} (filled : 1 ≤ text.length) (chars : ∀ c ∈ text, p c = true)
    (other : p ':' = false) : ∃ c rest, text = c :: rest ∧ c ≠ ':' := by
  obtain ⟨c, rest, rfl⟩ := List.exists_cons_of_length_pos filled
  refine ⟨c, rest, rfl, ?_⟩
  rintro rfl
  rw [chars ':' List.mem_cons_self] at other
  cases other

theorem Groups.head (groups : Groups dotted n text) : ∃ c rest, text = c :: rest ∧ c ≠ ':' := by
  cases groups with
  | group isGroup => exact head_of_chars isGroup.1.1 isGroup.2 (by decide)
  | quad _ isDotted =>
    cases isDotted with
    | quad first _ _ _ =>
      obtain ⟨c, rest, rfl, apart⟩ := head_of_chars first.1.1 first.2.1 (by decide)
      exact ⟨c, _, List.cons_append, apart⟩
  | more isGroup _ =>
    obtain ⟨c, rest, rfl, apart⟩ := head_of_chars isGroup.1.1 isGroup.2 (by decide)
    exact ⟨c, _, List.cons_append, apart⟩

-- Behind one colon comes something else.
def SingleColon (text : List Char) : Prop :=
  ∃ rest, text = ':' :: rest ∧ rest.head? ≠ some ':'

theorem not_single_groups (groups : Groups dotted n text) (behind : List Char) : ¬ SingleColon (text ++ behind) := by
  obtain ⟨c, rest, rfl, apart⟩ := groups.head
  rintro ⟨_, starts, _⟩
  exact apart (List.cons.inj starts).1

theorem WellFormed.not_single (wellFormed : WellFormed text) : ¬ SingleColon text := by
  cases wellFormed with
  | full groups =>
    have whole := not_single_groups groups []
    rwa [List.append_nil] at whole
  | @compressed m n front back few left right =>
    cases left with
    | groups groups => exact not_single_groups groups (':' :: ':' :: back)
    | empty =>
      rintro ⟨rest, starts, other⟩
      rw [← (List.cons.inj starts).2] at other
      exact other rfl

end Heads

section Octets

variable {text : List Char}

def octetCheck (text : List Char) : Bool :=
  decide (1 ≤ text.length) && decide (text.length ≤ 3) && text.all Char.isDigit &&
    decide (Nat.ofDigitChars 10 text 0 ≤ 255)

theorem isOctet_of_check {α : Type} {list : List α} {spelled : α → List Char}
    (checked : (list.all fun a => octetCheck (spelled a)) = true) : ∀ a ∈ list, IsOctet (spelled a) := by
  intro a member
  have here := List.all_eq_true.mp checked a member
  simp only [octetCheck, Bool.and_eq_true, decide_eq_true_eq, List.all_eq_true] at here
  exact ⟨here.1.1, here.1.2, here.2⟩

theorem isOctet_of_tailOctet (matched : text ∈ tailOctet.matches') : IsOctet text := by
  have pairs {first second : List Char} {spelled : Char → Char → List Char}
      (checked : (first.all fun a => second.all fun b => octetCheck (spelled a b)) = true) :
      ∀ a ∈ first, ∀ b ∈ second, IsOctet (spelled a b) := fun a inFirst =>
    isOctet_of_check (List.all_eq_true.mp checked a inFirst)
  rcases matched with ((upper | hundred) | lower) | short
  · obtain ⟨_, ⟨_, rfl, _, rfl, rfl⟩, _, last, rfl⟩ := Language.mem_mul.mp upper
    obtain ⟨c, member, rfl⟩ := mem_oneOf.mp last
    have all : ∀ c ∈ range '0' '5', IsOctet ['2', '5', c] := isOctet_of_check (by decide +kernel)
    exact all c member
  · obtain ⟨_, rfl, digits, two, rfl⟩ := Language.mem_mul.mp hundred
    obtain ⟨length, chars⟩ := (pieces_pow two).chars
    obtain ⟨a, b, rfl⟩ := List.length_eq_two.mp length
    have all : ∀ a ∈ range '0' '9', ∀ b ∈ range '0' '9', IsOctet ['1', a, b] :=
      @pairs _ _ (fun a b => ['1', a, b]) (by decide +kernel)
    exact all a (chars a (by simp)) b (chars b (by simp))
  · obtain ⟨_, ⟨_, rfl, _, second, rfl⟩, _, last, rfl⟩ := Language.mem_mul.mp lower
    obtain ⟨a, first, rfl⟩ := mem_oneOf.mp second
    obtain ⟨b, member, rfl⟩ := mem_oneOf.mp last
    have all : ∀ a ∈ range '0' '4', ∀ b ∈ range '0' '9', IsOctet ['2', a, b] :=
      @pairs _ _ (fun a b => ['2', a, b]) (by decide +kernel)
    exact all a first b member
  · obtain ⟨length, chars⟩ := (pieces_between (by decide) short).chars
    have either : text.length = 1 ∨ text.length = 2 := by omega
    rcases either with one | two
    · obtain ⟨a, rfl⟩ := List.length_eq_one_iff.mp one
      have all : ∀ a ∈ range '0' '9', IsOctet [a] := isOctet_of_check (by decide +kernel)
      exact all a (chars a (by simp))
    · obtain ⟨a, b, rfl⟩ := List.length_eq_two.mp two
      have all : ∀ a ∈ range '0' '9', ∀ b ∈ range '0' '9', IsOctet [a, b] :=
        @pairs _ _ (fun a b => [a, b]) (by decide +kernel)
      exact all a (chars a (by simp)) b (chars b (by simp))

theorem isDotted_of_dottedTail (matched : text ∈ dottedTail.matches') : IsDotted text := by
  obtain ⟨_, three, last, fourth, rfl⟩ := Language.mem_mul.mp matched
  obtain ⟨pieces, count, each, rfl⟩ := pieces_pow three
  obtain ⟨x, y, z, rfl⟩ := List.length_eq_three.mp count
  have octet : ∀ piece ∈ [x, y, z], ∃ t, IsOctet t ∧ piece = t ++ ['.'] := by
    intro piece member
    obtain ⟨t, matched, _, rfl, rfl⟩ := Language.mem_mul.mp (each piece member)
    exact ⟨t, isOctet_of_tailOctet matched, rfl⟩
  obtain ⟨a, first, rfl⟩ := octet x (by simp)
  obtain ⟨b, second, rfl⟩ := octet y (by simp)
  obtain ⟨c, third, rfl⟩ := octet z (by simp)
  have quad := IsDotted.quad first second third (isOctet_of_tailOctet fourth)
  simpa using quad

theorem isGroup_of_group (matched : text ∈ group.matches') : IsGroup text := by
  obtain ⟨length, chars⟩ := (pieces_between (by decide) matched).chars
  have all : ∀ c ∈ range '0' '9' ++ range 'A' 'F' ++ range 'a' 'f', isHexDigit c = true :=
    List.all_eq_true.mp (by decide)
  exact ⟨length, fun c member => all c (chars c member)⟩

end Octets

section Parts

variable {dotted : Bool} {n : Nat} {allowed : Nat → Prop} {word rest : List Char}

theorem mem_part {piece : List Char} (matched : piece ∈ part.matches') : ∃ g, IsGroup g ∧ piece = g ++ [':'] := by
  obtain ⟨g, first, _, rfl, rfl⟩ := Language.mem_mul.mp matched
  exact ⟨g, isGroup_of_group first, rfl⟩

-- Groups, each with its colon, in front of others.
theorem groups_behind (parts : Pieces part allowed word) (groups : Groups dotted n rest) :
    ∃ k, allowed k ∧ Groups dotted (k + n) (word ++ rest) := by
  obtain ⟨pieces, count, each, rfl⟩ := parts
  refine ⟨pieces.length, count, ?_⟩
  clear count
  induction pieces with
  | nil => rwa [List.length_nil, Nat.zero_add]
  | cons piece pieces ih =>
    obtain ⟨here, later⟩ := List.forall_mem_cons.mp each
    obtain ⟨g, isGroup, rfl⟩ := mem_part here
    have all := Groups.more isGroup (ih later)
    rwa [List.length_cons, Nat.add_right_comm, List.flatten_cons, List.append_assoc, List.append_assoc]

-- The last colon of the groups belongs to the "::" that comes with one more.
theorem side_front (parts : Pieces part allowed word) :
    (allowed 0 ∧ word = []) ∨ ∃ k front, allowed k ∧ Groups false k front ∧ word = front ++ [':'] := by
  obtain ⟨pieces, count, each, rfl⟩ := parts
  rcases List.eq_nil_or_concat' pieces with rfl | ⟨init, last, rfl⟩
  · exact Or.inl ⟨count, rfl⟩
  · obtain ⟨others, final⟩ := List.forall_mem_append.mp each
    obtain ⟨g, isGroup, rfl⟩ := mem_part (final last (List.mem_singleton_self last))
    obtain ⟨k, rfl, groups⟩ := groups_behind ⟨init, rfl, others, rfl⟩ (@Groups.group false g isGroup)
    refine Or.inr ⟨init.length + 1, init.flatten ++ g, ?_, groups, ?_⟩
    · rwa [List.length_append] at count
    · rw [List.flatten_append, List.flatten_singleton, List.append_assoc]

theorem groups_group (parts : Pieces part allowed word) {g : List Char} (last : g ∈ group.matches') :
    ∃ k, allowed k ∧ Groups dotted (k + 1) (word ++ g) :=
  groups_behind parts (.group (isGroup_of_group last))

theorem groups_quad (parts : Pieces part allowed word) {quad : List Char} (last : quad ∈ dottedTail.matches') :
    ∃ k, allowed k ∧ Groups true (k + 2) (word ++ quad) :=
  groups_behind parts (.quad rfl (isDotted_of_dottedTail last))

end Parts

section Alternatives

variable {word : List Char}

theorem wellFormed_around {k most : Nat} {middle : RegularExpression Char}
    (few : ∀ word ∈ middle.matches', Pieces part (· ≤ most) word) (positive : 0 < k) (total : k + most ≤ 6)
    (matched : word ∈ (part ^ k * char ':' * middle * group).matches') : WellFormed word := by
  obtain ⟨_, ⟨_, ⟨a, first, _, rfl, rfl⟩, b, second, rfl⟩, g, last, rfl⟩ := Language.mem_mul.mp matched
  obtain ⟨n, bounded, back⟩ := @groups_group true _ _ (few b second) g last
  rcases side_front (pieces_pow first) with ⟨none, _⟩ | ⟨m, front, rfl, groups, rfl⟩
  · omega
  · have whole := WellFormed.compressed (by omega) (.groups groups) (.groups back)
    simpa using whole

theorem wellFormed_or_single (matched : word ∈ ipv6Addr.matches') : WellFormed word ∨ SingleColon word := by
  rcases matched with ((((((((((full | six) | five) | four) | three) | two) | quad) | tail) | headless) | one) | zero) | open_
  · obtain ⟨a, first, g, last, rfl⟩ := Language.mem_mul.mp full
    obtain ⟨k, rfl, groups⟩ := groups_group (pieces_pow first) last
    exact Or.inl (.full groups)
  · obtain ⟨_, ⟨a, first, _, rfl, rfl⟩, g, last, rfl⟩ := Language.mem_mul.mp six
    have nothing : ∀ word ∈ matches' 1, Pieces part (· ≤ 0) word := by
      rintro _ rfl
      exact no_pieces (Nat.le_refl 0)
    exact Or.inl (wellFormed_around nothing (by decide) (by decide)
      ⟨_, ⟨_, ⟨a, first, _, rfl, rfl⟩, [], rfl, rfl⟩, g, last, congrArg (· ++ g) (List.append_nil _)⟩)
  · exact Or.inl (wellFormed_around (fun _ => pieces_optional) (by decide) (by decide) five)
  · exact Or.inl (wellFormed_around (fun _ => pieces_upTo) (by decide) (by decide) four)
  · exact Or.inl (wellFormed_around (fun _ => pieces_upTo) (by decide) (by decide) three)
  · exact Or.inl (wellFormed_around (fun _ => pieces_upTo) (by decide) (by decide) two)
  · obtain ⟨a, first, t, last, rfl⟩ := Language.mem_mul.mp quad
    obtain ⟨k, rfl, groups⟩ := groups_quad (pieces_pow first) last
    exact Or.inl (.full groups)
  · obtain ⟨_, ⟨a, first, _, rfl, rfl⟩, t, last, rfl⟩ := Language.mem_mul.mp tail
    have isDotted := isDotted_of_dottedTail last
    rcases side_front (pieces_upTo first) with ⟨_, rfl⟩ | ⟨m, front, few, groups, rfl⟩
    · obtain ⟨c, rest, rfl, apart⟩ := (@Groups.quad true _ rfl isDotted).head
      exact Or.inr ⟨c :: rest, rfl, fun same => apart (Option.some.inj same)⟩
    · have whole := WellFormed.compressed (by omega) (.groups groups) (.groups (.quad rfl isDotted))
      exact Or.inl (by simpa using whole)
  · obtain ⟨_, ⟨_, ⟨_, rfl, _, rfl, rfl⟩, b, second, rfl⟩, t, last, rfl⟩ := Language.mem_mul.mp headless
    obtain ⟨k, few, groups⟩ := groups_quad (pieces_upTo second) last
    have whole := WellFormed.compressed (by omega) .empty (.groups groups)
    exact Or.inl (by simpa using whole)
  · obtain ⟨_, ⟨_, ⟨_, ⟨h, first, _, rfl, rfl⟩, _, rfl, rfl⟩, b, second, rfl⟩, g, last, rfl⟩ := Language.mem_mul.mp one
    obtain ⟨k, few, groups⟩ := @groups_group true _ _ (pieces_upTo second) g last
    have whole := WellFormed.compressed (by omega) (.groups (.group (isGroup_of_group first))) (.groups groups)
    exact Or.inl (by simpa using whole)
  · obtain ⟨_, ⟨_, ⟨_, rfl, _, rfl, rfl⟩, b, second, rfl⟩, g, last, rfl⟩ := Language.mem_mul.mp zero
    obtain ⟨k, few, groups⟩ := @groups_group true _ _ (pieces_upTo second) g last
    have whole := WellFormed.compressed (by omega) .empty (.groups groups)
    exact Or.inl (by simpa using whole)
  · obtain ⟨a, first, _, rfl, rfl⟩ := Language.mem_mul.mp open_
    rcases side_front (pieces_between (by decide) first) with ⟨few, _⟩ | ⟨m, front, few, groups, rfl⟩
    · omega
    · have whole := WellFormed.compressed (by omega) (.groups groups) .empty
      exact Or.inl (by simpa using whole)

end Alternatives

section Soundness

-- Of the addresses that a document may have, the malformed ones are those that begin with one colon.
theorem ipv6Addr_sound_iff (address : Ipv6Addr) :
    WellFormed address.text.toList ↔ ¬ SingleColon address.text.toList := by
  constructor
  · exact WellFormed.not_single
  · intro other
    rcases wellFormed_or_single address.mem_matches with wellFormed | single
    · exact wellFormed
    · exact absurd single other

def quadBehindColon : Ipv6Addr :=
  ⟨":1.2.3.4", by decide +kernel⟩

theorem quadBehindColon_accepted :
    ipv6Addr.rmatch ":1.2.3.4".toList = true ∧ ¬ WellFormed ":1.2.3.4".toList := by
  refine ⟨quadBehindColon.accepted, fun wellFormed => wellFormed.not_single ?_⟩
  exact ⟨"1.2.3.4".toList, rfl, by decide⟩

end Soundness

end Netcf.Schema
