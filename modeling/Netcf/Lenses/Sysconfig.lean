import Mathlib.Data.List.DropRight
import Netcf.Shared.Lists
import Netcf.Lenses.Values

set_option autoImplicit false

-- The line of a variable in a sysconfig file: what is created for it, and that it reads back in one way.
namespace Netcf.Lenses

open Shared.Regex Shared.Bidirectional

section Definitions

def isKeyChar (c : Char) : Bool :=
  c.isAlphanum || c == '_'

def keyRe : RegExp Char :=
  .minus
    (.minus
      (.seq (.plus (.one isKeyChar))
        (.optional (.seq (.seq (.text ['[']) (.plus (.one Char.isDigit))) (.text [']']))))
      (.text "unset".toList))
    (.text "export".toList)

variable (util : Util)

def eq : Lens Char :=
  util.delStr ['=']

def exportKey : Lens Char :=
  .subtree (.seq (.key (.text "export".toList)) util.delWsSpc)

def kv (value : Lens Char) : Lens Char :=
  .subtree (.seq (.seq (.seq (.seq (.optional (exportKey util)) (.key keyRe)) (eq util)) value) util.eol)

def assign : Lens Char :=
  .union (.union (.union (kv util nothing) (kv util bare)) (kv util dquot)) (kv util (squot util))

def setting (key value : List Char) : View Char :=
  ⟨none, none, [⟨some key, some value, []⟩]⟩

end Definitions

section Quotes

def Piece.isQuote (piece : Piece) : Bool :=
  piece.kind = .apostrophe || piece.kind = .quote

def dropQuote : List Piece → List Piece
  | [] => []
  | first :: rest => if first.isQuote then rest else first :: rest

-- What is left of a right hand side without the blanks at its end and a quote on either side.
def unquoted (units : List Piece) : List Piece :=
  (dropQuote (dropQuote (units.rdropWhile (·.kind = .blank))).reverse).reverse

-- Nothing or one quote, and nothing only where no quote stands next to it.
inductive Quoted (next : Option Piece) : List Piece → Prop
  | quote {piece : Piece} : piece.isQuote = true → Quoted next [piece]
  | nothing : (∀ piece, next = some piece → piece.kind = .bare) → Quoted next []

theorem dropQuote_front {front units : List Piece} (quoted : Quoted units.head? front) :
    dropQuote (front ++ units) = units := by
  cases quoted with
  | quote isQuote => exact if_pos isQuote
  | nothing bare =>
    cases units with
    | nil => rfl
    | cons first rest =>
      have apart : first.isQuote = false := by simp [Piece.isQuote, bare first rfl]
      simp [dropQuote, apart]

theorem rdropWhile_blanks {units blanks : List Piece} (blank : ∀ piece ∈ blanks, piece.kind = .blank)
    (last : ∀ piece, units.getLast? = some piece → piece.kind ≠ .blank) :
    (units ++ blanks).rdropWhile (·.kind = .blank) = units := by
  rw [List.rdropWhile, List.reverse_append, List.dropWhile_append_of_pos, ← List.rdropWhile,
    List.rdropWhile_eq_self_iff]
  · intro filled isBlank
    exact last _ (List.getLast?_eq_some_getLast filled) (of_decide_eq_true isBlank)
  · intro piece member
    exact decide_eq_true (blank piece (List.mem_reverse.mp member))

theorem Quoted.reverse {next : Option Piece} {back : List Piece} (quoted : Quoted next back) :
    back.reverse = back := by
  cases quoted <;> rfl

theorem unquoted_enclosed {front units back blanks : List Piece} (opened : Quoted units.head? front)
    (closed : Quoted units.getLast? back) (both : units = [] → (front = [] ↔ back = []))
    (blank : ∀ piece ∈ blanks, piece.kind = .blank) :
    unquoted (front ++ (units ++ back) ++ blanks) = units := by
  have last : ∀ piece, (front ++ (units ++ back)).getLast? = some piece → piece.kind ≠ .blank := by
    intro piece ending isBlank
    cases closed with
    | quote isQuote =>
      rw [← List.append_assoc, List.getLast?_concat] at ending
      cases ending
      simp [Piece.isQuote, isBlank] at isQuote
    | nothing bare =>
      by_cases empty : units = []
      · rw [empty, (both empty).mpr rfl] at ending
        cases ending
      · rw [List.append_nil, List.getLast?_append_of_ne_nil _ empty] at ending
        rw [bare piece ending] at isBlank
        cases isBlank
  have starts : Quoted (units ++ back).head? front := by
    by_cases empty : units = []
    · cases opened with
      | quote isQuote => exact .quote isQuote
      | nothing _ =>
        rw [empty, (both empty).mp rfl]
        exact .nothing fun piece absent => by cases absent
    · rwa [List.head?_append_of_ne_nil _ empty]
  have ends : Quoted units.reverse.head? back := by rwa [List.head?_reverse]
  rw [unquoted, rdropWhile_blanks blank last, dropQuote_front starts, List.reverse_append, closed.reverse,
    dropQuote_front ends, List.reverse_reverse]

end Quotes

section Values

variable {util : Util} {text : List Char} {view : View Char}

theorem spelled_blanks {blanks : List Char} (blank : ∀ c ∈ blanks, isBlank c = true) :
    ∃ units, spell units = blanks ∧ ∀ piece ∈ units, piece.kind = .blank := by
  induction blanks with
  | nil => exact ⟨[], rfl, List.forall_mem_nil _⟩
  | cons c rest ih =>
    obtain ⟨here, later⟩ := List.forall_mem_cons.mp blank
    obtain ⟨units, rfl, all⟩ := ih later
    have unescaped : c ≠ '\\' := by
      rintro rfl
      cases here
    exact ⟨.plain c unescaped :: units, rfl, List.forall_mem_cons.mpr ⟨kind_blank.mpr here, all⟩⟩

theorem spelled_quote (matched : text ∈ qchar.language) : ∃ piece, piece.isQuote = true ∧ spell [piece] = text := by
  obtain ⟨c, isQuote, rfl⟩ := RegExp.mem_one.mp matched
  simp only [Bool.or_eq_true, beq_iff_eq] at isQuote
  rcases isQuote with rfl | rfl
  · exact ⟨.plain '"' (by decide), by decide, rfl⟩
  · exact ⟨.plain '\'' (by decide), by decide, rfl⟩

theorem spelled_optional {next : Option Piece} (matched : text ∈ (RegExp.optional qchar).language)
    (bare : ∀ piece, next = some piece → piece.kind = .bare) : ∃ front, Quoted next front ∧ spell front = text := by
  rcases RegExp.mem_optional.mp matched with rfl | once
  · exact ⟨[], .nothing bare, rfl⟩
  · obtain ⟨piece, isQuote, rfl⟩ := spelled_quote once
    exact ⟨[piece], .quote isQuote, rfl⟩

-- What every parse of a value's text gives, also with blanks behind the text.
def Reads (text : List Char) (view : View Char) : Prop :=
  ∀ blanks : List Char, (∀ c ∈ blanks, isBlank c = true) →
    ∃ units, pieces (text ++ blanks) = some units ∧ view = ⟨none, some (spell (unquoted units)), []⟩

theorem reads_enclosed {front units back : List Piece} (opened : Quoted units.head? front)
    (closed : Quoted units.getLast? back) (both : units = [] → (front = [] ↔ back = [])) :
    Reads (spell front ++ (spell units ++ spell back)) ⟨none, some (spell units), []⟩ := by
  intro blanks blank
  obtain ⟨behind, rfl, all⟩ := spelled_blanks blank
  refine ⟨front ++ (units ++ back) ++ behind, ?_, ?_⟩
  · rw [← spell_append, ← spell_append, ← spell_append, pieces_spell]
  · rw [unquoted_enclosed opened closed both all]

theorem reads_quoted {opening closing : Piece} (isOpening : opening.isQuote = true)
    (isClosing : closing.isQuote = true) (units : List Piece) :
    Reads (spell [opening] ++ (spell units ++ spell [closing])) ⟨none, some (spell units), []⟩ :=
  reads_enclosed (.quote isOpening) (.quote isClosing)
    fun _ => iff_of_false (List.cons_ne_nil _ _) (List.cons_ne_nil _ _)

theorem reads_nothing (parsed : view ∈ nothing.gets text) : Reads text view := by
  obtain ⟨front, _, _, _, rfl, dropped, set, rfl⟩ := Lens.mem_gets_seq.mp parsed
  obtain ⟨matched, rfl⟩ := Lens.mem_gets_del.mp dropped
  obtain ⟨rfl, rfl⟩ := Lens.mem_gets_value.mp set
  rw [List.append_nil]
  rcases RegExp.mem_optional.mp matched with rfl | twice
  · have noQuote : Quoted none [] := .nothing fun piece absent => by cases absent
    exact @reads_enclosed [] [] [] noQuote noQuote fun _ => Iff.rfl
  · rcases RegExp.mem_alt.mp twice with double | single
    · rw [RegExp.mem_text.mp double]
      have isQuote : (Piece.plain '"' (by decide)).isQuote = true := by decide
      exact reads_quoted isQuote isQuote []
    · rw [RegExp.mem_text.mp single]
      have isQuote : (Piece.plain '\'' (by decide)).isQuote = true := by decide
      exact reads_quoted isQuote isQuote []

theorem reads_bare (parsed : view ∈ bare.gets text) : Reads text view := by
  obtain ⟨before, written, after, rfl, first, matched, last, rfl⟩ := Lens.mem_gets_enclosed.mp parsed
  have stored : written ∈ bare.stored.language := .inl (.inr matched)
  obtain ⟨units, ⟨filled, all⟩, rfl⟩ := (stored_bare written).mp stored
  obtain ⟨front, opened, rfl⟩ := spelled_optional first fun piece starts =>
    all piece (List.mem_of_head? starts)
  obtain ⟨back, closed, rfl⟩ := spelled_optional last fun piece ends => all piece (List.mem_of_getLast? ends)
  exact reads_enclosed opened closed fun empty => absurd empty filled

theorem reads_dquot (parsed : view ∈ dquot.gets text) : Reads text view := by
  obtain ⟨before, written, after, rfl, first, matched, last, rfl⟩ := Lens.mem_gets_enclosed.mp parsed
  have stored : written ∈ dquot.stored.language := .inl (.inr matched)
  obtain ⟨units, _, rfl⟩ := (stored_dquot written).mp stored
  obtain ⟨opening, isOpening, rfl⟩ := spelled_quote first
  obtain ⟨closing, isClosing, rfl⟩ := spelled_quote last
  exact reads_quoted isOpening isClosing units

theorem reads_squot (parsed : view ∈ (squot util).gets text) : Reads text view := by
  rw [squot, util.delStr_eq] at parsed
  obtain ⟨before, written, after, rfl, first, matched, last, rfl⟩ := Lens.mem_gets_enclosed.mp parsed
  have stored : written ∈ (squot util).stored.language := by
    rw [squot, util.delStr_eq]
    exact .inl (.inr matched)
  obtain ⟨units, _, rfl⟩ := (stored_squot written).mp stored
  rw [RegExp.mem_text.mp first, RegExp.mem_text.mp last]
  have isQuote : (Piece.plain '\'' (by decide)).isQuote = true := by decide
  exact reads_quoted isQuote isQuote units

theorem reads_value {lens : Lens Char} (member : lens ∈ values util) (parsed : view ∈ lens.gets text) :
    Reads text view := by
  simp only [values, List.mem_cons, List.not_mem_nil, or_false] at member
  rcases member with rfl | rfl | rfl | rfl
  · exact reads_nothing parsed
  · exact reads_bare parsed
  · exact reads_dquot parsed
  · exact reads_squot parsed

end Values

section Lines

variable {util : Util} {lens : Lens Char} {text : List Char} {view other : View Char}

theorem gets_assign : view ∈ (assign util).gets text ↔ ∃ lens ∈ values util, view ∈ (kv util lens).gets text := by
  simp [assign, values, Lens.mem_gets_union, or_assoc]

theorem key_letters {key : List Char} (legal : key ∈ keyRe.language) :
    ∀ c ∈ key, c ≠ '=' ∧ isBlank c = false := by
  refine RegExp.Within.letters ?_ legal
  have isWord : ∀ c, isKeyChar c = true → c ≠ '=' ∧ isBlank c = false := by
    intro c inside
    refine ⟨?_, Bool.eq_false_iff.mpr fun blank => ?_⟩
    · rintro rfl
      cases inside
    · rcases (by simpa [isBlank] using blank : c = ' ' ∨ c = '\t') with rfl | rfl <;> cases inside
  have isDigit : ∀ c : Char, c.isDigit = true → c ≠ '=' ∧ isBlank c = false := by
    intro c digit
    exact isWord c (by simp [isKeyChar, Char.isAlphanum, digit])
  have brackets : isBlank '[' = false ∧ isBlank ']' = false := by decide
  simpa [keyRe, RegExp.Within, RegExp.plus, RegExp.optional, RegExp.text] using
    And.intro isWord ⟨⟨brackets.1, isDigit⟩, brackets.2⟩

theorem gets_exportKey {front : List Char} (parsed : view ∈ (Lens.optional (exportKey util)).gets front) :
    (front = [] ∧ view = .blank) ∨
      ((∃ before c, before ++ [c] = front ∧ isBlank c = true) ∧ '=' ∉ front ∧
        view = ⟨none, none, [⟨some "export".toList, none, []⟩]⟩) := by
  obtain ⟨pattern, spaces, _, blank⟩ := util.delWsSpc_eq
  rw [exportKey, spaces] at parsed
  rcases Lens.mem_gets_optional.mp parsed with absent | present
  · exact .inl absent
  · right
    obtain ⟨_, below, rfl⟩ := Lens.mem_gets_subtree.mp present
    obtain ⟨word, gap, _, _, rfl, keyed, dropped, rfl⟩ := Lens.mem_gets_seq.mp below
    obtain ⟨isWord, rfl⟩ := Lens.mem_gets_key.mp keyed
    obtain ⟨matched, rfl⟩ := Lens.mem_gets_del.mp dropped
    obtain ⟨filled, all⟩ := blank gap matched
    rw [RegExp.mem_text.mp isWord]
    refine ⟨⟨"export".toList ++ gap.dropLast, gap.getLast filled, ?_, all _ (List.getLast_mem filled)⟩, ?_, rfl⟩
    · rw [List.append_assoc, List.dropLast_append_getLast]
    · intro sign
      rcases List.mem_append.mp sign with inWord | inGap
      · revert inWord
        decide
      · have isBlank := all '=' inGap
        cases isBlank

theorem gets_kv (parsed : view ∈ (kv util lens).gets text) : ∃ front key written blanks exported stored,
    front ++ key ++ '=' :: (written ++ blanks ++ ['\n']) = text ∧
      exported ∈ (Lens.optional (exportKey util)).gets front ∧ key ∈ keyRe.language ∧ stored ∈ lens.gets written ∧
      (∀ c ∈ blanks, isBlank c = true) ∧
      view = ⟨none, none, [(exported.join ⟨some key, none, []⟩).join stored]⟩ := by
  obtain ⟨pattern, eol, _, ends⟩ := util.eol_eq
  rw [kv, eq, util.delStr_eq, eol] at parsed
  obtain ⟨_, below, rfl⟩ := Lens.mem_gets_subtree.mp parsed
  obtain ⟨_, behind, _, _, rfl, line, last, rfl⟩ := Lens.mem_gets_seq.mp below
  obtain ⟨_, written, _, stored, rfl, head, inside, rfl⟩ := Lens.mem_gets_seq.mp line
  obtain ⟨_, sign, _, _, rfl, named, mark, rfl⟩ := Lens.mem_gets_seq.mp head
  obtain ⟨front, key, exported, _, rfl, isExported, keyed, rfl⟩ := Lens.mem_gets_seq.mp named
  obtain ⟨matched, rfl⟩ := Lens.mem_gets_del.mp last
  obtain ⟨isSign, rfl⟩ := Lens.mem_gets_del.mp mark
  obtain ⟨legal, rfl⟩ := Lens.mem_gets_key.mp keyed
  obtain ⟨blanks, blank, rfl⟩ := ends behind matched
  refine ⟨front, key, written, blanks, exported, stored, ?_, isExported, legal, inside, blank, ?_⟩
  · rw [RegExp.mem_text.mp isSign]
    simp
  · rw [View.join_blank, View.join_blank]

-- Where a text ends in a blank or is empty, what follows up to the blank-free rest is the same.
theorem front_eq {front key front' key' : List Char} (same : front ++ key = front' ++ key')
    (ends : front' = [] ∨ ∃ before c, before ++ [c] = front' ∧ isBlank c = true)
    (clear : ∀ c ∈ key, isBlank c = false) (shorter : front.length ≤ front'.length) : front = front' := by
  obtain ⟨between, rfl⟩ := List.prefix_of_prefix_length_le ⟨key, rfl⟩ ⟨key', same.symm⟩ shorter
  rw [List.append_assoc, List.append_cancel_left_eq] at same
  rcases List.eq_nil_or_concat between with rfl | ⟨inner, last, rfl⟩
  · rw [List.append_nil]
  · rcases ends with empty | ⟨before, c, whole, blank⟩
    · simp at empty
    · rw [List.concat_eq_append, ← List.append_assoc] at whole
      obtain ⟨_, same'⟩ := List.append_inj' whole rfl
      rw [(List.cons.inj same').1] at blank
      have apart := clear last (by simp [same])
      rw [blank] at apart
      cases apart

theorem exported_eq {front : List Char} {exported exported' : View Char}
    (first : exported ∈ (Lens.optional (exportKey util)).gets front)
    (second : exported' ∈ (Lens.optional (exportKey util)).gets front) : exported = exported' := by
  rcases gets_exportKey first with ⟨empty, rfl⟩ | ⟨⟨before, c, ends, _⟩, _, rfl⟩
  · rcases gets_exportKey second with ⟨_, rfl⟩ | ⟨⟨before, c, ends, _⟩, _, rfl⟩
    · rfl
    · rw [empty] at ends
      simp at ends
  · rcases gets_exportKey second with ⟨empty, rfl⟩ | ⟨_, _, rfl⟩
    · rw [empty] at ends
      simp at ends
    · rfl

theorem front_ends {front : List Char} (parsed : view ∈ (Lens.optional (exportKey util)).gets front) :
    (front = [] ∨ ∃ before c, before ++ [c] = front ∧ isBlank c = true) ∧ '=' ∉ front := by
  rcases gets_exportKey parsed with ⟨rfl, _⟩ | ⟨ends, absent, _⟩
  · exact ⟨.inl rfl, List.not_mem_nil⟩
  · exact ⟨.inr ends, absent⟩

theorem no_sign {front key : List Char} (parsed : view ∈ (Lens.optional (exportKey util)).gets front)
    (legal : key ∈ keyRe.language) : '=' ∉ front ++ key := by
  intro sign
  rcases List.mem_append.mp sign with inFront | inKey
  · exact (front_ends parsed).2 inFront
  · exact (key_letters legal _ inKey).1 rfl

-- A line has one parse at most, however its quotes and blanks are shared out.
theorem assign_unambiguous (first : view ∈ (assign util).gets text) (second : other ∈ (assign util).gets text) :
    view = other := by
  obtain ⟨lens, member, inLens⟩ := gets_assign.mp first
  obtain ⟨lens', member', inLens'⟩ := gets_assign.mp second
  obtain ⟨front, key, written, blanks, exported, stored, rfl, inFront, legal, inside, blank, rfl⟩ := gets_kv inLens
  obtain ⟨front', key', written', blanks', exported', stored', same, inFront', legal', inside', blank', rfl⟩ :=
    gets_kv inLens'
  obtain ⟨heads, values⟩ := Shared.Lists.append_cons_inj_of_first (no_sign inFront' legal') (no_sign inFront legal) same
  have fronts : front = front' := by
    rcases Nat.le_total front.length front'.length with shorter | shorter
    · exact front_eq heads.symm (front_ends inFront').1 (fun c inKey => (key_letters legal c inKey).2) shorter
    · exact (front_eq heads (front_ends inFront).1 (fun c inKey => (key_letters legal' c inKey).2) shorter).symm
  subst fronts
  rw [exported_eq inFront inFront', List.append_cancel_left heads]
  obtain ⟨units, read, rfl⟩ := reads_value member inside blanks blank
  obtain ⟨units', read', rfl⟩ := reads_value member' inside' blanks' blank'
  rw [List.append_cancel_right values, read] at read'
  rw [Option.some.inj read']

end Lines

section Created

variable {util : Util} {lens : Lens Char} {text : List Char} {view : View Char}

theorem assign_settled (util : Util) : (assign util).Settled := by
  obtain ⟨eolPattern, eol, eolWritten, _⟩ := util.eol_eq
  obtain ⟨gapPattern, gap, gapWritten, _⟩ := util.delWsSpc_eq
  have key : (Lens.optional (exportKey util)).Settled := by
    rw [exportKey, gap]
    exact ⟨trivial, gapWritten⟩
  have line : ∀ value : Lens Char, value.Settled → (kv util value).Settled := by
    intro value settled
    rw [kv, eq, util.delStr_eq, eol]
    exact ⟨⟨⟨⟨key, trivial⟩, RegExp.mem_text.mpr rfl⟩, settled⟩, eolWritten⟩
  have noQuote : [] ∈ (RegExp.optional qchar).language := RegExp.mem_optional.mpr (.inl rfl)
  have double : ['"'] ∈ qchar.language := RegExp.mem_one.mpr ⟨'"', rfl, rfl⟩
  have single : (squot util).Settled := by
    rw [squot, util.delStr_eq]
    exact ⟨⟨RegExp.mem_text.mpr rfl, trivial⟩, RegExp.mem_text.mpr rfl⟩
  exact ⟨⟨⟨line nothing ⟨RegExp.mem_optional.mpr (.inl rfl), trivial⟩, line bare ⟨⟨noQuote, trivial⟩, noQuote⟩⟩,
    line dquot ⟨⟨double, trivial⟩, double⟩⟩, line (squot util) single⟩

theorem creates_assign :
    text ∈ (assign util).creates view ↔ ∃ lens ∈ values util, text ∈ (kv util lens).creates view := by
  simp [assign, values, Lens.mem_creates_union, or_assoc]

theorem creates_value (member : lens ∈ values util) : ∃ opening closing, ∀ value text,
    text ∈ lens.creates ⟨none, some value, []⟩ ↔
      value ∈ lens.stored.language ∧ opening ++ value ++ closing = text := by
  simp only [values, List.mem_cons, List.not_mem_nil, or_false] at member
  rcases member with rfl | rfl | rfl | rfl
  · refine ⟨[], [], fun value text => ?_⟩
    simp only [nothing, Lens.creates_del_seq, Lens.mem_creates_value, Lens.stored, RegExp.mem_alt,
      RegExp.mem_none, RegExp.mem_text, false_or, List.nil_append, List.append_nil, View.mk.injEq,
      Option.some.injEq, true_and, and_true]
    constructor
    · rintro ⟨_, ⟨rfl, rfl⟩, rfl⟩
      exact ⟨rfl, rfl⟩
    · rintro ⟨rfl, rfl⟩
      exact ⟨[], ⟨rfl, rfl⟩, rfl⟩
  · refine ⟨[], [], fun value text => ?_⟩
    rw [bare, Lens.creates_enclosed]
    simp [Lens.stored, RegExp.mem_alt, RegExp.mem_none]
  · refine ⟨['"'], ['"'], fun value text => ?_⟩
    rw [dquot, Lens.creates_enclosed]
    simp [Lens.stored, RegExp.mem_alt, RegExp.mem_none]
  · refine ⟨['\''], ['\''], fun value text => ?_⟩
    rw [squot, util.delStr_eq, Lens.creates_enclosed]
    simp [Lens.stored, RegExp.mem_alt, RegExp.mem_none]

-- No export stands in front of a variable that has nothing below it.
theorem creates_named (plain : view.children = []) :
    text ∈ (Lens.seq (.optional (exportKey util)) (.key keyRe)).creates view ↔
      view = ⟨some text, none, []⟩ ∧ text ∈ keyRe.language := by
  rw [Lens.mem_creates_seq]
  constructor
  · rintro ⟨left, right, front, back, divided, inFront, inBack, rfl⟩
    obtain ⟨rfl, legal⟩ := Lens.mem_creates_key.mp inBack
    rcases Lens.mem_creates_optional.mp inFront with ⟨rfl, rfl⟩ | inExport
    · rw [← View.join_of_halves divided]
      exact ⟨View.blank_join _, legal⟩
    · obtain ⟨below, rfl, _⟩ := Lens.mem_creates_subtree.mp inExport
      have listed := (View.mem_halves.mp divided).2.2
      rw [plain] at listed
      cases listed
  · rintro ⟨rfl, legal⟩
    exact ⟨.blank, _, [], text, View.blank_halves _, Lens.mem_creates_optional.mpr (.inl ⟨rfl, rfl⟩),
      Lens.mem_creates_key.mpr ⟨rfl, legal⟩, rfl⟩

theorem creates_kv {key value : List Char} : text ∈ (kv util lens).creates (setting key value) ↔
    key ∈ keyRe.language ∧ ∃ written ∈ lens.creates ⟨none, some value, []⟩,
      key ++ '=' :: (written ++ ['\n']) = text := by
  obtain ⟨pattern, eol, _, _⟩ := util.eol_eq
  rw [kv, eq, util.delStr_eq, eol, Lens.mem_creates_subtree]
  constructor
  · rintro ⟨_, same, made⟩
    cases same
    obtain ⟨_, line, rfl⟩ := Lens.creates_seq_del.mp made
    obtain ⟨left, right, _, written, divided, head, inLens, rfl⟩ := Lens.mem_creates_seq.mp line
    obtain ⟨named, isNamed, rfl⟩ := Lens.creates_seq_del.mp head
    obtain ⟨keys, values, children⟩ := View.mem_halves.mp divided
    obtain ⟨plain, nothingElse⟩ := List.append_eq_nil_iff.mp children
    obtain ⟨rfl, legal⟩ := (creates_named plain).mp isNamed
    obtain ⟨rfl, unnamed⟩ : named = key ∧ right.key = none := by simpa [sides] using keys
    have stored : right.value = some value := or_of_sides values
    have whole : right = ⟨none, some value, []⟩ := by
      cases right
      rw [View.mk.injEq]
      exact ⟨unnamed, stored, nothingElse⟩
    exact ⟨legal, written, whole ▸ inLens, by simp⟩
  · rintro ⟨legal, written, inLens, rfl⟩
    refine ⟨_, rfl, Lens.creates_seq_del.mpr ⟨key ++ ['='] ++ written, ?_, by simp⟩⟩
    refine Lens.mem_creates_seq.mpr ⟨⟨some key, none, []⟩, ⟨none, some value, []⟩, key ++ ['='], written, ?_,
      Lens.creates_seq_del.mpr ⟨key, (creates_named rfl).mpr ⟨rfl, legal⟩, rfl⟩, inLens, rfl⟩
    exact View.mem_halves.mpr ⟨all_left _, all_right _, rfl⟩

theorem storing_lens (util : Util) {value : List Char} (newlineFree : '\n' ∉ value) (isStorable : storable value = true) :
    ∃ lens ∈ values util, value ∈ lens.stored.language ∧
      ∀ other ∈ values util, value ∈ other.stored.language → other = lens := by
  have once := stored_by_one util newlineFree
  rw [isStorable, if_pos rfl, List.countP_eq_length_filter, List.length_eq_one_iff] at once
  obtain ⟨lens, only⟩ := once
  have stores : ∀ other, other = lens ↔ other ∈ values util ∧ value ∈ other.stored.language := by
    intro other
    rw [← List.mem_singleton, ← only, List.mem_filter, RegExp.accepts_iff]
  obtain ⟨member, stored⟩ := (stores lens).mp rfl
  exact ⟨lens, member, stored, fun other isOther inOther => (stores other).mpr ⟨isOther, inOther⟩⟩

theorem created_once {key value : List Char} (legal : key ∈ keyRe.language) (newlineFree : '\n' ∉ value)
    (isStorable : storable value = true) :
    ∃ line, ∀ text, text ∈ (assign util).creates (setting key value) ↔ text = line := by
  obtain ⟨lens, member, stored, only⟩ := storing_lens util newlineFree isStorable
  obtain ⟨opening, closing, creates⟩ := creates_value member
  refine ⟨key ++ '=' :: (opening ++ value ++ closing ++ ['\n']), fun text => ?_⟩
  rw [creates_assign]
  constructor
  · rintro ⟨other, isOther, made⟩
    obtain ⟨_, written, inOther, rfl⟩ := creates_kv.mp made
    rw [only other isOther (Lens.stored_of_creates other inOther rfl)] at inOther
    rw [((creates value written).mp inOther).2]
  · rintro rfl
    exact ⟨lens, member, creates_kv.mpr ⟨legal, _, (creates value _).mpr ⟨stored, rfl⟩, rfl⟩⟩

theorem blanks_of_star {text : List Char} (matched : text ∈ (RegExp.star (.one isBlank)).language) :
    ∀ c ∈ text, isBlank c = true := by
  have closed : (RegExp.star (.one isBlank)).Within (isBlank · = true) := fun _ inside => inside
  exact closed.letters matched

-- Any blanks and then the end of the line; one space is written between words.
def blanksAndNewline : Util where
  delStr word := .del (.text word) word
  delWsSpc := .del (.plus (.one isBlank)) [' ']
  eol := .del (.seq (.star (.one isBlank)) (.text ['\n'])) ['\n']
  delStr_eq _ := rfl
  delWsSpc_eq := by
    refine ⟨_, rfl, (RegExp.accepts_iff _ _).mp (by decide), fun text matched => ?_⟩
    obtain ⟨_, ⟨c, isBlank, rfl⟩, rest, behind, rfl⟩ := RegExp.mem_seq.mp matched
    exact ⟨List.cons_ne_nil _ _, List.forall_mem_cons.mpr ⟨isBlank, blanks_of_star behind⟩⟩
  eol_eq := by
    refine ⟨_, rfl, (RegExp.accepts_iff _ _).mp (by decide), fun text matched => ?_⟩
    obtain ⟨blanks, before, _, last, rfl⟩ := RegExp.mem_seq.mp matched
    rw [RegExp.mem_text.mp last]
    exact ⟨blanks, blanks_of_star before, rfl⟩

theorem value_codec (util : Util) :
    (∀ value, '\n' ∉ value →
      (values util).countP (·.stored.accepts value) = if storable value then 1 else 0) ∧
      ∀ key value, keyRe.accepts key = true → '\n' ∉ value → storable value = true →
        ∃ line, (∀ text, text ∈ (assign util).creates (setting key value) ↔ text = line) ∧
          ∀ view, view ∈ (assign util).gets line ↔ view = setting key value := by
  refine ⟨fun value => stored_by_one util, fun key value legal newlineFree isStorable => ?_⟩
  obtain ⟨line, created⟩ := created_once ((RegExp.accepts_iff _ _).mp legal) newlineFree isStorable
  have read := Lens.gets_of_creates (assign util) (assign_settled util) ((created line).mpr rfl)
  refine ⟨line, created, fun view => ⟨fun parsed => assign_unambiguous parsed read, ?_⟩⟩
  rintro rfl
  exact read

theorem value_codec_spaced :
    (values blanksAndNewline).countP (·.stored.accepts "v w".toList) = 1 ∧
      ∃ line, (∀ text, text ∈ (assign blanksAndNewline).creates (setting "DEVICE".toList "v w".toList) ↔
        text = line) ∧
        ∀ view, view ∈ (assign blanksAndNewline).gets line ↔ view = setting "DEVICE".toList "v w".toList :=
  ⟨(value_codec blanksAndNewline).1 "v w".toList (by decide),
    (value_codec blanksAndNewline).2 "DEVICE".toList "v w".toList (by decide +kernel) (by decide) (by decide)⟩

end Created

end Netcf.Lenses
