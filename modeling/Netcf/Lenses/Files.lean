import Netcf.Shared.Repeating
import Netcf.Lenses.Sysconfig

set_option autoImplicit false

-- The lens lns of sysconfig.aug: a whole file, line by line.
namespace Netcf.Lenses

open Shared.Regex Shared.Bidirectional Shared.Repeating

section Definitions

def isShown (c : Char) : Bool :=
  !(isBlank c || c == '\n')

-- The text of a remark: it begins and ends with something that is shown.
structure Framed (text : List Char) : Prop where
  line : '\n' ∉ text
  first : ∃ c rest, text = c :: rest ∧ isShown c = true
  last : ∃ front c, text = front ++ [c] ∧ isShown c = true

def Blank (text : List Char) : Prop :=
  ∀ c ∈ text, isBlank c = true

-- The module Util with its lenses for the lines that set nothing; COMMENT stands behind its label.
structure Remarks extends Util where
  comment : Lens Char
  empty : Lens Char
  comment_eq : ∃ lead body, comment = .seq (.seq (.del lead "# ".toList) (.store body)) eol ∧
    "# ".toList ∈ lead.language ∧
    (∀ text ∈ lead.language, ∃ before behind, Blank before ∧ Blank behind ∧ before ++ '#' :: behind = text) ∧
    ∀ text ∈ body.language, Framed text
  empty_eq : ∃ pattern, empty = .subtree (.del pattern ['\n']) ∧ ['\n'] ∈ pattern.language ∧
    ∀ text ∈ pattern.language, ∃ before behind, Blank before ∧ Blank behind ∧
      (before ++ '\n' :: [] = text ∨ before ++ '#' :: (behind ++ ['\n']) = text)

variable (util : Remarks)

def comment : Item Char :=
  .labelled "#comment".toList util.comment

def empty : Item Char :=
  .plain util.empty

def source : Item Char :=
  .labelled ".source".toList
    (.seq (.seq (.seq (.del (.alt (.text ['.']) (.text "source".toList)) ['.']) util.delWsSpc)
      (.store (.plus (.one fun c => !(c == '=' || isBlank c || c == '\n'))))) util.eol)

-- Build.xchgs drops the name and labels the tree.
def varAction (name : String) : Item Char :=
  .labelled ('@' :: name.toList)
    (.seq (.seq (.seq (.del (.text name.toList) name.toList) util.delWsSpc) (.store keyRe)) util.eol)

def unset : Item Char :=
  varAction util "unset"

def bareExport : Item Char :=
  varAction util "export"

def lns : List (Item Char) :=
  [comment util, empty util, source util, .plain (assign util.toUtil), unset util, bareExport util]

end Definitions

section Sorts

inductive LineSort
  | comment | empty | source | assign | unset | bareExport
  deriving DecidableEq

-- What a line is, by its first letter that is no blank and by whether it has a sign.
def sortOf (text : List Char) : LineSort :=
  match text.dropWhile isBlank with
  | [] => .empty
  | first :: rest =>
      if first = '#' then if rest.any isShown then .comment else .empty
      else if first = '\n' then .empty
      else if '=' ∈ text then .assign
      else if first = 'u' then .unset
      else if first = 'e' then .bareExport
      else .source

-- The word behind the first one.
def secondWord (text : List Char) : List Char :=
  ((text.dropWhile isShown).dropWhile isBlank).takeWhile isShown

-- What stands behind the first #, without the blanks around it.
def remark (text : List Char) : List Char :=
  (((text.dropWhile isBlank).drop 1).dropWhile isBlank).rdropWhile fun c => !isShown c

variable {before behind text : List Char}

theorem Blank.hidden (blank : Blank before) : ∀ c ∈ before, isShown c = false := by
  intro c inside
  simp [isShown, blank c inside]

theorem Blank.line (blank : Blank before) : '\n' ∉ before := by
  intro inside
  cases blank _ inside

theorem blank_of_shown {c : Char} (shown : isShown c = true) : isBlank c = false := by
  simp only [isShown, Bool.not_eq_true', Bool.or_eq_false_iff] at shown
  exact shown.1

theorem dropWhile_blank (blank : Blank before) {c : Char} (next : isBlank c = false) (rest : List Char) :
    (before ++ c :: rest).dropWhile isBlank = c :: rest := by
  rw [List.dropWhile_append_of_pos blank, List.dropWhile_cons_of_neg (by simp [next])]

theorem sortOf_empty (blank : Blank before) (blank' : Blank behind) :
    sortOf (before ++ '\n' :: []) = .empty ∧ sortOf (before ++ '#' :: (behind ++ ['\n'])) = .empty := by
  have silent : (behind ++ ['\n']).any isShown = false := by
    rw [List.any_append, List.any_eq_false.mpr fun c inside => by simp [blank'.hidden c inside]]
    decide
  constructor
  · rw [sortOf, dropWhile_blank blank (by decide)]
    rfl
  · rw [sortOf, dropWhile_blank blank (by decide)]
    simp only [if_true, silent, Bool.false_eq_true, if_false]

theorem sortOf_comment (blank : Blank before) {rest : List Char} (shown : ∃ c ∈ rest, isShown c = true) :
    sortOf (before ++ '#' :: rest) = .comment := by
  rw [sortOf, dropWhile_blank blank (by decide)]
  simp only [if_true, List.any_eq_true.mpr shown]

theorem sortOf_word {first : Char} {rest : List Char} (shown : isShown first = true) (noMark : first ≠ '#') :
    sortOf (first :: rest) =
      if '=' ∈ first :: rest then .assign
      else if first = 'u' then .unset else if first = 'e' then .bareExport else .source := by
  have noEnd : first ≠ '\n' := by
    rintro rfl
    cases shown
  rw [sortOf, List.dropWhile_cons_of_neg (by simp [blank_of_shown shown])]
  simp only [noMark, noEnd, if_false]

theorem secondWord_eq {word gap stored blanks : List Char} (shown : ∀ c ∈ word, isShown c = true)
    (gapped : gap ≠ []) (blank : Blank gap) (filled : stored ≠ []) (kept : ∀ c ∈ stored, isShown c = true)
    (trailing : Blank blanks) : secondWord (word ++ (gap ++ (stored ++ (blanks ++ ['\n'])))) = stored := by
  obtain ⟨first, others, rfl⟩ := List.exists_cons_of_ne_nil gapped
  obtain ⟨c, rest, rfl⟩ := List.exists_cons_of_ne_nil filled
  have skipped : (word ++ ((first :: others) ++ ((c :: rest) ++ (blanks ++ ['\n'])))).dropWhile isShown =
      (first :: others) ++ ((c :: rest) ++ (blanks ++ ['\n'])) := by
    rw [List.dropWhile_append_of_pos shown]
    exact List.dropWhile_cons_of_neg (by simp [blank.hidden first List.mem_cons_self])
  have stops : (blanks ++ ['\n']).takeWhile isShown = [] := by
    cases blanks with
    | nil => rfl
    | cons d later => exact List.takeWhile_cons_of_neg (by simp [trailing.hidden d List.mem_cons_self])
  have found : ((first :: others) ++ ((c :: rest) ++ (blanks ++ ['\n']))).dropWhile isBlank =
      (c :: rest) ++ (blanks ++ ['\n']) :=
    dropWhile_blank blank (blank_of_shown (kept c List.mem_cons_self)) _
  rw [secondWord, skipped, found, List.takeWhile_append_of_pos kept, stops, List.append_nil]

theorem remark_eq {body blanks : List Char} (blank : Blank before) (blank' : Blank behind) (framed : Framed body)
    (trailing : Blank blanks) : remark (before ++ '#' :: (behind ++ (body ++ (blanks ++ ['\n'])))) = body := by
  obtain ⟨c, rest, rfl, shown⟩ := framed.first
  rw [remark, dropWhile_blank blank (by decide), List.drop_one, List.tail_cons, List.cons_append,
    dropWhile_blank blank' (blank_of_shown shown), ← List.cons_append, List.rdropWhile, List.reverse_append,
    List.dropWhile_append_of_pos, ← List.rdropWhile, List.rdropWhile_eq_self_iff]
  · intro filled hidden
    obtain ⟨front, d, whole, last⟩ := framed.last
    simp only [whole, List.getLast_append, List.getLast_singleton] at hidden
    simp [last] at hidden
  · intro d inside
    rcases List.mem_append.mp (List.mem_reverse.mp inside) with inBlanks | ending
    · simp [trailing.hidden d inBlanks]
    · rw [List.mem_singleton.mp ending]
      decide

end Sorts

section Lines

variable {util : Remarks} {text : List Char} {child : View Char}

theorem line_of_parts {front blanks : List Char} (line : '\n' ∉ front) (blank : Blank blanks) :
    Line '\n' (front ++ (blanks ++ ['\n'])) := by
  refine ⟨front ++ blanks, ?_, by rw [List.append_assoc]⟩
  rw [List.mem_append, not_or]
  exact ⟨line, blank.line⟩

theorem gets_comment (read : child ∈ (comment util).gets text) :
    Line '\n' text ∧ sortOf text = .comment ∧ child = ⟨some "#comment".toList, some (remark text), []⟩ := by
  obtain ⟨lead, body, same, _, leads, bodies⟩ := util.comment_eq
  obtain ⟨pattern, eol, _, ends⟩ := util.eol_eq
  obtain ⟨_, inside, rfl⟩ := Item.mem_gets_labelled.mp read
  rw [same, eol] at inside
  obtain ⟨_, last, _, _, rfl, shown, ended, rfl⟩ := Lens.mem_gets_seq.mp inside
  obtain ⟨mark, stored, _, _, rfl, led, kept, rfl⟩ := Lens.mem_gets_seq.mp shown
  obtain ⟨isLead, rfl⟩ := Lens.mem_gets_del.mp led
  obtain ⟨isBody, rfl⟩ := Lens.mem_gets_store.mp kept
  obtain ⟨isEnd, rfl⟩ := Lens.mem_gets_del.mp ended
  obtain ⟨before, behind, blank, blank', rfl⟩ := leads mark isLead
  obtain ⟨blanks, trailing, rfl⟩ := ends last isEnd
  have framed := bodies stored isBody
  have whole : before ++ '#' :: behind ++ stored ++ (blanks ++ ['\n']) =
      before ++ '#' :: (behind ++ (stored ++ (blanks ++ ['\n']))) := by simp
  refine ⟨line_of_parts ?_ trailing, ?_, ?_⟩
  · simp [blank.line, blank'.line, framed.line]
  · obtain ⟨c, rest, rfl, appears⟩ := framed.first
    rw [whole]
    exact sortOf_comment blank ⟨c, by simp, appears⟩
  · rw [whole, remark_eq blank blank' framed trailing]
    rfl

theorem gets_empty (read : child ∈ (empty util).gets text) :
    Line '\n' text ∧ sortOf text = .empty ∧ child = ⟨none, none, []⟩ := by
  obtain ⟨pattern, same, _, lines⟩ := util.empty_eq
  have inside := Item.mem_gets_plain.mp read
  rw [same] at inside
  obtain ⟨below, dropped, single⟩ := Lens.mem_gets_subtree.mp inside
  cases single
  obtain ⟨matched, rfl⟩ := Lens.mem_gets_del.mp dropped
  obtain ⟨before, behind, blank, blank', bare | marked⟩ := lines text matched
  · refine ⟨⟨before, blank.line, bare⟩, ?_, rfl⟩
    rw [← bare]
    exact (sortOf_empty blank blank').1
  · refine ⟨⟨before ++ '#' :: behind, by simp [blank.line, blank'.line], by simpa using marked⟩, ?_, rfl⟩
    rw [← marked]
    exact (sortOf_empty blank blank').2

-- Two words on a line, of which the second one is stored.
structure Pair (first : List Char → Prop) (text : List Char) : Prop where
  line : Line '\n' text
  parts : ∃ word rest, first word ∧ (∃ gap later, gap ≠ [] ∧ Blank gap ∧ rest = gap ++ later) ∧ word ++ rest = text
  unsigned : '=' ∉ text

theorem gets_pair {first stored : RegExp Char} {written : List Char} {view : View Char}
    (words : ∀ word ∈ first.language, ∀ c ∈ word, c ≠ '=' ∧ isShown c = true)
    (kept : ∀ word ∈ stored.language, word ≠ [] ∧ ∀ c ∈ word, c ≠ '=' ∧ isShown c = true)
    (read : view ∈ (Lens.seq (.seq (.seq (.del first written) util.delWsSpc) (.store stored)) util.eol).gets text) :
    Pair (· ∈ first.language) text ∧ view = ⟨none, some (secondWord text), []⟩ := by
  obtain ⟨pattern, eol, _, ends⟩ := util.eol_eq
  obtain ⟨spaces, spc, _, gaps⟩ := util.delWsSpc_eq
  rw [spc, eol] at read
  obtain ⟨_, last, _, _, rfl, inside, ended, rfl⟩ := Lens.mem_gets_seq.mp read
  obtain ⟨_, named, _, _, rfl, headed, keeps, rfl⟩ := Lens.mem_gets_seq.mp inside
  obtain ⟨word, gap, _, _, rfl, led, spaced, rfl⟩ := Lens.mem_gets_seq.mp headed
  obtain ⟨isWord, rfl⟩ := Lens.mem_gets_del.mp led
  obtain ⟨isGap, rfl⟩ := Lens.mem_gets_del.mp spaced
  obtain ⟨isStored, rfl⟩ := Lens.mem_gets_store.mp keeps
  obtain ⟨isEnd, rfl⟩ := Lens.mem_gets_del.mp ended
  obtain ⟨blanks, trailing, rfl⟩ := ends last isEnd
  obtain ⟨gapped, all⟩ := gaps gap isGap
  have blank : Blank gap := all
  obtain ⟨filled, appears⟩ := kept named isStored
  have shown := words word isWord
  have whole : word ++ gap ++ named ++ (blanks ++ ['\n']) = word ++ (gap ++ (named ++ (blanks ++ ['\n']))) := by simp
  have visible : ∀ c : Char, isShown c = true → c ≠ '\n' := by
    rintro c appears rfl
    cases appears
  have unsigned : ∀ list : List Char, Blank list → '=' ∉ list := fun list blank inside => by cases blank _ inside
  refine ⟨⟨line_of_parts ?_ trailing, ⟨word, _, isWord, ⟨gap, _, gapped, blank, rfl⟩, whole.symm⟩, ?_⟩, ?_⟩
  · simp only [List.mem_append, not_or]
    exact ⟨⟨fun inWord => visible _ (shown _ inWord).2 rfl, blank.line⟩, fun inNamed => visible _ (appears _ inNamed).2 rfl⟩
  · simp only [List.mem_append, List.mem_singleton, not_or]
    exact ⟨⟨⟨fun inWord => (shown _ inWord).1 rfl, unsigned gap blank⟩, fun inNamed => (appears _ inNamed).1 rfl⟩,
      unsigned blanks trailing, by decide⟩
  · rw [whole, secondWord_eq (fun c inside => (shown c inside).2) gapped blank filled
      (fun c inside => (appears c inside).2) trailing]
    rfl

theorem key_shown {key : List Char} (legal : key ∈ keyRe.language) :
    key ≠ [] ∧ ∀ c ∈ key, c ≠ '=' ∧ c ≠ '#' ∧ isShown c = true := by
  constructor
  · rintro rfl
    have absent : keyRe.accepts [] = false := by decide
    rw [(RegExp.accepts_iff _ _).mpr legal] at absent
    cases absent
  · have isWord : ∀ c, isKeyChar c = true → c ≠ '=' ∧ c ≠ '#' ∧ isShown c = true := by
      intro c inside
      refine ⟨?_, ?_, ?_⟩
      · rintro rfl
        cases inside
      · rintro rfl
        cases inside
      · by_contra hidden
        have white : c = ' ' ∨ c = '\t' ∨ c = '\n' := by
          rw [← or_assoc]
          simpa [isShown, isBlank, imp_iff_not_or] using hidden
        rcases white with rfl | rfl | rfl <;> cases inside
    have isDigit : ∀ c : Char, c.isDigit = true → c ≠ '=' ∧ c ≠ '#' ∧ isShown c = true := by
      intro c digit
      exact isWord c (by simp [isKeyChar, Char.isAlphanum, digit])
    have brackets : isShown '[' = true ∧ isShown ']' = true := by decide
    refine RegExp.Within.letters ?_ legal
    simpa [keyRe, RegExp.Within, RegExp.plus, RegExp.optional, RegExp.text] using
      And.intro isWord ⟨⟨brackets.1, isDigit⟩, brackets.2⟩

theorem gets_source (read : child ∈ (source util).gets text) :
    Line '\n' text ∧ sortOf text = .source ∧ child = ⟨some ".source".toList, some (secondWord text), []⟩ := by
  obtain ⟨view, inside, rfl⟩ := Item.mem_gets_labelled.mp read
  have words : ∀ word ∈ (RegExp.alt (.text ['.']) (.text "source".toList)).language,
      ∀ c ∈ word, c ≠ '=' ∧ isShown c = true := by
    intro word isWord
    rcases RegExp.mem_alt.mp isWord with dot | spelled
    · rw [RegExp.mem_text.mp dot]
      simp [isShown, isBlank]
    · rw [RegExp.mem_text.mp spelled]
      simp [isShown, isBlank]
  have kept : ∀ word ∈ (RegExp.plus (.one fun c => !(c == '=' || isBlank c || c == '\n'))).language,
      word ≠ [] ∧ ∀ c ∈ word, c ≠ '=' ∧ isShown c = true := by
    intro word isWord
    constructor
    · obtain ⟨_, ⟨c, _, rfl⟩, later, _, rfl⟩ := RegExp.mem_seq.mp isWord
      exact List.cons_ne_nil _ _
    · refine RegExp.Within.letters ?_ isWord
      simp [RegExp.plus, RegExp.Within, isShown, and_assoc]
  obtain ⟨pair, rfl⟩ := gets_pair words kept inside
  refine ⟨pair.line, ?_, rfl⟩
  obtain ⟨word, rest, isWord, _, rfl⟩ := pair.parts
  have unsigned := pair.unsigned
  rcases RegExp.mem_alt.mp isWord with dot | spelled
  · rw [RegExp.mem_text.mp dot] at unsigned ⊢
    exact (sortOf_word (by decide) (by decide)).trans (if_neg unsigned)
  · rw [RegExp.mem_text.mp spelled] at unsigned ⊢
    exact (sortOf_word (by decide) (by decide)).trans (if_neg unsigned)

theorem gets_varAction {name : String} (shown : ∀ c ∈ name.toList, c ≠ '=' ∧ isShown c = true)
    (read : child ∈ (varAction util name).gets text) :
    Pair (· = name.toList) text ∧ child = ⟨some ('@' :: name.toList), some (secondWord text), []⟩ := by
  obtain ⟨view, inside, rfl⟩ := Item.mem_gets_labelled.mp read
  have words : ∀ word ∈ (RegExp.text name.toList).language, ∀ c ∈ word, c ≠ '=' ∧ isShown c = true := by
    intro word isWord
    rwa [RegExp.mem_text.mp isWord]
  have kept : ∀ key ∈ keyRe.language, key ≠ [] ∧ ∀ c ∈ key, c ≠ '=' ∧ isShown c = true := by
    intro key legal
    obtain ⟨filled, letters⟩ := key_shown legal
    exact ⟨filled, fun c inside => ⟨(letters c inside).1, (letters c inside).2.2⟩⟩
  obtain ⟨pair, rfl⟩ := gets_pair words kept inside
  refine ⟨⟨pair.line, ?_, pair.unsigned⟩, rfl⟩
  obtain ⟨word, rest, isWord, gapped, whole⟩ := pair.parts
  exact ⟨word, rest, RegExp.mem_text.mp isWord, gapped, whole⟩

theorem gets_unset (read : child ∈ (unset util).gets text) :
    Line '\n' text ∧ sortOf text = .unset ∧ child = ⟨some "@unset".toList, some (secondWord text), []⟩ := by
  obtain ⟨pair, rfl⟩ := gets_varAction (by simp [isShown, isBlank]) read
  obtain ⟨_, rest, rfl, _, rfl⟩ := pair.parts
  exact ⟨pair.line, (sortOf_word (by decide) (by decide)).trans (if_neg pair.unsigned), rfl⟩

theorem gets_bareExport (read : child ∈ (bareExport util).gets text) :
    Line '\n' text ∧ sortOf text = .bareExport ∧ child = ⟨some "@export".toList, some (secondWord text), []⟩ := by
  obtain ⟨pair, rfl⟩ := gets_varAction (by simp [isShown, isBlank]) read
  obtain ⟨_, rest, rfl, _, rfl⟩ := pair.parts
  exact ⟨pair.line, (sortOf_word (by decide) (by decide)).trans (if_neg pair.unsigned), rfl⟩

theorem blank_line : ∀ c, isBlank c = true → c ≠ '\n' := by
  rintro c blank rfl
  cases blank

theorem bchar_line : bchar.Within (· ≠ '\n') := by
  refine ⟨fun c inside => ?_, by simp [RegExp.Within, RegExp.text]⟩
  rintro rfl
  cases inside

theorem value_line {lens : Lens Char} {written : List Char} {view : View Char} (member : lens ∈ values util.toUtil)
    (read : view ∈ lens.gets written) : '\n' ∉ written := by
  have quote : qchar.Within (· ≠ '\n') := by simp [RegExp.Within, qchar]
  have spaced : ∀ letters : Char → Bool, (∀ c, letters c = true → c ≠ '\n') →
      (RegExp.block bchar (.one letters)).plus.Within (· ≠ '\n') := fun letters line =>
    have once : (RegExp.block bchar (.one letters)).Within (· ≠ '\n') := ⟨bchar_line, line, bchar_line⟩
    ⟨once, once⟩
  have blanks : (RegExp.alt bchar (.one isBlank)).Within (· ≠ '\n') := ⟨bchar_line, blank_line⟩
  have closed : lens.Letters (· ≠ '\n') := by
    simp only [values, List.mem_cons, List.not_mem_nil, or_false] at member
    rcases member with rfl | rfl | rfl | rfl
    · refine ⟨fun word => RegExp.Within.letters ?_, trivial⟩
      simp [RegExp.Within, RegExp.optional, RegExp.text]
    · have once : qchar.optional.Within (· ≠ '\n') := ⟨trivial, quote⟩
      exact ⟨⟨fun word => RegExp.Within.letters once, fun word => RegExp.Within.letters ⟨bchar_line, bchar_line⟩⟩,
        fun word => RegExp.Within.letters once⟩
    · have special : ∀ c : Char, (isBlank c || c == '\'') = true → c ≠ '\n' := by
        rintro c inside rfl
        cases inside
      exact ⟨⟨fun word => RegExp.Within.letters quote, fun word => RegExp.Within.letters (spaced _ special)⟩,
        fun word => RegExp.Within.letters quote⟩
    · rw [squot, util.delStr_eq]
      have mark : (RegExp.text ['\'']).Within (· ≠ '\n') := by simp [RegExp.Within, RegExp.text]
      have double : (RegExp.text ['"']).Within (· ≠ '\n') := by simp [RegExp.Within, RegExp.text]
      have once : (RegExp.block (.alt bchar (.one isBlank)) (.text ['"'])).Within (· ≠ '\n') := ⟨blanks, double, blanks⟩
      exact ⟨⟨fun word => RegExp.Within.letters mark, fun word => RegExp.Within.letters ⟨once, once⟩⟩,
        fun word => RegExp.Within.letters mark⟩
  intro inside
  exact Lens.letters_of_gets lens closed read _ inside rfl

theorem export_front {front : List Char} {view : View Char}
    (read : view ∈ (Lens.optional (exportKey util.toUtil)).gets front) :
    front = [] ∨ ∃ gap, Blank gap ∧ front = "export".toList ++ gap := by
  obtain ⟨pattern, spaces, _, blank⟩ := util.delWsSpc_eq
  rw [exportKey, spaces] at read
  rcases Lens.mem_gets_optional.mp read with ⟨rfl, _⟩ | present
  · exact .inl rfl
  · obtain ⟨_, below, _⟩ := Lens.mem_gets_subtree.mp present
    obtain ⟨word, gap, _, _, rfl, keyed, dropped, _⟩ := Lens.mem_gets_seq.mp below
    obtain ⟨isWord, _⟩ := Lens.mem_gets_key.mp keyed
    exact .inr ⟨gap, (blank gap (Lens.mem_gets_del.mp dropped).1).2, by rw [RegExp.mem_text.mp isWord]⟩

theorem gets_assignment (read : child ∈ (Item.plain (assign util.toUtil)).gets text) :
    Line '\n' text ∧ sortOf text = .assign := by
  obtain ⟨lens, member, inLens⟩ := gets_assign.mp (Item.mem_gets_plain.mp read)
  obtain ⟨front, key, written, blanks, exported, stored, rfl, inFront, legal, inside, blank, _⟩ := gets_kv inLens
  obtain ⟨filled, letters⟩ := key_shown legal
  obtain ⟨c, later, rfl⟩ := List.exists_cons_of_ne_nil filled
  have keyLine : '\n' ∉ c :: later := by
    intro ending
    have appears := (letters _ ending).2.2
    cases appears
  have line : '\n' ∉ front ∧ ∀ rest, '=' ∈ rest → sortOf (front ++ c :: later ++ rest) = .assign := by
    rcases export_front inFront with rfl | ⟨gap, between, rfl⟩
    · obtain ⟨_, noMark, appears⟩ := letters c List.mem_cons_self
      exact ⟨List.not_mem_nil, fun rest signed =>
        (sortOf_word appears noMark).trans (if_pos (List.mem_append_right (c :: later) signed))⟩
    · refine ⟨?_, fun rest signed => (sortOf_word (by decide) (by decide)).trans (if_pos ?_)⟩
      · rw [List.mem_append, not_or]
        exact ⟨by decide, between.line⟩
      · exact List.mem_append_right ("export".toList ++ gap ++ c :: later) signed
  refine ⟨⟨front ++ c :: later ++ '=' :: (written ++ blanks), ?_, by simp⟩, line.2 _ (by simp)⟩
  have silent : Blank blanks := blank
  simp only [List.mem_append, List.mem_cons, not_or] at keyLine ⊢
  exact ⟨⟨line.1, keyLine⟩, by decide, value_line member inside, silent.line⟩

end Lines

section Whole

variable {util : Remarks} {text : List Char} {child : View Char}

-- What a line of each sort is read as.
def ReadAs (util : Remarks) (text : List Char) (child : View Char) : LineSort → Prop
  | .comment => child = ⟨some "#comment".toList, some (remark text), []⟩
  | .empty => child = ⟨none, none, []⟩
  | .source => child = ⟨some ".source".toList, some (secondWord text), []⟩
  | .assign => ⟨none, none, [child]⟩ ∈ (assign util.toUtil).gets text
  | .unset => child = ⟨some "@unset".toList, some (secondWord text), []⟩
  | .bareExport => child = ⟨some "@export".toList, some (secondWord text), []⟩

theorem readAs_lns (read : child ∈ getsItem (lns util) text) :
    Line '\n' text ∧ ReadAs util text child (sortOf text) := by
  obtain ⟨item, listed, inside⟩ := mem_getsItem.mp read
  simp only [lns, List.mem_cons, List.not_mem_nil, or_false] at listed
  rcases listed with rfl | rfl | rfl | rfl | rfl | rfl
  · obtain ⟨line, sort, same⟩ := gets_comment inside
    exact ⟨line, by rw [sort]; exact same⟩
  · obtain ⟨line, sort, same⟩ := gets_empty inside
    exact ⟨line, by rw [sort]; exact same⟩
  · obtain ⟨line, sort, same⟩ := gets_source inside
    exact ⟨line, by rw [sort]; exact same⟩
  · obtain ⟨line, sort⟩ := gets_assignment inside
    exact ⟨line, by rw [sort]; exact Item.mem_gets_plain.mp inside⟩
  · obtain ⟨line, sort, same⟩ := gets_unset inside
    exact ⟨line, by rw [sort]; exact same⟩
  · obtain ⟨line, sort, same⟩ := gets_bareExport inside
    exact ⟨line, by rw [sort]; exact same⟩

theorem readAs_single {other : View Char} {sort : LineSort} (first : ReadAs util text child sort)
    (second : ReadAs util text other sort) : child = other := by
  cases sort with
  | assign =>
    have same := assign_unambiguous first second
    cases same
    rfl
  | comment | empty | source | unset | bareExport => exact Eq.trans first (Eq.symm second)

theorem lns_lined (util : Remarks) : Lined '\n' (lns util) where
  line _ _ read := (readAs_lns read).1
  single _ _ _ first second := readAs_single (readAs_lns first).2 (readAs_lns second).2

theorem varAction_settled (util : Remarks) (name : String) : (varAction util name).Settled := by
  obtain ⟨eolPattern, eol, eolWritten, _⟩ := util.eol_eq
  obtain ⟨gapPattern, gap, gapWritten, _⟩ := util.delWsSpc_eq
  rw [varAction, gap, eol]
  exact ⟨⟨⟨RegExp.mem_text.mpr rfl, gapWritten⟩, trivial⟩, eolWritten⟩

theorem lns_settled (util : Remarks) : ∀ item ∈ lns util, item.Settled := by
  obtain ⟨eolPattern, eol, eolWritten, _⟩ := util.eol_eq
  obtain ⟨gapPattern, gap, gapWritten, _⟩ := util.delWsSpc_eq
  obtain ⟨lead, body, same, leads, _⟩ := util.comment_eq
  obtain ⟨pattern, blank, written, _⟩ := util.empty_eq
  intro item listed
  simp only [lns, List.mem_cons, List.not_mem_nil, or_false] at listed
  rcases listed with rfl | rfl | rfl | rfl | rfl | rfl
  · rw [comment, same, eol]
    exact ⟨⟨leads, trivial⟩, eolWritten⟩
  · rw [empty, blank]
    exact written
  · rw [source, gap, eol]
    exact ⟨⟨⟨RegExp.mem_alt.mpr (.inl (RegExp.mem_text.mpr rfl)), gapWritten⟩, trivial⟩, eolWritten⟩
  · exact assign_settled util.toUtil
  · exact varAction_settled util "unset"
  · exact varAction_settled util "export"

section Examples

def blanks : RegExp Char :=
  .star (.one isBlank)

def hashes : Remarks where
  toUtil := blanksAndNewline
  comment := .seq (.seq (.del (.seq (.seq blanks (.text ['#'])) blanks) "# ".toList)
    (.store (.seq (.one isShown) (.optional (.seq (.star (.one (· != '\n'))) (.one isShown)))))) blanksAndNewline.eol
  empty := .subtree (.del (.seq (.seq (.seq blanks (.optional (.text ['#']))) blanks) (.text ['\n'])) ['\n'])
  comment_eq := by
    refine ⟨_, _, rfl, (RegExp.accepts_iff _ _).mp (by decide), fun text led => ?_, fun text body => ?_⟩
    · obtain ⟨_, opened, behind, blank', rfl⟩ := RegExp.mem_seq.mp led
      obtain ⟨before, blank, _, mark, rfl⟩ := RegExp.mem_seq.mp opened
      rw [RegExp.mem_text.mp mark]
      exact ⟨before, behind, blanks_of_star blank, blanks_of_star blank', by simp⟩
    · obtain ⟨_, one, later, rest, rfl⟩ := RegExp.mem_seq.mp body
      obtain ⟨c, shown, rfl⟩ := RegExp.mem_one.mp one
      have visible : ∀ d, isShown d = true → d ≠ '\n' := by
        rintro d appears rfl
        cases appears
      rcases RegExp.mem_optional.mp rest with rfl | longer
      · exact ⟨by simpa using (visible c shown).symm, ⟨c, [], rfl, shown⟩, ⟨[], c, rfl, shown⟩⟩
      · obtain ⟨middle, inside, _, last, rfl⟩ := RegExp.mem_seq.mp longer
        obtain ⟨d, shown', rfl⟩ := RegExp.mem_one.mp last
        have closed : (RegExp.star (.one fun c : Char => c != '\n')).Within (· ≠ '\n') := by simp [RegExp.Within]
        have line : '\n' ∉ middle := fun ending => closed.letters inside _ ending rfl
        refine ⟨?_, ⟨c, middle ++ [d], rfl, shown⟩, ⟨c :: middle, d, rfl, shown'⟩⟩
        simp [line, (visible c shown).symm, (visible d shown').symm]
  empty_eq := by
    refine ⟨_, rfl, (RegExp.accepts_iff _ _).mp (by decide), fun text hidden => ?_⟩
    obtain ⟨_, inside, _, ending, rfl⟩ := RegExp.mem_seq.mp hidden
    obtain ⟨_, opened, behind, blank', rfl⟩ := RegExp.mem_seq.mp inside
    obtain ⟨before, blank, mark, marked, rfl⟩ := RegExp.mem_seq.mp opened
    rw [RegExp.mem_text.mp ending]
    rcases RegExp.mem_optional.mp marked with rfl | once
    · refine ⟨before ++ behind, [], ?_, List.forall_mem_nil _, .inl (by simp)⟩
      exact List.forall_mem_append.mpr ⟨blanks_of_star blank, blanks_of_star blank'⟩
    · rw [RegExp.mem_text.mp once]
      exact ⟨before, behind, blanks_of_star blank, blanks_of_star blank', .inr (by simp)⟩

end Examples

end Whole

section Settings

variable {util : Remarks} {text : List Char}

def entry (node : List Char × List Char) : View Char :=
  ⟨some node.1, some node.2, []⟩

structure Fits (node : List Char × List Char) : Prop where
  legal : keyRe.accepts node.1 = true
  line : '\n' ∉ node.2
  stored : storable node.2 = true

instance (node : List Char × List Char) : Decidable (Fits node) :=
  decidable_of_iff (keyRe.accepts node.1 = true ∧ '\n' ∉ node.2 ∧ storable node.2 = true)
    ⟨fun fits => ⟨fits.1, fits.2.1, fits.2.2⟩, fun fits => ⟨fits.legal, fits.line, fits.stored⟩⟩

theorem label_taken : ∀ label ∈ ["#comment".toList, ".source".toList, "@unset".toList, "@export".toList],
    keyRe.accepts label = false := by
  decide +kernel

theorem creates_entry {node : List Char × List Char} (legal : keyRe.accepts node.1 = true) :
    text ∈ createsItem (lns util) (entry node) ↔ text ∈ (assign util.toUtil).creates (setting node.1 node.2) := by
  have apart : ∀ (label : List Char) (lens : Lens Char),
      label ∈ ["#comment".toList, ".source".toList, "@unset".toList, "@export".toList] →
      text ∉ (Item.labelled label lens).creates (entry node) := by
    intro label lens taken made
    obtain ⟨named, _⟩ := Item.mem_creates_labelled.mp made
    have refused := label_taken label taken
    rw [← Option.some.inj named, legal] at refused
    cases refused
  have silent : text ∉ (empty util).creates (entry node) := by
    intro made
    obtain ⟨pattern, same, _⟩ := util.empty_eq
    change text ∈ util.empty.creates ⟨none, none, [entry node]⟩ at made
    rw [same] at made
    obtain ⟨below, single, dropped⟩ := Lens.mem_creates_subtree.mp made
    cases single
    have blank := (Lens.mem_creates_del.mp dropped).1
    cases blank
  constructor
  · intro made
    obtain ⟨item, listed, inside⟩ := List.mem_flatMap.mp made
    simp only [lns, List.mem_cons, List.not_mem_nil, or_false] at listed
    rcases listed with rfl | rfl | rfl | rfl | rfl | rfl
    · exact absurd inside (apart _ _ (by simp))
    · exact absurd inside silent
    · exact absurd inside (apart _ _ (by simp))
    · exact inside
    · exact absurd inside (apart _ _ (by decide))
    · exact absurd inside (apart _ _ (by decide))
  · intro made
    exact List.mem_flatMap.mpr ⟨.plain (assign util.toUtil), by simp [lns], made⟩

theorem created_file {nodes : List (List Char × List Char)} (fits : ∀ node ∈ nodes, Fits node) :
    ∃ text, ∀ other, other ∈ creates (lns util) (nodes.map entry) ↔ other = text := by
  induction nodes with
  | nil => exact ⟨[], fun other => List.mem_singleton⟩
  | cons node rest ih =>
    obtain ⟨fit, others⟩ := List.forall_mem_cons.mp fits
    obtain ⟨line, first⟩ :=
      @created_once util.toUtil _ _ ((RegExp.accepts_iff _ _).mp fit.legal) fit.line fit.stored
    obtain ⟨text, later⟩ := ih others
    refine ⟨line ++ text, fun other => ?_⟩
    rw [List.map_cons]
    change other ∈ (createsItem (lns util) (entry node)).flatMap (fun front =>
      (creates (lns util) (rest.map entry)).map (front ++ ·)) ↔ _
    simp only [List.mem_flatMap, List.mem_map, creates_entry fit.legal, first, later, exists_eq_left]
    exact eq_comm

-- A file has one tree at most.  The text that is written for a tree is read as that tree, a line that is
-- put in the place of another changes the one child that the other stood for, and a file of variables
-- is written in one way.
theorem lns_codec (util : Remarks) :
    (∀ text one other, one ∈ gets (lns util) text → other ∈ gets (lns util) text → one = other) ∧
      (∀ children text, text ∈ creates (lns util) children →
        ∀ other, other ∈ gets (lns util) text ↔ other = children) ∧
      (∀ front line back before child other line' child', before ∈ gets (lns util) front →
        child ∈ getsItem (lns util) line → other ∈ gets (lns util) (front ++ (line ++ back)) →
        child' ∈ getsItem (lns util) line' →
        ∃ after, other = before ++ child :: after ∧
          ∀ found, found ∈ gets (lns util) (front ++ (line' ++ back)) ↔ found = before ++ child' :: after) ∧
      ∀ nodes : List (List Char × List Char), (∀ node ∈ nodes, Fits node) →
        ∃ text, ∀ other, other ∈ creates (lns util) (nodes.map entry) ↔ other = text := by
  have lined := lns_lined util
  refine ⟨?_, ?_, ?_, fun nodes fits => created_file fits⟩
  · intro text one other first second
    exact parse_unique lined (mem_gets.mp first) (mem_gets.mp second)
  · intro children text made
    exact gets_of_creates lined (lns_settled util) made
  · intro front line back before child other line' child' first old whole new
    exact gets_replaced lined first old whole new

theorem lns_codec_hashes :
    (∀ one, one ∈ gets (lns hashes) "A=b\n".toList → one = [⟨some "A".toList, some "b".toList, []⟩]) ∧
      (∀ other, other ∈ gets (lns hashes) "A=b\n".toList ↔ other = [⟨some "A".toList, some "b".toList, []⟩]) ∧
      (∃ after : List (View Char), [⟨some "A".toList, some "b".toList, []⟩] =
          ([] : List (View Char)) ++ ⟨some "A".toList, some "b".toList, []⟩ :: after ∧
        ∀ found, found ∈ gets (lns hashes) ([] ++ ("# c\n".toList ++ [])) ↔
          found = [] ++ ⟨some "#comment".toList, some "c".toList, []⟩ :: after) ∧
      ∃ text, ∀ other, other ∈ creates (lns hashes) ([("A".toList, "b".toList)].map entry) ↔ other = text := by
  have settled := lns_settled hashes
  have old : ⟨some "A".toList, some "b".toList, []⟩ ∈ getsItem (lns hashes) "A=b\n".toList :=
    createsItem_read settled (by decide +kernel)
  have new : ⟨some "#comment".toList, some "c".toList, []⟩ ∈ getsItem (lns hashes) "# c\n".toList :=
    createsItem_read settled (by decide +kernel)
  have whole := mem_gets.mpr (Parse.single old (List.cons_ne_nil _ _))
  exact ⟨fun one read => (lns_codec hashes).1 _ one _ read whole,
    (lns_codec hashes).2.1 _ "A=b\n".toList (by decide +kernel),
    (lns_codec hashes).2.2.1 [] _ [] [] _ _ _ _ (mem_gets.mpr .nil) old whole new,
    (lns_codec hashes).2.2.2 [("A".toList, "b".toList)] (by decide +kernel)⟩

end Settings

end Netcf.Lenses
