import Netcf.Shared.Bidirectional

set_option autoImplicit false

-- How the lens for sysconfig files quotes a value, and which values it can store.
namespace Netcf.Lenses

open Shared.Regex Shared.Bidirectional

section Definitions

def isBlank (c : Char) : Bool :=
  c == ' ' || c == '\t'

structure Util where
  delStr : List Char → Lens Char
  delWsSpc : Lens Char
  eol : Lens Char
  delStr_eq : ∀ word, delStr word = .del (.text word) word
  delWsSpc_eq : ∃ pattern, delWsSpc = .del pattern [' '] ∧ [' '] ∈ pattern.language ∧
    ∀ text ∈ pattern.language, text ≠ [] ∧ ∀ c ∈ text, isBlank c = true
  eol_eq : ∃ pattern, eol = .del pattern ['\n'] ∧ ['\n'] ∈ pattern.language ∧
    ∀ text ∈ pattern.language, ∃ blanks, (∀ c ∈ blanks, isBlank c = true) ∧ blanks ++ ['\n'] = text

def nothing : Lens Char :=
  .seq (.del (.optional (.alt (.text ['"', '"']) (.text ['\'', '\'']))) []) (.value [])

def bchar : RegExp Char :=
  .alt (.one fun c => !(isBlank c || c == '\n' || c == '"' || c == '\'' || c == '\\'))
    (.seq (.text ['\\']) (.one (· != '\n')))

def qchar : RegExp Char :=
  .one fun c => c == '"' || c == '\''

def bare : Lens Char :=
  .seq (.seq (.del (.optional qchar) []) (.store (.plus bchar))) (.del (.optional qchar) [])

def dquot : Lens Char :=
  .seq (.seq (.del qchar ['"'])
    (.store (.plus (.seq (.star bchar) (.seq (.one fun c => isBlank c || c == '\'') (.star bchar))))))
    (.del qchar ['"'])

def squot (util : Util) : Lens Char :=
  .seq (.seq (util.delStr ['\''])
    (.store (.plus (.seq (.star (.alt bchar (.one isBlank)))
      (.seq (.text ['"']) (.star (.alt bchar (.one isBlank))))))))
    (util.delStr ['\''])

def values (util : Util) : List (Lens Char) :=
  [nothing, bare, dquot, squot util]

end Definitions

section Pieces

-- A character of a value, or a backslash and the character that it escapes.
inductive Piece where
  | plain (c : Char) (unescaped : c ≠ '\\')
  | escaped (c : Char)
  deriving DecidableEq

inductive Kind where
  | bare
  | blank
  | apostrophe
  | quote
  | newline
  deriving DecidableEq

def Piece.kind : Piece → Kind
  | .plain c _ =>
      if isBlank c then .blank
      else if c = '\'' then .apostrophe
      else if c = '"' then .quote
      else if c = '\n' then .newline
      else .bare
  | .escaped c => if c = '\n' then .newline else .bare

def Piece.chars : Piece → List Char
  | .plain c _ => [c]
  | .escaped c => ['\\', c]

def spell (pieces : List Piece) : List Char :=
  pieces.flatMap Piece.chars

-- No pieces where a backslash at the end has nothing to escape.
def pieces : List Char → Option (List Piece)
  | [] => some []
  | c :: rest =>
      if unescaped : c ≠ '\\' then (pieces rest).map (.plain c unescaped :: ·)
      else
        match rest with
        | [] => none
        | next :: behind => (pieces behind).map (.escaped next :: ·)

def Has (kind : Kind) (units : List Piece) : Prop :=
  ∃ piece ∈ units, piece.kind = kind

instance (kind : Kind) (units : List Piece) : Decidable (Has kind units) :=
  inferInstanceAs (Decidable (∃ piece ∈ units, piece.kind = kind))

-- Nothing dangles, and not both an apostrophe and a double quote stand unescaped.
def storable (text : List Char) : Bool :=
  match pieces text with
  | none => false
  | some units => !(decide (Has .apostrophe units) && decide (Has .quote units))

@[simp] theorem spell_nil : spell [] = [] := rfl

theorem spell_append (front back : List Piece) : spell (front ++ back) = spell front ++ spell back :=
  List.flatMap_append

theorem pieces_plain {c : Char} (unescaped : c ≠ '\\') (rest : List Char) :
    pieces (c :: rest) = (pieces rest).map (.plain c unescaped :: ·) := by
  rw [pieces.eq_def]
  exact dif_pos unescaped

theorem pieces_escaped (next : Char) (behind : List Char) :
    pieces ('\\' :: next :: behind) = (pieces behind).map (.escaped next :: ·) := by
  rw [pieces.eq_def]
  rfl

theorem pieces_spell (units : List Piece) : pieces (spell units) = some units := by
  induction units with
  | nil => rfl
  | cons piece rest ih =>
    cases piece with
    | plain c unescaped => exact (pieces_plain unescaped _).trans (congrArg (Option.map _) ih)
    | escaped c => exact (pieces_escaped c _).trans (congrArg (Option.map _) ih)

theorem spell_pieces {text : List Char} {units : List Piece} (read : pieces text = some units) :
    spell units = text := by
  induction text using pieces.induct generalizing units with
  | case1 =>
    cases read
    rfl
  | case2 c rest unescaped ih =>
    rw [pieces_plain unescaped] at read
    obtain ⟨behind, readRest, rfl⟩ := Option.map_eq_some_iff.mp read
    exact congrArg (c :: ·) (ih readRest)
  | case3 c backslash =>
    rw [pieces.eq_def] at read
    simp [backslash] at read
  | case4 c backslash next behind ih =>
    rw [not_ne_iff.mp backslash] at read ⊢
    rw [pieces_escaped] at read
    obtain ⟨rest, readBehind, rfl⟩ := Option.map_eq_some_iff.mp read
    exact congrArg ('\\' :: next :: ·) (ih readBehind)

theorem spell_injective (left right : List Piece) (same : spell left = spell right) : left = right := by
  have read := pieces_spell left
  rw [same, pieces_spell] at read
  exact (Option.some.inj read).symm

theorem chars_injective (left right : Piece) (same : left.chars = right.chars) : left = right := by
  have alone : spell [left] = spell [right] := by simpa [spell] using same
  exact (List.cons.inj (spell_injective _ _ alone)).1

end Pieces

section Kinds

theorem kind_blank {c : Char} {unescaped : c ≠ '\\'} :
    (Piece.plain c unescaped).kind = .blank ↔ isBlank c = true := by
  grind [Piece.kind]

theorem kind_apostrophe {c : Char} {unescaped : c ≠ '\\'} :
    (Piece.plain c unescaped).kind = .apostrophe ↔ c = '\'' := by
  grind [Piece.kind, isBlank]

theorem kind_quote {c : Char} {unescaped : c ≠ '\\'} : (Piece.plain c unescaped).kind = .quote ↔ c = '"' := by
  grind [Piece.kind, isBlank]

theorem kind_newline {c : Char} {unescaped : c ≠ '\\'} :
    (Piece.plain c unescaped).kind = .newline ↔ c = '\n' := by
  grind [Piece.kind, isBlank]

theorem kind_escaped (c : Char) : (Piece.escaped c).kind = .newline ∨ (Piece.escaped c).kind = .bare := by
  grind [Piece.kind]

theorem codes_bchar : RegExp.Codes Piece.chars (·.kind = .bare) bchar := by
  intro word
  rw [bchar, RegExp.mem_alt]
  constructor
  · rintro (⟨c, outside, rfl⟩ | matched)
    · have unescaped : c ≠ '\\' := by
        rintro rfl
        simp at outside
      exact ⟨.plain c unescaped, by grind [Piece.kind], rfl⟩
    · obtain ⟨_, first, _, ⟨c, visible, rfl⟩, rfl⟩ := RegExp.mem_seq.mp matched
      rw [RegExp.mem_text.mp first]
      exact ⟨.escaped c, by grind [Piece.kind], rfl⟩
  · rintro ⟨piece, isBare, rfl⟩
    cases piece with
    | plain c unescaped => exact .inl ⟨c, by grind [Piece.kind], rfl⟩
    | escaped c =>
      exact .inr (RegExp.mem_seq.mpr ⟨_, RegExp.mem_text.mpr rfl, [c], ⟨c, by grind [Piece.kind], rfl⟩, rfl⟩)

-- A class of letters without the backslash reads pieces that are not escaped.
theorem codes_one {letters : Char → Bool} {property : Piece → Prop}
    (plain : ∀ c unescaped, letters c = true ↔ property (.plain c unescaped)) (backslash : letters '\\' = false)
    (escaped : ∀ c, ¬ property (.escaped c)) : RegExp.Codes Piece.chars property (.one letters) := by
  intro word
  rw [RegExp.mem_one]
  constructor
  · rintro ⟨c, inside, rfl⟩
    have unescaped : c ≠ '\\' := by
      rintro rfl
      rw [backslash] at inside
      cases inside
    exact ⟨.plain c unescaped, (plain c unescaped).mp inside, rfl⟩
  · rintro ⟨piece, holds, rfl⟩
    cases piece with
    | plain c unescaped => exact ⟨c, (plain c unescaped).mpr holds, rfl⟩
    | escaped c => exact absurd holds (escaped c)

end Kinds

section Stored

variable {util : Util} {units : List Piece} {text : List Char}

theorem stored_nothing : RegExp.Codes spell (· = []) nothing.stored := by
  intro text
  simp [nothing, Lens.stored, RegExp.mem_alt, RegExp.mem_text, RegExp.mem_none]

theorem stored_bare :
    RegExp.Codes spell (fun units => units ≠ [] ∧ ∀ piece ∈ units, piece.kind = .bare) bare.stored := by
  intro text
  refine Iff.trans ?_ (RegExp.codes_plus codes_bchar text)
  simp [bare, Lens.stored, RegExp.mem_alt, RegExp.mem_none]

theorem stored_dquot : RegExp.Codes spell
    (fun units => (∀ piece ∈ units, piece.kind = .bare ∨ piece.kind = .blank ∨ piece.kind = .apostrophe) ∧
      ∃ piece ∈ units, piece.kind = .blank ∨ piece.kind = .apostrophe) dquot.stored := by
  have special : RegExp.Codes Piece.chars (fun piece => piece.kind = .blank ∨ piece.kind = .apostrophe)
      (.one fun c => isBlank c || c == '\'') :=
    codes_one (fun c unescaped => by simp [kind_blank, kind_apostrophe]) (by decide)
      (fun c => by rcases kind_escaped c with kind | kind <;> simp [kind])
  intro text
  refine Iff.trans ?_ (RegExp.codes_blocks codes_bchar special chars_injective text)
  simp [dquot, Lens.stored, RegExp.mem_alt, RegExp.mem_none, RegExp.block]

theorem stored_squot : RegExp.Codes spell
    (fun units => (∀ piece ∈ units, (piece.kind = .bare ∨ piece.kind = .blank) ∨ piece.kind = .quote) ∧
      Has .quote units) (squot util).stored := by
  have blank : RegExp.Codes Piece.chars (·.kind = .blank) (.one isBlank) :=
    codes_one (fun c unescaped => kind_blank.symm) (by decide)
      (fun c => by rcases kind_escaped c with kind | kind <;> simp [kind])
  have special : RegExp.Codes Piece.chars (·.kind = .quote) (.text ['"']) := by
    intro word
    rw [RegExp.mem_text]
    constructor
    · rintro rfl
      exact ⟨.plain '"' (by decide), by decide, rfl⟩
    · rintro ⟨piece, kind, rfl⟩
      cases piece with
      | plain c unescaped => rw [Piece.chars, kind_quote.mp kind]
      | escaped c => rcases kind_escaped c with other | other <;> simp [other] at kind
  intro text
  refine Iff.trans ?_ (RegExp.codes_blocks (RegExp.codes_alt codes_bchar blank) special chars_injective text)
  simp [squot, util.delStr_eq, Lens.stored, RegExp.mem_alt, RegExp.mem_none, RegExp.block]

-- The pieces are all of allowed kinds when there are none of the other kinds.
theorem kinds_of_lacks (allowed : Kind → Prop) (visible : ¬ Has .newline units) :
    (∀ piece ∈ units, allowed piece.kind) ↔
      (allowed .bare ∨ ¬ Has .bare units) ∧ (allowed .blank ∨ ¬ Has .blank units) ∧
        (allowed .apostrophe ∨ ¬ Has .apostrophe units) ∧ (allowed .quote ∨ ¬ Has .quote units) := by
  constructor
  · intro all
    have lacks : ∀ kind, allowed kind ∨ ¬ Has kind units := by
      intro kind
      by_cases present : Has kind units
      · obtain ⟨piece, member, rfl⟩ := present
        exact .inl (all piece member)
      · exact .inr present
    exact ⟨lacks _, lacks _, lacks _, lacks _⟩
  · rintro ⟨bare, blank, apostrophe, quote⟩ piece member
    have present : Has piece.kind units := ⟨piece, member, rfl⟩
    cases kind : piece.kind with
    | bare => exact bare.resolve_right (not_not_intro (kind ▸ present))
    | blank => exact blank.resolve_right (not_not_intro (kind ▸ present))
    | apostrophe => exact apostrophe.resolve_right (not_not_intro (kind ▸ present))
    | quote => exact quote.resolve_right (not_not_intro (kind ▸ present))
    | newline => exact absurd (kind ▸ present) visible

theorem stored_once (util : Util) (visible : ¬ Has .newline units) :
    (values util).countP (·.stored.accepts (spell units)) =
      if Has .apostrophe units ∧ Has .quote units then 0 else 1 := by
  have inNothing : units = [] ↔ ¬ Has .bare units ∧ ¬ Has .blank units ∧ ¬ Has .apostrophe units ∧
      ¬ Has .quote units := by
    rw [List.eq_nil_iff_forall_not_mem]
    simpa using kinds_of_lacks (fun _ => False) visible
  have inBare : (∀ piece ∈ units, piece.kind = .bare) ↔
      ¬ Has .blank units ∧ ¬ Has .apostrophe units ∧ ¬ Has .quote units := by
    simpa using kinds_of_lacks (· = .bare) visible
  have inDquot : (∀ piece ∈ units, piece.kind = .bare ∨ piece.kind = .blank ∨ piece.kind = .apostrophe) ↔
      ¬ Has .quote units := by
    simpa using kinds_of_lacks (fun kind => kind = .bare ∨ kind = .blank ∨ kind = .apostrophe) visible
  have inSquot : (∀ piece ∈ units, (piece.kind = .bare ∨ piece.kind = .blank) ∨ piece.kind = .quote) ↔
      ¬ Has .apostrophe units := by
    simpa using kinds_of_lacks (fun kind => (kind = .bare ∨ kind = .blank) ∨ kind = .quote) visible
  have special : (∃ piece ∈ units, piece.kind = .blank ∨ piece.kind = .apostrophe) ↔
      Has .blank units ∨ Has .apostrophe units := by
    simp only [Has, and_or_left, exists_or]
  simp only [values, List.countP_cons, List.countP_nil, RegExp.accepts_iff, stored_nothing.mem spell_injective,
    stored_bare.mem spell_injective, stored_dquot.mem spell_injective, stored_squot.mem spell_injective, ne_eq,
    inNothing, inBare, inDquot, inSquot, special]
  by_cases bare : Has .bare units <;> by_cases blank : Has .blank units <;>
    by_cases apostrophe : Has .apostrophe units <;> by_cases quote : Has .quote units <;>
    simp [bare, blank, apostrophe, quote]

theorem visible_of_pieces (read : pieces text = some units) (newlineFree : '\n' ∉ text) :
    ¬ Has .newline units := by
  rintro ⟨piece, member, kind⟩
  apply newlineFree
  rw [← spell_pieces read]
  refine List.mem_flatMap.mpr ⟨piece, member, ?_⟩
  cases piece with
  | plain c unescaped => simp [Piece.chars, kind_newline.mp kind]
  | escaped c =>
    have newline : c = '\n' := by
      by_contra visible
      simp [Piece.kind, visible] at kind
    simp [Piece.chars, newline]

theorem pieces_of_codes {p : RegExp Char} {property : List Piece → Prop} (codes : RegExp.Codes spell property p)
    (matched : text ∈ p.language) :
    ∃ units, pieces text = some units := by
  obtain ⟨units, _, rfl⟩ := (codes text).mp matched
  exact ⟨units, pieces_spell units⟩

theorem pieces_of_stored {lens : Lens Char} (member : lens ∈ values util)
    (stored : text ∈ lens.stored.language) : ∃ units, pieces text = some units := by
  simp only [values, List.mem_cons, List.not_mem_nil, or_false] at member
  rcases member with rfl | rfl | rfl | rfl
  · exact pieces_of_codes stored_nothing stored
  · exact pieces_of_codes stored_bare stored
  · exact pieces_of_codes stored_dquot stored
  · exact pieces_of_codes stored_squot stored

theorem stored_by_one (util : Util) {text : List Char} (newlineFree : '\n' ∉ text) :
    (values util).countP (·.stored.accepts text) = if storable text then 1 else 0 := by
  cases read : pieces text with
  | none =>
    have absent : storable text = false := by rw [storable, read]
    rw [absent, if_neg Bool.false_ne_true, List.countP_eq_zero]
    intro lens member accepted
    obtain ⟨units, spelled⟩ := pieces_of_stored member ((RegExp.accepts_iff _ _).mp accepted)
    rw [read] at spelled
    cases spelled
  | some units =>
    have both : storable text = true ↔ ¬ (Has .apostrophe units ∧ Has .quote units) := by
      simp [storable, read, imp_iff_not_or]
    have once := stored_once util (visible_of_pieces read newlineFree)
    rw [spell_pieces read] at once
    rw [once]
    simp only [both, ite_not]

end Stored

end Netcf.Lenses
