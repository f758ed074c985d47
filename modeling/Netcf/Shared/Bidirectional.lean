import Netcf.Shared.Regex

set_option autoImplicit false

-- Lenses between texts and trees.  The view of a text is what a lens reads off it: at most one key and one
-- value for the tree that the lens is in, and the trees below.
-- A text can have several parses and a view several texts; both directions list them all.
namespace Shared.Bidirectional

open Shared.Regex

variable {α : Type}

structure View (α : Type) where
  key : Option (List α)
  value : Option (List α)
  children : List (View α)

section Splits

variable {β : Type}

def splits : List β → List (List β × List β)
  | [] => [([], [])]
  | first :: rest => ([], first :: rest) :: (splits rest).map fun pair => (first :: pair.1, pair.2)

theorem mem_splits {whole front back : List β} : (front, back) ∈ splits whole ↔ front ++ back = whole := by
  induction whole generalizing front with
  | nil => simp [splits]
  | cons first rest ih =>
    cases front with
    | nil => simp [splits, eq_comm]
    | cons head tail => simp [splits, ih, and_comm, eq_comm]

def sides : Option β → List (Option β × Option β)
  | none => [(none, none)]
  | some x => [(some x, none), (none, some x)]

theorem or_of_sides {whole left right : Option β} (divided : (left, right) ∈ sides whole) :
    left.or right = whole := by
  cases whole with
  | none =>
    obtain ⟨rfl, rfl⟩ : left = none ∧ right = none := by simpa [sides] using divided
    rfl
  | some x =>
    have either : (left = some x ∧ right = none) ∨ (left = none ∧ right = some x) := by
      simpa [sides] using divided
    rcases either with ⟨rfl, rfl⟩ | ⟨rfl, rfl⟩ <;> rfl

theorem all_left (whole : Option β) : (whole, none) ∈ sides whole := by
  cases whole <;> simp [sides]

theorem all_right (whole : Option β) : (none, whole) ∈ sides whole := by
  cases whole <;> simp [sides]

end Splits

namespace View

def blank : View α := ⟨none, none, []⟩

def isBlank (view : View α) : Bool :=
  view.key.isNone && view.value.isNone && view.children.isEmpty

def join (first second : View α) : View α :=
  ⟨first.key.or second.key, first.value.or second.value, first.children ++ second.children⟩

def halves (view : View α) : List (View α × View α) :=
  (sides view.key).flatMap fun keys =>
    (sides view.value).flatMap fun values =>
      (splits view.children).map fun children =>
        (⟨keys.1, values.1, children.1⟩, ⟨keys.2, values.2, children.2⟩)

def onlyKey : View α → Option (List α)
  | ⟨some word, none, []⟩ => some word
  | _ => none

def onlyValue : View α → Option (List α)
  | ⟨none, some word, []⟩ => some word
  | _ => none

def onlyChild : View α → Option (View α)
  | ⟨none, none, [below]⟩ => some below
  | _ => none

theorem isBlank_iff {view : View α} : view.isBlank = true ↔ view = blank := by
  cases view
  simp [isBlank, blank, and_assoc]

theorem onlyKey_iff {view : View α} {word : List α} : view.onlyKey = some word ↔ view = ⟨some word, none, []⟩ := by
  unfold onlyKey
  split
  · simp
  · rename_i other
    constructor
    · intro absent
      cases absent
    · rintro rfl
      exact absurd rfl (other word)

theorem onlyValue_iff {view : View α} {word : List α} :
    view.onlyValue = some word ↔ view = ⟨none, some word, []⟩ := by
  unfold onlyValue
  split
  · simp
  · rename_i other
    constructor
    · intro absent
      cases absent
    · rintro rfl
      exact absurd rfl (other word)

theorem onlyChild_iff {view below : View α} : view.onlyChild = some below ↔ view = ⟨none, none, [below]⟩ := by
  unfold onlyChild
  split
  · simp
  · rename_i other
    constructor
    · intro absent
      cases absent
    · rintro rfl
      exact absurd rfl (other below)

theorem mem_halves {view first second : View α} : (first, second) ∈ view.halves ↔
    (first.key, second.key) ∈ sides view.key ∧ (first.value, second.value) ∈ sides view.value ∧
      first.children ++ second.children = view.children := by
  cases first
  cases second
  simp [halves, mem_splits]

theorem join_of_halves {view first second : View α} (divided : (first, second) ∈ view.halves) :
    first.join second = view := by
  obtain ⟨keys, values, children⟩ := mem_halves.mp divided
  cases view
  rw [join, or_of_sides keys, or_of_sides values, children]

theorem join_blank (view : View α) : view.join blank = view := by
  cases view
  simp [join, blank]

theorem blank_join (view : View α) : blank.join view = view := by
  cases view
  simp [join, blank]

theorem halves_blank (view : View α) : (view, blank) ∈ view.halves :=
  mem_halves.mpr ⟨all_left _, all_left _, List.append_nil _⟩

theorem blank_halves (view : View α) : (blank, view) ∈ view.halves :=
  mem_halves.mpr ⟨all_right _, all_right _, rfl⟩

end View

inductive Lens (α : Type) where
  | del (pattern : RegExp α) (written : List α)
  | store (pattern : RegExp α)
  | value (word : List α)
  | key (pattern : RegExp α)
  | seq (first second : Lens α)
  | union (left right : Lens α)
  | optional (lens : Lens α)
  | subtree (lens : Lens α)

namespace Lens

def gets : Lens α → List α → List (View α)
  | .del pattern _, text => if pattern.accepts text then [.blank] else []
  | .store pattern, text => if pattern.accepts text then [⟨none, some text, []⟩] else []
  | .value word, text => if text.isEmpty then [⟨none, some word, []⟩] else []
  | .key pattern, text => if pattern.accepts text then [⟨some text, none, []⟩] else []
  | .seq first second, text =>
      (splits text).flatMap fun pair =>
        (first.gets pair.1).flatMap fun left => (second.gets pair.2).map left.join
  | .union left right, text => left.gets text ++ right.gets text
  | .optional lens, text => (if text.isEmpty then [.blank] else []) ++ lens.gets text
  | .subtree lens, text => (lens.gets text).map fun view => ⟨none, none, [view]⟩

def creates [DecidableEq α] : Lens α → View α → List (List α)
  | .del _ written, view => if view.isBlank then [written] else []
  | .store pattern, view => (view.onlyValue.filter pattern.accepts).toList
  | .value word, view => if view.onlyValue = some word then [[]] else []
  | .key pattern, view => (view.onlyKey.filter pattern.accepts).toList
  | .seq first second, view =>
      view.halves.flatMap fun pair =>
        (first.creates pair.1).flatMap fun front => (second.creates pair.2).map (front ++ ·)
  -- A branch writes what its type has, so the union takes the branch that stores the value.
  | .union left right, view => left.creates view ++ right.creates view
  | .optional lens, view => (if view.isBlank then [[]] else []) ++ lens.creates view
  | .subtree lens, view => view.onlyChild.toList.flatMap lens.creates

-- The values that the lens stores in the tree that it is in.
def stored [DecidableEq α] : Lens α → RegExp α
  | .store pattern => pattern
  | .value word => .text word
  | .seq left right | .union left right => .alt left.stored right.stored
  | .optional lens => lens.stored
  | .del _ _ | .key _ | .subtree _ => .none

-- What the lens writes for a text it drops is a text that it drops.
def Settled : Lens α → Prop
  | .del pattern written => written ∈ pattern.language
  | .seq left right | .union left right => left.Settled ∧ right.Settled
  | .optional lens | .subtree lens => lens.Settled
  | .store _ | .value _ | .key _ => True

section Gets

variable {pattern : RegExp α} {word text : List α} {view : View α} {lens first second : Lens α}

theorem mem_gets_del : view ∈ (del pattern word).gets text ↔ text ∈ pattern.language ∧ view = .blank := by
  change view ∈ (if pattern.accepts text then [.blank] else []) ↔ _
  simp [← RegExp.accepts_iff]

theorem mem_gets_store : view ∈ (store pattern).gets text ↔
    text ∈ pattern.language ∧ view = ⟨none, some text, []⟩ := by
  change view ∈ (if pattern.accepts text then [⟨none, some text, []⟩] else []) ↔ _
  simp [← RegExp.accepts_iff]

theorem mem_gets_value : view ∈ (value word).gets text ↔ text = [] ∧ view = ⟨none, some word, []⟩ := by
  change view ∈ (if text.isEmpty then [⟨none, some word, []⟩] else []) ↔ _
  simp

theorem mem_gets_key : view ∈ (key pattern).gets text ↔
    text ∈ pattern.language ∧ view = ⟨some text, none, []⟩ := by
  change view ∈ (if pattern.accepts text then [⟨some text, none, []⟩] else []) ↔ _
  simp [← RegExp.accepts_iff]

theorem mem_gets_seq : view ∈ (seq first second).gets text ↔
    ∃ front back left right, front ++ back = text ∧ left ∈ first.gets front ∧ right ∈ second.gets back ∧
      left.join right = view := by
  change view ∈ (splits text).flatMap (fun pair => (first.gets pair.1).flatMap fun left =>
    (second.gets pair.2).map left.join) ↔ _
  simp only [List.mem_flatMap, List.mem_map, Prod.exists, mem_splits, exists_and_left]

theorem mem_gets_union : view ∈ (union first second).gets text ↔
    view ∈ first.gets text ∨ view ∈ second.gets text :=
  List.mem_append

theorem mem_gets_optional : view ∈ (optional lens).gets text ↔
    (text = [] ∧ view = .blank) ∨ view ∈ lens.gets text := by
  change view ∈ (if text.isEmpty then [.blank] else []) ++ lens.gets text ↔ _
  simp

theorem mem_gets_subtree : view ∈ (subtree lens).gets text ↔
    ∃ below ∈ lens.gets text, view = ⟨none, none, [below]⟩ := by
  change view ∈ (lens.gets text).map (fun below => ⟨none, none, [below]⟩) ↔ _
  simp [eq_comm]

-- A text is stored from between two that are dropped.
theorem mem_gets_enclosed {opening closing : RegExp α} {front back : List α} :
    view ∈ (seq (seq (del opening front) (store pattern)) (del closing back)).gets text ↔
      ∃ before written after, before ++ (written ++ after) = text ∧ before ∈ opening.language ∧
        written ∈ pattern.language ∧ after ∈ closing.language ∧ view = ⟨none, some written, []⟩ := by
  constructor
  · intro parsed
    obtain ⟨_, after, _, _, rfl, inner, last, rfl⟩ := mem_gets_seq.mp parsed
    obtain ⟨before, written, _, _, rfl, first, stored, rfl⟩ := mem_gets_seq.mp inner
    obtain ⟨inOpening, rfl⟩ := mem_gets_del.mp first
    obtain ⟨inPattern, rfl⟩ := mem_gets_store.mp stored
    obtain ⟨inClosing, rfl⟩ := mem_gets_del.mp last
    exact ⟨before, written, after, (List.append_assoc _ _ _).symm, inOpening, inPattern, inClosing, rfl⟩
  · rintro ⟨before, written, after, rfl, inOpening, inPattern, inClosing, rfl⟩
    refine mem_gets_seq.mpr ⟨before ++ written, after, ⟨none, some written, []⟩, .blank,
      List.append_assoc _ _ _, ?_, mem_gets_del.mpr ⟨inClosing, rfl⟩, View.join_blank _⟩
    exact mem_gets_seq.mpr ⟨before, written, .blank, _, rfl, mem_gets_del.mpr ⟨inOpening, rfl⟩,
      mem_gets_store.mpr ⟨inPattern, rfl⟩, View.blank_join _⟩

end Gets

section Creates

variable [DecidableEq α] {pattern : RegExp α} {word text : List α} {view : View α} {lens first second : Lens α}

theorem mem_creates_del : text ∈ (del pattern word).creates view ↔ view = .blank ∧ text = word := by
  change text ∈ (if view.isBlank then [word] else []) ↔ _
  simp [View.isBlank_iff]

theorem mem_creates_store : text ∈ (store pattern).creates view ↔
    view = ⟨none, some text, []⟩ ∧ text ∈ pattern.language := by
  change text ∈ (view.onlyValue.filter pattern.accepts).toList ↔ _
  simp [View.onlyValue_iff, RegExp.accepts_iff]

theorem mem_creates_value : text ∈ (value word).creates view ↔ view = ⟨none, some word, []⟩ ∧ text = [] := by
  change text ∈ (if view.onlyValue = some word then [[]] else []) ↔ _
  simp [View.onlyValue_iff]

theorem mem_creates_key : text ∈ (key pattern).creates view ↔
    view = ⟨some text, none, []⟩ ∧ text ∈ pattern.language := by
  change text ∈ (view.onlyKey.filter pattern.accepts).toList ↔ _
  simp [View.onlyKey_iff, RegExp.accepts_iff]

theorem mem_creates_seq : text ∈ (seq first second).creates view ↔
    ∃ left right front back, (left, right) ∈ view.halves ∧ front ∈ first.creates left ∧
      back ∈ second.creates right ∧ front ++ back = text := by
  change text ∈ view.halves.flatMap (fun pair => (first.creates pair.1).flatMap fun front =>
    (second.creates pair.2).map (front ++ ·)) ↔ _
  simp only [List.mem_flatMap, List.mem_map, Prod.exists, exists_and_left]

theorem mem_creates_union : text ∈ (union first second).creates view ↔
    text ∈ first.creates view ∨ text ∈ second.creates view :=
  List.mem_append

theorem mem_creates_optional : text ∈ (optional lens).creates view ↔
    (view = .blank ∧ text = []) ∨ text ∈ lens.creates view := by
  change text ∈ (if view.isBlank then [[]] else []) ++ lens.creates view ↔ _
  simp [View.isBlank_iff]

theorem mem_creates_subtree : text ∈ (subtree lens).creates view ↔
    ∃ below, view = ⟨none, none, [below]⟩ ∧ text ∈ lens.creates below := by
  change text ∈ view.onlyChild.toList.flatMap lens.creates ↔ _
  simp [View.onlyChild_iff]

theorem creates_seq_del : text ∈ (seq lens (del pattern word)).creates view ↔
    ∃ front ∈ lens.creates view, front ++ word = text := by
  rw [mem_creates_seq]
  constructor
  · rintro ⟨left, right, front, back, divided, inFront, inBack, rfl⟩
    obtain ⟨rfl, rfl⟩ := mem_creates_del.mp inBack
    refine ⟨front, ?_, rfl⟩
    rwa [← View.join_of_halves divided, View.join_blank]
  · rintro ⟨front, inFront, rfl⟩
    exact ⟨view, .blank, front, word, View.halves_blank view, inFront, mem_creates_del.mpr ⟨rfl, rfl⟩, rfl⟩

theorem creates_del_seq : text ∈ (seq (del pattern word) lens).creates view ↔
    ∃ back ∈ lens.creates view, word ++ back = text := by
  rw [mem_creates_seq]
  constructor
  · rintro ⟨left, right, front, back, divided, inFront, inBack, rfl⟩
    obtain ⟨rfl, rfl⟩ := mem_creates_del.mp inFront
    refine ⟨back, ?_, rfl⟩
    rwa [← View.join_of_halves divided, View.blank_join]
  · rintro ⟨back, inBack, rfl⟩
    exact ⟨.blank, view, word, back, View.blank_halves view, mem_creates_del.mpr ⟨rfl, rfl⟩, inBack, rfl⟩

theorem creates_enclosed {opening closing : RegExp α} {front back : List α} :
    text ∈ (seq (seq (del opening front) (store pattern)) (del closing back)).creates ⟨none, some word, []⟩ ↔
      word ∈ pattern.language ∧ front ++ word ++ back = text := by
  simp only [creates_seq_del, creates_del_seq, mem_creates_store, View.mk.injEq, Option.some.injEq]
  constructor
  · rintro ⟨_, ⟨_, ⟨⟨_, rfl, _⟩, matched⟩, rfl⟩, rfl⟩
    exact ⟨matched, rfl⟩
  · rintro ⟨matched, rfl⟩
    exact ⟨front ++ word, ⟨word, ⟨⟨trivial, rfl, trivial⟩, matched⟩, rfl⟩, rfl⟩

end Creates

section Laws

variable [DecidableEq α] {word text : List α} {view : View α}

-- A text that was created parses to the view it was created for.
theorem gets_of_creates (lens : Lens α) (settled : lens.Settled) (made : text ∈ lens.creates view) :
    view ∈ lens.gets text := by
  induction lens generalizing text view with
  | del pattern written =>
    obtain ⟨rfl, rfl⟩ := mem_creates_del.mp made
    exact mem_gets_del.mpr ⟨settled, rfl⟩
  | store pattern =>
    obtain ⟨rfl, matched⟩ := mem_creates_store.mp made
    exact mem_gets_store.mpr ⟨matched, rfl⟩
  | value word =>
    obtain ⟨rfl, rfl⟩ := mem_creates_value.mp made
    exact mem_gets_value.mpr ⟨rfl, rfl⟩
  | key pattern =>
    obtain ⟨rfl, matched⟩ := mem_creates_key.mp made
    exact mem_gets_key.mpr ⟨matched, rfl⟩
  | seq first second before behind =>
    obtain ⟨left, right, front, back, divided, inFront, inBack, whole⟩ := mem_creates_seq.mp made
    exact mem_gets_seq.mpr ⟨front, back, left, right, whole, before settled.1 inFront, behind settled.2 inBack,
      View.join_of_halves divided⟩
  | union first second left right =>
    rcases mem_creates_union.mp made with inFirst | inSecond
    · exact mem_gets_union.mpr (.inl (left settled.1 inFirst))
    · exact mem_gets_union.mpr (.inr (right settled.2 inSecond))
  | optional lens ih =>
    rcases mem_creates_optional.mp made with ⟨rfl, rfl⟩ | inside
    · exact mem_gets_optional.mpr (.inl ⟨rfl, rfl⟩)
    · exact mem_gets_optional.mpr (.inr (ih settled inside))
  | subtree lens ih =>
    obtain ⟨below, rfl, inside⟩ := mem_creates_subtree.mp made
    exact mem_gets_subtree.mpr ⟨below, ih settled inside, rfl⟩

-- A lens creates nothing for a value that it does not store.
theorem stored_of_creates (lens : Lens α) (made : text ∈ lens.creates view) (present : view.value = some word) :
    word ∈ lens.stored.language := by
  induction lens generalizing text view with
  | del pattern written =>
    rw [(mem_creates_del.mp made).1] at present
    cases present
  | store pattern =>
    obtain ⟨rfl, matched⟩ := mem_creates_store.mp made
    rwa [← Option.some.inj present]
  | value word' =>
    obtain ⟨rfl, _⟩ := mem_creates_value.mp made
    exact RegExp.mem_text.mpr (Option.some.inj present).symm
  | key pattern =>
    rw [(mem_creates_key.mp made).1] at present
    cases present
  | seq first second before behind =>
    obtain ⟨left, right, front, back, divided, inFront, inBack, _⟩ := mem_creates_seq.mp made
    have either := or_of_sides (View.mem_halves.mp divided).2.1
    rw [present] at either
    rcases Option.or_eq_some_iff.mp either with inLeft | ⟨_, inRight⟩
    · exact .inl (before inFront inLeft)
    · exact .inr (behind inBack inRight)
  | union first second left right =>
    rcases mem_creates_union.mp made with inFirst | inSecond
    · exact .inl (left inFirst present)
    · exact .inr (right inSecond present)
  | optional lens ih =>
    rcases mem_creates_optional.mp made with ⟨rfl, _⟩ | inside
    · cases present
    · exact ih inside present
  | subtree lens _ =>
    obtain ⟨below, rfl, _⟩ := mem_creates_subtree.mp made
    cases present

end Laws

end Lens

end Shared.Bidirectional
