import Netcf.Shared.Bidirectional
import Netcf.Shared.Lists

set_option autoImplicit false

-- The star of a lens: a text that is read piece by piece, each piece giving one tree.  Where every piece
-- is a line, what a whole text gives is settled line by line.
namespace Shared.Bidirectional.Lens

open Shared.Regex

variable {α : Type} {within : α → Prop} {text : List α} {view : View α}

-- Every letter of what the lens takes off a text has a property.
def Letters (within : α → Prop) : Lens α → Prop
  | .del pattern _ | .store pattern | .key pattern => ∀ word ∈ pattern.language, ∀ letter ∈ word, within letter
  | .value _ => True
  | .seq first second | .union first second => first.Letters within ∧ second.Letters within
  | .optional lens | .subtree lens => lens.Letters within

theorem letters_of_gets (lens : Lens α) (closed : lens.Letters within) (read : view ∈ lens.gets text) :
    ∀ letter ∈ text, within letter := by
  induction lens generalizing text view with
  | del pattern written => exact closed text (mem_gets_del.mp read).1
  | store pattern => exact closed text (mem_gets_store.mp read).1
  | key pattern => exact closed text (mem_gets_key.mp read).1
  | value word =>
    rw [(mem_gets_value.mp read).1]
    exact List.forall_mem_nil _
  | seq first second before behind =>
    obtain ⟨front, back, left, right, rfl, inFirst, inSecond, _⟩ := mem_gets_seq.mp read
    exact List.forall_mem_append.mpr ⟨before closed.1 inFirst, behind closed.2 inSecond⟩
  | union first second left right =>
    rcases mem_gets_union.mp read with inFirst | inSecond
    · exact left closed.1 inFirst
    · exact right closed.2 inSecond
  | optional lens ih =>
    rcases mem_gets_optional.mp read with ⟨rfl, _⟩ | inside
    · exact List.forall_mem_nil _
    · exact ih closed inside
  | subtree lens ih =>
    obtain ⟨below, inside, _⟩ := mem_gets_subtree.mp read
    exact ih closed inside

end Shared.Bidirectional.Lens

namespace Shared.Repeating

open Shared.Regex Shared.Bidirectional

variable {α : Type}

-- A lens for one tree. A label can also be given to the tree without being read off the text.
inductive Item (α : Type) where
  | plain (lens : Lens α)
  | labelled (label : List α) (lens : Lens α)

namespace Item

def gets : Item α → List α → List (View α)
  | .plain lens, text => (lens.gets text).filterMap View.onlyChild
  | .labelled label lens, text => (lens.gets text).map (View.join ⟨some label, none, []⟩)

def creates [DecidableEq α] : Item α → View α → List (List α)
  | .plain lens, child => lens.creates ⟨none, none, [child]⟩
  | .labelled label lens, child => if child.key = some label then lens.creates { child with key := none } else []

def Settled : Item α → Prop
  | .plain lens | .labelled _ lens => lens.Settled

variable {lens : Lens α} {label text : List α} {child : View α}

theorem mem_gets_plain : child ∈ (plain lens).gets text ↔ ⟨none, none, [child]⟩ ∈ lens.gets text := by
  change child ∈ (lens.gets text).filterMap View.onlyChild ↔ _
  simp only [List.mem_filterMap, View.onlyChild_iff, exists_eq_right]

theorem mem_gets_labelled : child ∈ (labelled label lens).gets text ↔
    ∃ view ∈ lens.gets text, View.join ⟨some label, none, []⟩ view = child :=
  List.mem_map

variable [DecidableEq α]

theorem mem_creates_labelled : text ∈ (labelled label lens).creates child ↔
    child.key = some label ∧ text ∈ lens.creates { child with key := none } := by
  change text ∈ (if child.key = some label then lens.creates { child with key := none } else []) ↔ _
  by_cases same : child.key = some label <;> simp [same]

theorem gets_of_creates {item : Item α} (settled : item.Settled) (made : text ∈ item.creates child) :
    child ∈ item.gets text := by
  cases item with
  | plain lens => exact mem_gets_plain.mpr (Lens.gets_of_creates lens settled made)
  | labelled label lens =>
    obtain ⟨named, inLens⟩ := mem_creates_labelled.mp made
    refine mem_gets_labelled.mpr ⟨_, Lens.gets_of_creates lens settled inLens, ?_⟩
    cases child
    dsimp only at named
    subst named
    rfl

end Item

section Star

variable (items : List (Item α))

def getsItem (text : List α) : List (View α) :=
  items.flatMap (·.gets text)

def getsFrom : Nat → List α → List (List (View α))
  | _, [] => [[]]
  | 0, _ :: _ => []
  | room + 1, first :: rest =>
      (splits rest).flatMap fun pair =>
        (getsItem items (first :: pair.1)).flatMap fun child => (getsFrom room pair.2).map (child :: ·)

-- No piece is empty, so there are no more of them than letters.
def gets (text : List α) : List (List (View α)) :=
  getsFrom items text.length text

def createsItem [DecidableEq α] (child : View α) : List (List α) :=
  items.flatMap (·.creates child)

def creates [DecidableEq α] : List (View α) → List (List α)
  | [] => [[]]
  | child :: rest => (createsItem items child).flatMap fun front => (creates rest).map (front ++ ·)

inductive Parse : List α → List (View α) → Prop
  | nil : Parse [] []
  | cons {front back : List α} {child : View α} {children : List (View α)} : child ∈ getsItem items front →
      front ≠ [] → Parse back children → Parse (front ++ back) (child :: children)

end Star

variable {items : List (Item α)} {text front back : List α} {child : View α} {children later : List (View α)}

theorem mem_getsItem : child ∈ getsItem items text ↔ ∃ item ∈ items, child ∈ item.gets text :=
  List.mem_flatMap

theorem parse_of_getsFrom {room : Nat} (read : children ∈ getsFrom items room text) : Parse items text children := by
  induction room generalizing text children with
  | zero =>
    cases text with
    | nil =>
      rw [List.mem_singleton.mp read]
      exact .nil
    | cons first rest => cases read
  | succ room ih =>
    cases text with
    | nil =>
      rw [List.mem_singleton.mp read]
      exact .nil
    | cons first rest =>
      obtain ⟨⟨front, back⟩, divided, inside⟩ := List.mem_flatMap.mp read
      obtain ⟨child, here, others⟩ := List.mem_flatMap.mp inside
      obtain ⟨children, behind, rfl⟩ := List.mem_map.mp others
      rw [← mem_splits.mp divided]
      exact .cons here (List.cons_ne_nil _ _) (ih behind)

theorem getsFrom_of_parse (parsed : Parse items text children) {room : Nat} (enough : text.length ≤ room) :
    children ∈ getsFrom items room text := by
  induction parsed generalizing room with
  | nil => cases room <;> exact List.mem_singleton.mpr rfl
  | @cons front back child children here filled _ ih =>
    obtain ⟨first, rest, rfl⟩ := List.exists_cons_of_ne_nil filled
    cases room with
    | zero => simp at enough
    | succ room =>
      refine List.mem_flatMap.mpr ⟨(rest, back), mem_splits.mpr rfl, List.mem_flatMap.mpr ⟨child, here, ?_⟩⟩
      refine List.mem_map.mpr ⟨children, ih ?_, rfl⟩
      simp only [List.cons_append, List.length_cons, List.length_append] at enough
      omega

theorem mem_gets : children ∈ gets items text ↔ Parse items text children :=
  ⟨parse_of_getsFrom, fun parsed => getsFrom_of_parse parsed (Nat.le_refl _)⟩

theorem Parse.append (first : Parse items front children) (second : Parse items back later) :
    Parse items (front ++ back) (children ++ later) := by
  induction first with
  | nil => exact second
  | cons here filled _ ih =>
    rw [List.append_assoc]
    exact .cons here filled ih

theorem Parse.single (here : child ∈ getsItem items text) (filled : text ≠ []) : Parse items text [child] := by
  have whole : Parse items (text ++ []) [child] := .cons here filled .nil
  rwa [List.append_nil] at whole

section Lines

-- A line: the letter that ends it is its last one and no other.
def Line (stop : α) (text : List α) : Prop :=
  ∃ inside, stop ∉ inside ∧ inside ++ [stop] = text

-- Every item reads lines, and a line is read in one way at most.
structure Lined (stop : α) (items : List (Item α)) : Prop where
  line : ∀ text child, child ∈ getsItem items text → Line stop text
  single : ∀ text child other, child ∈ getsItem items text → other ∈ getsItem items text → child = other

variable {stop : α}

theorem Line.filled (line : Line stop text) : text ≠ [] := by
  obtain ⟨inside, _, rfl⟩ := line
  exact List.append_ne_nil_of_right_ne_nil _ (List.cons_ne_nil _ _)

theorem Line.append_inj {front' back' : List α} (line : Line stop front) (line' : Line stop front')
    (same : front ++ back = front' ++ back') : front = front' ∧ back = back' := by
  obtain ⟨inside, absent, rfl⟩ := line
  obtain ⟨inside', absent', rfl⟩ := line'
  simp only [List.append_assoc, List.cons_append, List.nil_append] at same
  obtain ⟨rfl, behind⟩ := Shared.Lists.append_cons_inj_of_first absent absent' same
  exact ⟨rfl, behind⟩

variable (lined : Lined stop items)
include lined

theorem parse_unique {other : List (View α)} (first : Parse items text children) (second : Parse items text other) :
    children = other := by
  induction first generalizing other with
  | nil =>
    generalize whole : ([] : List α) = text at second
    cases second with
    | nil => rfl
    | cons _ filled _ => exact absurd (List.append_eq_nil_iff.mp whole.symm).1 filled
  | @cons front back child children here filled _ ih =>
    generalize whole : front ++ back = text at second
    cases second with
    | nil => exact absurd (List.append_eq_nil_iff.mp whole).1 filled
    | @cons front' back' child' children' here' _ behind' =>
      obtain ⟨rfl, rfl⟩ := (lined.line _ _ here).append_inj (lined.line _ _ here') whole
      rw [lined.single _ _ _ here here', ih behind']

-- What is read of two texts that have been put together, the first of which can be read alone.
theorem parse_append_iff {all : List (View α)} (first : Parse items front children) :
    Parse items (front ++ back) all ↔ ∃ later, Parse items back later ∧ all = children ++ later := by
  constructor
  · intro whole
    induction first generalizing all with
    | nil => exact ⟨all, whole, rfl⟩
    | @cons front' rest child children here filled _ ih =>
      rw [List.append_assoc] at whole
      generalize same : front' ++ (rest ++ back) = text at whole
      cases whole with
      | nil => exact absurd (List.append_eq_nil_iff.mp same).1 filled
      | @cons front'' back'' child' children' here' _ behind =>
        obtain ⟨rfl, rfl⟩ := (lined.line _ _ here).append_inj (lined.line _ _ here') same
        obtain ⟨later, inBack, rfl⟩ := ih behind
        exact ⟨later, inBack, by rw [lined.single _ _ _ here here', List.cons_append]⟩
  · rintro ⟨later, inBack, rfl⟩
    exact first.append inBack

omit lined in
theorem createsItem_read [DecidableEq α] (settled : ∀ item ∈ items, item.Settled)
    (made : text ∈ createsItem items child) : child ∈ getsItem items text := by
  obtain ⟨item, listed, inItem⟩ := List.mem_flatMap.mp made
  exact mem_getsItem.mpr ⟨item, listed, Item.gets_of_creates (settled item listed) inItem⟩

theorem parse_of_creates [DecidableEq α] (settled : ∀ item ∈ items, item.Settled)
    (made : text ∈ creates items children) : Parse items text children := by
  induction children generalizing text with
  | nil =>
    rw [List.mem_singleton.mp made]
    exact .nil
  | cons child rest ih =>
    obtain ⟨front, inItem, behind⟩ := List.mem_flatMap.mp made
    obtain ⟨back, inRest, rfl⟩ := List.mem_map.mp behind
    have here := createsItem_read settled inItem
    exact .cons here (lined.line _ _ here).filled (ih inRest)

theorem gets_of_creates [DecidableEq α] (settled : ∀ item ∈ items, item.Settled)
    (made : text ∈ creates items children) (other : List (View α)) :
    other ∈ gets items text ↔ other = children := by
  have parsed := parse_of_creates lined settled made
  rw [mem_gets]
  constructor
  · intro read
    exact parse_unique lined read parsed
  · rintro rfl
    exact parsed

-- A line that replaces another changes the one tree that has been read off the other.
theorem gets_replaced {line line' : List α} {before other : List (View α)} {child' : View α}
    (first : before ∈ gets items front) (old : child ∈ getsItem items line)
    (whole : other ∈ gets items (front ++ (line ++ back))) (new : child' ∈ getsItem items line') :
    ∃ after, other = before ++ child :: after ∧ ∀ found,
      found ∈ gets items (front ++ (line' ++ back)) ↔ found = before ++ child' :: after := by
  rw [mem_gets] at first whole
  have single := Parse.single old (lined.line _ _ old).filled
  have single' := Parse.single new (lined.line _ _ new).filled
  obtain ⟨_, behind, rfl⟩ := (parse_append_iff lined first).mp whole
  obtain ⟨after, last, rfl⟩ := (parse_append_iff lined single).mp behind
  refine ⟨after, rfl, fun found => ?_⟩
  have parsed : Parse items (front ++ (line' ++ back)) (before ++ child' :: after) :=
    first.append (single'.append last)
  rw [mem_gets]
  constructor
  · intro read
    exact parse_unique lined read parsed
  · rintro rfl
    exact parsed

end Lines

end Shared.Repeating
