import Netcf.Stylesheet.Bonding

set_option autoImplicit false

-- bond:option on any well-formed string of options, whether a put stylesheet has written it or a user.
namespace Netcf.Stylesheet

open Shared Shared.Search

def blank (c : Char) : Bool :=
  c = ' ' ∨ c = '\t'

def Plain (text : String) : Prop :=
  text ≠ "" ∧ ∀ c ∈ text.toList, endsValue c = false

structure OptionString where
  entries : List (String × String)
  text : List Char
  mark : Option Char
  distinct : (entries.map Prod.fst).Nodup
  keys : ∀ entry ∈ entries, Plain entry.1 ∧ '=' ∉ entry.1.toList
  values : ∀ entry ∈ entries, Plain entry.2
  spaced : Spaced blank text (entries.map item)
  quotes : ∀ c ∈ mark, c = '\'' ∨ c = '"'

namespace OptionString

variable (options : OptionString)

def opts : String :=
  String.ofList (options.mark.toList ++ options.text ++ options.mark.toList)

def valueOf (name : String) : String :=
  (options.entries.lookup name).getD ""

-- The first item that contains the name decides.  Where the name is no key, the first occurrence in
-- the whole string does, which can lie across items if the name has blanks or quotes in it.
structure Unmistaken (name : String) : Prop where
  listed : ∀ value entry, (name, value) ∈ options.entries →
    options.entries.find? (fun entry => name.toList <:+: item entry) = some entry →
    behindFirst (item entry) name.toList = some ('=' :: value.toList)
  unlisted : (∀ entry ∈ options.entries, entry.1 ≠ name) →
    ∀ rest, behindFirst options.opts.toList name.toList = some ('=' :: rest) → Ends endsValue rest

end OptionString

theorem lookupOption_eq (opts name : List Char) :
    lookupOption opts name = ((behindFirst opts name).map valueAfter).getD [] := by
  unfold lookupOption behindFirst
  cases opts.dropInfix? name <;> rfl

theorem valueAfter_ends {value rest : List Char} (plain : ∀ c ∈ value, endsValue c = false)
    (ends : Ends endsValue rest) : valueAfter ('=' :: (value ++ rest)) = value := by
  have inside : ∀ c ∈ value, (!endsValue c) = true := by
    intro c member
    simp [plain c member]
  rw [valueAfter, List.takeWhile_append_of_pos inside]
  cases rest with
  | nil => simp
  | cons x xs => simp [ends x rfl]

theorem valueAfter_eq_iff {value part tail : List Char} (filled : value ≠ [])
    (plain : ∀ c ∈ part, endsValue c = false) (ends : Ends endsValue tail) :
    valueAfter (part ++ tail) = value ↔ part = '=' :: value := by
  constructor
  · intro same
    match part, plain with
    | [], _ =>
      cases tail with
      | nil => exact absurd same.symm filled
      | cons x xs =>
        have other : x ≠ '=' := by
          rintro rfl
          exact absurd (ends '=' rfl) (by decide)
        simp [valueAfter, other] at same
        exact absurd same filled
    | x :: more, plain =>
      by_cases equal : x = '='
      · subst equal
        have rest := fun c member => plain c (List.mem_cons_of_mem '=' member)
        rw [List.cons_append, valueAfter_ends rest ends] at same
        rw [same]
      · simp [valueAfter, equal] at same
        exact absurd same filled
  · rintro rfl
    exact valueAfter_ends (fun c member => plain c (List.mem_cons_of_mem '=' member)) ends

theorem valueAfter_empty_iff (rest : List Char) :
    valueAfter rest = [] ↔ ∀ more, rest = '=' :: more → Ends endsValue more := by
  match rest with
  | [] => simp [valueAfter]
  | x :: more =>
    by_cases equal : x = '='
    · subst equal
      cases more with
      | nil => simp [valueAfter, Ends]
      | cons y ys => simp [valueAfter, Ends, List.takeWhile_cons]
    · simp [valueAfter, equal]

namespace OptionString

variable (options : OptionString)

theorem item_plain {entry : String × String} (member : entry ∈ options.entries) :
    ∀ c ∈ item entry, endsValue c = false := by
  intro c inside
  rcases List.mem_append.mp inside with key | rest
  · exact (options.keys entry member).1.2 c key
  · rcases List.mem_cons.mp rest with rfl | value
    · decide
    · exact (options.values entry member).2 c value

theorem spaced_opts :
    Spaced endsValue options.opts.toList (options.entries.map item) := by
  have within : Spaced endsValue options.text (options.entries.map item) := by
    refine options.spaced.weaken ?_
    intro c between
    simp only [blank, decide_eq_true_eq] at between
    rcases between with rfl | rfl <;> decide
  rw [opts, String.toList_ofList]
  cases quoted : options.mark with
  | none => simpa using within
  | some c =>
    have stops : endsValue c = true := by
      rcases options.quotes c quoted with rfl | rfl <;> decide
    exact .skip stops (within.close stops)

theorem bondOption_eq (name : String) :
    (bondOption options.opts name).toList =
      ((behindFirst options.opts.toList name.toList).map valueAfter).getD [] := by
  rw [bondOption, String.toList_ofList, lookupOption_eq]

theorem valueOf_listed {name value : String} (member : (name, value) ∈ options.entries) :
    options.valueOf name = value := by
  obtain ⟨before, after, split⟩ := List.append_of_mem member
  have distinct := options.distinct
  rw [split, List.map_append, List.map_cons, List.nodup_append] at distinct
  have others : ∀ entry ∈ before, name != entry.1 := by
    intro entry earlier
    have apart := distinct.2.2 entry.1 (List.mem_map_of_mem earlier) name List.mem_cons_self
    simpa using apart.symm
  rw [valueOf, List.lookup_eq_some_iff.mpr ⟨before, after, split, others⟩]
  rfl

theorem valueOf_unlisted {name : String} (missing : ∀ entry ∈ options.entries, entry.1 ≠ name) :
    options.valueOf name = "" := by
  have absent : options.entries.lookup name = none := by
    rw [List.lookup_eq_none_iff]
    intro entry member
    simpa using (missing entry member).symm
  rw [valueOf, absent]
  rfl

theorem first_item {name value : String} (member : (name, value) ∈ options.entries) :
    ∃ entry, options.entries.find? (fun entry => name.toList <:+: item entry) = some entry := by
  rw [← Option.isSome_iff_exists, List.find?_isSome]
  have inside : name.toList <:+: item (name, value) := (List.prefix_append _ _).isInfix
  exact ⟨_, member, by simpa using inside⟩

theorem behindFirst_opts {name value : String} {entry : String × String}
    (member : (name, value) ∈ options.entries)
    (first : options.entries.find? (fun entry => name.toList <:+: item entry) = some entry) :
    ∃ tail, Ends endsValue tail ∧
      behindFirst options.opts.toList name.toList =
        (behindFirst (item entry) name.toList).map (· ++ tail) := by
  obtain ⟨⟨filled, plain⟩, _⟩ := options.keys _ member
  refine behindFirst_spaced (by simpa using filled) plain options.spaced_opts ?_
  rw [List.find?_map]
  exact congrArg (Option.map item) first

theorem listed_iff {name value : String} (member : (name, value) ∈ options.entries) :
    bondOption options.opts name = value ↔
      ∀ entry, options.entries.find? (fun entry => name.toList <:+: item entry) = some entry →
        behindFirst (item entry) name.toList = some ('=' :: value.toList) := by
  obtain ⟨entry, first⟩ := options.first_item member
  obtain ⟨tail, ends, same⟩ := options.behindFirst_opts member first
  have inside : name.toList <:+: item entry := by simpa using List.find?_some first
  have filled : value.toList ≠ [] := by simpa using (options.values _ member).1
  obtain ⟨part, found, suffix⟩ := behindFirst_inside inside
  have plain : ∀ c ∈ part, endsValue c = false := fun c within =>
    options.item_plain (List.mem_of_find?_eq_some first) c (suffix.subset within)
  rw [← String.toList_inj, bondOption_eq, same, found]
  simp only [first, found, Option.some.injEq, forall_eq', Option.map_some, Option.getD_some]
  exact valueAfter_eq_iff filled plain ends

theorem unlisted_iff (name : String) :
    bondOption options.opts name = "" ↔
      ∀ rest, behindFirst options.opts.toList name.toList = some ('=' :: rest) → Ends endsValue rest := by
  rw [← String.toList_inj, bondOption_eq]
  cases behindFirst options.opts.toList name.toList with
  | none => simp
  | some rest => simpa using valueAfter_empty_iff rest

-- A key that no other item contains is found: in its own item it comes first.
theorem Unmistaken.of_apart {name value : String} (member : (name, value) ∈ options.entries)
    (apart : ∀ entry ∈ options.entries, name.toList <:+: item entry → entry.1 = name) :
    options.Unmistaken name := by
  refine ⟨?_, fun missing => absurd rfl (missing _ member)⟩
  intro again entry listed first
  have inside : name.toList <:+: item entry := by simpa using List.find?_some first
  have holder := List.mem_of_find?_eq_some first
  obtain ⟨key, value'⟩ := entry
  obtain rfl : key = name := apart _ holder inside
  have same : value' = again := by
    rw [← options.valueOf_listed holder, options.valueOf_listed listed]
  rw [same, behindFirst, item, dropInfix?_here]
  rfl

end OptionString

-- C text: "FIXME: We should really go look for the next occurrence of name".
theorem option_by_key_iff (options : OptionString) (name : String) :
    bondOption options.opts name = options.valueOf name ↔ options.Unmistaken name := by
  by_cases key : ∃ value, (name, value) ∈ options.entries
  · obtain ⟨value, member⟩ := key
    rw [options.valueOf_listed member, options.listed_iff member]
    constructor
    · intro right
      refine ⟨?_, fun missing => absurd rfl (missing _ member)⟩
      intro again entry listed first
      rw [← options.valueOf_listed listed, options.valueOf_listed member]
      exact right entry first
    · intro unmistaken entry first
      exact unmistaken.listed value entry member first
  · have missing : ∀ entry ∈ options.entries, entry.1 ≠ name := by
      rintro ⟨name', value⟩ member rfl
      exact key ⟨value, member⟩
    rw [options.valueOf_unlisted missing, options.unlisted_iff]
    constructor
    · intro right
      exact ⟨fun value entry member => absurd ⟨value, member⟩ key, fun _ => right⟩
    · intro unmistaken
      exact unmistaken.unlisted missing

def reselect : OptionString where
  entries := [("mode", "1"), ("primary_reselect", "always"), ("primary", "eth0")]
  text := item ("mode", "1") ++ ' ' :: (item ("primary_reselect", "always") ++
    ' ' :: (item ("primary", "eth0") ++ []))
  mark := some '\''
  distinct := by decide
  keys := by simp [Plain, endsValue]
  values := by simp [Plain, endsValue]
  spaced := .token _ (by simp [Ends, blank]) (.skip rfl (.token _ (by simp [Ends, blank])
    (.skip rfl (.token _ (by simp [Ends]) .done))))
  quotes := by simp

theorem primary_hidden :
    reselect.opts = "'mode=1 primary_reselect=always primary=eth0'" ∧
      bondOption reselect.opts "primary" = "" ∧ reselect.valueOf "primary" = "eth0" := by
  decide +kernel

end Netcf.Stylesheet
