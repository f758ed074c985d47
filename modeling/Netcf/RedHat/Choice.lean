import Netcf.RedHat.Define
import Netcf.Shared.Ordering

set_option autoImplicit false

-- find_ifcfg_path against the rule of need_config: the file of that name, else the last file with the
-- device's address, else the last file with the device's name.
namespace Netcf.RedHat

open Shared.Faulty Shared.Lists Shared.Ordering Linux

variable {D : Type} {augeas : Augeas Scripts D} {pathx : Pathx} {disk : D} {tables : List (Option Entries)}
  {files : Files Scripts} {name mac : String}

-- What the lenses and the file systems promise about a loaded tree: entries have values, a device has one
-- address, and no file has a slash in its name.
structure Regular (files : Files Scripts) : Prop where
  devices : ∀ script ∈ files.config.files, none ∉ script.values "DEVICE"
  hwaddrs : ∀ node ∈ hwaddrs files.config, node.2.isSome = true
  addresses : (files.sysfs.map (·.1)).Nodup
  plain : ∀ script ∈ files.config.files, '/' ∉ script.name.toList

section Search

variable (pathx : Pathx) (files : Files Scripts)

def byHwaddr (mac : String) : Option String :=
  (((strcmpSort (·.1) (hwaddrs files.config)).map fun node => (node.1, node.2.getD "")).filter
    fun node => strcaseeq node.2 mac).getLast?.map fun node =>
      String.ofList (node.1.toList.take (node.1.length - "/HWADDR".length))

def byDevice (name : String) : Option String :=
  (strcmpSort id ((devicePaths pathx name files).getD [])).getLast?

-- By the first of the addresses.
def byContents (contents : List (Option String)) : Option String :=
  contents.head?.bind fun content => byHwaddr files (content.getD "")

def foundPath (name : String) : Option String :=
  if pathx.count (ifcfgPath name) files = some 1 then some (ifcfgPath name)
  else (byContents files ((addressContents pathx name files).getD [])).or (byDevice pathx files name)

-- No query of find_ifcfg_path is refused, and there is not more than one address.
structure Searched (name : String) : Prop where
  counted : (pathx.count (ifcfgPath name) files).isSome = true
  addressed : pathx.count (ifcfgPath name) files ≠ some 1 →
    ∃ contents, addressContents pathx name files = some contents ∧ contents.length ≤ 1 ∧
      (byContents files contents = none → (devicePaths pathx name files).isSome = true)

end Search

section Answers

theorem answers_byHwaddr (valued : ∀ node ∈ hwaddrs files.config, node.2.isSome = true) (mac : String) :
    Answers (Loaded disk tables) Calm files (findIfcfgPathByHwaddr augeas mac) (byHwaddr files mac) := by
  have each := @answers_mapM _ _ _ _ _ (Loaded disk tables) Calm files
    (fun node : String × Option String => (do return (node.1, ← augGet node.2) : Api Scripts D (String × String)))
    (fun node => (node.1, node.2.getD "")) (strcmpSort (·.1) (hwaddrs files.config)) (by
      intro node member
      obtain ⟨text, found⟩ := Option.isSome_iff_exists.mp (valued node ((List.mem_insertionSort _).mp member))
      rw [found]
      exact (answers_augGet text).bind (answers_pure _))
  exact answers_getAugeas.bind ((answers_augFmtMatch _).bind (each.bind (answers_pure _)))

theorem answers_byDevice (asked : (devicePaths pathx name files).isSome = true) :
    Answers (Loaded disk tables) Calm files (findIfcfgPathByDevice augeas pathx name) (byDevice pathx files name) := by
  obtain ⟨paths, found⟩ := Option.isSome_iff_exists.mp asked
  unfold byDevice
  rw [found]
  exact answers_getAugeas.bind ((answers_augFmtFind found).bind (answers_pure _))

theorem answers_augGetMac {contents : List (Option String)} (found : addressContents pathx name files = some contents)
    (few : contents.length ≤ 1) :
    Answers (Loaded disk tables) Calm files (augGetMac pathx name) contents.head? := by
  refine (answers_attempt .nomem).bind (((implements_augMatch _).answers rfl).bind ?_)
  rw [found]
  rcases contents with _ | ⟨content, _ | ⟨second, rest⟩⟩
  · exact answers_pure _
  · exact answers_pure _
  · simp at few

theorem answers_findPath (valued : ∀ node ∈ hwaddrs files.config, node.2.isSome = true)
    (searched : Searched pathx files name) :
    Answers (Loaded disk tables) Calm files (findIfcfgPath augeas pathx name) (foundPath pathx files name) := by
  obtain ⟨count, counted⟩ := Option.isSome_iff_exists.mp searched.counted
  refine answers_getAugeas.bind ((answers_attempt .nomem).bind (((implements_augMatch _).answers rfl).bind ?_))
  refine (answers_refusable counted).bind ?_
  unfold foundPath
  by_cases once : count = 1
  · rw [if_pos once, if_pos (once ▸ counted)]
    exact answers_pure _
  · have other : pathx.count (ifcfgPath name) files ≠ some 1 := by
      rw [counted]
      exact fun same => once (Option.some.inj same)
    obtain ⟨contents, found, few, asked⟩ := searched.addressed other
    rw [if_neg once, if_neg other, found, Option.getD_some]
    refine (answers_augGetMac found few).bind ?_
    unfold byContents at asked ⊢
    cases head : contents.head? with
    | none =>
      rw [head] at asked
      exact answers_byDevice (asked rfl)
    | some content =>
      rw [head, Option.bind_some] at asked
      refine (answers_byHwaddr valued (content.getD "")).bind ?_
      rw [Option.bind_some]
      cases path : byHwaddr files (content.getD "") with
      | none => exact answers_byDevice (asked path)
      | some path => exact answers_pure _

theorem asked_of_byDevice {ncf after : Ncf Scripts D} {path : Option String} (loaded : Loaded disk tables ncf files)
    (run : findIfcfgPathByDevice augeas pathx name ncf = .ok path after) :
    (devicePaths pathx name files).isSome = true := by
  obtain ⟨_, opened, opening, rest⟩ := bind_ok run
  obtain ⟨paths, _, asked, _⟩ := bind_ok rest
  have still := (answers_getAugeas.ok loaded opening).2
  rw [(augFmtFind_ok still asked).1]
  rfl

theorem contents_of_augGetMac {ncf after : Ncf Scripts D} {mac : Option (Option String)}
    (loaded : Loaded disk tables ncf files) (run : augGetMac pathx name ncf = .ok mac after) :
    ∃ contents, addressContents pathx name files = some contents ∧ contents.length ≤ 1 ∧ mac = contents.head? ∧
      Loaded disk tables after files := by
  obtain ⟨_, one, room, rest⟩ := bind_ok run
  obtain ⟨found, two, asked, rest⟩ := bind_ok rest
  have still := ((answers_attempt .nomem).ok loaded room).2
  obtain ⟨same, still⟩ := Answers.ok ((implements_augMatch _).answers rfl) still asked
  rw [← same]
  rcases found with _ | _ | ⟨content, _ | ⟨second, others⟩⟩
  · cases rest
  · cases rest
    exact ⟨[], rfl, Nat.zero_le 1, rfl, still⟩
  · cases rest
    exact ⟨[content], rfl, Nat.le_refl 1, rfl, still⟩
  · cases rest

theorem searched_of_ok (valued : ∀ node ∈ hwaddrs files.config, node.2.isSome = true) {ncf after : Ncf Scripts D}
    {path : Option String} (loaded : Loaded disk tables ncf files)
    (run : findIfcfgPath augeas pathx name ncf = .ok path after) : Searched pathx files name := by
  obtain ⟨_, one, opening, rest⟩ := bind_ok run
  have still := (answers_getAugeas.ok loaded opening).2
  obtain ⟨_, two, room, rest⟩ := bind_ok rest
  have still := ((answers_attempt .nomem).ok still room).2
  obtain ⟨found, three, asked, rest⟩ := bind_ok rest
  obtain ⟨same, still⟩ := Answers.ok ((implements_augMatch _).answers rfl) still asked
  obtain ⟨count, four, present, deciding⟩ := bind_ok rest
  obtain ⟨counted, rfl⟩ := refusable_ok present
  rw [same] at counted
  refine ⟨by rw [counted]; rfl, fun other => ?_⟩
  have several : count ≠ 1 := fun once => other (once ▸ counted)
  rw [if_neg several] at deciding
  obtain ⟨mac, five, got, searching⟩ := bind_ok deciding
  obtain ⟨contents, held, few, rfl, still⟩ := contents_of_augGetMac still got
  refine ⟨contents, held, few, fun missing => ?_⟩
  unfold byContents at missing
  cases head : contents.head? with
  | none =>
    rw [head] at searching
    exact asked_of_byDevice still searching
  | some content =>
    rw [head] at searching missing
    obtain ⟨path, six, searched, remaining⟩ := bind_ok searching
    obtain ⟨rfl, still⟩ := (answers_byHwaddr valued _).ok still searched
    rw [show byHwaddr files (content.getD "") = none from missing] at remaining
    exact asked_of_byDevice still remaining

theorem findIfcfgPath_iff (valued : ∀ node ∈ hwaddrs files.config, node.2.isSome = true) {ncf : Ncf Scripts D}
    (quiet : Quiet disk tables ncf files) (path : Option String) :
    (∃ after, findIfcfgPath augeas pathx name ncf = .ok path after) ↔
      Searched pathx files name ∧ foundPath pathx files name = path := by
  constructor
  · rintro ⟨after, run⟩
    have searched := searched_of_ok valued quiet.1 run
    exact ⟨searched, ((answers_findPath valued searched).ok quiet.1 run).1.symm⟩
  · rintro ⟨searched, rfl⟩
    obtain ⟨after, run, _⟩ := (@answers_findPath _ augeas _ disk tables _ _ valued searched).runs quiet.1 quiet.2
    exact ⟨after, run⟩

end Answers

section Rule

variable (files : Files Scripts)

def Script.hasAddress (mac : String) (script : Script) : Bool :=
  (script.values "HWADDR").any fun value => value.any (strcaseeq · mac)

def byAddress (mac : String) : Option Script :=
  lastBy Script.name (·.hasAddress mac) files.config.files

def byName (name : String) : Option Script :=
  lastBy Script.name (·.has "DEVICE" name) files.config.files

def addressOf (name : String) : Option String :=
  (files.sysfs.find? (·.1 = name)).map (·.2)

-- What need_config picks for a device.
def needConfig (name : String) : Option Script :=
  (files.config.files.find? (·.name = "ifcfg-" ++ name)).or
    (((addressOf files name).bind (byAddress files)).or (byName files name))

end Rule

section Paths

theorem path_toList (script : Script) :
    script.path.toList = networkScriptsPath.toList ++ '/' :: script.name.toList := by
  rw [Script.path, String.toList_append, String.toList_append, List.append_assoc]
  rfl

theorem path_injective {left right : Script} (same : left.path = right.path) : left.name = right.name := by
  have lists := congrArg String.toList same
  rw [path_toList, path_toList, List.append_cancel_left_eq, List.cons.injEq] at lists
  exact String.toList_inj.mp lists.2

theorem path_le_iff {left right : Script} : left.path ≤ right.path ↔ left.name ≤ right.name := by
  rw [← not_lt, ← not_lt, String.lt_iff_toList_lt, String.lt_iff_toList_lt, path_toList, path_toList,
    append_lt_append_iff, List.cons_lt_cons_self]

theorem byDevice_eq (unquoted : '\'' ∉ name.toList) :
    byDevice pathx files name = (byName files name).map Script.path := by
  have sorted : byDevice pathx files name = lastBy id (fun _ => true)
      ((files.config.files.filter (·.has "DEVICE" name)).map Script.path) := by
    rw [lastBy, List.filter_true, byDevice, devicePaths, if_neg unquoted]
    rfl
  rw [sorted]
  cases last : byName files name with
  | none =>
    rw [Option.map_none, lastBy_none_iff]
    intro path member
    obtain ⟨script, found, _⟩ := List.mem_map.mp member
    have chosen := List.mem_filter.mp found
    rw [lastBy_none_iff.mp last script chosen.1] at chosen
    cases chosen.2
  | some script =>
    obtain ⟨member, chosen, above⟩ := lastBy_some last
    have greatest : ∀ path ∈ (files.config.files.filter (·.has "DEVICE" name)).map Script.path,
        true = true → id path ≤ id script.path := by
      intro path listed _
      obtain ⟨other, found, rfl⟩ := List.mem_map.mp listed
      exact path_le_iff.mpr (above other (List.mem_filter.mp found).1 (List.mem_filter.mp found).2)
    have key := lastBy_key (List.mem_map_of_mem (List.mem_filter.mpr ⟨member, chosen⟩)) rfl greatest
    rwa [Option.map_id] at key

end Paths

section Nodes

-- The path of a HWADDR node cut by the length of its last step, as it is for a node without a number.
def cutHwaddr (path : String) : String :=
  String.ofList (path.toList.take (path.length - "/HWADDR".length))

def matchesMac (mac : String) (node : String × Option String) : Bool :=
  strcaseeq (node.2.getD "") mac

theorem byHwaddr_eq (mac : String) :
    byHwaddr files mac = (lastBy (·.1) (matchesMac mac) (hwaddrs files.config)).map fun node => cutHwaddr node.1 := by
  unfold byHwaddr lastBy strcmpSort
  rw [List.filter_map, List.getLast?_map, Option.map_map]
  rfl

theorem mem_hwaddrs {scripts : Scripts} {node : String × Option String} :
    node ∈ hwaddrs scripts ↔ ∃ script ∈ scripts.files, ∃ shown ∈ script.shown,
      shown.2.label = "HWADDR" ∧ node = (script.path ++ "/" ++ shown.1, shown.2.value) := by
  unfold hwaddrs
  rw [List.mem_flatMap]
  apply exists_congr
  intro script
  apply and_congr_right
  intro _
  rw [List.mem_map]
  apply exists_congr
  intro shown
  rw [List.mem_filter, decide_eq_true_iff, and_assoc]
  exact and_congr_right fun _ => and_congr_right fun _ => eq_comm

theorem count_hwaddr (script : Script) :
    script.entries.countP (fun entry => decide (entry.label = "HWADDR")) = (script.values "HWADDR").length := by
  rw [Script.values, List.length_map, List.countP_eq_length_filter]

-- A lone node is called by its label, and one of several by its label and a number.
theorem shown_hwaddr {script : Script} {shown : String × Entry} (member : shown ∈ script.shown)
    (labelled : shown.2.label = "HWADDR") :
    if (script.values "HWADDR").length = 1 then shown.1 = "HWADDR"
    else ∃ number, shown.1 = "HWADDR" ++ "[" ++ number ++ "]" := by
  obtain ⟨place, _, rfl⟩ := List.mem_map.mp member
  rw [← count_hwaddr]
  by_cases once : script.entries.countP (fun entry => decide (entry.label = place.1.label)) = 1
  · simp only [once, if_true] at labelled
    rw [labelled] at once
    simp only [once, labelled, if_true]
  · simp only [once, if_false] at labelled
    rw [labelled] at once
    simp only [once, labelled, if_false]
    exact ⟨_, rfl⟩

theorem shown_entry {script : Script} {entry : Entry} (member : entry ∈ script.entries) :
    ∃ shown ∈ script.shown, shown.2 = entry := by
  obtain ⟨i, inside, rfl⟩ := List.mem_iff_getElem.mp member
  have place : (script.entries[i], i) ∈ script.entries.zipIdx := by
    rw [List.mem_zipIdx_iff_getElem?]
    exact List.getElem?_eq_getElem inside
  refine ⟨_, List.mem_map_of_mem place, ?_⟩
  dsimp only
  split <;> rfl

theorem entry_of_shown {script : Script} {shown : String × Entry} (member : shown ∈ script.shown) :
    shown.2 ∈ script.entries := by
  obtain ⟨place, listed, rfl⟩ := List.mem_map.mp member
  have inside := List.fst_mem_of_mem_zipIdx listed
  dsimp only
  split <;> exact inside

theorem hasAddress_iff (valued : ∀ node ∈ hwaddrs files.config, node.2.isSome = true) {script : Script}
    (member : script ∈ files.config.files) :
    script.hasAddress mac = true ↔ ∃ shown ∈ script.shown, shown.2.label = "HWADDR" ∧
      matchesMac mac (script.path ++ "/" ++ shown.1, shown.2.value) = true := by
  unfold Script.hasAddress Script.values matchesMac
  rw [List.any_eq_true]
  constructor
  · rintro ⟨value, listed, same⟩
    obtain ⟨entry, found, rfl⟩ := List.mem_map.mp listed
    obtain ⟨shown, inside, rfl⟩ := shown_entry (List.mem_of_mem_filter found)
    refine ⟨shown, inside, by simpa using (List.mem_filter.mp found).2, ?_⟩
    cases value : shown.2.value with
    | none =>
      rw [value] at same
      cases same
    | some text => simpa [value] using same
  · rintro ⟨shown, inside, labelled, same⟩
    have present := valued _ (mem_hwaddrs.mpr ⟨script, member, shown, inside, labelled, rfl⟩)
    refine ⟨shown.2.value, List.mem_map.mpr ⟨shown.2, List.mem_filter.mpr ⟨entry_of_shown inside, ?_⟩, rfl⟩, ?_⟩
    · exact decide_eq_true labelled
    · obtain ⟨text, value⟩ := Option.isSome_iff_exists.mp present
      dsimp only at value same
      rw [value] at same ⊢
      exact same

end Nodes

section Cut

theorem node_toList (script : Script) (label : String) :
    (script.path ++ "/" ++ label).toList =
      networkScriptsPath.toList ++ '/' :: (script.name.toList ++ '/' :: label.toList) := by
  rw [String.toList_append, String.toList_append, path_toList, List.append_assoc, List.append_assoc]
  rfl

theorem cutHwaddr_lone (script : Script) : cutHwaddr (script.path ++ "/" ++ "HWADDR") = script.path := by
  have whole : (script.path ++ "/" ++ "HWADDR").toList = script.path.toList ++ "/HWADDR".toList := by
    rw [String.toList_append, String.toList_append, List.append_assoc]
    rfl
  have long : (script.path ++ "/" ++ "HWADDR").length - "/HWADDR".length = script.path.toList.length := by
    rw [← String.length_toList, whole, List.length_append, String.length_toList, String.length_toList]
    exact Nat.add_sub_cancel _ _
  rw [cutHwaddr, long, whole, List.take_left, String.ofList_toList]

-- Of a node with a number more than the path of the file is left.
theorem cutHwaddr_numbered (script : Script) (number : String) :
    (cutHwaddr (script.path ++ "/" ++ ("HWADDR" ++ "[" ++ number ++ "]"))).toList =
      script.path.toList ++ '/' :: ("HWADDR[".toList ++ (number.toList ++ [']'])).take (number.length + 1) := by
  have whole : (script.path ++ "/" ++ ("HWADDR" ++ "[" ++ number ++ "]")).toList =
      (script.path.toList ++ ['/']) ++ ("HWADDR[".toList ++ (number.toList ++ [']'])) := by
    simp only [String.toList_append, List.append_assoc]
    rfl
  have length : (script.path ++ "/" ++ ("HWADDR" ++ "[" ++ number ++ "]")).length - "/HWADDR".length =
      (script.path.toList ++ ['/']).length + (number.length + 1) := by
    have lengths : "HWADDR[".toList.length = 7 ∧ "/HWADDR".length = 7 := by decide
    rw [← String.length_toList, whole]
    simp only [List.length_append, List.length_singleton, lengths.1, lengths.2, String.length_toList]
    omega
  rw [cutHwaddr, String.toList_ofList, length, whole, List.take_length_add_append, List.append_assoc,
    List.singleton_append]

theorem cutHwaddr_ne {script other : Script} (plain : '/' ∉ other.name.toList) (number : String) :
    cutHwaddr (script.path ++ "/" ++ ("HWADDR" ++ "[" ++ number ++ "]")) ≠ other.path := by
  intro same
  have cut := cutHwaddr_numbered script number
  rw [same, path_toList, path_toList, List.append_assoc, List.append_cancel_left_eq, List.cons_append,
    List.cons.injEq] at cut
  rw [cut.2] at plain
  exact plain (List.mem_append_right _ List.mem_cons_self)

end Cut

section Address

variable (plain : ∀ script ∈ files.config.files, '/' ∉ script.name.toList)
  (valued : ∀ node ∈ hwaddrs files.config, node.2.isSome = true)

-- The address is given once in the file, and no other file with that address has a name that the file's
-- name continues by something before a slash, such as a dot or a dash.
structure Reached (files : Files Scripts) (mac : String) (script : Script) : Prop where
  single : (script.values "HWADDR").length = 1
  clear : ∀ other ∈ files.config.files, other.hasAddress mac = true →
    ¬ Shadowed '/' other.name.toList script.name.toList

theorem script_of_name {left right : Script} (first : left ∈ files.config.files) (second : right ∈ files.config.files)
    (same : left.name = right.name) : left = right :=
  List.inj_on_of_nodup_map files.config.distinct first second same

include plain in
theorem node_le {script other : Script} (member : script ∈ files.config.files) (listed : other ∈ files.config.files)
    (below : other.name ≤ script.name) (reached : Reached files mac script) (owns : other.hasAddress mac = true)
    {shown : String × Entry} (inside : shown ∈ other.shown) (labelled : shown.2.label = "HWADDR") :
    other.path ++ "/" ++ shown.1 ≤ script.path ++ "/" ++ "HWADDR" := by
  rcases eq_or_lt_of_le below with same | before
  · cases script_of_name listed member same
    have lone := shown_hwaddr inside labelled
    rw [if_pos reached.single] at lone
    rw [lone]
  · apply le_of_lt
    rw [String.lt_iff_toList_lt, node_toList, node_toList, append_lt_append_iff, List.cons_lt_cons_self]
    exact lt_of_not_shadowed (String.lt_iff_toList_lt.mp before) (plain script member) (reached.clear other listed owns)

include plain valued in
theorem byHwaddr_reached {script : Script} (last : byAddress files mac = some script)
    (reached : Reached files mac script) : byHwaddr files mac = some script.path := by
  obtain ⟨member, owns, above⟩ := lastBy_some last
  obtain ⟨shown, inside, labelled, found⟩ := (hasAddress_iff valued member).mp owns
  have lone := shown_hwaddr inside labelled
  rw [if_pos reached.single] at lone
  rw [lone] at found
  have node : (script.path ++ "/" ++ "HWADDR", shown.2.value) ∈ hwaddrs files.config :=
    mem_hwaddrs.mpr ⟨script, member, shown, inside, labelled, by rw [lone]⟩
  have greatest : ∀ other ∈ hwaddrs files.config, matchesMac mac other = true →
      other.1 ≤ script.path ++ "/" ++ "HWADDR" := by
    intro other listed matched
    obtain ⟨owner, there, entry, within, named, rfl⟩ := mem_hwaddrs.mp listed
    have owned := (hasAddress_iff valued there).mpr ⟨entry, within, named, matched⟩
    exact node_le plain member there (above owner there owned) reached owned within named
  have key := lastBy_key node found greatest
  obtain ⟨chosen, picked, path⟩ := Option.map_eq_some_iff.mp key
  rw [byHwaddr_eq, picked, Option.map_some, path, cutHwaddr_lone]

include plain valued in
theorem reached_of_byHwaddr {script : Script} (last : byAddress files mac = some script)
    (found : byHwaddr files mac = some script.path) : Reached files mac script := by
  obtain ⟨member, _, _⟩ := lastBy_some last
  rw [byHwaddr_eq] at found
  obtain ⟨node, picked, cut⟩ := Option.map_eq_some_iff.mp found
  obtain ⟨listed, _, greatest⟩ := lastBy_some picked
  obtain ⟨owner, there, shown, inside, labelled, rfl⟩ := mem_hwaddrs.mp listed
  have called := shown_hwaddr inside labelled
  by_cases single : (owner.values "HWADDR").length = 1
  · rw [if_pos single] at called
    dsimp only at cut greatest
    rw [called, cutHwaddr_lone] at cut
    cases script_of_name there member (path_injective cut)
    refine ⟨single, ?_⟩
    intro other elsewhere owns shadowed
    obtain ⟨entry, within, named, matched⟩ := (hasAddress_iff valued elsewhere).mp owns
    have below := greatest _ (mem_hwaddrs.mpr ⟨other, elsewhere, entry, within, named, rfl⟩) matched
    rw [called, ← not_lt, String.lt_iff_toList_lt, node_toList, node_toList, append_lt_append_iff,
      List.cons_lt_cons_self] at below
    exact below shadowed.lt
  · rw [if_neg single] at called
    obtain ⟨number, called⟩ := called
    dsimp only at cut
    rw [called] at cut
    exact absurd cut (cutHwaddr_ne (plain script member) number)

include valued in
theorem byHwaddr_none_iff : byHwaddr files mac = none ↔ byAddress files mac = none := by
  rw [byHwaddr_eq, Option.map_eq_none_iff, lastBy_none_iff, byAddress, lastBy_none_iff]
  constructor
  · intro none_matches script member
    rw [← Bool.not_eq_true, hasAddress_iff valued member]
    rintro ⟨shown, inside, labelled, matched⟩
    rw [none_matches _ (mem_hwaddrs.mpr ⟨script, member, shown, inside, labelled, rfl⟩)] at matched
    cases matched
  · intro none_owns node listed
    obtain ⟨owner, there, shown, inside, labelled, rfl⟩ := mem_hwaddrs.mp listed
    have unowned := none_owns owner there
    rw [← Bool.not_eq_true, hasAddress_iff valued there] at unowned
    rw [← Bool.not_eq_true]
    exact fun matched => unowned ⟨shown, inside, labelled, matched⟩

include plain valued in
theorem byHwaddr_iff (other : Option String) :
    (byHwaddr files mac).or other = ((byAddress files mac).map Script.path).or other ↔
      ∀ script ∈ byAddress files mac, Reached files mac script := by
  cases last : byAddress files mac with
  | none =>
    rw [(byHwaddr_none_iff valued).mpr last]
    simp
  | some script =>
    have picked : byHwaddr files mac ≠ none := fun nothing => by
      rw [(byHwaddr_none_iff valued).mp nothing] at last
      cases last
    obtain ⟨path, found⟩ := Option.ne_none_iff_exists'.mp picked
    rw [found, Option.some_or, Option.map_some, Option.some_or]
    constructor
    · intro same third rest
      cases rest
      exact reached_of_byHwaddr plain valued last (found.trans same)
    · intro reached
      rw [← found]
      exact byHwaddr_reached plain valued last (reached script rfl)

end Address

section Choice

-- No query of find_ifcfg_path on the name is anything but the query for that name.
structure Askable (files : Files Scripts) (name : String) : Prop where
  ordinary : Ordinary name
  unnamed : (∀ script ∈ files.config.files, script.name ≠ "ifcfg-" ++ name) →
    StepName name ∧ ((addressOf files name).bind (byAddress files) = none → '\'' ∉ name.toList)

theorem count_ordinary (plain : Ordinary name) :
    pathx.count (ifcfgPath name) files =
      some (files.config.files.countP fun script => decide (script.name = "ifcfg-" ++ name)) := by
  rw [Pathx.count, scriptLabel_ifcfgPath plain]

theorem count_eq_one_iff (plain : Ordinary name) :
    pathx.count (ifcfgPath name) files = some 1 ↔
      ∃ script ∈ files.config.files, script.name = "ifcfg-" ++ name := by
  rw [count_ordinary plain, Option.some_inj]
  constructor
  · intro once
    obtain ⟨script, member, here⟩ := List.countP_pos_iff.mp (Nat.lt_of_lt_of_eq Nat.zero_lt_one once.symm)
    exact ⟨script, member, of_decide_eq_true here⟩
  · rintro ⟨script, member, here⟩
    rw [← here, List.countP_eq_length_filter, filter_unique files.config.distinct member]
    rfl

theorem unnamed_of_count (plain : Ordinary name) (other : pathx.count (ifcfgPath name) files ≠ some 1) :
    ∀ script ∈ files.config.files, script.name ≠ "ifcfg-" ++ name :=
  fun script member here => other ((count_eq_one_iff plain).mpr ⟨script, member, here⟩)

theorem contents_single (regular : Regular files) (name : String) :
    ((files.sysfs.filter (·.1 = name)).map fun node => some node.2).length ≤ 1 := by
  rw [List.length_map, ← List.countP_eq_length_filter]
  have once := List.nodup_iff_count_le_one.mp regular.addresses name
  rwa [List.count, List.countP_map] at once

theorem byContents_eq (name : String) :
    byContents files ((files.sysfs.filter (·.1 = name)).map fun node => some node.2) =
      (addressOf files name).bind (byHwaddr files) := by
  rw [byContents, List.head?_map, List.head?_filter, addressOf]
  cases files.sysfs.find? (·.1 = name) with
  | none => rfl
  | some node => rfl

theorem bind_byHwaddr_none_iff (regular : Regular files) (name : String) :
    (addressOf files name).bind (byHwaddr files) = none ↔ (addressOf files name).bind (byAddress files) = none := by
  cases addressOf files name with
  | none => simp
  | some mac => exact byHwaddr_none_iff regular.hwaddrs

theorem searched_of_askable (regular : Regular files) (askable : Askable files name) : Searched pathx files name where
  counted := by
    rw [count_ordinary askable.ordinary]
    rfl
  addressed other := by
    obtain ⟨plain, unquoted⟩ := askable.unnamed (unnamed_of_count askable.ordinary other)
    refine ⟨_, if_pos plain, contents_single regular name, fun missing => ?_⟩
    rw [byContents_eq, bind_byHwaddr_none_iff regular] at missing
    rw [devicePaths, if_neg (unquoted missing)]
    rfl

-- An Augeas that refuses what it can.
def refusing : Pathx := ⟨fun _ _ => none, fun _ _ _ => none, fun _ _ => none⟩

theorem scriptLabel_special {device : String} (special : ¬ Ordinary device) : scriptLabel (ifcfgPath device) = none := by
  have split : ifcfgPath device = networkScriptsPath ++ "/" ++ ("ifcfg-" ++ device) := by
    simp only [ifcfgPath, String.append_assoc]
    rfl
  rw [split, scriptLabel, below_scripts, String.ofList_toList]
  refine if_neg fun plain => special fun c inside => plain.2.ordinary c ?_
  rw [String.toList_append]
  exact List.mem_append_right _ inside

theorem askable_of_searched (regular : Regular files) (searched : Searched refusing files name) :
    Askable files name := by
  have plain : Ordinary name := by
    by_contra special
    have counted := searched.counted
    rw [Pathx.count, scriptLabel_special special] at counted
    cases counted
  refine ⟨plain, fun unnamed => ?_⟩
  have other : refusing.count (ifcfgPath name) files ≠ some 1 := by
    rw [Ne, count_eq_one_iff plain]
    rintro ⟨script, member, here⟩
    exact unnamed script member here
  obtain ⟨contents, found, _, asked⟩ := searched.addressed other
  by_cases step : StepName name
  · refine ⟨step, fun missing quoted => ?_⟩
    rw [addressContents, if_pos step] at found
    cases found
    rw [← bind_byHwaddr_none_iff regular, ← byContents_eq] at missing
    have answered := asked missing
    rw [devicePaths, if_pos quoted] at answered
    cases answered
  · rw [addressContents, if_neg step] at found
    cases found

theorem foundPath_own (plain : Ordinary name)
    (own : ∃ script ∈ files.config.files, script.name = "ifcfg-" ++ name) :
    foundPath pathx files name = (needConfig files name).map Script.path := by
  rw [foundPath, if_pos ((count_eq_one_iff plain).mpr own), needConfig]
  obtain ⟨script, member, here⟩ := own
  have found : (files.config.files.find? (·.name = "ifcfg-" ++ name)).isSome = true :=
    List.find?_isSome.mpr ⟨script, member, decide_eq_true here⟩
  obtain ⟨first, picked⟩ := Option.isSome_iff_exists.mp found
  have named : first.name = "ifcfg-" ++ name := by simpa using List.find?_some picked
  rw [picked, Option.some_or, Option.map_some, Script.path, named]
  rfl

theorem own_none (unnamed : ∀ script ∈ files.config.files, script.name ≠ "ifcfg-" ++ name) :
    files.config.files.find? (·.name = "ifcfg-" ++ name) = none := by
  rw [List.find?_eq_none]
  intro script member here
  exact unnamed script member (of_decide_eq_true here)

-- Without a file of that name the search for the address and the one for the device remain.
theorem foundPath_unnamed (askable : Askable files name)
    (unnamed : ∀ script ∈ files.config.files, script.name ≠ "ifcfg-" ++ name) :
    foundPath pathx files name = ((addressOf files name).bind (byHwaddr files)).or (byDevice pathx files name) := by
  have none_once : ¬ pathx.count (ifcfgPath name) files = some 1 := by
    rw [count_eq_one_iff askable.ordinary]
    rintro ⟨script, member, here⟩
    exact unnamed script member here
  rw [foundPath, if_neg none_once, addressContents, if_pos (askable.unnamed unnamed).1, Option.getD_some, byContents_eq]

theorem foundPath_unnamed_iff (regular : Regular files) (askable : Askable files name)
    (unnamed : ∀ script ∈ files.config.files, script.name ≠ "ifcfg-" ++ name) :
    foundPath pathx files name = (needConfig files name).map Script.path ↔
      ∀ mac ∈ addressOf files name, ∀ script ∈ byAddress files mac, Reached files mac script := by
  rw [foundPath_unnamed askable unnamed, needConfig, own_none unnamed, Option.none_or]
  have unquoted := (askable.unnamed unnamed).2
  cases address : addressOf files name with
  | none =>
    rw [address] at unquoted
    rw [byDevice_eq (unquoted rfl)]
    simp
  | some mac =>
    rw [address, Option.bind_some] at unquoted
    rw [Option.bind_some, Option.bind_some]
    have same : (∀ other ∈ some mac, ∀ script ∈ byAddress files other, Reached files other script) ↔
        ∀ script ∈ byAddress files mac, Reached files mac script := by simp
    rw [same, ← byHwaddr_iff regular.plain regular.hwaddrs (byDevice pathx files name)]
    cases last : byAddress files mac with
    | none =>
      rw [byDevice_eq (unquoted last), Option.none_or, Option.map_none, Option.none_or]
    | some script => simp

variable {ncf : Ncf Scripts D}

end Choice

section Places

-- Where find_ifcfg_path leads to: a file, or a place below a file that is left of the path of one of its
-- HWADDR entries.
inductive Place
  | file (script : Script)
  | entry (script : Script) (node : String)
  deriving DecidableEq

def Place.script : Place → Script
  | .file script | .entry script _ => script

def Place.path : Place → String
  | .file script => script.path
  | .entry script node => cutHwaddr (script.path ++ "/" ++ node)

variable (files : Files Scripts)

-- The HWADDR entries of the files with what aug_match calls them.
def addressEntries : List (Script × String × Option String) :=
  files.config.files.flatMap fun script =>
    (script.shown.filter (·.2.label = "HWADDR")).map fun node => (script, node.1, node.2.value)

-- The file of the last entry with the address when that is the only one of the file.
def lastEntry (mac : String) : Option Place :=
  (lastBy (fun entry => entry.1.path ++ "/" ++ entry.2.1) (fun entry => strcaseeq (entry.2.2.getD "") mac)
    (addressEntries files)).map fun entry =>
      if entry.2.1 = "HWADDR" then .file entry.1 else .entry entry.1 entry.2.1

-- The file of that name, else what the last entry with the device's address gives, else the last file with
-- the device's name.
def leadsTo (name : String) : Option Place :=
  ((files.config.files.find? (·.name = "ifcfg-" ++ name)).map .file).or
    (((addressOf files name).bind (lastEntry files)).or ((byName files name).map .file))

variable {files}

theorem hwaddrs_entries :
    hwaddrs files.config = (addressEntries files).map fun entry => (entry.1.path ++ "/" ++ entry.2.1, entry.2.2) := by
  rw [hwaddrs, addressEntries, List.map_flatMap]
  simp only [List.map_map]
  rfl

theorem byHwaddr_place (mac : String) : byHwaddr files mac = (lastEntry files mac).map Place.path := by
  rw [byHwaddr_eq, hwaddrs_entries, lastBy_map, lastEntry, Option.map_map, Option.map_map]
  apply Option.map_congr
  intro entry _
  change cutHwaddr (entry.1.path ++ "/" ++ entry.2.1) =
    (if entry.2.1 = "HWADDR" then Place.file entry.1 else .entry entry.1 entry.2.1).path
  by_cases lone : entry.2.1 = "HWADDR"
  · rw [if_pos lone, lone, cutHwaddr_lone]
    rfl
  · rw [if_neg lone]
    rfl

theorem foundPath_place (regular : Regular files) (askable : Askable files name) :
    foundPath pathx files name = (leadsTo files name).map Place.path := by
  by_cases own : ∃ script ∈ files.config.files, script.name = "ifcfg-" ++ name
  · rw [foundPath_own askable.ordinary own, needConfig, leadsTo]
    obtain ⟨script, member, here⟩ := own
    have found : (files.config.files.find? (·.name = "ifcfg-" ++ name)).isSome = true :=
      List.find?_isSome.mpr ⟨script, member, decide_eq_true here⟩
    obtain ⟨first, picked⟩ := Option.isSome_iff_exists.mp found
    rw [picked]
    rfl
  · have unnamed : ∀ script ∈ files.config.files, script.name ≠ "ifcfg-" ++ name :=
      fun script member here => own ⟨script, member, here⟩
    rw [foundPath_unnamed askable unnamed, leadsTo, own_none unnamed, Option.map_none, Option.none_or, Option.map_or,
      Option.map_bind]
    have places : (addressOf files name).bind (byHwaddr files) =
        (addressOf files name).bind (Option.map Place.path ∘ lastEntry files) := by
      congr 1
      funext mac
      exact byHwaddr_place mac
    cases missing : (addressOf files name).bind (byHwaddr files) with
    | none =>
      rw [← places, missing, Option.none_or, Option.none_or,
        byDevice_eq ((askable.unnamed unnamed).2 ((bind_byHwaddr_none_iff regular name).mp missing)), Option.map_map]
      rfl
    | some path => rw [← places, missing, Option.some_or, Option.some_or]

-- The file of the place is one of the files, and an entry of several has a number.
structure Place.Within (files : Files Scripts) (place : Place) : Prop where
  listed : place.script ∈ files.config.files
  numbered : ∀ script node, place = .entry script node → ∃ number, node = "HWADDR" ++ "[" ++ number ++ "]"

theorem within_file {script : Script} (listed : script ∈ files.config.files) : (Place.file script).Within files :=
  ⟨listed, fun _ _ same => by cases same⟩

theorem lastEntry_within {place : Place} (last : lastEntry files mac = some place) : place.Within files := by
  obtain ⟨entry, found, rfl⟩ := Option.map_eq_some_iff.mp last
  obtain ⟨script, member, inside⟩ := List.mem_flatMap.mp (lastBy_some found).1
  obtain ⟨node, shown, rfl⟩ := List.mem_map.mp inside
  obtain ⟨shown, labelled⟩ := List.mem_filter.mp shown
  have called := shown_hwaddr shown (of_decide_eq_true labelled)
  dsimp only
  by_cases lone : node.1 = "HWADDR"
  · rw [if_pos lone]
    exact within_file member
  · rw [if_neg lone]
    refine ⟨member, fun other text same => ?_⟩
    cases same
    by_cases single : (script.values "HWADDR").length = 1
    · rw [if_pos single] at called
      exact absurd called lone
    · rwa [if_neg single] at called

theorem leadsTo_within {place : Place} (leads : leadsTo files name = some place) : place.Within files := by
  rcases Option.or_eq_some_iff.mp leads with own | ⟨_, rest⟩
  · obtain ⟨script, found, rfl⟩ := Option.map_eq_some_iff.mp own
    exact within_file (List.mem_of_find?_eq_some found)
  · rcases Option.or_eq_some_iff.mp rest with address | ⟨_, device⟩
    · obtain ⟨mac, _, last⟩ := Option.bind_eq_some_iff.mp address
      exact lastEntry_within last
    · obtain ⟨script, found, rfl⟩ := Option.map_eq_some_iff.mp device
      exact within_file (lastBy_some found).1

theorem leadsTo_isSome (named : ∃ script ∈ files.config.files, script.has "DEVICE" name = true) :
    (leadsTo files name).isSome = true := by
  obtain ⟨script, member, holds⟩ := named
  have device : (byName files name).isSome = true := by
    rw [Option.isSome_iff_ne_none]
    intro nothing
    have absent := lastBy_none_iff.mp nothing script member
    rw [holds] at absent
    cases absent
  simp [leadsTo, device]

end Places

section Examples

-- A driver that has loaded the tree, and nothing is going to fail.
def loadedWith (files : Files Scripts) : Ncf Scripts (Files Scripts) :=
  ⟨files, some ⟨entries [some augeasXfmCommon], files⟩, [some augeasXfmCommon], false, false, []⟩

theorem quiet_loadedWith (files : Files Scripts) :
    Quiet files [some augeasXfmCommon] (loadedWith files) files :=
  quiet_settled augeasXfmCommon files files

-- The files of eth4 in the test tree: the decoy has the name of the device and another address.
def decoy : Files Scripts :=
  ⟨⟨[⟨"ifcfg-by-hwaddr", [⟨"DEVICE", some "eth5"⟩, ⟨"HWADDR", some "00:00:00:00:00:01"⟩]⟩,
    ⟨"ifcfg-by-hwaddr-decoy", [⟨"DEVICE", some "eth4"⟩, ⟨"HWADDR", some "00:00:00:00:00:02"⟩]⟩], by decide⟩, [],
    [("eth4", "00:00:00:00:00:01")]⟩

-- The address is written in two ways.
def twice : Files Scripts :=
  ⟨⟨[⟨"ifcfg-lan", [⟨"DEVICE", some "lan"⟩, ⟨"HWADDR", some "00:00:00:00:00:0a"⟩,
    ⟨"HWADDR", some "00:00:00:00:00:0A"⟩]⟩], by decide⟩, [], [("eth4", "00:00:00:00:00:0a")]⟩

end Examples

end Netcf.RedHat
