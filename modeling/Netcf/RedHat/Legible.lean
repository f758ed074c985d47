import Mathlib.Data.List.TakeWhile
import Netcf.RedHat.Listing

set_option autoImplicit false

-- The trees on which every expression that drv_list_interfaces makes means what it says.
namespace Netcf.RedHat

open Shared.Faulty Shared.Lists Linux

section Legible

-- The path of the place leads to it: the name of its file is a step, and no bracket is left of the number
-- of an entry, as it is of one with six digits.
def Place.Readable : Place → Prop
  | .file script => StepName script.name
  | .entry script node => StepName script.name ∧ node.length < 14

instance (place : Place) : Decidable place.Readable :=
  match place with
  | .file script => inferInstanceAs (Decidable (StepName script.name))
  | .entry script node => inferInstanceAs (Decidable (StepName script.name ∧ node.length < 14))

-- Below an entry there is nothing.
def Place.values (label : String) : Place → List (Option String)
  | .file script => script.values label
  | .entry _ _ => []

-- Of the names of the configured devices, and of the files that they lead to, Augeas makes what they say.
structure Legible (files : Files Scripts) : Prop where
  askable : ∀ name ∈ deviceNames files, Askable files name
  readable : ∀ name ∈ deviceNames files, ∀ place ∈ leadsTo files name, place.Readable

variable {pathx : Pathx} {files : Files Scripts} {place : Place} {label : String}

theorem askable_of_named {name : String} (step : StepName name) (unquoted : '\'' ∉ name.toList) :
    Askable files name :=
  ⟨step.ordinary, fun _ => ⟨step, fun _ => unquoted⟩⟩

theorem legible_of_named (named : ∀ name ∈ deviceNames files, StepName name ∧ '\'' ∉ name.toList)
    (readable : ∀ name ∈ deviceNames files, ∀ place ∈ leadsTo files name, place.Readable) : Legible files :=
  ⟨fun name listed => askable_of_named (named name listed).1 (named name listed).2, readable⟩

theorem takeWhile_plain {name : List Char} (plain : '/' ∉ name) (rest : List Char) :
    (name ++ '/' :: rest).takeWhile (· ≠ '/') = name := by
  have all : ∀ c ∈ name, decide (c ≠ '/') = true := fun c member => decide_eq_true (ne_of_mem_of_not_mem member plain)
  rw [List.takeWhile_append_of_pos all]
  simp

theorem scriptLabel_node (name rest : String) : scriptLabel (networkScriptsPath ++ "/" ++ (name ++ "/" ++ rest)) = none := by
  rw [scriptLabel, below_scripts, String.ofList_toList]
  refine if_neg fun plain => plain.2.ordinary '/' ?_ (by decide)
  simp [String.toList_append]

theorem withinScript_node {name rest : String} (plain : '/' ∉ name.toList) :
    withinScript (networkScriptsPath ++ "/" ++ (name ++ "/" ++ rest)) = decide (StepName name ∧ StepName rest) := by
  have text : (name ++ "/" ++ rest).toList = name.toList ++ '/' :: rest.toList := by
    rw [String.toList_append, String.toList_append, List.append_assoc]
    rfl
  have behind : (name.toList ++ '/' :: rest.toList).drop (name.toList.length + 1) = rest.toList := by
    rw [List.drop_length_add_append]
    rfl
  simp only [withinScript, below_scripts, text, takeWhile_plain plain, behind, String.ofList_toList]
  simp [String.append_assoc]

theorem withinScript_path {name : String} (plain : '/' ∉ name.toList) :
    withinScript (networkScriptsPath ++ "/" ++ name) = false := by
  have file : name.toList.takeWhile (· ≠ '/') = name.toList :=
    List.takeWhile_eq_self_iff.mpr fun c member => decide_eq_true (ne_of_mem_of_not_mem member plain)
  have behind : name.toList.drop (name.toList.length + 1) = [] := List.drop_eq_nil_of_le (Nat.le_succ _)
  simp only [withinScript, below_scripts, file, behind]
  refine decide_eq_false fun within => ?_
  have empty := within.2.2.named
  revert empty
  decide

-- What is left of the path of an entry with a number.
theorem entry_path (script : Script) (number : String) :
    (Place.entry script ("HWADDR" ++ "[" ++ number ++ "]")).path =
      networkScriptsPath ++ "/" ++ (script.name ++ "/" ++
        String.ofList (("HWADDR[".toList ++ (number.toList ++ [']'])).take (number.length + 1))) := by
  have cut := cutHwaddr_numbered script number
  apply String.toList_inj.mp
  rw [Place.path, cut, path_toList]
  simp [String.toList_append]

theorem stepName_entry {number : String} :
    StepName (String.ofList (("HWADDR[".toList ++ (number.toList ++ [']'])).take (number.length + 1))) ↔
      ("HWADDR" ++ "[" ++ number ++ "]").length < 14 := by
  have length : ("HWADDR" ++ "[" ++ number ++ "]").length = number.length + 8 := by
    rw [← String.length_toList]
    simp only [String.toList_append, List.length_append, String.length_toList]
    have lengths : "HWADDR".length = 6 ∧ "[".length = 1 ∧ "]".length = 1 := by decide
    rw [lengths.1, lengths.2.1, lengths.2.2]
    omega
  have seven : "HWADDR[".toList.length = 7 := by decide
  rw [length]
  constructor
  · intro step
    by_contra long
    refine step.ordinary '[' ?_ (by decide)
    rw [String.toList_ofList, List.take_append]
    refine List.mem_append_left _ ?_
    rw [List.take_of_length_le (by rw [seven]; omega)]
    decide
  · intro short
    have front : ("HWADDR[".toList ++ (number.toList ++ [']'])).take (number.length + 1) =
        "HWADDR[".toList.take (number.length + 1) := by
      rw [List.take_append_of_le_length (by rw [seven]; omega)]
    have each : ∀ i < 6, StepName (String.ofList ("HWADDR[".toList.take (i + 1))) := by decide +kernel
    rw [front]
    exact each _ (by omega)

theorem labelledAt_place (regular : Regular files) (within : place.Within files) (readable : place.Readable)
    (label : String) : labelledAt pathx place.path label files = some (place.values label) := by
  cases place with
  | file script =>
    have same := filter_unique files.config.distinct within.listed
    rw [Place.path, Script.path, labelledAt, scriptLabel_path readable]
    change some ((files.config.files.filter fun other => decide (other.name = script.name)).flatMap _) = _
    rw [show files.config.files.filter (fun other => decide (other.name = script.name)) = [script] from same,
      List.flatMap_singleton]
    rfl
  | entry script node =>
    obtain ⟨number, rfl⟩ := within.numbered script node rfl
    have inside : withinScript (Place.entry script ("HWADDR" ++ "[" ++ number ++ "]")).path = true := by
      rw [entry_path, withinScript_node (regular.plain script within.listed)]
      exact decide_eq_true ⟨readable.1, stepName_entry.mpr readable.2⟩
    rw [labelledAt, inside, entry_path, scriptLabel_node]
    rfl

-- A place that is not readable makes an expression that may be refused.
theorem readable_of_asked (regular : Regular files) (within : place.Within files)
    (asked : (labelledAt refusing place.path label files).isSome = true) : place.Readable := by
  cases place with
  | file script =>
    by_contra unreadable
    have special : scriptLabel script.path = none := by
      rw [Script.path, scriptLabel, below_scripts, String.ofList_toList]
      exact if_neg fun plain => unreadable plain.2
    have outside : withinScript script.path = false := withinScript_path (regular.plain script within.listed)
    rw [Place.path, labelledAt, special, outside] at asked
    cases asked
  | entry script node =>
    obtain ⟨number, rfl⟩ := within.numbered script node rfl
    by_contra unreadable
    have outside : withinScript (Place.entry script ("HWADDR" ++ "[" ++ number ++ "]")).path = false := by
      rw [entry_path, withinScript_node (regular.plain script within.listed)]
      exact decide_eq_false fun both => unreadable ⟨both.1, stepName_entry.mp both.2⟩
    rw [labelledAt, outside, entry_path, scriptLabel_node] at asked
    cases asked

theorem leadsTo_device {name : String} (listed : name ∈ deviceNames files) :
    ∃ place, leadsTo files name = some place ∧ place.Within files := by
  obtain ⟨script, member, value⟩ := mem_deviceNames.mp listed
  obtain ⟨place, leads⟩ := Option.isSome_iff_exists.mp (leadsTo_isSome ⟨script, member, has_iff.mpr value⟩)
  exact ⟨place, leads, leadsTo_within leads⟩

theorem Legible.intact (legible : Legible files) (regular : Regular files) : Intact pathx files where
  devices := regular.devices
  hwaddrs := regular.hwaddrs
  searched name listed := searched_of_askable regular (legible.askable name listed)
  paths name listed := by
    obtain ⟨place, leads, within⟩ := leadsTo_device listed
    have answered := @labelledAt_place pathx _ _ regular within (legible.readable name listed place leads)
    refine ⟨place.path, ?_, fun label _ => by rw [answered]; rfl, ?_⟩
    · rw [foundPath_place regular (legible.askable name listed), leads]
      rfl
    · rw [answered, Option.getD_some]
      cases place with
      | file script => exact regular.devices script within.listed
      | entry script node => exact List.not_mem_nil

-- The name that is reported for a device is the DEVICE of the file that the device leads to.
theorem reportedName_place (regular : Regular files) (legible : Legible files) {name : String}
    (listed : name ∈ deviceNames files) :
    reportedName pathx files (foundPath pathx files name) =
      (leadsTo files name).bind fun place => (place.values "DEVICE").getLast?.join := by
  obtain ⟨place, leads, within⟩ := leadsTo_device listed
  have answered := @labelledAt_place pathx _ _ regular within (legible.readable name listed place leads) "DEVICE"
  rw [foundPath_place regular (legible.askable name listed), leads, Option.map_some, reportedName, Option.getD_some,
    answered]
  rfl

theorem value_script {place : Place} (within : place.Within files) {value : Option String}
    (inside : value ∈ place.values label) : ∃ script ∈ files.config.files, value ∈ script.values label := by
  cases place with
  | file script => exact ⟨script, within.listed, inside⟩
  | entry script node => cases inside

theorem reported_device (regular : Regular files) (legible : Legible files) {path : Option String}
    (top : path ∈ topPaths pathx files) {owner : String} (reported : reportedName pathx files path = some owner) :
    ∃ script ∈ files.config.files, some owner ∈ script.values "DEVICE" := by
  obtain ⟨name, listed, rfl⟩ := List.mem_map.mp (List.mem_of_mem_filter top)
  rw [reportedName_place regular legible listed] at reported
  obtain ⟨place, leads, last⟩ := Option.bind_eq_some_iff.mp reported
  exact value_script (leadsTo_within leads) (List.mem_of_getLast? (Option.join_eq_some_iff.mp last))

end Legible

section Refused

variable {D : Type} {augeas : Augeas Scripts D} {pathx : Pathx} {disk : D} {tables : List (Option Entries)}
  {files : Files Scripts} {ncf after : Ncf Scripts D}

theorem present_ok {path label : String} {found : Bool} (loaded : Loaded disk tables ncf files)
    (run : (do
      let found ← augFmtFind augeas (labelledAt pathx path label)
      return !found.isEmpty : Api Scripts D Bool) ncf = .ok found after) :
    (labelledAt pathx path label files).isSome = true ∧ Loaded disk tables after files := by
  obtain ⟨values, middle, asked, ending⟩ := bind_ok run
  obtain ⟨same, still⟩ := augFmtFind_ok loaded asked
  cases ending
  rw [same]
  exact ⟨rfl, still⟩

theorem isSlave_ok {path : Option String} {slave : Bool} (loaded : Loaded disk tables ncf files)
    (run : isSlave augeas pathx path ncf = .ok slave after) :
    (∀ place ∈ path, (labelledAt pathx place "MASTER" files).isSome = true) ∧ Loaded disk tables after files := by
  cases path with
  | none => cases run
  | some path =>
    obtain ⟨first, middle, master, rest⟩ := bind_ok run
    obtain ⟨asked, still⟩ := present_ok loaded master
    refine ⟨fun place same => Option.some.inj same ▸ asked, ?_⟩
    cases first with
    | true =>
      cases rest
      exact still
    | false =>
      obtain ⟨second, last, bridge, ending⟩ := bind_ok rest
      obtain ⟨_, still⟩ := present_ok still bridge
      cases second <;> (cases ending; exact still)

theorem found_ok {name : String} {path : Option String} (regular : Regular files)
    (loaded : Loaded disk tables ncf files) (run : findIfcfgPath augeas pathx name ncf = .ok path after) :
    Searched pathx files name ∧ path = foundPath pathx files name ∧ Loaded disk tables after files := by
  have searched := searched_of_ok regular.hwaddrs loaded run
  obtain ⟨same, still⟩ := (answers_findPath regular.hwaddrs searched).ok loaded run
  exact ⟨searched, same, still⟩

theorem listed_paths_ok {paths : List (Option String)} (regular : Regular files)
    (loaded : Loaded disk tables ncf files) (run : listIfcfgPaths augeas pathx ncf = .ok paths after) :
    (∀ name ∈ deviceNames files, Searched pathx files name) ∧ paths = (deviceNames files).map (foundPath pathx files) ∧
      Loaded disk tables after files := by
  obtain ⟨devices, one, matched, rest⟩ := bind_ok run
  obtain ⟨rfl, still⟩ := (answers_augFmtMatch _).ok loaded matched
  obtain ⟨_, two, opening, rest⟩ := bind_ok rest
  have still := (answers_getAugeas.ok still opening).2
  obtain ⟨_, three, room, rest⟩ := bind_ok rest
  have still := ((answers_attempt .nomem).ok still room).2
  obtain ⟨names, four, read, rest⟩ := bind_ok rest
  have valued : none ∉ files.config.devices fun _ => true := by
    intro missing
    obtain ⟨script, found, absent⟩ := List.mem_flatMap.mp missing
    exact regular.devices script (List.mem_of_mem_filter found) absent
  obtain ⟨rfl, still⟩ := (answers_values valued).ok still read
  obtain ⟨_, five, more, searching⟩ := bind_ok rest
  have still := ((answers_attempt .nomem).ok still more).2
  obtain ⟨last, each⟩ := mapM_ok (fun name before path later loaded run => (found_ok regular loaded run).2.2) still
    searching
  have searched : ∀ name ∈ deviceNames files, Searched pathx files name := by
    intro name listed
    obtain ⟨before, path, later, loaded, run⟩ := each name listed
    exact (found_ok regular loaded run).1
  have paths := answers_mapM fun name listed =>
    @answers_findPath _ augeas pathx disk tables files name regular.hwaddrs (searched name listed)
  exact ⟨searched, (paths.ok still searching).1, last⟩

-- Where nothing is answered that may be refused, a listing shows that there was no need to.
theorem legible_of_listed {isActive : String → Bool} {maxnames : Nat} {flags : Flags} {names : List String}
    (regular : Regular files) (loaded : Loaded disk tables ncf files)
    (run : drvListInterfaces augeas refusing isActive maxnames flags ncf = .ok names after) : Legible files := by
  obtain ⟨_, one, opening, rest⟩ := bind_ok run
  have still := (answers_getAugeas.ok loaded opening).2
  obtain ⟨tops, two, listing, _⟩ := bind_ok rest
  obtain ⟨_, three, again, rest⟩ := bind_ok listing
  have still := (answers_getAugeas.ok still again).2
  obtain ⟨paths, four, finding, rest⟩ := bind_ok rest
  obtain ⟨searched, rfl, still⟩ := listed_paths_ok regular still finding
  obtain ⟨marked, five, marking, _⟩ := bind_ok rest
  have askable : ∀ name ∈ deviceNames files, Askable files name :=
    fun name listed => askable_of_searched regular (searched name listed)
  refine ⟨askable, fun name listed place leads => ?_⟩
  have keeps : ∀ path before entry later, Loaded disk tables before files →
      (do return (path, ← isSlave augeas refusing path) : Api Scripts D (Option String × Bool)) before =
        .ok entry later → Loaded disk tables later files := by
    intro path before entry later loaded run
    obtain ⟨slave, middle, asked, ending⟩ := bind_ok run
    cases ending
    exact (isSlave_ok loaded asked).2
  obtain ⟨_, each⟩ := mapM_ok keeps still marking
  have found : foundPath refusing files name = some place.path := by
    rw [foundPath_place regular (askable name listed), leads]
    rfl
  obtain ⟨before, entry, later, loaded, run⟩ := each _ (List.mem_map_of_mem listed)
  obtain ⟨slave, middle, asked, _⟩ := bind_ok run
  exact readable_of_asked regular (leadsTo_within leads) ((isSlave_ok loaded asked).1 place.path found)

end Refused

end Netcf.RedHat
