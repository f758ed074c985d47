import Netcf.RedHat.Choice

set_option autoImplicit false

-- drv_list_interfaces and drv_lookup_by_name, and what they find after drv_define.
namespace Netcf.RedHat

open Shared.Faulty Shared.Lists Linux Schema Stylesheet

structure Flags where
  active : Bool
  inactive : Bool

def bothFlags : Flags := ⟨true, true⟩

section Driver

variable {D : Type} (augeas : Augeas Scripts D) (pathx : Pathx)

-- The nodes PATH/LABEL.  An entry of a file has no nodes of the labels that are asked for.
def labelledAt (path label : String) (files : Files Scripts) : Option (List (Option String)) :=
  match scriptLabel path with
  | some name => some ((files.config.files.filter (·.name = name)).flatMap (·.values label))
  | none =>
    if withinScript path then some []
    else (pathx.find (path ++ "/" ++ label) files).map fun found => found.map (·.2)

def subifPaths : List String := ["MASTER", "BRIDGE"]

-- Without a path the expression that aug_match is given is (null)/MASTER, which it refuses.
def isSlave (path : Option String) : Api Scripts D Bool :=
  match path with
  | none => throw .other
  | some path => subifPaths.anyM fun label => do
    let found ← augFmtFind augeas (labelledAt pathx path label)
    return !found.isEmpty

def listIfcfgPaths : Api Scripts D (List (Option String)) := do
  let devices ← augFmtMatch augeas fun files => files.config.devices fun _ => true
  uniqIfcfgPaths augeas pathx devices

def listInterfaces : Api Scripts D (List (Option String)) := do
  getAugeas augeas
  let paths ← listIfcfgPaths augeas pathx
  let marked ← paths.mapM fun path => return (path, ← isSlave augeas pathx path)
  return (marked.filter fun entry => !entry.2).map (·.1)

variable (isActive : String → Bool)

def qualified (flags : Flags) (name : String) : Bool :=
  (flags.active && flags.inactive) || (isActive name && flags.active) || (!isActive name && flags.inactive)

-- The last DEVICE of a file is the name that is reported for it.
def collectIds (flags : Flags) : (maxnames : Nat) → List (Option String) → Api Scripts D (List String)
  | 0, _ => pure []
  | _, [] => pure []
  | maxnames + 1, path :: rest => do
    let found ← augFmtFind augeas (labelledAt pathx (path.getD "(null)") "DEVICE")
    match found.getLast? with
    | none => collectIds flags (maxnames + 1) rest
    | some value =>
      let name ← augGet value
      if qualified isActive flags name then
        attempt .nomem
        return name :: (← collectIds flags maxnames rest)
      else collectIds flags (maxnames + 1) rest

def drvListInterfaces (maxnames : Nat) (flags : Flags) : Api Scripts D (List String) := do
  getAugeas augeas
  let paths ← listInterfaces augeas pathx
  collectIds augeas pathx isActive flags maxnames paths

def drvLookupByName (name : String) : Api Scripts D (Option NetcfIf) := do
  getAugeas augeas
  match ← findIfcfgPath augeas pathx name with
  | none => pure none
  | some path =>
    if ← isSlave augeas pathx (some path) then pure none
    else
      attempt .nomem
      return some (← makeNetcfIf name)

end Driver

section Found

variable (pathx : Pathx) (files : Files Scripts)

def deviceNames : List String :=
  strcmpSort id ((files.config.devices fun _ => true).reduceOption.eraseDups)

def slavePath (path : String) : Bool :=
  subifPaths.any fun label => !((labelledAt pathx path label files).getD []).isEmpty

def topPaths : List (Option String) :=
  ((deviceNames files).map (foundPath pathx files)).filter fun path => !path.any (slavePath pathx files)

def reportedName (path : Option String) : Option String :=
  ((labelledAt pathx (path.getD "(null)") "DEVICE" files).getD []).getLast?.join

def listedNames (isActive : String → Bool) (flags : Flags) : List String :=
  ((topPaths pathx files).filterMap (reportedName pathx files)).filter (qualified isActive flags)

-- What is asked about a path is answered, and its DEVICE nodes have values.
structure AnsweredAt (path : String) : Prop where
  labels : ∀ label ∈ "DEVICE" :: subifPaths, (labelledAt pathx path label files).isSome = true
  valued : none ∉ (labelledAt pathx path "DEVICE" files).getD []

-- Entries have values, and nothing that is asked for a listing is refused.
structure Intact : Prop where
  devices : ∀ script ∈ files.config.files, none ∉ script.values "DEVICE"
  hwaddrs : ∀ node ∈ hwaddrs files.config, node.2.isSome = true
  searched : ∀ name ∈ deviceNames files, Searched pathx files name
  paths : ∀ name ∈ deviceNames files, ∃ path, foundPath pathx files name = some path ∧ AnsweredAt pathx files path

end Found

section Answers

variable {D : Type} {augeas : Augeas Scripts D} {pathx : Pathx} {disk : D} {tables : List (Option Entries)}
  {files : Files Scripts}

theorem mem_deviceNames {name : String} :
    name ∈ deviceNames files ↔ ∃ script ∈ files.config.files, some name ∈ script.values "DEVICE" := by
  unfold deviceNames strcmpSort Scripts.devices
  simp [List.mem_insertionSort, List.reduceOption_mem_iff]

theorem answers_values {values : List (Option String)} (present : none ∉ values) :
    Answers (Loaded disk tables) Calm files (values.mapM augGet : Api Scripts D (List String))
      values.reduceOption := by
  have each := @answers_mapM _ _ _ _ _ (Loaded disk tables) Calm files (augGet : Option String → Api Scripts D String)
    (fun value => value.getD "") values (by
      intro value member
      cases value with
      | none => exact absurd member present
      | some text => exact answers_augGet text)
  have same : values.map (fun value => value.getD "") = values.reduceOption := by
    clear each
    induction values with
    | nil => rfl
    | cons value rest ih =>
      cases value with
      | none => simp at present
      | some text =>
        have others := ih fun later => present (List.mem_cons_of_mem _ later)
        exact congrArg (text :: ·) others
  rwa [same] at each

theorem answers_present {α : Type} (query : Files Scripts → List α) :
    Answers (Loaded disk tables) Calm files
      (do
        let found ← augFmtMatch augeas query
        return !found.isEmpty)
      (!(query files).isEmpty) :=
  (answers_augFmtMatch _).bind (answers_pure _)

theorem answers_isSlave {path : String}
    (asked : ∀ label ∈ subifPaths, (labelledAt pathx path label files).isSome = true) :
    Answers (Loaded disk tables) Calm files (isSlave augeas pathx (some path)) (slavePath pathx files path) := by
  refine answers_anyM fun label listed => ?_
  obtain ⟨values, found⟩ := Option.isSome_iff_exists.mp (asked label listed)
  rw [found]
  exact (answers_augFmtFind found).bind (answers_pure _)

theorem AnsweredAt.slave {path : String} (answered : AnsweredAt pathx files path) :
    Answers (Loaded disk tables) Calm files (isSlave augeas pathx (some path)) (slavePath pathx files path) :=
  answers_isSlave fun label listed => answered.labels label (List.mem_cons_of_mem _ listed)

theorem answers_collectIds (isActive : String → Bool) (flags : Flags) (maxnames : Nat) {paths : List (Option String)}
    (answered : ∀ path ∈ paths, AnsweredAt pathx files (path.getD "(null)")) :
    Answers (Loaded disk tables) Calm files (collectIds augeas pathx isActive flags maxnames paths)
      (((paths.filterMap (reportedName pathx files)).filter (qualified isActive flags)).take maxnames) := by
  induction paths generalizing maxnames with
  | nil => cases maxnames <;> exact answers_pure _
  | cons path rest ih =>
    have later : ∀ path ∈ rest, AnsweredAt pathx files (path.getD "(null)") :=
      fun path member => answered path (List.mem_cons_of_mem _ member)
    cases maxnames with
    | zero => exact answers_pure _
    | succ room =>
      have here := answered path List.mem_cons_self
      obtain ⟨values, found⟩ := Option.isSome_iff_exists.mp (here.labels "DEVICE" List.mem_cons_self)
      have valued := here.valued
      rw [found, Option.getD_some] at valued
      refine (answers_augFmtFind found).bind ?_
      have reported : reportedName pathx files path = values.getLast?.join := by
        rw [reportedName, found, Option.getD_some]
      cases last : values.getLast? with
      | none =>
        rw [List.filterMap_cons_none (by rw [reported, last]; rfl)]
        exact ih (room + 1) later
      | some value =>
        cases value with
        | none => exact absurd (List.mem_of_getLast? last) valued
        | some name =>
          rw [List.filterMap_cons_some (show reportedName pathx files path = some name by rw [reported, last]; rfl)]
          refine (answers_augGet name).bind ?_
          cases test : qualified isActive flags name with
          | true =>
            rw [List.filter_cons_of_pos test, List.take_succ_cons]
            exact (answers_attempt .nomem).bind ((ih room later).bind (answers_pure _))
          | false =>
            rw [List.filter_cons_of_neg (by simp [test])]
            exact ih (room + 1) later

theorem Intact.valued (intact : Intact pathx files) : none ∉ files.config.devices fun _ => true := by
  intro missing
  obtain ⟨script, found, absent⟩ := List.mem_flatMap.mp missing
  exact intact.devices script (List.mem_of_mem_filter found) absent

theorem Intact.answered (intact : Intact pathx files) {path : Option String} (listed : path ∈ topPaths pathx files) :
    AnsweredAt pathx files (path.getD "(null)") := by
  obtain ⟨name, member, rfl⟩ := List.mem_map.mp (List.mem_of_mem_filter listed)
  obtain ⟨path, found, answered⟩ := intact.paths name member
  rwa [found]

theorem answers_listInterfaces (intact : Intact pathx files) :
    Answers (Loaded disk tables) Calm files (listInterfaces augeas pathx) (topPaths pathx files) := by
  have paths : Answers (Loaded disk tables) Calm files (listIfcfgPaths augeas pathx)
      ((deviceNames files).map (foundPath pathx files)) :=
    (answers_augFmtMatch _).bind (answers_getAugeas.bind ((answers_attempt .nomem).bind
      ((answers_values intact.valued).bind ((answers_attempt .nomem).bind (answers_mapM fun name member =>
        answers_findPath intact.hwaddrs (intact.searched name member))))))
  have marked := @answers_mapM _ _ _ _ _ (Loaded disk tables) Calm files
    (fun path => (do return (path, ← isSlave augeas pathx path) : Api Scripts D (Option String × Bool)))
    (fun path => (path, path.any (slavePath pathx files))) ((deviceNames files).map (foundPath pathx files)) (by
      intro path member
      obtain ⟨name, listed, rfl⟩ := List.mem_map.mp member
      obtain ⟨found, same, answered⟩ := intact.paths name listed
      rw [same]
      exact answered.slave.bind (answers_pure _))
  have same : ∀ list : List (Option String),
      ((list.map fun path => (path, path.any (slavePath pathx files))).filter fun entry => !entry.2).map (·.1) =
        list.filter fun path => !path.any (slavePath pathx files) := by
    intro list
    rw [List.filter_map, List.map_map]
    exact List.map_id _
  refine answers_getAugeas.bind (paths.bind (marked.bind ?_))
  rw [same]
  exact answers_pure _

theorem answers_drvListInterfaces (intact : Intact pathx files) (isActive : String → Bool) (flags : Flags)
    (maxnames : Nat) :
    Answers (Loaded disk tables) Calm files (drvListInterfaces augeas pathx isActive maxnames flags)
      ((listedNames pathx files isActive flags).take maxnames) :=
  answers_getAugeas.bind ((answers_listInterfaces intact).bind
    (answers_collectIds isActive flags maxnames fun _ listed => intact.answered listed))

end Answers

section Defined

variable {D : Type} {augeas : Augeas Scripts D} {machine : Machine} {pathx : Pathx} {document : Interface}
  {forest : Forest} {ncf start removed ready written saving after : Ncf Scripts D}

theorem defining_written
    (defining : Defining augeas (backend machine pathx) document forest ncf start removed ready written saving after)
    (plain : ∀ device ∈ devices document, '/' ∉ device.toList) :
    ∃ files, Saved augeas ncf files after ∧
      Written (forestOf machine document)
        ((loadedTree augeas ncf).config.removeAll (nameAttributes document).reduceOption) files.config := by
  have trees : forest = forestOf machine document := get_forest defining.transforms
  rcases (implements_rmAllInterfaces machine pathx document).ok defining.loaded defining.removes with
    ⟨cleared, clearing, shown⟩
  rw [rmModel_named clearing, rmModel_ok] at clearing
  cases clearing
  rcases (implements_augPutXml pathx forest).ok (defining.waits.loaded shown) defining.puts with
    ⟨filled, filling, shown⟩
  rcases @putForest_total pathx forest (fun tree member => forestOf_forDevice (trees ▸ member))
    (fun tree member =>
      have listed := @mem_devices document machine tree (trees ▸ member)
      devices_ordinary listed (plain _ listed)) _ with
    ⟨scripts, result, final⟩
  cases result.symm.trans filling
  obtain ⟨aliased, shown, same⟩ := bondSetup_config shown defining.aliases
  refine ⟨aliased, defining.saves shown, ?_⟩
  rw [same, ← trees]
  exact final

-- Members are slaves: of the bridge, or of a bond.
theorem memberTrees_slaves {tree : Tree} (member : tree ∈ memberTrees document) :
    tree.values "BRIDGE" ≠ [] ∨ tree.values "MASTER" ≠ [] := by
  cases member_of_memberTrees member with
  | port _ => exact Or.inl (by simp)
  | portSlave _ => exact Or.inr (by simp)
  | slave => exact Or.inr (by simp)

theorem memberTrees_devices : (memberTrees document).map Tree.device = memberDevices document := by
  have all := @forestOf_devices countModulo document
  rw [forestOf, devices, List.map_cons] at all
  exact (List.cons.inj all).2

variable {files : Files Scripts} {tree : Tree} {disk : D} {tables : List (Option Entries)}

theorem labelledAt_script (plain : Ordinary tree.device) (listed : tree.script ∈ files.config.files)
    (label : String) : labelledAt pathx (ifcfgPath tree.device) label files = some ((tree.values label).map some) := by
  rw [labelledAt, scriptLabel_ifcfgPath plain]
  change some ((files.config.files.filter fun script => decide (script.name = tree.file)).flatMap _) = _
  rw [filter_tree listed, List.flatMap_singleton, script_values]

theorem slavePath_script (plain : Ordinary tree.device) (listed : tree.script ∈ files.config.files) :
    slavePath pathx files (ifcfgPath tree.device) = true ↔ tree.values "BRIDGE" ≠ [] ∨ tree.values "MASTER" ≠ [] := by
  simp [slavePath, subifPaths, labelledAt_script plain listed, or_comm]

theorem answers_makeNetcfIf (name : String) :
    Answers (Loaded disk tables) Calm files (makeNetcfIf name : Api Scripts D NetcfIf) ⟨name⟩ :=
  (answers_attempt .nomem).bind (answers_pure _)

theorem answers_drvLookupByName (plain : Ordinary tree.device) (listed : tree.script ∈ files.config.files) :
    Answers (Loaded disk tables) Calm files (drvLookupByName augeas pathx tree.device)
      (if slavePath pathx files (ifcfgPath tree.device) then none else some ⟨tree.device⟩) := by
  refine answers_getAugeas.bind ((answers_findIfcfgPath (count_tree plain listed)).bind ?_)
  refine (answers_isSlave fun label _ => by rw [labelledAt_script plain listed]; rfl).bind ?_
  cases slavePath pathx files (ifcfgPath tree.device) with
  | true => exact answers_pure _
  | false =>
    exact (answers_attempt .nomem).bind ((answers_makeNetcfIf tree.device).bind (answers_pure _))

end Defined

end Netcf.RedHat
