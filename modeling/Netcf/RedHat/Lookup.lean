import Netcf.Shared.Siblings
import Netcf.RedHat.Replace

set_option autoImplicit false

-- What aug_get_xml_for_nif reads from a tree that holds the files of a forest and no other files
-- about its devices.
namespace Netcf.RedHat

open Shared.Faulty Shared.Lists Linux

structure Occupied (scripts : Scripts) (forest : Forest) : Prop where
  fits : ∀ tree ∈ forest, tree.ForDevice tree.device
  plain : ∀ tree ∈ forest, Ordinary tree.device
  distinct : (forest.map Tree.device).Nodup
  files : ∃ kept, scripts.files = kept ++ forest.map Tree.script ∧
    ∀ script ∈ kept, ∀ tree ∈ forest, ∀ label ∈ ["DEVICE", "BRIDGE", "MASTER"],
      script.has label tree.device = false

-- Every file of the forest leads back to the root.
structure Rooted (forest : Forest) (root : String) : Prop where
  listed : ∃ tree ∈ forest, tree.device = root
  joined : ∀ tree ∈ forest, tree.device = root ∨ root ∈ tree.values "BRIDGE" ∨ root ∈ tree.values "MASTER" ∨
    ∃ port ∈ forest, root ∈ port.values "BRIDGE" ∧ port.device ∈ tree.values "MASTER"

theorem script_values (tree : Tree) (label : String) :
    tree.script.values label = (tree.values label).map some := by
  simp only [Script.values, Tree.script, Tree.values, labelled, List.filter_map, List.map_map]
  rfl

theorem script_has {tree : Tree} {label value : String} :
    tree.script.has label value = true ↔ value ∈ tree.values label := by
  rw [has_iff, script_values]
  simp

section Related

variable {scripts : Scripts} {forest : Forest} {root : String}

theorem Occupied.listed (occupied : Occupied scripts forest) {tree : Tree} (member : tree ∈ forest) :
    tree.script ∈ scripts.files := by
  obtain ⟨kept, files, _⟩ := occupied.files
  rw [files]
  exact List.mem_append_right _ (List.mem_map_of_mem member)

theorem related_forest (occupied : Occupied scripts forest) (rooted : Rooted forest root) {tree : Tree}
    (member : tree ∈ forest) : scripts.related root tree.script = true := by
  rw [related_iff, script_has, script_has, script_has, belowPort_iff]
  rcases rooted.joined tree member with rfl | bridge | master | ⟨port, listed, bridge, master⟩
  · left
    rw [(occupied.fits tree member).devices]
    exact List.mem_singleton_self _
  · exact Or.inr (Or.inl bridge)
  · exact Or.inr (Or.inr (Or.inl master))
  · refine Or.inr (Or.inr (Or.inr ⟨port.script, occupied.listed listed, script_has.mpr bridge, some port.device,
      ?_, ?_⟩))
    · rw [script_values, (occupied.fits port listed).devices]
      exact List.mem_singleton_self _
    · rw [script_values]
      exact List.mem_map_of_mem master

-- A file of some other device is no slave of the root's ports either: only files of the forest have
-- the root as their bridge.
theorem Occupied.outside (occupied : Occupied scripts forest) (listed : ∃ tree ∈ forest, tree.device = root) :
    ∃ kept, scripts.files = kept ++ forest.map Tree.script ∧
      ∀ script ∈ kept, scripts.related root script = false := by
  obtain ⟨kept, files, apart⟩ := occupied.files
  obtain ⟨top, inside, rfl⟩ := listed
  refine ⟨kept, files, ?_⟩
  intro script member
  have none_has := apart script member top inside
  rw [← Bool.not_eq_true, related_iff, belowPort_iff]
  rintro (here | here | here | ⟨port, around, bridge, value, device, master⟩)
  · rw [none_has "DEVICE" (by simp)] at here
    cases here
  · rw [none_has "BRIDGE" (by simp)] at here
    cases here
  · rw [none_has "MASTER" (by simp)] at here
    cases here
  · rw [files, List.mem_append] at around
    rcases around with old | new
    · rw [apart port old top inside "BRIDGE" (by simp)] at bridge
      cases bridge
    · obtain ⟨tree, within, rfl⟩ := List.mem_map.mp new
      rw [script_values, (occupied.fits tree within).devices] at device
      rw [List.map_singleton, List.mem_singleton] at device
      have holds := has_iff.mpr (device ▸ master)
      rw [apart script member tree within "MASTER" (by simp)] at holds
      cases holds

theorem filter_related (occupied : Occupied scripts forest) (rooted : Rooted forest root) :
    scripts.files.filter (scripts.related root) = forest.map Tree.script := by
  obtain ⟨kept, files, outside⟩ := occupied.outside rooted.listed
  have first : kept.filter (scripts.related root) = [] := by
    rw [List.filter_eq_nil_iff]
    intro script member
    simp [outside script member]
  have second : (forest.map Tree.script).filter (scripts.related root) = forest.map Tree.script := by
    rw [List.filter_eq_self]
    intro script member
    obtain ⟨tree, inside, rfl⟩ := List.mem_map.mp member
    exact related_forest occupied rooted inside
  rw [files, List.filter_append, first, second, List.nil_append]

theorem devices_filtered {p : Script → Bool} (fits : ∀ tree ∈ forest, tree.ForDevice tree.device)
    (filtered : scripts.files.filter p = forest.map Tree.script) :
    scripts.devices p = (forest.map Tree.device).map some := by
  rw [Scripts.devices, filtered]
  have one : ∀ tree ∈ forest, tree.script.values "DEVICE" = [some tree.device] := by
    intro tree member
    rw [script_values, (fits tree member).devices, List.map_singleton]
  rw [List.flatMap_map, List.flatMap_congr one, ← List.map_eq_flatMap, List.map_map]
  rfl

end Related

section Shown

theorem shown_of_nodup {script : Script} (distinct : (script.entries.map (·.label)).Nodup) :
    script.shown = script.entries.map fun entry => (entry.label, entry) := by
  rw [show script.shown = Shared.Siblings.numbered Entry.label script.entries from rfl,
    Shared.Siblings.numbered_of_nodup distinct]

end Shown

section Answers

variable {D : Type} {augeas : Augeas Scripts D} {pathx : Pathx} {disk : D} {tables : List (Option Entries)}
  {files : Files Scripts}

theorem answers_augGet (text : String) :
    Answers (Loaded disk tables) Calm files (augGet (some text) : Api Scripts D String) text :=
  (answers_attempt .other).bind (answers_pure text)

-- The first place that find_ifcfg_path looks in is the file of that name.
theorem answers_findIfcfgPath {name : String} (once : pathx.count (ifcfgPath name) files = some 1) :
    Answers (Loaded disk tables) Calm files (findIfcfgPath augeas pathx name) (some (ifcfgPath name)) := by
  refine answers_getAugeas.bind ((answers_attempt .nomem).bind (((implements_augMatch _).answers rfl).bind ?_))
  refine (answers_refusable once).bind ?_
  rw [if_pos rfl]
  exact answers_pure _

theorem answers_uniqIfcfgPaths {names : List String} (distinct : names.Nodup)
    (once : ∀ name ∈ names, pathx.count (ifcfgPath name) files = some 1) :
    Answers (Loaded disk tables) Calm files (uniqIfcfgPaths augeas pathx (names.map some))
      ((strcmpSort id names).map fun name => some (ifcfgPath name)) := by
  have values : Answers (Loaded disk tables) Calm files
      ((names.map some).mapM augGet : Api Scripts D (List String)) names := by
    have each := @answers_mapM _ _ _ _ _ (Loaded disk tables) Calm files (augGet : Option String → Api Scripts D String)
      (fun value => value.getD "") (names.map some) (by
        intro value member
        obtain ⟨name, _, rfl⟩ := List.mem_map.mp member
        exact answers_augGet name)
    simpa [Function.comp_def] using each
  refine answers_getAugeas.bind ((answers_attempt .nomem).bind (values.bind ((answers_attempt .nomem).bind ?_)))
  rw [eraseDups_of_nodup distinct]
  apply answers_mapM
  intro name member
  exact answers_findIfcfgPath (once name ((List.mem_insertionSort _).mp member))

theorem answers_augGetTree {path : String} {nodes : List Node}
    (children : pathx.children path files = some (nodes.map fun node => (node.label, some node.value))) :
    Answers (Loaded disk tables) Calm files (augGetTree augeas pathx (some path)) ⟨path, nodes⟩ := by
  have found := @answers_augFmtFind _ _ disk tables files _ augeas _ _ _ children
  have each := @answers_mapM _ _ _ _ _ (Loaded disk tables) Calm files
    (fun node : String × Option String => (do
      attempt .other
      return (⟨node.1, node.2.getD ""⟩ : Node) : Api Scripts D Node))
    (fun node => ⟨node.1, node.2.getD ""⟩) (nodes.map fun node => (node.label, some node.value))
    (fun node _ => (answers_attempt .other).bind (answers_pure _))
  have same : (nodes.map fun node => (node.label, some node.value)).map
      (fun node : String × Option String => (⟨node.1, node.2.getD ""⟩ : Node)) = nodes := by
    rw [List.map_map]
    exact List.map_id nodes
  rw [same] at each
  exact found.bind (each.bind (answers_pure _))

end Answers

section Reading

variable {D : Type} {augeas : Augeas Scripts D} {pathx : Pathx} {disk : D} {tables : List (Option Entries)}
  {files : Files Scripts} {forest : Forest} {root : String}

theorem filter_tree {tree : Tree} (listed : tree.script ∈ files.config.files) :
    files.config.files.filter (fun script => decide (script.name = tree.file)) = [tree.script] :=
  filter_unique files.config.distinct listed

theorem count_tree {tree : Tree} (plain : Ordinary tree.device) (listed : tree.script ∈ files.config.files) :
    pathx.count (ifcfgPath tree.device) files = some 1 := by
  rw [Pathx.count, scriptLabel_ifcfgPath plain]
  change some (files.config.files.countP fun script => decide (script.name = tree.file)) = some 1
  rw [List.countP_eq_length_filter, filter_tree listed]
  rfl

theorem children_script {tree : Tree} (fits : tree.ForDevice tree.device) (plain : Ordinary tree.device)
    (listed : tree.script ∈ files.config.files) :
    pathx.children (ifcfgPath tree.device) files =
      some (tree.nodes.map fun node => (node.label, some node.value)) := by
  have distinct : (tree.script.entries.map (·.label)).Nodup := by
    have labels := fits.labels
    simpa [Tree.script, Tree.labels, Function.comp_def, Node.entry] using labels
  rw [Pathx.children, scriptLabel_ifcfgPath plain]
  change some ((files.config.files.filter fun script => decide (script.name = tree.file)).flatMap _) = _
  rw [filter_tree listed, List.flatMap_singleton, shown_of_nodup distinct]
  simp [Tree.script, Function.comp_def, Node.entry]

theorem strcmpSort_devices (forest : Forest) :
    strcmpSort id (forest.map Tree.device) = (strcmpSort Tree.device forest).map Tree.device := by
  rw [strcmpSort, strcmpSort]
  exact (List.map_insertionSort _ _ Tree.device forest fun _ _ _ _ => Iff.rfl).symm

-- The forest comes back in the order of its device names, wherever its files stand among the others.
theorem answers_related (fits : ∀ tree ∈ forest, tree.ForDevice tree.device)
    (plain : ∀ tree ∈ forest, Ordinary tree.device) (distinct : (forest.map Tree.device).Nodup)
    (listed : ∀ tree ∈ forest, tree.script ∈ files.config.files)
    (related : files.config.files.filter (files.config.related root) = forest.map Tree.script) :
    Answers (Loaded disk tables) Calm files (augGetXmlForNif augeas pathx ⟨root⟩)
      (strcmpSort Tree.device forest) := by
  have found := @answers_augFmtMatch _ _ disk tables files _ augeas _
    (fun files => files.config.devices (files.config.related root))
  rw [devices_filtered fits related] at found
  have once : ∀ name ∈ forest.map Tree.device, pathx.count (ifcfgPath name) files = some 1 := by
    intro name member
    obtain ⟨tree, inside, rfl⟩ := List.mem_map.mp member
    exact count_tree (plain tree inside) (listed tree inside)
  have paths := @answers_uniqIfcfgPaths _ augeas pathx disk tables files _ distinct once
  rw [strcmpSort_devices, @List.map_map _ _ _ _ Tree.device (strcmpSort Tree.device forest)] at paths
  have trees := @answers_mapM _ _ _ _ _ (Loaded disk tables) Calm files
    (fun tree : Tree => augGetTree augeas pathx (some (ifcfgPath tree.device))) id (strcmpSort Tree.device forest) (by
      intro tree member
      have inside := (List.mem_insertionSort _).mp member
      have answer := @answers_augGetTree _ augeas pathx disk tables _ _ _
        (children_script (fits tree inside) (plain tree inside) (listed tree inside))
      rwa [← (fits tree inside).path] at answer ⊢)
  rw [List.map_id] at trees
  refine found.bind (paths.bind (answers_getAugeas.bind ?_))
  rw [List.mapM_map]
  exact trees

theorem answers_augGetXmlForNif (occupied : Occupied files.config forest) (rooted : Rooted forest root) :
    Answers (Loaded disk tables) Calm files (augGetXmlForNif augeas pathx ⟨root⟩)
      (strcmpSort Tree.device forest) :=
  answers_related occupied.fits occupied.plain occupied.distinct (fun _ => occupied.listed)
    (filter_related occupied rooted)

end Reading

end Netcf.RedHat
