import Netcf.Lenses.Saving
import Netcf.RedHat.Arrangement
import Netcf.RedHat.Listing
import Netcf.RedHat.Tracking
import Netcf.Shared.Shelf

set_option autoImplicit false

-- The driver as a store of documents: over whole runs the files in network-scripts are those of the
-- documents that have been defined and not been undefined since, and each of them is described as such.
namespace Netcf.RedHat

open Shared.Faulty Shared.Simulation Shared.Shelf Schema Stylesheet Linux

-- Files that belong together: those of a document, or one by itself that the driver has not written.
inductive Item
  | document (document : Interface)
  | file (tree : Tree)

def Item.root : Item → String
  | .document source => rootDevice source
  | .file own => own.device

def Item.devices : Item → List String
  | .document source => RedHat.devices source
  | .file own => [own.device]

def Item.trees (machine : Machine) : Item → Forest
  | .document source => forestOf machine source
  | .file own => [own]

def Item.scripts (machine : Machine) (item : Item) : List Script :=
  (item.trees machine).map Tree.script

-- The file of a device that is no port and no slave.  Its name stands for itself in path expressions,
-- between quotes too.
structure Tree.Alone (tree : Tree) : Prop where
  fits : tree.ForDevice tree.device
  plain : Ordinary tree.device
  unquoted : '\'' ∉ tree.device.toList
  bridge : tree.values "BRIDGE" = []
  master : tree.values "MASTER" = []

def Item.Proper : Item → Prop
  | .document source => Definable source
  | .file own => own.Alone

section Items

variable {machine : Machine} {document : Interface} {item : Item} {tree : Tree}

theorem forDevice_item (proper : item.Proper) (member : tree ∈ item.trees machine) : tree.ForDevice tree.device := by
  cases item with
  | document document => exact forestOf_forDevice member
  | file own => exact List.mem_singleton.mp member ▸ Tree.Alone.fits proper

theorem trees_devices (machine : Machine) (item : Item) : (item.trees machine).map Tree.device = item.devices := by
  cases item with
  | document document => exact forestOf_devices
  | file own => rfl

theorem device_item (member : tree ∈ item.trees machine) : tree.device ∈ item.devices := by
  rw [← trees_devices machine]
  exact List.mem_map_of_mem member

theorem plain_item (proper : item.Proper) {device : String} (listed : device ∈ item.devices) : Ordinary device := by
  cases item with
  | document document => exact devices_ordinary listed (Definable.devices_plain proper listed)
  | file own => exact List.mem_singleton.mp listed ▸ Tree.Alone.plain proper

theorem root_listed (item : Item) : item.root ∈ item.devices := by
  cases item with
  | document document => exact List.mem_cons_self
  | file own => exact List.mem_singleton_self _

theorem nodup_item (proper : item.Proper) : item.devices.Nodup := by
  cases item with
  | document document => exact Definable.devices_nodup proper
  | file own => exact List.nodup_singleton _

theorem rooted_item (machine : Machine) (item : Item) : Rooted (item.trees machine) item.root := by
  cases item with
  | document document => exact forestOf_rooted machine document
  | file own =>
    refine ⟨⟨own, List.mem_singleton_self _, rfl⟩, fun tree member => Or.inl ?_⟩
    rw [List.mem_singleton.mp member]
    rfl

theorem portDevice_listed {common : Common} {name : DeviceName} {hub : BridgeElement} {port : Port}
    (listed : port ∈ hub.ports) : Port.device port ∈ devices (.bridge common name hub) :=
  List.mem_cons_of_mem _ (List.mem_flatMap.mpr ⟨port, listed, List.mem_cons_self⟩)

-- The files of a document name no devices but its own.
theorem forestOf_closed (member : tree ∈ forestOf machine document) {label value : String}
    (listed : label ∈ ["BRIDGE", "MASTER"]) (named : value ∈ tree.values label) : value ∈ devices document := by
  rcases List.mem_cons.mp member with rfl | inMembers
  · rw [rootTree_free listed] at named
    cases named
  simp only [List.mem_cons, List.not_mem_nil, or_false] at listed
  cases member_of_memberTrees inMembers with
  | @port common name hub port inHub =>
    rcases listed with rfl | rfl
    · rw [portTree_bridge, List.mem_singleton] at named
      rw [named]
      exact List.mem_cons_self
    · rw [portTree_master] at named
      cases named
  | @portSlave common name hub team slave inHub =>
    rcases listed with rfl | rfl
    · rw [slaveTree_other team.name slave (by simp)] at named
      cases named
    · rw [slaveTree_master, List.mem_singleton] at named
      rw [named]
      exact portDevice_listed inHub
  | @slave common team slave =>
    rcases listed with rfl | rfl
    · rw [slaveTree_other team.name slave (by simp)] at named
      cases named
    · rw [slaveTree_master, List.mem_singleton] at named
      rw [named]
      exact List.mem_cons_self

theorem closed_item (proper : item.Proper) (member : tree ∈ item.trees machine) {label value : String}
    (listed : label ∈ ["DEVICE", "BRIDGE", "MASTER"]) (named : value ∈ tree.values label) : value ∈ item.devices := by
  rcases List.mem_cons.mp listed with rfl | other
  · rw [(forDevice_item proper member).devices, List.mem_singleton] at named
    rw [named]
    exact device_item member
  cases item with
  | document document => exact forestOf_closed member other named
  | file own =>
    rw [List.mem_singleton.mp member] at named
    rcases List.mem_cons.mp other with rfl | last
    · rw [Tree.Alone.bridge proper] at named
      cases named
    · rw [List.mem_singleton.mp last, Tree.Alone.master proper] at named
      cases named

-- Only a port has a bridge, and it has no master.
theorem port_of_bridge {port : Tree} (proper : item.Proper) (member : port ∈ item.trees machine) {bridge : String}
    (named : bridge ∈ port.values "BRIDGE") : port.values "BRIDGE" = [bridge] ∧ port.values "MASTER" = [] := by
  cases item with
  | file own =>
    rw [List.mem_singleton.mp member, Tree.Alone.bridge proper] at named
    cases named
  | document document =>
    rcases List.mem_cons.mp member with rfl | inMembers
    · rw [rootTree_free (by simp)] at named
      cases named
    cases member_of_memberTrees inMembers with
    | @port common name hub port inHub =>
      rw [portTree_bridge, List.mem_singleton] at named
      exact ⟨by rw [portTree_bridge, named], portTree_master common name port⟩
    | @portSlave common name hub team slave inHub =>
      rw [slaveTree_other team.name slave (by simp)] at named
      cases named
    | @slave common team slave =>
      rw [slaveTree_other team.name slave (by simp)] at named
      cases named

-- All files but that of the root are those of ports and slaves.
theorem slave_item (proper : item.Proper) (member : tree ∈ item.trees machine) :
    tree.values "BRIDGE" ≠ [] ∨ tree.values "MASTER" ≠ [] ↔ tree.device ≠ item.root := by
  cases item with
  | file own =>
    rw [List.mem_singleton.mp member, Tree.Alone.bridge proper, Tree.Alone.master proper]
    simp [Item.root]
  | document document =>
    have root := (rootTree_forDevice (addressNodes_labels machine document.common.addressing) document).device
    rcases List.mem_cons.mp member with rfl | inMembers
    · rw [rootTree_free (by simp), rootTree_free (by simp)]
      simp [Item.root, root]
    · have alone := (List.nodup_cons.mp (Definable.devices_nodup proper)).1
      refine iff_of_true (memberTrees_slaves inMembers) fun same => alone ?_
      rw [← memberTrees_devices]
      exact List.mem_map.mpr ⟨tree, inMembers, same⟩

end Items

section Families

variable {machine : Machine} {item : Item} {shelf : List Item} {scripts : Scripts}

structure Stocked (machine : Machine) (shelf : List Item) (scripts : Scripts) : Prop where
  files : scripts.files = shelf.flatMap (Item.scripts machine)
  proper : ∀ item ∈ shelf, item.Proper
  apart : Apart Item.devices shelf

theorem mem_scripts {script : Script} :
    script ∈ item.scripts machine ↔ ∃ tree ∈ item.trees machine, tree.script = script :=
  List.mem_map

theorem Stocked.listed (stocked : Stocked machine shelf scripts) (member : item ∈ shelf) {tree : Tree}
    (inside : tree ∈ item.trees machine) : tree.script ∈ scripts.files := by
  rw [stocked.files]
  exact List.mem_flatMap.mpr ⟨item, member, List.mem_map_of_mem inside⟩

theorem Stocked.source (stocked : Stocked machine shelf scripts) {script : Script} (member : script ∈ scripts.files) :
    ∃ item ∈ shelf, ∃ tree ∈ item.trees machine, tree.script = script := by
  rw [stocked.files] at member
  obtain ⟨item, listed, inside⟩ := List.mem_flatMap.mp member
  exact ⟨item, listed, mem_scripts.mp inside⟩

-- A file is related to the devices of its own item only.
theorem Stocked.unrelated (stocked : Stocked machine shelf scripts) (member : item ∈ shelf) {tree : Tree}
    (inside : tree ∈ item.trees machine) {name : String} (other : name ∉ item.devices) :
    scripts.related name tree.script = false := by
  have proper := stocked.proper item member
  rw [← Bool.not_eq_true, related_iff, script_has, script_has, script_has, belowPort_iff]
  rintro (here | here | here | ⟨port, around, bridge, value, device, master⟩)
  · exact other (closed_item proper inside (by simp) here)
  · exact other (closed_item proper inside (by simp) here)
  · exact other (closed_item proper inside (by simp) here)
  · obtain ⟨owner, listed, top, within, rfl⟩ := stocked.source around
    rw [script_values, (forDevice_item (stocked.proper owner listed) within).devices, List.map_singleton,
      List.mem_singleton] at device
    rw [device, script_values] at master
    obtain ⟨enslaver, named, same⟩ := List.mem_map.mp master
    rw [Option.some.inj same] at named
    have shared := closed_item proper inside (by simp) named
    have same := stocked.apart.same listed member (device_item within) shared
    exact other (same ▸ closed_item (stocked.proper owner listed) within (by simp) (script_has.mp bridge))

end Families

section Removal

variable {machine : Machine} {item : Item} {shelf : List Item} {scripts : Scripts}

-- A slave of a bridge's bonded port goes with the bridge, whichever of the two files is removed first.
theorem removeAll_below {names : List String} {root bonded : String} {port slave : Script}
    (portDevice : port.values "DEVICE" = [some bonded]) (portBridge : port.values "BRIDGE" = [some root])
    (portMaster : port.values "MASTER" = []) (slaveMaster : slave.has "MASTER" bonded = true)
    (present : port ∈ scripts.files) (wanted : root ∈ names) : slave ∉ (scripts.removeAll names).files := by
  induction names generalizing scripts with
  | nil => cases wanted
  | cons name rest ih =>
    intro left
    have early := mem_remove.mp (removeAll_subset rest left)
    have unrelated := early.2
    rw [← Bool.not_eq_true, related_iff, belowPort_iff] at unrelated
    have other : root ≠ name := by
      rintro rfl
      refine unrelated (Or.inr (Or.inr (Or.inr ⟨port, present, has_iff.mpr ?_, some bonded, ?_, has_iff.mp slaveMaster⟩)))
      · rw [portBridge]
        exact List.mem_singleton_self _
      · rw [portDevice]
        exact List.mem_singleton_self _
    have stays : port ∈ (scripts.removeRelated name).files := by
      refine mem_remove.mpr ⟨present, ?_⟩
      rw [← Bool.not_eq_true, related_iff, has_iff, has_iff, has_iff, belowPort_iff, portDevice, portBridge, portMaster]
      rintro (device | bridge | master | ⟨_, _, _, _, _, master⟩)
      · rw [List.mem_singleton, Option.some.injEq] at device
        rw [device] at unrelated
        exact unrelated (Or.inr (Or.inr (Or.inl slaveMaster)))
      · rw [List.mem_singleton, Option.some.injEq] at bridge
        exact other bridge.symm
      · cases master
      · cases master
    exact ih stays ((List.mem_cons.mp wanted).resolve_left other) left

theorem Stocked.removes (stocked : Stocked machine shelf scripts) (member : item ∈ shelf) {names : List String}
    (wanted : item.root ∈ names) {tree : Tree} (inside : tree ∈ item.trees machine) :
    tree.script ∉ (scripts.removeAll names).files := by
  have proper := stocked.proper item member
  have free {label : String} (left : tree.script ∈ (scripts.removeAll names).files)
      (listed : label ∈ ["DEVICE", "BRIDGE", "MASTER"]) : item.root ∉ tree.values label := by
    intro named
    rw [← script_has, removeAll_free left wanted listed] at named
    cases named
  intro left
  rcases (rooted_item machine item).joined tree inside with device | bridge | master | ⟨port, listed, bridge, master⟩
  · refine @free "DEVICE" left (by simp) ?_
    rw [(forDevice_item proper inside).devices]
    exact device ▸ List.mem_singleton_self _
  · exact free left (by simp) bridge
  · exact free left (by simp) master
  · obtain ⟨bridges, masters⟩ := port_of_bridge proper listed bridge
    refine removeAll_below ?_ ?_ ?_ (script_has.mpr master) (stocked.listed member listed) wanted left
    · rw [script_values, (forDevice_item proper listed).devices, List.map_singleton]
    · rw [script_values, bridges, List.map_singleton]
    · rw [script_values, masters, List.map_nil]

theorem Stocked.keeps (stocked : Stocked machine shelf scripts) (member : item ∈ shelf) {names : List String}
    (apart : item.devices.Disjoint names) {tree : Tree} (inside : tree ∈ item.trees machine) :
    tree.script ∈ (scripts.removeAll names).files :=
  removeAll_keeps (stocked.listed member inside) fun _ listed =>
    stocked.unrelated member inside fun own => apart own listed

theorem Stocked.removeAll (stocked : Stocked machine shelf scripts) {names : List String}
    (whole : ∀ item ∈ shelf, item.root ∈ names ∨ item.devices.Disjoint names) :
    Stocked machine (shelf.filter fun item => item.root ∉ names) (scripts.removeAll names) where
  files := by
    obtain ⟨kept, files⟩ := removeAll_filter scripts names
    have stays : ∀ script ∈ scripts.files, kept script = true ↔ script ∈ (scripts.removeAll names).files := by
      intro script member
      rw [files, List.mem_filter]
      exact (and_iff_right member).symm
    rw [files, stocked.files, List.filter_flatMap, flatMap_filter]
    refine List.flatMap_congr fun item member => ?_
    by_cases gone : item.root ∈ names
    · rw [if_neg (by simp [gone]), List.filter_eq_nil_iff]
      intro script inside
      obtain ⟨tree, within, rfl⟩ := mem_scripts.mp inside
      rw [stays _ (stocked.listed member within)]
      exact stocked.removes member gone within
    · rw [if_pos (by simp [gone]), List.filter_eq_self]
      intro script inside
      obtain ⟨tree, within, rfl⟩ := mem_scripts.mp inside
      rw [stays _ (stocked.listed member within)]
      exact stocked.keeps member ((whole item member).resolve_left gone) within
  proper item member := stocked.proper item (List.mem_of_mem_filter member)
  apart := apart_filter stocked.apart _

theorem Stocked.shelve {document : Interface} {changed : Scripts} (stocked : Stocked machine shelf scripts)
    (definable : Definable document) (fits : Fits Item.root Item.devices (.document document) shelf)
    (files : changed.files = ((scripts.removeAll (devices document)).files.filter
      fun script => !decide (script.name ∈ (forestOf machine document).map Tree.file)) ++
        (forestOf machine document).map Tree.script) :
    Stocked machine (Shared.Shelf.shelve Item.root Item.devices (.document document) shelf) changed := by
  have left := stocked.removeAll fits
  refine ⟨?_, ?_, apart_shelve stocked.apart fits⟩
  · have other : (scripts.removeAll (devices document)).files.filter
        (fun script => !decide (script.name ∈ (forestOf machine document).map Tree.file)) =
          (scripts.removeAll (devices document)).files := by
      rw [List.filter_eq_self]
      intro script member
      obtain ⟨owner, listed, tree, inside, rfl⟩ := left.source member
      obtain ⟨stays, apart⟩ := List.mem_filter.mp listed
      rw [Bool.not_eq_true', decide_eq_false_iff_not]
      intro named
      obtain ⟨new, within, same⟩ := List.mem_map.mp named
      have device : new.device = tree.device := file_injective same
      have disjoint := (fits owner stays).resolve_left (by simpa using apart)
      exact disjoint (device_item inside) (device ▸ mem_devices within)
    rw [files, other, Shared.Shelf.shelve, List.flatMap_append, List.flatMap_singleton]
    exact congrArg (· ++ _) left.files
  · intro found member
    rcases List.mem_append.mp member with old | new
    · exact left.proper found old
    · rw [List.mem_singleton.mp new]
      exact definable

theorem Stocked.discard (stocked : Stocked machine shelf scripts) {name : String}
    (whole : Whole Item.root Item.devices name shelf) :
    Stocked machine (Shared.Shelf.discard Item.root name shelf) (scripts.removeRelated name) := by
  have left := @Stocked.removeAll machine shelf scripts stocked [name] fun item member => by
    by_cases own : name ∈ item.devices
    · exact Or.inl (List.mem_singleton.mpr (whole item member own))
    · refine Or.inr fun device listed same => own ?_
      rwa [← List.mem_singleton.mp same]
  have same : (shelf.filter fun item => item.root ∉ [name]) = Shared.Shelf.discard Item.root name shelf := by
    simp [Shared.Shelf.discard]
  rw [same] at left
  exact left

end Removal

end Netcf.RedHat
