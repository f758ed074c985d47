import Mathlib.Data.List.Sort
import Mathlib.Data.String.Basic
import Netcf.Shared.Loops
import Netcf.Linux.Listing
import Netcf.Debian.Undefine

set_option autoImplicit false

-- The interfaces that drv_list_interfaces and drv_lookup_by_name of drv_debian.c know.
namespace Netcf.Debian

open Shared.Faulty Shared.Loops Linux

variable {D : Type}

-- %s/iface
def ifaces (interfaces : Interfaces) : List Stanza :=
  interfaces.filter (·.label = "iface")

-- %s/iface/LABEL
def everyListed (interfaces : Interfaces) (label : String) : List String :=
  (ifaces interfaces).flatMap (·.values label)

def qsort (names : List String) : List String :=
  names.insertionSort (· ≤ ·)

section Driver

variable (augeas : Augeas Interfaces D)

def allSlaves : Api Interfaces D (List String) := do
  let bridgePorts ← matchedDeps augeas (everyListed · "bridge_ports")
  let bondSlaves ← matchedDeps augeas (everyListed · "bond_slaves")
  attempt .nomem
  return bridgePorts ++ bondSlaves

def isSlave (intf : String) : Api Interfaces D Bool := do
  return (← allSlaves augeas).contains intf

def strdup (name : String) : Api Interfaces D String := do
  attempt .nomem
  return name

def uniqDeviceNames (devs : List (Option String)) : Api Interfaces D (List String) := do
  getAugeas augeas
  attempt .nomem
  let devnames ← devs.mapM augGet
  attempt .nomem
  (qsort (unique devnames)).mapM strdup

def listInterfaces : Api Interfaces D (List String) := do
  let devs ← augFmtMatch augeas fun files => (ifaces files.config).map (·.value)
  let intf ← uniqDeviceNames augeas devs
  sieve (isSlave augeas) 0 intf

variable (isActive : String → Bool)

def listInterfaceIds (maxnames : Option Nat) (flags : BitVec 32) : Api Interfaces D (Nat × List String) :=
  Linux.listInterfaceIds isActive (fun name => pure (some name)) flags (listInterfaces augeas) maxnames

def drvListInterfaces (maxnames : Nat) (flags : BitVec 32) : Api Interfaces D (List String) := do
  return (← listInterfaceIds augeas isActive (some maxnames) flags).2

def drvNumOfInterfaces (flags : BitVec 32) : Api Interfaces D Nat := do
  return (← listInterfaceIds augeas isActive none flags).1

def drvLookupByName (name : String) : Api Interfaces D NetcfIf := do
  let maxnames ← listInterfaceIds augeas isActive none (ifaceActive ||| ifaceInactive)
  attempt .nomem
  let names ← listInterfaceIds augeas isActive (some maxnames.1) (ifaceActive ||| ifaceInactive)
  if names.2.contains name then
    attempt .nomem
    makeNetcfIf name
  else throw .noent

end Driver

section Answers

variable {augeas : Augeas Interfaces D} {disk : D} {tables : List (Option Entries)} {files : Files Interfaces}

def slaveNames (interfaces : Interfaces) : List String :=
  (everyListed interfaces "bridge_ports" ++ everyListed interfaces "bond_slaves").flatMap dependents

def ifaceNames (interfaces : Interfaces) : List String :=
  (ifaces interfaces).filterMap (·.value)

def topNames (interfaces : Interfaces) : List String :=
  (qsort (unique (ifaceNames interfaces))).filter fun name => !(slaveNames interfaces).contains name

theorem answers_isSlave (name : String) :
    Answers (Loaded disk tables) Calm files (isSlave augeas name) ((slaveNames files.config).contains name) := by
  have all : Answers (Loaded disk tables) Calm files (allSlaves augeas) (slaveNames files.config) := by
    rw [slaveNames, List.flatMap_append]
    exact (answers_matchedDeps _).bind ((answers_matchedDeps _).bind ((answers_attempt .nomem).bind (answers_pure _)))
  exact all.bind (answers_pure _)

-- In the Interfaces lens a stanza has a name.
def Named (interfaces : Interfaces) : Prop :=
  ∀ stanza ∈ ifaces interfaces, stanza.value.isSome = true

theorem answers_deviceNames (named : Named files.config) :
    Answers (Loaded disk tables) Calm files
      (((ifaces files.config).map (·.value)).mapM augGet : Api Interfaces D (List String)) (ifaceNames files.config) := by
  have each := @answers_mapM _ _ _ _ _ (Loaded disk tables) Calm files
    (augGet : Option String → Api Interfaces D String) (fun value => value.getD "") ((ifaces files.config).map (·.value)) (by
      intro value member
      obtain ⟨stanza, inside, rfl⟩ := List.mem_map.mp member
      obtain ⟨name, present⟩ := Option.isSome_iff_exists.mp (named stanza inside)
      rw [present]
      exact (answers_attempt .other).bind (answers_pure name))
  have same : ((ifaces files.config).map (·.value)).map (fun value => value.getD "") = ifaceNames files.config := by
    unfold ifaceNames
    rw [List.map_map, ← List.filterMap_eq_map]
    apply List.filterMap_congr
    intro stanza inside
    obtain ⟨name, present⟩ := Option.isSome_iff_exists.mp (named stanza inside)
    simp [present]
  rwa [same] at each

theorem answers_listInterfaces (named : Named files.config) :
    Answers (Loaded disk tables) Calm files (listInterfaces augeas) (topNames files.config) := by
  have names : Answers (Loaded disk tables) Calm files
      (uniqDeviceNames augeas ((ifaces files.config).map (·.value))) (qsort (unique (ifaceNames files.config))) :=
    answers_getAugeas.bind ((answers_attempt .nomem).bind ((answers_deviceNames named).bind
      ((answers_attempt .nomem).bind (answers_copies fun name => (answers_attempt .nomem).bind (answers_pure name)))))
  exact (answers_augFmtMatch _).bind (names.bind (answers_sieve fun name _ => answers_isSlave name))

theorem mem_topNames {interfaces : Interfaces} {name : String} :
    name ∈ topNames interfaces ↔
      (∃ stanza ∈ interfaces, configures name stanza = true) ∧ name ∉ slaveNames interfaces := by
  have listed : name ∈ qsort (unique (ifaceNames interfaces)) ↔
      ∃ stanza ∈ interfaces, configures name stanza = true := by
    rw [qsort, List.mem_insertionSort, mem_unique, ifaceNames, List.mem_filterMap]
    simp only [ifaces, List.mem_filter, configures, Bool.and_eq_true, decide_eq_true_eq, and_assoc]
  rw [topNames, List.mem_filter, listed]
  simp

theorem topNames_sorted (interfaces : Interfaces) : (topNames interfaces).Pairwise (· < ·) := by
  have names : (qsort (unique (ifaceNames interfaces))).Nodup :=
    (List.perm_insertionSort _ _).nodup_iff.mpr (nodup_unique _)
  have ordered : (qsort (unique (ifaceNames interfaces))).Pairwise (· ≤ ·) := List.pairwise_insertionSort _ _
  have strict := ordered.imp₂ (fun _ _ below apart => lt_of_le_of_ne below apart) names
  exact strict.sublist List.filter_sublist

section Lookup

variable {isActive : String → Bool} {ncf : Ncf Interfaces D}

theorem both_qualified (names : List String) :
    names.filter (isQualified isActive (ifaceActive ||| ifaceInactive)) = names := by
  rw [isQualified_eq, wanted_both]

-- drv_lookup_by_name up to the search in the array.
theorem lookup_run (named : Named files.config) (quiet : Quiet disk tables ncf files) (name : String) :
    ∃ middle, Quiet disk tables middle files ∧
      drvLookupByName augeas isActive name ncf =
        (if name ∈ topNames files.config then do
          attempt .nomem
          makeNetcfIf name
        else throw .noent : Api Interfaces D NetcfIf) middle := by
  have listing := @answers_listInterfaces _ augeas disk tables files named
  have counted := @answers_countNames _ _ _ _ _ isActive _ _ listing (ifaceActive ||| ifaceInactive)
  have stored := @answers_listNames _ _ _ _ _ isActive _ _ listing (ifaceActive ||| ifaceInactive)
    (topNames files.config).length
  have room : Answers (Loaded disk tables) Calm files (attempt .nomem : Api Interfaces D Unit) () :=
    answers_attempt .nomem
  rw [both_qualified] at counted
  rw [both_qualified, List.take_length] at stored
  obtain ⟨first, run₁, shown₁, calm₁⟩ := counted.runs quiet.1 quiet.2
  obtain ⟨second, run₂, shown₂, calm₂⟩ := room.runs shown₁ calm₁
  obtain ⟨third, run₃, shown₃, calm₃⟩ := stored.runs shown₂ calm₂
  refine ⟨third, ⟨shown₃, calm₃⟩, ?_⟩
  unfold drvLookupByName listInterfaceIds
  rw [bind_of_ok _ run₁, bind_of_ok _ run₂, bind_of_ok _ run₃]
  simp only [List.contains_iff_mem]

theorem lookup_listed (named : Named files.config) (quiet : Quiet disk tables ncf files) {name : String}
    (listed : name ∈ topNames files.config) :
    ∃ after, drvLookupByName augeas isActive name ncf = .ok ⟨name⟩ after := by
  obtain ⟨middle, still, run⟩ := @lookup_run _ augeas _ _ _ isActive _ named quiet name
  have made : Answers (Loaded disk tables) Calm files
      (do attempt .nomem; makeNetcfIf name : Api Interfaces D NetcfIf) ⟨name⟩ :=
    (answers_attempt .nomem).bind ((answers_attempt .nomem).bind (answers_pure _))
  rw [if_pos listed] at run
  obtain ⟨after, ran, _⟩ := made.runs still.1 still.2
  exact ⟨after, run.trans ran⟩

theorem lookup_unlisted (named : Named files.config) (quiet : Quiet disk tables ncf files) {name : String}
    (unlisted : name ∉ topNames files.config) :
    ∃ after, drvLookupByName augeas isActive name ncf = .error .noent after := by
  obtain ⟨middle, _, run⟩ := @lookup_run _ augeas _ _ _ isActive _ named quiet name
  rw [if_neg unlisted] at run
  exact ⟨middle, run⟩

theorem debian_delivers (named : Named files.config) (quiet : Quiet disk tables ncf files) :
    FilterThenTruncate (listInterfaceIds augeas isActive) (drvNumOfInterfaces augeas isActive)
      (drvListInterfaces augeas isActive) isActive (topNames files.config) ncf := by
  have listing := @answers_listInterfaces _ augeas disk tables files named
  exact filterThenTruncate quiet (fun flags maxnames => answers_listNames listing flags maxnames)
    (fun flags => answers_countNames listing flags) (fun _ => rfl) (fun _ _ => rfl)

-- The names of iface stanzas that are in no list of ports or slaves, each once and in ascending order; and these
-- are the names that can be looked up.
theorem top_level_interfaces (named : Named files.config) (quiet : Quiet disk tables ncf files) :
    (∃ names after, listInterfaces augeas ncf = .ok names after ∧ names.Pairwise (· < ·) ∧
        (∀ name, name ∈ names ↔
          (∃ stanza ∈ files.config, configures name stanza = true) ∧ name ∉ slaveNames files.config) ∧
        ∀ name, if name ∈ names then ∃ found, drvLookupByName augeas isActive name ncf = .ok ⟨name⟩ found
          else ∃ failed, drvLookupByName augeas isActive name ncf = .error .noent failed) := by
  obtain ⟨after, run, _⟩ := (@answers_listInterfaces _ augeas _ _ _ named).runs quiet.1 quiet.2
  refine ⟨topNames files.config, after, run, topNames_sorted _, fun name => mem_topNames, ?_⟩
  intro name
  by_cases listed : name ∈ topNames files.config
  · rw [if_pos listed]
    exact lookup_listed named quiet listed
  · rw [if_neg listed]
    exact lookup_unlisted named quiet listed

end Lookup

end Answers

section Examples

def office : Files Interfaces :=
  ⟨[dhcp "lo", dhcp "eth7", ⟨"iface", some "br0", [⟨"bridge_ports", "eth1 bond0"⟩]⟩, dhcp "eth7",
    ⟨"iface", some "bond0", [⟨"bond_slaves", "eth2 eth3"⟩]⟩, dhcp "eth3"], [], []⟩

theorem office_top_level :
    ∃ names after, listInterfaces direct (settled augeasXfmCommon office office) = .ok names after ∧
      names.Pairwise (· < ·) ∧
      (∀ name, name ∈ names ↔
        (∃ stanza ∈ office.config, configures name stanza = true) ∧ name ∉ slaveNames office.config) ∧
      ∀ name, if name ∈ names then
          ∃ found, drvLookupByName direct (fun _ => false) name (settled augeasXfmCommon office office) = .ok ⟨name⟩ found
        else ∃ failed, drvLookupByName direct (fun _ => false) name (settled augeasXfmCommon office office) =
          .error .noent failed :=
  top_level_interfaces (by unfold Named; decide) (quiet_settled _ _ _)

end Examples

end Netcf.Debian
