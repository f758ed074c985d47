import Netcf.Debian.Storage
import Netcf.Debian.Protocols

set_option autoImplicit false

-- The auto stanzas: which interfaces they name, and what becomes of them when an interface is described
-- or removed.
namespace Netcf.Debian

open Shared Shared.Faulty Linux Schema Stylesheet

variable {D : Type} {augeas : Augeas Interfaces D} {disk : D} {tables : List (Option Entries)}
  {files : Files Interfaces} {name : String}

def Stanza.names (stanza : Stanza) : List String :=
  stanza.entries.map (·.value)

def Started (interfaces : Interfaces) (name : String) : Prop :=
  ∃ stanza ∈ interfaces, stanza.label = "auto" ∧ name ∈ stanza.names

instance (interfaces : Interfaces) (name : String) : Decidable (Started interfaces name) :=
  inferInstanceAs (Decidable (∃ stanza ∈ interfaces, _))

theorem started_auto {interfaces : Interfaces} (started : Started interfaces name) : hasAuto interfaces = true := by
  obtain ⟨stanza, member, label, _⟩ := started
  exact List.any_eq_true.mpr ⟨stanza, member, by simpa using label⟩

section Description

def startMode : Xml → Option String
  | .element name attributes _ => if name = "start" then attributes.lookup "mode" else none

def startModes : Xml → List String
  | .element _ _ children => children.filterMap startMode

theorem startModes_iface (machine : Machine) (tree : Tree) (siblings : List Element) (element : Element) :
    startModes (iface machine tree siblings element) =
      [if (autoNodes tree).any fun node => element.key = some node.value then "onboot" else "none"] := by
  have protocols : (protocol machine siblings element).filterMap startMode = [] := by
    rw [List.filterMap_eq_nil_iff]
    intro child member
    obtain ⟨family, content, rfl⟩ := protocol_protocols member
    rfl
  have misc : (ifacemisc element).filterMap startMode = [] := by
    unfold ifacemisc
    cases element.value? "mtu" <;> split <;> rfl
  have device : (bridge siblings element).filterMap startMode = [] ∧ (bond element).filterMap startMode = [] ∧
      (vlan element).filterMap startMode = [] := by
    unfold bridge bond vlan
    cases element.value? "bridge_ports" <;> cases element.value? "bond_slaves" <;>
      cases element.value? "vlan_raw_device" <;> exact ⟨rfl, rfl, rfl⟩
  have start : startMode (ifacestart tree element) =
      some (if (autoNodes tree).any fun node => element.key = some node.value then "onboot" else "none") := rfl
  rw [iface, startModes, List.filterMap_cons_some start]
  simp only [List.filterMap_append, misc, protocols, device, List.append_nil]

theorem description_start (machine : Machine) (present : configured files.config name ≠ []) :
    (put machine (readForest files.config name)).flatMap startModes =
      [if hasAuto files.config then "onboot" else "none"] := by
  rcases found : configured files.config name with _ | ⟨stanza, rest⟩
  · exact absurd found present
  have first : (visited files.config name).flatMap (readIntf files.config) =
      ⟨some name, shown stanza⟩ :: (rest.map (fun stanza => ⟨some name, shown stanza⟩) ++
        (visited files.config name).tail.flatMap (readIntf files.config)) := by
    rw [visited, List.flatMap_cons, List.tail_cons, readIntf, found]
    rfl
  rw [readForest, first]
  generalize rest.map (fun stanza => (⟨some name, shown stanza⟩ : Element)) ++
    (visited files.config name).tail.flatMap (readIntf files.config) = others
  have arrays : ∀ tree : Tree, tree.path = networkInterfacesPath →
      tree.arrays.filter (·.label = "iface") = [⟨"iface", ⟨some name, shown stanza⟩ :: others⟩] →
      (put machine [tree]).flatMap startModes =
        [if (autoNodes tree).any fun node => some name = some node.value then "onboot" else "none"] := by
    intro tree path stored
    simp [put, path, stored, startModes_iface]
  cases auto : hasAuto files.config with
  | false =>
    rw [arrays _ rfl (by simp)]
    simp [autoNodes]
  | true =>
    rw [arrays _ rfl (by simp)]
    simp [autoNodes]

theorem answers_drvXmlDesc (machine : Machine) (name : String) :
    Answers (Loaded disk tables) Calm files (drvXmlDesc augeas machine ⟨name⟩)
      (put machine (readForest files.config name)) :=
  (answers_augGetXml name).bind ((answers_attempt .nomem).bind ((answers_attempt .nomem).bind
    ((answers_attempt .nomem).bind (answers_pure _))))

theorem start_mode_iff (machine : Machine) (present : configured files.config name ≠ []) :
    Yields disk tables files (drvXmlDesc augeas machine ⟨name⟩) (fun description _ =>
        description.flatMap startModes = [if Started files.config name then "onboot" else "none"]) ↔
      (hasAuto files.config = true → Started files.config name) := by
  rw [yields_answer (answers_drvXmlDesc machine name), description_start machine present]
  cases auto : hasAuto files.config with
  | false =>
    have none : ¬ Started files.config name := fun started => by simp [started_auto started] at auto
    simp [none]
  | true => by_cases started : Started files.config name <;> simp [started]

-- A disk that holds the given tree.
def holding (files : Files Interfaces) : Augeas Interfaces Unit := ⟨fun _ _ => files, fun _ _ => ()⟩

def auto (names : List String) : Stanza :=
  ⟨"auto", none, names.zipIdx.map fun place => ⟨toString (place.2 + 1), place.1⟩⟩

def dhcp (name : String) : Stanza :=
  ⟨"iface", some name, [⟨"family", "inet"⟩, ⟨"method", "dhcp"⟩]⟩

theorem start_mode_iff_own :
    Yields () [] ⟨[auto ["lo", "eth0"], dhcp "eth0"], [], []⟩
      (drvXmlDesc (holding ⟨[], [], []⟩) countModulo ⟨"eth0"⟩) fun description _ =>
        description.flatMap startModes = ["onboot"] :=
  (start_mode_iff countModulo (by decide)).mpr fun _ => by decide

-- The loopback interface is started at boot, so every other one is said to be.
theorem start_mode_of_another :
    configured [auto ["lo"], dhcp "eth0"] "eth0" ≠ [] ∧ ¬ Started [auto ["lo"], dhcp "eth0"] "eth0" ∧
      Yields () [] ⟨[auto ["lo"], dhcp "eth0"], [], []⟩ (drvXmlDesc (holding ⟨[], [], []⟩) countModulo ⟨"eth0"⟩)
        (fun description _ => description.flatMap startModes = ["onboot"]) ∧
      ¬ Yields () [] ⟨[auto ["lo"], dhcp "eth0"], [], []⟩ (drvXmlDesc (holding ⟨[], [], []⟩) countModulo ⟨"eth0"⟩)
        (fun description _ => description.flatMap startModes = ["none"]) := by
  refine ⟨by decide, by decide, ?_, ?_⟩
  · rw [yields_answer (answers_drvXmlDesc countModulo "eth0")]
    decide +kernel
  · rw [yields_answer (answers_drvXmlDesc countModulo "eth0")]
    decide +kernel

end Description

section Removal

variable {interfaces : Interfaces}

theorem configured_removed (other : String) :
    configured (removeInterface name interfaces) other = if other = name then [] else configured interfaces other := by
  rw [configured, removeInterface, without, without, List.filter_filter, List.filter_filter]
  by_cases same : other = name
  · rw [if_pos same, List.filter_eq_nil_iff]
    intro stanza _
    simp [same]
  · rw [if_neg same, configured]
    apply List.filter_congr
    intro stanza _
    by_cases here : configures other stanza = true
    · -- The stanza of another interface is neither an auto stanza nor one of this interface.
      simp only [configures, Bool.and_eq_true, decide_eq_true_eq] at here
      simp [configures, leads, here, same]
    · simp [here]

theorem started_removed (other : String) :
    Started (removeInterface name interfaces) other ↔
      ∃ stanza ∈ interfaces, stanza.label = "auto" ∧ other ∈ stanza.names ∧ name ∉ stanza.values "1" := by
  constructor
  · rintro ⟨stanza, member, label, named⟩
    obtain ⟨kept, _⟩ := List.mem_filter.mp member
    obtain ⟨listed, apart⟩ := List.mem_filter.mp kept
    refine ⟨stanza, listed, label, named, ?_⟩
    simpa [leads, label] using apart
  · rintro ⟨stanza, listed, label, named, apart⟩
    refine ⟨stanza, ?_, label, named⟩
    simp [removeInterface, without, configures, leads, listed, label, apart]

theorem removal_leaves_others_iff :
    Yields disk tables files (rmInterface augeas name) (fun _ after => ∃ changed, Loaded disk tables after changed ∧
        (configured changed.config name = [] ∧ ¬ Started changed.config name ∧
          ∀ other ≠ name, configured changed.config other = configured files.config other ∧
            (Started changed.config other ↔ Started files.config other))) ↔
      (∀ stanza ∈ files.config, stanza.label = "auto" → name ∈ stanza.names → name ∈ stanza.values "1") ∧
        ∀ other ≠ name, Started files.config other →
          ∃ stanza ∈ files.config, stanza.label = "auto" ∧ other ∈ stanza.names ∧ name ∉ stanza.values "1" := by
  rw [yields_change (implements_rmInterface name) rfl]
  simp only [configured_removed, started_removed, if_true, true_and]
  constructor
  · rintro ⟨gone, others⟩
    refine ⟨?_, fun other apart => (others other apart).2.mpr⟩
    intro stanza listed label named
    by_contra missed
    exact gone ⟨stanza, listed, label, named, missed⟩
  · rintro ⟨gone, others⟩
    refine ⟨?_, fun other apart => ⟨if_neg apart, ?_, others other apart⟩⟩
    · rintro ⟨stanza, listed, label, named, missed⟩
      exact missed (gone stanza listed label named)
    · rintro ⟨stanza, listed, label, named, _⟩
      exact ⟨stanza, listed, label, named⟩

-- Of two interfaces in one stanza, removing the first takes the second along, and the second stays named.
theorem shared_stanza_mishandled :
    (Yields () [] ⟨[auto ["eth0", "eth1"]], [], []⟩ (rmInterface (holding ⟨[], [], []⟩) "eth0") fun _ after =>
        ∃ changed, Loaded () [] after changed ∧
          (Started [auto ["eth0", "eth1"]] "eth1" ∧ ¬ Started changed.config "eth1")) ∧
      Yields () [] ⟨[auto ["eth0", "eth1"]], [], []⟩ (rmInterface (holding ⟨[], [], []⟩) "eth1") fun _ after =>
        ∃ changed, Loaded () [] after changed ∧ Started changed.config "eth1" := by
  constructor
  · rw [yields_change (implements_rmInterface "eth0") rfl]
    decide +kernel
  · rw [yields_change (implements_rmInterface "eth1") rfl]
    decide +kernel

end Removal

end Netcf.Debian
