import Netcf.Debian.Protocols
import Netcf.Shared.Lists

set_option autoImplicit false

namespace Netcf.Debian

open Schema Stylesheet Shared

section Words

theorem name_word (name : DeviceName) : ' ' ∉ name.text.toList ∧ name.text ≠ "" := by
  constructor
  · intro inside
    have allowed := @Pattern.Lexeme.within _ name (fun c => c ≠ ' ') (by decide +kernel) ' ' inside
    cases allowed
  · intro empty
    exact name.nonempty (by decide) (by simp [empty])

-- Only a missing name has no characters.
theorem nameText_injective : Function.Injective nameText := by
  intro first second same
  cases first with
  | none =>
    cases second with
    | none => rfl
    | some name => exact absurd same.symm (name_word name).2
  | some name =>
    cases second with
    | none => exact absurd same (name_word name).2
    | some other => exact congrArg some (Pattern.Lexeme.text_injective same)

-- The joined words split into the words again, so a text "none" would be a word of its own.
theorem intercalate_ne_none {words : List String} (proper : ∀ word ∈ words, ' ' ∉ word.toList ∧ word ≠ "")
    (devices : "none" ∉ words) : " ".intercalate words ≠ "none" := by
  intro same
  apply devices
  rw [← strSplit_intercalate proper, same]
  decide

theorem strSplit_names (names : List DeviceName) :
    strSplit (" ".intercalate (names.map (·.text))) = names.map (·.text) := by
  apply strSplit_intercalate
  intro word member
  obtain ⟨name, _, rfl⟩ := List.mem_map.mp member
  exact name_word name

end Words

section Bonds

-- A bond as it comes back: whichever carrier is given, it is ioctl.
def rereadMonitor : Monitor → Monitor
  | .miimon freq downdelay updelay carrier => .miimon freq downdelay updelay (carrier.map fun _ => .ioctl)
  | .arpmon interval target validate => .arpmon interval target validate

def rereadBond (bond : BondElement) : BondElement :=
  { bond with monitor := bond.monitor.map rereadMonitor }

def Macless (bond : BondElement) : Prop :=
  ∀ slave ∈ bond.slaves, slave.mac = none

variable {element : Element} {team : BondElement}

theorem slaves_toXml (macless : Macless team) :
    ((team.slaves.map fun slave => slave.name.text).map fun slave =>
      Xml.element "interface" [("type", "ethernet"), ("name", slave)] []) = team.slaves.map BareEthernet.toXml := by
  rw [List.map_map]
  apply List.map_congr_left
  intro slave member
  simp [BareEthernet.toXml, BareEthernet.content, macless slave member]

theorem bond_bondNodes (same : ∀ label ∈ bondLabels, element.values label = labelled (bondNodes team) label)
    (macless : Macless team) : bond element = [(rereadBond team).toXml] := by
  have value : ∀ label ∈ bondLabels, element.value? label = (labelled (bondNodes team) label).head? := by
    intro label listed
    rw [Element.value?, same label listed]
  have names : strSplit (" ".intercalate (team.slaves.map fun slave => slave.name.text)) =
      team.slaves.map fun slave => slave.name.text := by
    have words := strSplit_names (team.slaves.map (·.name))
    rwa [List.map_map] at words
  have slaves : element.value? "bond_slaves" =
      some (" ".intercalate (team.slaves.map fun slave => slave.name.text)) := by
    simp [value "bond_slaves" (by decide), bondNodes]
  have mode : element.value? "bond_mode" = team.mode.map (·.text) := by
    rw [value "bond_mode" (by decide)]
    rcases watch : team.monitor with _ | ⟨_, _, _, _⟩ | ⟨_, _, _⟩ <;> simp [bondNodes, monitorNodes, watch]
  have monitor : bondmiimon element ++ bondarpmon element = ((rereadBond team).monitor.map Monitor.toXml).toList := by
    simp only [bondmiimon, bondarpmon, value "bond_miimon" (by decide), value "bond_downdelay" (by decide),
      value "bond_updelay" (by decide), value "bond_use_carrier" (by decide), value "bond_arp_ip_target" (by decide),
      value "bond_arp_interval" (by decide), value "bond_arp_validate" (by decide)]
    rcases watch : team.monitor with _ | ⟨freq, downdelay, updelay, carrier⟩ | ⟨interval, target, validate⟩
    · simp [bondNodes, rereadBond, watch]
    · cases carrier <;>
        simp [bondNodes, monitorNodes, rereadBond, rereadMonitor, watch, Monitor.toXml, Carrier.text]
    · simp [bondNodes, monitorNodes, rereadBond, rereadMonitor, watch, Monitor.toXml, Xml.optional]
  simp only [bond, slaves, mode, monitor, names, slaves_toXml macless]
  rfl

theorem rereadBond_iff (team : BondElement) :
    (rereadBond team).toXml = team.toXml ↔
      ∀ freq downdelay updelay, team.monitor ≠ some (.miimon freq downdelay updelay (some .netif)) := by
  have tails : (rereadBond team).toXml = team.toXml ↔
      ((rereadBond team).monitor.map Monitor.toXml).toList = (team.monitor.map Monitor.toXml).toList := by
    simp [BondElement.toXml, rereadBond, BondElement.slaves]
  rw [tails]
  rcases watch : team.monitor with _ | ⟨freq, downdelay, updelay, carrier⟩ | ⟨interval, target, validate⟩
  · simp [rereadBond, watch]
  · rcases carrier with _ | ⟨_ | _⟩ <;>
      simp [rereadBond, rereadMonitor, watch, Monitor.toXml, Carrier.text, Xml.optional]
  · simp [rereadBond, rereadMonitor, watch]

end Bonds

section Vlans

variable {element : Element} {link : BareVlan}

theorem vlan_vlanNodes (device : element.values "vlan_raw_device" = [link.base.text])
    (named : element.key = some link.deviceName) : vlan element = [link.device] := by
  have tag : dropText (link.base.text.length + 1) link.deviceName = link.tag.text := by
    have front : (link.base.text ++ ".").toList.length = link.base.text.length + 1 := by
      simp [String.length_toList]
    rw [dropText, BareVlan.deviceName, String.toList_append, ← front, List.drop_left, String.ofList_toList]
  simp [vlan, Element.value?, device, Element.keyText, named, tag, BareVlan.device]

theorem vlan_none (absent : element.values "vlan_raw_device" = []) : vlan element = [] := by
  simp [vlan, Element.value?, absent]

end Vlans

section Ports

def rereadPort : Port → Port
  | .bond team => .bond { team with bond := rereadBond team.bond }
  | .ethernet nic => .ethernet nic
  | .vlan link => .vlan link

def portNics : Port → List BareEthernet
  | .ethernet nic => [nic]
  | .vlan _ => []
  | .bond team => team.bond.slaves

def bondStanza (team : BareBond) : Element :=
  ⟨some team.name.text, node "family" "inet" :: node "method" "manual" :: bondNodes team.bond⟩

theorem bondStanza_values (team : BareBond) {label : String} (listed : label ∈ deviceLabels) :
    (bondStanza team).values label = labelled (bondNodes team.bond) label := by
  have apart : "family" ≠ label ∧ "method" ≠ label := by
    revert label
    decide
  simp [bondStanza, Element.values, apart]

-- A port is read from its own stanza, when it has one.
theorem bridgePort_port {siblings : List Element} {port : Port} (macless : ∀ nic ∈ portNics port, nic.mac = none)
    (vlans : ∀ link ∈ port.vlans, link.WellNamed)
    (own : siblings.filter (fun element => element.key = some (nameText port.name)) = (portStanza port).toList) :
    bridgePort siblings (nameText port.name) = (rereadPort port).toXml := by
  rw [bridgePort, own]
  cases port with
  | ethernet nic =>
    have mac := macless nic (by simp [portNics])
    simp [portStanza, compound, rereadPort, Port.toXml, BareEthernet.toXml, BareEthernet.content, mac, nameText,
      Port.name]
  | vlan link =>
    have named := vlans link (by simp [Port.vlans])
    have name : nameText link.name = link.deviceName := by
      unfold BareVlan.WellNamed at named
      simp [nameText, named]
    have device := @vlan_vlanNodes
      ⟨some link.deviceName, node "family" "inet" :: node "method" "manual" :: vlanNodes link⟩ link
      (by simp [Element.values, vlanNodes]) rfl
    have attributes : link.attributes = [("type", "vlan"), ("name", link.deviceName)] := by
      rw [BareVlan.attributes, named]
      rfl
    simp only [portStanza, compound, Port.name, name, Option.map_some, Option.toList_some, List.flatMap_singleton,
      device, rereadPort, Port.toXml, BareVlan.toXml, attributes]
    simp [ifacetype, ifacemisc, bond, Element.has, Element.value?, Element.values, vlanNodes]
  | bond team =>
    have macs : Macless team.bond := macless
    have values := fun label => @bondStanza_values team label
    have quiet : ∀ label ∈ ["hwaddress", "mtu", "bridge_ports", "vlan_raw_device"],
        (bondStanza team).values label = [] := by
      intro label listed
      have apart : label ∈ deviceLabels ∧ label ∉ bondLabels := by
        revert label
        decide
      rw [values label apart.1, (bondNodes_within team.bond).labelled apart.2]
    have slaves : (bondStanza team).values "bond_slaves" ≠ [] := by
      simp [values "bond_slaves" (by decide), bondNodes]
    have read := bond_bondNodes (fun label listed => values label (List.mem_append_right _ listed)) macs
    change Xml.element "interface"
      [("type", if [bondStanza team] = [] then "ethernet" else String.join ([bondStanza team].map ifacetype)),
        ("name", team.name.text)]
      ([bondStanza team].flatMap ifacemisc ++ [bondStanza team].flatMap bond ++ [bondStanza team].flatMap vlan) = _
    simp only [List.flatMap_singleton, List.map_singleton, read, vlan_none (quiet "vlan_raw_device" (by simp))]
    simp [ifacetype, ifacemisc, slaves, Element.has, Element.value?, quiet, rereadPort, Port.toXml, BareBond.toXml,
      BareBond.attributes]

end Ports

section Bridges

variable {machine : Machine} {common : Common} {name : DeviceName} {hub : BridgeElement}

theorem port_named {port : Port} (vlans : ∀ link ∈ port.vlans, link.WellNamed) :
    ∃ device, port.name = some device ∧ nameText port.name = device.text := by
  cases port with
  | ethernet nic => exact ⟨nic.name, rfl, rfl⟩
  | bond team => exact ⟨team.name, rfl, rfl⟩
  | vlan link =>
    have named := vlans link (by simp [Port.vlans])
    obtain ⟨device, present, _⟩ := Option.map_eq_some_iff.mp named
    exact ⟨device, present, by simp [nameText, Port.name, present]⟩

theorem portStanza_key {port : Port} {stanza : Element} (present : portStanza port = some stanza) :
    stanza.key = some (nameText port.name) := by
  obtain ⟨nodes, _, rfl⟩ := Option.map_eq_some_iff.mp present
  rfl

theorem root_keys {document : Interface} {stanza : Element}
    (member : stanza ∈ firstStanza machine document :: otherStanzas machine document) :
    stanza.key = some (nameText document.rootName) := by
  rcases List.mem_cons.mp member with rfl | other
  · rfl
  · obtain ⟨protocol, _, rfl⟩ := List.mem_map.mp other
    rfl

theorem own_stanza (distinct : (Interface.bridge common name hub).names.Nodup) {port : Port}
    (listed : port ∈ hub.ports) :
    (stanzas machine (.bridge common name hub)).filter
        (fun element => element.key = some (nameText port.name)) = (portStanza port).toList := by
  have roots : (firstStanza machine (.bridge common name hub) :: otherStanzas machine (.bridge common name hub)).filter
      (fun element => element.key = some (nameText port.name)) = [] := by
    rw [List.filter_eq_nil_iff]
    intro stanza member same
    rw [root_keys member] at same
    have called := nameText_injective (Option.some.inj (of_decide_eq_true same))
    refine (List.nodup_cons.mp distinct).1 (List.mem_flatMap.mpr ⟨port, listed, ?_⟩)
    rw [Port.names, called]
    exact List.mem_cons_self
  have names : (hub.ports.map Port.name).Nodup := by
    have all := (List.nodup_cons.mp distinct).2
    exact (List.nodup_append.mp
      ((List.map_append_flatMap_perm hub.ports Port.name Port.slaveNames).nodup_iff.mpr all)).1
  have own : (hub.ports.filterMap portStanza).filter (fun element => element.key = some (nameText port.name)) =
      (portStanza port).toList := by
    have spread : ∀ ports : List Port,
        (ports.filterMap portStanza).filter (fun element => element.key = some (nameText port.name)) =
          ports.flatMap fun other =>
            (portStanza other).toList.filter fun element => element.key = some (nameText port.name) := by
      intro ports
      rw [List.filterMap_eq_flatMap_toList, List.filter_flatMap]
    rw [spread, Lists.flatMap_unique names listed]
    · cases present : portStanza port with
      | none => rfl
      | some stanza => simp [portStanza_key present]
    · intro other inside differs
      rw [List.filter_eq_nil_iff]
      intro stanza member same
      rw [portStanza_key (Option.mem_toList.mp member)] at same
      exact differs (nameText_injective (Option.some.inj (of_decide_eq_true same)))
  rw [stanzas, ← List.cons_append, List.filter_append, roots, List.nil_append]
  exact own

theorem bridge_bridgeNodes {siblings : List Element} {element : Element}
    (values : ∀ label ∈ deviceLabels, element.values label = labelled (miscNodes (.bridge common name hub) ++
      bridgeNodes hub) label)
    (vlans : ∀ port ∈ hub.ports, ∀ link ∈ port.vlans, link.WellNamed)
    (proper : ∀ port ∈ hub.ports, nameText port.name ≠ "none")
    (read : ∀ port ∈ hub.ports, bridgePort siblings (nameText port.name) = (rereadPort port).toXml) :
    bridge siblings element = [{ hub with ports := hub.ports.map rereadPort }.toXml] := by
  have stp : element.value? "bridge_stp" = hub.stp.map (·.text) := by
    simp [Element.value?, values "bridge_stp" (by decide), miscNodes, bridgeNodes]
  have delay : element.value? "bridge_fd" = hub.delay.map (·.text) := by
    simp [Element.value?, values "bridge_fd" (by decide), miscNodes, bridgeNodes]
  have ports : element.values "bridge_ports" =
      [if hub.ports = [] then "none" else " ".intercalate (hub.ports.map fun port => nameText port.name)] := by
    simp [values "bridge_ports" (by decide), miscNodes, bridgeNodes]
  have words : ∀ word ∈ hub.ports.map (fun port => nameText port.name), ' ' ∉ word.toList ∧ word ≠ "" := by
    intro word member
    obtain ⟨port, listed, rfl⟩ := List.mem_map.mp member
    obtain ⟨device, _, text⟩ := port_named (vlans port listed)
    rw [text]
    exact name_word device
  have split := strSplit_intercalate words
  have joined : element.value? "bridge_ports" =
      some (if hub.ports = [] then "none" else " ".intercalate (hub.ports.map fun port => nameText port.name)) := by
    rw [Element.value?, ports, List.head?_cons]
  have content : (if (element.values "bridge_ports").any (fun ports => ports ≠ "none") then
      (strSplit (if hub.ports = [] then "none" else " ".intercalate (hub.ports.map fun port => nameText port.name))).map
        (bridgePort siblings) else []) = hub.ports.map fun port => (rereadPort port).toXml := by
    by_cases empty : hub.ports = []
    · simp [ports, empty]
    · have some_port : " ".intercalate (hub.ports.map fun port => nameText port.name) ≠ "none" := by
        apply intercalate_ne_none words
        intro inside
        obtain ⟨port, listed, named⟩ := List.mem_map.mp inside
        exact proper port listed named
      have found : ((element.values "bridge_ports").any fun ports => ports ≠ "none") = true := by
        simp [ports, empty, some_port]
      rw [if_pos found, if_neg empty, split, List.map_map]
      exact List.map_congr_left read
  rw [bridge, joined]
  simp only [stp, delay, content, BridgeElement.toXml, List.map_map]
  rfl

end Bridges

section Interfaces

variable {machine : Machine} {document : Interface}

def memberNics : Interface → List BareEthernet
  | .ethernet _ _ | .vlan _ _ => []
  | .bridge _ _ hub => hub.ports.flatMap portNics
  | .bond _ team => team.bond.slaves

structure Supported (document : Interface) : Prop where
  started : document.common.start ≠ .hotplug
  noIpv6 : document.common.addressing.ipv6 = none
  noPeerdns : ∀ peerdns, document.common.addressing.ipv4 ≠ some (.dhcp (some peerdns))
  macless : ∀ nic ∈ memberNics document, nic.mac = none
  distinct : document.names.Nodup
  proper : ∀ name ∈ document.names, name.map (·.text) ≠ some "none"
  vlans : ∀ link ∈ document.vlans, link.WellNamed

def rereadInterface : Interface → Interface
  | .bridge common name hub => .bridge common name { hub with ports := hub.ports.map rereadPort }
  | .bond common team => .bond common { team with bond := rereadBond team.bond }
  | .ethernet common nic => .ethernet common nic
  | .vlan common link => .vlan common link

theorem ifacestart_first (started : document.common.start ≠ .hotplug) :
    ifacestart (treeOf machine document) (firstStanza machine document) = document.common.startElement := by
  cases mode : document.common.start with
  | onboot =>
    simp [ifacestart, autoNodes, treeOf, autoArray, mode, firstStanza, Common.startElement, StartMode.text]
  | none => simp [ifacestart, autoNodes, treeOf, autoArray, mode, Common.startElement, StartMode.text]
  | hotplug => exact absurd mode started

theorem labelled_device {label : String} (listed : label ∈ ["hwaddress", "mtu"]) :
    labelled (deviceNodes document) label = [] := by
  have apart : label ∉ "bridge_ports" :: "bridge_stp" :: "bridge_fd" :: "vlan_raw_device" :: bondLabels := by
    revert label
    decide
  have within : Within ("bridge_ports" :: "bridge_stp" :: "bridge_fd" :: "vlan_raw_device" :: bondLabels)
      (deviceNodes document) := by
    cases document with
    | ethernet common nic => exact within_nil _
    | vlan common link => simp [deviceNodes, vlanNodes]
    | bridge common name hub => simp [deviceNodes, bridgeNodes]
    | bond common team =>
      apply (bondNodes_within team.bond).mono
      intro label member
      simp [member]
  exact within.labelled apart

def ownMac : Interface → List Xml
  | .ethernet _ nic => nic.content
  | .vlan _ _ | .bridge _ _ _ | .bond _ _ => []

theorem ifacemisc_first :
    ifacemisc (firstStanza machine document) = ownMac document ++ document.common.mtuElement := by
  have hardware := @first_device machine document "hwaddress" (by decide)
  have size := @first_device machine document "mtu" (by decide)
  rw [labelled_append, labelled_device (by simp), List.append_nil] at hardware size
  have mtu : (firstStanza machine document).value? "mtu" = document.common.mtu.map (·.text) := by
    rw [Element.value?, size]
    cases document <;> simp [miscNodes]
  unfold ifacemisc
  rw [mtu, hardware]
  congr 1
  · cases document with
    | ethernet common nic =>
      cases given : nic.mac with
      | none => simp [miscNodes, given, ownMac, BareEthernet.content]
      | some mac =>
        have text : (firstStanza machine (.ethernet common nic)).value "hwaddress" = "ether " ++ mac.text := by
          simp [Element.value, Element.value?, hardware, miscNodes, given]
        have cut : dropText 6 ("ether " ++ mac.text) = mac.text := dropText_append "ether " mac.text
        simp [miscNodes, given, startsWith_append, text, cut, ownMac, BareEthernet.content]
    | vlan common link => simp [miscNodes, ownMac]
    | bridge common name hub => simp [miscNodes, ownMac]
    | bond common team => simp [miscNodes, ownMac]
  · rw [Common.mtuElement]
    cases document.common.mtu <;> rfl

-- What is left to read is the type of the interface and its device element.
theorem iface_first {type : String} {device : List Xml} (started : document.common.start ≠ .hotplug)
    (typed : ifacetype (firstStanza machine document) = type)
    (read : bridge (stanzas machine document) (firstStanza machine document) ++ bond (firstStanza machine document) ++
      vlan (firstStanza machine document) = device) :
    iface machine (treeOf machine document) (stanzas machine document) (firstStanza machine document) =
      .element "interface" [("type", type), ("name", nameText document.rootName)]
        (document.common.startElement :: (ownMac document ++ document.common.mtuElement ++
          rereadAddressing machine document.common.addressing ++ device)) := by
  rw [iface, typed, ifacestart_first started, ifacemisc_first, protocol_first, ← read]
  simp only [List.append_assoc]
  rfl

theorem quiet_device {label : String} (listed : label ∈ ["bridge_ports", "bond_slaves", "vlan_raw_device"]) :
    (firstStanza machine document).values label = labelled (deviceNodes document) label := by
  have known : label ∈ deviceLabels ∧ label ≠ "hwaddress" ∧ label ≠ "mtu" := by
    revert label
    decide
  have misc : labelled (miscNodes document) label = [] := by
    cases document <;> simp [miscNodes, known.2.1.symm, known.2.2.symm]
  rw [first_device known.1, labelled_append, misc, List.nil_append]

-- The interface element of a document comes back but for what rereadInterface leaves out.
def IfaceComesBack (machine : Machine) (document : Interface) : Prop :=
  iface machine (treeOf machine document) (stanzas machine document) (firstStanza machine document) =
    (rereadInterface document).element (rereadAddressing machine document.common.addressing)

theorem iface_ethernet {common : Common} {nic : BareEthernet} (supported : Supported (.ethernet common nic)) :
    IfaceComesBack machine (.ethernet common nic) := by
  have ports := @quiet_device machine (.ethernet common nic) "bridge_ports" (by simp)
  have slaves := @quiet_device machine (.ethernet common nic) "bond_slaves" (by simp)
  have raw := @quiet_device machine (.ethernet common nic) "vlan_raw_device" (by simp)
  have typed : ifacetype (firstStanza machine (.ethernet common nic)) = "ethernet" := by
    simp [ifacetype, Element.has, Element.value?, ports, slaves, raw, deviceNodes]
  have read : bridge (stanzas machine (.ethernet common nic)) (firstStanza machine (.ethernet common nic)) ++
      bond (firstStanza machine (.ethernet common nic)) ++ vlan (firstStanza machine (.ethernet common nic)) = [] := by
    simp [bridge, bond, vlan, Element.value?, ports, slaves, raw, deviceNodes]
  rw [IfaceComesBack, iface_first supported.started typed read, List.append_nil]
  rfl

theorem iface_vlan {common : Common} {link : BareVlan} (supported : Supported (.vlan common link)) :
    IfaceComesBack machine (.vlan common link) := by
  have ports := @quiet_device machine (.vlan common link) "bridge_ports" (by simp)
  have slaves := @quiet_device machine (.vlan common link) "bond_slaves" (by simp)
  have raw := @quiet_device machine (.vlan common link) "vlan_raw_device" (by simp)
  have named := supported.vlans link (by simp [Interface.vlans])
  have typed : ifacetype (firstStanza machine (.vlan common link)) = "vlan" := by
    simp [ifacetype, Element.has, Element.value?, ports, slaves, raw, deviceNodes, vlanNodes]
  have name : nameText link.name = link.deviceName := by
    unfold BareVlan.WellNamed at named
    simp [nameText, named]
  have device := @vlan_vlanNodes (firstStanza machine (.vlan common link)) link
    (by simp [raw, deviceNodes, vlanNodes]) (congrArg some name)
  have read : bridge (stanzas machine (.vlan common link)) (firstStanza machine (.vlan common link)) ++
      bond (firstStanza machine (.vlan common link)) ++ vlan (firstStanza machine (.vlan common link)) =
        [link.device] := by
    rw [device]
    simp [bridge, bond, Element.value?, ports, slaves, deviceNodes, vlanNodes]
  have attributes : link.attributes = [("type", "vlan"), ("name", link.deviceName)] := by
    rw [BareVlan.attributes, named]
    rfl
  rw [IfaceComesBack, iface_first supported.started typed read, rereadInterface, Interface.element, attributes]
  simp only [Interface.rootName, name]
  rfl

theorem iface_bridge {common : Common} {name : DeviceName} {hub : BridgeElement} (supported : Supported (.bridge common name hub)) :
    IfaceComesBack machine (.bridge common name hub) := by
  have ports := @quiet_device machine (.bridge common name hub) "bridge_ports" (by simp)
  have slaves := @quiet_device machine (.bridge common name hub) "bond_slaves" (by simp)
  have raw := @quiet_device machine (.bridge common name hub) "vlan_raw_device" (by simp)
  have typed : ifacetype (firstStanza machine (.bridge common name hub)) = "bridge" := by
    simp [ifacetype, Element.has, Element.value?, ports, deviceNodes, bridgeNodes]
  have vlans : ∀ port ∈ hub.ports, ∀ link ∈ port.vlans, link.WellNamed := by
    intro port listed link member
    exact supported.vlans link (List.mem_flatMap.mpr ⟨port, listed, member⟩)
  have proper : ∀ port ∈ hub.ports, nameText port.name ≠ "none" := by
    intro port listed same
    obtain ⟨device, named, text⟩ := port_named (vlans port listed)
    have inside : port.name ∈ (Interface.bridge common name hub).names :=
      List.mem_cons_of_mem _ (List.mem_flatMap.mpr ⟨port, listed, List.mem_cons_self⟩)
    refine supported.proper _ inside ?_
    rw [named, Option.map_some, ← text, same]
  have members : ∀ port ∈ hub.ports,
      bridgePort (stanzas machine (.bridge common name hub)) (nameText port.name) = (rereadPort port).toXml := by
    intro port listed
    refine bridgePort_port ?_ (vlans port listed) (own_stanza supported.distinct listed)
    intro nic member
    exact supported.macless nic (List.mem_flatMap.mpr ⟨port, listed, member⟩)
  have device := bridge_bridgeNodes (fun label => @first_device machine (.bridge common name hub) label) vlans
    proper members
  have read : bridge (stanzas machine (.bridge common name hub)) (firstStanza machine (.bridge common name hub)) ++
      bond (firstStanza machine (.bridge common name hub)) ++ vlan (firstStanza machine (.bridge common name hub)) =
        [{ hub with ports := hub.ports.map rereadPort }.toXml] := by
    rw [device]
    simp [bond, vlan, Element.value?, slaves, raw, deviceNodes, bridgeNodes]
  rw [IfaceComesBack, iface_first supported.started typed read]
  rfl

theorem iface_bond {common : Common} {team : BareBond} (supported : Supported (.bond common team)) :
    IfaceComesBack machine (.bond common team) := by
  have ports := @quiet_device machine (.bond common team) "bridge_ports" (by simp)
  have slaves := @quiet_device machine (.bond common team) "bond_slaves" (by simp)
  have raw := @quiet_device machine (.bond common team) "vlan_raw_device" (by simp)
  have labels : ∀ label ∈ bondLabels, label ∈ deviceLabels ∧ label ≠ "mtu" := by decide
  have values : ∀ label ∈ bondLabels,
      (firstStanza machine (.bond common team)).values label = labelled (bondNodes team.bond) label := by
    intro label listed
    rw [first_device (labels label listed).1]
    simp [miscNodes, (labels label listed).2.symm, deviceNodes]
  have within : Within bondLabels (deviceNodes (.bond common team)) := bondNodes_within team.bond
  rw [within.labelled (by decide)] at ports raw
  have typed : ifacetype (firstStanza machine (.bond common team)) = "bond" := by
    simp [ifacetype, Element.has, Element.value?, ports, slaves, deviceNodes, bondNodes]
  have device := bond_bondNodes values supported.macless
  have read : bridge (stanzas machine (.bond common team)) (firstStanza machine (.bond common team)) ++
      bond (firstStanza machine (.bond common team)) ++ vlan (firstStanza machine (.bond common team)) =
        [(rereadBond team.bond).toXml] := by
    rw [device]
    simp [bridge, vlan, Element.value?, ports, raw]
  rw [IfaceComesBack, iface_first supported.started typed read]
  rfl

theorem iface_reread (supported : Supported document) :
    iface machine (treeOf machine document) (stanzas machine document) (firstStanza machine document) =
      (rereadInterface document).element (rereadAddressing machine document.common.addressing) := by
  cases document with
  | ethernet common nic => exact iface_ethernet supported
  | vlan common link => exact iface_vlan supported
  | bridge common name hub => exact iface_bridge supported
  | bond common team => exact iface_bond supported

-- A carrier that the driver reads from the interface itself instead of by ioctl.
def Netif (team : BareBond) : Prop :=
  ∃ freq downdelay updelay, team.bond.monitor = some (.miimon freq downdelay updelay (some .netif))

theorem rereadTeam_iff (team : BareBond) : (rereadBond team.bond).toXml = team.bond.toXml ↔ ¬ Netif team := by
  rw [rereadBond_iff, Netif]
  simp

theorem rereadPort_iff (port : Port) :
    (rereadPort port).toXml = port.toXml ↔ ∀ team ∈ port.bonds, ¬ Netif team := by
  cases port with
  | ethernet nic => simp [rereadPort, Port.bonds]
  | vlan link => simp [rereadPort, Port.bonds]
  | bond team =>
    have same := rereadTeam_iff team
    simpa [rereadPort, Port.bonds, Port.toXml, BareBond.toXml, BareBond.attributes] using same

theorem rereadHub_iff (hub : BridgeElement) :
    { hub with ports := hub.ports.map rereadPort }.toXml = hub.toXml ↔
      ∀ port ∈ hub.ports, ∀ team ∈ port.bonds, ¬ Netif team := by
  have ports : { hub with ports := hub.ports.map rereadPort }.toXml = hub.toXml ↔
      hub.ports.map (fun port => (rereadPort port).toXml) = hub.ports.map Port.toXml := by
    simp [BridgeElement.toXml]
  rw [ports, List.map_inj_left]
  exact forall₂_congr fun port _ => rereadPort_iff port

theorem rereadInterface_iff (protocols : List Xml) :
    (rereadInterface document).element protocols = document.toXml ↔
      protocols = document.common.addressing.toXml ∧ ∀ team ∈ document.bonds, ¬ Netif team := by
  have ends : ∀ {front back back' : List Xml} {last last' : Xml},
      front ++ back ++ [last] = front ++ back' ++ [last'] ↔ back = back' ∧ last = last' := by
    intro front back back' last last'
    constructor
    · intro same
      obtain ⟨init, final⟩ := List.append_inj' same rfl
      exact ⟨List.append_cancel_left init, List.singleton_inj.mp final⟩
    · rintro ⟨rfl, rfl⟩
      rfl
  cases document with
  | ethernet common nic => simp [rereadInterface, Interface.toXml, Interface.element, Interface.bonds, Interface.common]
  | vlan common link => simp [rereadInterface, Interface.toXml, Interface.element, Interface.bonds, Interface.common]
  | bridge common name hub =>
    have device := rereadHub_iff hub
    have bonds : (∀ team ∈ (Interface.bridge common name hub).bonds, ¬ Netif team) ↔
        ∀ port ∈ hub.ports, ∀ team ∈ port.bonds, ¬ Netif team := by
      simp only [Interface.bonds, List.mem_flatMap]
      exact ⟨fun all port listed team member => all team ⟨port, listed, member⟩,
        fun all team ⟨port, listed, member⟩ => all port listed team member⟩
    rw [bonds, ← device]
    simp only [rereadInterface, Interface.toXml, Interface.element, Xml.element.injEq, true_and, List.cons.injEq, ends]
  | bond common team =>
    have device := rereadTeam_iff team
    have bonds : (∀ other ∈ (Interface.bond common team).bonds, ¬ Netif other) ↔ ¬ Netif team := by
      simp [Interface.bonds]
    rw [bonds, ← device]
    simp only [rereadInterface, Interface.toXml, Interface.element, BareBond.attributes, Xml.element.injEq, true_and,
      List.cons.injEq, ends]

theorem rereads_iff (supported : Supported document) (positive : ∀ length ∈ document.ipv4Prefix, length.value ≠ 0) :
    rereads machine document document.toXml ↔
      rereadAddressing machine document.common.addressing = document.common.addressing.toXml ∧
        ∀ team ∈ document.bonds, ¬ Netif team := by
  rw [← rereadInterface_iff, ← iface_reread supported]
  constructor
  · rintro ⟨forest, transformed, back⟩
    rw [get_forest transformed, put_treeOf] at back
    exact List.singleton_inj.mp back
  · intro same
    refine ⟨_, get_ok positive, ?_⟩
    rw [put_treeOf, same]

theorem rereadAddressing_iff (supported : Supported document)
    (positive : ∀ length ∈ document.ipv4Prefix, length.value ≠ 0) :
    (∀ machine, rereadAddressing machine document.common.addressing = document.common.addressing.toXml) ↔
      ∀ length ∈ document.ipv4Prefix, length.Canonical ∧ length.value ≠ 32 := by
  have noIpv6 := supported.noIpv6
  have noPeerdns := supported.noPeerdns
  have same : ∀ machine, rereadAddressing machine document.common.addressing = document.common.addressing.toXml ↔
      ∀ protocol ∈ document.common.addressing.ipv4, rereadIpv4 machine protocol = protocol.toXml := by
    intro machine
    rcases addressing : document.common.addressing with ⟨_ | _, _ | _⟩ | ⟨_ | _, _ | _⟩ <;>
      simp_all [rereadAddressing, Addressing.toXml, Addressing.ipv4, Addressing.ipv6]
  simp only [same]
  cases present : document.common.addressing.ipv4 with
  | none => simp [Interface.ipv4Prefix, present]
  | some protocol =>
    have prefixes : document.ipv4Prefix = protocol.prefixLength := by
      rw [Interface.ipv4Prefix, present]
      rfl
    rw [prefixes] at positive ⊢
    have back := reread_ipv4_iff protocol positive
    have plain : ∀ peerdns, protocol ≠ .dhcp (some peerdns) := by
      intro peerdns same
      exact noPeerdns peerdns (same ▸ present)
    simpa [plain] using back

theorem transforms_round_trip_iff (supported : Supported document)
    (range : ∀ length ∈ document.ipv4Prefix, 1 ≤ length.value ∧ length.value ≤ 32) :
    (∀ machine, ∃ forest, get machine document = .ok forest ∧ put machine forest = [document.toXml]) ↔
      (∀ length ∈ document.ipv4Prefix, length.Canonical ∧ length.value ≠ 32) ∧
        ∀ team ∈ document.bonds, ¬ Netif team := by
  have positive : ∀ length ∈ document.ipv4Prefix, length.value ≠ 0 := by
    intro length listed
    have least := range length listed
    omega
  have each := fun machine => @rereads_iff machine document supported positive
  rw [← rereadAddressing_iff supported positive]
  constructor
  · intro round
    exact ⟨fun machine => ((each machine).mp (round machine)).1, ((each countModulo).mp (round countModulo)).2⟩
  · rintro ⟨addresses, bonds⟩ machine
    exact (each machine).mpr ⟨addresses machine, bonds⟩

end Interfaces

section Examples

theorem supported_officeBridge {common : Common} (started : common.start ≠ .hotplug)
    (noIpv6 : common.addressing.ipv6 = none)
    (noPeerdns : ∀ peerdns, common.addressing.ipv4 ≠ some (.dhcp (some peerdns))) :
    Supported (officeBridge common) where
  started := started
  noIpv6 := noIpv6
  noPeerdns := noPeerdns
  macless := by
    show ∀ nic ∈ [(⟨eth0, none⟩ : BareEthernet), ⟨eth1, none⟩], nic.mac = none
    simp
  distinct := by
    show [some br0, some eth0, some eth2Tagged, some bond0, some eth1].Nodup
    decide
  proper := by
    show ∀ name ∈ [some br0, some eth0, some eth2Tagged, some bond0, some eth1], name.map (·.text) ≠ some "none"
    decide
  vlans := by
    intro link listed
    rw [List.mem_singleton.mp listed]
    decide

theorem transforms_round_trip_iff_officeBridge :
    ∃ forest, get countModulo (officeBridge (static networkPrefix)) = .ok forest ∧
      put countModulo forest = [(officeBridge (static networkPrefix)).toXml] :=
  (transforms_round_trip_iff (supported_officeBridge (by decide) rfl (by simp [static, Addressing.ipv4]))
    (by decide)).mpr ⟨by decide, by
      rintro team listed ⟨freq, downdelay, updelay, monitored⟩
      rw [List.mem_singleton.mp listed] at monitored
      cases monitored⟩ countModulo

def monitored (carrier : Carrier) : Interface :=
  .bond unaddressed ⟨bond0, ⟨none, some (.miimon ⟨⟨"100", by decide +kernel⟩, by decide⟩ none none (some carrier)),
    ⟨eth0, none⟩, [⟨eth1, none⟩]⟩⟩

theorem netif_comes_back_ioctl :
    Supported (monitored .netif) ∧ (monitored .netif).ipv4Prefix = none ∧
      (get countModulo (monitored .netif)).toOption.map (put countModulo) = some [(monitored .ioctl).toXml] ∧
      (get countModulo (monitored .netif)).toOption.map (put countModulo) ≠ some [(monitored .netif).toXml] := by
  refine ⟨⟨by decide, rfl, by simp [monitored, unaddressed, Interface.common, Addressing.ipv4], ?_, by decide, by decide,
    ?_⟩, rfl, by decide +kernel, by decide +kernel⟩
  · show ∀ nic ∈ [(⟨eth0, none⟩ : BareEthernet), ⟨eth1, none⟩], nic.mac = none
    simp
  · intro link listed
    cases listed

end Examples

end Netcf.Debian
