import Netcf.Linux.Define
import Netcf.RedHat.Forest

set_option autoImplicit false

-- The forest of a document as a family of files: one for each device, each leading back to the root.
namespace Netcf.RedHat

open Schema Stylesheet

def Tree.device (tree : Tree) : String :=
  tree.value "DEVICE"

def Tree.labels (tree : Tree) : List String :=
  tree.nodes.map (·.label)

structure Tree.ForDevice (tree : Tree) (device : String) : Prop where
  path : tree.path = ifcfgPath device
  devices : tree.values "DEVICE" = [device]
  labels : tree.labels.Nodup

theorem Tree.ForDevice.device {tree : Tree} {device : String} (fits : tree.ForDevice device) :
    tree.device = device := by
  simp [Tree.device, Tree.value, Tree.value?, fits.devices]

theorem nameAttr_forDevice {rest : List Node} {allowed : List String} (device : String)
    (within : (rest.map (·.label)).Sublist allowed) (distinct : ("DEVICE" :: allowed).Nodup) :
    (nameAttr device rest).ForDevice device where
  path := rfl
  devices := by
    have others : labelled rest "DEVICE" = [] := by
      apply labelled_of_forall
      intro node member same
      exact (List.nodup_cons.mp distinct).1 (within.subset (same ▸ List.mem_map_of_mem member))
    simp [Tree.values, nameAttr, others]
  labels := distinct.sublist (within.cons_cons "DEVICE")

section Labels

open List

-- The labels stand in one order throughout, so that no file has one twice.
theorem optionalNode_labels (label : String) (value : Option String) :
    (optionalNode label value).map (·.label) <+ [label] := by
  cases value <;> simp [optionalNode]

theorem shared_labels (common : Common) :
    (shared common).map (·.label) <+ ["ONBOOT", "HOTPLUG", "MTU"] := by
  rw [shared, map_append]
  have boot : (startmode common.start).map (·.label) <+ ["ONBOOT", "HOTPLUG"] := by
    cases common.start <;> simp [startmode]
  exact boot.append (optionalNode_labels "MTU" _)

theorem ipv4Nodes_labels (machine : Machine) (ipv4 : Ipv4) :
    (ipv4Nodes machine ipv4).map (·.label) <+ ["BOOTPROTO", "PEERDNS", "IPADDR", "NETMASK", "GATEWAY"] := by
  cases ipv4 with
  | dhcp peerdns =>
    have dns := (optionalNode_labels "PEERDNS" (peerdns.map (·.text))).append
      (nil_sublist ["IPADDR", "NETMASK", "GATEWAY"])
    rw [append_nil] at dns
    exact dns.cons_cons "BOOTPROTO"
  | static address prefixLen gateway =>
    simp only [ipv4Nodes, map_cons, map_append]
    have last := (optionalNode_labels "NETMASK" (prefixLen.map fun length =>
      inetNtop (~~~ shiftMask machine length.value))).append
        (optionalNode_labels "GATEWAY" (gateway.map (·.text)))
    exact (((last.cons_cons "IPADDR").cons "PEERDNS").cons_cons "BOOTPROTO")

theorem protocolIpv6_labels (ipv6 : Ipv6) :
    (protocolIpv6 ipv6).map (·.label) <+
      ["IPV6INIT", "IPV6_AUTOCONF", "DHCPV6", "IPV6ADDR", "IPV6ADDR_SECONDARIES", "IPV6_DEFAULTGW"] := by
  have addresses : (ipv6Addresses ipv6.ips).map (·.label) <+ ["IPV6ADDR", "IPV6ADDR_SECONDARIES"] := by
    rcases ipv6.ips with _ | ⟨ip, _ | ⟨second, rest⟩⟩ <;> simp [ipv6Addresses]
  simp only [protocolIpv6, map_cons, map_append]
  exact ((((addresses.append (optionalNode_labels "IPV6_DEFAULTGW" _)).cons_cons "DHCPV6").cons_cons
    "IPV6_AUTOCONF").cons_cons "IPV6INIT")

theorem addressNodes_labels (machine : Machine) (addressing : Addressing) :
    (addressNodes machine addressing).map (·.label) <+ addressLabels := by
  rw [addressNodes, map_append]
  have first : (((addressing.ipv4.map (ipv4Nodes machine)).getD []).map (·.label)) <+
      ["BOOTPROTO", "PEERDNS", "IPADDR", "NETMASK", "GATEWAY"] := by
    cases addressing.ipv4 with
    | none => exact nil_sublist _
    | some ipv4 => exact ipv4Nodes_labels machine ipv4
  have second : (((addressing.ipv6.map protocolIpv6).getD []).map (·.label)) <+
      ["IPV6INIT", "IPV6_AUTOCONF", "DHCPV6", "IPV6ADDR", "IPV6ADDR_SECONDARIES", "IPV6_DEFAULTGW"] := by
    cases addressing.ipv6 with
    | none => exact nil_sublist _
    | some ipv6 => exact protocolIpv6_labels ipv6
  exact first.append second

def sharedLabels : List String := ["ONBOOT", "HOTPLUG", "MTU"]

theorem bareEthernet_forDevice (common : Common) (nic : BareEthernet) {rest : List Node} {allowed : List String}
    (within : rest.map (·.label) <+ allowed)
    (distinct : ("DEVICE" :: (["HWADDR"] ++ sharedLabels ++ allowed)).Nodup) :
    (bareEthernetInterface common nic rest).ForDevice nic.name.text := by
  refine nameAttr_forDevice _ ?_ distinct
  rw [map_append, map_append]
  exact ((optionalNode_labels "HWADDR" _).append (shared_labels common)).append within

theorem vlan_forDevice (common : Common) (link : BareVlan) {rest : List Node} {allowed : List String}
    (within : rest.map (·.label) <+ allowed)
    (distinct : ("DEVICE" :: "VLAN" :: (sharedLabels ++ allowed)).Nodup) :
    (vlanInterfaceCommon link (shared common ++ rest)).ForDevice link.deviceName := by
  refine nameAttr_forDevice _ ?_ distinct
  rw [map_cons, map_append]
  exact ((shared_labels common).append within).cons_cons "VLAN"

theorem slaveTree_forDevice (common : Common) (master : DeviceName) (slave : BareEthernet) :
    (slaveTree common master slave).ForDevice slave.name.text :=
  bareEthernet_forDevice common slave (Sublist.refl ["MASTER", "SLAVE"]) (by decide)

end Labels

def Port.device : Port → String
  | .ethernet nic => nic.name.text
  | .vlan link => link.deviceName
  | .bond team => team.name.text

theorem portTree_forDevice (common : Common) (bridge : DeviceName) (port : Port) :
    (portTree common bridge port).ForDevice (Port.device port) := by
  cases port with
  | ethernet nic => exact bareEthernet_forDevice common nic (List.Sublist.refl ["BRIDGE"]) (by decide)
  | vlan link => exact vlan_forDevice common link (List.Sublist.refl ["BRIDGE"]) (by decide)
  | bond team =>
    refine @nameAttr_forDevice _ (sharedLabels ++ ["BONDING_OPTS", "BRIDGE"]) _ ?_ (by decide)
    rw [List.map_append]
    exact (shared_labels common).append (List.Sublist.refl _)

def rootDevice : Interface → String
  | .ethernet _ nic => nic.name.text
  | .vlan _ link => link.deviceName
  | .bridge _ name _ => name.text
  | .bond _ team => team.name.text

theorem rootTree_forDevice {nodes : List Node} (within : (nodes.map (·.label)).Sublist addressLabels)
    (document : Interface) : (rootTree nodes document).ForDevice (rootDevice document) := by
  cases document with
  | ethernet common nic => exact bareEthernet_forDevice common nic within (by decide)
  | vlan common link => exact vlan_forDevice common link within (by decide)
  | bridge common name hub =>
    refine @nameAttr_forDevice _ (sharedLabels ++ "TYPE" :: (addressLabels ++ ["STP"] ++ ["DELAY"])) _ ?_
      (by decide)
    simp only [List.map_append, List.map_cons]
    exact (shared_labels common).append (((within.append (optionalNode_labels "STP" _)).append
      (optionalNode_labels "DELAY" _)).cons_cons "TYPE")
  | bond common team =>
    refine @nameAttr_forDevice _ (sharedLabels ++ addressLabels ++ ["BONDING_OPTS"]) _ ?_ (by decide)
    rw [List.map_append, List.map_append]
    exact ((shared_labels common).append within).append (List.Sublist.refl _)

def memberDevices : Interface → List String
  | .ethernet _ _ | .vlan _ _ => []
  | .bridge _ _ hub => hub.ports.flatMap fun port => Port.device port :: port.slaveNames.reduceOption.map (·.text)
  | .bond _ team => team.bond.names.reduceOption.map (·.text)

-- The devices that redhat-get.xsl writes a file for.
def devices (document : Interface) : List String :=
  rootDevice document :: memberDevices document

def forestOf (machine : Machine) (document : Interface) : Forest :=
  rootTree (addressNodes machine document.common.addressing) document :: memberTrees document

section Get

variable {machine : Machine} {document : Interface}

theorem protocolIpv4_zero {ipv4 : Ipv4} {length : Ipv4Prefix} (present : ipv4.prefixLength = some length)
    (zero : length.value = 0) : ∃ e, protocolIpv4 machine ipv4 = .error e := by
  cases ipv4 with
  | dhcp peerdns => cases present
  | static address prefixLen gateway =>
    rw [protocolIpv4_static]
    exact netmask_zero present zero _

theorem get_error {length : Ipv4Prefix} (present : length ∈ document.ipv4Prefix) (zero : length.value = 0) :
    ∃ e, get machine document = .error e := by
  obtain ⟨ipv4, configured, given⟩ := Option.bind_eq_some_iff.mp present
  obtain ⟨e, failed⟩ := @protocolIpv4_zero machine _ _ given zero
  refine ⟨e, ?_⟩
  simp only [get, interfaceAddressing, configured, failed]
  rfl

theorem get_succeeds_iff :
    (∃ forest, get machine document = .ok forest) ↔ ∀ length ∈ document.ipv4Prefix, length.value ≠ 0 := by
  exact succeeds_iff get_ok fun length present zero => get_error present zero

theorem get_forest {forest : Forest} (result : get machine document = .ok forest) :
    forest = forestOf machine document := by
  rw [get_ok (get_succeeds_iff.mp ⟨forest, result⟩)] at result
  exact (Except.ok.inj result).symm

end Get

section Members

variable {machine : Machine} {document : Interface}

theorem bondSlaves_devices (common : Common) (team : BareBond) :
    (bondSlaves common team).map Tree.device = team.bond.names.reduceOption.map (·.text) := by
  simp [bondSlaves_eq, BondElement.names, List.reduceOption, List.filterMap_map, Function.comp_def,
    (slaveTree_forDevice common team.name _).device]

theorem bridgePort_devices (common : Common) (bridge : DeviceName) (port : Port) :
    (bridgePort common bridge port).map Tree.device =
      Port.device port :: port.slaveNames.reduceOption.map (·.text) := by
  rw [bridgePort_eq, List.map_cons, (portTree_forDevice common bridge port).device]
  cases port with
  | ethernet nic => rfl
  | vlan link => rfl
  | bond team => rw [portSlaves, bondSlaves_devices]; rfl

theorem forestOf_devices : (forestOf machine document).map Tree.device = devices document := by
  have root := (rootTree_forDevice (addressNodes_labels machine document.common.addressing) document).device
  rw [forestOf, List.map_cons, root, devices]
  congr 1
  cases document with
  | ethernet common nic => rfl
  | vlan common link => rfl
  | bridge common name hub =>
    simp only [memberTrees, memberDevices, List.map_flatMap, bridgePort_devices]
  | bond common team => exact bondSlaves_devices common team

theorem mem_bridgePort {common : Common} {bridge : DeviceName} {port : Port} {tree : Tree}
    (member : tree ∈ bridgePort common bridge port) :
    tree = portTree common bridge port ∨ ∃ team slave, port = .bond team ∧ tree = slaveTree common team.name slave := by
  rw [bridgePort_eq, List.mem_cons] at member
  rcases member with rfl | slaves
  · exact Or.inl rfl
  · obtain ⟨team, slave, bond, _, same⟩ := mem_portSlaves common slaves
    exact Or.inr ⟨team, slave, bond, same⟩

-- Where a file comes from that is not the root's own.
inductive Member : Interface → Tree → Prop
  | port {common : Common} {name : DeviceName} {hub : BridgeElement} {port : Port} (listed : port ∈ hub.ports) :
      Member (.bridge common name hub) (portTree common name port)
  | portSlave {common : Common} {name : DeviceName} {hub : BridgeElement} {team : BareBond} {slave : BareEthernet}
      (listed : Port.bond team ∈ hub.ports) :
      Member (.bridge common name hub) (slaveTree common team.name slave)
  | slave {common : Common} {team : BareBond} {slave : BareEthernet} :
      Member (.bond common team) (slaveTree common team.name slave)

theorem member_of_memberTrees {tree : Tree} (listed : tree ∈ memberTrees document) : Member document tree := by
  cases document with
  | ethernet common nic => cases listed
  | vlan common link => cases listed
  | bridge common name hub =>
    obtain ⟨port, inHub, inside⟩ := List.mem_flatMap.mp listed
    rcases mem_bridgePort inside with rfl | ⟨team, slave, rfl, rfl⟩
    · exact .port inHub
    · exact .portSlave inHub
  | bond common team =>
    rw [memberTrees, bondSlaves_eq] at listed
    obtain ⟨slave, _, rfl⟩ := List.mem_map.mp listed
    exact .slave

theorem forestOf_forDevice {tree : Tree} (member : tree ∈ forestOf machine document) :
    tree.ForDevice tree.device := by
  have known : ∃ device, tree.ForDevice device := by
    rcases List.mem_cons.mp member with rfl | member
    · exact ⟨_, rootTree_forDevice (addressNodes_labels machine _) document⟩
    · cases member_of_memberTrees member with
      | port _ => exact ⟨_, portTree_forDevice _ _ _⟩
      | portSlave _ => exact ⟨_, slaveTree_forDevice _ _ _⟩
      | slave => exact ⟨_, slaveTree_forDevice _ _ _⟩
  obtain ⟨device, fits⟩ := known
  rwa [fits.device]

-- Every file is the root's own, a port or slave of the root, or a slave of one of its ports.
theorem forestOf_joined {tree : Tree} (member : tree ∈ forestOf machine document) :
    tree.device = rootDevice document ∨ rootDevice document ∈ tree.values "BRIDGE" ∨
      rootDevice document ∈ tree.values "MASTER" ∨
      ∃ port ∈ forestOf machine document, rootDevice document ∈ port.values "BRIDGE" ∧
        port.device ∈ tree.values "MASTER" := by
  rcases List.mem_cons.mp member with rfl | member
  · exact Or.inl (rootTree_forDevice (addressNodes_labels machine _) document).device
  · cases member_of_memberTrees member with
    | port _ => exact Or.inr (Or.inl (by simp [rootDevice]))
    | @portSlave common name hub team slave listed =>
      refine Or.inr (Or.inr (Or.inr ⟨portTree common name (.bond team), ?_, by simp [rootDevice], ?_⟩))
      · refine List.mem_cons_of_mem _ (List.mem_flatMap.mpr ⟨_, listed, ?_⟩)
        rw [bridgePort_eq]
        exact List.mem_cons_self
      · rw [(portTree_forDevice common name (.bond team)).device]
        simp [Port.device]
    | slave => exact Or.inr (Or.inr (Or.inl (by simp [rootDevice])))

end Members

-- The documents whose interfaces are each found again under the name of their file.
structure Definable (document : Interface) : Prop where
  distinct : document.names.Nodup
  vlans : ∀ link ∈ document.vlans, link.WellNamed
  plain : ∀ name ∈ document.names, ∀ device ∈ name, '/' ∉ device.text.toList

section Names

variable {document : Interface}

theorem bondNames_devices (bond : BondElement) :
    bond.names.map (·.map (·.text)) = (bond.names.reduceOption.map (·.text)).map some := by
  simp [BondElement.names, List.reduceOption, List.filterMap_map, Function.comp_def]

theorem portNames_devices {port : Port} (named : ∀ link ∈ port.vlans, link.WellNamed) :
    port.names.map (·.map (·.text)) =
      (Port.device port :: port.slaveNames.reduceOption.map (·.text)).map some := by
  cases port with
  | ethernet nic => rfl
  | vlan link =>
    have wellNamed := named link (by simp [Port.vlans])
    change [link.name.map (·.text)] = [some link.deviceName]
    rw [wellNamed]
  | bond team =>
    rw [Port.names, List.map_cons, Port.slaveNames, bondNames_devices]
    rfl

theorem names_devices (named : ∀ link ∈ document.vlans, link.WellNamed) :
    document.names.map (·.map (·.text)) = (devices document).map some := by
  rw [Interface.names, devices, List.map_cons, List.map_cons]
  cases document with
  | ethernet common nic => rfl
  | vlan common link =>
    have wellNamed := named link (by simp [Interface.vlans])
    simp only [Interface.rootName, Interface.memberNames, memberDevices, rootDevice, List.map_nil]
    rw [wellNamed]
  | bridge common name hub =>
    simp only [Interface.rootName, Interface.memberNames, memberDevices, rootDevice, List.map_flatMap,
      Option.map_some]
    congr 1
    apply List.flatMap_congr
    intro port listed
    exact portNames_devices fun link member => named link (List.mem_flatMap.mpr ⟨port, listed, member⟩)
  | bond common team =>
    rw [Interface.memberNames, memberDevices, bondNames_devices]
    rfl

theorem rootName_device (named : ∀ link ∈ document.vlans, link.WellNamed) :
    document.rootName.map (·.text) = some (rootDevice document) := by
  have all := names_devices named
  rw [Interface.names, devices, List.map_cons, List.map_cons] at all
  exact (List.cons.inj all).1

theorem deviceName_root (named : ∀ link ∈ document.vlans, link.WellNamed) :
    Linux.deviceName document = rootDevice document := by
  have root := rootName_device named
  cases document with
  | vlan common link =>
    change link.name.map (·.text) = some link.deviceName at root
    simp [Linux.deviceName, rootDevice, root]
  | ethernet common nic => rfl
  | bridge common name hub => rfl
  | bond common team => rfl

theorem nameAttributes_devices (named : ∀ link ∈ document.vlans, link.WellNamed) :
    Linux.nameAttributes document = (devices document).map some := by
  rw [← names_devices named, Linux.nameAttributes, Interface.names, List.map_cons, rootName_device named]
  rfl

theorem Definable.devices_nodup (definable : Definable document) : (devices document).Nodup := by
  have texts : (document.names.map (·.map (·.text))).Nodup :=
    definable.distinct.map (Option.map_injective Shared.Pattern.Lexeme.text_injective)
  rw [names_devices definable.vlans] at texts
  exact texts.of_map some

theorem Definable.devices_plain (definable : Definable document) {device : String}
    (listed : device ∈ devices document) : '/' ∉ device.toList := by
  have present : some device ∈ document.names.map (·.map (·.text)) := by
    rw [names_devices definable.vlans]
    exact List.mem_map_of_mem listed
  obtain ⟨name, member, same⟩ := List.mem_map.mp present
  obtain ⟨found, rfl, rfl⟩ := Option.map_eq_some_iff.mp same
  exact definable.plain _ member found rfl

theorem mem_devices {machine : Machine} {tree : Tree} (member : tree ∈ forestOf machine document) :
    tree.device ∈ devices document := by
  rw [← @forestOf_devices machine]
  exact List.mem_map_of_mem member

theorem Definable.forest_nodup (definable : Definable document) (machine : Machine) :
    ((forestOf machine document).map Tree.device).Nodup := by
  rw [forestOf_devices]
  exact definable.devices_nodup

end Names

end Netcf.RedHat
