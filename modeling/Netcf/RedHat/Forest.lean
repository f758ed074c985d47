import Netcf.RedHat.Put

set_option autoImplicit false

-- The files that redhat-get.xsl writes, by what redhat-put.xsl and the driver look for in them.
namespace Netcf.RedHat

open Schema Stylesheet Shared

@[simp] theorem labelled_nil (label : String) : labelled [] label = [] := rfl

@[simp] theorem labelled_cons (node : Node) (rest : List Node) (label : String) :
    labelled (node :: rest) label =
      if node.label = label then node.value :: labelled rest label else labelled rest label := by
  by_cases same : node.label = label <;> simp [labelled, same]

@[simp] theorem labelled_append (front back : List Node) (label : String) :
    labelled (front ++ back) label = labelled front label ++ labelled back label := by
  simp [labelled]

@[simp] theorem labelled_optionalNode (name label : String) (value : Option String) :
    labelled (optionalNode name value) label = if name = label then value.toList else [] := by
  cases value <;> by_cases same : name = label <;> simp [optionalNode, same]

theorem labelled_of_forall {nodes : List Node} {label : String}
    (other : ∀ node ∈ nodes, node.label ≠ label) : labelled nodes label = [] := by
  simpa [labelled, List.filter_eq_nil_iff] using other

@[simp] theorem labelled_shared (common : Common) {label : String} (notBoot : label ≠ "ONBOOT")
    (notPlug : label ≠ "HOTPLUG") (notMtu : label ≠ "MTU") : labelled (shared common) label = [] := by
  have apart : "ONBOOT" ≠ label ∧ "HOTPLUG" ≠ label ∧ "MTU" ≠ label :=
    ⟨notBoot.symm, notPlug.symm, notMtu.symm⟩
  cases start : common.start <;> simp [shared, startmode, mtu, start, apart]

-- What the addressing templates may write.
def addressLabels : List String :=
  ["BOOTPROTO", "PEERDNS", "IPADDR", "NETMASK", "GATEWAY", "IPV6INIT", "IPV6_AUTOCONF", "DHCPV6",
    "IPV6ADDR", "IPV6ADDR_SECONDARIES", "IPV6_DEFAULTGW"]

def Addresses (nodes : List Node) : Prop :=
  ∀ node ∈ nodes, node.label ∈ addressLabels

theorem Addresses.labelled {nodes : List Node} (addresses : Addresses nodes) {label : String}
    (other : label ∉ addressLabels) : labelled nodes label = [] := by
  apply labelled_of_forall
  intro node member same
  exact other (same ▸ addresses node member)

@[simp] theorem nameAttr_device (device : String) (rest : List Node) :
    (nameAttr device rest).value "DEVICE" = device := by
  simp [Tree.value, Tree.value?, Tree.values, nameAttr]

@[simp] theorem addresses_nil : Addresses [] := by simp [Addresses]

@[simp] theorem addresses_cons (node : Node) (rest : List Node) :
    Addresses (node :: rest) ↔ node.label ∈ addressLabels ∧ Addresses rest := by
  simp [Addresses]

@[simp] theorem addresses_append (front back : List Node) :
    Addresses (front ++ back) ↔ Addresses front ∧ Addresses back := by
  simp [Addresses, or_imp, forall_and]

theorem addresses_optionalNode (label : String) (value : Option String) (listed : label ∈ addressLabels) :
    Addresses (optionalNode label value) := by
  cases value <;> simp [optionalNode, listed]

section Slaves

variable {common : Common}

def slaveTree (common : Common) (master : DeviceName) (slave : BareEthernet) : Tree :=
  bareEthernetInterface common slave [⟨"MASTER", master.text⟩, ⟨"SLAVE", "yes"⟩]

@[simp] theorem slaveTree_device (master : DeviceName) (slave : BareEthernet) :
    (slaveTree common master slave).values "DEVICE" = [slave.name.text] := by
  simp [Tree.values, slaveTree, bareEthernetInterface, nameAttr]

@[simp] theorem slaveTree_master (master : DeviceName) (slave : BareEthernet) :
    (slaveTree common master slave).values "MASTER" = [master.text] := by
  simp [Tree.values, slaveTree, bareEthernetInterface, nameAttr]

theorem slaveTree_other (master : DeviceName) (slave : BareEthernet) {label : String}
    (listed : label ∈ ["BRIDGE", "TYPE", "VLAN"]) :
    (slaveTree common master slave).values label = [] := by
  simp only [List.mem_cons, List.not_mem_nil, or_false] at listed
  rcases listed with rfl | rfl | rfl <;> simp [Tree.values, slaveTree, bareEthernetInterface, nameAttr]

theorem bondSlaves_eq (team : BareBond) :
    bondSlaves common team = team.bond.slaves.map (slaveTree common team.name) := rfl

end Slaves

section Ports

variable (common : Common) (bridge : DeviceName)

def portTree : Port → Tree
  | .ethernet nic => bareEthernetInterface common nic [⟨"BRIDGE", bridge.text⟩]
  | .vlan link => bareVlanInterface common link [⟨"BRIDGE", bridge.text⟩]
  | .bond team => bareBondInterface common team [⟨"BRIDGE", bridge.text⟩]

def portSlaves : Port → List Tree
  | .ethernet _ | .vlan _ => []
  | .bond team => bondSlaves common team

theorem bridgePort_eq (port : Port) :
    bridgePort common bridge port = portTree common bridge port :: portSlaves common port := by
  cases port <;> rfl

@[simp] theorem portTree_bridge (port : Port) :
    (portTree common bridge port).values "BRIDGE" = [bridge.text] := by
  cases port <;>
    simp [Tree.values, portTree, bareEthernetInterface, bareVlanInterface, vlanInterfaceCommon,
      bareBondInterface, bondingOptsNode, nameAttr]

@[simp] theorem portTree_master (port : Port) : (portTree common bridge port).values "MASTER" = [] := by
  cases port <;>
    simp [Tree.values, portTree, bareEthernetInterface, bareVlanInterface, vlanInterfaceCommon,
      bareBondInterface, bondingOptsNode, nameAttr]

@[simp] theorem portTree_type (port : Port) : (portTree common bridge port).values "TYPE" = [] := by
  cases port <;>
    simp [Tree.values, portTree, bareEthernetInterface, bareVlanInterface, vlanInterfaceCommon,
      bareBondInterface, bondingOptsNode, nameAttr]

theorem mem_portSlaves {port : Port} {tree : Tree} (member : tree ∈ portSlaves common port) :
    ∃ team slave, port = .bond team ∧ slave ∈ team.bond.slaves ∧
      tree = slaveTree common team.name slave := by
  cases port with
  | ethernet nic => simp [portSlaves] at member
  | vlan link => simp [portSlaves] at member
  | bond team =>
    rw [portSlaves, bondSlaves_eq] at member
    obtain ⟨slave, listed, same⟩ := List.mem_map.mp member
    exact ⟨team, slave, rfl, listed, same.symm⟩

end Ports

section Root

variable {nodes : List Node} (addresses : Addresses nodes)
include addresses

theorem rootTree_shared (document : Interface) (label : String)
    (listed : label ∈ ["ONBOOT", "HOTPLUG", "MTU"]) :
    (rootTree nodes document).values label = labelled (shared document.common) label := by
  have quiet : labelled nodes label = [] := by
    apply addresses.labelled
    revert label
    decide
  simp only [List.mem_cons, List.not_mem_nil, or_false] at listed
  rcases listed with rfl | rfl | rfl <;> cases document <;>
    simp [Tree.values, rootTree, bareEthernetInterface, vlanInterfaceCommon, bondingOptsNode, nameAttr,
      Interface.common, quiet]

theorem rootTree_loose (document : Interface) (label : String) (listed : label ∈ ["BRIDGE", "MASTER"]) :
    (rootTree nodes document).values label = [] := by
  have quiet : labelled nodes label = [] := by
    apply addresses.labelled
    revert label
    decide
  simp only [List.mem_cons, List.not_mem_nil, or_false] at listed
  rcases listed with rfl | rfl <;> cases document <;>
    simp [Tree.values, rootTree, bareEthernetInterface, vlanInterfaceCommon, bondingOptsNode, nameAttr,
      quiet]

omit addresses in
theorem rootTree_addresses (document : Interface) {label : String}
    (listed : label ∈ "PREFIX" :: addressLabels) :
    (rootTree nodes document).values label = labelled nodes label := by
  have apart : ∀ label ∈ "PREFIX" :: addressLabels, ∀ other ∈ ["DEVICE", "HWADDR", "VLAN", "TYPE", "STP",
      "DELAY", "BONDING_OPTS", "ONBOOT", "HOTPLUG", "MTU"], other ≠ label := by decide
  have other := apart label listed
  simp only [List.mem_cons, List.not_mem_nil, or_false, forall_eq_or_imp, forall_eq] at other
  obtain ⟨device, hwaddr, vlan, type, stp, delay, opts, boot, plug, mtu⟩ := other
  cases document <;>
    simp [Tree.values, rootTree, bareEthernetInterface, vlanInterfaceCommon, bondingOptsNode, nameAttr,
      device, hwaddr, vlan, type, stp, delay, opts, boot.symm, plug.symm, mtu.symm]

theorem rootTree_type (document : Interface) :
    (rootTree nodes document).values "TYPE" =
      match document with
      | .bridge _ _ _ => ["Bridge"]
      | _ => [] := by
  have quiet : labelled nodes "TYPE" = [] := addresses.labelled (by decide)
  cases document <;>
    simp [Tree.values, rootTree, bareEthernetInterface, vlanInterfaceCommon, bondingOptsNode, nameAttr,
      quiet]

theorem rootTree_vlan (document : Interface) :
    (rootTree nodes document).values "VLAN" =
      match document with
      | .vlan _ _ => ["yes"]
      | _ => [] := by
  have quiet : labelled nodes "VLAN" = [] := addresses.labelled (by decide)
  cases document <;>
    simp [Tree.values, rootTree, bareEthernetInterface, vlanInterfaceCommon, bondingOptsNode, nameAttr,
      quiet]

end Root

section Addressing

variable {machine : Machine}

theorem ipv6Addresses_addresses (ips : List Ipv6Ip) : Addresses (ipv6Addresses ips) := by
  rcases ips with _ | ⟨ip, _ | ⟨second, rest⟩⟩ <;> simp [ipv6Addresses, addressLabels]

theorem protocolIpv6_addresses (ipv6 : Ipv6) : Addresses (protocolIpv6 ipv6) := by
  have gateway := addresses_optionalNode "IPV6_DEFAULTGW" (ipv6.gateway.map (·.text)) (by decide)
  simp [protocolIpv6, ipv6Addresses_addresses, gateway, addressLabels]

-- The nodes of the ipv4 protocol, with the netmask for its prefix.
def ipv4Nodes (machine : Machine) : Ipv4 → List Node
  | .dhcp peerdns => ⟨"BOOTPROTO", "dhcp"⟩ :: optionalNode "PEERDNS" (peerdns.map (·.text))
  | .static address prefixLen gateway =>
    ⟨"BOOTPROTO", "none"⟩ :: ⟨"IPADDR", address.text⟩ ::
      (optionalNode "NETMASK" (prefixLen.map fun length => inetNtop (~~~ shiftMask machine length.value)) ++
        optionalNode "GATEWAY" (gateway.map (·.text)))

theorem ipv4Nodes_addresses (ipv4 : Ipv4) : Addresses (ipv4Nodes machine ipv4) := by
  cases ipv4 with
  | dhcp peerdns =>
    have dns := addresses_optionalNode "PEERDNS" (peerdns.map (·.text)) (by decide)
    simp [ipv4Nodes, dns, addressLabels]
  | static address prefixLen gateway =>
    simp only [ipv4Nodes, addresses_cons, addresses_append]
    exact ⟨by decide, by simp [addressLabels], addresses_optionalNode _ _ (by decide),
      addresses_optionalNode _ _ (by decide)⟩

theorem protocolIpv4_ok (machine : Machine) (ipv4 : Ipv4) (positive : ∀ length ∈ ipv4.prefixLength, length.value ≠ 0) :
    protocolIpv4 machine ipv4 = .ok (ipv4Nodes machine ipv4) := by
  cases ipv4 with
  | dhcp peerdns => rfl
  | static address prefixLen gateway =>
    rw [protocolIpv4_static]
    exact netmask_ok positive _

def addressNodes (machine : Machine) (addressing : Addressing) : List Node :=
  (addressing.ipv4.map (ipv4Nodes machine)).getD [] ++ (addressing.ipv6.map protocolIpv6).getD []

theorem addressNodes_addresses (addressing : Addressing) : Addresses (addressNodes machine addressing) := by
  rw [addressNodes, addresses_append]
  constructor
  · cases ipv4 : addressing.ipv4 with
    | none => simp
    | some protocol => exact ipv4Nodes_addresses protocol
  · cases ipv6 : addressing.ipv6 with
    | none => simp
    | some protocol => exact protocolIpv6_addresses protocol

theorem get_ok {document : Interface} (positive : ∀ length ∈ document.ipv4Prefix, length.value ≠ 0) :
    get machine document =
      .ok (rootTree (addressNodes machine document.common.addressing) document :: memberTrees document) := by
  have nodes : interfaceAddressing machine document.common.addressing =
      .ok (addressNodes machine document.common.addressing) := by
    cases ipv4 : document.common.addressing.ipv4 with
    | none => simp only [interfaceAddressing, addressNodes, ipv4]; rfl
    | some protocol =>
      have written := protocolIpv4_ok machine protocol (by
        simpa [Interface.ipv4Prefix, ipv4] using positive)
      simp only [interfaceAddressing, addressNodes, ipv4, written]
      rfl
  rw [get, nodes]
  rfl

end Addressing

end Netcf.RedHat
