import Netcf.RedHat.RoundTrip
import Netcf.Suse.Stylesheets

set_option autoImplicit false

-- What suse-put.xsl makes of the files that suse-get.xsl writes.
namespace Netcf.Suse

open Schema Stylesheet Shared
open RedHat (Node Tree Forest optionalNode labelled Addresses addresses_optionalNode)

section Forest

variable {machine : Machine} {document : Interface}

def ipv4Nodes (machine : Machine) : Ipv4 → List Node
  | .dhcp _ => [⟨"BOOTPROTO", "dhcp"⟩]
  | .static address prefixLen gateway =>
    ⟨"BOOTPROTO", "static"⟩ :: ⟨"IPADDR", address.text⟩ ::
      (optionalNode "NETMASK" (prefixLen.map fun length => inetNtop (~~~ shiftMask machine length.value)) ++
        optionalNode "GATEWAY" (gateway.map (·.text)))

theorem ipv4Nodes_addresses (ipv4 : Ipv4) : Addresses (ipv4Nodes machine ipv4) := by
  cases ipv4 with
  | dhcp peerdns => simp [ipv4Nodes, RedHat.addressLabels]
  | static address prefixLen gateway =>
    simp only [ipv4Nodes, RedHat.addresses_cons, RedHat.addresses_append]
    exact ⟨by decide, by simp [RedHat.addressLabels], addresses_optionalNode _ _ (by decide),
      addresses_optionalNode _ _ (by decide)⟩

def addressNodes (machine : Machine) (addressing : Addressing) : List Node :=
  (addressing.ipv4.map (ipv4Nodes machine)).getD [] ++ (addressing.ipv6.map RedHat.protocolIpv6).getD []

theorem addressNodes_addresses (addressing : Addressing) : Addresses (addressNodes machine addressing) := by
  rw [addressNodes, RedHat.addresses_append]
  constructor
  · cases addressing.ipv4 with
    | none => simp
    | some protocol => exact ipv4Nodes_addresses protocol
  · cases addressing.ipv6 with
    | none => simp
    | some protocol => exact RedHat.protocolIpv6_addresses protocol

-- ipcalc:netmask refuses the prefix 0 and no other that the schema allows.
theorem protocolIpv4_cases (machine : Machine) (ipv4 : Ipv4) :
    ((∀ length ∈ ipv4.prefixLength, length.value ≠ 0) ∧ protocolIpv4 machine ipv4 = .ok (ipv4Nodes machine ipv4)) ∨
      ((∃ length ∈ ipv4.prefixLength, length.value = 0) ∧ ∃ e, protocolIpv4 machine ipv4 = .error e) := by
  cases ipv4 with
  | dhcp peerdns => exact Or.inl ⟨nofun, rfl⟩
  | static address prefixLen gateway =>
    cases prefixLen with
    | none => exact Or.inl ⟨nofun, rfl⟩
    | some length =>
      by_cases zero : length.value = 0
      · right
        refine ⟨⟨length, rfl, zero⟩, ?_⟩
        simp only [protocolIpv4, ipcalcNetmask_nat, zero]
        exact ⟨_, rfl⟩
      · left
        have inRange : ¬ (length.value = 0 ∨ length.value > 32) := by
          have most := length.bounded
          unfold Unsigned.value at *
          omega
        refine ⟨fun other present => Option.some.inj present ▸ zero, ?_⟩
        simp only [protocolIpv4, ipcalcNetmask_nat, if_neg inRange]
        rfl

def forestOf (machine : Machine) (document : Interface) : Forest :=
  rootTree (addressNodes machine document.common.addressing) document :: memberTrees document

theorem get_iff {forest : Forest} :
    get machine document = .ok forest ↔
      (∀ length ∈ document.ipv4Prefix, length.value ≠ 0) ∧ forest = forestOf machine document := by
  cases present : document.common.addressing.ipv4 with
  | none =>
    have positive : ∀ length ∈ document.ipv4Prefix, length.value ≠ 0 := by simp [Interface.ipv4Prefix, present]
    have result : get machine document = .ok (forestOf machine document) := by
      simp only [get, interfaceAddressing, forestOf, addressNodes, present]
      rfl
    rw [result, Except.ok.injEq, eq_comm]
    exact ⟨fun same => ⟨positive, same⟩, And.right⟩
  | some ipv4 =>
    have prefixes : document.ipv4Prefix = ipv4.prefixLength := by simp [Interface.ipv4Prefix, present]
    rw [prefixes]
    rcases protocolIpv4_cases machine ipv4 with ⟨positive, written⟩ | ⟨⟨length, listed, zero⟩, e, refused⟩
    · have result : get machine document = .ok (forestOf machine document) := by
        simp only [get, interfaceAddressing, forestOf, addressNodes, present, written]
        rfl
      rw [result, Except.ok.injEq, eq_comm]
      exact ⟨fun same => ⟨positive, same⟩, And.right⟩
    · have result : get machine document = .error e := by
        simp only [get, interfaceAddressing, present, refused]
        rfl
      rw [result]
      constructor
      · intro impossible
        cases impossible
      · rintro ⟨positive, _⟩
        exact absurd zero (positive length listed)

end Forest

section Labels

theorem labelled_shared (common : Common) {label : String} (notStart : label ≠ "STARTMODE") (notMtu : label ≠ "MTU") :
    labelled (shared common) label = [] := by
  simp [shared, RedHat.mtu, notStart.symm, notMtu.symm]

theorem labelled_slaveNodes (team : BareBond) {label : String}
    (other : "BONDING_SLAVE_".toList.isPrefixOf label.toList = false) : labelled (slaveNodes team) label = [] := by
  apply RedHat.labelled_of_forall
  intro node member same
  obtain ⟨place, _, rfl⟩ := List.mem_map.mp member
  have starts : "BONDING_SLAVE_".toList.isPrefixOf label.toList = true := by
    rw [← same, List.isPrefixOf_iff_prefix, String.toList_append]
    exact List.prefix_append _ _
  rw [starts] at other
  cases other

variable {nodes : List Node} (addresses : Addresses nodes)
include addresses

-- The keys by which suse-put.xsl tells the kinds of files apart are never written.
theorem rootTree_keyless (document : Interface) {label : String} (key : label ∈ ["MASTER", "TYPE", "VLAN"]) :
    (rootTree nodes document).values label = [] := by
  have quiet : labelled nodes label = [] := by
    apply addresses.labelled
    revert label
    decide
  have starts : ∀ label ∈ ["MASTER", "TYPE", "VLAN"], "BONDING_SLAVE_".toList.isPrefixOf label.toList = false := by
    decide
  have slaves : ∀ team, labelled (slaveNodes team) label = [] := fun team =>
    labelled_slaveNodes team (starts label key)
  have common : ∀ common, labelled (shared common) label = [] := fun common =>
    labelled_shared common (by rintro rfl; revert key; decide) (by rintro rfl; revert key; decide)
  simp only [List.mem_cons, List.not_mem_nil, or_false] at key
  rcases key with rfl | rfl | rfl <;> cases document <;>
    simp [Tree.values, rootTree, bareEthernetInterface, vlanInterfaceCommon, RedHat.bondingOptsNode, nameAttr, quiet,
      slaves, common]

theorem rootTree_bridge (document : Interface) :
    (rootTree nodes document).has "BRIDGE" = match document with
      | .bridge _ _ _ => true
      | _ => false := by
  have quiet : labelled nodes "BRIDGE" = [] := addresses.labelled (by decide)
  have slaves : ∀ team, labelled (slaveNodes team) "BRIDGE" = [] := fun team => labelled_slaveNodes team (by decide)
  cases document <;>
    simp [Tree.has, Tree.value?, Tree.values, rootTree, bareEthernetInterface, vlanInterfaceCommon,
      RedHat.bondingOptsNode, nameAttr, quiet, slaves, labelled_shared]

omit addresses

theorem bareEthernet_keyless (common : Common) (nic : BareEthernet) {label : String}
    (key : label ∈ ["MASTER", "TYPE", "VLAN", "BRIDGE"]) : (bareEthernetInterface common nic []).values label = [] := by
  simp only [List.mem_cons, List.not_mem_nil, or_false] at key
  rcases key with rfl | rfl | rfl | rfl <;>
    simp [Tree.values, bareEthernetInterface, nameAttr, labelled_shared]

theorem bridgePort_keyless (common : Common) (port : Port) {tree : Tree} (member : tree ∈ bridgePort common port)
    {label : String} (key : label ∈ ["MASTER", "TYPE", "VLAN", "BRIDGE"]) : tree.values label = [] := by
  cases port with
  | ethernet nic =>
    rw [List.mem_singleton.mp member]
    exact bareEthernet_keyless common nic key
  | vlan link =>
    rw [List.mem_singleton.mp member]
    simp only [List.mem_cons, List.not_mem_nil, or_false] at key
    rcases key with rfl | rfl | rfl | rfl <;>
      simp [Tree.values, bareVlanInterface, vlanInterfaceCommon, nameAttr, labelled_shared]
  | bond team =>
    rcases List.mem_cons.mp member with rfl | slave
    · simp only [List.mem_cons, List.not_mem_nil, or_false] at key
      rcases key with rfl | rfl | rfl | rfl <;>
        simp [Tree.values, bareBondInterface, RedHat.bondingOptsNode, nameAttr, labelled_shared]
    · obtain ⟨nic, _, rfl⟩ := List.mem_map.mp slave
      exact bareEthernet_keyless common nic key

theorem memberTrees_keyless {document : Interface} {tree : Tree} (member : tree ∈ memberTrees document)
    {label : String} (key : label ∈ ["MASTER", "TYPE", "VLAN", "BRIDGE"]) : tree.values label = [] := by
  cases document with
  | ethernet common nic => cases member
  | vlan common link => cases member
  | bridge common name hub =>
    obtain ⟨port, _, inside⟩ := List.mem_flatMap.mp member
    exact bridgePort_keyless common port inside key
  | bond common team =>
    obtain ⟨nic, _, rfl⟩ := List.mem_map.mp member
    exact bareEthernet_keyless common nic key

end Labels

section Put

variable {machine : Machine} {document : Interface}

theorem forestOf_keyless {tree : Tree} (member : tree ∈ forestOf machine document) {label : String}
    (key : label ∈ ["MASTER", "TYPE", "VLAN"]) : tree.values label = [] := by
  rcases List.mem_cons.mp member with rfl | inside
  · exact rootTree_keyless (addressNodes_addresses _) document key
  · apply memberTrees_keyless inside
    revert label
    decide

-- Every file reads as an Ethernet card, but for that of a bridge, which matches no template.
theorem putTree_forest {tree : Tree} (member : tree ∈ forestOf machine document) :
    putTree machine (forestOf machine document) tree =
      if tree.has "BRIDGE" then none else some (putEthernet machine tree) := by
  have bond : RedHat.matchesBond (forestOf machine document) tree = false := by
    rw [RedHat.matchesBond, Bool.and_eq_false_iff]
    left
    rw [List.any_eq_false]
    intro device _ found
    obtain ⟨slave, listed, holds⟩ := List.any_eq_true.mp found
    rw [Tree.holds, forestOf_keyless listed (by simp)] at holds
    cases holds
  have type : tree.holds "TYPE" "Bridge" = false := by
    rw [Tree.holds, forestOf_keyless member (by simp)]
    rfl
  have vlan : tree.holds "VLAN" "yes" = false := by
    rw [Tree.holds, forestOf_keyless member (by simp)]
    rfl
  have master : tree.has "MASTER" = false := by
    rw [Tree.has, Tree.value?, forestOf_keyless member (by simp)]
    rfl
  have tagged : tree.has "VLAN" = false := by
    rw [Tree.has, Tree.value?, forestOf_keyless member (by simp)]
    rfl
  rw [putTree, bond, type, vlan, master, tagged]
  cases tree.has "BRIDGE" <;> rfl

theorem put_ethernets {result : Xml} (member : result ∈ put machine (forestOf machine document)) :
    ∃ tree ∈ forestOf machine document, result = putEthernet machine tree := by
  obtain ⟨tree, inside, written⟩ := List.mem_filterMap.mp member
  rw [putTree_forest inside] at written
  split at written
  · cases written
  · exact ⟨tree, inside, (Option.some.inj written).symm⟩

end Put

section Ethernet

variable {machine : Machine} {common : Common} {nic : BareEthernet}

-- The start mode as it comes back; manual is not one of the schema's.
def rereadStart : StartMode → String
  | .onboot => "onboot"
  | .none => "manual"
  | .hotplug => "none"

theorem card_values {nodes : List Node} {label : String} (listed : label ∈ "PREFIX" :: RedHat.addressLabels) :
    (bareEthernetInterface common nic nodes).values label =
      (⟨"", ⟨"BOOTPROTO", "none"⟩ :: nodes⟩ : Tree).values label := by
  have apart : ∀ label ∈ "PREFIX" :: RedHat.addressLabels,
      ∀ other ∈ ["DEVICE", "HWADDR", "STARTMODE", "MTU"], other ≠ label := by decide
  have other := apart label listed
  simp only [List.mem_cons, List.not_mem_nil, or_false, forall_eq_or_imp, forall_eq] at other
  obtain ⟨device, hwaddr, start, mtu⟩ := other
  simp [Tree.values, bareEthernetInterface, nameAttr, device, hwaddr, labelled_shared common start.symm mtu.symm]

theorem putAddressing_card (noIpv6 : common.addressing.ipv6 = none)
    (noPeerdns : ∀ peerdns, common.addressing.ipv4 ≠ some (.dhcp (some peerdns))) :
    RedHat.putAddressing machine (bareEthernetInterface common nic (addressNodes machine common.addressing)) =
      (common.addressing.ipv4.map (RedHat.rereadIpv4 machine)).toList := by
  rw [RedHat.putAddressing_congr _ _ fun label listed => card_values listed, addressNodes, noIpv6]
  cases present : common.addressing.ipv4 with
  | none => simp [RedHat.putAddressing, RedHat.putIpv4, RedHat.putIpv6, Tree.holds, Tree.has, Tree.value?, Tree.values]
  | some ipv4 =>
    cases ipv4 with
    | dhcp peerdns =>
      cases peerdns with
      | some value => exact absurd present (noPeerdns value)
      | none =>
        simp [RedHat.putAddressing, RedHat.putIpv4, RedHat.putIpv6, Tree.holds, Tree.value?, Tree.values, ipv4Nodes,
          RedHat.rereadIpv4, Ipv4.toXml, dhcpElement]
    | static address prefixLen gateway =>
      cases prefixLen <;>
        simp [RedHat.putAddressing, RedHat.putIpv4, RedHat.putIpv6, RedHat.putPrefix, Tree.holds, Tree.has, Tree.value,
          Tree.value?, Tree.values, ipv4Nodes, RedHat.rereadIpv4]

theorem putEthernet_card (noIpv6 : common.addressing.ipv6 = none)
    (noPeerdns : ∀ peerdns, common.addressing.ipv4 ≠ some (.dhcp (some peerdns))) :
    putEthernet machine (bareEthernetInterface common nic (addressNodes machine common.addressing)) =
      .element "interface" [("type", "ethernet"), ("name", nic.name.text)]
        (.element "start" [("mode", rereadStart common.start)] [] :: (nic.content ++ common.mtuElement ++
          (common.addressing.ipv4.map (RedHat.rereadIpv4 machine)).toList)) := by
  have quiet : ∀ label ∈ ["DEVICE", "HWADDR", "STARTMODE", "MTU"],
      labelled (addressNodes machine common.addressing) label = [] := by
    intro label listed
    apply (addressNodes_addresses common.addressing).labelled
    revert label
    decide
  simp only [List.mem_cons, List.not_mem_nil, or_false, forall_eq_or_imp, forall_eq] at quiet
  have mtu : RedHat.putMtu (bareEthernetInterface common nic (addressNodes machine common.addressing)) =
      common.mtuElement := by
    cases size : common.mtu <;>
      simp [RedHat.putMtu, Tree.value?, Tree.values, bareEthernetInterface, nameAttr, shared, RedHat.mtu,
        Common.mtuElement, quiet, size]
  have mac : RedHat.putMac (bareEthernetInterface common nic (addressNodes machine common.addressing)) =
      nic.content := by
    cases address : nic.mac <;>
      simp [RedHat.putMac, Tree.value?, Tree.values, bareEthernetInterface, nameAttr, labelled_shared,
        BareEthernet.content, quiet, address]
  have start : putStartmode (bareEthernetInterface common nic (addressNodes machine common.addressing)) =
      .element "start" [("mode", rereadStart common.start)] [] := by
    cases mode : common.start <;>
      simp [putStartmode, Tree.holds, Tree.values, bareEthernetInterface, nameAttr, shared, RedHat.mtu, startmode,
        rereadStart, quiet, mode]
  have name : RedHat.putName (bareEthernetInterface common nic (addressNodes machine common.addressing)) =
      ("name", nic.name.text) := by
    simp [RedHat.putName, Tree.value, Tree.value?, Tree.values, bareEthernetInterface, nameAttr]
  rw [putEthernet, name, start, mac, mtu, putAddressing_card noIpv6 noPeerdns]

end Ethernet

section Content

def kind : Interface → String
  | .ethernet _ _ => "ethernet"
  | .vlan _ _ => "vlan"
  | .bridge _ _ _ => "bridge"
  | .bond _ _ => "bond"

def members : Interface → List Xml
  | .ethernet _ _ => []
  | .vlan _ link => [link.device]
  | .bridge _ _ hub => hub.ports.map Port.toXml
  | .bond _ team => team.bond.slaves.map BareEthernet.toXml

-- What the round trip is to keep of a document.
structure SameContent (document result : Interface) : Prop where
  kind : kind result = kind document
  name : result.rootName = document.rootName
  start : result.common.start = document.common.start
  ipv4 : result.common.addressing.ipv4 = document.common.addressing.ipv4
  members : members result = members document

def RoundTrips (machine : Machine) (document : Interface) : Prop :=
  ∃ forest result, get machine document = .ok forest ∧ put machine forest = [Interface.toXml result] ∧
    SameContent document result

def typeOf : Xml → Option String
  | .element _ attributes _ => attributes.lookup "type"

def isProtocol : Xml → Bool
  | .element name _ _ => name = "protocol"

variable {machine : Machine} {document : Interface}

theorem typeOf_toXml (document : Interface) : typeOf document.toXml = some (kind document) := by
  cases document <;> rfl

theorem addressing_protocols {addressing : Addressing} {element : Xml} (member : element ∈ addressing.toXml) :
    isProtocol element = true := by
  have ipv4 : ∀ protocol : Option Ipv4, element ∈ (protocol.map Ipv4.toXml).toList → isProtocol element = true := by
    intro protocol listed
    obtain ⟨found, _, rfl⟩ := Option.map_eq_some_iff.mp (Option.mem_toList.mp listed)
    cases found <;> rfl
  have ipv6 : ∀ protocol : Option Ipv6, element ∈ (protocol.map Ipv6.toXml).toList → isProtocol element = true := by
    intro protocol listed
    obtain ⟨found, _, rfl⟩ := Option.map_eq_some_iff.mp (Option.mem_toList.mp listed)
    rfl
  cases addressing with
  | ipv4First first second =>
    rcases List.mem_append.mp member with left | right
    · exact ipv4 first left
    · exact ipv6 second right
  | ipv6First first second =>
    rcases List.mem_append.mp member with left | right
    · exact ipv6 first left
    · exact ipv4 second right

theorem mem_addressing {addressing : Addressing} {ipv4 : Ipv4} (present : addressing.ipv4 = some ipv4) :
    ipv4.toXml ∈ addressing.toXml := by
  cases addressing with
  | ipv4First first second =>
    cases present
    exact List.mem_append_left _ (List.mem_singleton_self _)
  | ipv6First first second =>
    cases present
    exact List.mem_append_right _ (List.mem_singleton_self _)

-- The protocol elements among the children of a card.
theorem protocols_card {common : Common} {nic : BareEthernet} {start : Xml} (other : isProtocol start = false)
    {protocols : List Xml} (all : ∀ element ∈ protocols, isProtocol element = true) :
    (start :: (nic.content ++ common.mtuElement ++ protocols)).filter isProtocol = protocols := by
  have mac : nic.content.filter isProtocol = [] := by
    cases address : nic.mac <;> simp [BareEthernet.content, address, isProtocol]
  have mtu : common.mtuElement.filter isProtocol = [] := by
    cases size : common.mtu <;> simp [Common.mtuElement, size, isProtocol]
  rw [List.filter_cons_of_neg (by simp [other]), List.filter_append, List.filter_append, mac, mtu,
    List.filter_eq_self.mpr all]
  rfl

theorem put_card {common : Common} {nic : BareEthernet} :
    put machine (forestOf machine (.ethernet common nic)) =
      [putEthernet machine (bareEthernetInterface common nic (addressNodes machine common.addressing))] := by
  have root : rootTree (addressNodes machine common.addressing) (.ethernet common nic) ∈
      forestOf machine (.ethernet common nic) := List.mem_cons_self
  have kept := putTree_forest root
  rw [rootTree_bridge (addressNodes_addresses _)] at kept
  exact List.filterMap_cons_some kept

theorem kind_ethernet (round : RoundTrips machine document) : ∃ common nic, document = .ethernet common nic := by
  obtain ⟨forest, result, transformed, back, same⟩ := round
  obtain ⟨_, rfl⟩ := get_iff.mp transformed
  obtain ⟨tree, _, written⟩ := @put_ethernets machine document result.toXml (back ▸ List.mem_singleton_self _)
  have type := typeOf_toXml result
  rw [written] at type
  have kinds : kind document = "ethernet" := same.kind ▸ (Option.some.inj type).symm
  cases document with
  | ethernet common nic => exact ⟨common, nic, rfl⟩
  | vlan common link =>
    change "vlan" = "ethernet" at kinds
    exact absurd kinds (by decide)
  | bridge common name hub =>
    change "bridge" = "ethernet" at kinds
    exact absurd kinds (by decide)
  | bond common team =>
    change "bond" = "ethernet" at kinds
    exact absurd kinds (by decide)

theorem card_parts {common common' : Common} {nic nic' : BareEthernet} {attributes : List (String × String)}
    {start : Xml} {protocols : List Xml} (other : isProtocol start = false)
    (all : ∀ element ∈ protocols, isProtocol element = true)
    (same : .element "interface" attributes (start :: (nic.content ++ common.mtuElement ++ protocols)) =
      (Interface.ethernet common' nic').toXml) :
    start = common'.startElement ∧ protocols = common'.addressing.toXml := by
  have children : (Interface.ethernet common' nic').toXml = .element "interface" _ (common'.startElement ::
    (nic'.content ++ common'.mtuElement ++ common'.addressing.toXml)) := rfl
  rw [children] at same
  injection same with _ _ inside
  have filtered := congrArg (List.filter isProtocol) inside
  rw [protocols_card other all, protocols_card rfl fun _ => addressing_protocols] at filtered
  exact ⟨(List.cons.inj inside).1, filtered⟩

theorem rereadStart_kept {start : StartMode} (kept : rereadStart start = start.text) : start = .onboot := by
  cases start with
  | onboot => rfl
  | none => exact absurd kept (by decide +kernel)
  | hotplug => exact absurd kept (by decide +kernel)

-- What must hold of a card, on one machine.
theorem round_trips_card {common : Common} {nic : BareEthernet} (noIpv6 : common.addressing.ipv6 = none)
    (noPeerdns : ∀ peerdns, common.addressing.ipv4 ≠ some (.dhcp (some peerdns))) :
    RoundTrips machine (.ethernet common nic) ↔
      (∀ length ∈ (Interface.ethernet common nic).ipv4Prefix, length.value ≠ 0) ∧ common.start = .onboot ∧
        ∀ length ∈ (Interface.ethernet common nic).ipv4Prefix, RedHat.reread machine length = length.text := by
  constructor
  · rintro ⟨forest, result, transformed, back, same⟩
    obtain ⟨positive, rfl⟩ := get_iff.mp transformed
    rw [put_card, List.singleton_inj, putEthernet_card noIpv6 noPeerdns] at back
    have ethernet : kind result = "ethernet" := same.kind
    cases result with
    | vlan _ _ | bridge _ _ _ | bond _ _ => exact absurd ethernet (by simp [kind])
    | ethernet common' nic' =>
      have all : ∀ element ∈ (common.addressing.ipv4.map (RedHat.rereadIpv4 machine)).toList,
          isProtocol element = true := by
        intro element member
        obtain ⟨found, _, rfl⟩ := Option.map_eq_some_iff.mp (Option.mem_toList.mp member)
        cases found <;> rfl
      obtain ⟨modes, protocols⟩ := card_parts rfl all back
      have mode : common'.start = common.start := same.start
      refine ⟨positive, rereadStart_kept ?_, ?_⟩
      · rw [Common.startElement, mode] at modes
        simpa using modes
      · intro length listed
        obtain ⟨ipv4, present, given⟩ := Option.bind_eq_some_iff.mp listed
        have present : common.addressing.ipv4 = some ipv4 := present
        have member : ipv4.toXml ∈ common'.addressing.toXml := mem_addressing (same.ipv4.trans present)
        rw [← protocols, present] at member
        exact (RedHat.rereadIpv4_iff machine ipv4).mp (List.mem_singleton.mp member).symm length given
  · rintro ⟨positive, onboot, restored⟩
    refine ⟨_, .ethernet common nic, get_iff.mpr ⟨positive, rfl⟩, ?_, rfl, rfl, rfl, rfl, rfl⟩
    have whole := (@RedHat.element_reread_iff machine (.ethernet common nic) noIpv6).mpr restored
    rw [put_card, putEthernet_card noIpv6 noPeerdns, ← whole, onboot]
    change [Xml.element _ _ _] = [Xml.element _ _ (common.startElement :: _)]
    rw [Common.startElement, onboot]
    rfl

theorem transforms_round_trip_suse_iff (noIpv6 : document.common.addressing.ipv6 = none)
    (noPeerdns : ∀ peerdns, document.common.addressing.ipv4 ≠ some (.dhcp (some peerdns))) :
    (∀ machine, RoundTrips machine document) ↔
      (∃ common nic, document = .ethernet common nic) ∧ document.common.start = .onboot ∧
        ∀ length ∈ document.ipv4Prefix, length.Canonical ∧ length.value ≠ 0 ∧ length.value ≠ 32 := by
  constructor
  · intro round
    obtain ⟨common, nic, rfl⟩ := kind_ethernet (round countModulo)
    have each := fun machine => (round_trips_card noIpv6 noPeerdns).mp (round machine)
    refine ⟨⟨common, nic, rfl⟩, (each countModulo).2.1, ?_⟩
    intro length listed
    have positive := (each countModulo).1 length listed
    have back := (reread_prefix_iff length positive).mp fun machine => (each machine).2.2 length listed
    exact ⟨back.1, positive, back.2⟩
  · rintro ⟨⟨common, nic, rfl⟩, onboot, prefixes⟩ machine
    refine (round_trips_card noIpv6 noPeerdns).mpr ⟨fun length listed => (prefixes length listed).2.1, onboot, ?_⟩
    intro length listed
    obtain ⟨canonical, positive, narrow⟩ := prefixes length listed
    exact (reread_prefix_iff length positive).mpr ⟨canonical, narrow⟩ machine

end Content

section Examples

theorem transforms_round_trip_suse_iff_card : RoundTrips countModulo (.ethernet (static networkPrefix) ⟨eth0, none⟩) :=
  (transforms_round_trip_suse_iff rfl (by simp [static, Interface.common, Addressing.ipv4])).mpr
    ⟨⟨_, _, rfl⟩, rfl, by decide⟩ countModulo

-- The vlan comes back as a network card of that name.
theorem vlan_comes_back_ethernet :
    (get countModulo (.vlan unaddressed tagged)).toOption.map (put countModulo) =
        some [(Interface.ethernet unaddressed ⟨eth2Tagged, none⟩).toXml] ∧
      (Interface.vlan unaddressed tagged).names.Nodup ∧ tagged.WellNamed ∧ '.' ∉ tagged.base.text.toList ∧
      ¬ RoundTrips countModulo (.vlan unaddressed tagged) := by
  refine ⟨by decide +kernel, by decide, by decide, by decide, ?_⟩
  intro round
  obtain ⟨common, nic, impossible⟩ := kind_ethernet round
  cases impossible

end Examples

end Netcf.Suse
