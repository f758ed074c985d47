import Netcf.Shared.Lists
import Netcf.RedHat.Forest

set_option autoImplicit false

namespace Netcf.RedHat

open Schema Stylesheet Shared

section Slaves

variable {common : Common}

theorem bareEthernet_mac (nic : BareEthernet) {rest : List Node} (noMac : labelled rest "HWADDR" = []) :
    putMac (bareEthernetInterface common nic rest) = nic.content := by
  have address : (bareEthernetInterface common nic rest).value? "HWADDR" = nic.mac.map (·.text) := by
    simp [Tree.value?, Tree.values, bareEthernetInterface, nameAttr, noMac]
  rw [putMac, address]
  cases mac : nic.mac <;> simp [BareEthernet.content, mac]

theorem putBareEthernet_bareEthernet (nic : BareEthernet) {rest : List Node}
    (noMac : labelled rest "HWADDR" = []) :
    putBareEthernet (bareEthernetInterface common nic rest) = nic.toXml := by
  rw [putBareEthernet, bareEthernet_mac nic noMac, putName, bareEthernetInterface, nameAttr_device]
  rfl

@[simp] theorem putBareEthernet_slaveTree (master : DeviceName) (slave : BareEthernet) :
    putBareEthernet (slaveTree common master slave) = slave.toXml :=
  putBareEthernet_bareEthernet slave (by simp)

theorem filter_name {slaves : List BareEthernet} (test : String → Bool) (master : DeviceName) :
    (slaves.map (slaveTree common master)).filter (fun slave => (slave.values "DEVICE").any test) =
      (slaves.filter fun slave => test slave.name.text).map (slaveTree common master) := by
  simp [List.filter_map, Function.comp_def]

-- The primary slave comes first, and the others follow in the order of the forest.
theorem primary_first (bond : BondElement) (distinct : bond.names.Nodup) :
    bond.slaves.filter (fun slave => slave.name.text = bond.first.name.text) ++
      bond.slaves.filter (fun slave => slave.name.text ≠ bond.first.name.text) = bond.slaves := by
  have apart : ∀ slave ∈ bond.others, slave.name.text ≠ bond.first.name.text := by
    intro slave member same
    have equal := Pattern.Lexeme.text_injective same
    simp only [BondElement.names, BondElement.slaves, List.map_cons, List.nodup_cons, List.mem_map,
      not_exists, not_and] at distinct
    exact distinct.1 slave member (by rw [equal])
  have none_first : bond.others.filter (fun slave => slave.name.text = bond.first.name.text) = [] := by
    simpa [List.filter_eq_nil_iff] using apart
  have all_others : bond.others.filter (fun slave => slave.name.text ≠ bond.first.name.text) =
      bond.others := by
    simpa [List.filter_eq_self] using apart
  simp only [ne_eq, decide_not] at all_others
  simp [BondElement.slaves, none_first, all_others]

theorem putBondElement_bond (forest : Forest) (tree : Tree) (team : BareBond)
    (opts : tree.value "BONDING_OPTS" = bondingOpts team.bond)
    (slaves : forest.filter (fun slave => enslaved slave tree "MASTER") = bondSlaves common team)
    (distinct : team.bond.names.Nodup) (free : KeywordFree team.bond.first.name.text) :
    putBondElement forest tree = team.bond.toXml := by
  have device : ∀ slave : Tree, ∀ name, slave.holds "DEVICE" name =
      (slave.values "DEVICE").any (· = name) := by
    intro slave name
    simp [Tree.holds, List.any_eq, eq_comm]
  simp only [putBondElement, opts, slaves, modeAttribute_bondingOpts team.bond free, bondSlaves_eq,
    monitorElements_bondingOpts team.bond free, bondOption_primary team.bond free, device, filter_name]
  rw [BondElement.toXml, List.append_assoc, ← List.map_append, ← List.map_append]
  congr 2
  have unwrap : (putBareEthernet ∘ slaveTree common team.name) = BareEthernet.toXml := by
    funext slave
    exact putBareEthernet_slaveTree team.name slave
  rw [List.map_map, unwrap]
  congr 1
  by_cases backup : team.bond.mode = some .activeBackup
  · simp only [backup, if_true]
    exact primary_first team.bond distinct
  · have named : ∀ slave : BareEthernet, slave.name.text ≠ "" := by
      intro slave empty
      exact slave.name.nonempty (by decide) (by simp [empty])
    simp [backup, named]

end Slaves

theorem enslaved_of_device {master : Tree} {device : String} (named : master.values "DEVICE" = [device])
    (tree : Tree) (label : String) : enslaved tree master label = tree.holds label device := by
  simp [enslaved, named]

theorem substringBefore_deviceName (link : BareVlan) (plain : '.' ∉ link.base.text.toList) :
    substringBefore link.deviceName "." = link.base.text := by
  have found := @Search.dropInfix?_mark _ _ _ link.tag.text.toList _ plain
  simp [substringBefore, BareVlan.deviceName, found]

theorem substringAfter_deviceName (link : BareVlan) (plain : '.' ∉ link.base.text.toList) :
    substringAfter link.deviceName "." = link.tag.text := by
  have found := @Search.dropInfix?_mark _ _ _ link.tag.text.toList _ plain
  simp [substringAfter, BareVlan.deviceName, found]

theorem putVlanDevice_vlan (link : BareVlan) (plain : '.' ∉ link.base.text.toList) (rest : List Node) :
    putVlanDevice (vlanInterfaceCommon link rest) = link.device := by
  rw [putVlanDevice, vlanInterfaceCommon, nameAttr_device, substringBefore_deviceName link plain,
    substringAfter_deviceName link plain]
  rfl

theorem vlan_attributes (link : BareVlan) (named : link.WellNamed) (rest : List Node) :
    [("type", "vlan"), putName (vlanInterfaceCommon link rest)] = link.attributes := by
  rw [putName, vlanInterfaceCommon, nameAttr_device, BareVlan.attributes, named]
  rfl

section Ports

variable (common : Common) (bridge : DeviceName)

theorem filter_ports (ports : List Port) :
    (ports.flatMap (bridgePort common bridge)).filter (fun tree => tree.holds "BRIDGE" bridge.text) =
      ports.map (portTree common bridge) := by
  induction ports with
  | nil => rfl
  | cons port rest ih =>
    have slaves : (portSlaves common port).filter (fun tree => tree.holds "BRIDGE" bridge.text) = [] := by
      rw [List.filter_eq_nil_iff]
      intro tree member
      obtain ⟨team, slave, _, _, rfl⟩ := mem_portSlaves common member
      simp [Tree.holds, slaveTree_other]
    rw [List.flatMap_cons, List.filter_append, ih, bridgePort_eq]
    simp [Tree.holds] at slaves ⊢
    exact slaves

theorem filter_masters (port : Port) (master : DeviceName) (other : port.name ≠ some master) :
    (bridgePort common bridge port).filter (fun tree => tree.holds "MASTER" master.text) = [] := by
  rw [bridgePort_eq, List.filter_eq_nil_iff]
  intro tree member
  rcases List.mem_cons.mp member with rfl | slave
  · simp [Tree.holds]
  · obtain ⟨team, slave, rfl, _, rfl⟩ := mem_portSlaves common slave
    have apart : master.text ≠ team.name.text := by
      intro same
      exact other (congrArg some (Pattern.Lexeme.text_injective same.symm))
    simp [Tree.holds, apart]

theorem filter_slaves {ports : List Port} (distinct : (ports.map Port.name).Nodup) {team : BareBond}
    (listed : Port.bond team ∈ ports) :
    (ports.flatMap (bridgePort common bridge)).filter (fun tree => tree.holds "MASTER" team.name.text) =
      bondSlaves common team := by
  rw [List.filter_flatMap]
  rw [Lists.flatMap_unique distinct listed fun port _ => filter_masters common bridge port team.name]
  rw [bridgePort_eq, portSlaves, bondSlaves_eq]
  simp [Tree.holds]

end Ports

section Root

variable {nodes : List Node} (addresses : Addresses nodes)
include addresses

theorem putStartmode_root (document : Interface) :
    putStartmode (rootTree nodes document) = document.common.startElement := by
  rw [putStartmode]
  simp only [Tree.holds, rootTree_shared addresses document "HOTPLUG" (by simp),
    rootTree_shared addresses document "ONBOOT" (by simp)]
  cases start : document.common.start <;>
    simp [shared, startmode, mtu, start, Common.startElement, StartMode.text]

theorem putMtu_root (document : Interface) :
    putMtu (rootTree nodes document) = document.common.mtuElement := by
  rw [putMtu, Tree.value?, rootTree_shared addresses document "MTU" (by simp)]
  cases start : document.common.start <;> cases size : document.common.mtu <;>
    simp [shared, startmode, mtu, start, size, Common.mtuElement]

end Root

section Templates

variable {common : Common} {machine : Machine} {forest : Forest}

theorem matchesBond_false {tree : Tree}
    (unmastered : ∀ device ∈ tree.values "DEVICE", ∀ slave ∈ forest, slave.holds "MASTER" device = false) :
    matchesBond forest tree = false := by
  rw [matchesBond, Bool.and_eq_false_iff]
  left
  rw [List.any_eq_false]
  intro device named
  simpa using unmastered device named

theorem putTree_port (bridge : DeviceName) (port : Port) :
    putTree machine forest (portTree common bridge port) = none := by
  simp [putTree, matchesBond, Tree.has, Tree.value?, Tree.holds]

theorem putTree_slave (master : DeviceName) (slave : BareEthernet)
    (unmastered : ∀ tree ∈ forest, tree.holds "MASTER" slave.name.text = false) :
    putTree machine forest (slaveTree common master slave) = none := by
  have noBond : matchesBond forest (slaveTree common master slave) = false := by
    apply matchesBond_false
    simpa using unmastered
  simp [putTree, noBond, Tree.has, Tree.value?, Tree.holds, slaveTree_other]

theorem put_root {root : Tree} {members : List Tree} {element : Xml}
    (top : putTree machine (root :: members) root = some element)
    (below : ∀ member ∈ members, putTree machine (root :: members) member = none) :
    put machine (root :: members) = [element] := by
  have silent : members.filterMap (putTree machine (root :: members)) = [] :=
    List.filterMap_eq_nil_iff.mpr below
  rw [put, List.filterMap_cons, top]
  simp only [silent]

variable {nodes : List Node} (addresses : Addresses nodes)
include addresses

theorem putTop_root (document : Interface) (type : String) (device : Xml) :
    putTop machine type (rootTree nodes document) device =
      .element "interface" [("type", type), putName (rootTree nodes document)]
        (document.common.startElement ::
          (document.common.mtuElement ++ putAddressing machine (rootTree nodes document) ++ [device])) := by
  rw [putTop, putStartmode_root addresses, putMtu_root addresses]

-- A root that is no bond goes to the template of its own type.
theorem putTree_root {document : Interface} (noBond : matchesBond forest (rootTree nodes document) = false) :
    putTree machine forest (rootTree nodes document) =
      match document with
      | .bridge _ _ _ => some (putBridge machine forest (rootTree nodes document))
      | .vlan _ _ => some (putVlan machine (rootTree nodes document))
      | _ => some (putEthernet machine (rootTree nodes document)) := by
  have noBridge := rootTree_loose addresses document "BRIDGE" (by simp)
  have noMaster := rootTree_loose addresses document "MASTER" (by simp)
  have type := rootTree_type addresses document
  have vlan := rootTree_vlan addresses document
  cases document <;>
    simp [putTree, noBond, Tree.holds, Tree.has, Tree.value?, noBridge, noMaster, type, vlan]

theorem matchesBond_single (document : Interface) :
    matchesBond [rootTree nodes document] (rootTree nodes document) = false := by
  apply matchesBond_false
  simp [Tree.holds, rootTree_loose addresses document "MASTER" (by simp)]

theorem put_ethernet (nic : BareEthernet) :
    put machine [rootTree nodes (.ethernet common nic)] =
      [(Interface.ethernet common nic).element
        (putAddressing machine (rootTree nodes (.ethernet common nic)))] := by
  apply put_root
  · have noMac : labelled nodes "HWADDR" = [] := addresses.labelled (by decide)
    have mac : putMac (rootTree nodes (.ethernet common nic)) = nic.content := bareEthernet_mac nic noMac
    have name : putName (rootTree nodes (.ethernet common nic)) = ("name", nic.name.text) := by
      rw [putName, rootTree, bareEthernetInterface, nameAttr_device]
    rw [putTree_root addresses (matchesBond_single addresses _)]
    simp only []
    rw [putEthernet, putStartmode_root addresses, putMtu_root addresses, mac, name]
    rfl
  · simp

theorem put_vlan (link : BareVlan) (named : link.WellNamed) (plain : '.' ∉ link.base.text.toList) :
    put machine [rootTree nodes (.vlan common link)] =
      [(Interface.vlan common link).element
        (putAddressing machine (rootTree nodes (.vlan common link)))] := by
  apply put_root
  · rw [putTree_root addresses (matchesBond_single addresses _)]
    simp only []
    rw [putVlan, putTop_root addresses, rootTree, vlan_attributes link named,
      putVlanDevice_vlan link plain]
    rfl
  · simp

theorem bondRoot_device (team : BareBond) :
    (rootTree nodes (.bond common team)).values "DEVICE" = [team.name.text] := by
  have quiet : labelled nodes "DEVICE" = [] := addresses.labelled (by decide)
  simp [Tree.values, rootTree, bondingOptsNode, nameAttr, quiet]

theorem bondRoot_opts (team : BareBond) :
    (rootTree nodes (.bond common team)).value "BONDING_OPTS" = bondingOpts team.bond := by
  have quiet : labelled nodes "BONDING_OPTS" = [] := addresses.labelled (by decide)
  simp [Tree.value, Tree.value?, Tree.values, rootTree, bondingOptsNode, nameAttr, quiet]

theorem put_bond (team : BareBond) (distinct : (some team.name :: team.bond.names).Nodup)
    (free : KeywordFree team.bond.first.name.text) :
    put machine (rootTree nodes (.bond common team) :: bondSlaves common team) =
      [(Interface.bond common team).element
        (putAddressing machine (rootTree nodes (.bond common team)))] := by
  rw [List.nodup_cons] at distinct
  have device : (rootTree nodes (.bond common team)).values "DEVICE" = [team.name.text] :=
    bondRoot_device addresses team
  have noMaster := rootTree_loose addresses (.bond common team) "MASTER" (by simp)
  have noBridge := rootTree_loose addresses (.bond common team) "BRIDGE" (by simp)
  apply put_root
  · have isBond : matchesBond (rootTree nodes (.bond common team) :: bondSlaves common team)
        (rootTree nodes (.bond common team)) = true := by
      simp [matchesBond, device, Tree.has, Tree.value?, noBridge, bondSlaves_eq, BondElement.slaves,
        Tree.holds]
    have slaves : (rootTree nodes (.bond common team) :: bondSlaves common team).filter
        (fun slave => enslaved slave (rootTree nodes (.bond common team)) "MASTER") =
          bondSlaves common team := by
      simp [enslaved_of_device device, Tree.holds, noMaster, bondSlaves_eq]
    have bond := putBondElement_bond _ _ team (bondRoot_opts addresses team) slaves distinct.2 free
    rw [putTree, if_pos isBond, putBond, bond, putTop_root addresses, putName, rootTree, nameAttr_device]
    rfl
  · intro tree member
    rw [bondSlaves_eq] at member
    obtain ⟨slave, listed, rfl⟩ := List.mem_map.mp member
    apply putTree_slave
    have apart : slave.name.text ≠ team.name.text := by
      intro same
      apply distinct.1
      rw [← Pattern.Lexeme.text_injective same]
      exact List.mem_map.mpr ⟨slave, listed, rfl⟩
    simp [Tree.holds, noMaster, bondSlaves_eq, apart]

theorem bridgeRoot_device (name : DeviceName) (hub : BridgeElement) :
    (rootTree nodes (.bridge common name hub)).values "DEVICE" = [name.text] := by
  have quiet : labelled nodes "DEVICE" = [] := addresses.labelled (by decide)
  simp [Tree.values, rootTree, nameAttr, quiet]

theorem putBridge_attributes (name : DeviceName) (hub : BridgeElement) :
    (rootTree nodes (.bridge common name hub)).value? "STP" = hub.stp.map (·.text) ∧
      (rootTree nodes (.bridge common name hub)).value? "DELAY" = hub.delay.map (·.text) := by
  have noStp : labelled nodes "STP" = [] := addresses.labelled (by decide)
  have noDelay : labelled nodes "DELAY" = [] := addresses.labelled (by decide)
  constructor <;> simp [Tree.value?, Tree.values, rootTree, nameAttr, noStp, noDelay]

omit addresses in
theorem putPort_ethernet (bridge : DeviceName) (nic : BareEthernet) :
    putPort forest (portTree common bridge (.ethernet nic)) = [nic.toXml] := by
  have noVlan : (portTree common bridge (.ethernet nic)).values "VLAN" = [] := by
    simp [Tree.values, portTree, bareEthernetInterface, nameAttr]
  have noOpts : (portTree common bridge (.ethernet nic)).values "BONDING_OPTS" = [] := by
    simp [Tree.values, portTree, bareEthernetInterface, nameAttr]
  have element : putBareEthernet (portTree common bridge (.ethernet nic)) = nic.toXml :=
    putBareEthernet_bareEthernet nic (by simp)
  simp [putPort, Tree.has, Tree.value?, noVlan, noOpts, element]

omit addresses in
theorem putPort_vlan (bridge : DeviceName) (link : BareVlan) (named : link.WellNamed)
    (plain : '.' ∉ link.base.text.toList) :
    putPort forest (portTree common bridge (.vlan link)) = [link.toXml] := by
  have isVlan : (portTree common bridge (.vlan link)).values "VLAN" = ["yes"] := by
    simp [Tree.values, portTree, bareVlanInterface, vlanInterfaceCommon, nameAttr]
  have noOpts : (portTree common bridge (.vlan link)).values "BONDING_OPTS" = [] := by
    simp [Tree.values, portTree, bareVlanInterface, vlanInterfaceCommon, nameAttr]
  have element : putBareVlan (portTree common bridge (.vlan link)) = link.toXml := by
    rw [putBareVlan, portTree, bareVlanInterface, vlan_attributes link named,
      putVlanDevice_vlan link plain]
    rfl
  simp [putPort, Tree.has, Tree.value?, isVlan, noOpts, element]

omit addresses in
theorem bondPort_device (bridge : DeviceName) (team : BareBond) :
    (portTree common bridge (.bond team)).values "DEVICE" = [team.name.text] := by
  simp [Tree.values, portTree, bareBondInterface, bondingOptsNode, nameAttr]

omit addresses in
theorem putPort_bond (bridge : DeviceName) (team : BareBond)
    (slaves : forest.filter (fun tree => tree.holds "MASTER" team.name.text) = bondSlaves common team)
    (distinct : team.bond.names.Nodup) (free : KeywordFree team.bond.first.name.text) :
    putPort forest (portTree common bridge (.bond team)) = [team.toXml] := by
  have noVlan : (portTree common bridge (.bond team)).values "VLAN" = [] := by
    simp [Tree.values, portTree, bareBondInterface, bondingOptsNode, nameAttr]
  have opts : (portTree common bridge (.bond team)).values "BONDING_OPTS" = [bondingOpts team.bond] := by
    simp [Tree.values, portTree, bareBondInterface, bondingOptsNode, nameAttr]
  have members : forest.filter (fun slave => enslaved slave (portTree common bridge (.bond team)) "MASTER") =
      bondSlaves common team := by
    simpa only [enslaved_of_device (bondPort_device bridge team)] using slaves
  have bond := putBondElement_bond forest (portTree common bridge (.bond team)) team
    (by simp [Tree.value, Tree.value?, opts]) members distinct free
  have element : putBareBond forest (portTree common bridge (.bond team)) = team.toXml := by
    rw [putBareBond, bond, putName, portTree, bareBondInterface, nameAttr_device]
    rfl
  simp [putPort, Tree.has, Tree.value?, noVlan, opts, element]

omit addresses in
theorem bridge_masters {bridge : DeviceName} {ports : List Port} {tree : Tree} {master : String}
    (member : tree ∈ ports.flatMap (bridgePort common bridge)) (held : tree.holds "MASTER" master = true) :
    ∃ team, Port.bond team ∈ ports ∧ master = team.name.text := by
  obtain ⟨port, listed, inPort⟩ := List.mem_flatMap.mp member
  rw [bridgePort_eq] at inPort
  rcases List.mem_cons.mp inPort with rfl | slave
  · simp [Tree.holds] at held
  · obtain ⟨team, slave, rfl, _, rfl⟩ := mem_portSlaves common slave
    exact ⟨team, listed, by simpa [Tree.holds] using held⟩

-- The names of the ports and of the slaves of bonded ports, taken apart.
omit addresses in
theorem names_perm (ports : List Port) :
    (ports.map Port.name ++ ports.flatMap Port.slaveNames).Perm (ports.flatMap Port.names) :=
  List.map_append_flatMap_perm ports Port.name Port.slaveNames

structure Readable (document : Interface) : Prop where
  distinct : document.names.Nodup
  vlans : ∀ link ∈ document.vlans, link.WellNamed ∧ '.' ∉ link.base.text.toList
  slaves : ∀ team ∈ document.bonds, ∀ slave ∈ team.bond.slaves, KeywordFree slave.name.text

theorem putPorts_bridge {name : DeviceName} {hub : BridgeElement}
    (readable : Readable (.bridge common name hub)) :
    ((rootTree nodes (.bridge common name hub) :: hub.ports.flatMap (bridgePort common name)).filter
        fun port => port.holds "BRIDGE" name.text).flatMap
      (putPort (rootTree nodes (.bridge common name hub) :: hub.ports.flatMap (bridgePort common name))) =
      hub.ports.map Port.toXml := by
  have noBridge := rootTree_loose addresses (.bridge common name hub) "BRIDGE" (by simp)
  have noMaster := rootTree_loose addresses (.bridge common name hub) "MASTER" (by simp)
  have distinct := (names_perm hub.ports).nodup_iff.mpr (List.nodup_cons.mp readable.distinct).2
  have ports : (rootTree nodes (.bridge common name hub) ::
      hub.ports.flatMap (bridgePort common name)).filter (fun port => port.holds "BRIDGE" name.text) =
        hub.ports.map (portTree common name) := by
    rw [List.filter_cons, if_neg (by simp [Tree.holds, noBridge])]
    exact filter_ports common name hub.ports
  rw [ports, List.flatMap_map, List.map_eq_flatMap]
  apply List.flatMap_congr
  intro port listed
  cases port with
  | ethernet nic => exact putPort_ethernet name nic
  | vlan link =>
    obtain ⟨named, plain⟩ := readable.vlans link (List.mem_flatMap.mpr ⟨_, listed, by simp [Port.vlans]⟩)
    exact putPort_vlan name link named plain
  | bond team =>
    have free := readable.slaves team (List.mem_flatMap.mpr ⟨_, listed, by simp [Port.bonds]⟩)
      team.bond.first (by simp [BondElement.slaves])
    have names : team.bond.names.Nodup :=
      (List.nodup_flatMap.mp distinct.of_append_right).1 (.bond team) listed
    apply putPort_bond name team _ names free
    rw [List.filter_cons, if_neg (by simp [Tree.holds, noMaster])]
    exact filter_slaves common name distinct.of_append_left listed

theorem put_bridge {name : DeviceName} {hub : BridgeElement}
    (readable : Readable (.bridge common name hub)) :
    put machine (rootTree nodes (.bridge common name hub) :: hub.ports.flatMap (bridgePort common name)) =
      [(Interface.bridge common name hub).element
        (putAddressing machine (rootTree nodes (.bridge common name hub)))] := by
  have device : (rootTree nodes (.bridge common name hub)).values "DEVICE" = [name.text] :=
    bridgeRoot_device addresses name hub
  have noMaster := rootTree_loose addresses (.bridge common name hub) "MASTER" (by simp)
  have rootApart := (List.nodup_cons.mp readable.distinct).1
  have distinct := (names_perm hub.ports).nodup_iff.mpr (List.nodup_cons.mp readable.distinct).2
  -- A MASTER entry names a bonded port, which is neither the bridge nor a slave.
  have unmastered : ∀ other : DeviceName, some other ∉ hub.ports.map Port.name →
      ∀ tree ∈ rootTree nodes (.bridge common name hub) :: hub.ports.flatMap (bridgePort common name),
        tree.holds "MASTER" other.text = false := by
    intro other outside tree member
    rcases List.mem_cons.mp member with rfl | inPorts
    · simp [Tree.holds, noMaster]
    · by_contra held
      obtain ⟨team, listed, same⟩ := bridge_masters inPorts (by simpa using held)
      apply outside
      rw [Pattern.Lexeme.text_injective same]
      exact List.mem_map.mpr ⟨_, listed, rfl⟩
  apply put_root
  · have noBond : matchesBond (rootTree nodes (.bridge common name hub) ::
        hub.ports.flatMap (bridgePort common name)) (rootTree nodes (.bridge common name hub)) = false := by
      apply matchesBond_false
      rw [device]
      intro found named
      rw [List.mem_singleton.mp named]
      apply unmastered
      intro inside
      exact rootApart ((names_perm hub.ports).mem_iff.mp (List.mem_append_left _ inside))
    obtain ⟨stp, delay⟩ := @putBridge_attributes common nodes addresses name hub
    rw [putTree_root addresses noBond]
    simp only []
    rw [putBridge, putTop_root addresses, stp, delay]
    simp only [enslaved_of_device device, putPorts_bridge addresses readable]
    rw [putName, rootTree, nameAttr_device]
    rfl
  · intro tree member
    obtain ⟨port, listed, inPort⟩ := List.mem_flatMap.mp member
    rw [bridgePort_eq] at inPort
    rcases List.mem_cons.mp inPort with rfl | inSlaves
    · exact putTree_port name port
    · obtain ⟨team, slave, rfl, inTeam, rfl⟩ := mem_portSlaves common inSlaves
      apply putTree_slave
      apply unmastered
      intro inside
      have slaveName : some slave.name ∈ hub.ports.flatMap Port.slaveNames :=
        List.mem_flatMap.mpr ⟨_, listed, List.mem_map.mpr ⟨slave, inTeam, rfl⟩⟩
      exact (List.nodup_append.mp distinct).2.2 _ inside _ slaveName rfl

theorem put_forest {document : Interface} (readable : Readable document) :
    put machine (rootTree nodes document :: memberTrees document) =
      [document.element (putAddressing machine (rootTree nodes document))] := by
  cases document with
  | ethernet common nic => exact put_ethernet addresses nic
  | vlan common link =>
    obtain ⟨named, plain⟩ := readable.vlans link (by simp [Interface.vlans])
    exact put_vlan addresses link named plain
  | bridge common name hub => exact put_bridge addresses readable
  | bond common team =>
    have free := readable.slaves team (by simp [Interface.bonds]) team.bond.first
      (by simp [BondElement.slaves])
    exact put_bond addresses team readable.distinct free

end Templates

section Addressing

variable {machine : Machine}

theorem putAddressing_congr (left right : Tree)
    (same : ∀ label ∈ "PREFIX" :: addressLabels, left.values label = right.values label) :
    putAddressing machine left = putAddressing machine right := by
  have held : ∀ label ∈ "PREFIX" :: addressLabels, ∀ value, left.holds label value = right.holds label value := by
    intro label listed value
    rw [Tree.holds, Tree.holds, same label listed]
  have found : ∀ label ∈ "PREFIX" :: addressLabels, left.value? label = right.value? label := by
    intro label listed
    rw [Tree.value?, Tree.value?, same label listed]
  have present : left.has "IPADDR" = right.has "IPADDR" := by
    rw [Tree.has, Tree.has, found "IPADDR" (by decide)]
  have ipv4 : putIpv4 machine left = putIpv4 machine right := by
    simp only [putIpv4, putPrefix, Tree.value, present, held "BOOTPROTO" (by decide),
      found "PEERDNS" (by decide), found "IPADDR" (by decide), found "PREFIX" (by decide),
      found "NETMASK" (by decide), found "GATEWAY" (by decide)]
  have ipv6 : putIpv6 left = putIpv6 right := by
    simp only [putIpv6, held "IPV6INIT" (by decide), held "IPV6_AUTOCONF" (by decide),
      held "DHCPV6" (by decide), found "IPV6ADDR" (by decide), found "IPV6ADDR_SECONDARIES" (by decide),
      found "IPV6_DEFAULTGW" (by decide)]
  rw [putAddressing, putAddressing, ipv4, ipv6]

-- The ipv4 protocol as it comes back, with the prefix that its netmask stands for.
def rereadIpv4 (machine : Machine) : Ipv4 → Xml
  | .dhcp peerdns => (Ipv4.dhcp peerdns).toXml
  | .static address prefixLen gateway =>
    .element "protocol" [("family", "ipv4")]
      (ipElement address.text
          (prefixLen.map fun length =>
            ipcalcPrefix machine (inetNtop (~~~ shiftMask machine length.value))) ::
        routeElement (gateway.map (·.text)))

theorem putAddressing_ipv4Nodes (path : String) (ipv4 : Ipv4) :
    putAddressing machine ⟨path, ipv4Nodes machine ipv4⟩ = [rereadIpv4 machine ipv4] := by
  cases ipv4 with
  | dhcp peerdns =>
    simp [putAddressing, putIpv4, putIpv6, Tree.holds, Tree.value?, Tree.values, ipv4Nodes, rereadIpv4,
      Ipv4.toXml, dhcpElement]
  | static address prefixLen gateway =>
    cases prefixLen <;>
      simp [putAddressing, putIpv4, putIpv6, putPrefix, Tree.holds, Tree.has, Tree.value, Tree.value?,
        Tree.values, ipv4Nodes, rereadIpv4]

theorem putAddressing_root {document : Interface} (noIpv6 : document.common.addressing.ipv6 = none) :
    putAddressing machine
        (rootTree (addressNodes machine document.common.addressing) document) =
      (document.common.addressing.ipv4.map (rereadIpv4 machine)).toList := by
  have alone : putAddressing machine (rootTree (addressNodes machine document.common.addressing) document) =
      putAddressing machine ⟨"", addressNodes machine document.common.addressing⟩ :=
    putAddressing_congr _ _ fun label listed => rootTree_addresses document listed
  rw [alone]
  cases ipv4 : document.common.addressing.ipv4 with
  | none => simp [addressNodes, ipv4, noIpv6, putAddressing, putIpv4, putIpv6, Tree.holds, Tree.has,
      Tree.value?, Tree.values]
  | some protocol => simpa [addressNodes, ipv4, noIpv6] using putAddressing_ipv4Nodes "" protocol

theorem element_injective (document : Interface) : Function.Injective document.element := by
  intro left right same
  cases document <;> simpa [Interface.element] using same

end Addressing

theorem put_get (machine : Machine) {document : Interface}
    (positive : ∀ length ∈ document.ipv4Prefix, length.value ≠ 0)
    (noIpv6 : document.common.addressing.ipv6 = none) (readable : Readable document) :
    ∃ forest, get machine document = .ok forest ∧
      put machine forest =
        [document.element (document.common.addressing.ipv4.map (rereadIpv4 machine)).toList] := by
  refine ⟨_, get_ok positive, ?_⟩
  rw [put_forest (addressNodes_addresses _) readable, putAddressing_root noIpv6]

theorem toXml_ipv4 {addressing : Addressing} (noIpv6 : addressing.ipv6 = none) :
    addressing.toXml = (addressing.ipv4.map Ipv4.toXml).toList := by
  cases addressing <;> simp_all [Addressing.toXml, Addressing.ipv4, Addressing.ipv6]

def reread (machine : Machine) (length : Ipv4Prefix) : String :=
  ipcalcPrefix machine (inetNtop (~~~ shiftMask machine length.value))

theorem rereadIpv4_iff (machine : Machine) (ipv4 : Ipv4) :
    rereadIpv4 machine ipv4 = ipv4.toXml ↔
      ∀ length ∈ ipv4.prefixLength, reread machine length = length.text := by
  cases ipv4 with
  | dhcp peerdns => simp [rereadIpv4, Ipv4.prefixLength]
  | static address prefixLen gateway =>
    cases prefixLen <;>
      simp [rereadIpv4, reread, Ipv4.toXml, ipElement, Xml.optional, Ipv4.prefixLength]

theorem element_reread_iff (machine : Machine) {document : Interface}
    (noIpv6 : document.common.addressing.ipv6 = none) :
    document.element (document.common.addressing.ipv4.map (rereadIpv4 machine)).toList = document.toXml ↔
      ∀ length ∈ document.ipv4Prefix, reread machine length = length.text := by
  rw [Interface.toXml, (element_injective document).eq_iff, toXml_ipv4 noIpv6, Interface.ipv4Prefix]
  cases document.common.addressing.ipv4 with
  | none => simp
  | some protocol => simpa using rereadIpv4_iff machine protocol

theorem reread_narrow (machine : Machine) {length : Ipv4Prefix} (canonical : length.Canonical)
    (positive : 0 < length.value) (narrow : length.value ≠ 32) : reread machine length = length.text := by
  have most : length.value ≤ 32 := length.bounded
  rw [reread, ipcalcPrefix_netmask machine positive (by omega), canonical]

theorem reread_full {length : Ipv4Prefix} (full : length.value = 32) : reread countModulo length = "0" := by
  rw [reread, full]
  decide +kernel

theorem put_get_iff {document : Interface}
    (canonical : ∀ length ∈ document.ipv4Prefix, length.Canonical)
    (range : ∀ length ∈ document.ipv4Prefix, 1 ≤ length.value ∧ length.value ≤ 32)
    (noIpv6 : document.common.addressing.ipv6 = none) (readable : Readable document) :
    (∀ machine, ∃ forest, get machine document = .ok forest ∧ put machine forest = [document.toXml]) ↔
      ∀ length ∈ document.ipv4Prefix, length.value ≠ 32 := by
  have positive : ∀ length ∈ document.ipv4Prefix, length.value ≠ 0 := by
    intro length listed
    have least := range length listed
    omega
  constructor
  · intro round length listed full
    obtain ⟨forest, written, restored⟩ := round countModulo
    obtain ⟨forest', written', again⟩ := put_get countModulo positive noIpv6 readable
    have same : forest' = forest := by
      rw [written] at written'
      exact (Except.ok.inj written').symm
    rw [same, restored, List.singleton_inj, eq_comm, element_reread_iff countModulo noIpv6] at again
    have zero := again length listed
    rw [reread_full full, canonical length listed, full] at zero
    exact absurd zero (by decide)
  · intro narrow machine
    obtain ⟨forest, written, again⟩ := put_get machine positive noIpv6 readable
    refine ⟨forest, written, ?_⟩
    rw [again, List.singleton_inj, element_reread_iff machine noIpv6]
    intro length listed
    exact reread_narrow machine (canonical length listed) (range length listed).1 (narrow length listed)

theorem readable_officeBridge (common : Common) : Readable (officeBridge common) where
  distinct := by
    show [some br0, some eth0, some eth2Tagged, some bond0, some eth1].Nodup
    decide
  vlans := by
    intro link listed
    rw [List.mem_singleton.mp listed]
    decide
  slaves := by
    intro team listed slave member
    rw [List.mem_singleton.mp listed] at member
    rw [List.mem_singleton.mp member]
    decide

theorem put_get_iff_officeBridge :
    ∃ forest, get countModulo (officeBridge (static networkPrefix)) = .ok forest ∧
      put countModulo forest = [(officeBridge (static networkPrefix)).toXml] :=
  (put_get_iff (by decide) (by decide) rfl (readable_officeBridge _)).mpr (by decide) countModulo

def hostPrefix : Ipv4Prefix := ⟨⟨"32", by decide +kernel⟩, by decide⟩

-- The address of a single host: its prefix comes back as 0.
def hostInterface : Interface := .ethernet (static hostPrefix) ⟨eth0, none⟩

theorem hostPrefix_comes_back_zero :
    (∀ length ∈ hostInterface.ipv4Prefix,
      length.Canonical ∧ 1 ≤ length.value ∧ length.value ≤ 32) ∧
      hostInterface.common.addressing.ipv6 = none ∧
      Readable hostInterface ∧
      (get countModulo hostInterface).toOption.map (put countModulo) =
        some [hostInterface.element [.element "protocol" [("family", "ipv4")]
          [ipElement "10.0.0.1" (some "0")]]] ∧
      (get countModulo hostInterface).toOption.map (put countModulo) ≠ some [hostInterface.toXml] := by
  refine ⟨by decide, rfl, ⟨by decide, by decide, by decide⟩, by decide +kernel, by decide +kernel⟩

end Netcf.RedHat
