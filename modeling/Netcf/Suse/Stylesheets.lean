import Netcf.RedHat.Put

set_option autoImplicit false

-- suse-get.xsl and suse-put.xsl.  Both started as copies of the Red Hat stylesheets: the first was
-- rewritten to the keys that SUSE uses, of the second only the start modes were changed.
namespace Netcf.Suse

open Schema Stylesheet Shared
open RedHat (Node Tree Forest optionalNode)

section Get

def networkPath : String := "/files/etc/sysconfig/network"

def ifcfgPath (device : String) : String :=
  networkPath ++ "/ifcfg-" ++ device

def nameAttr (device : String) (rest : List Node) : Tree :=
  ⟨ifcfgPath device, ⟨"DEVICE", device⟩ :: rest⟩

def startmode : StartMode → String
  | .onboot => "auto"
  | .none => "manual"
  | .hotplug => "ifplugd"

def shared (common : Common) : List Node :=
  ⟨"STARTMODE", startmode common.start⟩ :: RedHat.mtu common.mtu

-- An address adds a second BOOTPROTO.
def bareEthernetInterface (common : Common) (nic : BareEthernet) (rest : List Node) : Tree :=
  nameAttr nic.name.text
    (optionalNode "HWADDR" (nic.mac.map (·.text)) ++ shared common ++ ⟨"BOOTPROTO", "none"⟩ :: rest)

def vlanInterfaceCommon (link : BareVlan) (rest : List Node) : Tree :=
  nameAttr link.deviceName (⟨"ETHERDEVICE", link.base.text⟩ :: rest)

def bareVlanInterface (common : Common) (link : BareVlan) : Tree :=
  vlanInterfaceCommon link (shared common)

def bareBondInterface (common : Common) (team : BareBond) : Tree :=
  nameAttr team.name.text (shared common ++ [RedHat.bondingOptsNode team.bond])

def bondSlaves (common : Common) (team : BareBond) : List Tree :=
  team.bond.slaves.map fun slave => bareEthernetInterface common slave []

def bridgePort (common : Common) : Port → List Tree
  | .ethernet nic => [bareEthernetInterface common nic []]
  | .vlan link => [bareVlanInterface common link]
  | .bond team => bareBondInterface common team :: bondSlaves common team

def protocolIpv4 (machine : Machine) : Ipv4 → Except TransformError (List Node)
  | .dhcp _ => .ok [⟨"BOOTPROTO", "dhcp"⟩]
  | .static address prefixLen gateway => do
    let netmask ← match prefixLen with
      | some length => (ipcalcNetmask machine length.value).map some
      | none => pure none
    pure (⟨"BOOTPROTO", "static"⟩ :: ⟨"IPADDR", address.text⟩ ::
      (optionalNode "NETMASK" netmask ++ optionalNode "GATEWAY" (gateway.map (·.text))))

theorem protocolIpv4_static (machine : Machine) (address : Ipv4Addr) (prefixLen : Option Ipv4Prefix)
    (gateway : Option Ipv4Addr) :
    protocolIpv4 machine (.static address prefixLen gateway) =
      (prefixLen.mapM fun length => ipcalcNetmask machine length.value).map fun netmask =>
        ⟨"BOOTPROTO", "static"⟩ :: ⟨"IPADDR", address.text⟩ ::
          (optionalNode "NETMASK" netmask ++ optionalNode "GATEWAY" (gateway.map (·.text))) := by
  cases prefixLen <;> rfl

def interfaceAddressing (machine : Machine) (addressing : Addressing) : Except TransformError (List Node) := do
  let ipv4 ← match addressing.ipv4 with
    | some protocol => protocolIpv4 machine protocol
    | none => pure []
  pure (ipv4 ++ (addressing.ipv6.map RedHat.protocolIpv6).getD [])

def bridgePorts (hub : BridgeElement) : String :=
  String.join (hub.ports.map fun port => " " ++ (port.name.map (·.text)).getD "")

def slaveNodes (team : BareBond) : List Node :=
  team.bond.slaves.zipIdx.map fun place => ⟨"BONDING_SLAVE_" ++ toString place.2, place.1.name.text⟩

def rootTree (addressing : List Node) : Interface → Tree
  | .ethernet common nic => bareEthernetInterface common nic addressing
  | .vlan common link => vlanInterfaceCommon link (shared common ++ addressing)
  | .bridge common name hub =>
    nameAttr name.text (shared common ++ ⟨"BRIDGE", "yes"⟩ :: (addressing ++
      optionalNode "BRIDGE_STP" (hub.stp.map (·.text)) ++
      optionalNode "BRIDGE_FORWARDDELAY" (hub.delay.map (·.text)) ++ [⟨"BRIDGE_PORTS", bridgePorts hub⟩]))
  | .bond common team =>
    nameAttr team.name.text (shared common ++ addressing ++ ⟨"BONDING_MASTER", "yes"⟩ ::
      (slaveNodes team ++ [RedHat.bondingOptsNode team.bond]))

-- Neither a port nor a slave is told from an interface of its own.
def memberTrees : Interface → List Tree
  | .ethernet _ _ | .vlan _ _ => []
  | .bridge common _ hub => hub.ports.flatMap (bridgePort common)
  | .bond common team => bondSlaves common team

def get (machine : Machine) (document : Interface) : Except TransformError Forest := do
  let addressing ← interfaceAddressing machine document.common.addressing
  pure (rootTree addressing document :: memberTrees document)

end Get

section Put

open RedHat (putName putMac putMtu putAddressing putVlanDevice putPort putBondElement enslaved matchesBond)

def putStartmode (tree : Tree) : Xml :=
  let mode := if tree.holds "STARTMODE" "yes" then "hotplug"
    else if tree.holds "STARTMODE" "auto" then "onboot"
    else if tree.holds "STARTMODE" "manual" then "manual"
    else "none"
  .element "start" [("mode", mode)] []

def putEthernet (machine : Machine) (tree : Tree) : Xml :=
  .element "interface" [("type", "ethernet"), putName tree]
    (putStartmode tree :: (putMac tree ++ putMtu tree ++ putAddressing machine tree))

def putTop (machine : Machine) (type : String) (tree : Tree) (device : Xml) : Xml :=
  .element "interface" [("type", type), putName tree]
    (putStartmode tree :: (putMtu tree ++ putAddressing machine tree ++ [device]))

def putVlan (machine : Machine) (tree : Tree) : Xml :=
  putTop machine "vlan" tree (putVlanDevice tree)

def putBridge (machine : Machine) (forest : Forest) (tree : Tree) : Xml :=
  putTop machine "bridge" tree
    (.element "bridge"
      (Xml.optional "stp" (tree.value? "STP") ++ Xml.optional "delay" (tree.value? "DELAY"))
      ((forest.filter fun port => enslaved port tree "BRIDGE").flatMap (putPort forest)))

def putBond (machine : Machine) (forest : Forest) (tree : Tree) : Xml :=
  putTop machine "bond" tree (putBondElement forest tree)

def putTree (machine : Machine) (forest : Forest) (tree : Tree) : Option Xml :=
  if matchesBond forest tree then some (putBond machine forest tree)
  else if tree.holds "TYPE" "Bridge" then some (putBridge machine forest tree)
  else if tree.holds "VLAN" "yes" && !tree.has "MASTER" && !tree.has "BRIDGE" then
    some (putVlan machine tree)
  else if !tree.has "MASTER" && !tree.has "BRIDGE" && !tree.has "VLAN" then
    some (putEthernet machine tree)
  else none

def put (machine : Machine) (forest : Forest) : List Xml :=
  forest.filterMap (putTree machine forest)

end Put

end Netcf.Suse
