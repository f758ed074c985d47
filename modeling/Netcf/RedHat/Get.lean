import Netcf.Stylesheet.Bonding

set_option autoImplicit false

-- redhat-get.xsl: from a valid document to the forest of ifcfg files, in the simple Augeas format.
namespace Netcf.RedHat

open Schema Stylesheet

structure Node where
  label : String
  value : String
  deriving DecidableEq

structure Tree where
  path : String
  nodes : List Node
  deriving DecidableEq

abbrev Forest := List Tree

def networkScriptsPath : String := "/files/etc/sysconfig/network-scripts"

def ifcfgPath (device : String) : String :=
  networkScriptsPath ++ "/ifcfg-" ++ device

-- The name-attr template: every file starts with the device it is for.
def nameAttr (device : String) (rest : List Node) : Tree :=
  ⟨ifcfgPath device, ⟨"DEVICE", device⟩ :: rest⟩

def optionalNode (label : String) (value : Option String) : List Node :=
  match value with
  | some text => [⟨label, text⟩]
  | none => []

def startmode : StartMode → List Node
  | .onboot => [⟨"ONBOOT", "yes"⟩]
  | .none => [⟨"ONBOOT", "no"⟩]
  | .hotplug => [⟨"ONBOOT", "no"⟩, ⟨"HOTPLUG", "yes"⟩]

def mtu (size : Option Uint) : List Node :=
  optionalNode "MTU" (size.map (·.text))

-- The start mode and the mtu are global variables of the stylesheet: all files of a document get them.
def shared (common : Common) : List Node :=
  startmode common.start ++ mtu common.mtu

def bareEthernetInterface (common : Common) (nic : BareEthernet) (rest : List Node) : Tree :=
  nameAttr nic.name.text (optionalNode "HWADDR" (nic.mac.map (·.text)) ++ shared common ++ rest)

def vlanInterfaceCommon (link : BareVlan) (rest : List Node) : Tree :=
  nameAttr link.deviceName (⟨"VLAN", "yes"⟩ :: rest)

def bareVlanInterface (common : Common) (link : BareVlan) (rest : List Node) : Tree :=
  vlanInterfaceCommon link (shared common ++ rest)

def bondingOptsNode (bond : BondElement) : Node :=
  ⟨"BONDING_OPTS", bondingOpts bond⟩

def bareBondInterface (common : Common) (team : BareBond) (rest : List Node) : Tree :=
  nameAttr team.name.text (shared common ++ bondingOptsNode team.bond :: rest)

def bondSlaves (common : Common) (team : BareBond) : List Tree :=
  team.bond.slaves.map fun slave =>
    bareEthernetInterface common slave [⟨"MASTER", team.name.text⟩, ⟨"SLAVE", "yes"⟩]

def bridgePort (common : Common) (bridge : DeviceName) : Port → List Tree
  | .ethernet nic => [bareEthernetInterface common nic [⟨"BRIDGE", bridge.text⟩]]
  | .vlan link => [bareVlanInterface common link [⟨"BRIDGE", bridge.text⟩]]
  | .bond team =>
    bareBondInterface common team [⟨"BRIDGE", bridge.text⟩] :: bondSlaves common team

def protocolIpv4 (machine : Machine) : Ipv4 → Except TransformError (List Node)
  | .dhcp peerdns =>
    .ok (⟨"BOOTPROTO", "dhcp"⟩ :: optionalNode "PEERDNS" (peerdns.map (·.text)))
  | .static address prefixLen gateway => do
    let netmask ← match prefixLen with
      | some length => (ipcalcNetmask machine length.value).map some
      | none => pure none
    pure (⟨"BOOTPROTO", "none"⟩ :: ⟨"IPADDR", address.text⟩ ::
      (optionalNode "NETMASK" netmask ++ optionalNode "GATEWAY" (gateway.map (·.text))))

theorem protocolIpv4_static (machine : Machine) (address : Ipv4Addr) (prefixLen : Option Ipv4Prefix)
    (gateway : Option Ipv4Addr) :
    protocolIpv4 machine (.static address prefixLen gateway) =
      (prefixLen.mapM fun length => ipcalcNetmask machine length.value).map fun netmask =>
        ⟨"BOOTPROTO", "none"⟩ :: ⟨"IPADDR", address.text⟩ ::
          (optionalNode "NETMASK" netmask ++ optionalNode "GATEWAY" (gateway.map (·.text))) := by
  cases prefixLen <;> rfl

def ipText (ip : Ipv6Ip) : String :=
  ip.address.text ++ ifPresent ip.prefixLen (fun length => "/" ++ length.text)

def yesNo (test : Bool) : String :=
  if test then "yes" else "no"

def ipv6Addresses : List Ipv6Ip → List Node
  | [] => []
  | [ip] => [⟨"IPV6ADDR", ipText ip⟩]
  | ip :: second :: rest =>
    [⟨"IPV6ADDR", ipText ip⟩,
      ⟨"IPV6ADDR_SECONDARIES",
        "'" ++ String.join ((second :: rest).dropLast.map fun middle => ipText middle ++ " ") ++
          ipText ((second :: rest).getLast (by simp)) ++ "'"⟩]

def protocolIpv6 (ipv6 : Ipv6) : List Node :=
  ⟨"IPV6INIT", "yes"⟩ :: ⟨"IPV6_AUTOCONF", yesNo ipv6.autoconf⟩ :: ⟨"DHCPV6", yesNo ipv6.dhcp.isSome⟩ ::
    (ipv6Addresses ipv6.ips ++ optionalNode "IPV6_DEFAULTGW" (ipv6.gateway.map (·.text)))

def interfaceAddressing (machine : Machine) (addressing : Addressing) :
    Except TransformError (List Node) := do
  let ipv4 ← match addressing.ipv4 with
    | some protocol => protocolIpv4 machine protocol
    | none => pure []
  pure (ipv4 ++ (addressing.ipv6.map protocolIpv6).getD [])

def rootTree (addressing : List Node) : Interface → Tree
  | .ethernet common nic => bareEthernetInterface common nic addressing
  | .vlan common link => vlanInterfaceCommon link (shared common ++ addressing)
  | .bridge common name hub =>
    nameAttr name.text (shared common ++ ⟨"TYPE", "Bridge"⟩ :: (addressing ++
      optionalNode "STP" (hub.stp.map (·.text)) ++ optionalNode "DELAY" (hub.delay.map (·.text))))
  | .bond common team =>
    nameAttr team.name.text (shared common ++ addressing ++ [bondingOptsNode team.bond])

def memberTrees : Interface → List Tree
  | .ethernet _ _ | .vlan _ _ => []
  | .bridge common name hub => hub.ports.flatMap (bridgePort common name)
  | .bond common team => bondSlaves common team

def get (machine : Machine) (document : Interface) : Except TransformError Forest := do
  let addressing ← interfaceAddressing machine document.common.addressing
  pure (rootTree addressing document :: memberTrees document)

end Netcf.RedHat
