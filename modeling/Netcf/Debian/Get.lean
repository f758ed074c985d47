import Netcf.Schema.Document
import Netcf.Stylesheet.Extension

set_option autoImplicit false

-- debian-get.xsl: from a valid document to the stanzas of /etc/network/interfaces, in the simple
-- Augeas format.
namespace Netcf.Debian

open Schema Stylesheet

structure Node where
  label : Option String
  value : String
  deriving DecidableEq

structure Element where
  key : Option String
  nodes : List Node
  deriving DecidableEq

structure StanzaArray where
  label : String
  elements : List Element
  deriving DecidableEq

structure Tree where
  path : String
  arrays : List StanzaArray
  deriving DecidableEq

abbrev Forest := List Tree

def networkInterfacesPath : String := "/files/etc/network/interfaces"

def node (label value : String) : Node :=
  ⟨some label, value⟩

def optionalNode (label : String) (value : Option String) : List Node :=
  match value with
  | some text => [node label text]
  | none => []

def nameText (name : Option DeviceName) : String :=
  (name.map (·.text)).getD ""

inductive Protocol
  | ipv4 (ipv4 : Ipv4)
  | ipv6 (ipv6 : Ipv6)

-- The protocol elements in document order.
def protocols : Addressing → List Protocol
  | .ipv4First ipv4 ipv6 => (ipv4.map .ipv4).toList ++ (ipv6.map .ipv6).toList
  | .ipv6First ipv6 ipv4 => (ipv6.map .ipv6).toList ++ (ipv4.map .ipv4).toList

def protocolIpv4 (machine : Machine) : Ipv4 → Except TransformError (List Node)
  | .dhcp _ => .ok [node "family" "inet", node "method" "dhcp"]
  | .static address prefixLen gateway => do
    let netmask ← match prefixLen with
      | some length => (ipcalcNetmask machine length.value).map some
      | none => pure none
    pure (node "family" "inet" :: node "method" "static" :: node "address" address.text ::
      (optionalNode "netmask" netmask ++ optionalNode "gateway" (gateway.map (·.text))))

def autoconfPath (name : String) : String :=
  " > /proc/sys/net/ipv6/conf/" ++ name ++ "/autoconf"

def autoconfNodes (name : String) (autoconf : Bool) : List Node :=
  if autoconf then []
  else [node "pre-up" ("echo 0" ++ autoconfPath name), node "post-down" ("echo 1" ++ autoconfPath name)]

def ifconfig (name action : String) (ip : Ipv6Ip) : String :=
  "/sbin/ifconfig " ++ name ++ " inet6 " ++ action ++ " " ++ ip.address.text ++ "/" ++
    (ip.prefixLen.map (·.text)).getD ""

-- With addresses and dhcp two templates match, and the processor takes the last one of the stylesheet.
def protocolIpv6 (name : String) (ipv6 : Ipv6) : List Node :=
  match ipv6.ips with
  | ip :: rest =>
    node "family" "inet6" :: node "method" "static" :: node "address" ip.address.text ::
      (optionalNode "netmask" (ip.prefixLen.map (·.text)) ++ optionalNode "gateway" (ipv6.gateway.map (·.text)) ++
        autoconfNodes name ipv6.autoconf ++ rest.map (fun other => node "up" (ifconfig name "add" other)) ++
        rest.map (fun other => node "down" (ifconfig name "del" other)))
  | [] =>
    node "family" "inet6" :: node "method" (if ipv6.dhcp.isSome then "dhcp" else "manual") ::
      autoconfNodes name ipv6.autoconf

def protocolNodes (machine : Machine) (name : String) : Protocol → Except TransformError (List Node)
  | .ipv4 ipv4 => protocolIpv4 machine ipv4
  | .ipv6 ipv6 => .ok (protocolIpv6 name ipv6)

def miscNodes (document : Interface) : List Node :=
  (match document with
    | .ethernet _ nic => optionalNode "hwaddress" (nic.mac.map fun mac => "ether " ++ mac.text)
    | .vlan _ _ | .bridge _ _ _ | .bond _ _ => []) ++
    optionalNode "mtu" (document.common.mtu.map (·.text))

def monitorNodes : Monitor → List Node
  | .miimon freq downdelay updelay carrier =>
    node "bond_miimon" freq.text ::
      (optionalNode "bond_downdelay" (downdelay.map (·.text)) ++ optionalNode "bond_updelay" (updelay.map (·.text)) ++
        optionalNode "bond_use_carrier" (carrier.map fun carrier =>
          match carrier with
          | .ioctl => "0"
          | .netif => "1"))
  | .arpmon interval target validate =>
    node "bond_arp_interval" interval.text :: node "bond_arp_ip_target" target.text ::
      optionalNode "bond_arp_validate" (validate.map (·.text))

def bondNodes (bond : BondElement) : List Node :=
  node "bond_slaves" (" ".intercalate (bond.slaves.map fun slave => slave.name.text)) ::
    node "bond_primary" bond.first.name.text ::
    (optionalNode "bond_mode" (bond.mode.map (·.text)) ++ (bond.monitor.map monitorNodes).getD [])

def vlanNodes (link : BareVlan) : List Node :=
  [node "vlan_raw_device" link.base.text]

def bridgeNodes (hub : BridgeElement) : List Node :=
  node "bridge_ports"
      (if hub.ports = [] then "none" else " ".intercalate (hub.ports.map fun port => nameText port.name)) ::
    (optionalNode "bridge_stp" (hub.stp.map (·.text)) ++ optionalNode "bridge_fd" (hub.delay.map (·.text)))

def deviceNodes : Interface → List Node
  | .ethernet _ _ => []
  | .vlan _ link => vlanNodes link
  | .bridge _ _ hub => bridgeNodes hub
  | .bond _ team => bondNodes team.bond

def upDown (port : Port) : List Node :=
  [node "pre-up" ("ifup " ++ nameText port.name), node "post-down" ("ifdown " ++ nameText port.name)]

-- The nodes and the stanza of a port that is itself a bond or a vlan.
def compound : Port → Option (List Node)
  | .ethernet _ => none
  | .vlan link => some (vlanNodes link)
  | .bond team => some (bondNodes team.bond)

def isBondPort : Port → Bool
  | .bond _ => true
  | .ethernet _ | .vlan _ => false

def portElements (document : Interface) : List Element :=
  document.ports.filterMap fun port =>
    (compound port).map fun nodes =>
      ⟨some (nameText port.name), node "family" "inet" :: node "method" "manual" :: nodes⟩

-- Without a protocol only the bonds among the ports get up and down commands.
def rootElements (machine : Machine) (document : Interface) : Except TransformError (List Element) := do
  let name := nameText document.rootName
  match protocols document.common.addressing with
  | [] =>
    pure [⟨some name, node "family" "inet" :: node "method" "manual" ::
      (miscNodes document ++ deviceNodes document ++ (document.ports.filter isBondPort).flatMap upDown)⟩]
  | first :: rest =>
    let nodes ← protocolNodes machine name first
    let others ← rest.mapM (protocolNodes machine name)
    pure (⟨some name, nodes ++ miscNodes document ++ deviceNodes document ++
      (document.ports.filter fun port => (compound port).isSome).flatMap upDown⟩ ::
        others.map fun nodes => ⟨some name, nodes⟩)

def autoArray (document : Interface) : List StanzaArray :=
  if document.common.start = .onboot then
    [⟨"auto", [⟨none, [⟨none, nameText document.rootName⟩]⟩]⟩]
  else []

def get (machine : Machine) (document : Interface) : Except TransformError Forest := do
  let elements ← rootElements machine document
  pure [⟨networkInterfacesPath, autoArray document ++ [⟨"iface", elements ++ portElements document⟩]⟩]

end Netcf.Debian
