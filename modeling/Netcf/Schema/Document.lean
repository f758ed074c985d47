import Netcf.Shared.Xml
import Netcf.Schema.Lexical

set_option autoImplicit false

-- The documents that interface.rng generates, production by production, and the element each of
-- them is written as.
namespace Netcf.Schema

open Shared

structure BareEthernet where
  name : DeviceName
  mac : Option MacAddr

structure BareVlan where
  name : Option DeviceName
  tag : VlanId
  base : DeviceName

inductive Monitor
  | miimon (freq : Uint) (downdelay updelay : Option Uint) (carrier : Option Carrier)
  | arpmon (interval : Uint) (target : Ipv4Addr) (validate : Option ArpValidate)

-- A bond has at least one slave.
structure BondElement where
  mode : Option BondMode
  monitor : Option Monitor
  first : BareEthernet
  others : List BareEthernet

def BondElement.slaves (bond : BondElement) : List BareEthernet := bond.first :: bond.others

structure BareBond where
  name : DeviceName
  bond : BondElement

inductive Port
  | ethernet (nic : BareEthernet)
  | vlan (link : BareVlan)
  | bond (team : BareBond)

structure BridgeElement where
  stp : Option OnOff
  delay : Option Timeval
  ports : List Port

inductive Ipv4
  | dhcp (peerdns : Option YesNo)
  | static (address : Ipv4Addr) (prefixLen : Option Ipv4Prefix) (gateway : Option Ipv4Addr)

structure Ipv6Ip where
  address : Ipv6Addr
  prefixLen : Option Ipv6Prefix

structure Ipv6 where
  autoconf : Bool
  dhcp : Option (Option YesNo)
  ips : List Ipv6Ip
  gateway : Option Ipv6Addr

inductive Addressing
  | ipv4First (ipv4 : Option Ipv4) (ipv6 : Option Ipv6)
  | ipv6First (ipv6 : Option Ipv6) (ipv4 : Option Ipv4)

def Addressing.ipv4 : Addressing → Option Ipv4
  | .ipv4First ipv4 _ => ipv4
  | .ipv6First _ ipv4 => ipv4

def Addressing.ipv6 : Addressing → Option Ipv6
  | .ipv4First _ ipv6 => ipv6
  | .ipv6First ipv6 _ => ipv6

structure Common where
  start : StartMode
  mtu : Option Uint
  addressing : Addressing

inductive Interface
  | ethernet (common : Common) (nic : BareEthernet)
  | vlan (common : Common) (link : BareVlan)
  | bridge (common : Common) (name : DeviceName) (hub : BridgeElement)
  | bond (common : Common) (team : BareBond)

def Interface.common : Interface → Common
  | .ethernet common _ | .vlan common _ | .bridge common _ _ | .bond common _ => common

def BareEthernet.content (ethernet : BareEthernet) : List Xml :=
  match ethernet.mac with
  | some mac => [.element "mac" [("address", mac.text)] []]
  | none => []

def BareEthernet.toXml (ethernet : BareEthernet) : Xml :=
  .element "interface" [("type", "ethernet"), ("name", ethernet.name.text)] ethernet.content

def BareVlan.attributes (vlan : BareVlan) : List (String × String) :=
  ("type", "vlan") :: Xml.optional "name" (vlan.name.map (·.text))

def BareVlan.device (vlan : BareVlan) : Xml :=
  .element "vlan" [("tag", vlan.tag.text)] [.element "interface" [("name", vlan.base.text)] []]

def BareVlan.toXml (vlan : BareVlan) : Xml :=
  .element "interface" vlan.attributes [vlan.device]

def Monitor.toXml : Monitor → Xml
  | .miimon freq downdelay updelay carrier =>
    .element "miimon"
      (("freq", freq.text) ::
        (Xml.optional "downdelay" (downdelay.map (·.text)) ++
          Xml.optional "updelay" (updelay.map (·.text)) ++
          Xml.optional "carrier" (carrier.map (·.text)))) []
  | .arpmon interval target validate =>
    .element "arpmon"
      (("interval", interval.text) :: ("target", target.text) ::
        Xml.optional "validate" (validate.map (·.text))) []

def BondElement.toXml (bond : BondElement) : Xml :=
  .element "bond" (Xml.optional "mode" (bond.mode.map (·.text)))
    ((bond.monitor.map Monitor.toXml).toList ++ bond.slaves.map BareEthernet.toXml)

def BareBond.attributes (bond : BareBond) : List (String × String) :=
  [("type", "bond"), ("name", bond.name.text)]

def BareBond.toXml (bond : BareBond) : Xml :=
  .element "interface" bond.attributes [bond.bond.toXml]

def Port.toXml : Port → Xml
  | .ethernet nic => nic.toXml
  | .vlan link => link.toXml
  | .bond team => team.toXml

def BridgeElement.toXml (bridge : BridgeElement) : Xml :=
  .element "bridge"
    (Xml.optional "stp" (bridge.stp.map (·.text)) ++
      Xml.optional "delay" (bridge.delay.map (·.text)))
    (bridge.ports.map Port.toXml)

def dhcpElement (peerdns : Option YesNo) : Xml :=
  .element "dhcp" (Xml.optional "peerdns" (peerdns.map (·.text))) []

def ipElement (address : String) (prefixLen : Option String) : Xml :=
  .element "ip" (("address", address) :: Xml.optional "prefix" prefixLen) []

def routeElement (gateway : Option String) : List Xml :=
  match gateway with
  | some address => [.element "route" [("gateway", address)] []]
  | none => []

def Ipv4.toXml : Ipv4 → Xml
  | .dhcp peerdns => .element "protocol" [("family", "ipv4")] [dhcpElement peerdns]
  | .static address prefixLen gateway =>
    .element "protocol" [("family", "ipv4")]
      (ipElement address.text (prefixLen.map (·.text)) :: routeElement (gateway.map (·.text)))

def Ipv6.toXml (ipv6 : Ipv6) : Xml :=
  .element "protocol" [("family", "ipv6")]
    ((if ipv6.autoconf then [.element "autoconf" [] []] else []) ++
      (ipv6.dhcp.map dhcpElement).toList ++
      ipv6.ips.map (fun ip => ipElement ip.address.text (ip.prefixLen.map (·.text))) ++
      routeElement (ipv6.gateway.map (·.text)))

def Addressing.toXml : Addressing → List Xml
  | .ipv4First ipv4 ipv6 => (ipv4.map Ipv4.toXml).toList ++ (ipv6.map Ipv6.toXml).toList
  | .ipv6First ipv6 ipv4 => (ipv6.map Ipv6.toXml).toList ++ (ipv4.map Ipv4.toXml).toList

def Common.startElement (common : Common) : Xml :=
  .element "start" [("mode", common.start.text)] []

def Common.mtuElement (common : Common) : List Xml :=
  match common.mtu with
  | some size => [.element "mtu" [("size", size.text)] []]
  | none => []

def Interface.element (protocols : List Xml) : Interface → Xml
  | .ethernet common nic =>
    .element "interface" [("type", "ethernet"), ("name", nic.name.text)]
      (common.startElement :: (nic.content ++ common.mtuElement ++ protocols))
  | .vlan common link =>
    .element "interface" link.attributes
      (common.startElement :: (common.mtuElement ++ protocols ++ [link.device]))
  | .bridge common name hub =>
    .element "interface" [("type", "bridge"), ("name", name.text)]
      (common.startElement :: (common.mtuElement ++ protocols ++ [hub.toXml]))
  | .bond common team =>
    .element "interface" team.attributes
      (common.startElement :: (common.mtuElement ++ protocols ++ [team.bond.toXml]))

def Interface.toXml (document : Interface) : Xml :=
  document.element document.common.addressing.toXml

-- The name attributes of the interface elements that are not under vlan, in document order.
def BondElement.names (bond : BondElement) : List (Option DeviceName) :=
  bond.slaves.map fun slave => some slave.name

def Port.name : Port → Option DeviceName
  | .ethernet nic => some nic.name
  | .vlan link => link.name
  | .bond team => some team.name

def Port.slaveNames : Port → List (Option DeviceName)
  | .ethernet _ | .vlan _ => []
  | .bond team => team.bond.names

def Port.names (port : Port) : List (Option DeviceName) :=
  port.name :: port.slaveNames

def Interface.rootName : Interface → Option DeviceName
  | .ethernet _ nic => some nic.name
  | .vlan _ link => link.name
  | .bridge _ name _ => some name
  | .bond _ team => some team.name

def Interface.memberNames : Interface → List (Option DeviceName)
  | .ethernet _ _ | .vlan _ _ => []
  | .bridge _ _ hub => hub.ports.flatMap Port.names
  | .bond _ team => team.bond.names

def Interface.ports : Interface → List Port
  | .bridge _ _ hub => hub.ports
  | .ethernet _ _ | .vlan _ _ | .bond _ _ => []

def Interface.names (document : Interface) : List (Option DeviceName) :=
  document.rootName :: document.memberNames

def Port.vlans : Port → List BareVlan
  | .vlan link => [link]
  | .ethernet _ | .bond _ => []

def Interface.vlans : Interface → List BareVlan
  | .vlan _ link => [link]
  | .bridge _ _ hub => hub.ports.flatMap Port.vlans
  | .ethernet _ _ | .bond _ _ => []

def Port.bonds : Port → List BareBond
  | .bond team => [team]
  | .ethernet _ | .vlan _ => []

def Interface.bonds : Interface → List BareBond
  | .bond _ team => [team]
  | .bridge _ _ hub => hub.ports.flatMap Port.bonds
  | .ethernet _ _ | .vlan _ _ => []

def Ipv4.prefixLength : Ipv4 → Option Ipv4Prefix
  | .dhcp _ => none
  | .static _ prefixLen _ => prefixLen

def Interface.ipv4Prefix (document : Interface) : Option Ipv4Prefix :=
  document.common.addressing.ipv4.bind Ipv4.prefixLength

-- DEVICE.VLAN, the form the schema's comment gives for the name of a vlan.
def BareVlan.deviceName (vlan : BareVlan) : String :=
  vlan.base.text ++ "." ++ vlan.tag.text

def BareVlan.WellNamed (vlan : BareVlan) : Prop :=
  vlan.name.map (·.text) = some vlan.deviceName

instance (vlan : BareVlan) : Decidable vlan.WellNamed :=
  inferInstanceAs (Decidable (_ = _))

-- Names and addresses that the examples share.
def eth0 : DeviceName := ⟨"eth0", by decide +kernel⟩
def eth1 : DeviceName := ⟨"eth1", by decide +kernel⟩
def eth2 : DeviceName := ⟨"eth2", by decide +kernel⟩
def eth2Tagged : DeviceName := ⟨"eth2.5", by decide +kernel⟩
def bond0 : DeviceName := ⟨"bond0", by decide +kernel⟩
def br0 : DeviceName := ⟨"br0", by decide +kernel⟩
def host : Ipv4Addr := ⟨"10.0.0.1", by decide +kernel⟩
def networkPrefix : Ipv4Prefix := ⟨⟨"24", by decide +kernel⟩, by decide⟩
def firstIp : Ipv6Ip := ⟨⟨"2001:db8::1", by decide +kernel⟩, some ⟨⟨"64", by decide +kernel⟩, by decide⟩⟩
def secondIp : Ipv6Ip := ⟨⟨"2001:db8::2", by decide +kernel⟩, some ⟨⟨"64", by decide +kernel⟩, by decide⟩⟩

def static (prefixLen : Ipv4Prefix) : Common :=
  ⟨.onboot, none, .ipv4First (some (.static host (some prefixLen) none)) none⟩

def unaddressed : Common :=
  ⟨.onboot, none, .ipv4First none none⟩

def tagged : BareVlan := ⟨some eth2Tagged, ⟨⟨"5", by decide +kernel⟩, by decide⟩, eth2⟩

-- A bridge over a network card, a vlan and a bond.
def officeBridge (common : Common) : Interface :=
  .bridge common br0
    ⟨some .off, none,
      [.ethernet ⟨eth0, none⟩, .vlan tagged, .bond ⟨bond0, ⟨some .activeBackup, none, ⟨eth1, none⟩, []⟩⟩]⟩

end Netcf.Schema
