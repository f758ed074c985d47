import Netcf.Debian.Get

set_option autoImplicit false

-- debian-put.xsl: from the stanzas of an interface back to its document.  Attributes, which have no
-- order, are listed in the order of the schema.
namespace Netcf.Debian

open Schema Stylesheet Shared

def labelled (nodes : List Node) (label : String) : List String :=
  (nodes.filter (·.label = some label)).map (·.value)

def Element.values (element : Element) (label : String) : List String :=
  labelled element.nodes label

-- The string value of node[@label = ...]/@value is that of the first such node.
def Element.value? (element : Element) (label : String) : Option String :=
  (element.values label).head?

def Element.value (element : Element) (label : String) : String :=
  (element.value? label).getD ""

def Element.has (element : Element) (label : String) : Bool :=
  (element.value? label).isSome

def Element.holds (element : Element) (label value : String) : Bool :=
  (element.values label).contains value

def Element.keyText (element : Element) : String :=
  element.key.getD ""

def ifacetype (element : Element) : String :=
  if element.has "bridge_ports" then "bridge"
  else if element.has "bond_slaves" then "bond"
  else if element.has "vlan_raw_device" then "vlan"
  else "ethernet"

def autoNodes (tree : Tree) : List Node :=
  (tree.arrays.filter (·.label = "auto")).flatMap fun array => array.elements.flatMap (·.nodes)

def ifacestart (tree : Tree) (element : Element) : Xml :=
  let named := (autoNodes tree).any fun node => element.key = some node.value
  .element "start" [("mode", if named then "onboot" else "none")] []

def dropText (count : Nat) (text : String) : String :=
  String.ofList (text.toList.drop count)

def startsWith (text front : String) : Bool :=
  front.toList.isPrefixOf text.toList

def ifacemisc (element : Element) : List Xml :=
  (if (element.values "hwaddress").any fun value => startsWith value "ether " then
    [.element "mac" [("address", dropText 6 (element.value "hwaddress"))] []]
  else []) ++
    (match element.value? "mtu" with
      | some size => [.element "mtu" [("size", size)] []]
      | none => [])

def ipv4static (machine : Machine) (element : Element) : List Xml :=
  (match element.value? "address" with
    | some address => [ipElement address ((element.value? "netmask").map (ipcalcPrefix machine))]
    | none => []) ++
    routeElement (element.value? "gateway")

def ipv4 (machine : Machine) (element : Element) : List Xml :=
  let protocol := fun content => [Xml.element "protocol" [("family", "ipv4")] content]
  if element.holds "method" "static" then protocol (ipv4static machine element)
  else if element.holds "method" "dhcp" then protocol [dhcpElement none]
  else if element.holds "method" "loopback" then protocol [ipElement "127.0.0.1" (some "8")]
  else []

-- The prefix attribute is written also when there is no netmask.
def ipv6static (element : Element) : List Xml :=
  (match element.value? "address" with
    | some address => [ipElement address (some (element.value "netmask"))]
    | none => []) ++
    routeElement (element.value? "gateway") ++
    (element.values "up").filterMap fun command =>
      let ipaddcmd := "/sbin/ifconfig " ++ element.keyText ++ " inet6 add "
      if startsWith command ipaddcmd then
        let ipaddrprefix := dropText ipaddcmd.length command
        some (ipElement (substringBefore ipaddrprefix "/") (some (substringAfter ipaddrprefix "/")))
      else none

def ipv6autoconf (element : Element) : List Xml :=
  if !element.holds "method" "loopback" && !element.holds "pre-up" ("echo 0" ++ autoconfPath element.keyText) then
    [.element "autoconf" [] []]
  else []

def ipv6dhcp (element : Element) : List Xml :=
  if element.holds "method" "dhcp" then [dhcpElement none] else []

def ipv6lo (element : Element) : List Xml :=
  if element.holds "method" "loopback" then [ipElement "::1" (some "8")] else []

def ipv6 (element : Element) : Xml :=
  .element "protocol" [("family", "ipv6")]
    (ipv6static element ++ ipv6autoconf element ++ ipv6dhcp element ++ ipv6lo element)

def protocol (machine : Machine) (siblings : List Element) (element : Element) : List Xml :=
  if element.holds "family" "inet" then
    ipv4 machine element ++ (siblings.filter (·.holds "family" "inet6")).map ipv6
  else if element.holds "family" "inet6" then
    ipv6 element :: (siblings.filter (·.holds "family" "inet4")).flatMap (ipv4 machine)
  else []

-- The tests for the carrier look at the node instead of its value: it has no text, which as a number is not 0.
def bondmiimon (element : Element) : List Xml :=
  match element.value? "bond_miimon" with
  | some freq =>
    [.element "miimon"
      (("freq", freq) ::
        (Xml.optional "downdelay" (element.value? "bond_downdelay") ++
          Xml.optional "updelay" (element.value? "bond_updelay") ++
          Xml.optional "carrier" ((element.value? "bond_use_carrier").map fun _ => "ioctl"))) []]
  | none => []

def bondarpmon (element : Element) : List Xml :=
  match element.value? "bond_arp_ip_target" with
  | some target =>
    [.element "arpmon"
      (Xml.optional "interval" (element.value? "bond_arp_interval") ++
        ("target", target) :: Xml.optional "validate" (element.value? "bond_arp_validate")) []]
  | none => []

def bond (element : Element) : List Xml :=
  match element.value? "bond_slaves" with
  | some slaves =>
    [.element "bond" (Xml.optional "mode" (element.value? "bond_mode"))
      (bondmiimon element ++ bondarpmon element ++
        (strSplit slaves).map fun slave => .element "interface" [("type", "ethernet"), ("name", slave)] [])]
  | none => []

def vlan (element : Element) : List Xml :=
  match element.value? "vlan_raw_device" with
  | some device =>
    [.element "vlan" [("tag", dropText (device.length + 1) element.keyText)]
      [.element "interface" [("name", device)] []]]
  | none => []

def bridgePort (siblings : List Element) (port : String) : Xml :=
  let own := siblings.filter (·.key = some port)
  .element "interface"
    [("type", if own = [] then "ethernet" else String.join (own.map ifacetype)), ("name", port)]
    (own.flatMap ifacemisc ++ own.flatMap bond ++ own.flatMap vlan)

def bridge (siblings : List Element) (element : Element) : List Xml :=
  match element.value? "bridge_ports" with
  | some ports =>
    [.element "bridge"
      (Xml.optional "stp" (element.value? "bridge_stp") ++ Xml.optional "delay" (element.value? "bridge_fd"))
      (if (element.values "bridge_ports").any (· ≠ "none") then (strSplit ports).map (bridgePort siblings) else [])]
  | none => []

def iface (machine : Machine) (tree : Tree) (siblings : List Element) (element : Element) : Xml :=
  .element "interface" [("type", ifacetype element), ("name", element.keyText)]
    (ifacestart tree element ::
      (ifacemisc element ++ protocol machine siblings element ++ bridge siblings element ++ bond element ++ vlan element))

def put (machine : Machine) (forest : Forest) : List Xml :=
  (forest.filter (·.path = networkInterfacesPath)).flatMap fun tree =>
    (tree.arrays.filter (·.label = "iface")).flatMap fun array =>
      array.elements.head?.toList.map (iface machine tree array.elements)

end Netcf.Debian
