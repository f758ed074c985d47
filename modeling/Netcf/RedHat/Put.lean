import Netcf.RedHat.Get

set_option autoImplicit false

-- redhat-put.xsl: from a forest of ifcfg files back to interface elements.
namespace Netcf.RedHat

open Schema Stylesheet Shared

def labelled (nodes : List Node) (label : String) : List String :=
  (nodes.filter (·.label = label)).map (·.value)

def Tree.values (tree : Tree) (label : String) : List String :=
  labelled tree.nodes label

-- The string value of node[@label = ...]/@value is that of the first such node.
def Tree.value? (tree : Tree) (label : String) : Option String :=
  (tree.values label).head?

def Tree.value (tree : Tree) (label : String) : String :=
  (tree.value? label).getD ""

def Tree.has (tree : Tree) (label : String) : Bool :=
  (tree.value? label).isSome

def Tree.holds (tree : Tree) (label value : String) : Bool :=
  (tree.values label).contains value

def putName (tree : Tree) : String × String :=
  ("name", tree.value "DEVICE")

def putStartmode (tree : Tree) : Xml :=
  let mode := if tree.holds "HOTPLUG" "yes" then "hotplug"
    else if tree.holds "ONBOOT" "yes" then "onboot"
    else "none"
  .element "start" [("mode", mode)] []

def putMtu (tree : Tree) : List Xml :=
  match tree.value? "MTU" with
  | some size => [.element "mtu" [("size", size)] []]
  | none => []

def putMac (tree : Tree) : List Xml :=
  match tree.value? "HWADDR" with
  | some address => [.element "mac" [("address", address)] []]
  | none => []

-- A PREFIX entry goes before a NETMASK.
def putPrefix (machine : Machine) (tree : Tree) : Option String :=
  match tree.value? "PREFIX", tree.value? "NETMASK" with
  | some length, _ => some length
  | none, some netmask => some (ipcalcPrefix machine netmask)
  | none, none => none

def putIpv4 (machine : Machine) (tree : Tree) : List Xml :=
  if tree.holds "BOOTPROTO" "dhcp" then
    [.element "protocol" [("family", "ipv4")]
      [.element "dhcp" (Xml.optional "peerdns" (tree.value? "PEERDNS")) []]]
  else if tree.has "IPADDR" then
    [.element "protocol" [("family", "ipv4")]
      (ipElement (tree.value "IPADDR") (putPrefix machine tree) :: routeElement (tree.value? "GATEWAY"))]
  else []

def putIpv6Address (value : String) : Xml :=
  ipElement (substringBefore value "/") (nonempty (substringAfter value "/"))

def stripQuotes (text : String) : String :=
  match text.toList with
  | '\'' :: rest => String.ofList rest.dropLast
  | _ => text

-- The route stands in the ipv6-address template; within the loop over the secondary addresses its
-- test looks at the token and never succeeds.
def putIpv6 (tree : Tree) : List Xml :=
  if tree.holds "IPV6INIT" "yes" then
    [.element "protocol" [("family", "ipv6")]
      ((if tree.holds "IPV6_AUTOCONF" "yes" then [.element "autoconf" [] []] else []) ++
        (if tree.holds "DHCPV6" "yes" then [.element "dhcp" [] []] else []) ++
        (match tree.value? "IPV6ADDR" with
          | some value => putIpv6Address value :: routeElement (tree.value? "IPV6_DEFAULTGW")
          | none => []) ++
        (match tree.value? "IPV6ADDR_SECONDARIES" with
          | some text => (strSplit (stripQuotes text)).map putIpv6Address
          | none => []))]
  else []

def putAddressing (machine : Machine) (tree : Tree) : List Xml :=
  putIpv4 machine tree ++ putIpv6 tree

def putBareEthernet (tree : Tree) : Xml :=
  .element "interface" [("type", "ethernet"), putName tree] (putMac tree)

def putVlanDevice (tree : Tree) : Xml :=
  .element "vlan" [("tag", substringAfter (tree.value "DEVICE") ".")]
    [.element "interface" [("name", substringBefore (tree.value "DEVICE") ".")] []]

def putBareVlan (tree : Tree) : Xml :=
  .element "interface" [("type", "vlan"), putName tree] [putVlanDevice tree]

def enslaved (tree master : Tree) (label : String) : Bool :=
  (master.values "DEVICE").any fun iface => tree.holds label iface

def putBondElement (forest : Forest) (tree : Tree) : Xml :=
  let opts := tree.value "BONDING_OPTS"
  let primary := bondOption opts "primary"
  let slaves := forest.filter fun slave => enslaved slave tree "MASTER"
  .element "bond" (modeAttribute opts)
    (miimonElement opts ++ arpmonElement opts ++
      (slaves.filter fun slave => slave.holds "DEVICE" primary).map putBareEthernet ++
      (slaves.filter fun slave => (slave.values "DEVICE").any (· ≠ primary)).map putBareEthernet)

def putBareBond (forest : Forest) (tree : Tree) : Xml :=
  .element "interface" [("type", "bond"), putName tree] [putBondElement forest tree]

def putPort (forest : Forest) (tree : Tree) : List Xml :=
  (if !tree.has "VLAN" && !tree.has "BONDING_OPTS" then [putBareEthernet tree] else []) ++
    (if tree.has "BONDING_OPTS" then [putBareBond forest tree] else []) ++
    (if tree.has "VLAN" then [putBareVlan tree] else [])

def putEthernet (machine : Machine) (tree : Tree) : Xml :=
  .element "interface" [("type", "ethernet"), putName tree]
    (putStartmode tree :: (putMac tree ++ putMtu tree ++ putAddressing machine tree))

def putTop (machine : Machine) (type : String) (tree : Tree) (device : Xml) : Xml :=
  .element "interface" [("type", type), putName tree]
    (putStartmode tree :: (putMtu tree ++ putAddressing machine tree ++ [device]))

def putVlan (machine : Machine) (tree : Tree) : Xml :=
  putTop machine "vlan" tree (putVlanDevice tree)

def putBridge (machine : Machine) (forest : Forest) (tree : Tree) : Xml :=
  putTop machine "bridge" tree
    (.element "bridge"
      (Xml.optional "stp" (tree.value? "STP") ++ Xml.optional "delay" (tree.value? "DELAY"))
      ((forest.filter fun port => enslaved port tree "BRIDGE").flatMap (putPort forest)))

def putBond (machine : Machine) (forest : Forest) (tree : Tree) : Xml :=
  putTop machine "bond" tree (putBondElement forest tree)

def matchesBond (forest : Forest) (tree : Tree) : Bool :=
  (tree.values "DEVICE").any (fun device => forest.any fun slave => slave.holds "MASTER" device) &&
    !tree.has "BRIDGE"

-- Of the templates that match a tree the processor takes the last one of the stylesheet.
def putTree (machine : Machine) (forest : Forest) (tree : Tree) : Option Xml :=
  if matchesBond forest tree then some (putBond machine forest tree)
  else if tree.holds "TYPE" "Bridge" then some (putBridge machine forest tree)
  else if tree.holds "VLAN" "yes" && !tree.has "MASTER" && !tree.has "BRIDGE" then
    some (putVlan machine tree)
  else if !tree.has "MASTER" && !tree.has "BRIDGE" && !tree.has "VLAN" then
    some (putEthernet machine tree)
  else none

def put (machine : Machine) (forest : Forest) : List Xml :=
  forest.filterMap (putTree machine forest)

end Netcf.RedHat
