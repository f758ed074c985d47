import Netcf.Linux.Nodes

set_option autoImplicit false

-- The live state of an interface and of those that it is made of (add_type_specific_info and the
-- functions around it in dutil_linux.c).
namespace Netcf.Linux.Live

open Shared.Faulty

section Kernel

-- An object of the link cache. TYPE is none where the kernel has no name for the kind of link.
structure RtnlLink where
  name : String
  ifindex : Nat
  -- IFF_SLAVE
  slave : Bool
  master : Nat
  type : Option String
  link : Nat
  vlanId : Nat
  addr : Option (List UInt8)

-- What the functions see of the system: the link cache, and the files below /proc and /sys.
structure System where
  linkCache : List RtnlLink
  nlAddr2str : List UInt8 → String
  isReg : String → Bool
  isDir : String → Bool
  readdir : String → Option (List String)

def rtnlLinkNotFound : Nat := 0

def nlAddrIszero (addr : List UInt8) : Bool :=
  addr.all (· = 0)

variable (system : System)

def System.byName (name : String) : Option RtnlLink :=
  system.linkCache.find? (·.name = name)

def System.rtnlLinkName2i (name : String) : Nat :=
  ((system.byName name).map (·.ifindex)).getD rtnlLinkNotFound

def System.rtnlLinkGet (ifindex : Nat) : Option RtnlLink :=
  system.linkCache.find? (·.ifindex = ifindex)

end Kernel

section Program

variable {δ : Type} (system : System)

inductive IfType
  | none | ethernet | bond | bridge | vlan
  deriving DecidableEq

def ifTypeStr : IfType → Option String
  | .ethernet => some "ethernet"
  | .bond => some "bond"
  | .bridge => some "bridge"
  | .vlan => some "vlan"
  | .none => Option.none

def ifType (intf : String) : Fill δ IfType := untilError .none do
  if ← allocFails then nomem
  if system.isReg ("/proc/net/vlan/" ++ intf) then return .vlan
  if ← allocFails then nomem
  if system.isDir ("/sys/class/net/" ++ intf ++ "/bridge") then return .bridge
  if ← allocFails then nomem
  if system.isDir ("/sys/class/net/" ++ intf ++ "/bonding") then return .bond
  return .ethernet

-- One more slot of the array, and the name in it.
def copyNames : List String → Fill δ (List String)
  | [] => return []
  | name :: rest => do
    if name ≠ "." ∧ name ≠ ".." then
      if ← allocFails then nomem
      if ← allocFails then nomem
      return name :: (← copyNames rest)
    else copyNames rest

-- None stands for -1.
def ifBridgePhysName (intf : String) : Fill δ (Option (List String)) := untilError none do
  if ← allocFails then nomem
  match system.readdir ("/sys/class/net/" ++ intf ++ "/brif") with
  | none => return some []
  | some entries => return some (← copyNames entries)

-- The pointer to a node is kept for the later calls of the callback.
def remember (program : Fill (Option Nat) Nat) : Fill (Option Nat) Nat := do
  let place ← program
  modify fun s => { s with data := some place }
  return place

def addEthernetInfoCb (iflink : RtnlLink) : Fill (Option Nat) Unit := untilError () do
  if (← get).data.isNone then
    match iflink.addr with
    | none => return
    | some addr =>
      if nlAddrIszero addr then return
      let mac ← remember (errNomem (xmlNode "mac"))
      within mac (errNomem (xmlSetProp "address" (system.nlAddr2str addr)))

def addEthernetInfo (ifindex : Nat) : Fill Unit Unit := untilError () do
  if ifindex = rtnlLinkNotFound then return
  if ← allocFails then nomem
  foreach (system.linkCache.filter (·.ifindex = ifindex)) none (addEthernetInfoCb system)

-- The functions below call add_type_specific_info again, for a name and an index.
variable (recur : String → Nat → Fill Unit Unit)

def addVlanInfoCb (iflink : RtnlLink) : Fill (Option Nat) Unit := untilError () do
  if (← get).data.isSome then return
  if iflink.type ≠ some "vlan" then return
  if iflink.link = rtnlLinkNotFound then return
  match system.rtnlLinkGet iflink.link with
  | none => return
  | some masterLink =>
    let vlan ← remember (errNomem (xmlNode "vlan"))
    within vlan do
      errNomem (xmlSetProp "tag" (toString iflink.vlanId))
      let interfaceNode ← errNomem (xmlNewNode "interface")
      let masterIfindex := system.rtnlLinkName2i masterLink.name
      if masterIfindex = rtnlLinkNotFound then
        errThrow .netlink ("couldn't find ifindex for vlan master interface `" ++ masterLink.name ++ "`")
      within interfaceNode (recur masterLink.name masterIfindex)

def addVlanInfo (ifindex : Nat) : Fill Unit Unit := untilError () do
  if ifindex = rtnlLinkNotFound then return
  if ← allocFails then nomem
  foreach (system.linkCache.filter (·.ifindex = ifindex)) none (addVlanInfoCb system recur)
  errBail

def addPort (physName : String) : Fill Unit Unit := do
  let interfaceNode ← errNomem (xmlNewNode "interface")
  within interfaceNode (recur physName (system.rtnlLinkName2i physName))

def addBridgeInfo (ifname : String) : Fill Unit Unit := untilError () do
  let bridgeNode ← errNomem (xmlNode "bridge")
  within bridgeNode do
    match ← ifBridgePhysName system ifname with
    | none => return
    | some physNames => physNames.forM (addPort system recur)

def addBondInfoCb (masterIfindex : Nat) (iflink : RtnlLink) : Fill Unit Unit := untilError () do
  if !iflink.slave || iflink.master ≠ masterIfindex then return
  let bond ← errNomem (xmlNode "bond")
  within bond do
    let interfaceNode ← errNomem (xmlNewNode "interface")
    within interfaceNode (recur iflink.name iflink.ifindex)

def addBondInfo (ifindex : Nat) : Fill Unit Unit := do
  if ifindex = rtnlLinkNotFound then return
  foreach system.linkCache () (addBondInfoCb recur ifindex)

def addTypeSpecificInfo : Nat → String → Nat → Fill Unit Unit
  | 0, _, _ => throw .outOfFuel
  | fuel + 1, ifname, ifindex => untilError () do
    errNomem (xmlNewProp "name" ifname)
    let iftype ← ifType system ifname
    errBail
    match ifTypeStr iftype with
    | some iftypeStr => errNomem (xmlSetProp "type" iftypeStr)
    | none => pure ()
    match iftype with
    | .ethernet => addEthernetInfo system ifindex
    | .bridge => addBridgeInfo system (addTypeSpecificInfo fuel) ifname
    | .vlan => addVlanInfo system (addTypeSpecificInfo fuel) ifindex
    | .bond => addBondInfo system (addTypeSpecificInfo fuel) ifindex
    | .none => return

end Program

end Netcf.Linux.Live
