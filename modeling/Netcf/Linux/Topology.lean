import Netcf.Linux.Live
import Netcf.Shared.Lists
import Netcf.Shared.Unfolding

set_option autoImplicit false

-- The links of a system, and the tree that each of them unfolds into.
namespace Netcf.Linux.Live

open Shared.Lists Shared.Unfolding

section Shape

variable (system : System)

def System.kindOf (name : String) : IfType :=
  if system.isReg ("/proc/net/vlan/" ++ name) then .vlan
  else if system.isDir ("/sys/class/net/" ++ name ++ "/bridge") then .bridge
  else if system.isDir ("/sys/class/net/" ++ name ++ "/bonding") then .bond
  else .ethernet

def System.portsOf (name : String) : List String :=
  ((system.readdir ("/sys/class/net/" ++ name ++ "/brif")).getD []).filter fun entry => entry ≠ "." ∧ entry ≠ ".."

def isSlaveOf (ifindex : Nat) (iflink : RtnlLink) : Bool :=
  iflink.slave && iflink.master = ifindex

def System.below (iflink : RtnlLink) : List RtnlLink :=
  match system.kindOf iflink.name with
  | .bridge => (system.portsOf iflink.name).filterMap system.byName
  | .bond => system.linkCache.filter (isSlaveOf iflink.ifindex)
  | .vlan => (system.rtnlLinkGet iflink.link).toList
  | .ethernet | .none => []

def bondNode (nested : List Node) : List Node :=
  if nested.isEmpty then [] else [.element "bond" [] nested]

def System.macNode (iflink : RtnlLink) : List Node :=
  match iflink.addr with
  | none => []
  | some addr => if nlAddrIszero addr then [] else [.element "mac" [("address", system.nlAddr2str addr)] []]

def System.content (iflink : RtnlLink) (nested : List Node) : List Node :=
  match system.kindOf iflink.name with
  | .bridge => [.element "bridge" [] nested]
  | .bond => bondNode nested
  | .vlan => [.element "vlan" [("tag", toString iflink.vlanId)] nested]
  | .ethernet => system.macNode iflink
  | .none => []

def System.attributesOf (iflink : RtnlLink) : List (String × String) :=
  [("name", iflink.name), ("type", (ifTypeStr (system.kindOf iflink.name)).getD "")]

def System.picture (iflink : RtnlLink) (nested : List Node) : Node :=
  .element "interface" (system.attributesOf iflink) (system.content iflink nested)

-- A finite set of links as the kernel has them.
structure Topology extends System where
  names : (linkCache.map (·.name)).Nodup
  indices : (linkCache.map (·.ifindex)).Nodup
  indexed : ∀ iflink ∈ linkCache, iflink.ifindex ≠ rtnlLinkNotFound
  agree : ∀ iflink ∈ linkCache, toSystem.kindOf iflink.name = .vlan → iflink.type = some "vlan"
  ports : ∀ iflink ∈ linkCache, toSystem.kindOf iflink.name = .bridge →
    ∀ port ∈ toSystem.portsOf iflink.name, ∃ link ∈ linkCache, link.name = port
  masters : ∀ iflink ∈ linkCache, toSystem.kindOf iflink.name = .vlan →
    ∃ master ∈ linkCache, master.ifindex = iflink.link
  acyclic : Acyclic toSystem.below linkCache

theorem below_cached (iflink link : RtnlLink) (member : link ∈ system.below iflink) : link ∈ system.linkCache := by
  unfold System.below at member
  split at member
  · obtain ⟨port, _, found⟩ := List.mem_filterMap.mp member
    exact List.mem_of_find?_eq_some found
  · exact (List.mem_filter.mp member).1
  · exact List.mem_of_find?_eq_some (Option.mem_toList.mp member)
  · cases member
  · cases member

variable (topology : Topology)

theorem Topology.grounded : WellFounded (Below topology.below) :=
  topology.acyclic.wellFounded (below_cached topology.toSystem)

-- What the relation unfolds into from a link.
noncomputable def Topology.tree : RtnlLink → Node :=
  unfold topology.grounded topology.picture

theorem Topology.tree_eq (iflink : RtnlLink) :
    topology.tree iflink = topology.picture iflink ((topology.below iflink).map topology.tree) :=
  unfold_eq topology.grounded topology.picture iflink

end Shape

section Lookup

variable (topology : Topology) {iflink : RtnlLink}

theorem byName_cached (member : iflink ∈ topology.linkCache) : topology.byName iflink.name = some iflink :=
  find_unique topology.names member

theorem name2i_cached (member : iflink ∈ topology.linkCache) :
    topology.rtnlLinkName2i iflink.name = iflink.ifindex := by
  rw [System.rtnlLinkName2i, byName_cached topology member]
  rfl

theorem linkGet_cached (member : iflink ∈ topology.linkCache) :
    topology.rtnlLinkGet iflink.ifindex = some iflink :=
  find_unique topology.indices member

theorem filter_cached (member : iflink ∈ topology.linkCache) :
    topology.linkCache.filter (·.ifindex = iflink.ifindex) = [iflink] :=
  filter_unique topology.indices member

theorem master_below (kind : topology.kindOf iflink.name = .vlan) {master : RtnlLink}
    (found : topology.rtnlLinkGet iflink.link = some master) : master ∈ topology.below iflink := by
  unfold System.below
  rw [kind, found]
  exact List.mem_singleton_self master

theorem slave_below (kind : topology.kindOf iflink.name = .bond) {slave : RtnlLink}
    (cached : slave ∈ topology.linkCache) (enslaved : isSlaveOf iflink.ifindex slave = true) :
    slave ∈ topology.below iflink := by
  unfold System.below
  rw [kind]
  exact List.mem_filter.mpr ⟨cached, enslaved⟩

-- The test of the callback.
theorem not_isSlaveOf (ifindex : Nat) (slave : RtnlLink) :
    (!slave.slave || slave.master ≠ ifindex : Bool) = !isSlaveOf ifindex slave := by
  rw [isSlaveOf, Bool.not_and, decide_not]

theorem port_below (member : iflink ∈ topology.linkCache) (kind : topology.kindOf iflink.name = .bridge)
    {port : String} (listed : port ∈ topology.portsOf iflink.name) :
    ∃ link ∈ topology.below iflink, topology.byName port = some link ∧ link.name = port := by
  obtain ⟨link, cached, rfl⟩ := topology.ports iflink member kind port listed
  have found := byName_cached topology cached
  refine ⟨link, ?_, found, rfl⟩
  unfold System.below
  rw [kind]
  exact List.mem_filterMap.mpr ⟨link.name, listed, found⟩

end Lookup

end Netcf.Linux.Live
