import Netcf.Linux.Ending

set_option autoImplicit false

-- When nothing fails the live state of nested interfaces is the tree of their links.
namespace Netcf.Linux.Live

open Shared.Faulty Shared.Unfolding Shared.Xml

section Drawing

variable {δ α : Type}

-- Where nothing has failed so far, and nothing is going to.
def Calm (s : Filling δ) : Prop :=
  s.faults = [] ∧ s.errcode = none

-- A program that makes NODE of an interface element that is still empty.
def Draws (program : Fill Unit Unit) (node : Node) : Prop :=
  ∃ attributes children, node = .element "interface" attributes children ∧
    ∀ s : Filling Unit, Calm s → s.attributes = [] → s.children = [] →
      program s = .ok () { s with attributes := attributes, children := children }

theorem checked_calm {next : Fill δ α} {s : Filling δ} (calm : Calm s) :
    (allocFails >>= fun fails => if fails = true then nomem >>= fun _ : Unit => next else next) s = next s := by
  rw [bind_of_ok _ (allocFails_calm calm.1), if_neg Bool.false_ne_true]

theorem ifType_calm (system : System) (intf : String) {s : Filling δ} (calm : Calm s) :
    ifType system intf s = .ok (system.kindOf intf) s := by
  refine untilError_ok ?_ _
  unfold System.kindOf
  rw [checked_calm calm]
  by_cases vlan : system.isReg ("/proc/net/vlan/" ++ intf) = true
  · rw [if_pos vlan, if_pos vlan]
    rfl
  · rw [if_neg vlan, if_neg vlan, checked_calm calm]
    by_cases bridge : system.isDir ("/sys/class/net/" ++ intf ++ "/bridge") = true
    · rw [if_pos bridge, if_pos bridge]
      rfl
    · rw [if_neg bridge, if_neg bridge, checked_calm calm]
      by_cases bond : system.isDir ("/sys/class/net/" ++ intf ++ "/bonding") = true
      · rw [if_pos bond, if_pos bond]
        rfl
      · rw [if_neg bond, if_neg bond]
        rfl

theorem copyNames_calm (names : List String) {s : Filling δ} (calm : Calm s) :
    copyNames names s = .ok (names.filter fun entry => entry ≠ "." ∧ entry ≠ "..") s := by
  induction names with
  | nil => rfl
  | cons name rest ih =>
    rw [copyNames]
    by_cases kept : name ≠ "." ∧ name ≠ ".."
    · rw [if_pos kept, checked_calm calm, checked_calm calm, bind_of_ok _ ih,
        List.filter_cons_of_pos (by simpa using kept)]
      rfl
    · rw [if_neg kept, ih, List.filter_cons_of_neg (by simpa using kept)]

theorem ifBridgePhysName_calm (system : System) (intf : String) {s : Filling δ} (calm : Calm s) :
    ifBridgePhysName system intf s = .ok (some (system.portsOf intf)) s := by
  refine untilError_ok ?_ _
  unfold System.portsOf
  rw [checked_calm calm]
  cases system.readdir ("/sys/class/net/" ++ intf ++ "/brif") with
  | none => rfl
  | some entries =>
    dsimp only
    rw [bind_of_ok _ (copyNames_calm entries calm)]
    rfl

-- One more interface element behind the others.
theorem interface_drawn {program : Fill Unit Unit} {node : Node} (draws : Draws program node) {s : Filling δ}
    (calm : Calm s) :
    (errNomem (xmlNewNode "interface") >>= fun place => within place program) s =
      .ok () { s with children := s.children ++ [node] } := by
  obtain ⟨attributes, children, rfl, run⟩ := draws
  rw [bind_of_ok _ (errNomem_some (xmlNewNode_calm calm.1 "interface"))]
  exact @within_last δ Unit { s with children := s.children ++ [Node.element "interface" [] []] } s.children
    "interface" [] [] rfl _ _ _ (run _ calm rfl rfl)

theorem ports_drawn (system : System) {recur : String → Nat → Fill Unit Unit} {node : String → Node}
    {names : List String} (draws : ∀ name ∈ names, Draws (recur name (system.rtnlLinkName2i name)) (node name))
    {s : Filling Unit} (calm : Calm s) :
    names.forM (addPort system recur) s = .ok () { s with children := s.children ++ names.map node } := by
  induction names generalizing s with
  | nil => exact congrArg (EStateM.Result.ok ()) (by rw [List.map_nil, List.append_nil])
  | cons name rest ih =>
    have first := interface_drawn (draws name List.mem_cons_self) calm
    have later := @ih (fun other member => draws other (List.mem_cons_of_mem _ member))
      { s with children := s.children ++ [node name] } calm
    refine (bind_of_ok _ first).trans (later.trans ?_)
    dsimp only
    rw [List.append_assoc]
    rfl

-- In the only child of an element, which is new.
theorem inNode_calm {name : String} {s : Filling δ} (calm : Calm s) (empty : s.children = [])
    {program : Fill Unit α} {a : α} {inner : Filling Unit} (run : program (s.enter [] []) = .ok a inner) :
    (errNomem (xmlNode name) >>= fun place => within place program) s =
      .ok a { s.leave 0 name inner with children := [.element name inner.attributes inner.children] } := by
  have absent : ∀ child ∈ s.children, child.hasName name = false := by
    rw [empty]
    exact fun _ member => absurd member List.not_mem_nil
  rw [bind_of_ok _ (errNomem_some (xmlNode_new calm.1 absent)), empty]
  exact @within_last δ α { s with children := [Node.element name [] []] } [] name [] [] rfl _ _ _ run

theorem addBridgeInfo_calm (system : System) {recur : String → Nat → Fill Unit Unit} {node : String → Node}
    {ifname : String}
    (draws : ∀ port ∈ system.portsOf ifname, Draws (recur port (system.rtnlLinkName2i port)) (node port))
    {s : Filling Unit} (calm : Calm s) (empty : s.children = []) :
    addBridgeInfo system recur ifname s =
      .ok () { s with children := [.element "bridge" [] ((system.portsOf ifname).map node)] } := by
  have entered : Calm (s.enter [] []) := calm
  refine untilError_ok ?_ ()
  rw [inNode_calm calm empty ((bind_of_ok _ (ifBridgePhysName_calm system ifname entered)).trans
    (ports_drawn system draws entered))]
  rfl

-- The element for the slaves is there from the first of them on.
theorem bond_found {s : Filling Unit} (calm : Calm s) {nested : List Node} (so_far : s.children = bondNode nested) :
    errNomem (xmlNode "bond") s = .ok 0 { s with children := [.element "bond" [] nested] } := by
  cases nested with
  | nil =>
    have empty : s.children = [] := so_far
    have absent : ∀ child ∈ s.children, child.hasName "bond" = false := by
      rw [empty]
      exact fun _ member => absurd member List.not_mem_nil
    rw [errNomem_some (xmlNode_new calm.1 absent), empty]
    rfl
  | cons first rest =>
    have there : s.children = [.element "bond" [] (first :: rest)] := so_far
    have found : s.children.findIdx? (Node.hasName "bond") = some 0 := by
      rw [there]
      rfl
    rw [errNomem_some (xmlNode_found found), ← there]

theorem slave_drawn {recur : String → Nat → Fill Unit Unit} {masterIfindex : Nat} {slave : RtnlLink} {node : Node}
    (enslaved : isSlaveOf masterIfindex slave = true)
    (draws : Draws (recur slave.name slave.ifindex) node) {s : Filling Unit} (calm : Calm s) {nested : List Node}
    (so_far : s.children = bondNode nested) :
    addBondInfoCb recur masterIfindex slave s = .ok () { s with children := bondNode (nested ++ [node]) } := by
  have entered : Calm (Filling.enter { s with children := [.element "bond" [] nested] } [] nested) := calm
  refine untilError_ok ?_ ()
  rw [not_isSlaveOf, enslaved, if_neg (by simp), bind_of_ok _ (bond_found calm so_far)]
  rw [within_ok (by rfl) (interface_drawn draws entered)]
  unfold bondNode
  rw [if_neg (by simp)]
  rfl

theorem slaves_drawn {recur : String → Nat → Fill Unit Unit} {masterIfindex : Nat} {node : RtnlLink → Node}
    (links : List RtnlLink)
    (draws : ∀ slave ∈ links.filter (isSlaveOf masterIfindex), Draws (recur slave.name slave.ifindex) (node slave))
    {s : Filling Unit} (calm : Calm s) {nested : List Node} (so_far : s.children = bondNode nested) :
    links.forM (addBondInfoCb recur masterIfindex) s =
      .ok () { s with children := bondNode (nested ++ (links.filter (isSlaveOf masterIfindex)).map node) } := by
  induction links generalizing s nested with
  | nil => exact congrArg (EStateM.Result.ok ()) (by rw [List.filter_nil, List.map_nil, List.append_nil, ← so_far])
  | cons slave rest ih =>
    cases enslaved : isSlaveOf masterIfindex slave with
    | true =>
      rw [List.filter_cons_of_pos enslaved] at draws ⊢
      have first := slave_drawn enslaved (draws slave List.mem_cons_self) calm so_far
      have later := @ih (fun other member => draws other (List.mem_cons_of_mem _ member))
        { s with children := bondNode (nested ++ [node slave]) } calm (nested ++ [node slave]) rfl
      refine (bind_of_ok _ first).trans (later.trans ?_)
      rw [List.map_cons, List.append_assoc]
      rfl
    | false =>
      rw [List.filter_cons_of_neg (by simp [enslaved])] at draws ⊢
      have passed : addBondInfoCb recur masterIfindex slave s = .ok () s := by
        refine untilError_ok ?_ ()
        rw [not_isSlaveOf, enslaved, if_pos (by simp)]
        rfl
      exact (bind_of_ok _ passed).trans (ih draws calm so_far)

theorem addBondInfo_calm (system : System) {recur : String → Nat → Fill Unit Unit} {ifindex : Nat}
    (indexed : ifindex ≠ rtnlLinkNotFound) {node : RtnlLink → Node}
    (draws : ∀ slave ∈ system.linkCache.filter (isSlaveOf ifindex), Draws (recur slave.name slave.ifindex) (node slave))
    {s : Filling Unit} (calm : Calm s) (empty : s.children = []) :
    addBondInfo system recur ifindex s =
      .ok () { s with children := bondNode ((system.linkCache.filter (isSlaveOf ifindex)).map node) } := by
  unfold addBondInfo
  rw [if_neg indexed]
  exact foreach_ok (slaves_drawn system.linkCache draws calm (show s.children = bondNode [] from empty))

theorem remembered {s : Filling (Option Nat)} {find : Fill (Option Nat) Nat} {place : Nat} {after : Filling (Option Nat)}
    (run : find s = .ok place after) : remember find s = .ok place { after with data := some place } := by
  unfold remember
  rw [bind_of_ok _ run]
  rfl

-- In a new node that the callback remembers.
theorem inRemembered_calm {name : String} {s : Filling (Option Nat)} (calm : Calm s) (empty : s.children = [])
    {program : Fill Unit α} {a : α} {inner : Filling Unit} (run : program (s.enter [] []) = .ok a inner) :
    (remember (errNomem (xmlNode name)) >>= fun place => within place program) s =
      .ok a { s.leave 0 name inner with
        children := [.element name inner.attributes inner.children]
        data := some 0 } := by
  have absent : ∀ child ∈ s.children, child.hasName name = false := by
    rw [empty]
    exact fun _ member => absurd member List.not_mem_nil
  have created := errNomem_some (xmlNode_new calm.1 absent)
  rw [empty] at created
  rw [bind_of_ok _ (remembered created)]
  exact @within_last (Option Nat) α { s with children := [Node.element name [] []], data := some 0 } [] name [] [] rfl
    _ _ _ run

theorem addEthernetInfoCb_calm (system : System) (iflink : RtnlLink) {s : Filling (Option Nat)} (calm : Calm s)
    (empty : s.children = []) (unset : s.data = none) :
    ∃ data, addEthernetInfoCb system iflink s =
      .ok () { s with children := system.macNode iflink, data := data } := by
  obtain ⟨faults, errcode, errdetails, attributes, children, data⟩ := s
  cases empty
  cases unset
  unfold addEthernetInfoCb System.macNode
  cases address : iflink.addr with
  | none => exact ⟨none, untilError_ok rfl ()⟩
  | some addr =>
    dsimp only
    by_cases zero : nlAddrIszero addr = true
    · refine ⟨none, untilError_ok ?_ ()⟩
      rw [bind_of_ok _ (get_run _)]
      dsimp only
      rw [if_pos Option.isNone_none, if_pos zero, if_pos zero]
      rfl
    · have filled := errNomem_some (@xmlSetProp_calm Unit ⟨faults, errcode, errdetails, [], [], ()⟩ calm.1 "address"
        (system.nlAddr2str addr))
      refine ⟨some 0, untilError_ok ?_ ()⟩
      rw [bind_of_ok _ (get_run _)]
      dsimp only
      rw [if_pos Option.isNone_none, if_neg zero, if_neg zero]
      exact inRemembered_calm calm rfl filled

theorem addEthernetInfo_calm (topology : Topology) {iflink : RtnlLink} (member : iflink ∈ topology.linkCache)
    {s : Filling Unit} (calm : Calm s) (empty : s.children = []) :
    addEthernetInfo topology.toSystem iflink.ifindex s =
      .ok () { s with children := topology.macNode iflink } := by
  obtain ⟨data, run⟩ := @addEthernetInfoCb_calm topology.toSystem iflink
    ⟨s.faults, s.errcode, s.errdetails, s.attributes, s.children, none⟩ calm empty rfl
  refine untilError_ok ?_ ()
  rw [if_neg (topology.indexed iflink member), checked_calm calm, filter_cached topology member]
  exact foreach_single run

theorem addVlanInfoCb_calm (topology : Topology) {iflink : RtnlLink} (member : iflink ∈ topology.linkCache)
    (kind : topology.kindOf iflink.name = .vlan) {recur : String → Nat → Fill Unit Unit} {node : RtnlLink → Node}
    (draws : ∀ link ∈ topology.below iflink, Draws (recur link.name link.ifindex) (node link))
    {s : Filling (Option Nat)} (calm : Calm s) (empty : s.children = []) (unset : s.data = none) :
    ∃ data, addVlanInfoCb topology.toSystem recur iflink s =
      .ok () { s with
        children := [.element "vlan" [("tag", toString iflink.vlanId)] ((topology.below iflink).map node)]
        data := data } := by
  obtain ⟨master, cached, linked⟩ := topology.masters iflink member kind
  have found : topology.rtnlLinkGet iflink.link = some master := by
    rw [← linked]
    exact linkGet_cached topology cached
  have under := master_below topology kind found
  have only : (topology.below iflink).map node = [node master] := by
    unfold System.below
    rw [kind, found]
    rfl
  have some_link : iflink.link ≠ rtnlLinkNotFound := by
    rw [← linked]
    exact topology.indexed master cached
  have entered : (s.enter [] []).faults = [] := calm.1
  have tagged := errNomem_some (xmlSetProp_calm entered "tag" (toString iflink.vlanId))
  have filled := (bind_of_ok (fun _ => errNomem (xmlNewNode "interface") >>= fun place =>
    within place (recur master.name master.ifindex)) tagged).trans
      (interface_drawn (draws master under) (show Calm _ from calm))
  refine ⟨some 0, untilError_ok ?_ ()⟩
  rw [bind_of_ok _ (get_run s), unset, if_neg (by simp), if_neg (by simp [topology.agree iflink member kind]),
    if_neg some_link, found]
  simp only [name2i_cached topology cached, if_neg (topology.indexed master cached)]
  rw [only]
  refine (inRemembered_calm calm empty filled).trans ?_
  rfl

theorem addVlanInfo_calm (topology : Topology) {iflink : RtnlLink} (member : iflink ∈ topology.linkCache)
    (kind : topology.kindOf iflink.name = .vlan) {recur : String → Nat → Fill Unit Unit} {node : RtnlLink → Node}
    (draws : ∀ link ∈ topology.below iflink, Draws (recur link.name link.ifindex) (node link))
    {s : Filling Unit} (calm : Calm s) (empty : s.children = []) :
    addVlanInfo topology.toSystem recur iflink.ifindex s = .ok () { s with
      children := [.element "vlan" [("tag", toString iflink.vlanId)] ((topology.below iflink).map node)] } := by
  obtain ⟨data, run⟩ := @addVlanInfoCb_calm topology iflink member kind recur node draws
    ⟨s.faults, s.errcode, s.errdetails, s.attributes, s.children, none⟩ calm empty rfl
  refine untilError_ok ?_ ()
  rw [if_neg (topology.indexed iflink member), checked_calm calm, filter_cached topology member,
    bind_of_ok _ (foreach_single run)]
  exact errBail_calm calm.2

end Drawing

section Main

variable (topology : Topology)

theorem ifTypeStr_kindOf (system : System) (name : String) :
    ∃ text, ifTypeStr (system.kindOf name) = some text := by
  unfold System.kindOf
  split_ifs
  · exact ⟨_, rfl⟩
  · exact ⟨_, rfl⟩
  · exact ⟨_, rfl⟩
  · exact ⟨_, rfl⟩

noncomputable def portNode (port : String) : Node :=
  ((topology.byName port).map topology.tree).getD (.other "")

theorem map_portNode {ports : List String} (cached : ∀ port ∈ ports, ∃ link, topology.byName port = some link) :
    (ports.filterMap topology.byName).map topology.tree = ports.map (portNode topology) := by
  induction ports with
  | nil => rfl
  | cons port rest ih =>
    obtain ⟨link, found⟩ := cached port List.mem_cons_self
    rw [List.filterMap_cons_some found, List.map_cons, List.map_cons, portNode, found,
      ih fun other member => cached other (List.mem_cons_of_mem _ member)]
    rfl

-- With the elements of the links below drawn, the element of a link is.
theorem draws_addTypeSpecificInfo {iflink : RtnlLink} (member : iflink ∈ topology.linkCache) {fuel : Nat}
    (below : ∀ link ∈ topology.below iflink,
      Draws (addTypeSpecificInfo topology.toSystem fuel link.name link.ifindex) (topology.tree link)) :
    Draws (addTypeSpecificInfo topology.toSystem (fuel + 1) iflink.name iflink.ifindex) (topology.tree iflink) := by
  refine ⟨_, _, topology.tree_eq iflink, ?_⟩
  intro s calm bare empty
  obtain ⟨faults, errcode, errdetails, attributes, children, _⟩ := s
  cases bare
  cases empty
  obtain ⟨text, known⟩ := ifTypeStr_kindOf topology.toSystem iflink.name
  have both : setProp "type" text [("name", iflink.name)] = topology.attributesOf iflink := by
    rw [setProp, if_neg (by decide), setProp, System.attributesOf, known]
    rfl
  have still : Calm (⟨faults, errcode, errdetails, [("name", iflink.name)], [], ()⟩ : Filling Unit) := calm
  have named : errNomem (xmlNewProp "name" iflink.name) (⟨faults, errcode, errdetails, [], [], ()⟩ : Filling Unit) =
      .ok () ⟨faults, errcode, errdetails, [("name", iflink.name)], [], ()⟩ :=
    errNomem_some (xmlNewProp_calm calm.1 "name" iflink.name)
  have typed := errNomem_some (xmlSetProp_calm still.1 "type" text)
  have indexed := topology.indexed iflink member
  refine untilError_ok ?_ ()
  rw [bind_of_ok _ named, bind_of_ok _ (ifType_calm _ _ still), bind_of_ok _ (errBail_calm still.2), known]
  dsimp only
  rw [bind_of_ok _ typed]
  dsimp only
  rw [both]
  unfold System.content
  cases kind : topology.kindOf iflink.name with
  | none =>
    rw [kind] at known
    cases known
  | ethernet => exact addEthernetInfo_calm topology member calm rfl
  | vlan => exact addVlanInfo_calm topology member kind below calm rfl
  | bond =>
    have under : topology.below iflink = topology.linkCache.filter (isSlaveOf iflink.ifindex) := by
      rw [System.below, kind]
    rw [under] at below ⊢
    exact addBondInfo_calm topology.toSystem indexed below calm rfl
  | bridge =>
    have under : topology.below iflink = (topology.portsOf iflink.name).filterMap topology.byName := by
      rw [System.below, kind]
    have cached : ∀ port ∈ topology.portsOf iflink.name, ∃ link, topology.byName port = some link := by
      intro port listed
      obtain ⟨link, _, found, _⟩ := port_below topology member kind listed
      exact ⟨link, found⟩
    rw [under, map_portNode topology cached]
    refine addBridgeInfo_calm topology.toSystem (fun port listed => ?_) calm rfl
    obtain ⟨link, deeper, found, rfl⟩ := port_below topology member kind listed
    rw [portNode, found, name2i_cached topology (below_cached _ _ _ deeper)]
    exact below link deeper

-- With enough fuel the recursion ends, whatever fails on the way, and when nothing fails it makes the tree of the
-- link of an empty element.
theorem live_state_unfolds {iflink : RtnlLink} (member : iflink ∈ topology.linkCache) :
    ∃ enough, ∀ fuel ≥ enough,
      (∀ s, ∃ after, addTypeSpecificInfo topology.toSystem fuel iflink.name iflink.ifindex s = .ok () after) ∧
        ∃ attributes children, topology.tree iflink = .element "interface" attributes children ∧
          ∀ s, Calm s → s.attributes = [] → s.children = [] →
            addTypeSpecificInfo topology.toSystem fuel iflink.name iflink.ifindex s =
              .ok () { s with attributes := attributes, children := children } := by
  have good : ∀ link, ∃ enough, ∀ fuel ≥ enough, link ∈ topology.linkCache →
      Settles (addTypeSpecificInfo topology.toSystem fuel link.name link.ifindex) ∧
        Draws (addTypeSpecificInfo topology.toSystem fuel link.name link.ifindex) (topology.tree link) := by
    refine enough_fuel topology.grounded ?_
    intro link fuel below cached
    have inside := fun deeper under => below deeper under (below_cached _ _ _ under)
    exact ⟨settles_addTypeSpecificInfo topology cached fun deeper under => (inside deeper under).1,
      draws_addTypeSpecificInfo topology cached fun deeper under => (inside deeper under).2⟩
  obtain ⟨enough, runs⟩ := good iflink
  refine ⟨enough, fun fuel more => ?_⟩
  obtain ⟨settles, draws⟩ := runs fuel more member
  refine ⟨fun s => ?_, draws⟩
  obtain ⟨_, after, run⟩ := settles s
  exact ⟨after, run⟩

end Main

section Bridge

-- A bridge on a vlan on a bond of one card.
def eth0 : RtnlLink := ⟨"eth0", 2, true, 3, none, 0, 0, some [0, 1, 2, 3, 4, 5]⟩

def bond0 : RtnlLink := ⟨"bond0", 3, false, 0, some "bond", 0, 0, some [0, 1, 2, 3, 4, 5]⟩

def bondVlan : RtnlLink := ⟨"bond0.5", 4, false, 5, some "vlan", 3, 5, some [0, 1, 2, 3, 4, 5]⟩

def br0 : RtnlLink := ⟨"br0", 5, false, 0, some "bridge", 0, 0, some [0, 1, 2, 3, 4, 5]⟩

def officeSystem : System where
  linkCache := [eth0, bond0, bondVlan, br0]
  nlAddr2str _ := "00:01:02:03:04:05"
  isReg path := path = "/proc/net/vlan/bond0.5"
  isDir path := path = "/sys/class/net/br0/bridge" || path = "/sys/class/net/bond0/bonding"
  readdir path := if path = "/sys/class/net/br0/brif" then some [".", "..", "bond0.5"] else none

theorem below_office : officeSystem.below eth0 = [] ∧ officeSystem.below bond0 = [eth0] ∧
    officeSystem.below bondVlan = [bond0] ∧ officeSystem.below br0 = [bondVlan] :=
  ⟨rfl, rfl, rfl, rfl⟩

def office : Topology where
  toSystem := officeSystem
  names := by decide
  indices := by decide
  indexed := by decide
  agree := by decide
  ports := by decide
  masters := by decide
  acyclic := by
    obtain ⟨card, bond, vlan, bridge⟩ := below_office
    refine acyclic_of_rank (·.ifindex) fun iflink member link under => ⟨below_cached _ _ _ under, ?_⟩
    simp only [officeSystem, List.mem_cons, List.not_mem_nil, or_false] at member
    rcases member with rfl | rfl | rfl | rfl
    · rw [card] at under
      cases under
    · rw [bond, List.mem_singleton] at under
      rw [under]
      decide
    · rw [vlan, List.mem_singleton] at under
      rw [under]
      decide
    · rw [bridge, List.mem_singleton] at under
      rw [under]
      decide

def interfaceNode (name type : String) (children : List Node) : Node :=
  .element "interface" [("name", name), ("type", type)] children

def bridgeNode : Node :=
  .element "bridge" [] [interfaceNode "bond0.5" "vlan" [.element "vlan" [("tag", "5")] [
    interfaceNode "bond0" "bond" [.element "bond" [] [
      interfaceNode "eth0" "ethernet" [.element "mac" [("address", "00:01:02:03:04:05")] []]]]]]]

theorem office_tree : office.tree br0 = interfaceNode "br0" "bridge" [bridgeNode] := by
  obtain ⟨card, bond, vlan, bridge⟩ := below_office
  rw [Topology.tree_eq, show office.below br0 = [bondVlan] from bridge, List.map_singleton, Topology.tree_eq,
    show office.below bondVlan = [bond0] from vlan, List.map_singleton, Topology.tree_eq,
    show office.below bond0 = [eth0] from bond, List.map_singleton, Topology.tree_eq,
    show office.below eth0 = [] from card, List.map_nil]
  rfl

theorem live_state_unfolds_office : ∃ enough, ∀ fuel ≥ enough,
    (∀ s, ∃ after, addTypeSpecificInfo officeSystem fuel "br0" 5 s = .ok () after) ∧
      ∀ s, Calm s → s.attributes = [] → s.children = [] → addTypeSpecificInfo officeSystem fuel "br0" 5 s =
        .ok () { s with attributes := [("name", "br0"), ("type", "bridge")], children := [bridgeNode] } := by
  obtain ⟨enough, runs⟩ := @live_state_unfolds office br0 (by simp [office, officeSystem])
  refine ⟨enough, fun fuel more => ?_⟩
  obtain ⟨settles, attributes, children, shape, draws⟩ := runs fuel more
  rw [office_tree] at shape
  cases shape
  exact ⟨settles, draws⟩

end Bridge

end Netcf.Linux.Live
