import Netcf.RedHat.Define
import Netcf.RedHat.RoundTrip

set_option autoImplicit false

-- The driver reads the files of an interface in the order of their devices: the description that
-- comes back names the ports and slaves in that order, with the primary slave of a bond first.
namespace Netcf.RedHat

open Schema Stylesheet Shared

section Arranging

def arrangedBond (bond : BondElement) : BondElement :=
  if bond.mode = some .activeBackup then { bond with others := strcmpSort (·.name.text) bond.others }
  else
    match strcmpSort (·.name.text) bond.slaves with
    | first :: others => { bond with first, others }
    | [] => bond

def arrangedPort : Port → Port
  | .ethernet nic => .ethernet nic
  | .vlan link => .vlan link
  | .bond team => .bond ⟨team.name, arrangedBond team.bond⟩

def arranged : Interface → Interface
  | .ethernet common nic => .ethernet common nic
  | .vlan common link => .vlan common link
  | .bridge common name hub =>
    .bridge common name { hub with ports := strcmpSort Port.device (hub.ports.map arrangedPort) }
  | .bond common team => .bond common ⟨team.name, arrangedBond team.bond⟩

theorem strcmpSort_perm {α : Type} (key : α → String) (list : List α) : (strcmpSort key list).Perm list :=
  List.perm_insertionSort _ _

theorem strcmpSort_strict {α : Type} {key : α → String} {list : List α} (distinct : (list.map key).Nodup) :
    (strcmpSort key list).Pairwise fun left right => key left < key right := by
  have sorted : (strcmpSort key list).Pairwise fun left right => key left ≤ key right := by
    have total : Std.Total fun left right : α => key left ≤ key right := ⟨fun _ _ => le_total _ _⟩
    have trans : IsTrans α fun left right => key left ≤ key right := ⟨fun _ _ _ => le_trans⟩
    exact List.pairwise_insertionSort _ _
  have apart : (strcmpSort key list).Pairwise fun left right => key left ≠ key right :=
    List.pairwise_map.mp (((strcmpSort_perm key list).map key).nodup_iff.mpr distinct)
  exact (sorted.and apart).imp fun both => lt_of_le_of_ne both.1 both.2

theorem arrangedBond_slaves (bond : BondElement) : (arrangedBond bond).slaves.Perm bond.slaves := by
  unfold arrangedBond
  split_ifs with backup
  · exact (strcmpSort_perm _ _).cons _
  · have sorted := strcmpSort_perm (·.name.text) bond.slaves
    split
    next first others same =>
      rw [same] at sorted
      exact sorted
    next => exact List.Perm.refl _

theorem bondingOpts_arranged (bond : BondElement) : bondingOpts (arrangedBond bond) = bondingOpts bond := by
  unfold arrangedBond
  split_ifs with backup
  · rfl
  · split
    next first others same => simp [bondingOpts, backup]
    next => rfl

-- Only the primary slave may stand in front of a slave whose name comes before its own.
theorem arrangedBond_strict {bond : BondElement} (distinct : (bond.slaves.map (·.name.text)).Nodup) :
    (arrangedBond bond).slaves.Pairwise fun left right => left.name.text < right.name.text ∨
      (bond.mode = some .activeBackup ∧ left.name = bond.first.name) := by
  unfold arrangedBond
  split_ifs with backup
  · have others := strcmpSort_strict (List.nodup_cons.mp distinct).2
    exact List.pairwise_cons.mpr ⟨fun _ _ => Or.inr ⟨backup, rfl⟩, others.imp Or.inl⟩
  · have sorted := strcmpSort_strict distinct
    split
    next first others same =>
      rw [same] at sorted
      exact sorted.imp Or.inl
    next same =>
      have few := (strcmpSort_perm (·.name.text) bond.slaves).length_eq
      rw [same] at few
      cases few

theorem arrangedPort_device (port : Port) : Port.device (arrangedPort port) = Port.device port := by
  cases port <;> rfl

theorem portTree_arranged (common : Common) (bridge : DeviceName) (port : Port) :
    portTree common bridge (arrangedPort port) = portTree common bridge port := by
  cases port with
  | ethernet nic => rfl
  | vlan link => rfl
  | bond team =>
    simp only [arrangedPort, portTree, bareBondInterface, bondingOptsNode, bondingOpts_arranged]

theorem bridgePort_arranged (common : Common) (bridge : DeviceName) (port : Port) :
    (bridgePort common bridge (arrangedPort port)).Perm (bridgePort common bridge port) := by
  rw [bridgePort_eq, bridgePort_eq, portTree_arranged]
  refine List.Perm.cons _ ?_
  cases port with
  | ethernet nic => exact List.Perm.refl _
  | vlan link => exact List.Perm.refl _
  | bond team => exact (arrangedBond_slaves team.bond).map (slaveTree common team.name)

theorem common_arranged (document : Interface) : (arranged document).common = document.common := by
  cases document <;> rfl

theorem rootTree_arranged (nodes : List Node) (document : Interface) :
    rootTree nodes (arranged document) = rootTree nodes document := by
  cases document with
  | ethernet common nic => rfl
  | vlan common link => rfl
  | bridge common name hub => rfl
  | bond common team => simp only [arranged, rootTree, bondingOptsNode, bondingOpts_arranged]

-- What is collected over the ports is the same up to its order.
theorem arrangedPorts_perm {α : Type} {collect : Port → List α} (ports : List Port)
    (same : ∀ port, (collect (arrangedPort port)).Perm (collect port)) :
    ((strcmpSort Port.device (ports.map arrangedPort)).flatMap collect).Perm (ports.flatMap collect) := by
  refine ((strcmpSort_perm Port.device (ports.map arrangedPort)).flatMap_right collect).trans ?_
  rw [List.flatMap_map]
  exact List.Perm.flatMap_left ports fun port _ => same port

-- The files are the same ones.
theorem forestOf_arranged (machine : Machine) (document : Interface) :
    (forestOf machine (arranged document)).Perm (forestOf machine document) := by
  rw [forestOf, forestOf, rootTree_arranged, common_arranged]
  refine List.Perm.cons _ ?_
  cases document with
  | ethernet common nic => exact List.Perm.refl _
  | vlan common link => exact List.Perm.refl _
  | bridge common name hub => exact arrangedPorts_perm hub.ports (bridgePort_arranged common name)
  | bond common team => exact (arrangedBond_slaves team.bond).map (slaveTree common team.name)

end Arranging

section Reordering

variable {machine : Machine} {forest other : Forest}

-- The name that the templates for a bond take for that of its primary slave.
def primary (tree : Tree) : String :=
  bondOption (tree.value "BONDING_OPTS") "primary"

-- Ports of a bridge stand in the order of their devices, and so do the slaves of a bond behind its primary.
structure Ordered (forest : Forest) (left right : Tree) : Prop where
  ports : ∀ device, left.holds "BRIDGE" device = true → right.holds "BRIDGE" device = true → left.device < right.device
  slaves : ∀ master ∈ forest, left.holds "MASTER" master.device = true → right.holds "MASTER" master.device = true →
    left.device < right.device ∨ left.device = primary master

def InOrder (forest : Forest) : Prop :=
  forest.Pairwise (Ordered forest)

theorem filter_sorted (perm : forest.Perm other) (sorted : forest.Pairwise fun left right => left.device < right.device)
    {p : Tree → Bool} (inOrder : (other.filter p).Pairwise fun left right => left.device < right.device) :
    forest.filter p = other.filter p := by
  refine List.Perm.eq_of_pairwise ?_ (sorted.sublist List.filter_sublist) inOrder (perm.filter p)
  intro left right _ _ below above
  exact absurd below (lt_asymm above)

theorem pairwise_filter_of {R S : Tree → Tree → Prop} {p : Tree → Bool} (all : other.Pairwise R)
    (implies : ∀ left right, p left = true → p right = true → R left right → S left right) :
    (other.filter p).Pairwise S :=
  List.pairwise_filter.mpr (all.imp fun {left right} holds isLeft isRight => implies left right isLeft isRight holds)

variable (perm : forest.Perm other) (sorted : forest.Pairwise fun left right => left.device < right.device)
  (fits : ∀ tree ∈ other, tree.ForDevice tree.device) (inOrder : InOrder other)
include perm sorted fits inOrder

theorem ports_aligned {tree : Tree} (member : tree ∈ other) :
    forest.filter (fun port => enslaved port tree "BRIDGE") = other.filter fun port => enslaved port tree "BRIDGE" := by
  refine filter_sorted perm sorted (pairwise_filter_of inOrder ?_)
  intro left right isLeft isRight holds
  rw [enslaved_of_device (fits tree member).devices] at isLeft isRight
  exact holds.ports _ isLeft isRight

theorem putBondElement_aligned {tree : Tree} (member : tree ∈ other) :
    putBondElement forest tree = putBondElement other tree := by
  have distinct : other.Pairwise fun left right => left.device ≠ right.device := by
    have apart : (other.map Tree.device).Nodup :=
      (perm.map Tree.device).nodup_iff.mp (List.pairwise_map.mpr (sorted.imp fun below => below.ne))
    exact List.pairwise_map.mp apart
  have listed : ∀ {slave : Tree}, slave ∈ other → ∀ name, slave.holds "DEVICE" name = true ↔ slave.device = name := by
    intro slave inside name
    simp [Tree.holds, (fits slave inside).devices, eq_comm]
  have first : (forest.filter fun slave => enslaved slave tree "MASTER").filter
        (fun slave => slave.holds "DEVICE" (primary tree)) =
      (other.filter fun slave => enslaved slave tree "MASTER").filter fun slave => slave.holds "DEVICE" (primary tree) := by
    rw [List.filter_filter, List.filter_filter]
    refine filter_sorted perm sorted (List.pairwise_filter.mpr (distinct.imp_of_mem ?_))
    intro left right inLeft inRight apart isLeft isRight
    rw [Bool.and_eq_true] at isLeft isRight
    exact absurd (((listed inLeft _).mp isLeft.1).trans ((listed inRight _).mp isRight.1).symm) apart
  have rest : (forest.filter fun slave => enslaved slave tree "MASTER").filter
        (fun slave => (slave.values "DEVICE").any (· ≠ primary tree)) =
      (other.filter fun slave => enslaved slave tree "MASTER").filter fun slave =>
        (slave.values "DEVICE").any (· ≠ primary tree) := by
    rw [List.filter_filter, List.filter_filter]
    refine filter_sorted perm sorted (List.pairwise_filter.mpr (List.Pairwise.imp_of_mem ?_ inOrder))
    intro left right inLeft inRight holds isLeft isRight
    rw [Bool.and_eq_true, enslaved_of_device (fits tree member).devices] at isLeft isRight
    rcases holds.slaves tree member isLeft.2 isRight.2 with below | isPrimary
    · exact below
    · simp [(fits left inLeft).devices, isPrimary] at isLeft
  unfold putBondElement
  exact congrArg₂ _ rfl (by rw [show bondOption (tree.value "BONDING_OPTS") "primary" = primary tree from rfl, first, rest])

theorem putPort_aligned {tree : Tree} (member : tree ∈ other) : putPort forest tree = putPort other tree := by
  rw [putPort, putPort, putBareBond, putBareBond, putBondElement_aligned perm sorted fits inOrder member]

theorem putTree_aligned {tree : Tree} (member : tree ∈ other) :
    putTree machine forest tree = putTree machine other tree := by
  have bonds : matchesBond forest tree = matchesBond other tree := by
    unfold matchesBond
    congr 2
    funext device
    exact perm.any_eq
  have ports : (forest.filter fun port => enslaved port tree "BRIDGE").flatMap (putPort forest) =
      (other.filter fun port => enslaved port tree "BRIDGE").flatMap (putPort other) := by
    rw [ports_aligned perm sorted fits inOrder member]
    refine List.flatMap_congr fun port listed => ?_
    exact putPort_aligned perm sorted fits inOrder (List.mem_of_mem_filter listed)
  unfold putTree
  rw [bonds, putBond, putBond, putBridge, putBridge, putBondElement_aligned perm sorted fits inOrder member, ports]

-- The elements come out in another order at most.
theorem put_reordered : (put machine forest).Perm (put machine other) := by
  have same : put machine forest = forest.filterMap (putTree machine other) := by
    unfold put
    refine List.filterMap_congr fun tree member => ?_
    exact putTree_aligned perm sorted fits inOrder (perm.mem_iff.mp member)
  rw [same]
  exact perm.filterMap _

end Reordering
section Arranged

variable {machine : Machine} {forest : Forest} {common : Common} {document : Interface}

theorem not_holds {tree : Tree} {label : String} (none_there : tree.values label = []) (value : String) :
    tree.holds label value = false := by
  simp [Tree.holds, none_there]

theorem primary_of_bond {tree : Tree} {bond : BondElement} (opts : tree.value "BONDING_OPTS" = bondingOpts bond)
    (free : KeywordFree bond.first.name.text) (backup : bond.mode = some .activeBackup) :
    primary tree = bond.first.name.text := by
  rw [primary, opts, bondOption_primary bond free, if_pos backup]

-- The slaves of one bond, with the bond's own file among those of the forest.
theorem slaves_ordered {team : BareBond} (names : (team.bond.slaves.map (·.name.text)).Nodup)
    (free : KeywordFree team.bond.first.name.text)
    (master : ∀ tree ∈ forest, tree.device = team.name.text → tree.value "BONDING_OPTS" = bondingOpts team.bond) :
    (bondSlaves common ⟨team.name, arrangedBond team.bond⟩).Pairwise (Ordered forest) := by
  rw [bondSlaves_eq]
  refine List.pairwise_map.mpr ((arrangedBond_strict names).imp ?_)
  intro left right before
  constructor
  · intro device held
    rw [not_holds (slaveTree_other team.name left (by simp))] at held
    cases held
  · intro tree member held _
    have device : tree.device = team.name.text := by simpa [Tree.holds] using held
    rw [(slaveTree_forDevice common team.name left).device, (slaveTree_forDevice common team.name right).device]
    rcases before with below | ⟨backup, first⟩
    · exact Or.inl below
    · right
      rw [primary_of_bond (master tree member device) free backup, first]

theorem inOrder_root {nodes : List Node} (addresses : Addresses nodes) {members : List Tree}
    (below : members.Pairwise (Ordered (rootTree nodes document :: members))) :
    InOrder (rootTree nodes document :: members) := by
  refine List.pairwise_cons.mpr ⟨fun tree _ => ⟨?_, ?_⟩, below⟩
  · intro device held
    rw [not_holds (rootTree_loose addresses document "BRIDGE" (by simp))] at held
    cases held
  · intro master _ held
    rw [not_holds (rootTree_loose addresses document "MASTER" (by simp))] at held
    cases held

theorem holds_bridge {bridge : DeviceName} {port : Port} {tree : Tree} {device : String}
    (member : tree ∈ bridgePort common bridge port) (held : tree.holds "BRIDGE" device = true) :
    tree.device = Port.device port := by
  rcases mem_bridgePort member with rfl | ⟨team, slave, rfl, rfl⟩
  · exact (portTree_forDevice common bridge port).device
  · rw [not_holds (slaveTree_other team.name slave (by simp))] at held
    cases held

theorem holds_master {bridge : DeviceName} {port : Port} {tree : Tree} {device : String}
    (member : tree ∈ bridgePort common bridge port) (held : tree.holds "MASTER" device = true) :
    device = Port.device port := by
  rcases mem_bridgePort member with rfl | ⟨team, slave, rfl, rfl⟩
  · rw [not_holds (portTree_master common bridge port)] at held
    cases held
  · simpa [Tree.holds, Port.device] using held

theorem devices_distinct (distinct : document.names.Nodup) (named : ∀ link ∈ document.vlans, link.WellNamed) :
    (devices document).Nodup := by
  have texts : (document.names.map (·.map (·.text))).Nodup :=
    distinct.map (Option.map_injective Shared.Pattern.Lexeme.text_injective)
  rw [names_devices named] at texts
  exact texts.of_map some

theorem slaveTexts_distinct {bond : BondElement} (distinct : bond.names.Nodup) :
    (bond.slaves.map (·.name.text)).Nodup := by
  have injective : Function.Injective fun slave : Option DeviceName => slave.map (·.text) :=
    Option.map_injective Shared.Pattern.Lexeme.text_injective
  have texts := distinct.map injective
  have same : bond.names.map (fun slave => slave.map (·.text)) = (bond.slaves.map (·.name.text)).map some := by
    simp [BondElement.names]
  rw [same] at texts
  exact texts.of_map some

theorem heads_sublist {α β : Type} (head : α → β) (tail : α → List β) (list : List α) :
    (list.map head).Sublist (list.flatMap fun a => head a :: tail a) := by
  induction list with
  | nil => exact List.Sublist.refl _
  | cons a rest ih => exact (ih.trans (List.sublist_append_right (tail a) _)).cons_cons (head a)

theorem inOrder_arranged (readable : Readable document) : InOrder (forestOf machine (arranged document)) := by
  have addresses : Addresses (addressNodes machine (arranged document).common.addressing) := addressNodes_addresses _
  have apart : ((forestOf machine (arranged document)).map Tree.device).Nodup := by
    rw [((forestOf_arranged machine document).map Tree.device).nodup_iff, forestOf_devices]
    exact devices_distinct readable.distinct fun link listed => (readable.vlans link listed).1
  -- A file for a bond's device is the bond's own.
  have own : ∀ {top tree : Tree}, top ∈ forestOf machine (arranged document) →
      tree ∈ forestOf machine (arranged document) → tree.device = top.device → tree = top := by
    intro top tree inTop inTree same
    exact List.inj_on_of_nodup_map apart inTree inTop same
  cases document with
  | ethernet common nic => exact List.pairwise_singleton _ _
  | vlan common link => exact List.pairwise_singleton _ _
  | bond common team =>
    have free := readable.slaves team (by simp [Interface.bonds]) team.bond.first (by simp [BondElement.slaves])
    refine inOrder_root addresses (slaves_ordered (slaveTexts_distinct (List.nodup_cons.mp readable.distinct).2) free ?_)
    intro tree member device
    have root := (rootTree_forDevice (addressNodes_labels machine (arranged (.bond common team)).common.addressing)
      (arranged (.bond common team))).device
    have same : tree = rootTree _ (arranged (.bond common team)) := own List.mem_cons_self member (device.trans root.symm)
    rw [same]
    exact (bondRoot_opts addresses _).trans (bondingOpts_arranged team.bond)
  | bridge common name hub =>
    have members := (List.nodup_cons.mp (devices_distinct readable.distinct fun link listed =>
      (readable.vlans link listed).1)).2
    have devices : ((hub.ports.map arrangedPort).map Port.device).Nodup := by
      have same : Port.device ∘ arrangedPort = Port.device := funext arrangedPort_device
      rw [List.map_map, same]
      exact members.sublist (heads_sublist _ _ hub.ports)
    have names := (names_perm hub.ports).nodup_iff.mpr (List.nodup_cons.mp readable.distinct).2
    refine inOrder_root addresses (List.pairwise_flatMap.mpr ⟨?_, (strcmpSort_strict devices).imp ?_⟩)
    · intro port listed
      obtain ⟨source, inHub, rfl⟩ := List.mem_map.mp ((strcmpSort_perm _ _).mem_iff.mp listed)
      rw [bridgePort_eq]
      refine List.pairwise_cons.mpr ⟨fun tree slave => ⟨?_, ?_⟩, ?_⟩
      · intro device _ held
        obtain ⟨team, nic, _, _, rfl⟩ := mem_portSlaves common slave
        rw [not_holds (slaveTree_other team.name nic (by simp))] at held
        cases held
      · intro master _ held
        rw [not_holds (portTree_master common name _)] at held
        cases held
      · cases source with
        | ethernet nic => exact List.Pairwise.nil
        | vlan link => exact List.Pairwise.nil
        | bond team =>
          have free := readable.slaves team (List.mem_flatMap.mpr ⟨_, inHub, by simp [Port.bonds]⟩) team.bond.first
            (by simp [BondElement.slaves])
          refine slaves_ordered ?_ free ?_
          · exact slaveTexts_distinct ((List.nodup_flatMap.mp names.of_append_right).1 _ inHub)
          · intro tree member device
            have port : portTree common name (arrangedPort (.bond team)) ∈ forestOf machine (arranged (.bridge common name hub)) := by
              refine List.mem_cons_of_mem _ (List.mem_flatMap.mpr ⟨_, listed, ?_⟩)
              rw [bridgePort_eq]
              exact List.mem_cons_self
            have top : (portTree common name (arrangedPort (.bond team))).device = team.name.text :=
              (portTree_forDevice common name _).device
            rw [own port member (device.trans top.symm), portTree_arranged]
            simp [Tree.value, Tree.value?, Tree.values, portTree, bareBondInterface, bondingOptsNode, nameAttr]
    · intro left right below x inLeft y inRight
      constructor
      · intro device heldLeft heldRight
        rw [holds_bridge inLeft heldLeft, holds_bridge inRight heldRight]
        exact below
      · intro master _ heldLeft heldRight
        rw [← holds_master inLeft heldLeft, holds_master inRight heldRight] at below
        exact absurd below (lt_irrefl _)

theorem arrangedPort_names (port : Port) : (arrangedPort port).names.Perm port.names := by
  cases port with
  | ethernet nic => exact List.Perm.refl _
  | vlan link => exact List.Perm.refl _
  | bond team => exact ((arrangedBond_slaves team.bond).map fun slave => some slave.name).cons _

theorem names_arranged (document : Interface) : (arranged document).names.Perm document.names := by
  cases document with
  | ethernet common nic => exact List.Perm.refl _
  | vlan common link => exact List.Perm.refl _
  | bridge common name hub => exact (arrangedPorts_perm hub.ports arrangedPort_names).cons _
  | bond common team => exact ((arrangedBond_slaves team.bond).map fun slave => some slave.name).cons _

theorem mem_vlans_arranged {link : BareVlan} (listed : link ∈ (arranged document).vlans) : link ∈ document.vlans := by
  cases document with
  | ethernet common nic => exact listed
  | vlan common single => exact listed
  | bridge common name hub =>
    refine (arrangedPorts_perm hub.ports fun port => ?_).mem_iff.mp listed
    cases port <;> exact List.Perm.refl _
  | bond common team => exact listed

theorem mem_bonds_arranged {team : BareBond} (listed : team ∈ (arranged document).bonds) :
    ∃ source ∈ document.bonds, team = ⟨source.name, arrangedBond source.bond⟩ := by
  cases document with
  | ethernet common nic => cases listed
  | vlan common single => cases listed
  | bridge common name hub =>
    obtain ⟨port, inside, here⟩ := List.mem_flatMap.mp listed
    obtain ⟨source, inHub, rfl⟩ := List.mem_map.mp ((strcmpSort_perm _ _).mem_iff.mp inside)
    cases source with
    | ethernet nic => cases here
    | vlan link => cases here
    | bond original =>
      exact ⟨original, List.mem_flatMap.mpr ⟨_, inHub, List.mem_singleton_self _⟩, List.mem_singleton.mp here⟩
  | bond common original => exact ⟨original, List.mem_singleton_self _, List.mem_singleton.mp listed⟩

theorem readable_arranged (readable : Readable document) : Readable (arranged document) where
  distinct := (names_arranged document).nodup_iff.mpr readable.distinct
  vlans link listed := readable.vlans link (mem_vlans_arranged listed)
  slaves := by
    intro team listed slave member
    obtain ⟨source, inside, rfl⟩ := mem_bonds_arranged listed
    exact readable.slaves source inside slave ((arrangedBond_slaves source.bond).mem_iff.mp member)

-- What drv_xml_desc makes of the files of a document, in the order in which it reads them.
theorem put_sorted (machine : Machine) (readable : Readable document)
    (noIpv6 : document.common.addressing.ipv6 = none) :
    put machine (strcmpSort Tree.device (forestOf machine document)) =
      [(arranged document).element (document.common.addressing.ipv4.map (rereadIpv4 machine)).toList] := by
  have perm : (strcmpSort Tree.device (forestOf machine document)).Perm (forestOf machine (arranged document)) :=
    (strcmpSort_perm _ _).trans (forestOf_arranged machine document).symm
  have apart : ((forestOf machine document).map Tree.device).Nodup := by
    rw [forestOf_devices]
    exact devices_distinct readable.distinct fun link listed => (readable.vlans link listed).1
  have same : (arranged document).common.addressing.ipv6 = none := by
    rw [common_arranged]
    exact noIpv6
  have reordered := @put_reordered machine _ _ perm (strcmpSort_strict apart) (fun _ member => forestOf_forDevice member)
    (inOrder_arranged readable)
  have whole : put machine (forestOf machine (arranged document)) =
      [(arranged document).element (document.common.addressing.ipv4.map (rereadIpv4 machine)).toList] := by
    rw [forestOf, put_forest (addressNodes_addresses _) (readable_arranged readable), putAddressing_root same,
      common_arranged]
  rw [whole] at reordered
  exact List.perm_singleton.mp reordered

theorem prefix_arranged (document : Interface) : (arranged document).ipv4Prefix = document.ipv4Prefix := by
  rw [Interface.ipv4Prefix, Interface.ipv4Prefix, common_arranged]

theorem put_sorted_exact (machine : Machine) (readable : Readable document)
    (noIpv6 : document.common.addressing.ipv6 = none)
    (canonical : ∀ length ∈ document.ipv4Prefix, length.Canonical)
    (narrow : ∀ length ∈ document.ipv4Prefix, 0 < length.value ∧ length.value ≠ 32) :
    put machine (strcmpSort Tree.device (forestOf machine document)) = [(arranged document).toXml] := by
  have same : (arranged document).common.addressing.ipv6 = none := by
    rw [common_arranged]
    exact noIpv6
  have exact_ := (element_reread_iff machine same).mpr (by
    intro length listed
    rw [prefix_arranged] at listed
    exact reread_narrow machine (canonical length listed) (narrow length listed).1 (narrow length listed).2)
  rw [common_arranged] at exact_
  rw [put_sorted machine readable noIpv6, exact_]

end Arranged
end Netcf.RedHat
