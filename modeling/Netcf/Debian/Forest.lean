import Netcf.Debian.Put

set_option autoImplicit false

-- The stanzas that debian-get.xsl writes, by what debian-put.xsl and the driver look for in them.
namespace Netcf.Debian

open Schema Stylesheet Shared

@[simp] theorem labelled_nil (label : String) : labelled [] label = [] := rfl

@[simp] theorem labelled_cons (first : Node) (rest : List Node) (label : String) :
    labelled (first :: rest) label =
      if first.label = some label then first.value :: labelled rest label else labelled rest label := by
  by_cases same : first.label = some label <;> simp [labelled, same]

@[simp] theorem labelled_append (front back : List Node) (label : String) :
    labelled (front ++ back) label = labelled front label ++ labelled back label := by
  simp [labelled]

@[simp] theorem node_label (label value : String) : (node label value).label = some label := rfl

@[simp] theorem node_value (label value : String) : (node label value).value = value := rfl

@[simp] theorem labelled_optionalNode (name label : String) (value : Option String) :
    labelled (optionalNode name value) label = if name = label then value.toList else [] := by
  cases value <;> by_cases same : name = label <;> simp [optionalNode, same]

def Within (labels : List String) (nodes : List Node) : Prop :=
  ∀ node ∈ nodes, ∃ label ∈ labels, node.label = some label

theorem Within.labelled {labels : List String} {nodes : List Node} (within : Within labels nodes) {label : String}
    (other : label ∉ labels) : labelled nodes label = [] := by
  simp only [Debian.labelled, List.map_eq_nil_iff, List.filter_eq_nil_iff, decide_eq_true_eq]
  intro node member same
  obtain ⟨found, listed, named⟩ := within node member
  rw [same] at named
  exact other (Option.some.inj named ▸ listed)

theorem Within.mono {labels more : List String} {nodes : List Node} (within : Within labels nodes)
    (included : labels ⊆ more) : Within more nodes := by
  intro node member
  obtain ⟨label, listed, same⟩ := within node member
  exact ⟨label, included listed, same⟩

@[simp] theorem within_nil (labels : List String) : Within labels [] := by simp [Within]

@[simp] theorem within_cons (labels : List String) (label value : String) (rest : List Node) :
    Within labels (node label value :: rest) ↔ label ∈ labels ∧ Within labels rest := by
  simp [Within, node]

@[simp] theorem within_append (labels : List String) (front back : List Node) :
    Within labels (front ++ back) ↔ Within labels front ∧ Within labels back := by
  simp [Within, or_imp, forall_and]

@[simp] theorem within_optionalNode (labels : List String) (label : String) (value : Option String) :
    Within labels (optionalNode label value) ↔ value = none ∨ label ∈ labels := by
  cases value <;> simp [optionalNode]

def addressLabels : List String :=
  ["family", "method", "address", "netmask", "gateway", "pre-up", "post-down", "up", "down"]

def bondLabels : List String :=
  ["bond_slaves", "bond_primary", "bond_mode", "bond_miimon", "bond_downdelay", "bond_updelay", "bond_use_carrier",
    "bond_arp_interval", "bond_arp_ip_target", "bond_arp_validate"]

def deviceLabels : List String :=
  ["hwaddress", "mtu", "bridge_ports", "bridge_stp", "bridge_fd", "vlan_raw_device"] ++ bondLabels

theorem labels_apart : ∀ label ∈ deviceLabels, label ∉ addressLabels := by decide

section Written

variable {machine : Machine} {name : String}

def ipv4Nodes (machine : Machine) : Ipv4 → List Node
  | .dhcp _ => [node "family" "inet", node "method" "dhcp"]
  | .static address prefixLen gateway =>
    node "family" "inet" :: node "method" "static" :: node "address" address.text ::
      (optionalNode "netmask" (prefixLen.map fun length => inetNtop (~~~ shiftMask machine length.value)) ++
        optionalNode "gateway" (gateway.map (·.text)))

theorem protocolIpv4_static (machine : Machine) (address : Ipv4Addr) (prefixLen : Option Ipv4Prefix)
    (gateway : Option Ipv4Addr) :
    protocolIpv4 machine (.static address prefixLen gateway) =
      (prefixLen.mapM fun length => ipcalcNetmask machine length.value).map fun netmask =>
        node "family" "inet" :: node "method" "static" :: node "address" address.text ::
          (optionalNode "netmask" netmask ++ optionalNode "gateway" (gateway.map (·.text))) := by
  cases prefixLen <;> rfl

theorem protocolIpv4_ok (machine : Machine) (ipv4 : Ipv4) (positive : ∀ length ∈ ipv4.prefixLength, length.value ≠ 0) :
    protocolIpv4 machine ipv4 = .ok (ipv4Nodes machine ipv4) := by
  cases ipv4 with
  | dhcp peerdns => rfl
  | static address prefixLen gateway =>
    rw [protocolIpv4_static]
    exact netmask_ok positive _

theorem protocolIpv4_zero {ipv4 : Ipv4} {length : Ipv4Prefix} (present : ipv4.prefixLength = some length)
    (zero : length.value = 0) : ∃ e, protocolIpv4 machine ipv4 = .error e := by
  cases ipv4 with
  | dhcp peerdns => cases present
  | static address prefixLen gateway =>
    rw [protocolIpv4_static]
    exact netmask_zero present zero _

theorem ipv4Nodes_within (ipv4 : Ipv4) : Within addressLabels (ipv4Nodes machine ipv4) := by
  cases ipv4 <;> simp [ipv4Nodes, addressLabels]

theorem autoconfNodes_within (autoconf : Bool) : Within addressLabels (autoconfNodes name autoconf) := by
  cases autoconf <;> simp [autoconfNodes, addressLabels]

theorem protocolIpv6_within (ipv6 : Ipv6) : Within addressLabels (protocolIpv6 name ipv6) := by
  have autoconf := @autoconfNodes_within name ipv6.autoconf
  have commands : ∀ (label action : String) (rest : List Ipv6Ip), label ∈ addressLabels →
      Within addressLabels (rest.map fun other => node label (ifconfig name action other)) := by
    intro label action rest listed
    induction rest with
    | nil => simp
    | cons ip rest ih => simp [listed, ih]
  unfold protocolIpv6
  cases ipv6.ips with
  | nil =>
    simp only [within_cons, autoconf, and_true]
    decide
  | cons ip rest =>
    have up := commands "up" "add" rest (by decide)
    have down := commands "down" "del" rest (by decide)
    simp only [within_cons, within_append, within_optionalNode, autoconf, up, down, and_true]
    simp [addressLabels]

def nodesOf (machine : Machine) (name : String) : Protocol → List Node
  | .ipv4 ipv4 => ipv4Nodes machine ipv4
  | .ipv6 ipv6 => protocolIpv6 name ipv6

theorem nodesOf_within (protocol : Protocol) : Within addressLabels (nodesOf machine name protocol) := by
  cases protocol with
  | ipv4 ipv4 => exact ipv4Nodes_within ipv4
  | ipv6 ipv6 => exact protocolIpv6_within ipv6

theorem miscNodes_within (document : Interface) : Within deviceLabels (miscNodes document) := by
  cases document <;> simp [miscNodes, deviceLabels]

theorem monitorNodes_within (monitor : Monitor) : Within bondLabels (monitorNodes monitor) := by
  cases monitor <;> simp [monitorNodes, bondLabels]

theorem bondNodes_within (bond : BondElement) : Within bondLabels (bondNodes bond) := by
  have monitored : Within bondLabels ((bond.monitor.map monitorNodes).getD []) := by
    cases bond.monitor with
    | none => exact within_nil _
    | some monitor => exact monitorNodes_within monitor
  simp only [bondNodes, within_cons, within_append, within_optionalNode, monitored, and_true]
  simp [bondLabels]

theorem deviceNodes_within (document : Interface) : Within deviceLabels (deviceNodes document) := by
  cases document with
  | ethernet common nic => exact within_nil _
  | vlan common link => simp [deviceNodes, vlanNodes, deviceLabels]
  | bridge common name hub => simp [deviceNodes, bridgeNodes, deviceLabels]
  | bond common team => exact (bondNodes_within team.bond).mono (List.subset_append_right _ _)

theorem upDown_within (ports : List Port) : Within ["pre-up", "post-down"] (ports.flatMap upDown) := by
  induction ports with
  | nil => exact within_nil _
  | cons port rest ih => simp [upDown, ih]

end Written

section First

variable (machine : Machine) (document : Interface)

def headNodes : List Node :=
  match protocols document.common.addressing with
  | [] => [node "family" "inet", node "method" "manual"]
  | first :: _ => nodesOf machine (nameText document.rootName) first

def upNodes : List Node :=
  (document.ports.filter
    (match protocols document.common.addressing with
      | [] => isBondPort
      | _ :: _ => fun port => (compound port).isSome)).flatMap upDown

def firstStanza : Element :=
  ⟨some (nameText document.rootName), headNodes machine document ++ (miscNodes document ++ deviceNodes document) ++
    upNodes document⟩

def otherStanzas : List Element :=
  (protocols document.common.addressing).tail.map fun protocol =>
    ⟨some (nameText document.rootName), nodesOf machine (nameText document.rootName) protocol⟩

def stanzas : List Element :=
  firstStanza machine document :: (otherStanzas machine document ++ portElements document)

def treeOf : Tree :=
  ⟨networkInterfacesPath, autoArray document ++ [⟨"iface", stanzas machine document⟩]⟩

variable {machine document}

theorem protocolNodes_ok {protocol : Protocol}
    (positive : ∀ ipv4, protocol = .ipv4 ipv4 → ∀ length ∈ ipv4.prefixLength, length.value ≠ 0) (name : String) :
    protocolNodes machine name protocol = .ok (nodesOf machine name protocol) := by
  cases protocol with
  | ipv4 ipv4 => exact protocolIpv4_ok machine ipv4 (positive ipv4 rfl)
  | ipv6 ipv6 => rfl

theorem mapM_ok {α β ε : Type} {f : α → Except ε β} {g : α → β} {list : List α}
    (each : ∀ a ∈ list, f a = .ok (g a)) : list.mapM f = .ok (list.map g) := by
  induction list with
  | nil => rfl
  | cons a rest ih =>
    rw [List.mapM_cons, each a List.mem_cons_self, ih fun b later => each b (List.mem_cons_of_mem a later)]
    rfl

theorem mem_protocols_ipv4 {addressing : Addressing} {ipv4 : Ipv4} :
    Protocol.ipv4 ipv4 ∈ protocols addressing ↔ addressing.ipv4 = some ipv4 := by
  cases addressing <;> simp [protocols, Addressing.ipv4, eq_comm]

theorem get_ok (positive : ∀ length ∈ document.ipv4Prefix, length.value ≠ 0) :
    get machine document = .ok [treeOf machine document] := by
  have each : ∀ protocol ∈ protocols document.common.addressing,
      protocolNodes machine (nameText document.rootName) protocol =
        .ok (nodesOf machine (nameText document.rootName) protocol) := by
    intro protocol listed
    apply protocolNodes_ok
    rintro ipv4 rfl length present
    apply positive length
    rw [Interface.ipv4Prefix, mem_protocols_ipv4.mp listed]
    exact present
  have roots : rootElements machine document = .ok (firstStanza machine document :: otherStanzas machine document) := by
    unfold rootElements firstStanza otherStanzas headNodes upNodes
    cases listed : protocols document.common.addressing with
    | nil => simp only [List.tail_nil, List.map_nil, List.cons_append, List.nil_append]; rfl
    | cons first rest =>
      rw [listed] at each
      have others := mapM_ok fun protocol later => each protocol (List.mem_cons_of_mem first later)
      simp only [each first List.mem_cons_self, others, List.tail_cons]
      simp only [bind, Except.bind, pure, Except.pure, List.map_map, List.append_assoc]
      rfl
  simp only [get, roots]
  rfl

theorem get_error {length : Ipv4Prefix} (present : length ∈ document.ipv4Prefix) (zero : length.value = 0) :
    ∃ e, get machine document = .error e := by
  obtain ⟨ipv4, configured, given⟩ := Option.bind_eq_some_iff.mp present
  obtain ⟨e, failed⟩ := @protocolIpv4_zero machine _ _ given zero
  refine ⟨e, ?_⟩
  cases addressing : document.common.addressing with
  | ipv4First first second =>
    rw [addressing] at configured
    cases configured
    simp only [get, rootElements, addressing, protocols, Option.map_some, Option.toList_some, List.singleton_append,
      protocolNodes, failed]
    rfl
  | ipv6First first second =>
    rw [addressing] at configured
    cases configured
    cases first with
    | none =>
      simp only [get, rootElements, addressing, protocols, Option.map_some, Option.map_none, Option.toList_some,
        Option.toList_none, List.nil_append, protocolNodes, failed]
      rfl
    | some ipv6 =>
      simp only [get, rootElements, addressing, protocols, Option.map_some, Option.toList_some, List.singleton_append,
        protocolNodes, List.mapM_cons, failed]
      rfl

theorem get_succeeds_iff :
    (∃ forest, get machine document = .ok forest) ↔ ∀ length ∈ document.ipv4Prefix, length.value ≠ 0 := by
  exact succeeds_iff get_ok fun length present zero => get_error present zero

theorem get_forest {forest : Forest} (result : get machine document = .ok forest) :
    forest = [treeOf machine document] := by
  rw [get_ok (get_succeeds_iff.mp ⟨forest, result⟩)] at result
  exact (Except.ok.inj result).symm

theorem headNodes_within : Within addressLabels (headNodes machine document) := by
  unfold headNodes
  split
  · simp [addressLabels]
  · exact nodesOf_within _

theorem upNodes_within : Within ["pre-up", "post-down"] (upNodes document) :=
  upDown_within _

theorem first_device {label : String} (listed : label ∈ deviceLabels) :
    (firstStanza machine document).values label = labelled (miscNodes document ++ deviceNodes document) label := by
  have apart : label ∉ ["pre-up", "post-down"] := by
    revert label
    decide
  have head := (@headNodes_within machine document).labelled (labels_apart label listed)
  have tail := (@upNodes_within document).labelled apart
  simp [Element.values, firstStanza, head, tail]

theorem first_address {label : String} (listed : label ∈ ["family", "method", "address", "netmask", "gateway", "up"]) :
    (firstStanza machine document).values label = labelled (headNodes machine document) label := by
  have apart : label ∉ deviceLabels ∧ label ∉ ["pre-up", "post-down"] := by
    revert label
    decide
  have middle : Within deviceLabels (miscNodes document ++ deviceNodes document) :=
    (within_append _ _ _).mpr ⟨miscNodes_within document, deviceNodes_within document⟩
  simp only [Element.values, firstStanza, labelled_append]
  rw [← labelled_append, middle.labelled apart.1, (@upNodes_within document).labelled apart.2, List.append_nil,
    List.append_nil]

def portStanza (port : Port) : Option Element :=
  (compound port).map fun nodes =>
    ⟨some (nameText port.name), node "family" "inet" :: node "method" "manual" :: nodes⟩

theorem portElements_eq : portElements document = document.ports.filterMap portStanza := rfl

theorem put_treeOf :
    put machine [treeOf machine document] =
      [iface machine (treeOf machine document) (stanzas machine document) (firstStanza machine document)] := by
  have arrays : (treeOf machine document).arrays.filter (fun array => array.label = "iface") =
      [⟨"iface", stanzas machine document⟩] := by
    by_cases boot : document.common.start = .onboot <;> simp [treeOf, autoArray, boot]
  have here : [treeOf machine document].filter (fun tree => tree.path = networkInterfacesPath) =
      [treeOf machine document] := by
    simp [treeOf]
  rw [put, here, List.flatMap_singleton, arrays, List.flatMap_singleton]
  rfl

end First

end Netcf.Debian
