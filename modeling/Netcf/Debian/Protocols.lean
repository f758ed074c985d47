import Netcf.Debian.Forest

set_option autoImplicit false

-- The protocols that debian-put.xsl finds in the stanzas of debian-get.xsl.
namespace Netcf.Debian

open Schema Stylesheet Shared

section Elements

def isProtocol : Xml → Bool
  | .element name _ _ => name = "protocol"

def protocolElements : Xml → List Xml
  | .element _ _ children => children.filter isProtocol

variable {machine : Machine} {tree : Tree} {siblings : List Element} {element : Element}

theorem ipv4_protocols {child : Xml} (member : child ∈ ipv4 machine element) :
    ∃ content, child = .element "protocol" [("family", "ipv4")] content := by
  unfold ipv4 at member
  simp only at member
  split at member
  · exact ⟨_, List.mem_singleton.mp member⟩
  · split at member
    · exact ⟨_, List.mem_singleton.mp member⟩
    · split at member
      · exact ⟨_, List.mem_singleton.mp member⟩
      · cases member

theorem protocol_protocols {child : Xml} (member : child ∈ protocol machine siblings element) :
    ∃ family content, child = .element "protocol" [("family", family)] content := by
  unfold protocol at member
  split at member
  · rcases List.mem_append.mp member with first | other
    · obtain ⟨content, rfl⟩ := ipv4_protocols first
      exact ⟨_, content, rfl⟩
    · obtain ⟨sibling, _, rfl⟩ := List.mem_map.mp other
      exact ⟨_, _, rfl⟩
  · split at member
    · rcases List.mem_cons.mp member with rfl | other
      · exact ⟨_, _, rfl⟩
      · obtain ⟨sibling, _, inside⟩ := List.mem_flatMap.mp other
        obtain ⟨content, rfl⟩ := ipv4_protocols inside
        exact ⟨_, content, rfl⟩
    · cases member

-- The other children of the interface are start, mac, mtu, bridge, bond and vlan elements.
theorem protocolElements_iface :
    protocolElements (iface machine tree siblings element) = protocol machine siblings element := by
  have kept : (protocol machine siblings element).filter isProtocol =
      protocol machine siblings element := by
    rw [List.filter_eq_self]
    intro child member
    obtain ⟨family, content, rfl⟩ := protocol_protocols member
    rfl
  have misc : (ifacemisc element).filter isProtocol = [] := by
    unfold ifacemisc
    cases element.value? "mtu" <;> split <;> rfl
  have device : (bridge siblings element ++ bond element ++ vlan element).filter isProtocol = [] := by
    unfold bridge bond vlan
    cases element.value? "bridge_ports" <;> cases element.value? "bond_slaves" <;>
      cases element.value? "vlan_raw_device" <;> rfl
  have start : isProtocol (ifacestart tree element) = false := rfl
  rw [List.filter_append, List.filter_append] at device
  simp only [iface, protocolElements, List.filter_cons, start, List.filter_append, misc, kept, List.nil_append,
    Bool.false_eq_true, if_false]
  rw [List.append_assoc, List.append_assoc, ← List.append_assoc (List.filter _ _), device, List.append_nil]

end Elements

section Ipv4

variable {machine : Machine} {element : Element} {protocol : Ipv4}

-- The ipv4 protocol as it comes back: without peerdns, and with the prefix that its netmask stands for.
def rereadIpv4 (machine : Machine) : Ipv4 → Xml
  | .dhcp _ => .element "protocol" [("family", "ipv4")] [dhcpElement none]
  | .static address prefixLen gateway =>
    .element "protocol" [("family", "ipv4")]
      (ipElement address.text
          (prefixLen.map fun length => ipcalcPrefix machine (inetNtop (~~~ shiftMask machine length.value))) ::
        routeElement (gateway.map (·.text)))

theorem ipv4_ipv4Nodes (same : ∀ label ∈ ["method", "address", "netmask", "gateway"],
    element.values label = labelled (ipv4Nodes machine protocol) label) :
    ipv4 machine element = [rereadIpv4 machine protocol] := by
  have method := same "method" (by simp)
  have address := same "address" (by simp)
  have netmask := same "netmask" (by simp)
  have gateway := same "gateway" (by simp)
  cases protocol with
  | dhcp peerdns => simp_all [ipv4, Element.holds, ipv4Nodes, rereadIpv4]
  | static host prefixLen router =>
    cases prefixLen <;>
      simp_all [ipv4, ipv4static, Element.holds, Element.value?, ipv4Nodes, rereadIpv4]

theorem ipv4Nodes_family (machine : Machine) (protocol : Ipv4) :
    labelled (ipv4Nodes machine protocol) "family" = ["inet"] := by
  cases protocol <;> simp [ipv4Nodes]

theorem reread_ipv4_iff (protocol : Ipv4) (positive : ∀ length ∈ protocol.prefixLength, length.value ≠ 0) :
    (∀ machine, rereadIpv4 machine protocol = protocol.toXml) ↔
      (∀ peerdns, protocol ≠ .dhcp (some peerdns)) ∧
        ∀ length ∈ protocol.prefixLength, length.Canonical ∧ length.value ≠ 32 := by
  cases protocol with
  | dhcp peerdns =>
    have some_machine : Nonempty Machine := ⟨countModulo⟩
    cases peerdns <;> simp [rereadIpv4, Ipv4.toXml, dhcpElement, Xml.optional, Ipv4.prefixLength]
  | static address prefixLen gateway =>
    cases prefixLen with
    | none => simp [rereadIpv4, Ipv4.toXml, Ipv4.prefixLength]
    | some length =>
      have back := reread_prefix_iff length (positive length (by simp [Ipv4.prefixLength]))
      simpa [rereadIpv4, Ipv4.toXml, ipElement, Xml.optional, Ipv4.prefixLength] using back

end Ipv4

section Texts

theorem startsWith_append (front back : String) : startsWith (front ++ back) front = true := by
  simp [startsWith]

theorem dropText_append (front back : String) : dropText front.length (front ++ back) = back := by
  rw [dropText, String.toList_append, ← String.length_toList, List.drop_left, String.ofList_toList]

theorem substring_slash {front back : String} (plain : '/' ∉ front.toList) :
    substringBefore (front ++ "/" ++ back) "/" = front ∧ substringAfter (front ++ "/" ++ back) "/" = back := by
  have found := @Search.dropInfix?_mark _ _ _ back.toList _ plain
  have spelled : (front ++ "/" ++ back).toList = front.toList ++ '/' :: back.toList := by simp
  simp [substringBefore, substringAfter, spelled, found]

end Texts

section Ipv6

variable {element : Element} {name : String} {protocol : Ipv6}

-- An address as it comes back: a prefix that is not given is empty.
def rereadIp (ip : Ipv6Ip) : Xml :=
  ipElement ip.address.text (some ((ip.prefixLen.map (·.text)).getD ""))

def autoconfElements (autoconf : Bool) : List Xml :=
  if autoconf then [.element "autoconf" [] []] else []

-- The ipv6 protocol as it comes back: the route is behind the first address and autoconf behind the last; with
-- addresses there is no dhcp, and without them no route.
def rereadIpv6 (protocol : Ipv6) : Xml :=
  .element "protocol" [("family", "ipv6")]
    (match protocol.ips with
      | ip :: rest =>
        rereadIp ip :: (routeElement (protocol.gateway.map (·.text)) ++ rest.map rereadIp ++
          autoconfElements protocol.autoconf)
      | [] => autoconfElements protocol.autoconf ++ (protocol.dhcp.map fun _ => dhcpElement none).toList)

theorem labelled_commands (label : String) (command : Ipv6Ip → String) (ips : List Ipv6Ip) (wanted : String) :
    labelled (ips.map fun ip => node label (command ip)) wanted = if label = wanted then ips.map command else [] := by
  induction ips with
  | nil => simp
  | cons ip rest ih => by_cases same : label = wanted <;> simp_all

theorem labelled_autoconfNodes (autoconf : Bool) {label : String} (notBefore : "pre-up" ≠ label)
    (notAfter : "post-down" ≠ label) : labelled (autoconfNodes name autoconf) label = [] := by
  cases autoconf <;> simp [autoconfNodes, notBefore, notAfter]

theorem added_ips (rest : List Ipv6Ip) :
    ((rest.map (ifconfig name "add")).filterMap fun command =>
      let ipaddcmd := "/sbin/ifconfig " ++ name ++ " inet6 add "
      if startsWith command ipaddcmd then
        let ipaddrprefix := dropText ipaddcmd.length command
        some (ipElement (substringBefore ipaddrprefix "/") (some (substringAfter ipaddrprefix "/")))
      else none) = rest.map rereadIp := by
  have spelled : ∀ ip : Ipv6Ip, ifconfig name "add" ip =
      ("/sbin/ifconfig " ++ name ++ " inet6 add ") ++
        (ip.address.text ++ "/" ++ (ip.prefixLen.map (·.text)).getD "") := by
    intro ip
    unfold ifconfig
    generalize (ip.prefixLen.map (·.text)).getD "" = length
    generalize ip.address.text = address
    apply String.toList_inj.mp
    simp only [String.toList_append, List.append_assoc]
    rfl
  have cut : ∀ (ip : Ipv6Ip) (back : String), _ := fun ip back =>
    @substring_slash ip.address.text back (address_chars ip.address (c := '/') (by simp))
  rw [List.filterMap_map, ← List.filterMap_eq_map]
  congr 1
  funext ip
  simp only [Function.comp_apply, spelled, startsWith_append, dropText_append, if_true, cut, rereadIp]

theorem ipv6_protocolIpv6 (key : element.key = some name)
    (same : ∀ label ∈ ["method", "address", "netmask", "gateway", "up"],
      element.values label = labelled (protocolIpv6 name protocol) label)
    (disabled : element.holds "pre-up" ("echo 0" ++ autoconfPath name) = !protocol.autoconf) :
    ipv6 element = rereadIpv6 protocol := by
  have quiet := fun label => @labelled_autoconfNodes name protocol.autoconf label
  have text : element.keyText = name := by simp [Element.keyText, key]
  have autoconf : ∀ method, element.values "method" = [method] → method ≠ "loopback" →
      ipv6autoconf element = autoconfElements protocol.autoconf := by
    intro method only other
    have up : element.holds "method" "loopback" = false := by simp [Element.holds, only, other.symm]
    simp [ipv6autoconf, text, disabled, up, autoconfElements]
  cases ips : protocol.ips with
  | nil =>
    have method : element.values "method" = [if protocol.dhcp.isSome then "dhcp" else "manual"] := by
      simp [same "method" (by simp), protocolIpv6, ips, quiet "method" (by decide) (by decide)]
    have silent : ∀ label ∈ ["address", "netmask", "gateway", "up"], element.values label = [] := by
      intro label listed
      have apart : "family" ≠ label ∧ "method" ≠ label ∧ "pre-up" ≠ label ∧ "post-down" ≠ label := by
        revert label
        decide
      simp [same label (List.mem_cons_of_mem _ listed), protocolIpv6, ips, apart, quiet label apart.2.2.1 apart.2.2.2]
    rw [ipv6, ipv6static, autoconf _ method (by split <;> decide)]
    cases offered : protocol.dhcp <;>
      simp [ipv6dhcp, ipv6lo, Element.holds, Element.value?, silent, method, offered, rereadIpv6, ips, routeElement]
  | cons ip rest =>
    have method : element.values "method" = ["static"] := by
      simp [same "method" (by simp), protocolIpv6, ips, quiet "method" (by decide) (by decide), labelled_commands]
    have address : element.value? "address" = some ip.address.text := by
      simp [Element.value?, same "address" (by simp), protocolIpv6, ips]
    have netmask : element.value? "netmask" = ip.prefixLen.map (·.text) := by
      simp [Element.value?, same "netmask" (by simp), protocolIpv6, ips, quiet "netmask" (by decide) (by decide),
        labelled_commands]
    have gateway : element.value? "gateway" = protocol.gateway.map (·.text) := by
      simp [Element.value?, same "gateway" (by simp), protocolIpv6, ips, quiet "gateway" (by decide) (by decide),
        labelled_commands]
    have up : element.values "up" = rest.map (ifconfig name "add") := by
      simp [same "up" (by simp), protocolIpv6, ips, quiet "up" (by decide) (by decide), labelled_commands]
    rw [ipv6, ipv6static, autoconf _ method (by decide), up, text, added_ips]
    simp [ipv6dhcp, ipv6lo, Element.holds, Element.value, method, address, netmask, gateway, rereadIpv6, ips, rereadIp]

end Ipv6

section First

variable {machine : Machine} {document : Interface} {name : String}

def Protocol.family : Protocol → String
  | .ipv4 _ => "inet"
  | .ipv6 _ => "inet6"

theorem nodesOf_family (protocol : Protocol) : labelled (nodesOf machine name protocol) "family" = [protocol.family] := by
  cases protocol with
  | ipv4 ipv4 => exact ipv4Nodes_family machine ipv4
  | ipv6 ipv6 =>
    cases ips : ipv6.ips <;>
      simp [nodesOf, protocolIpv6, ips, labelled_autoconfNodes, labelled_commands, Protocol.family]

theorem first_family :
    (firstStanza machine document).values "family" =
      [((protocols document.common.addressing).head?.map Protocol.family).getD "inet"] := by
  rw [first_address (by simp), headNodes]
  cases protocols document.common.addressing with
  | nil => simp
  | cons first rest => exact nodesOf_family first

theorem portStanza_family {port : Port} {stanza : Element} (present : portStanza port = some stanza) :
    stanza.values "family" = ["inet"] := by
  obtain ⟨nodes, made, rfl⟩ := Option.map_eq_some_iff.mp present
  have device : labelled nodes "family" = [] := by
    cases port with
    | ethernet nic => cases made
    | vlan link =>
      cases made
      simp [vlanNodes]
    | bond team =>
      cases made
      exact (bondNodes_within team.bond).labelled (by decide)
  simp [Element.values, device]

-- No stanza is of the family inet4 that is looked for after an ipv6 stanza.
theorem filter_family (family : String) (other : family ≠ "inet") :
    (stanzas machine document).filter (·.holds "family" family) =
      (if (firstStanza machine document).holds "family" family then [firstStanza machine document] else []) ++
        (otherStanzas machine document).filter (·.holds "family" family) := by
  have ports : (portElements document).filter (·.holds "family" family) = [] := by
    rw [List.filter_eq_nil_iff]
    intro stanza member
    obtain ⟨port, _, present⟩ := List.mem_filterMap.mp member
    simp [Element.holds, portStanza_family present, other]
  rw [stanzas, List.filter_cons, List.filter_append, ports, List.append_nil]
  split <;> rfl

theorem upNodes_commands {command : String} (member : command ∈ labelled (upNodes document) "pre-up") :
    ∃ port, command = "ifup " ++ port := by
  have commands : ∀ ports : List Port, command ∈ labelled (ports.flatMap upDown) "pre-up" →
      ∃ port, command = "ifup " ++ port := by
    intro ports
    induction ports with
    | nil => simp
    | cons port rest ih =>
      intro listed
      rw [List.flatMap_cons, labelled_append] at listed
      rcases List.mem_append.mp listed with here | later
      · exact ⟨nameText port.name, by simpa [upDown] using here⟩
      · exact ih later
  exact commands _ member

theorem protocolIpv6_autoconf (protocol : Ipv6) :
    labelled (protocolIpv6 name protocol) "pre-up" =
      if protocol.autoconf then [] else ["echo 0" ++ autoconfPath name] := by
  cases ips : protocol.ips <;> cases flag : protocol.autoconf <;>
    simp [protocolIpv6, ips, flag, autoconfNodes, labelled_commands]

-- The commands that bring the ports up are not taken for the one that disables autoconf.
theorem first_disabled {protocol : Ipv6} {rest : List Protocol}
    (first : protocols document.common.addressing = .ipv6 protocol :: rest) :
    (firstStanza machine document).holds "pre-up" ("echo 0" ++ autoconfPath (nameText document.rootName)) =
      !protocol.autoconf := by
  have up : "echo 0" ++ autoconfPath (nameText document.rootName) ∉ labelled (upNodes document) "pre-up" := by
    intro member
    obtain ⟨port, same⟩ := upNodes_commands member
    have chars := congrArg String.toList same
    simp at chars
  have middle : labelled (miscNodes document ++ deviceNodes document) "pre-up" = [] :=
    ((within_append _ _ _).mpr ⟨miscNodes_within document, deviceNodes_within document⟩).labelled (by decide)
  have head : headNodes machine document = protocolIpv6 (nameText document.rootName) protocol := by
    rw [headNodes, first]
    rfl
  have values : (firstStanza machine document).values "pre-up" =
      (if protocol.autoconf then [] else ["echo 0" ++ autoconfPath (nameText document.rootName)]) ++
        labelled (upNodes document) "pre-up" := by
    rw [Element.values, firstStanza, labelled_append, labelled_append, middle, head, protocolIpv6_autoconf,
      List.append_nil]
  rw [Element.holds, values]
  cases protocol.autoconf <;> simp [up]

theorem first_values {protocol : Protocol} {rest : List Protocol}
    (first : protocols document.common.addressing = protocol :: rest) {label : String}
    (listed : label ∈ ["family", "method", "address", "netmask", "gateway", "up"]) :
    (firstStanza machine document).values label =
      labelled (nodesOf machine (nameText document.rootName) protocol) label := by
  rw [first_address listed, headNodes, first]

theorem first_ipv4 {protocol : Ipv4} {rest : List Protocol}
    (first : protocols document.common.addressing = .ipv4 protocol :: rest) :
    ipv4 machine (firstStanza machine document) = [rereadIpv4 machine protocol] := by
  apply ipv4_ipv4Nodes
  intro label listed
  refine first_values first ?_
  revert label
  decide

theorem first_ipv6 {protocol : Ipv6} {rest : List Protocol}
    (first : protocols document.common.addressing = .ipv6 protocol :: rest) :
    ipv6 (firstStanza machine document) = rereadIpv6 protocol := by
  refine ipv6_protocolIpv6 rfl ?_ (first_disabled first)
  intro label listed
  refine first_values first ?_
  revert label
  decide

theorem other_ipv6 (protocol : Ipv6) : ipv6 ⟨some name, protocolIpv6 name protocol⟩ = rereadIpv6 protocol := by
  apply ipv6_protocolIpv6 rfl (fun _ _ => rfl)
  rw [Element.holds, Element.values, protocolIpv6_autoconf]
  cases protocol.autoconf <;> simp

-- An ipv4 protocol is lost behind an ipv6 one.
def rereadAddressing (machine : Machine) : Addressing → List Xml
  | .ipv4First ipv4 ipv6 => (ipv4.map (rereadIpv4 machine)).toList ++ (ipv6.map rereadIpv6).toList
  | .ipv6First none ipv4 => (ipv4.map (rereadIpv4 machine)).toList
  | .ipv6First (some ipv6) _ => [rereadIpv6 ipv6]

theorem first_manual (none : protocols document.common.addressing = []) :
    ipv4 machine (firstStanza machine document) = [] := by
  have method : (firstStanza machine document).values "method" = ["manual"] := by
    rw [first_address (by simp), headNodes, none]
    simp
  simp [ipv4, Element.holds, method]

-- The stanzas of the second protocol, by the family of the first one.
theorem protocol_inet (leads : (firstStanza machine document).values "family" = ["inet"]) :
    protocol machine (stanzas machine document) (firstStanza machine document) =
      ipv4 machine (firstStanza machine document) ++
        ((otherStanzas machine document).filter (·.holds "family" "inet6")).map ipv6 := by
  have here : (firstStanza machine document).holds "family" "inet" = true := by simp [Element.holds, leads]
  have apart : (firstStanza machine document).holds "family" "inet6" = false := by simp [Element.holds, leads]
  rw [protocol, if_pos here, filter_family "inet6" (by decide), apart]
  rfl

theorem protocol_inet6 (leads : (firstStanza machine document).values "family" = ["inet6"]) :
    protocol machine (stanzas machine document) (firstStanza machine document) =
      [ipv6 (firstStanza machine document)] := by
  have here : (firstStanza machine document).holds "family" "inet6" = true := by simp [Element.holds, leads]
  have apart : (firstStanza machine document).holds "family" "inet" = false := by simp [Element.holds, leads]
  have wrong : (firstStanza machine document).holds "family" "inet4" = false := by simp [Element.holds, leads]
  have others : (otherStanzas machine document).filter (·.holds "family" "inet4") = [] := by
    rw [List.filter_eq_nil_iff]
    intro stanza member
    obtain ⟨protocol, _, rfl⟩ := List.mem_map.mp member
    cases protocol <;> simp [Element.holds, Element.values, nodesOf_family, Protocol.family]
  rw [protocol, apart, here, filter_family "inet4" (by decide), wrong, others]
  rfl

theorem protocol_first :
    protocol machine (stanzas machine document) (firstStanza machine document) =
      rereadAddressing machine document.common.addressing := by
  have families := @first_family machine document
  cases listed : protocols document.common.addressing with
  | nil =>
    rw [listed] at families
    have nothing : rereadAddressing machine document.common.addressing = [] := by
      rcases addressing : document.common.addressing with ⟨_ | _, _ | _⟩ | ⟨_ | _, _ | _⟩ <;>
        simp_all [protocols, rereadAddressing]
    rw [protocol_inet families, first_manual listed, otherStanzas, listed, nothing]
    rfl
  | cons first rest =>
    rw [listed] at families
    cases first with
    | ipv4 leader =>
      rw [protocol_inet families, first_ipv4 listed, otherStanzas, listed, List.tail_cons]
      rcases addressing : document.common.addressing with ⟨_ | _, _ | second⟩ | ⟨_ | _, _ | _⟩ <;>
        rw [addressing] at listed <;> cases listed
      · rfl
      · have six : Element.holds ⟨some (nameText document.rootName),
            protocolIpv6 (nameText document.rootName) second⟩ "family" "inet6" = true := by
          have family := @nodesOf_family machine (nameText document.rootName) (.ipv6 second)
          rw [nodesOf] at family
          simp [Element.holds, Element.values, family, Protocol.family]
        have stanza : ([].append (Option.map Protocol.ipv6 (some second)).toList).map (fun protocol =>
            (⟨some (nameText document.rootName), nodesOf machine (nameText document.rootName) protocol⟩ : Element)) =
              [⟨some (nameText document.rootName), protocolIpv6 (nameText document.rootName) second⟩] := rfl
        rw [stanza, List.filter_cons, six, if_pos rfl, List.filter_nil, List.map_singleton, other_ipv6]
        rfl
      · rfl
    | ipv6 leader =>
      rw [protocol_inet6 families, first_ipv6 listed]
      rcases addressing : document.common.addressing with ⟨_ | _, _ | _⟩ | ⟨_ | _, _ | _⟩ <;>
        simp_all [protocols, rereadAddressing]

theorem put_protocols :
    (put machine [treeOf machine document]).map protocolElements =
      [rereadAddressing machine document.common.addressing] := by
  rw [put_treeOf, List.map_singleton, protocolElements_iface, protocol_first]

end First

section Results

variable {document : Interface}

def rereads (machine : Machine) (document : Interface) (element : Xml) : Prop :=
  ∃ forest, get machine document = .ok forest ∧ put machine forest = [element]

theorem rereads_protocols {machine : Machine} {element : Xml} (read : rereads machine document element) :
    protocolElements element = rereadAddressing machine document.common.addressing := by
  obtain ⟨forest, transformed, back⟩ := read
  have protocols := @put_protocols machine document
  rw [← get_forest transformed, back] at protocols
  exact List.singleton_inj.mp protocols

theorem rereads_exists (machine : Machine) :
    (∃ element, rereads machine document element) ↔ ∀ length ∈ document.ipv4Prefix, length.value ≠ 0 := by
  rw [← @get_succeeds_iff machine]
  constructor
  · rintro ⟨element, forest, transformed, _⟩
    exact ⟨forest, transformed⟩
  · rintro ⟨forest, transformed⟩
    have back := @put_treeOf machine document
    rw [← get_forest transformed] at back
    exact ⟨_, forest, transformed, back⟩

theorem both_protocols_kept_iff {ipv4 : Ipv4} {ipv6 : Ipv6} (first : document.common.addressing.ipv4 = some ipv4)
    (second : document.common.addressing.ipv6 = some ipv6) :
    (∀ machine, ∃ element, rereads machine document element ∧ ipv4.toXml ∈ protocolElements element ∧
        ∃ content, .element "protocol" [("family", "ipv6")] content ∈ protocolElements element) ↔
      document.common.addressing = .ipv4First (some ipv4) (some ipv6) ∧
        (∀ peerdns, ipv4 ≠ .dhcp (some peerdns)) ∧
        ∀ length ∈ ipv4.prefixLength, length.Canonical ∧ length.value ≠ 0 ∧ length.value ≠ 32 := by
  have prefixes : document.ipv4Prefix = ipv4.prefixLength := by
    rw [Interface.ipv4Prefix, first]
    rfl
  have apart : ∀ protocol : Ipv6, ipv4.toXml ≠ rereadIpv6 protocol := by
    intro protocol same
    cases ipv4 <;> simp [rereadIpv6, Ipv4.toXml] at same
  constructor
  · intro kept
    have positive : ∀ length ∈ ipv4.prefixLength, length.value ≠ 0 := by
      obtain ⟨element, read, _⟩ := kept countModulo
      rw [← prefixes]
      exact (rereads_exists countModulo).mp ⟨element, read⟩
    have members : ∀ machine, ipv4.toXml ∈ rereadAddressing machine document.common.addressing := by
      intro machine
      obtain ⟨element, read, found, _⟩ := kept machine
      rwa [← rereads_protocols read]
    cases addressing : document.common.addressing with
    | ipv4First leader follower =>
      rw [addressing] at first second
      cases first
      cases second
      have equal : ∀ machine, rereadIpv4 machine ipv4 = ipv4.toXml := by
        intro machine
        have found := members machine
        rw [addressing] at found
        simpa [rereadAddressing, apart, eq_comm] using found
      obtain ⟨offered, lengths⟩ := (reread_ipv4_iff ipv4 positive).mp equal
      exact ⟨rfl, offered, fun length listed =>
        ⟨(lengths length listed).1, positive length listed, (lengths length listed).2⟩⟩
    | ipv6First leader follower =>
      rw [addressing] at second
      cases second
      have found := members countModulo
      rw [addressing] at found
      exact absurd (List.mem_singleton.mp found) (apart ipv6)
  · rintro ⟨order, offered, lengths⟩ machine
    have positive : ∀ length ∈ ipv4.prefixLength, length.value ≠ 0 := fun length listed => (lengths length listed).2.1
    have equal := (reread_ipv4_iff ipv4 positive).mpr
      ⟨offered, fun length listed => ⟨(lengths length listed).1, (lengths length listed).2.2⟩⟩ machine
    obtain ⟨element, read⟩ := (rereads_exists machine).mpr (prefixes ▸ positive)
    have protocols := rereads_protocols read
    rw [order] at protocols
    refine ⟨element, read, ?_, ?_⟩
    · simp [protocols, rereadAddressing, equal]
    · exact ⟨_, by rw [protocols]; exact List.mem_cons_of_mem _ List.mem_cons_self⟩

theorem rereadIp_iff (ip : Ipv6Ip) :
    rereadIp ip = ipElement ip.address.text (ip.prefixLen.map (·.text)) ↔ ip.prefixLen.isSome := by
  cases length : ip.prefixLen <;> simp [rereadIp, ipElement, Xml.optional, length]

theorem rereadIps_iff (ips : List Ipv6Ip) :
    ips.map rereadIp = ips.map (fun ip => ipElement ip.address.text (ip.prefixLen.map (·.text))) ↔
      ∀ ip ∈ ips, ip.prefixLen.isSome := by
  rw [List.map_inj_left]
  exact forall₂_congr fun ip _ => rereadIp_iff ip

-- The protocols that come back as they are: the children of a protocol with addresses are in the order of the
-- schema only when they are addresses, or a single one with its route.
structure Restored (protocol : Ipv6) : Prop where
  unaddressed : protocol.ips = [] → protocol.gateway = none
  addressed : protocol.ips ≠ [] → protocol.dhcp = none ∧ protocol.autoconf = false ∧
    (∀ ip ∈ protocol.ips, ip.prefixLen.isSome) ∧ (protocol.gateway = none ∨ protocol.ips.length = 1)

theorem restored_of_toXml {protocol back : Ipv6} (autoconf : back.autoconf = protocol.autoconf)
    (dhcp : back.dhcp.isSome = protocol.dhcp.isSome) (ips : back.ips = protocol.ips)
    (gateway : back.gateway = protocol.gateway) (same : rereadIpv6 protocol = back.toXml) : Restored protocol := by
  have children := (Xml.element.inj same).2.2
  rw [ips, autoconf, gateway] at children
  constructor
  · intro none
    rw [none] at children
    have counted := congrArg List.length children
    cases routed : protocol.gateway with
    | none => rfl
    | some router =>
      cases offered : protocol.dhcp <;> cases returned : back.dhcp <;>
        simp_all [routeElement, autoconfElements]
  · intro some_ip
    rcases listed : protocol.ips with _ | ⟨ip, rest⟩
    · exact absurd listed some_ip
    rw [listed] at children
    have quiet : protocol.autoconf = false := by
      cases flag : protocol.autoconf with
      | false => rfl
      | true => simp [flag, rereadIp, ipElement] at children
    have silent : back.dhcp = none := by
      cases returned : back.dhcp with
      | none => rfl
      | some peerdns => simp [quiet, returned, rereadIp, ipElement, dhcpElement] at children
    have unoffered : protocol.dhcp = none := by
      rw [silent] at dhcp
      exact Option.not_isSome_iff_eq_none.mp (by simp [← dhcp])
    simp only [quiet, silent, autoconfElements, Bool.false_eq_true, if_false, List.append_nil, List.nil_append,
      Option.map_none, Option.toList_none, List.map_cons, List.cons_append, List.cons.injEq] at children
    refine ⟨unoffered, quiet, ?_⟩
    rw [rereadIp_iff] at children
    cases routed : protocol.gateway with
    | none =>
      simp only [routed, Option.map_none, routeElement, List.nil_append, List.append_nil, rereadIps_iff] at children
      exact ⟨by simpa using children, .inl rfl⟩
    | some router =>
      cases rest with
      | nil => exact ⟨by simpa using children.1, .inr rfl⟩
      | cons second others => simp [routed, routeElement, ipElement] at children

theorem Restored.toXml {protocol : Ipv6} (restored : Restored protocol) :
    rereadIpv6 protocol = { protocol with dhcp := protocol.dhcp.map fun _ => none }.toXml := by
  rcases listed : protocol.ips with _ | ⟨ip, rest⟩
  · have unrouted := restored.unaddressed listed
    cases offered : protocol.dhcp <;>
      simp [rereadIpv6, Ipv6.toXml, listed, unrouted, offered, autoconfElements, routeElement]
  · obtain ⟨unoffered, quiet, prefixed, routed⟩ := restored.addressed (by simp [listed])
    rw [listed] at prefixed routed
    have all := (rereadIps_iff (ip :: rest)).mpr prefixed
    rw [List.map_cons, List.map_cons] at all
    obtain ⟨first, others⟩ := List.cons_eq_cons.mp all
    rcases routed with unrouted | alone
    · simp [rereadIpv6, Ipv6.toXml, listed, unoffered, quiet, autoconfElements, unrouted, routeElement, first, others]
    · have none : rest = [] := by simpa using alone
      simp [rereadIpv6, Ipv6.toXml, listed, unoffered, quiet, autoconfElements, none, first]

theorem ipv6_round_trip_iff {ipv6 : Ipv6} (only : protocols document.common.addressing = [.ipv6 ipv6]) :
    (∀ machine, ∃ element, rereads machine document element ∧ ∃ back : Ipv6,
        protocolElements element = [back.toXml] ∧ back.autoconf = ipv6.autoconf ∧
          back.dhcp.isSome = ipv6.dhcp.isSome ∧ back.ips = ipv6.ips ∧ back.gateway = ipv6.gateway) ↔
      (ipv6.ips = [] → ipv6.gateway = none) ∧
        (ipv6.ips ≠ [] → ipv6.dhcp = none ∧ ipv6.autoconf = false ∧
          (∀ ip ∈ ipv6.ips, ip.prefixLen.isSome) ∧ (ipv6.gateway = none ∨ ipv6.ips.length = 1)) := by
  have addressing : document.common.addressing.ipv4 = none ∧
      ∀ machine, rereadAddressing machine document.common.addressing = [rereadIpv6 ipv6] := by
    rcases order : document.common.addressing with ⟨_ | _, _ | _⟩ | ⟨_ | _, _ | _⟩ <;>
      simp_all [protocols, rereadAddressing, Addressing.ipv4]
  constructor
  · intro round
    obtain ⟨element, read, back, found, autoconf, dhcp, ips, gateway⟩ := round countModulo
    rw [rereads_protocols read, addressing.2, List.singleton_inj] at found
    have restored := restored_of_toXml autoconf dhcp ips gateway found
    exact ⟨restored.unaddressed, restored.addressed⟩
  · rintro ⟨unaddressed, addressed⟩ machine
    have restored : Restored ipv6 := ⟨unaddressed, addressed⟩
    have positive : ∀ length ∈ document.ipv4Prefix, length.value ≠ 0 := by
      simp [Interface.ipv4Prefix, addressing.1]
    obtain ⟨element, read⟩ := (rereads_exists machine).mpr positive
    refine ⟨element, read, { ipv6 with dhcp := ipv6.dhcp.map fun _ => none }, ?_, rfl, by simp, rfl, rfl⟩
    rw [rereads_protocols read, addressing.2, restored.toXml]

end Results

section Examples

def card (addressing : Addressing) : Interface :=
  .ethernet ⟨.onboot, none, addressing⟩ ⟨eth0, none⟩

def automatic : Ipv6 := ⟨true, none, [], none⟩

theorem both_protocols_kept_iff_ipv4_first :
    ∃ element, rereads countModulo (card (.ipv4First (some (.dhcp none)) (some automatic))) element ∧
        (Ipv4.dhcp none).toXml ∈ protocolElements element ∧
        ∃ content, .element "protocol" [("family", "ipv6")] content ∈ protocolElements element :=
  (both_protocols_kept_iff rfl rfl).mpr ⟨rfl, by simp, by simp [Ipv4.prefixLength]⟩ countModulo

theorem ipv4_lost_behind_ipv6 :
    (∃ element, rereads countModulo (card (.ipv6First (some automatic) (some (.dhcp none)))) element ∧
      protocolElements element = [.element "protocol" [("family", "ipv6")] [.element "autoconf" [] []]]) ∧
    ¬ ∃ element, rereads countModulo (card (.ipv6First (some automatic) (some (.dhcp none)))) element ∧
      (Ipv4.dhcp none).toXml ∈ protocolElements element := by
  constructor
  · rcases (@rereads_exists (card (.ipv6First (some automatic) (some (.dhcp none)))) countModulo).mpr (by decide)
      with ⟨element, read⟩
    exact ⟨element, read, rereads_protocols read⟩
  · rintro ⟨element, read, found⟩
    rw [rereads_protocols read] at found
    exact absurd found (by decide)

theorem ipv6_round_trip_iff_two_addresses :
    ∃ element,
      rereads countModulo (card (.ipv4First none (some ⟨false, none, [firstIp, secondIp], none⟩))) element ∧
        ∃ back : Ipv6, protocolElements element = [back.toXml] ∧ back.autoconf = false ∧
          back.dhcp.isSome = false ∧ back.ips = [firstIp, secondIp] ∧ back.gateway = none :=
  (@ipv6_round_trip_iff (card (.ipv4First none (some ⟨false, none, [firstIp, secondIp], none⟩)))
    ⟨false, none, [firstIp, secondIp], none⟩ rfl).mpr ⟨by simp, fun _ => ⟨rfl, rfl, by decide, .inl rfl⟩⟩ countModulo

-- Autoconf next to an address comes back behind it.
theorem autoconf_comes_back_last :
    (∃ element, rereads countModulo (card (.ipv4First none (some ⟨true, none, [firstIp], none⟩))) element ∧
      protocolElements element = [.element "protocol" [("family", "ipv6")]
        [ipElement "2001:db8::1" (some "64"), .element "autoconf" [] []]]) ∧
    ¬ ∃ element, rereads countModulo (card (.ipv4First none (some ⟨true, none, [firstIp], none⟩))) element ∧
      ∃ back : Ipv6, protocolElements element = [back.toXml] ∧ back.autoconf = true ∧
        back.dhcp.isSome = false ∧ back.ips = [firstIp] ∧ back.gateway = none := by
  constructor
  · rcases (@rereads_exists (card (.ipv4First none (some ⟨true, none, [firstIp], none⟩))) countModulo).mpr
      (by decide) with ⟨element, read⟩
    exact ⟨element, read, rereads_protocols read⟩
  · rintro ⟨element, read, back, found, autoconf, dhcp, ips, gateway⟩
    rw [rereads_protocols read] at found
    have restored := @restored_of_toXml ⟨true, none, [firstIp], none⟩ back autoconf dhcp ips gateway
      (List.singleton_inj.mp found)
    cases (restored.addressed (by decide)).2.1

end Examples

end Netcf.Debian
