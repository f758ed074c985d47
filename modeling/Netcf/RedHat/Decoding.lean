import Netcf.RedHat.RoundTrip
import Netcf.RedHat.Family

set_option autoImplicit false

-- The values that redhat-put.xsl takes apart again: ipv6 addresses with their prefixes, and the
-- device names of vlans.
namespace Netcf.RedHat

open Schema Stylesheet Shared

section Address

def ipXml (ip : Ipv6Ip) : Xml :=
  ipElement ip.address.text (ip.prefixLen.map (·.text))

-- Without a prefix there is no slash, and substring-before gives nothing.
theorem putIpv6Address_iff (ip : Ipv6Ip) : putIpv6Address (ipText ip) = ipXml ip ↔ ip.prefixLen.isSome := by
  cases length : ip.prefixLen with
  | none =>
    have absent : ip.address.text.toList.dropInfix? ['/'] = none := by
      apply Search.dropInfix?_none
      intro inside
      exact address_chars ip.address (c := '/') (by simp) (inside.subset (by simp))
    have lost : putIpv6Address (ipText ip) = ipElement "" none := by
      simp [putIpv6Address, ipText, length, ifPresent, substringBefore, substringAfter, absent, nonempty]
    rw [lost, ipXml, length]
    simp [ipElement, (address_nonempty ip.address).symm]
  | some number =>
    have found := @Search.dropInfix?_mark _ _ _ number.text.toList _ (address_chars ip.address (c := '/') (by simp))
    simp [putIpv6Address, ipText, length, ifPresent, substringBefore, substringAfter, found, nonempty,
      digits_nonempty number, ipXml]

theorem ipText_word (ip : Ipv6Ip) : ' ' ∉ (ipText ip).toList ∧ ipText ip ≠ "" := by
  have address := address_chars ip.address (c := ' ') (by simp)
  have filled := address_nonempty ip.address
  cases length : ip.prefixLen with
  | none => simp [ipText, length, ifPresent, address, filled]
  | some number =>
    have digits := digits_chars number (c := ' ') (by simp)
    simp [ipText, length, ifPresent, address, digits]

theorem join_spaced {words : List String} (some_word : words ≠ []) :
    String.join (words.dropLast.map fun word => word ++ " ") ++ words.getLast some_word =
      " ".intercalate words := by
  induction words with
  | nil => exact absurd rfl some_word
  | cons first rest ih =>
    cases rest with
    | nil => simp
    | cons second others =>
      have rest_filled : second :: others ≠ [] := by simp
      rw [List.getLast_cons rest_filled, String.intercalate_cons_of_ne_nil rest_filled, ← ih rest_filled]
      simp [String.append_assoc]

theorem stripQuotes_quoted (text : String) : stripQuotes ("'" ++ text ++ "'") = text := by
  have quoted : ("'" ++ text ++ "'").toList = '\'' :: (text.toList ++ ['\'']) := by simp
  simp [stripQuotes, quoted]

theorem secondaries_split {ips : List Ipv6Ip} (filled : ips ≠ []) :
    strSplit (stripQuotes ("'" ++ String.join (ips.dropLast.map fun middle => ipText middle ++ " ") ++
      ipText (ips.getLast filled) ++ "'")) = ips.map ipText := by
  have words_filled : ips.map ipText ≠ [] := by simpa using filled
  have joined := join_spaced words_filled
  rw [List.getLast_map, ← List.map_dropLast, List.map_map] at joined
  have quoted : "'" ++ String.join (ips.dropLast.map fun middle => ipText middle ++ " ") ++
      ipText (ips.getLast filled) ++ "'" = "'" ++ " ".intercalate (ips.map ipText) ++ "'" := by
    rw [← joined, ← String.append_assoc]
    rfl
  rw [quoted, stripQuotes_quoted]
  apply strSplit_intercalate
  intro word member
  obtain ⟨ip, _, rfl⟩ := List.mem_map.mp member
  exact ipText_word ip

end Address

section Protocol

variable {machine : Machine} {document : Interface} {forest : Forest} {ipv6 : Ipv6}

def ipv6Labels : List String :=
  ["IPV6INIT", "IPV6_AUTOCONF", "DHCPV6", "IPV6ADDR", "IPV6ADDR_SECONDARIES", "IPV6_DEFAULTGW"]

theorem ipv4Nodes_ipv6 (ipv4 : Ipv4) {label : String} (listed : label ∈ ipv6Labels) :
    labelled (ipv4Nodes machine ipv4) label = [] := by
  have apart : ∀ label ∈ ipv6Labels, ∀ other ∈ ["BOOTPROTO", "PEERDNS", "IPADDR", "NETMASK", "GATEWAY"],
      other ≠ label := by decide
  have other := apart label listed
  simp only [List.mem_cons, List.not_mem_nil, or_false, forall_eq_or_imp, forall_eq] at other
  obtain ⟨proto, dns, address, netmask, gateway⟩ := other
  cases ipv4 <;> simp [ipv4Nodes, proto, dns, address, netmask, gateway]

-- The root file holds the nodes of the ipv6 protocol and no others of their labels.
theorem rootTree_ipv6 (present : document.common.addressing.ipv6 = some ipv6) {label : String}
    (listed : label ∈ ipv6Labels) :
    (rootTree (addressNodes machine document.common.addressing) document).values label =
      labelled (protocolIpv6 ipv6) label := by
  have among : ∀ label ∈ ipv6Labels, label ∈ "PREFIX" :: addressLabels := by decide
  rw [rootTree_addresses document (among label listed), addressNodes, labelled_append, present]
  cases ipv4 : document.common.addressing.ipv4 with
  | none => simp
  | some protocol => simp [ipv4Nodes_ipv6 protocol listed]

-- The ipv6 protocol as it comes back: the route follows the first address, and the rest follows it.
def rereadIpv6 (ipv6 : Ipv6) : Xml :=
  .element "protocol" [("family", "ipv6")]
    ((if ipv6.autoconf then [.element "autoconf" [] []] else []) ++
      (ipv6.dhcp.map fun _ => dhcpElement none).toList ++
      match ipv6.ips with
      | [] => []
      | ip :: rest => putIpv6Address (ipText ip) :: (routeElement (ipv6.gateway.map (·.text)) ++
          rest.map fun ip => putIpv6Address (ipText ip)))

theorem secondaries_words (ips : List Ipv6Ip) :
    (((labelled (ipv6Addresses ips) "IPV6ADDR_SECONDARIES").head?.map fun text => strSplit (stripQuotes text)).getD
      []) = ips.tail.map ipText := by
  rcases ips with _ | ⟨ip, _ | ⟨second, rest⟩⟩
  · rfl
  · rfl
  · exact secondaries_split (by simp)

theorem labelled_ipv6Addresses (ips : List Ipv6Ip) {label : String} (notFirst : "IPV6ADDR" ≠ label)
    (notSecond : "IPV6ADDR_SECONDARIES" ≠ label) : labelled (ipv6Addresses ips) label = [] := by
  rcases ips with _ | ⟨ip, _ | ⟨second, rest⟩⟩
  · rfl
  · simp [ipv6Addresses, notFirst]
  · simp [ipv6Addresses, notFirst, notSecond]

theorem labelled_first (ips : List Ipv6Ip) :
    (labelled (ipv6Addresses ips) "IPV6ADDR").head? = ips.head?.map ipText := by
  rcases ips with _ | ⟨ip, _ | ⟨second, rest⟩⟩ <;> rfl

theorem putIpv6_reread {tree : Tree}
    (same : ∀ label ∈ ipv6Labels, tree.values label = labelled (protocolIpv6 ipv6) label) :
    putIpv6 tree = [rereadIpv6 ipv6] := by
  have quiet := fun label => @labelled_ipv6Addresses ipv6.ips label
  have init : tree.holds "IPV6INIT" "yes" = true := by
    simp [Tree.holds, same "IPV6INIT" (by decide), protocolIpv6]
  have autoconf : tree.holds "IPV6_AUTOCONF" "yes" = ipv6.autoconf := by
    rw [Tree.holds, same "IPV6_AUTOCONF" (by decide)]
    cases flag : ipv6.autoconf <;>
      simp [protocolIpv6, quiet "IPV6_AUTOCONF" (by decide) (by decide), yesNo, flag]
  have dhcp : tree.holds "DHCPV6" "yes" = ipv6.dhcp.isSome := by
    rw [Tree.holds, same "DHCPV6" (by decide)]
    cases flag : ipv6.dhcp <;> simp [protocolIpv6, quiet "DHCPV6" (by decide) (by decide), yesNo, flag]
  have route : tree.value? "IPV6_DEFAULTGW" = ipv6.gateway.map (·.text) := by
    rw [Tree.value?, same "IPV6_DEFAULTGW" (by decide)]
    simp [protocolIpv6, quiet "IPV6_DEFAULTGW" (by decide) (by decide)]
  have first : tree.value? "IPV6ADDR" = ipv6.ips.head?.map ipText := by
    rw [Tree.value?, same "IPV6ADDR" (by decide), ← labelled_first]
    simp [protocolIpv6]
  have others : tree.value? "IPV6ADDR_SECONDARIES" =
      (labelled (ipv6Addresses ipv6.ips) "IPV6ADDR_SECONDARIES").head? := by
    simp [Tree.value?, same "IPV6ADDR_SECONDARIES" (by decide), protocolIpv6]
  have words := secondaries_words ipv6.ips
  rw [putIpv6, if_pos init, autoconf, dhcp, first, route, others]
  generalize (labelled (ipv6Addresses ipv6.ips) "IPV6ADDR_SECONDARIES").head? = text at words
  cases text with
  | none =>
    have alone : ipv6.ips.tail = [] := List.map_eq_nil_iff.mp words.symm
    rcases ips : ipv6.ips with _ | ⟨ip, rest⟩ <;> cases offered : ipv6.dhcp <;>
      simp_all [rereadIpv6, dhcpElement, Xml.optional]
  | some text =>
    have split : strSplit (stripQuotes text) = ipv6.ips.tail.map ipText := words
    rcases ips : ipv6.ips with _ | ⟨ip, rest⟩ <;> cases offered : ipv6.dhcp <;>
      simp [rereadIpv6, split, ips, offered, dhcpElement, Xml.optional]

def withoutPeerdns (ipv6 : Ipv6) : Ipv6 :=
  { ipv6 with dhcp := ipv6.dhcp.map fun _ => none }

@[simp] theorem withoutPeerdns_autoconf (ipv6 : Ipv6) : (withoutPeerdns ipv6).autoconf = ipv6.autoconf := rfl

@[simp] theorem withoutPeerdns_ips (ipv6 : Ipv6) : (withoutPeerdns ipv6).ips = ipv6.ips := rfl

@[simp] theorem withoutPeerdns_gateway (ipv6 : Ipv6) : (withoutPeerdns ipv6).gateway = ipv6.gateway := rfl

theorem rereadIpv6_iff (ipv6 : Ipv6) :
    rereadIpv6 ipv6 = (withoutPeerdns ipv6).toXml ↔
      (∀ ip ∈ ipv6.ips, ip.prefixLen.isSome) ∧ (ipv6.gateway = none ∨ ipv6.ips.length = 1) := by
  have addresses : ∀ ips : List Ipv6Ip, ((ips.map fun ip => putIpv6Address (ipText ip)) = ips.map ipXml) ↔
      ∀ ip ∈ ips, ip.prefixLen.isSome := by
    intro ips
    rw [List.map_inj_left]
    exact forall₂_congr fun ip _ => putIpv6Address_iff ip
  have heads : (ipv6.dhcp.map fun _ => dhcpElement none).toList =
      ((withoutPeerdns ipv6).dhcp.map dhcpElement).toList := by
    cases offered : ipv6.dhcp <;> simp [withoutPeerdns, offered]
  have tails : rereadIpv6 ipv6 = (withoutPeerdns ipv6).toXml ↔
      (match ipv6.ips with
        | [] => []
        | ip :: rest => putIpv6Address (ipText ip) :: (routeElement (ipv6.gateway.map (·.text)) ++
            rest.map fun ip => putIpv6Address (ipText ip))) =
        ipv6.ips.map ipXml ++ routeElement (ipv6.gateway.map (·.text)) := by
    rw [rereadIpv6, Ipv6.toXml, heads]
    simp only [Xml.element.injEq, true_and, List.append_assoc, withoutPeerdns_autoconf, withoutPeerdns_ips,
      withoutPeerdns_gateway]
    erw [List.append_right_inj, List.append_right_inj]
    rfl
  rw [tails]
  rcases ips : ipv6.ips with _ | ⟨ip, rest⟩
  · cases gate : ipv6.gateway <;> simp [routeElement]
  · have here := putIpv6Address_iff ip
    cases gate : ipv6.gateway with
    | none => simp [routeElement, here, addresses rest]
    | some gateway =>
      cases rest with
      | nil => simp [routeElement, here]
      | cons second others =>
        simp [routeElement, ipXml, ipElement]

theorem ipv6_reads_back_iff (transforms : get machine document = .ok forest)
    (present : document.common.addressing.ipv6 = some ipv6) :
    forest.head?.map putIpv6 = some [(withoutPeerdns ipv6).toXml] ↔
      (∀ ip ∈ ipv6.ips, ip.prefixLen.isSome) ∧ (ipv6.gateway = none ∨ ipv6.ips.length = 1) := by
  rw [get_forest transforms, forestOf, List.head?_cons, Option.map_some,
    putIpv6_reread fun label listed => rootTree_ipv6 present listed]
  simpa using rereadIpv6_iff ipv6

end Protocol

section Vlan

-- The cut is at the first dot, so what comes before it has none.
theorem substringBefore_dotless (link : BareVlan) : '.' ∉ (substringBefore link.deviceName ".").toList := by
  have dotted : '.' ∈ link.deviceName.toList := by simp [BareVlan.deviceName]
  obtain ⟨front, back, split, first⟩ := List.eq_append_cons_of_mem dotted
  have found := @Search.dropInfix?_mark _ _ _ back _ first
  rw [← split] at found
  simpa [substringBefore, found] using first

theorem vlanDevice_iff (link : BareVlan) (rest : List Node) :
    putVlanDevice (vlanInterfaceCommon link rest) = link.device ↔ '.' ∉ link.base.text.toList := by
  constructor
  · intro same
    rw [putVlanDevice, vlanInterfaceCommon, nameAttr_device, BareVlan.device] at same
    have base : substringBefore link.deviceName "." = link.base.text := by
      simp only [Xml.element.injEq, List.cons.injEq, Prod.mk.injEq] at same
      exact same.2.2.1.2.1.1.2
    rw [← base]
    exact substringBefore_dotless link
  · intro plain
    exact putVlanDevice_vlan link plain rest

theorem vlan_reads_back_iff (link : BareVlan) :
    ((∀ machine common forest, get machine (.vlan common link) = .ok forest →
        forest.map putVlanDevice = [link.device]) ∧
      ∀ common bridge, (bridgePort common bridge (.vlan link)).map putVlanDevice = [link.device]) ↔
      '.' ∉ link.base.text.toList := by
  constructor
  · rintro ⟨_, port⟩
    have decoded := port unaddressed br0
    rw [bridgePort, List.map_singleton, List.singleton_inj] at decoded
    exact (vlanDevice_iff link _).mp decoded
  · intro plain
    constructor
    · intro machine common forest transforms
      rw [get_forest transforms]
      exact List.singleton_inj.mpr ((vlanDevice_iff link _).mpr plain)
    · intro common bridge
      exact List.singleton_inj.mpr ((vlanDevice_iff link _).mpr plain)

end Vlan

section Examples

def router : Ipv6Addr := ⟨"2001:db8::ff", by decide +kernel⟩

def dualCard (ipv6 : Ipv6) : Interface :=
  .ethernet ⟨.onboot, none, .ipv4First none (some ipv6)⟩ ⟨eth0, none⟩

theorem ipv6_reads_back_iff_two_addresses :
    ((forestOf countModulo (dualCard ⟨true, none, [firstIp, secondIp], none⟩)).head?.map putIpv6 =
      some [(withoutPeerdns ⟨true, none, [firstIp, secondIp], none⟩).toXml]) :=
  (ipv6_reads_back_iff (@get_ok countModulo (dualCard ⟨true, none, [firstIp, secondIp], none⟩) (by decide)) rfl).mpr
    (by decide)

-- An address without a prefix is lost, and a route among several addresses comes back after the first.
theorem ipv6_comes_back_changed :
    let reread := fun ipv6 => (forestOf countModulo (dualCard ipv6)).head?.map putIpv6
    reread ⟨false, none, [{ firstIp with prefixLen := none }], none⟩ =
        some [.element "protocol" [("family", "ipv6")] [ipElement "" none]] ∧
      reread ⟨false, none, [{ firstIp with prefixLen := none }], none⟩ ≠
        some [(withoutPeerdns ⟨false, none, [{ firstIp with prefixLen := none }], none⟩).toXml] ∧
      reread ⟨false, none, [firstIp, secondIp], some router⟩ =
        some [.element "protocol" [("family", "ipv6")]
          [ipElement "2001:db8::1" (some "64"), .element "route" [("gateway", "2001:db8::ff")] [],
            ipElement "2001:db8::2" (some "64")]] ∧
      reread ⟨false, none, [firstIp, secondIp], some router⟩ ≠
        some [(withoutPeerdns ⟨false, none, [firstIp, secondIp], some router⟩).toXml] := by
  decide +kernel

def stacked : BareVlan := ⟨none, tagged.tag, eth2Tagged⟩

theorem stacked_vlan_misread :
    (bridgePort unaddressed br0 (.vlan stacked)).map putVlanDevice =
        [.element "vlan" [("tag", "5.5")] [.element "interface" [("name", "eth2")] []]] ∧
      (bridgePort unaddressed br0 (.vlan stacked)).map putVlanDevice ≠ [stacked.device] ∧
      ((get countModulo (.vlan unaddressed stacked)).toOption.map fun forest => forest.map putVlanDevice) ≠
        some [stacked.device] := by
  decide +kernel

end Examples

end Netcf.RedHat
