import Netcf.Lenses.Files
import Netcf.RedHat.Get
import Netcf.Suse.Stylesheets

set_option autoImplicit false

-- The files that redhat-get.xsl and suse-get.xsl produce, as texts of the lens for sysconfig files.
namespace Netcf.Lenses

open Shared.Regex Shared.Bidirectional Shared.Repeating Schema Stylesheet
open RedHat (Node Tree Forest optionalNode)

section Clean

-- A text without double quotes, backslashes and ends of lines.
def Clean (text : String) : Prop :=
  ∀ c ∈ text.toList, c ∉ ['"', '\\', '\n']

@[simp] theorem clean_append (front back : String) : Clean (front ++ back) ↔ Clean front ∧ Clean back := by
  simp only [Clean, String.toList_append, List.forall_mem_append]

theorem clean_empty : Clean "" := by
  simp [Clean]

theorem clean_join {texts : List String} (all : ∀ text ∈ texts, Clean text) : Clean (String.join texts) := by
  induction texts with
  | nil => exact clean_empty
  | cons first rest ih =>
    obtain ⟨here, later⟩ := List.forall_mem_cons.mp all
    rw [String.join_cons, clean_append]
    exact ⟨here, ih later⟩

theorem clean_lexeme {pattern : RegularExpression Char} (lexeme : Shared.Pattern.Lexeme pattern)
    (closed : Shared.Pattern.within (fun c => !(['"', '\\', '\n'].contains c)) pattern = true) : Clean lexeme.text := by
  intro c inside
  simpa using lexeme.within closed c inside

theorem clean_device (name : DeviceName) : Clean name.text := clean_lexeme name (by decide +kernel)

theorem clean_mac (address : MacAddr) : Clean address.text := clean_lexeme address (by decide +kernel)

theorem clean_ipv4 (address : Ipv4Addr) : Clean address.text := clean_lexeme address (by decide +kernel)

theorem clean_ipv6 (address : Ipv6Addr) : Clean address.text := clean_lexeme address (by decide +kernel)

theorem clean_timeval (delay : Timeval) : Clean delay.text := clean_lexeme delay (by decide +kernel)

theorem clean_unsigned {most : Nat} (number : Unsigned most) : Clean number.text :=
  clean_lexeme number.toLexeme (by decide +kernel)

theorem clean_number (n : Nat) : Clean (toString n) := by
  intro c inside
  have listed : c ∈ Nat.toDigits 10 n := by simpa using inside
  have digit : c.isDigit = true := Nat.isDigit_of_mem_toDigits (by decide) (by decide) listed
  simp only [List.mem_cons, List.not_mem_nil, or_false, not_or]
  refine ⟨?_, ?_, ?_⟩ <;> rintro rfl <;> cases digit

theorem clean_netmask (address : BitVec 32) : Clean (inetNtop address) := by
  have dot : Clean "." := by simp [Clean]
  simp only [inetNtop, octets, List.map_cons, List.map_nil, String.intercalate_cons_cons,
    String.intercalate_singleton, clean_append, clean_number, dot, and_true]

theorem storable_clean {text : String} (clean : Clean text) : '\n' ∉ text.toList ∧ storable text.toList = true := by
  have unescaped : ∀ list : List Char, (∀ c ∈ list, c ∉ ['"', '\\', '\n']) →
      ∃ units, pieces list = some units ∧ ¬ Has .quote units := by
    intro list
    induction list with
    | nil => exact fun _ => ⟨[], rfl, by rintro ⟨_, member, _⟩; cases member⟩
    | cons c rest ih =>
      intro all
      obtain ⟨here, later⟩ := List.forall_mem_cons.mp all
      simp only [List.mem_cons, List.not_mem_nil, or_false, not_or] at here
      obtain ⟨units, read, none_quoted⟩ := ih later
      refine ⟨.plain c here.2.1 :: units, by rw [pieces_plain here.2.1, read]; rfl, ?_⟩
      rintro ⟨piece, member, kind⟩
      rcases List.mem_cons.mp member with rfl | inRest
      · exact here.1 (kind_quote.mp kind)
      · exact none_quoted ⟨piece, inRest, kind⟩
  obtain ⟨units, read, none_quoted⟩ := unescaped text.toList clean
  exact ⟨fun inside => by simpa using clean _ inside, by simp [storable, read, none_quoted]⟩

end Clean

section Nodes

def Writable (nodes : List Node) : Prop :=
  ∀ node ∈ nodes, keyRe.accepts node.label.toList = true ∧ Clean node.value

def labels : List String :=
  ["DEVICE", "ONBOOT", "HOTPLUG", "MTU", "HWADDR", "VLAN", "BONDING_OPTS", "MASTER", "SLAVE", "BRIDGE", "TYPE", "STP",
    "DELAY", "BOOTPROTO", "PEERDNS", "IPADDR", "NETMASK", "GATEWAY", "IPV6INIT", "IPV6_AUTOCONF", "DHCPV6", "IPV6ADDR",
    "IPV6ADDR_SECONDARIES", "IPV6_DEFAULTGW", "STARTMODE", "ETHERDEVICE", "BRIDGE_STP", "BRIDGE_FORWARDDELAY",
    "BRIDGE_PORTS", "BONDING_MASTER"]

theorem legal_labels : ∀ label ∈ labels, keyRe.accepts label.toList = true := by
  decide +kernel

@[simp] theorem writable_nil : Writable [] := List.forall_mem_nil _

@[simp] theorem writable_cons (node : Node) (rest : List Node) :
    Writable (node :: rest) ↔ (keyRe.accepts node.label.toList = true ∧ Clean node.value) ∧ Writable rest :=
  List.forall_mem_cons

@[simp] theorem writable_append (front back : List Node) :
    Writable (front ++ back) ↔ Writable front ∧ Writable back :=
  List.forall_mem_append

theorem writable_node {label value : String} (listed : label ∈ labels) (clean : Clean value) :
    keyRe.accepts (Node.mk label value).label.toList = true ∧ Clean (Node.mk label value).value :=
  ⟨legal_labels label listed, clean⟩

theorem writable_optionalNode {α : Type} {label : String} (listed : label ∈ labels) {text : α → String}
    (clean : ∀ a, Clean (text a)) (value : Option α) : Writable (optionalNode label (value.map text)) := by
  cases value with
  | none => exact writable_nil
  | some a => exact (writable_cons _ _).mpr ⟨writable_node listed (clean a), writable_nil⟩

theorem clean_ifPresent {α : Type} {text : α → String} (clean : ∀ a, Clean (text a)) (value : Option α) :
    Clean (ifPresent value text) := by
  cases value with
  | none => exact clean_empty
  | some a => exact clean a

theorem clean_option {key value : String} (word : Clean key) (clean : Clean value) : Clean (option key value) := by
  have signs : Clean " " ∧ Clean "=" := by simp [Clean]
  simp only [option, clean_append, signs, word, clean, and_true]

theorem clean_monitorOpts (monitor : Monitor) : Clean (monitorOpts monitor) := by
  cases monitor with
  | miimon freq downdelay updelay carrier =>
    have carried : ∀ source, Clean (useCarrier source) := fun source => by cases source <;> simp [Clean, useCarrier]
    simp only [monitorOpts, clean_append]
    refine ⟨⟨⟨clean_option ?_ (clean_unsigned freq), clean_ifPresent (fun delay => clean_option ?_ (clean_unsigned delay)) _⟩,
      clean_ifPresent (fun delay => clean_option ?_ (clean_unsigned delay)) _⟩,
      clean_ifPresent (fun source => clean_option ?_ (carried source)) _⟩ <;> simp [Clean]
  | arpmon interval target validate =>
    have checked : ∀ check : ArpValidate, Clean check.text := fun check => by cases check <;> simp [Clean, ArpValidate.text]
    simp only [monitorOpts, clean_append]
    refine ⟨⟨clean_option ?_ (clean_unsigned interval), clean_option ?_ (clean_ipv4 target)⟩,
      clean_ifPresent (fun check => clean_option ?_ (checked check)) _⟩ <;> simp [Clean]

theorem clean_bondingOpts (bond : BondElement) : Clean (bondingOpts bond) := by
  have quote : Clean "'" := by simp [Clean]
  have mode : ∀ mode : BondMode, Clean ("mode=" ++ mode.text) := fun mode => by cases mode <;> simp [Clean, BondMode.text]
  have primary : Clean (if bond.mode = some .activeBackup then option "primary" bond.first.name.text else "") := by
    split
    · exact clean_option (by simp [Clean]) (clean_device _)
    · exact clean_empty
  simp only [bondingOpts, clean_append, quote, primary, clean_ifPresent mode, clean_ifPresent clean_monitorOpts, and_true]

theorem clean_ipText (ip : Ipv6Ip) : Clean (RedHat.ipText ip) := by
  have slash : Clean "/" := by simp [Clean]
  rw [RedHat.ipText, clean_append]
  exact ⟨clean_ipv6 _, clean_ifPresent (fun length => (clean_append _ _).mpr ⟨slash, clean_unsigned length⟩) _⟩

theorem writable_ipv6Addresses (ips : List Ipv6Ip) : Writable (RedHat.ipv6Addresses ips) := by
  have marks : Clean "'" ∧ Clean " " := by simp [Clean]
  cases ips with
  | nil => exact writable_nil
  | cons ip rest =>
    have first := @writable_node "IPV6ADDR" _ (by decide) (clean_ipText ip)
    cases rest with
    | nil => exact (writable_cons _ _).mpr ⟨first, writable_nil⟩
    | cons second rest =>
      refine (writable_cons _ _).mpr ⟨first, (writable_cons _ _).mpr ⟨writable_node (by decide) ?_, writable_nil⟩⟩
      simp only [clean_append, marks, true_and, and_true]
      refine ⟨clean_join fun text listed => ?_, clean_ipText _⟩
      obtain ⟨middle, _, rfl⟩ := List.mem_map.mp listed
      exact (clean_append _ _).mpr ⟨clean_ipText middle, marks.2⟩

theorem writable_protocolIpv6 (ipv6 : Ipv6) : Writable (RedHat.protocolIpv6 ipv6) := by
  have answers : ∀ test, Clean (RedHat.yesNo test) := fun test => by cases test <;> simp [Clean, RedHat.yesNo]
  simp only [RedHat.protocolIpv6, writable_cons, writable_append]
  exact ⟨writable_node (by decide) (answers true), writable_node (by decide) (answers _),
    writable_node (by decide) (answers _), writable_ipv6Addresses _, writable_optionalNode (by decide) clean_ipv6 _⟩

theorem clean_ipcalcNetmask {machine : Machine} {length : Nat} {netmask : String}
    (made : ipcalcNetmask machine length = .ok netmask) : Clean netmask := by
  rw [ipcalcNetmask_nat] at made
  split at made
  · cases made
  · cases made
    exact clean_netmask _

end Nodes

section Trees

variable {machine : Machine} {nodes : List Node}

theorem writable_startmode (start : StartMode) : Writable (RedHat.startmode start) := by
  have answers : Clean "yes" ∧ Clean "no" := by simp [Clean]
  cases start with
  | onboot => exact (writable_cons _ _).mpr ⟨writable_node (by decide) answers.1, writable_nil⟩
  | none => exact (writable_cons _ _).mpr ⟨writable_node (by decide) answers.2, writable_nil⟩
  | hotplug =>
    exact (writable_cons _ _).mpr ⟨writable_node (by decide) answers.2,
      (writable_cons _ _).mpr ⟨writable_node (by decide) answers.1, writable_nil⟩⟩

theorem writable_mtu (size : Option Uint) : Writable (RedHat.mtu size) :=
  writable_optionalNode (by decide) clean_unsigned _

theorem writable_bondingOpts (bond : BondElement) :
    keyRe.accepts (RedHat.bondingOptsNode bond).label.toList = true ∧ Clean (RedHat.bondingOptsNode bond).value :=
  writable_node (by decide) (clean_bondingOpts bond)

theorem writable_static (address : Ipv4Addr) (gateway : Option Ipv4Addr) {netmask : Option String}
    (mask : ∀ text ∈ netmask, Clean text) {boot : String} (clean : Clean boot) :
    Writable (⟨"BOOTPROTO", boot⟩ :: ⟨"IPADDR", address.text⟩ ::
      (optionalNode "NETMASK" netmask ++ optionalNode "GATEWAY" (gateway.map (·.text)))) := by
  simp only [writable_cons, writable_append]
  refine ⟨writable_node (by decide) clean, writable_node (by decide) (clean_ipv4 address), ?_,
    writable_optionalNode (by decide) clean_ipv4 _⟩
  cases netmask with
  | none => exact writable_nil
  | some text => exact (writable_cons _ _).mpr ⟨writable_node (by decide) (mask text rfl), writable_nil⟩

theorem clean_masked {text : String} (masked : ∃ length : Ipv4Prefix, ipcalcNetmask machine length.value = .ok text) :
    Clean text :=
  masked.elim fun _ made => clean_ipcalcNetmask made

-- Both stylesheets write the ipv6 protocol in the same way behind the ipv4 one.
theorem writable_protocols {protocolIpv4 : Ipv4 → Except TransformError (List Node)}
    (each : ∀ ipv4 nodes, protocolIpv4 ipv4 = .ok nodes → Writable nodes) {addressing : Addressing}
    (made : (addressing.ipv4.elim (pure []) protocolIpv4).map
      (· ++ (addressing.ipv6.map RedHat.protocolIpv6).getD []) = .ok nodes) : Writable nodes := by
  have later : Writable ((addressing.ipv6.map RedHat.protocolIpv6).getD []) := by
    cases addressing.ipv6 with
    | none => exact writable_nil
    | some ipv6 => exact writable_protocolIpv6 ipv6
  cases ipv4 : addressing.ipv4 with
  | none =>
    rw [ipv4] at made
    cases made
    exact (writable_append _ _).mpr ⟨writable_nil, later⟩
  | some protocol =>
    rw [ipv4, Option.elim_some] at made
    cases first : protocolIpv4 protocol with
    | error e =>
      rw [first] at made
      cases made
    | ok front =>
      rw [first] at made
      cases made
      exact (writable_append _ _).mpr ⟨each _ _ first, later⟩

theorem writable_device {device : String} (clean : Clean device) (rest : Writable nodes) :
    Writable (⟨"DEVICE", device⟩ :: nodes) :=
  (writable_cons _ _).mpr ⟨writable_node (by decide) clean, rest⟩

section RedHat

theorem writable_ipv4 {ipv4 : Ipv4} (made : RedHat.protocolIpv4 machine ipv4 = .ok nodes) : Writable nodes := by
  have boot : Clean "dhcp" ∧ Clean "none" := by simp [Clean]
  cases ipv4 with
  | dhcp peerdns =>
    have answers : ∀ answer : YesNo, Clean answer.text := fun answer => by cases answer <;> simp [Clean, YesNo.text]
    cases made
    exact (writable_cons _ _).mpr ⟨writable_node (by decide) boot.1, writable_optionalNode (by decide) answers _⟩
  | static address prefixLen gateway =>
    rw [RedHat.protocolIpv4_static] at made
    obtain ⟨netmask, rfl, masked⟩ := netmask_written made
    exact writable_static address gateway (fun text inside => clean_masked (masked text inside)) boot.2

theorem writable_addressing {addressing : Addressing}
    (made : RedHat.interfaceAddressing machine addressing = .ok nodes) : Writable nodes := by
  refine @writable_protocols _ (RedHat.protocolIpv4 machine) (fun _ _ first => writable_ipv4 first) addressing ?_
  rw [← made, RedHat.interfaceAddressing]
  cases addressing.ipv4 <;> rfl

theorem writable_shared (common : Common) : Writable (RedHat.shared common) :=
  (writable_append _ _).mpr ⟨writable_startmode _, writable_mtu _⟩

theorem clean_deviceName (link : BareVlan) : Clean link.deviceName := by
  have dot : Clean "." := by simp [Clean]
  simp only [BareVlan.deviceName, clean_append, clean_device, clean_unsigned, dot, and_true]

theorem writable_bareEthernet (common : Common) (nic : BareEthernet) (rest : Writable nodes) :
    Writable (RedHat.bareEthernetInterface common nic nodes).nodes := by
  refine writable_device (clean_device _) ?_
  simp only [writable_append]
  exact ⟨⟨writable_optionalNode (by decide) clean_mac _, writable_shared common⟩, rest⟩

theorem writable_vlan (link : BareVlan) (rest : Writable nodes) :
    Writable (RedHat.vlanInterfaceCommon link nodes).nodes :=
  writable_device (clean_deviceName link)
    ((writable_cons _ _).mpr ⟨writable_node (by decide) (by simp [Clean]), rest⟩)

theorem writable_bondSlaves (common : Common) (team : BareBond) {tree : Tree}
    (member : tree ∈ RedHat.bondSlaves common team) : Writable tree.nodes := by
  obtain ⟨slave, _, rfl⟩ := List.mem_map.mp member
  refine writable_bareEthernet common slave ?_
  exact (writable_cons _ _).mpr ⟨writable_node (by decide) (clean_device _),
    (writable_cons _ _).mpr ⟨writable_node (by decide) (by simp [Clean]), writable_nil⟩⟩

theorem writable_bridgePort (common : Common) (bridge : DeviceName) (port : Port) {tree : Tree}
    (member : tree ∈ RedHat.bridgePort common bridge port) : Writable tree.nodes := by
  have belongs : Writable [⟨"BRIDGE", bridge.text⟩] :=
    (writable_cons _ _).mpr ⟨writable_node (by decide) (clean_device bridge), writable_nil⟩
  cases port with
  | ethernet nic =>
    rw [List.mem_singleton.mp member]
    exact writable_bareEthernet common nic belongs
  | vlan link =>
    rw [List.mem_singleton.mp member]
    exact writable_vlan link ((writable_append _ _).mpr ⟨writable_shared common, belongs⟩)
  | bond team =>
    rcases List.mem_cons.mp member with rfl | slave
    · refine writable_device (clean_device _) ((writable_append _ _).mpr ⟨writable_shared common, ?_⟩)
      exact (writable_cons _ _).mpr ⟨writable_bondingOpts team.bond, belongs⟩
    · exact writable_bondSlaves common team slave

theorem writable_rootTree (document : Interface) (addressing : Writable nodes) :
    Writable (RedHat.rootTree nodes document).nodes := by
  cases document with
  | ethernet common nic => exact writable_bareEthernet common nic addressing
  | vlan common link => exact writable_vlan link ((writable_append _ _).mpr ⟨writable_shared common, addressing⟩)
  | bridge common name hub =>
    have answers : ∀ answer : OnOff, Clean answer.text := fun answer => by cases answer <;> simp [Clean, OnOff.text]
    refine writable_device (clean_device _) ?_
    simp only [writable_cons, writable_append]
    exact ⟨writable_shared common, writable_node (by decide) (by simp [Clean]),
      ⟨addressing, writable_optionalNode (by decide) answers _⟩, writable_optionalNode (by decide) clean_timeval _⟩
  | bond common team =>
    refine writable_device (clean_device _) ?_
    simp only [writable_cons, writable_append]
    exact ⟨⟨writable_shared common, addressing⟩, writable_bondingOpts team.bond, writable_nil⟩

theorem writable_redhat {document : Interface} {forest : Forest} (made : RedHat.get machine document = .ok forest)
    {tree : Tree} (member : tree ∈ forest) : Writable tree.nodes := by
  cases addressed : RedHat.interfaceAddressing machine document.common.addressing with
  | error e =>
    simp only [RedHat.get, addressed] at made
    cases made
  | ok addressing =>
    simp only [RedHat.get, addressed] at made
    cases made
    rcases List.mem_cons.mp member with rfl | member
    · exact writable_rootTree document (writable_addressing addressed)
    · cases document with
      | ethernet common nic => cases member
      | vlan common link => cases member
      | bridge common name hub =>
        obtain ⟨port, _, inside⟩ := List.mem_flatMap.mp member
        exact writable_bridgePort common name port inside
      | bond common team => exact writable_bondSlaves common team member

end RedHat

section Suse

theorem writable_suse_ipv4 {ipv4 : Ipv4} (made : Suse.protocolIpv4 machine ipv4 = .ok nodes) : Writable nodes := by
  have boot : Clean "dhcp" ∧ Clean "static" := by simp [Clean]
  cases ipv4 with
  | dhcp peerdns =>
    cases made
    exact (writable_cons _ _).mpr ⟨writable_node (by decide) boot.1, writable_nil⟩
  | static address prefixLen gateway =>
    rw [Suse.protocolIpv4_static] at made
    obtain ⟨netmask, rfl, masked⟩ := netmask_written made
    exact writable_static address gateway (fun text inside => clean_masked (masked text inside)) boot.2

theorem writable_suse_addressing {addressing : Addressing}
    (made : Suse.interfaceAddressing machine addressing = .ok nodes) : Writable nodes := by
  refine @writable_protocols _ (Suse.protocolIpv4 machine) (fun _ _ first => writable_suse_ipv4 first) addressing ?_
  rw [← made, Suse.interfaceAddressing]
  cases addressing.ipv4 <;> rfl

theorem writable_suse_shared (common : Common) : Writable (Suse.shared common) := by
  have modes : ∀ start, Clean (Suse.startmode start) := fun start => by cases start <;> simp [Clean, Suse.startmode]
  exact (writable_cons _ _).mpr ⟨writable_node (by decide) (modes _), writable_mtu _⟩

theorem writable_suse_ethernet (common : Common) (nic : BareEthernet) (rest : Writable nodes) :
    Writable (Suse.bareEthernetInterface common nic nodes).nodes := by
  refine writable_device (clean_device _) ?_
  simp only [writable_append, writable_cons]
  exact ⟨⟨writable_optionalNode (by decide) clean_mac _, writable_suse_shared common⟩,
    writable_node (by decide) (by simp [Clean]), rest⟩

theorem writable_suse_vlan (link : BareVlan) (rest : Writable nodes) :
    Writable (Suse.vlanInterfaceCommon link nodes).nodes :=
  writable_device (clean_deviceName link)
    ((writable_cons _ _).mpr ⟨writable_node (by decide) (clean_device _), rest⟩)

theorem writable_suse_bondSlaves (common : Common) (team : BareBond) {tree : Tree}
    (member : tree ∈ Suse.bondSlaves common team) : Writable tree.nodes := by
  obtain ⟨slave, _, rfl⟩ := List.mem_map.mp member
  exact writable_suse_ethernet common slave writable_nil

theorem writable_suse_bridgePort (common : Common) (port : Port) {tree : Tree}
    (member : tree ∈ Suse.bridgePort common port) : Writable tree.nodes := by
  cases port with
  | ethernet nic =>
    rw [List.mem_singleton.mp member]
    exact writable_suse_ethernet common nic writable_nil
  | vlan link =>
    rw [List.mem_singleton.mp member]
    exact writable_suse_vlan link (writable_suse_shared common)
  | bond team =>
    rcases List.mem_cons.mp member with rfl | slave
    · refine writable_device (clean_device _) ((writable_append _ _).mpr ⟨writable_suse_shared common, ?_⟩)
      exact (writable_cons _ _).mpr ⟨writable_bondingOpts team.bond, writable_nil⟩
    · exact writable_suse_bondSlaves common team slave

theorem clean_bridgePorts (hub : BridgeElement) : Clean (Suse.bridgePorts hub) := by
  have blank : Clean " " := by simp [Clean]
  refine clean_join fun text listed => ?_
  obtain ⟨port, _, rfl⟩ := List.mem_map.mp listed
  refine (clean_append _ _).mpr ⟨blank, ?_⟩
  cases port.name with
  | none => exact clean_empty
  | some name => exact clean_device name

theorem legal_slave (n : Nat) : keyRe.accepts ("BONDING_SLAVE_" ++ toString n).toList = true := by
  have spelled : ("BONDING_SLAVE_" ++ toString n).toList = 'B' :: ("ONDING_SLAVE_".toList ++ (toString n).toList) := by
    rw [String.toList_append]
    rfl
  have letters : ∀ c ∈ ("BONDING_SLAVE_" ++ toString n).toList, isKeyChar c = true := by
    intro c inside
    rw [String.toList_append, List.mem_append] at inside
    rcases inside with named | numbered
    · exact List.all_eq_true.mp (by decide : ("BONDING_SLAVE_".toList).all isKeyChar = true) c named
    · have listed : c ∈ Nat.toDigits 10 n := by simpa using numbered
      have digit : c.isDigit = true := Nat.isDigit_of_mem_toDigits (by decide) (by decide) listed
      simp [isKeyChar, Char.isAlphanum, digit]
  refine (RegExp.accepts_iff _ _).mpr (RegExp.mem_minus.mpr ⟨RegExp.mem_minus.mpr ⟨?_, ?_⟩, ?_⟩)
  · refine RegExp.mem_seq.mpr ⟨_, RegExp.mem_plus_one ?_ letters, [], .inl rfl, List.append_nil _⟩
    rw [spelled]
    exact List.cons_ne_nil _ _
  · intro taken
    rw [RegExp.mem_text.mp taken] at spelled
    cases spelled
  · intro taken
    rw [RegExp.mem_text.mp taken] at spelled
    cases spelled

theorem writable_slaveNodes (team : BareBond) : Writable (Suse.slaveNodes team) := by
  intro node listed
  obtain ⟨⟨slave, place⟩, _, rfl⟩ := List.mem_map.mp listed
  exact ⟨legal_slave place, clean_device _⟩

theorem writable_suse_rootTree (document : Interface) (addressing : Writable nodes) :
    Writable (Suse.rootTree nodes document).nodes := by
  cases document with
  | ethernet common nic => exact writable_suse_ethernet common nic addressing
  | vlan common link =>
    exact writable_suse_vlan link ((writable_append _ _).mpr ⟨writable_suse_shared common, addressing⟩)
  | bridge common name hub =>
    have answers : ∀ answer : OnOff, Clean answer.text := fun answer => by cases answer <;> simp [Clean, OnOff.text]
    refine writable_device (clean_device _) ?_
    simp only [writable_cons, writable_append]
    exact ⟨writable_suse_shared common, writable_node (by decide) (by simp [Clean]),
      ⟨⟨addressing, writable_optionalNode (by decide) answers _⟩, writable_optionalNode (by decide) clean_timeval _⟩,
      writable_node (by decide) (clean_bridgePorts hub), writable_nil⟩
  | bond common team =>
    refine writable_device (clean_device _) ?_
    simp only [writable_cons, writable_append]
    exact ⟨⟨writable_suse_shared common, addressing⟩, writable_node (by decide) (by simp [Clean]),
      writable_slaveNodes team, writable_bondingOpts team.bond, writable_nil⟩

theorem writable_suse {document : Interface} {forest : Forest} (made : Suse.get machine document = .ok forest)
    {tree : Tree} (member : tree ∈ forest) : Writable tree.nodes := by
  cases addressed : Suse.interfaceAddressing machine document.common.addressing with
  | error e =>
    simp only [Suse.get, addressed] at made
    cases made
  | ok addressing =>
    simp only [Suse.get, addressed] at made
    cases made
    rcases List.mem_cons.mp member with rfl | member
    · exact writable_suse_rootTree document (writable_suse_addressing addressed)
    · cases document with
      | ethernet common nic => cases member
      | vlan common link => cases member
      | bridge common name hub =>
        obtain ⟨port, _, inside⟩ := List.mem_flatMap.mp member
        exact writable_suse_bridgePort common port inside
      | bond common team => exact writable_suse_bondSlaves common team member

end Suse

end Trees

end Netcf.Lenses
