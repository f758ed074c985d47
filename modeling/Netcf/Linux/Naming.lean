import Netcf.Linux.Define

set_option autoImplicit false

-- device_name_from_xml and what rm_all_interfaces finds afterwards, on the document itself.
namespace Netcf.Linux

open Shared Schema

namespace Dom

-- The elements at the end of a path /STEP/STEP/..., in document order.
def elementsAt (path : List String) (doc : Xml) : List Xml :=
  match path with
  | [] => []
  | root :: steps =>
    steps.foldl (fun found step => found.flatMap fun node => node.children.filter (·.tag = step))
      ([doc].filter (·.tag = root))

def xmlGetProp (node : Xml) (name : String) : Option String :=
  match node with
  | .element _ attributes _ => Xml.getProp attributes name

-- The string value of PATH/@NAME is that of the first such attribute.
def string (path : List String) (name : String) (doc : Xml) : String :=
  ((elementsAt path doc).filterMap (xmlGetProp · name)).head?.getD ""

-- A null pointer makes an attribute without text.
def xmlSetProp (name : String) (value : Option String) : Xml → Xml
  | .element tag attributes children => .element tag (Xml.setProp name (value.getD "") attributes) children

@[simp] theorem tag_xmlSetProp (name : String) (value : Option String) (node : Xml) :
    (xmlSetProp name value node).tag = node.tag := by
  cases node
  rfl

@[simp] theorem children_xmlSetProp (name : String) (value : Option String) (node : Xml) :
    (xmlSetProp name value node).children = node.children := by
  cases node
  rfl

@[simp] theorem xmlGetProp_xmlSetProp (name : String) (value : Option String) (node : Xml) :
    xmlGetProp (xmlSetProp name value node) name = some (value.getD "") := by
  cases node
  exact Xml.getProp_setProp name _ _

-- The name that is made up goes into `result` only after the attribute has been set from it.
def deviceNameFromXml (doc : Xml) : Option String × Xml :=
  let result : Option String := none
  let name := string ["interface"] "name" doc
  if name = "" then
    let constructed := string ["interface", "vlan", "interface"] "name" doc ++ "." ++
      string ["interface", "vlan"] "tag" doc
    if constructed = "" then (result, doc)
    else (some constructed, xmlSetProp "name" result doc)
  else (some name, doc)

mutual

-- The names of the interface elements whose parent is wanted, in document order.
def interfaceNames (wanted : Option String → Bool) (parent : Option String) : Xml → List (Option String)
  | .element tag attributes children =>
    (if tag = "interface" ∧ wanted parent = true then [Xml.getProp attributes "name"] else []) ++
      childrenNames wanted (some tag) children

def childrenNames (wanted : Option String → Bool) (parent : Option String) : List Xml → List (Option String)
  | [] => []
  | child :: rest => interfaceNames wanted parent child ++ childrenNames wanted parent rest

end

-- //interface[count(parent::vlan) = 0]
def outsideVlan (parent : Option String) : Bool :=
  parent ≠ some "vlan"

-- //interface
def anywhere (_ : Option String) : Bool :=
  true

end Dom

section Tags

theorem addressing_tags (addressing : Addressing) : ∀ node ∈ addressing.toXml, node.tag = "protocol" := by
  have ipv4 : ∀ ipv4 : Ipv4, ipv4.toXml.tag = "protocol" := by
    rintro (_ | _) <;> rfl
  intro node member
  rcases addressing with ⟨_ | first, _ | second⟩ | ⟨_ | first, _ | second⟩ <;>
    simp [Addressing.toXml] at member
  case ipv4First.none.some | ipv6First.some.none => rw [member]; rfl
  case ipv4First.some.none | ipv6First.none.some => rw [member]; exact ipv4 _
  all_goals rcases member with rfl | rfl
  all_goals first | rfl | exact ipv4 _

-- Of the children of an element that is written for a document, those in front of the device are no vlans.
theorem common_tags (common : Common) :
    ∀ node ∈ common.startElement :: (common.mtuElement ++ common.addressing.toXml), node.tag ≠ "vlan" := by
  intro node member
  rcases List.mem_cons.mp member with rfl | later
  · simp [Common.startElement, Xml.tag]
  · rcases List.mem_append.mp later with size | protocol
    · cases mtu : common.mtu <;> simp [Common.mtuElement, mtu] at size
      rw [size]
      simp [Xml.tag]
    · rw [addressing_tags _ node protocol]
      decide

end Tags

section Names

theorem tag_toXml (document : Interface) : document.toXml.tag = "interface" := by
  cases document <;> rfl

theorem xmlGetProp_name (document : Interface) :
    Dom.xmlGetProp document.toXml "name" = document.rootName.map (·.text) := by
  cases document with
  | vlan common link =>
    cases named : link.name <;>
      simp [Interface.toXml, Interface.element, Dom.xmlGetProp, Xml.getProp, Interface.rootName, BareVlan.attributes,
        Xml.optional, named]
  | ethernet _ _ | bridge _ _ _ | bond _ _ =>
    simp [Interface.toXml, Interface.element, Dom.xmlGetProp, Xml.getProp, Interface.rootName, BareBond.attributes]

theorem string_root (document : Interface) :
    Dom.string ["interface"] "name" document.toXml = (document.rootName.map (·.text)).getD "" := by
  rw [← xmlGetProp_name]
  cases named : Dom.xmlGetProp document.toXml "name" <;> simp [Dom.string, Dom.elementsAt, tag_toXml, named]

theorem elementsAt_vlan (common : Common) (link : BareVlan) :
    Dom.elementsAt ["interface", "vlan"] (Interface.vlan common link).toXml = [link.device] := by
  have before : (common.startElement :: (common.mtuElement ++ common.addressing.toXml)).filter (·.tag = "vlan") = [] := by
    rw [List.filter_eq_nil_iff]
    intro node member
    simpa using common_tags common node member
  have children : (Interface.vlan common link).toXml.children =
      (common.startElement :: (common.mtuElement ++ common.addressing.toXml)) ++ [link.device] := rfl
  have own : ([link.device]).filter (·.tag = "vlan") = [link.device] := rfl
  have root : ([(Interface.vlan common link).toXml]).filter (·.tag = "interface") =
      [(Interface.vlan common link).toXml] := rfl
  rw [Dom.elementsAt, root, List.foldl_cons, List.foldl_nil, List.flatMap_singleton, children, List.filter_append,
    before, own, List.nil_append]

theorem string_vlan (common : Common) (link : BareVlan) :
    Dom.string ["interface", "vlan"] "tag" (Interface.vlan common link).toXml = link.tag.text := by
  rw [Dom.string, elementsAt_vlan]
  rfl

theorem string_base (common : Common) (link : BareVlan) :
    Dom.string ["interface", "vlan", "interface"] "name" (Interface.vlan common link).toXml = link.base.text := by
  have longer : Dom.elementsAt ["interface", "vlan", "interface"] (Interface.vlan common link).toXml =
      (Dom.elementsAt ["interface", "vlan"] (Interface.vlan common link).toXml).flatMap fun node =>
        node.children.filter (·.tag = "interface") := rfl
  rw [Dom.string, longer, elementsAt_vlan]
  rfl

theorem text_ne_empty (name : DeviceName) : name.text ≠ "" := by
  intro empty
  exact name.nonempty (by decide) (by simp [empty])

theorem deviceName_named {document : Interface} {name : DeviceName} (named : document.rootName = some name) :
    deviceName document = name.text := by
  cases document with
  | vlan common link =>
    have own : link.name = some name := named
    simp [deviceName, own]
  | ethernet _ _ | bridge _ _ _ | bond _ _ =>
    cases named
    rfl

theorem deviceName_ne_empty (document : Interface) : deviceName document ≠ "" := by
  cases named : document.rootName with
  | some name =>
    rw [deviceName_named named]
    exact text_ne_empty name
  | none =>
    cases document with
    | vlan common link =>
      have own : link.name = none := named
      simp [deviceName, own, BareVlan.deviceName]
    | ethernet _ _ | bridge _ _ _ | bond _ _ => cases named

-- The typed name of the driver's model, and the attribute that the code leaves in the document.
theorem deviceNameFromXml_eq (document : Interface) :
    Dom.deviceNameFromXml document.toXml =
      (some (deviceName document),
        if document.rootName.isSome then document.toXml else Dom.xmlSetProp "name" none document.toXml) := by
  cases named : document.rootName with
  | some name =>
    have present : Dom.string ["interface"] "name" document.toXml = name.text := by
      rw [string_root, named]
      rfl
    simp [Dom.deviceNameFromXml, present, text_ne_empty name, deviceName_named named]
  | none =>
    cases document with
    | vlan common link =>
      have own : link.name = none := named
      have missing : Dom.string ["interface"] "name" (Interface.vlan common link).toXml = "" := by
        rw [string_root, named]
        rfl
      have constructed : deviceName (.vlan common link) = link.base.text ++ "." ++ link.tag.text := by
        simp [deviceName, own, BareVlan.deviceName]
      have filled := deviceName_ne_empty (.vlan common link)
      rw [constructed] at filled
      simp only [Dom.deviceNameFromXml, missing, if_true, string_base, string_vlan, if_neg filled, constructed]
      rfl
    | ethernet _ _ | bridge _ _ _ | bond _ _ => cases named

theorem document_afterwards (document : Interface) :
    (Dom.deviceNameFromXml document.toXml).2.tag = "interface" ∧
      (Dom.deviceNameFromXml document.toXml).2.children = document.toXml.children := by
  rw [deviceNameFromXml_eq]
  cases document.rootName <;> simp [tag_toXml]

theorem name_afterwards (document : Interface) :
    Dom.xmlGetProp (Dom.deviceNameFromXml document.toXml).2 "name" =
      some ((document.rootName.map (·.text)).getD "") := by
  rw [deviceNameFromXml_eq]
  cases named : document.rootName with
  | some name => simp [xmlGetProp_name, named]
  | none => simp

end Names

namespace Dom

variable {wanted : Option String → Bool} {parent : Option String}

theorem interfaceNames_eq (node : Xml) :
    interfaceNames wanted parent node =
      (if node.tag = "interface" ∧ wanted parent = true then [xmlGetProp node "name"] else []) ++
        childrenNames wanted (some node.tag) node.children := by
  cases node
  rw [interfaceNames]
  rfl

theorem childrenNames_eq (nodes : List Xml) :
    childrenNames wanted parent nodes = nodes.flatMap (interfaceNames wanted parent) := by
  induction nodes with
  | nil => rw [childrenNames, List.flatMap_nil]
  | cons node rest ih => rw [childrenNames, ih, List.flatMap_cons]

def Nameless (node : Xml) : Prop :=
  ∀ wanted parent, interfaceNames wanted parent node = []

theorem nameless_element {tag : String} {attributes : List (String × String)} {children : List Xml}
    (other : tag ≠ "interface") (inside : ∀ child ∈ children, Nameless child) :
    Nameless (.element tag attributes children) := by
  intro wanted parent
  have below : children.flatMap (interfaceNames wanted (some tag)) = [] :=
    List.flatMap_eq_nil_iff.mpr fun child member => inside child member wanted (some tag)
  rw [interfaceNames_eq, childrenNames_eq]
  simp [Xml.tag, Xml.children, other, below]

theorem nameless_leaf {tag : String} {attributes : List (String × String)} (other : tag ≠ "interface") :
    Nameless (.element tag attributes []) :=
  nameless_element other fun _ member => absurd member List.not_mem_nil

theorem nameless_route (gateway : Option String) : ∀ node ∈ routeElement gateway, Nameless node := by
  intro node member
  cases gateway <;> simp [routeElement] at member
  rw [member]
  exact nameless_leaf (by decide)

theorem nameless_ip (address : String) (prefixLen : Option String) : Nameless (ipElement address prefixLen) :=
  nameless_leaf (by decide)

theorem nameless_ipv4 (ipv4 : Ipv4) : Nameless ipv4.toXml := by
  cases ipv4 with
  | dhcp peerdns =>
    refine nameless_element (by decide) ?_
    intro node member
    rw [List.mem_singleton.mp member]
    exact nameless_leaf (by decide)
  | static address prefixLen gateway =>
    refine nameless_element (by decide) ?_
    intro node member
    rcases List.mem_cons.mp member with rfl | route
    · exact nameless_ip _ _
    · exact nameless_route _ node route

theorem nameless_ipv6 (ipv6 : Ipv6) : Nameless ipv6.toXml := by
  refine nameless_element (by decide) ?_
  intro node member
  simp only [List.mem_append, or_assoc] at member
  rcases member with autoconf | dhcp | ip | route
  · split at autoconf
    · rw [List.mem_singleton.mp autoconf]
      exact nameless_leaf (by decide)
    · exact absurd autoconf List.not_mem_nil
  · obtain ⟨peerdns, _, rfl⟩ := Option.map_eq_some_iff.mp (Option.mem_toList.mp dhcp)
    exact nameless_leaf (by decide)
  · obtain ⟨_, _, rfl⟩ := List.mem_map.mp ip
    exact nameless_ip _ _
  · exact nameless_route _ node route

theorem nameless_addressing (addressing : Addressing) : ∀ node ∈ addressing.toXml, Nameless node := by
  intro node member
  have first : ∀ ipv4 : Option Ipv4, node ∈ (ipv4.map Ipv4.toXml).toList → Nameless node := by
    intro ipv4 listed
    obtain ⟨_, _, rfl⟩ := Option.map_eq_some_iff.mp (Option.mem_toList.mp listed)
    exact nameless_ipv4 _
  have second : ∀ ipv6 : Option Ipv6, node ∈ (ipv6.map Ipv6.toXml).toList → Nameless node := by
    intro ipv6 listed
    obtain ⟨_, _, rfl⟩ := Option.map_eq_some_iff.mp (Option.mem_toList.mp listed)
    exact nameless_ipv6 _
  cases addressing with
  | ipv4First ipv4 ipv6 => exact (List.mem_append.mp member).elim (first ipv4) (second ipv6)
  | ipv6First ipv6 ipv4 => exact (List.mem_append.mp member).elim (second ipv6) (first ipv4)

theorem nameless_start (common : Common) : Nameless common.startElement :=
  nameless_leaf (by decide)

theorem nameless_mtu (common : Common) : ∀ node ∈ common.mtuElement, Nameless node := by
  intro node member
  cases mtu : common.mtu <;> simp [Common.mtuElement, mtu] at member
  rw [member]
  exact nameless_leaf (by decide)

theorem nameless_mac (nic : BareEthernet) : ∀ node ∈ nic.content, Nameless node := by
  intro node member
  cases mac : nic.mac <;> simp [BareEthernet.content, mac] at member
  rw [member]
  exact nameless_leaf (by decide)

theorem nameless_monitor (monitor : Monitor) : Nameless monitor.toXml := by
  cases monitor <;> exact nameless_leaf (by decide)

theorem childrenNames_nameless {nodes : List Xml} (nameless : ∀ node ∈ nodes, Nameless node) :
    childrenNames wanted parent nodes = [] := by
  rw [childrenNames_eq, List.flatMap_eq_nil_iff]
  exact fun node member => nameless node member wanted parent

theorem childrenNames_append (front back : List Xml) :
    childrenNames wanted parent (front ++ back) =
      childrenNames wanted parent front ++ childrenNames wanted parent back := by
  simp [childrenNames_eq]

theorem childrenNames_single (node : Xml) :
    childrenNames wanted parent [node] = interfaceNames wanted parent node := by
  simp [childrenNames_eq]

-- What stands in front of the device in an element for a document.
theorem childrenNames_common (common : Common) (rest : List Xml) :
    childrenNames wanted parent (common.startElement :: (common.mtuElement ++ common.addressing.toXml ++ rest)) =
      childrenNames wanted parent rest := by
  have front : childrenNames wanted parent
      (common.startElement :: (common.mtuElement ++ common.addressing.toXml)) = [] := by
    apply childrenNames_nameless
    intro node member
    rcases List.mem_cons.mp member with rfl | later
    · exact nameless_start common
    · rcases List.mem_append.mp later with size | protocol
      · exact nameless_mtu common node size
      · exact nameless_addressing _ node protocol
  rw [← List.cons_append, childrenNames_append, front, List.nil_append]

section Devices

-- Only the elements below vlan may be left out.
variable (wide : ∀ parent, parent ≠ some "vlan" → wanted parent = true)

def baseNames (wanted : Option String → Bool) (link : BareVlan) : List (Option String) :=
  if wanted (some "vlan") = true then [some link.base.text] else []

def slaveNames (bond : BondElement) : List (Option String) :=
  bond.slaves.map fun slave => some slave.name.text

def portNames (wanted : Option String → Bool) : Port → List (Option String)
  | .ethernet nic => [some nic.name.text]
  | .vlan link => link.name.map (·.text) :: baseNames wanted link
  | .bond team => some team.name.text :: slaveNames team.bond

def memberNames (wanted : Option String → Bool) : Interface → List (Option String)
  | .ethernet _ _ => []
  | .vlan _ link => baseNames wanted link
  | .bridge _ _ hub => hub.ports.flatMap (portNames wanted)
  | .bond _ team => slaveNames team.bond

theorem interfaceNames_vlan (link : BareVlan) :
    interfaceNames wanted parent link.device = baseNames wanted link := by
  simp [BareVlan.device, interfaceNames, childrenNames, baseNames, Xml.getProp]

include wide

theorem interfaceNames_ethernet (nic : BareEthernet) (outside : parent ≠ some "vlan") :
    interfaceNames wanted parent nic.toXml = [some nic.name.text] := by
  have inside : childrenNames wanted (some "interface") nic.content = [] := childrenNames_nameless (nameless_mac nic)
  simp [BareEthernet.toXml, interfaceNames, inside, wide parent outside, Xml.getProp]

theorem interfaceNames_bond (bond : BondElement) :
    interfaceNames wanted parent bond.toXml = slaveNames bond := by
  have monitor : childrenNames wanted (some "bond") (bond.monitor.map Monitor.toXml).toList = [] := by
    apply childrenNames_nameless
    intro node member
    obtain ⟨found, _, rfl⟩ := Option.map_eq_some_iff.mp (Option.mem_toList.mp member)
    exact nameless_monitor found
  have slaves : childrenNames wanted (some "bond") (bond.slaves.map BareEthernet.toXml) = slaveNames bond := by
    have each : ∀ slave ∈ bond.slaves, interfaceNames wanted (some "bond") slave.toXml = [some slave.name.text] :=
      fun slave _ => interfaceNames_ethernet wide slave (by decide)
    rw [childrenNames_eq, List.flatMap_map, List.flatMap_congr each, ← List.map_eq_flatMap, slaveNames]
  simp [BondElement.toXml, interfaceNames, childrenNames_append, monitor, slaves]

theorem interfaceNames_port (port : Port) (outside : parent ≠ some "vlan") :
    interfaceNames wanted parent port.toXml = portNames wanted port := by
  cases port with
  | ethernet nic => exact interfaceNames_ethernet wide nic outside
  | vlan link =>
    have own : Xml.getProp link.attributes "name" = link.name.map (·.text) := by
      cases named : link.name <;> simp [BareVlan.attributes, Xml.optional, named, Xml.getProp]
    simp [Port.toXml, BareVlan.toXml, interfaceNames, childrenNames_single, interfaceNames_vlan, portNames, own,
      wide parent outside]
  | bond team =>
    simp [Port.toXml, BareBond.toXml, BareBond.attributes, interfaceNames, childrenNames_single,
      interfaceNames_bond wide, portNames, wide parent outside, Xml.getProp]

theorem interfaceNames_bridge (hub : BridgeElement) :
    interfaceNames wanted parent hub.toXml = hub.ports.flatMap (portNames wanted) := by
  have each : ∀ port ∈ hub.ports, interfaceNames wanted (some "bridge") port.toXml = portNames wanted port :=
    fun port _ => interfaceNames_port wide port (by decide)
  simp [BridgeElement.toXml, interfaceNames, childrenNames_eq, List.flatMap_map, List.flatMap_congr each]

theorem interfaceNames_document (document : Interface) :
    interfaceNames wanted none (deviceNameFromXml document.toXml).2 =
      some ((document.rootName.map (·.text)).getD "") :: memberNames wanted document := by
  obtain ⟨root, same⟩ := document_afterwards document
  have top : wanted none = true := wide none (by decide)
  rw [interfaceNames_eq, if_pos ⟨root, top⟩, name_afterwards, root, same, List.singleton_append]
  congr 1
  cases document with
  | ethernet common nic =>
    have inside : ∀ node ∈ common.startElement :: (nic.content ++ common.mtuElement ++ common.addressing.toXml),
        Nameless node := by
      intro node member
      simp only [List.mem_cons, List.mem_append, or_assoc] at member
      rcases member with rfl | mac | size | protocol
      · exact nameless_start common
      · exact nameless_mac nic node mac
      · exact nameless_mtu common node size
      · exact nameless_addressing _ node protocol
    exact childrenNames_nameless inside
  | vlan common link =>
    exact (childrenNames_common common _).trans ((childrenNames_single _).trans (interfaceNames_vlan link))
  | bridge common name hub =>
    exact (childrenNames_common common _).trans ((childrenNames_single _).trans (interfaceNames_bridge wide hub))
  | bond common team =>
    exact (childrenNames_common common _).trans ((childrenNames_single _).trans (interfaceNames_bond wide team.bond))

end Devices

end Dom

-- The typed list of the driver's model is what rm_all_interfaces finds in the document.
theorem nameAttributes_eq (document : Interface) :
    Dom.interfaceNames Dom.outsideVlan none (Dom.deviceNameFromXml document.toXml).2 = nameAttributes document := by
  have wide : ∀ parent, parent ≠ some "vlan" → Dom.outsideVlan parent = true := by
    intro parent outside
    simpa [Dom.outsideVlan] using outside
  have base : ∀ link, Dom.baseNames Dom.outsideVlan link = [] := fun _ => rfl
  have ports : ∀ port : Port, Dom.portNames Dom.outsideVlan port = port.names.map (·.map (·.text)) := by
    intro port
    cases port <;> simp [Dom.portNames, base, Port.names, Port.name, Port.slaveNames, Dom.slaveNames, BondElement.names]
  rw [Dom.interfaceNames_document wide, nameAttributes]
  congr 1
  cases document with
  | ethernet _ _ => rfl
  | vlan _ link => exact base link
  | bridge _ _ hub =>
    simp only [Dom.memberNames, Interface.memberNames, List.map_flatMap]
    exact List.flatMap_congr fun port _ => ports port
  | bond _ team => simp [Dom.memberNames, Interface.memberNames, Dom.slaveNames, BondElement.names]

end Netcf.Linux
