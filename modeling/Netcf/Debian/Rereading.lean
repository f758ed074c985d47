import Netcf.Shared.Lists
import Netcf.Debian.Auto
import Netcf.Debian.RoundTrip

set_option autoImplicit false

-- The stanzas of a forest as they are found again in the tree they were written to.
namespace Netcf.Debian

open Shared Shared.Faulty Shared.Siblings Linux Schema Stylesheet

section Labels

variable {machine : Machine} {document : Interface} {element : Element}

def knownLabels : List String := addressLabels ++ deviceLabels

theorem known_plain : ∀ label ∈ knownLabels, '[' ∉ label.toList ∧ label ≠ "1" := by decide

theorem portStanza_within {port : Port} {stanza : Element} (present : portStanza port = some stanza) :
    Within knownLabels stanza.nodes := by
  obtain ⟨nodes, made, rfl⟩ := Option.map_eq_some_iff.mp present
  have device : Within knownLabels nodes := by
    cases port with
    | ethernet nic => cases made
    | vlan link =>
      cases made
      simp [vlanNodes, knownLabels, deviceLabels]
    | bond team =>
      cases made
      apply (bondNodes_within team.bond).mono
      intro label listed
      simp [knownLabels, deviceLabels, listed]
  simp only [within_cons, device, and_true]
  decide

theorem stanzas_within (member : element ∈ stanzas machine document) : Within knownLabels element.nodes := by
  have addresses : addressLabels ⊆ knownLabels := List.subset_append_left _ _
  have devices : deviceLabels ⊆ knownLabels := List.subset_append_right _ _
  rcases List.mem_cons.mp member with rfl | later
  · have commands : ["pre-up", "post-down"] ⊆ knownLabels := by decide
    simp only [firstStanza, within_append]
    exact ⟨⟨headNodes_within.mono addresses, (miscNodes_within document).mono devices,
      (deviceNodes_within document).mono devices⟩, upNodes_within.mono commands⟩
  · rcases List.mem_append.mp later with other | port
    · obtain ⟨protocol, _, rfl⟩ := List.mem_map.mp other
      exact (nodesOf_within protocol).mono addresses
    · obtain ⟨_, _, present⟩ := List.mem_filterMap.mp port
      exact portStanza_within present

theorem entry_labels (within : Within knownLabels element.nodes) {label : String} :
    ((element.stanza label).entries.map Entry.label).map some = element.nodes.map Node.label := by
  rw [Element.stanza, List.map_map, List.map_map]
  apply List.map_congr_left
  intro node member
  obtain ⟨found, _, named⟩ := within node member
  simp [Node.entry, named]

theorem stanza_values (within : Within knownLabels element.nodes) {label name : String} :
    (element.stanza label).values name = element.values name := by
  rw [Stanza.values, Element.values, labelled, Element.stanza, List.filter_map, List.map_map]
  have same : ∀ node ∈ element.nodes,
      ((fun entry : Entry => decide (entry.label = name)) ∘ Node.entry) node = decide (node.label = some name) := by
    intro node member
    obtain ⟨found, _, named⟩ := within node member
    simp [Node.entry, named]
  rw [List.filter_congr same]
  rfl

-- A stanza is shown as it was written when every label is there once, and only then.
theorem shown_stanza (within : Within knownLabels element.nodes) (distinct : (element.nodes.map Node.label).Nodup)
    (label : String) : shown (element.stanza label) = element.nodes := by
  have once : ((element.stanza label).entries.map Entry.label).Nodup := by
    rwa [← List.nodup_map_iff (Option.some_injective String), entry_labels within]
  rw [shown, numbered_of_nodup once, Element.stanza, List.map_map, List.map_map]
  conv_rhs => rw [← List.map_id element.nodes]
  apply List.map_congr_left
  rintro ⟨own, value⟩ member
  obtain ⟨found, _, named⟩ := within _ member
  cases named
  rfl

theorem nodup_of_shown (within : Within knownLabels element.nodes) {label : String}
    (plain : Within knownLabels (shown (element.stanza label))) : (element.nodes.map Node.label).Nodup := by
  rw [← entry_labels within, List.nodup_map_iff (Option.some_injective String)]
  apply nodup_of_plain
  intro place member
  obtain ⟨found, listed, named⟩ := plain _ (List.mem_map_of_mem member)
  rw [Option.some.inj named]
  exact (known_plain found listed).1

end Labels

section Members

theorem splitOn_words {words : List String} (some_word : words ≠ []) (spaceless : ∀ word ∈ words, ' ' ∉ word.toList) :
    (" ".intercalate words).toList.splitOn ' ' = words.map String.toList := by
  rw [String.toList_intercalate, show " ".toList = [' '] from rfl]
  apply List.splitOn_intercalate ' ' _ (by simpa using some_word)
  intro word member
  obtain ⟨text, listed, rfl⟩ := List.mem_map.mp member
  exact spaceless text listed

theorem splitDevs_words {words : List String} (some_word : words ≠ []) (spaceless : ∀ word ∈ words, ' ' ∉ word.toList) :
    ∀ dev ∈ splitDevs (" ".intercalate words), dev ∈ words := by
  intro dev member
  rw [splitDevs, splitOn_words some_word spaceless] at member
  obtain ⟨chars, inside, rfl⟩ := List.mem_map.mp member
  have kept : chars ∈ words.map String.toList := by
    split at inside
    · exact List.dropLast_subset _ inside
    · exact inside
  obtain ⟨word, listed, rfl⟩ := List.mem_map.mp kept
  rwa [String.ofList_toList]

theorem splitDevs_proper {words : List String} (some_word : words ≠ [])
    (proper : ∀ word ∈ words, ' ' ∉ word.toList ∧ word ≠ "") : splitDevs (" ".intercalate words) = words := by
  have last : ¬ (1 < (words.map String.toList).length ∧ (words.map String.toList).getLast? = some []) := by
    rintro ⟨_, empty⟩
    obtain ⟨word, listed, blank⟩ := List.mem_map.mp (List.mem_of_getLast? empty)
    exact (proper word listed).2 (by simpa using blank)
  rw [splitDevs, splitOn_words some_word fun word listed => (proper word listed).1, if_neg last, List.map_map]
  simp [Function.comp_def]

theorem dependents_proper {words : List String} (some_word : words ≠ [])
    (proper : ∀ word ∈ words, ' ' ∉ word.toList ∧ word ≠ "") (devices : "none" ∉ words) :
    dependents (" ".intercalate words) = words := by
  rw [dependents, if_neg (intercalate_ne_none proper devices), splitDevs_proper some_word proper]

theorem dependents_words {words : List String} (some_word : words ≠ [])
    (spaceless : ∀ word ∈ words, ' ' ∉ word.toList) : ∀ dev ∈ dependents (" ".intercalate words), dev ∈ words := by
  intro dev member
  unfold dependents at member
  split at member
  · cases member
  · exact splitDevs_words some_word spaceless dev member

theorem nameText_spaceless (name : Option DeviceName) : ' ' ∉ (nameText name).toList := by
  cases name with
  | none => simp [nameText]
  | some device => exact (name_word device).1

theorem slaves_dependents (team : BondElement) :
    ∀ dev ∈ dependents (" ".intercalate (team.slaves.map fun slave => slave.name.text)),
      dev ∈ team.names.map nameText := by
  intro dev member
  have words := dependents_words (by simp [BondElement.slaves]) (by
    intro word listed
    obtain ⟨slave, _, rfl⟩ := List.mem_map.mp listed
    exact (name_word slave.name).1) dev member
  rw [BondElement.names, List.map_map]
  exact words

variable {machine : Machine} {document : Interface} {element : Element}

theorem labelled_bondNodes (team : BondElement) {label : String} (listed : label ∈ ["bond_slaves", "bridge_ports"])
    {devs : String} (found : devs ∈ labelled (bondNodes team) label) :
    devs = " ".intercalate (team.slaves.map fun slave => slave.name.text) := by
  rcases List.mem_cons.mp listed with rfl | second
  · have single : labelled (bondNodes team) "bond_slaves" =
        [" ".intercalate (team.slaves.map fun slave => slave.name.text)] := by
      rcases watch : team.monitor with _ | ⟨_, _, _, _⟩ | ⟨_, _, _⟩ <;> simp [bondNodes, monitorNodes, watch]
    rw [single] at found
    exact List.mem_singleton.mp found
  · rw [List.mem_singleton.mp second, (bondNodes_within team).labelled (by decide)] at found
    cases found

theorem bridge_dependents (hub : BridgeElement) {label : String} (listed : label ∈ ["bond_slaves", "bridge_ports"])
    {devs : String} (found : devs ∈ labelled (bridgeNodes hub) label) :
    ∀ dev ∈ dependents devs, dev ∈ hub.ports.map fun port => nameText port.name := by
  intro dev inside
  have value : devs = if hub.ports = [] then "none"
      else " ".intercalate (hub.ports.map fun port => nameText port.name) := by
    rcases List.mem_cons.mp listed with rfl | second
    · simp [bridgeNodes] at found
    · rw [List.mem_singleton.mp second] at found
      simpa [bridgeNodes] using found
  by_cases empty : hub.ports = []
  · rw [value, if_pos empty] at inside
    simp [dependents] at inside
  · rw [value, if_neg empty] at inside
    apply dependents_words (by simpa using empty) _ dev inside
    intro word member
    obtain ⟨port, _, rfl⟩ := List.mem_map.mp member
    exact nameText_spaceless port.name

-- What the driver takes for ports and slaves in the stanzas are members of the document.
theorem stanzas_dependents (member : element ∈ stanzas machine document) {label : String}
    (listed : label ∈ ["bond_slaves", "bridge_ports"]) :
    ∀ devs ∈ element.values label, ∀ dev ∈ dependents devs, dev ∈ document.memberNames.map nameText := by
  have known : label ∈ deviceLabels ∧ label ∉ addressLabels ∧ label ∉ ["hwaddress", "mtu"] ∧
      "family" ≠ label ∧ "method" ≠ label ∧ "vlan_raw_device" ≠ label := by
    revert label
    decide
  obtain ⟨device, notAddress, notMisc, notFamily, notMethod, notRaw⟩ := known
  intro devs found dev inside
  rcases List.mem_cons.mp member with rfl | later
  · have misc : labelled (miscNodes document) label = [] := by
      have within : Within ["hwaddress", "mtu"] (miscNodes document) := by cases document <;> simp [miscNodes]
      exact within.labelled notMisc
    rw [first_device device, labelled_append, misc, List.nil_append] at found
    cases document with
    | ethernet common nic => cases found
    | vlan common link => simp [deviceNodes, vlanNodes, notRaw] at found
    | bridge common name hub =>
      obtain ⟨port, among, rfl⟩ := List.mem_map.mp (bridge_dependents hub listed found dev inside)
      exact List.mem_map_of_mem (List.mem_flatMap.mpr ⟨port, among, List.mem_cons_self⟩)
    | bond common team =>
      rw [labelled_bondNodes team.bond listed found] at inside
      exact slaves_dependents team.bond dev inside
  · rcases List.mem_append.mp later with other | port
    · obtain ⟨protocol, _, rfl⟩ := List.mem_map.mp other
      rw [Element.values, (nodesOf_within protocol).labelled notAddress] at found
      cases found
    · obtain ⟨port, among, present⟩ := List.mem_filterMap.mp port
      cases port with
      | ethernet nic => cases present
      | vlan link =>
        cases present
        simp [Element.values, vlanNodes, notFamily, notMethod, notRaw] at found
      | bond team =>
        cases present
        have slaves : devs ∈ labelled (bondNodes team.bond) label := by
          simpa [Element.values, notFamily, notMethod] using found
        rw [labelled_bondNodes team.bond listed slaves] at inside
        obtain ⟨name, slave, rfl⟩ := List.mem_map.mp (slaves_dependents team.bond dev inside)
        cases document with
        | bridge common root hub =>
          exact List.mem_map_of_mem (List.mem_flatMap.mpr ⟨_, among, List.mem_cons_of_mem _ slave⟩)
        | ethernet _ _ | vlan _ _ | bond _ _ => cases among

end Members

section Tree

variable {machine : Machine} {document : Interface} {interfaces other : Interfaces}

def ifaceElements (forest : Forest) : List Element :=
  forest.flatMap fun tree => (tree.arrays.filter (·.label = "iface")).flatMap (·.elements)

theorem ifaceElements_treeOf : ifaceElements [treeOf machine document] = stanzas machine document := by
  by_cases boot : document.common.start = .onboot <;> simp [ifaceElements, treeOf, autoArray, boot]

theorem treeOf_filled : ∀ tree ∈ [treeOf machine document], ∀ array ∈ tree.arrays, array.Filled := by
  intro tree single array inside
  rw [List.mem_singleton.mp single] at inside
  rcases List.mem_append.mp inside with auto | iface
  · unfold autoArray at auto
    split at auto
    · rw [List.mem_singleton.mp auto]
      simp [StanzaArray.Filled]
    · cases auto
  · rw [List.mem_singleton.mp iface]
    intro element member keyless
    have keyed : element.key.isSome := by
      rcases List.mem_cons.mp member with rfl | later
      · rfl
      · rcases List.mem_append.mp later with second | port
        · obtain ⟨protocol, _, rfl⟩ := List.mem_map.mp second
          rfl
        · obtain ⟨_, _, present⟩ := List.mem_filterMap.mp port
          rw [portStanza_key present]
          rfl
    rw [keyless] at keyed
    cases keyed

def namesOf (document : Interface) : List String :=
  Linux.deviceName document :: document.names.map nameText

def Free (interfaces : Interfaces) (document : Interface) : Prop :=
  ∀ name ∈ namesOf document, configured interfaces name = []

instance : Decidable (Free interfaces document) :=
  inferInstanceAs (Decidable (∀ name ∈ namesOf document, configured interfaces name = []))

def ifaceStanzas (elements : List Element) : Interfaces :=
  elements.map (Element.stanza "iface")

theorem configured_ifaceStanzas (elements : List Element) (name : String) :
    configured (ifaceStanzas elements) name =
      ifaceStanzas (elements.filter fun element => element.key = some name) := by
  rw [configured, ifaceStanzas, List.filter_map]
  rfl

-- Among the stanzas of a tree without the document's names, those of the document are found alone.
theorem configured_stored (free : Free interfaces document) {name : String} (listed : name ∈ namesOf document) :
    configured (interfaces ++ (treeOf machine document).stanzas) name =
      configured (ifaceStanzas (stanzas machine document)) name := by
  have old : interfaces.filter (configures name) = [] := free name listed
  have autos : ((autoArray document).flatMap StanzaArray.stanzas).filter (configures name) = [] := by
    rw [List.filter_eq_nil_iff]
    intro stanza member
    unfold autoArray at member
    split at member
    · simp only [List.flatMap_singleton, StanzaArray.stanzas, List.map_singleton, List.mem_singleton] at member
      simp [configures, member, Element.stanza]
    · cases member
  rw [configured, List.filter_append, old, List.nil_append, Tree.stanzas, treeOf, List.flatMap_append,
    List.filter_append, autos, List.nil_append, List.flatMap_singleton]
  rfl

theorem members_memberNames {label : String} (listed : label ∈ ["bond_slaves", "bridge_ports"]) (name : String) :
    ∀ dev ∈ members (ifaceStanzas (stanzas machine document)) label name, dev ∈ document.memberNames.map nameText := by
  intro dev inside
  obtain ⟨devs, found, among⟩ := List.mem_flatMap.mp inside
  obtain ⟨stanza, member, value⟩ := List.mem_flatMap.mp found
  obtain ⟨element, present, rfl⟩ := List.mem_map.mp (List.mem_of_mem_filter member)
  rw [stanza_values (stanzas_within present)] at value
  exact stanzas_dependents present listed devs value dev among

theorem members_listed {label : String} (listed : label ∈ ["bond_slaves", "bridge_ports"]) (name : String) :
    ∀ dev ∈ members (ifaceStanzas (stanzas machine document)) label name, dev ∈ namesOf document :=
  fun dev inside => List.mem_cons_of_mem _ (List.mem_cons_of_mem _ (members_memberNames listed name dev inside))

theorem bonded_iff {name : String} : bonded interfaces name = true ↔ listed interfaces name "bond_slaves" ≠ [] := by
  simp [bonded, listed]

theorem bridging_iff {name : String} :
    bridging interfaces name = true ↔ listed interfaces name "bridge_ports" ≠ [] := by
  simp [bridging, listed]

-- The ports and slaves of a name depend on its stanzas only.
theorem visited_congr {names : List String} {name : String}
    (same : ∀ name ∈ names, configured interfaces name = configured other name)
    (closed : ∀ label ∈ ["bond_slaves", "bridge_ports"], ∀ name, ∀ dev ∈ members other label name, dev ∈ names)
    (start : name ∈ names) : visited interfaces name = visited other name := by
  have agree : ∀ label, ∀ name ∈ names, members interfaces label name = members other label name := by
    intro label name listed
    rw [members, members, Debian.listed, Debian.listed, same name listed]
  rw [visited, visited, bonded, bonded, bridging, bridging, same name start, agree _ name start, agree _ name start]
  congr 3
  apply List.flatMap_congr
  intro port member
  rw [agree _ port (closed _ (by simp) name port member)]

theorem visited_tail {names : List String} {name : String}
    (closed : ∀ label ∈ ["bond_slaves", "bridge_ports"], ∀ name, ∀ dev ∈ members other label name, dev ∈ names) :
    ∀ dev ∈ (visited other name).tail, dev ∈ names := by
  intro dev later
  rw [visited, List.tail_cons] at later
  split at later
  · exact closed _ (by simp) name dev later
  · split at later
    · obtain ⟨port, among, here⟩ := List.mem_flatMap.mp later
      rcases List.mem_cons.mp here with rfl | slave
      · exact closed _ (by simp) name dev among
      · exact closed _ (by simp) port dev slave
    · cases later

theorem visited_listed {names : List String} {name : String}
    (closed : ∀ label ∈ ["bond_slaves", "bridge_ports"], ∀ name, ∀ dev ∈ members other label name, dev ∈ names)
    (start : name ∈ names) : ∀ dev ∈ visited other name, dev ∈ names := by
  intro dev member
  rcases List.mem_cons.mp member with rfl | later
  · exact start
  · exact visited_tail closed dev later

end Tree

section Reading

variable {machine : Machine} {document : Interface} {interfaces : Interfaces}

def Element.reshown (element : Element) : Element :=
  ⟨element.key, shown (element.stanza "iface")⟩

-- The keys of the stanzas that are met when the names are looked up one after the other.
def lookups (names : List String) (elements : List Element) : List (Option String) :=
  (names.map some).flatMap fun wanted => (elements.map Element.key).filter fun key => key = wanted

theorem reshown_iff {elements : List Element} {names : List String}
    (within : ∀ element ∈ elements, Within knownLabels element.nodes) :
    ((names.map some).flatMap fun wanted => elements.filter fun element => element.key = wanted).map Element.reshown =
        elements ↔
      (∀ element ∈ elements, (element.nodes.map Node.label).Nodup) ∧
        lookups names elements = elements.map Element.key := by
  generalize found : ((names.map some).flatMap fun wanted => elements.filter fun element => element.key = wanted) = met
  have among : ∀ element ∈ met, element ∈ elements := by
    intro element member
    rw [← found] at member
    obtain ⟨_, _, inside⟩ := List.mem_flatMap.mp member
    exact List.mem_of_mem_filter inside
  have plain : ∀ element ∈ elements, (element.nodes.map Node.label).Nodup → element.reshown = element := by
    intro element member distinct
    rw [Element.reshown, shown_stanza (within element member) distinct]
  rw [lookups, ← Lists.lookups_eq_iff, found]
  constructor
  · intro same
    -- What is shown of a stanza of the forest is a stanza of the forest, which shows no positions.
    have once : ∀ element ∈ met, (element.nodes.map Node.label).Nodup := by
      intro element member
      have shownElement : element.reshown ∈ elements := by
        rw [← same]
        exact List.mem_map_of_mem member
      exact nodup_of_shown (within element (among element member)) (within _ shownElement)
    have unchanged : met.map Element.reshown = met := by
      conv_rhs => rw [← List.map_id met]
      apply List.map_congr_left
      intro element member
      exact plain element (among element member) (once element member)
    have all : met = elements := unchanged.symm.trans same
    exact ⟨all ▸ once, all⟩
  · rintro ⟨distinct, rfl⟩
    conv_rhs => rw [← List.map_id met]
    apply List.map_congr_left
    intro element member
    exact plain element member (distinct element member)

theorem readIntf_stored (free : Free interfaces document) {name : String} (listed : name ∈ namesOf document) :
    readIntf (interfaces ++ (treeOf machine document).stanzas) name =
      ((stanzas machine document).filter fun element => element.key = some name).map Element.reshown := by
  rw [readIntf, configured_stored free listed, configured_ifaceStanzas, ifaceStanzas, List.map_map]
  apply List.map_congr_left
  intro element member
  have key : element.key = some name := by simpa using (List.mem_filter.mp member).2
  simp [Element.reshown, key]

theorem reading_stored (free : Free interfaces document) :
    ifaceElements (readForest (interfaces ++ (treeOf machine document).stanzas) (Linux.deviceName document)) =
      (((visited (ifaceStanzas (stanzas machine document)) (Linux.deviceName document)).map some).flatMap fun wanted =>
        (stanzas machine document).filter fun element => element.key = wanted).map Element.reshown := by
  have closed : ∀ label ∈ ["bond_slaves", "bridge_ports"], ∀ name,
      ∀ dev ∈ members (ifaceStanzas (stanzas machine document)) label name, dev ∈ namesOf document :=
    fun label listed name => members_listed listed name
  have start : Linux.deviceName document ∈ namesOf document := List.mem_cons_self
  have array : ∀ interfaces name, ifaceElements (readForest interfaces name) =
      (visited interfaces name).flatMap (readIntf interfaces) := by
    intro interfaces name
    cases auto : hasAuto interfaces <;> simp [ifaceElements, readForest, auto]
  rw [array, visited_congr (fun name listed => configured_stored free listed) closed start, List.flatMap_map,
    List.map_flatMap]
  apply List.flatMap_congr
  intro name member
  exact readIntf_stored free (visited_listed closed start name member)

end Reading

-- With distinct and proper names every stanza is met once, in its place.
section Distinct

variable {machine : Machine} {document : Interface}

theorem lookups_cons (name : String) (names : List String) (elements : List Element) :
    lookups (name :: names) elements =
      (elements.filter fun element => element.key = some name).map Element.key ++ lookups names elements := by
  rw [lookups, List.map_cons, List.flatMap_cons, List.filter_map]
  rfl

theorem lookups_none {names : List String} {elements : List Element}
    (apart : ∀ name ∈ names, ∀ element ∈ elements, element.key ≠ some name) : lookups names elements = [] := by
  rw [lookups, List.flatMap_eq_nil_iff]
  intro wanted member
  obtain ⟨name, listed, rfl⟩ := List.mem_map.mp member
  rw [List.filter_eq_nil_iff]
  intro key found same
  obtain ⟨element, inside, rfl⟩ := List.mem_map.mp found
  exact apart name listed element inside (of_decide_eq_true same)

theorem lookups_flatMap {α : Type} (list : List α) (f : α → List String) (elements : List Element) :
    lookups (list.flatMap f) elements = list.flatMap fun a => lookups (f a) elements := by
  rw [lookups, List.map_flatMap, List.flatMap_assoc]
  rfl

structure ProperNames (document : Interface) : Prop where
  distinct : document.names.Nodup
  named : none ∉ document.names
  proper : ∀ name ∈ document.names, name.map (·.text) ≠ some "none"

theorem ProperNames.root (names : ProperNames document) :
    ∃ device, document.rootName = some device ∧ Linux.deviceName document = device.text := by
  cases document with
  | ethernet common nic => exact ⟨nic.name, rfl, rfl⟩
  | bridge common name hub => exact ⟨name, rfl, rfl⟩
  | bond common team => exact ⟨team.name, rfl, rfl⟩
  | vlan common link =>
    cases present : link.name with
    | none => exact absurd (by simp [Interface.names, Interface.rootName, present]) names.named
    | some device => exact ⟨device, present, by simp [Linux.deviceName, present]⟩

-- A member is not called like the interface itself.
theorem ProperNames.apart (names : ProperNames document) {name : Option DeviceName}
    (member : name ∈ document.memberNames) : nameText name ≠ nameText document.rootName := by
  intro same
  exact (List.nodup_cons.mp names.distinct).1 (nameText_injective same ▸ member)

-- All stanzas are the interface's own.
theorem lookups_single (names : ProperNames document) (alone : document.ports = []) :
    lookups (visited (ifaceStanzas (stanzas machine document)) (Linux.deviceName document)) (stanzas machine document) =
      (stanzas machine document).map Element.key := by
  obtain ⟨device, present, name⟩ := names.root
  have keys : ∀ element ∈ stanzas machine document, element.key = some device.text := by
    intro element member
    have root : element ∈ firstStanza machine document :: otherStanzas machine document := by
      simpa [stanzas, portElements_eq, alone] using member
    rw [root_keys root, present]
    rfl
  have own : ((stanzas machine document).filter fun element => element.key = some device.text) =
      stanzas machine document := by
    rw [List.filter_eq_self]
    intro element member
    simpa using keys element member
  rw [name, visited, lookups_cons, own, lookups_none, List.append_nil]
  intro dev later element member same
  have among : dev ∈ document.memberNames.map nameText :=
    visited_tail (fun label listed name => members_memberNames listed name) dev later
  obtain ⟨found, listed, rfl⟩ := List.mem_map.mp among
  apply names.apart listed
  rw [present]
  exact Option.some.inj (same.symm.trans (keys element member))

section Bridge

variable {common : Common} {name : DeviceName} {hub : BridgeElement}

theorem port_name_mem {port : Port} (listed : port ∈ hub.ports) :
    port.name ∈ (Interface.bridge common name hub).memberNames :=
  List.mem_flatMap.mpr ⟨port, listed, List.mem_cons_self⟩

theorem ProperNames.ports (names : ProperNames (.bridge common name hub)) :
    ∀ port ∈ hub.ports, ∃ device, port.name = some device ∧ nameText port.name = device.text := by
  intro port listed
  cases present : port.name with
  | none => exact absurd (List.mem_cons_of_mem _ (present ▸ port_name_mem listed)) names.named
  | some device => exact ⟨device, rfl, rfl⟩

theorem ProperNames.roots (names : ProperNames (.bridge common name hub)) :
    ((stanzas machine (.bridge common name hub)).filter fun element => element.key = some name.text) =
      firstStanza machine (.bridge common name hub) :: otherStanzas machine (.bridge common name hub) := by
  rw [stanzas, ← List.cons_append, List.filter_append]
  have own : ∀ element ∈ firstStanza machine (.bridge common name hub) :: otherStanzas machine (.bridge common name hub),
      decide (element.key = some name.text) = true := by
    intro element member
    exact decide_eq_true (root_keys member)
  have ports : (portElements (.bridge common name hub)).filter (fun element => element.key = some name.text) = [] := by
    rw [List.filter_eq_nil_iff]
    intro element member same
    obtain ⟨port, listed, present⟩ := List.mem_filterMap.mp member
    have key : some (nameText port.name) = some name.text := by
      rw [← portStanza_key present]
      exact of_decide_eq_true same
    exact names.apart (port_name_mem listed) (Option.some.inj key)
  rw [List.filter_eq_self.mpr own, ports, List.append_nil]

theorem ProperNames.rootValues (names : ProperNames (.bridge common name hub)) {label : String}
    (known : label ∈ ["bond_slaves", "bridge_ports"]) :
    listed (ifaceStanzas (stanzas machine (.bridge common name hub))) name.text label =
      labelled (bridgeNodes hub) label := by
  have apart : label ∈ deviceLabels ∧ label ∉ addressLabels ∧ label ≠ "mtu" := by
    revert label
    decide
  have misc : labelled (miscNodes (.bridge common name hub)) label = [] := by
    simp [miscNodes, apart.2.2.symm]
  have others : (otherStanzas machine (.bridge common name hub)).flatMap (·.values label) = [] := by
    rw [List.flatMap_eq_nil_iff]
    intro element member
    obtain ⟨protocol, _, rfl⟩ := List.mem_map.mp member
    exact (nodesOf_within protocol).labelled apart.2.1
  have values : ∀ element ∈ firstStanza machine (.bridge common name hub) ::
      otherStanzas machine (.bridge common name hub),
      (element.stanza "iface").values label = element.values label := by
    intro element member
    rw [← names.roots] at member
    exact stanza_values (stanzas_within (List.mem_of_mem_filter member))
  rw [listed, configured_ifaceStanzas, names.roots, ifaceStanzas, List.flatMap_map, List.flatMap_congr values,
    List.flatMap_cons, others, List.append_nil, first_device apart.1, labelled_append, misc, List.nil_append]
  rfl

theorem ProperNames.portMembers (names : ProperNames (.bridge common name hub)) :
    members (ifaceStanzas (stanzas machine (.bridge common name hub))) "bridge_ports" name.text =
      hub.ports.map fun port => nameText port.name := by
  have value : labelled (bridgeNodes hub) "bridge_ports" =
      [if hub.ports = [] then "none" else " ".intercalate (hub.ports.map fun port => nameText port.name)] := by
    simp [bridgeNodes]
  rw [members, names.rootValues (by simp), value, List.flatMap_singleton]
  by_cases empty : hub.ports = []
  · simp [empty, dependents]
  · rw [if_neg empty]
    apply dependents_proper (by simpa using empty)
    · intro word member
      obtain ⟨port, inside, rfl⟩ := List.mem_map.mp member
      obtain ⟨device, _, text⟩ := names.ports port inside
      rw [text]
      exact name_word device
    · intro inside
      obtain ⟨port, among, none⟩ := List.mem_map.mp inside
      obtain ⟨device, present, text⟩ := names.ports port among
      apply names.proper _ (List.mem_cons_of_mem _ (port_name_mem among))
      rw [present, Option.map_some, ← text, none]

theorem slaves_members (names : ProperNames (.bridge common name hub)) {port : Port} (among : port ∈ hub.ports) :
    ∀ dev ∈ members (ifaceStanzas (stanzas machine (.bridge common name hub))) "bond_slaves" (nameText port.name),
      dev ∈ port.slaveNames.map nameText := by
  intro dev inside
  obtain ⟨devs, found, dependent⟩ := List.mem_flatMap.mp inside
  rw [listed, configured_ifaceStanzas, own_stanza names.distinct among] at found
  cases port with
  | ethernet nic => cases found
  | vlan link =>
    simp [portStanza, compound, ifaceStanzas, Element.stanza, Stanza.values, vlanNodes, node, Node.entry] at found
  | bond team =>
    have own : bondStanza team ∈ stanzas machine (.bridge common name hub) :=
      List.mem_cons_of_mem _ (List.mem_append_right _ (List.mem_filterMap.mpr ⟨_, among, rfl⟩))
    have single : ifaceStanzas (portStanza (.bond team)).toList = [(bondStanza team).stanza "iface"] := rfl
    rw [single, List.flatMap_singleton, stanza_values (stanzas_within own), bondStanza_values team (by decide)] at found
    rw [labelled_bondNodes team.bond (by simp) found] at dependent
    exact slaves_dependents team.bond dev dependent

-- The slaves of a port have no stanza of their own.
theorem ProperNames.slaveless (names : ProperNames (.bridge common name hub)) {port : Port} (among : port ∈ hub.ports) :
    lookups (members (ifaceStanzas (stanzas machine (.bridge common name hub))) "bond_slaves" (nameText port.name))
      (stanzas machine (.bridge common name hub)) = [] := by
  have disjoint := (List.nodup_append.mp ((List.map_append_flatMap_perm hub.ports Port.name Port.slaveNames).nodup_iff.mpr
    (List.nodup_cons.mp names.distinct).2)).2.2
  apply lookups_none
  intro dev inside element member same
  obtain ⟨slave, belongs, rfl⟩ := List.mem_map.mp (slaves_members names among dev inside)
  have slaves : slave ∈ hub.ports.flatMap Port.slaveNames := List.mem_flatMap.mpr ⟨port, among, belongs⟩
  rw [stanzas, ← List.cons_append] at member
  rcases List.mem_append.mp member with root | other
  · rw [root_keys root] at same
    exact names.apart (List.mem_flatMap.mpr ⟨port, among, List.mem_cons_of_mem _ belongs⟩) (Option.some.inj same).symm
  · obtain ⟨second, listed, present⟩ := List.mem_filterMap.mp other
    rw [portStanza_key present] at same
    exact disjoint second.name (List.mem_map_of_mem listed) slave slaves
      (nameText_injective (Option.some.inj same))

theorem lookups_bridge (names : ProperNames (.bridge common name hub)) :
    lookups (visited (ifaceStanzas (stanzas machine (.bridge common name hub))) name.text)
        (stanzas machine (.bridge common name hub)) =
      (stanzas machine (.bridge common name hub)).map Element.key := by
  have slaves : bonded (ifaceStanzas (stanzas machine (.bridge common name hub))) name.text = false := by
    rw [Bool.eq_false_iff, ne_eq, bonded_iff, names.rootValues (by simp)]
    simp [bridgeNodes]
  have ports : bridging (ifaceStanzas (stanzas machine (.bridge common name hub))) name.text = true := by
    rw [bridging_iff, names.rootValues (by simp)]
    simp [bridgeNodes]
  have each : ∀ port ∈ hub.ports,
      lookups (nameText port.name ::
          members (ifaceStanzas (stanzas machine (.bridge common name hub))) "bond_slaves" (nameText port.name))
        (stanzas machine (.bridge common name hub)) = (portStanza port).toList.map Element.key := by
    intro port among
    rw [lookups_cons, own_stanza names.distinct among, names.slaveless among, List.append_nil]
  rw [visited, slaves, ports, if_neg Bool.false_ne_true, if_pos rfl, lookups_cons, names.roots, names.portMembers,
    List.flatMap_map, lookups_flatMap, List.flatMap_congr each, ← List.map_flatMap, ← List.map_append,
    ← List.filterMap_eq_flatMap_toList]
  rfl

end Bridge

theorem lookups_proper (names : ProperNames document) :
    lookups (visited (ifaceStanzas (stanzas machine document)) (Linux.deviceName document)) (stanzas machine document) =
      (stanzas machine document).map Element.key := by
  cases document with
  | bridge common name hub => exact lookups_bridge names
  | ethernet common nic => exact lookups_single names rfl
  | vlan common link => exact lookups_single names rfl
  | bond common team => exact lookups_single names rfl

end Distinct

section Storing

variable {machine : Machine} {document : Interface} {forest : Forest}

-- The names aug_get_xml asks for meet the stanzas each once and in their order.
def MetInOrder (document : Interface) (forest : Forest) : Prop :=
  lookups (visited (ifaceStanzas (ifaceElements forest)) (Linux.deviceName document)) (ifaceElements forest) =
    (ifaceElements forest).map Element.key

instance : Decidable (MetInOrder document forest) :=
  inferInstanceAs (Decidable (_ = _))

variable {D : Type} {augeas : Augeas Interfaces D} {disk : D} {tables : List (Option Entries)}
  {files : Files Interfaces}

theorem stored_forest_reads_back_iff (transforms : get machine document = .ok forest)
    (free : Free files.config document) :
    (Yields disk tables files (do augPutXml augeas forest; augGetXml augeas ⟨Linux.deviceName document⟩)
        (fun found after => ∃ stored, Loaded disk tables after stored ∧
          (ifaceElements found = ifaceElements forest ∧ files.config <+: stored.config)) ↔
      (∀ element ∈ ifaceElements forest, (element.nodes.map Node.label).Nodup) ∧ MetInOrder document forest) ∧
      (ProperNames document → MetInOrder document forest) := by
  rw [get_forest transforms, MetInOrder, ifaceElements_treeOf]
  refine ⟨?_, lookups_proper⟩
  rw [yields_then (implements_augPutXml treeOf_filled) rfl (answers_augGetXml (Linux.deviceName document))]
  have appended : files.config <+: files.config ++ [treeOf machine document].flatMap Tree.stanzas :=
    List.prefix_append _ _
  rw [and_iff_left appended, List.flatMap_singleton, reading_stored free]
  exact reshown_iff fun element member => stanzas_within member

theorem properNames_officeBridge (common : Common) : ProperNames (officeBridge common) where
  distinct := by
    change (officeBridge unaddressed).names.Nodup
    decide +kernel
  named := by
    change none ∉ (officeBridge unaddressed).names
    decide +kernel
  proper := by
    change ∀ name ∈ (officeBridge unaddressed).names, name.map (·.text) ≠ some "none"
    decide +kernel

theorem stored_forest_reads_back_iff_officeBridge :
    Yields () [] ⟨[auto ["eth7"], dhcp "eth7"], [], []⟩
      (do augPutXml (holding ⟨[], [], []⟩) [treeOf countModulo (officeBridge unaddressed)]
          augGetXml (holding ⟨[], [], []⟩) ⟨"br0"⟩)
      (fun found after => ∃ stored, Loaded () [] after stored ∧
        (ifaceElements found = ifaceElements [treeOf countModulo (officeBridge unaddressed)] ∧
          [auto ["eth7"], dhcp "eth7"] <+: stored.config)) := by
  have outcome := @stored_forest_reads_back_iff countModulo (officeBridge unaddressed) _ Unit (holding ⟨[], [], []⟩)
    () [] ⟨[auto ["eth7"], dhcp "eth7"], [], []⟩ (get_ok (by decide)) (by decide +kernel)
  exact outcome.1.mpr ⟨by decide +kernel, outcome.2 (properNames_officeBridge unaddressed)⟩

-- The commands for the vlan and for the bond are both pre-up nodes, and come back with their positions.
theorem commands_come_back_numbered :
    get countModulo (officeBridge (static networkPrefix)) = .ok [treeOf countModulo (officeBridge (static networkPrefix))] ∧
      Free [auto ["eth7"], dhcp "eth7"] (officeBridge (static networkPrefix)) ∧
      ¬ Yields () [] ⟨[auto ["eth7"], dhcp "eth7"], [], []⟩
        (do augPutXml (holding ⟨[], [], []⟩) [treeOf countModulo (officeBridge (static networkPrefix))]
            augGetXml (holding ⟨[], [], []⟩) ⟨"br0"⟩)
        (fun found after => ∃ stored, Loaded () [] after stored ∧
          (ifaceElements found = ifaceElements [treeOf countModulo (officeBridge (static networkPrefix))] ∧
            [auto ["eth7"], dhcp "eth7"] <+: stored.config)) := by
  refine ⟨get_ok (by decide), by decide +kernel, ?_⟩
  rw [yields_then (implements_augPutXml treeOf_filled) rfl (answers_augGetXml _)]
  decide +kernel

end Storing

end Netcf.Debian
