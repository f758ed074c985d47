import Netcf.Debian.Rereading

set_option autoImplicit false

-- What drv_undefine leaves of what drv_define has written.
namespace Netcf.Debian

open Shared.Faulty Linux Schema Stylesheet

section BondSetup

variable {D : Type} {augeas : Augeas Interfaces D} {disk : D} {tables : List (Option Entries)} {adding : Bool}

def targets (interfaces : Interfaces) (name : String) : List String :=
  (name :: if bridging interfaces name then members interfaces "bridge_ports" name else []).filter (bonded interfaces)

def portsModel (name : String) : StateT (Files Interfaces) (Except Errcode) (List String) :=
  ask fun files => members files.config "bridge_ports" name

theorem implements_bondSetup (machine : Machine) (name : String) (adding : Bool) :
    Implements (Quiet disk tables) Calm (bondSetup augeas (backend machine) name adding)
      (bondSetupModel bonded bridging (portsModel name) name adding) :=
  Linux.implements_bondSetup (fun _ => implements_augFmtMatch _) (implements_augFmtMatch _)
    (toQuiet (implements_of_answers fun _ => answers_interfaceDeps "bridge_ports" name)) adding

theorem bondSetupModel_eq {name : String} {files : Files Interfaces} :
    bondSetupModel bonded bridging (portsModel name) name adding files =
      (targets files.config name).forM (setupModel adding) files := by
  apply bondSetup_targets
  intro _ after same
  rw [← same]
  rfl

end BondSetup

-- The stanza is one of those that rm_interface removes for some of the names.
def owned (names : List String) (stanza : Stanza) : Bool :=
  names.any fun name => leads name stanza || configures name stanza

theorem rmModel_ok (names : List String) (files : Files Interfaces) :
    (names.map some).forM (rmModel fun name => edit (removeInterface name)) files =
      .ok ((), { files with config := without (owned names) files.config }) := by
  induction names generalizing files with
  | nil =>
    have same : without (owned []) files.config = files.config := List.filter_eq_self.mpr fun _ _ => rfl
    rw [same]
    rfl
  | cons name rest ih =>
    have first : rmModel (fun name => edit (removeInterface name)) (some name) files =
        .ok ((), { files with config := removeInterface name files.config }) := rfl
    rw [List.map_cons, model_forM_cons, model_bind_of_ok _ first, ih]
    have both : without (owned rest) (removeInterface name files.config) =
        without (owned (name :: rest)) files.config := by
      simp only [without, removeInterface, List.filter_filter]
      apply List.filter_congr
      intro stanza _
      simp only [owned, List.any_cons, Bool.not_or]
      ac_rfl
    rw [both]

-- No name of the document occurs in the tree.
structure Absent (files : Files Interfaces) (document : Interface) : Prop where
  ifaces : Free files.config document
  autos : ∀ name ∈ namesOf document, ∀ stanza ∈ files.config, leads name stanza = false
  aliases : ∀ name ∈ namesOf document, hasAlias name files.modprobe = false

section Stored

variable {machine : Machine} {document : Interface} {files : Files Interfaces}

theorem mem_namesOf {name : String} (listed : some name ∈ nameAttributes document) : name ∈ namesOf document := by
  apply List.mem_cons_of_mem
  rcases List.mem_cons.mp listed with root | member
  · have same : name = nameText document.rootName := by
      cases present : document.rootName <;> simpa [present, nameText] using root
    rw [same]
    exact List.mem_cons_self
  · obtain ⟨found, inside, same⟩ := List.mem_map.mp member
    obtain ⟨device, rfl, rfl⟩ := Option.map_eq_some_iff.mp same
    exact List.mem_cons_of_mem _ (List.mem_map_of_mem inside)

theorem Absent.removeInterface (absent : Absent files document) {name : String} (listed : name ∈ namesOf document) :
    removeInterface name files.config = files.config := by
  have autos : without (leads name) files.config = files.config := by
    rw [without, List.filter_eq_self]
    intro stanza member
    simp [absent.autos name listed stanza member]
  have ifaces : without (configures name) files.config = files.config := by
    rw [without, List.filter_eq_self]
    intro stanza member
    have apart := List.filter_eq_nil_iff.mp (absent.ifaces name listed) stanza member
    simpa using apart
  rw [Debian.removeInterface, autos, ifaces]

theorem Absent.without_owned (absent : Absent files document) {names : List String}
    (listed : ∀ name ∈ names, name ∈ namesOf document) : without (owned names) files.config = files.config := by
  rw [without, List.filter_eq_self]
  intro stanza member
  rw [Bool.not_eq_true', owned, List.any_eq_false]
  intro name inside
  have apart := List.filter_eq_nil_iff.mp (absent.ifaces name (listed name inside)) stanza member
  simpa [absent.autos name (listed name inside) stanza member] using apart

theorem targets_namesOf (free : Free files.config document) :
    ∀ name ∈ targets (files.config ++ (treeOf machine document).stanzas) (Linux.deviceName document),
      name ∈ namesOf document := by
  intro name target
  rcases List.mem_cons.mp (List.mem_of_mem_filter target) with rfl | port
  · exact List.mem_cons_self
  · split at port
    · rw [members, listed, configured_stored free List.mem_cons_self] at port
      exact members_listed (by simp) _ name port
    · cases port

theorem removeInterface_append (name : String) (front back : Interfaces) :
    removeInterface name (front ++ back) = removeInterface name front ++ removeInterface name back := by
  simp [removeInterface, without]

theorem removeInterface_ifaceStanzas (name : String) (elements : List Element) :
    removeInterface name (ifaceStanzas elements) =
      ifaceStanzas (elements.filter fun element => element.key ≠ some name) := by
  have leading : without (leads name) (ifaceStanzas elements) = ifaceStanzas elements := by
    rw [without, List.filter_eq_self]
    intro stanza member
    obtain ⟨element, _, rfl⟩ := List.mem_map.mp member
    simp [leads, Element.stanza]
  rw [removeInterface, leading, without, ifaceStanzas, List.filter_map]
  congr 1
  apply List.filter_congr
  intro element _
  by_cases same : element.key = some name <;> simp [configures, Element.stanza, same]

def autoStanzas (document : Interface) : Interfaces :=
  (autoArray document).flatMap StanzaArray.stanzas

theorem stanzas_treeOf :
    (treeOf machine document).stanzas = autoStanzas document ++ ifaceStanzas (stanzas machine document) := by
  rw [Tree.stanzas, treeOf, List.flatMap_append, List.flatMap_singleton]
  rfl

theorem removeInterface_autoStanzas (name : String) :
    removeInterface name (autoStanzas document) =
      if name = nameText document.rootName then [] else autoStanzas document := by
  by_cases boot : document.common.start = .onboot <;> by_cases same : name = nameText document.rootName <;>
    simp [removeInterface, without, autoStanzas, autoArray, boot, same, StanzaArray.stanzas, Element.stanza, Node.entry,
      leads, configures, Stanza.values, eq_comm]

theorem deviceName_nameText :
    Linux.deviceName document = nameText document.rootName ↔ document.rootName ≠ none := by
  cases document with
  | ethernet common nic => simp [Linux.deviceName, nameText, Interface.rootName]
  | bridge common name hub => simp [Linux.deviceName, nameText, Interface.rootName]
  | bond common team => simp [Linux.deviceName, nameText, Interface.rootName]
  | vlan common link =>
    have tagged : link.deviceName ≠ "" := by simp [BareVlan.deviceName]
    cases present : link.name <;> simp [Linux.deviceName, nameText, Interface.rootName, present, tagged]

theorem portElements_apart (distinct : document.names.Nodup) :
    ∀ element ∈ portElements document, element.key ≠ some (nameText document.rootName) := by
  intro element member same
  obtain ⟨port, among, present⟩ := List.mem_filterMap.mp member
  have called : port.name = document.rootName :=
    nameText_injective (Option.some.inj ((portStanza_key present).symm.trans same))
  apply (List.nodup_cons.mp distinct).1
  rw [← called]
  cases document with
  | bridge common name hub => exact port_name_mem among
  | ethernet _ _ | vlan _ _ | bond _ _ => cases among

-- Undefining takes away the stanzas of the interface itself, if it has a name.
theorem removed_named (distinct : document.names.Nodup) (named : document.rootName ≠ none) :
    removeInterface (Linux.deviceName document) (treeOf machine document).stanzas =
      ifaceStanzas (portElements document) := by
  have name := deviceName_nameText.mpr named
  have own : ∀ element ∈ firstStanza machine document :: otherStanzas machine document,
      ¬ decide (element.key ≠ some (nameText document.rootName)) = true := by
    intro element member
    simp [root_keys member]
  have others : ∀ element ∈ portElements document,
      decide (element.key ≠ some (nameText document.rootName)) = true := by
    intro element member
    exact decide_eq_true (portElements_apart distinct element member)
  rw [stanzas_treeOf, removeInterface_append, removeInterface_autoStanzas, removeInterface_ifaceStanzas, name,
    if_pos rfl, List.nil_append, stanzas, ← List.cons_append, List.filter_append, List.filter_eq_nil_iff.mpr own,
    List.filter_eq_self.mpr others, List.nil_append]

theorem removed_unnamed (unnamed : document.rootName = none) :
    removeInterface (Linux.deviceName document) (treeOf machine document).stanzas =
      (treeOf machine document).stanzas := by
  have name : Linux.deviceName document ≠ nameText document.rootName :=
    fun same => deviceName_nameText.mp same unnamed
  have all : ∀ element ∈ stanzas machine document,
      decide (element.key ≠ some (Linux.deviceName document)) = true := by
    intro element member
    have root : element ∈ firstStanza machine document :: otherStanzas machine document := by
      cases document with
      | vlan common link => simpa [stanzas, portElements, Interface.ports] using member
      | ethernet _ _ | bridge _ _ _ | bond _ _ => cases unnamed
    rw [root_keys root]
    simpa using name.symm
  rw [stanzas_treeOf, removeInterface_append, removeInterface_autoStanzas, removeInterface_ifaceStanzas,
    if_neg name, List.filter_eq_self.mpr all]

def remnants (machine : Machine) (document : Interface) : Interfaces :=
  if document.rootName = none then (treeOf machine document).stanzas else ifaceStanzas (portElements document)

theorem remnants_empty_iff :
    remnants machine document = [] ↔
      document.rootName ≠ none ∧ ∀ port ∈ document.ports, ∃ nic, port = .ethernet nic := by
  unfold remnants
  by_cases unnamed : document.rootName = none
  · simp [unnamed, stanzas_treeOf, stanzas, ifaceStanzas]
  · rw [if_neg unnamed, ifaceStanzas, List.map_eq_nil_iff, portElements, List.filterMap_eq_nil_iff]
    simp only [ne_eq, unnamed, not_false_eq_true, true_and]
    apply forall₂_congr
    intro port _
    cases port <;> simp [compound]

theorem removed_stored (absent : Absent files document) (distinct : document.names.Nodup) :
    removeInterface (Linux.deviceName document) (files.config ++ (treeOf machine document).stanzas) =
      files.config ++ remnants machine document := by
  rw [removeInterface_append, absent.removeInterface List.mem_cons_self, remnants]
  by_cases unnamed : document.rootName = none
  · rw [if_pos unnamed, removed_unnamed unnamed]
  · rw [if_neg unnamed, removed_named distinct unnamed]

-- Every stanza that is written is an auto or an iface stanza.
theorem remnants_label : ∀ stanza ∈ remnants machine document, stanza.label = "auto" ∨ stanza.label = "iface" := by
  have ifaces : ∀ elements, ∀ stanza ∈ ifaceStanzas elements, stanza.label = "iface" := by
    intro elements stanza member
    obtain ⟨element, _, rfl⟩ := List.mem_map.mp member
    rfl
  intro stanza member
  unfold remnants at member
  split at member
  · rw [stanzas_treeOf] at member
    rcases List.mem_append.mp member with auto | iface
    · left
      unfold autoStanzas autoArray at auto
      split at auto
      · simp only [List.flatMap_singleton, StanzaArray.stanzas, List.map_singleton, List.mem_singleton] at auto
        rw [auto]
        rfl
      · cases auto
    · exact Or.inr (ifaces _ stanza iface)
  · exact Or.inr (ifaces _ stanza member)

end Stored

section Undefine

variable {D : Type} {augeas : Augeas Interfaces D} {machine : Machine} {document : Interface} {forest : Forest}
  {ncf start removed ready written saving after : Ncf Interfaces D}

def loadedTree (augeas : Augeas Interfaces D) (ncf : Ncf Interfaces D) : Files Interfaces :=
  augeas.read (entries ncf.augeasXfmTables) ncf.disk

-- What drv_define leaves behind when nothing fails.
theorem defining_tree
    (defining : Defining augeas (backend machine) document forest ncf start removed ready written saving after)
    (calm : Calm start) :
    ∃ names kept aliased, nameAttributes document = names.map some ∧
      kept = without (owned names) (loadedTree augeas ncf).config ∧ Saved augeas ncf aliased after ∧
      (targets (kept ++ (treeOf machine document).stanzas) (Linux.deviceName document)).forM (setupModel true)
        { loadedTree augeas ncf with config := kept ++ (treeOf machine document).stanzas } = .ok ((), aliased) := by
  have trees : forest = [treeOf machine document] := get_forest defining.transforms
  subst trees
  rcases defining.models (implements_rmAll implements_rmInterface document) (implements_augPutXml treeOf_filled)
    (implements_bondSetup machine _ true) calm with ⟨cleared, filled, aliased, clearing, filling, aliasing, saved⟩
  have named := rmModel_named clearing
  rw [named, rmModel_ok] at clearing
  cases clearing
  cases filling
  rw [bondSetupModel_eq, List.flatMap_singleton] at aliasing
  exact ⟨_, _, aliased, named, rfl, saved, aliasing⟩

-- None of its names was in use before.
theorem defining_adds (absent : Absent (loadedTree augeas ncf) document)
    (defining : Defining augeas (backend machine) document forest ncf start removed ready written saving after)
    (calm : Calm start) :
    ∃ files, Saved augeas ncf files after ∧
      files.config = (loadedTree augeas ncf).config ++ (treeOf machine document).stanzas ∧
      Adjusted (targets files.config (Linux.deviceName document)) (allNodes (loadedTree augeas ncf).modprobe)
        files.modprobe := by
  obtain ⟨names, kept, aliased, named, rfl, saved, aliasing⟩ := defining_tree defining calm
  have same := absent.without_owned fun name listed => mem_namesOf (named ▸ List.mem_map_of_mem listed)
  rw [same] at aliasing
  have fresh := @adjusted_start (targets ((loadedTree augeas ncf).config ++ (treeOf machine document).stanzas)
    (Linux.deviceName document)) (loadedTree augeas ncf).modprobe fun name target =>
      absent.aliases name (targets_namesOf absent.ifaces name target)
  obtain ⟨adjusted, config⟩ := alias_all (fun _ member => member) aliasing fresh
  refine ⟨aliased, saved, config, ?_⟩
  rw [config]
  exact adjusted

theorem undefine_leaves {libxml : Libxml} {disk : D} {history : List Call} {text : String} {nif : NetcfIf}
    {before : Ncf Interfaces D}
    (reachable : before = reached augeas (backend machine) libxml augeasXfmCommon disk history)
    (identity : ∀ disk files, augeas.read (entries before.augeasXfmTables) (augeas.write disk files) = files)
    (accepted : libxml.accepts text = some document) (distinct : document.names.Nodup)
    (absent : Absent (loadedTree augeas before) document)
    (defined : drvDefine augeas (backend machine) libxml text (enter [] before) = .ok nif after) :
    ∃ final, drvUndefine augeas (backend machine) nif (enter [] after) = .ok () final ∧
      (loadedTree augeas final).config = (loadedTree augeas before).config ++ remnants machine document ∧
      aliases (loadedTree augeas final).modprobe = aliases (loadedTree augeas before).modprobe := by
  have registered : Registered before := by
    rw [reachable]
    exact registered_reached (backend_safe augeas machine) augeasXfmCommon disk history
  obtain ⟨_, same, name, _, _, _, _, _, _, defining, calm⟩ := drvDefine_ok registered defined
  cases accepted.symm.trans same
  obtain ⟨files, saved, config, adjusted⟩ := defining_adds absent defining (calm rfl)
  obtain ⟨_, opened, opening, calm⟩ := @runs_getAugeas _ _ _ augeas (enter [] after) rfl
  have loaded := saved_loads identity saved opening
  have unaliasing := @unalias_all _ (targets files.config (Linux.deviceName document)) files
  rw [← bondSetupModel_eq] at unaliasing
  rcases drvUndefine_calm (implements_bondSetup machine (Linux.deviceName document) false)
    (implements_rmInterface (Linux.deviceName document)) opening ⟨loaded, calm⟩ unaliasing rfl with
    ⟨final, undefined, tables, disk⟩
  have tree : loadedTree augeas final = { files with
      config := (loadedTree augeas before).config ++ remnants machine document
      modprobe := removeAliases (targets files.config (Linux.deviceName document)) files.modprobe } := by
    rw [loadedTree, tables, disk, saved.tables, identity, ← removed_stored absent distinct, ← config]
  refine ⟨final, ?_, ?_, ?_⟩
  · rw [← undefined, ← name]
  · rw [tree]
  · rw [tree, aliases, removeAliases_adjusted adjusted]
    rfl

def autosAndIfaces (interfaces : Interfaces) : Interfaces :=
  interfaces.filter fun stanza => stanza.label = "auto" ∨ stanza.label = "iface"

theorem autosAndIfaces_left {before left : Interfaces} (config : left = before ++ remnants machine document) :
    autosAndIfaces left = autosAndIfaces before ↔ remnants machine document = [] := by
  have all : autosAndIfaces (remnants machine document) = remnants machine document := by
    rw [autosAndIfaces, List.filter_eq_self]
    intro stanza member
    simpa using remnants_label stanza member
  rw [config, autosAndIfaces, List.filter_append]
  change autosAndIfaces before ++ autosAndIfaces (remnants machine document) = autosAndIfaces before ↔ _
  rw [all, List.append_right_eq_self]

theorem undefine_undoes_define_iff {libxml : Libxml} {disk : D} {history : List Call} {text : String} {nif : NetcfIf}
    {before : Ncf Interfaces D}
    (reachable : before = reached augeas (backend machine) libxml augeasXfmCommon disk history)
    (identity : ∀ disk files, augeas.read (entries before.augeasXfmTables) (augeas.write disk files) = files)
    (accepted : libxml.accepts text = some document) (distinct : document.names.Nodup)
    (absent : Absent (loadedTree augeas before) document)
    (defined : drvDefine augeas (backend machine) libxml text (enter [] before) = .ok nif after) :
    (∃ final, drvUndefine augeas (backend machine) nif (enter [] after) = .ok () final ∧
      autosAndIfaces (loadedTree augeas final).config = autosAndIfaces (loadedTree augeas before).config ∧
      aliases (loadedTree augeas final).modprobe = aliases (loadedTree augeas before).modprobe) ↔
      document.rootName ≠ none ∧ ∀ port ∈ document.ports, ∃ nic, port = .ethernet nic := by
  obtain ⟨final, undefined, config, restored⟩ := undefine_leaves reachable identity accepted distinct absent defined
  rw [← @remnants_empty_iff machine]
  constructor
  · rintro ⟨other, result, stanzas, _⟩
    cases undefined.symm.trans result
    exact (autosAndIfaces_left config).mp stanzas
  · intro nothing
    exact ⟨final, undefined, (autosAndIfaces_left config).mpr nothing, restored⟩

end Undefine

section Examples

def hubOver (port : Port) : Interface :=
  .bridge unaddressed br0 ⟨some .off, none, [port]⟩

def hubText (port : String) : String :=
  "<interface type='bridge' name='br0'><start mode='onboot'/><bridge stp='off'>" ++ port ++ "</bridge></interface>"

def cardPort : Port := .ethernet ⟨eth0, none⟩

def cardText : String := hubText "<interface type='ethernet' name='eth0'/>"

def bondPort : Port := .bond ⟨bond0, ⟨some .activeBackup, none, ⟨eth1, none⟩, []⟩⟩

def bondText : String :=
  hubText ("<interface type='bond' name='bond0'><bond mode='active-backup'>" ++
    "<interface type='ethernet' name='eth1'/></bond></interface>")

-- A disk that keeps the tree as it is.
def direct : Augeas Interfaces (Files Interfaces) := ⟨fun _ disk => disk, fun _ files => files⟩

def home : Files Interfaces :=
  ⟨[auto ["eth7"], dhcp "eth7"], [⟨"netcf.conf", [.aliasOf (some "bond7") (some "bonding")]⟩], []⟩

def beforeHub (text : String) (port : Port) : Ncf Interfaces (Files Interfaces) :=
  reached direct (backend countModulo) (.reading text (hubOver port)) augeasXfmCommon home []

theorem undefine_undoes_define_iff_cardPort :
    ∃ nif after, drvDefine direct (backend countModulo) (.reading cardText (hubOver cardPort)) cardText
        (enter [] (beforeHub cardText cardPort)) = .ok nif after ∧
      ∃ final, drvUndefine direct (backend countModulo) nif (enter [] after) = .ok () final ∧
        autosAndIfaces (loadedTree direct final).config =
          autosAndIfaces (loadedTree direct (beforeHub cardText cardPort)).config ∧
        aliases (loadedTree direct final).modprobe =
          aliases (loadedTree direct (beforeHub cardText cardPort)).modprobe := by
  have success : succeeds (drvDefine direct (backend countModulo) (.reading cardText (hubOver cardPort)) cardText
      (enter [] (beforeHub cardText cardPort))) = true := by
    decide +kernel
  obtain ⟨nif, after, defined⟩ := succeeds_ok success
  have absent : Absent (loadedTree direct (beforeHub cardText cardPort)) (hubOver cardPort) :=
    ⟨by decide, by decide, by decide⟩
  refine ⟨nif, after, defined, (undefine_undoes_define_iff rfl (fun _ _ => rfl) (accepts_reading _ _) (by decide)
    absent defined).mpr ⟨nofun, ?_⟩⟩
  intro port listed
  exact ⟨_, List.mem_singleton.mp listed⟩

-- The stanza of the bond stays in the file; drv_redhat.c goes on to the ports and removes them.
theorem bond_stanza_remains :
    (hubOver bondPort).names.Nodup ∧ Absent (loadedTree direct (beforeHub bondText bondPort)) (hubOver bondPort) ∧
    ∃ nif after, drvDefine direct (backend countModulo) (.reading bondText (hubOver bondPort)) bondText
        (enter [] (beforeHub bondText bondPort)) = .ok nif after ∧
      ∃ final, drvUndefine direct (backend countModulo) nif (enter [] after) = .ok () final ∧
        autosAndIfaces (loadedTree direct final).config ≠
          autosAndIfaces (loadedTree direct (beforeHub bondText bondPort)).config := by
  have success : succeeds (drvDefine direct (backend countModulo) (.reading bondText (hubOver bondPort)) bondText
      (enter [] (beforeHub bondText bondPort))) = true := by
    decide +kernel
  have distinct : (hubOver bondPort).names.Nodup := by decide
  have absent : Absent (loadedTree direct (beforeHub bondText bondPort)) (hubOver bondPort) :=
    ⟨by decide, by decide, by decide⟩
  obtain ⟨nif, after, defined⟩ := succeeds_ok success
  rcases undefine_leaves rfl (fun _ _ => rfl) (accepts_reading _ _) distinct absent defined with
    ⟨final, undefined, config, _⟩
  refine ⟨distinct, absent, nif, after, defined, final, undefined, ?_⟩
  intro same
  exact absurd ((autosAndIfaces_left config).mp same) (by decide)

end Examples

end Netcf.Debian
