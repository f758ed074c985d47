import Netcf.Linux.Repetition
import Netcf.RedHat.Undefine
import Netcf.Debian.Undefine

set_option autoImplicit false

-- A second drv_define of the same document.  It takes out what the first one has put in, and puts the
-- same at the same place.
namespace Netcf.RedHat

open Shared.Faulty Linux Schema Stylesheet

section Again

variable {scripts : Scripts} {forest : Forest} {kept : List Script}

-- The files of the forest go, and nothing else does.
theorem removeAll_forest (occupied : Occupied scripts forest) (files : scripts.files = kept ++ forest.map Tree.script)
    {names : List String} (same : forest.map Tree.device = names) : (scripts.removeAll names).files = kept := by
  obtain ⟨p, filtered⟩ := removeAll_filter scripts names
  have chosen : ∀ script ∈ scripts.files, p script = true ↔ script ∈ (scripts.removeAll names).files := by
    intro script member
    rw [filtered, List.mem_filter]
    exact ⟨fun holds => ⟨member, holds⟩, And.right⟩
  have first : kept.filter p = kept := by
    rw [List.filter_eq_self]
    intro script member
    have present : script ∈ scripts.files := files ▸ List.mem_append_left _ member
    refine (chosen script present).mpr (removeAll_keeps present ?_)
    intro name listed
    rw [← same] at listed
    obtain ⟨tree, inside, rfl⟩ := List.mem_map.mp listed
    obtain ⟨others, split, outside⟩ := occupied.outside ⟨tree, inside, rfl⟩
    rw [List.append_cancel_right (files.symm.trans split)] at member
    exact outside script member
  have second : (forest.map Tree.script).filter p = [] := by
    rw [List.filter_eq_nil_iff]
    intro script member holds
    have present : script ∈ scripts.files := files ▸ List.mem_append_right _ member
    obtain ⟨tree, inside, rfl⟩ := List.mem_map.mp member
    have own : tree.script.has "DEVICE" tree.device = true := by
      rw [script_has, (occupied.fits tree inside).devices]
      exact List.mem_singleton_self _
    have gone := @removeAll_free scripts _ tree.device _ ((chosen _ present).mp holds)
      (same ▸ List.mem_map_of_mem inside) "DEVICE" (by simp)
    rw [own] at gone
    cases gone
  rw [filtered, files, List.filter_append, first, second, List.append_nil]

end Again

section Redefine

variable {D : Type} {augeas : Augeas Scripts D} {machine : Machine} {pathx : Pathx} {libxml : Libxml}
  {document : Interface} {text : String} {nif : NetcfIf} {before after : Ncf Scripts D} {words : Nat → Bool}

-- The words do not matter to the stylesheet.
theorem get_finding : get (machine.finding words) document = get machine document := rfl

theorem redefine_same (registered : Registered before)
    (identity : ∀ disk files, augeas.read (entries before.augeasXfmTables) (augeas.write disk files) = files)
    (accepted : libxml.accepts text = some document) (definable : Definable document)
    (defined : drvDefine augeas (backend machine pathx) libxml text (enter [] before) = .ok nif after)
    (clear : Clear words document.ports.length) :
    ∃ final, drvDefine augeas (backend (machine.finding words) pathx) libxml text (enter [] after) = .ok nif final ∧
      loadedTree augeas final = loadedTree augeas after := by
  obtain ⟨_, same, name, forest, _, _, _, _, _, defining, calm⟩ := drvDefine_ok registered defined
  cases accepted.symm.trans same
  have transforms : get (machine.finding words) document = .ok (forestOf machine document) := by
    have result : get machine document = .ok forest := defining.transforms
    rw [get_finding, result, get_forest result]
  obtain ⟨scripts, aliased, saved, files, occupied, aliasing, _⟩ := defining_tree definable defining (calm rfl)
  have config : aliased.config = scripts := setup_config aliasing
  have tree : loadedTree augeas after = aliased := by rw [loadedTree, saved.tables, saved.disk, identity]
  have left := removeAll_forest occupied files forestOf_devices
  have clearing : (nameAttributes document).forM (rmModel fun name => change .other (removal name)) aliased =
      .ok ((), { aliased with config := aliased.config.removeAll (devices document) }) := by
    rw [nameAttributes_devices definable.vlans, rmModel_ok]
  rcases @putForest_ok pathx (forestOf machine document) (fun tree member => forestOf_forDevice member)
    (fun tree member => definable.ordinary member) (definable.forest_nodup machine)
    { aliased with config := aliased.config.removeAll (devices document) } with ⟨refilled, filling, result⟩
  have back : refilled = scripts := by
    apply Scripts.eq_of_files
    rw [result, config, left, List.filter_filter, files]
    simp
  have listed := (forestOf_rooted machine document).listed
  have setups : bondSetupModel bonded bridging (slavesModel (machine.finding words) (Linux.deviceName document))
      (Linux.deviceName document) true { aliased with config := refilled } = .ok ((), aliased) := by
    have unchanged : { aliased with config := refilled } = aliased := by rw [back, ← config]
    rw [unchanged, deviceName_root definable.vlans, bondSetupModel_eq (fun _ => config ▸ ports_none occupied listed)
      (config ▸ (clear_forest occupied).mpr clear), config]
    exact alias_again aliasing
  rw [← tree, loadedTree] at clearing
  rcases drvDefine_calm (implements_rmAllInterfaces (machine.finding words) pathx document)
    (implements_augPutXml pathx (forestOf machine document)) (implements_bondSetup (machine.finding words) pathx _ true)
    saved.registered accepted transforms clearing (tree ▸ filling) setups with ⟨final, run, tables, disk⟩
  refine ⟨final, ?_, ?_⟩
  · rw [run]
    cases nif
    rw [← name]
  · rw [tree, loadedTree, tables, disk, saved.tables, identity]

theorem registered_defined (registered : Registered before)
    (defined : drvDefine augeas (backend machine pathx) libxml text (enter [] before) = .ok nif after) :
    Registered after := by
  have served := @registered_serve _ _ _ _ _ _ libxml (backend_safe augeas machine pathx) (.define text []) _ registered
  simp only [serve, defined] at served
  exact served

theorem define_clear (registered : Registered before) (accepted : libxml.accepts text = some document)
    (definable : Definable document)
    (defined : drvDefine augeas (backend machine pathx) libxml text (enter [] before) = .ok nif after) :
    Clear machine.nullBehind document.ports.length := by
  obtain ⟨_, same, _, _, _, _, _, _, _, defining, calm⟩ := drvDefine_ok registered defined
  cases accepted.symm.trans same
  obtain ⟨_, _, _, _, _, _, clear⟩ := defining_tree definable defining (calm rfl)
  exact clear

end Redefine

end Netcf.RedHat

namespace Netcf.Debian

open Shared.Faulty Linux Schema Stylesheet

section Again

variable {machine : Machine} {document : Interface} {names : List String} {stanza : Stanza}

theorem owned_of_configures {name : String} (listed : name ∈ names) (holds : configures name stanza = true) :
    owned names stanza = true :=
  List.any_eq_true.mpr ⟨name, listed, by rw [holds, Bool.or_true]⟩

theorem port_listed (named : nameAttributes document = names.map some) {port : Port}
    (among : port ∈ document.ports) : nameText port.name ∈ names := by
  have listed : port.name.map (·.text) ∈ nameAttributes document := by
    cases document with
    | bridge common name hub => exact List.mem_cons_of_mem _ (List.mem_map_of_mem (port_name_mem among))
    | ethernet _ _ | vlan _ _ | bond _ _ => cases among
  rw [named] at listed
  obtain ⟨text, inside, same⟩ := List.mem_map.mp listed
  rw [nameText, ← same]
  exact inside

-- Every stanza of the document stands under one of the name attributes.
theorem owned_stanzas (named : nameAttributes document = names.map some)
    (member : stanza ∈ (treeOf machine document).stanzas) : owned names stanza = true := by
  have root : nameText document.rootName ∈ names := by
    have listed : some (nameText document.rootName) ∈ nameAttributes document := List.mem_cons_self
    rw [named] at listed
    simpa using listed
  rw [stanzas_treeOf] at member
  rcases List.mem_append.mp member with auto | iface
  · refine List.any_eq_true.mpr ⟨_, root, ?_⟩
    have removed := @removeInterface_autoStanzas document (nameText document.rootName)
    rw [if_pos rfl, removeInterface, without, without, List.filter_filter, List.filter_eq_nil_iff] at removed
    have gone := removed stanza auto
    rw [← Bool.not_or, Bool.not_eq_true', Bool.not_eq_false, Bool.or_comm] at gone
    exact gone
  · obtain ⟨element, inside, rfl⟩ := List.mem_map.mp iface
    rw [stanzas, ← List.cons_append, List.mem_append] at inside
    rcases inside with own | port
    · apply owned_of_configures root
      simp [configures, Element.stanza, root_keys own]
    · obtain ⟨found, among, present⟩ := List.mem_filterMap.mp port
      have key := portStanza_key present
      refine owned_of_configures (port_listed named among) ?_
      simp [configures, Element.stanza, key]

theorem without_stanzas (named : nameAttributes document = names.map some) (interfaces : Interfaces) :
    without (owned names) (without (owned names) interfaces ++ (treeOf machine document).stanzas) =
      without (owned names) interfaces := by
  have own : without (owned names) (treeOf machine document).stanzas = [] := by
    rw [without, List.filter_eq_nil_iff]
    intro stanza member
    simp [owned_stanzas named member]
  have rest : without (owned names) (without (owned names) interfaces) = without (owned names) interfaces := by
    simp [without, List.filter_filter]
  rw [without, List.filter_append, ← without, ← without, own, rest, List.append_nil]

end Again

section Redefine

variable {D : Type} {augeas : Augeas Interfaces D} {machine : Machine} {libxml : Libxml} {document : Interface}
  {text : String} {nif : NetcfIf} {before after : Ncf Interfaces D}

theorem redefine_same (registered : Registered before)
    (identity : ∀ disk files, augeas.read (entries before.augeasXfmTables) (augeas.write disk files) = files)
    (accepted : libxml.accepts text = some document)
    (defined : drvDefine augeas (backend machine) libxml text (enter [] before) = .ok nif after) :
    ∃ final, drvDefine augeas (backend machine) libxml text (enter [] after) = .ok nif final ∧
      loadedTree augeas final = loadedTree augeas after := by
  obtain ⟨_, same, name, forest, _, _, _, _, _, defining, calm⟩ := drvDefine_ok registered defined
  cases accepted.symm.trans same
  have transforms : get machine document = .ok [treeOf machine document] := by
    have result : get machine document = .ok forest := defining.transforms
    rw [result, get_forest result]
  obtain ⟨names, kept, aliased, named, left, saved, aliasing⟩ := defining_tree defining (calm rfl)
  have config : aliased.config = kept ++ (treeOf machine document).stanzas := setup_config aliasing
  have tree : loadedTree augeas after = aliased := by rw [loadedTree, saved.tables, saved.disk, identity]
  have clearing : (nameAttributes document).forM (rmModel fun name => edit (removeInterface name))
      (loadedTree augeas after) = .ok ((), { aliased with config := kept }) := by
    rw [tree, named, rmModel_ok, config, left, without_stanzas named]
  have filling : edit (· ++ [treeOf machine document].flatMap Tree.stanzas) { aliased with config := kept } =
      .ok ((), aliased) := by
    rw [List.flatMap_singleton]
    change Except.ok ((), { aliased with config := kept ++ (treeOf machine document).stanzas }) = _
    rw [← config]
  have setups : bondSetupModel bonded bridging (portsModel (Linux.deviceName document)) (Linux.deviceName document)
      true aliased = .ok ((), aliased) := by
    rw [bondSetupModel_eq, config]
    exact alias_again aliasing
  rcases drvDefine_calm (implements_rmAll implements_rmInterface document) (implements_augPutXml treeOf_filled)
    (implements_bondSetup machine _ true) saved.registered accepted transforms clearing filling setups with
    ⟨final, run, tables, disk⟩
  refine ⟨final, ?_, ?_⟩
  · rw [run]
    cases nif
    rw [← name]
  · rw [tree, loadedTree, tables, disk, saved.tables, identity]

end Redefine

end Netcf.Debian

namespace Netcf.Drivers

open Shared.Faulty Linux Schema Stylesheet

section Idempotent

variable {C D F V : Type} [EmptyCollection C]

def treeOnDisk (augeas : Augeas C D) (ncf : Ncf C D) : Files C :=
  augeas.read (entries ncf.augeasXfmTables) ncf.disk

-- What is asked of the second call, which goes through AGAIN.  V is what the driver keeps in the
-- configuration files.
def Repeats (augeas : Augeas C D) (again : Backend C D F) (kept : C → V) (libxml : Libxml) (text : String)
    (after : Ncf C D) : Prop :=
  ∃ nif final, drvDefine augeas again libxml text (enter [] after) = .ok nif final ∧
    kept (treeOnDisk augeas final).config = kept (treeOnDisk augeas after).config ∧
    aliases (treeOnDisk augeas final).modprobe = aliases (treeOnDisk augeas after).modprobe

def RepeatsWhen (augeas : Augeas C D) (backend again : Backend C D F) (table : Entries) (kept : C → V)
    (condition : Interface → Prop) : Prop :=
  ∀ (libxml : Libxml) (disk : D) (history : List Call) (text : String) (document : Interface) (nif : NetcfIf)
    (before after : Ncf C D),
    before = reached augeas backend libxml table disk history →
    (∀ disk files, augeas.read (entries before.augeasXfmTables) (augeas.write disk files) = files) →
    libxml.accepts text = some document → RedHat.Definable document →
    drvDefine augeas backend libxml text (enter [] before) = .ok nif after →
    (Repeats augeas again kept libxml text after ↔ condition document)

end Idempotent

-- WORDS are those behind the variable of bond_setup at the second call.
theorem define_idempotent_iff {D E : Type} (scripts : Augeas RedHat.Scripts D) (interfaces : Augeas Debian.Interfaces E)
    (machine : Machine) (pathx : RedHat.Pathx) (words : Nat → Bool) :
    RepeatsWhen scripts (RedHat.backend machine pathx) (RedHat.backend (machine.finding words) pathx)
        RedHat.augeasXfmCommon RedHat.Scripts.files (fun document => Clear words document.ports.length) ∧
      RepeatsWhen interfaces (Debian.backend machine) (Debian.backend machine) Debian.augeasXfmCommon
        Debian.autosAndIfaces fun _ => True := by
  constructor
  · intro libxml disk history text document nif before after start identity accepted definable defined
    have registered : Registered before :=
      start ▸ registered_reached (RedHat.backend_safe scripts machine pathx) _ disk history
    constructor
    · rintro ⟨again, final, repeated, _⟩
      exact RedHat.define_clear (RedHat.registered_defined registered defined) accepted definable repeated
    · intro clear
      obtain ⟨final, again, same⟩ := RedHat.redefine_same registered identity accepted definable defined clear
      have same : treeOnDisk scripts final = treeOnDisk scripts after := same
      exact ⟨nif, final, again, by rw [same], by rw [same]⟩
  · intro libxml disk history text document nif before after start identity accepted _ defined
    have registered : Registered before :=
      start ▸ registered_reached (Debian.backend_safe interfaces machine) _ disk history
    refine iff_of_true ?_ trivial
    obtain ⟨final, again, same⟩ := Debian.redefine_same registered identity accepted defined
    have same : treeOnDisk interfaces final = treeOnDisk interfaces after := same
    exact ⟨nif, final, again, by rw [same], by rw [same]⟩

section Examples

theorem definable_bondPort : RedHat.Definable (Debian.hubOver Debian.bondPort) :=
  ⟨by decide, nofun, by decide⟩

theorem define_idempotent_bonds :
    (∃ nif after, drvDefine RedHat.direct (RedHat.backend countModulo RedHat.withinScripts)
        (.reading RedHat.officeText (officeBridge unaddressed)) RedHat.officeText (enter [] RedHat.beforeOffice) =
          .ok nif after ∧
      Repeats RedHat.direct (RedHat.backend countModulo RedHat.withinScripts) RedHat.Scripts.files
        (.reading RedHat.officeText (officeBridge unaddressed)) RedHat.officeText after) ∧
    ∃ nif after, drvDefine Debian.direct (Debian.backend countModulo)
        (.reading Debian.bondText (Debian.hubOver Debian.bondPort)) Debian.bondText
          (enter [] (Debian.beforeHub Debian.bondText Debian.bondPort)) = .ok nif after ∧
      Repeats Debian.direct (Debian.backend countModulo) Debian.autosAndIfaces
        (.reading Debian.bondText (Debian.hubOver Debian.bondPort)) Debian.bondText after := by
  have idempotent := define_idempotent_iff RedHat.direct Debian.direct countModulo RedHat.withinScripts fun _ => false
  constructor
  · obtain ⟨nif, after, defined⟩ := RedHat.office_defined
    exact ⟨nif, after, defined, (idempotent.1 _ RedHat.stale [] RedHat.officeText (officeBridge unaddressed) nif
      RedHat.beforeOffice after rfl (fun _ _ => rfl) (accepts_reading _ _) (RedHat.definable_officeBridge unaddressed)
      defined).mpr (by decide)⟩
  · have success : succeeds (drvDefine Debian.direct (Debian.backend countModulo)
        (.reading Debian.bondText (Debian.hubOver Debian.bondPort)) Debian.bondText
          (enter [] (Debian.beforeHub Debian.bondText Debian.bondPort))) = true := by decide +kernel
    obtain ⟨nif, after, defined⟩ := succeeds_ok success
    exact ⟨nif, after, defined, (idempotent.2 _ Debian.home [] Debian.bondText (Debian.hubOver Debian.bondPort) nif
      (Debian.beforeHub Debian.bondText Debian.bondPort) after rfl (fun _ _ => rfl) (accepts_reading _ _)
      definable_bondPort defined).mpr trivial⟩

def definedAgain (later : Machine) : Option (Except Failure NetcfIf) :=
  match drvDefine RedHat.direct (RedHat.backend countModulo RedHat.withinScripts)
      (.reading RedHat.officeText (officeBridge unaddressed)) RedHat.officeText (enter [] RedHat.beforeOffice) with
  | .error _ _ => none
  | .ok _ after =>
    match drvDefine RedHat.direct (RedHat.backend later RedHat.withinScripts)
        (.reading RedHat.officeText (officeBridge unaddressed)) RedHat.officeText (enter [] after) with
    | .ok nif _ => some (.ok nif)
    | .error failure _ => some (.error failure)

theorem definedAgain_error {later : Machine} {failure : Failure}
    (known : definedAgain later = some (.error failure)) :
    ∃ nif after stopped, drvDefine RedHat.direct (RedHat.backend countModulo RedHat.withinScripts)
        (.reading RedHat.officeText (officeBridge unaddressed)) RedHat.officeText (enter [] RedHat.beforeOffice) =
          .ok nif after ∧
      drvDefine RedHat.direct (RedHat.backend later RedHat.withinScripts)
        (.reading RedHat.officeText (officeBridge unaddressed)) RedHat.officeText (enter [] after) =
          .error failure stopped := by
  unfold definedAgain at known
  split at known
  · cases known
  · rename_i nif after defined
    split at known
    · cases known
    · rename_i found stopped run
      cases known
      exact ⟨nif, after, stopped, defined, run⟩

-- The three ports of the office's bridge are compared with a null word at the second call.
theorem define_repeated_stopped :
    RedHat.Definable (officeBridge unaddressed) ∧
      ∃ nif after stopped, drvDefine RedHat.direct (RedHat.backend countModulo RedHat.withinScripts)
          (.reading RedHat.officeText (officeBridge unaddressed)) RedHat.officeText (enter [] RedHat.beforeOffice) =
            .ok nif after ∧
        drvDefine RedHat.direct (RedHat.backend RedHat.nullBehindFirst RedHat.withinScripts)
          (.reading RedHat.officeText (officeBridge unaddressed)) RedHat.officeText (enter [] after) =
            .error ⟨.bondSetup, .nomem⟩ stopped ∧
        ¬ Repeats RedHat.direct (RedHat.backend RedHat.nullBehindFirst RedHat.withinScripts) RedHat.Scripts.files
          (.reading RedHat.officeText (officeBridge unaddressed)) RedHat.officeText after := by
  refine ⟨RedHat.definable_officeBridge unaddressed, ?_⟩
  have stops : definedAgain RedHat.nullBehindFirst = some (.error ⟨.bondSetup, .nomem⟩) := by decide +kernel
  obtain ⟨nif, after, stopped, defined, run⟩ := definedAgain_error stops
  refine ⟨nif, after, stopped, defined, run, ?_⟩
  rintro ⟨_, final, repeated, _⟩
  cases run.symm.trans repeated

end Examples

end Netcf.Drivers
