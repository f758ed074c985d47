import Mathlib.Logic.Relation
import Netcf.RedHat.Undefine

set_option autoImplicit false

-- Over runs of drv_define and drv_undefine: which bonds have slaves, and which have an alias.
namespace Netcf.RedHat

open Shared.Faulty Linux Schema Stylesheet

section Bonds

variable {machine : Machine} {document : Interface} {scripts : Scripts}

def bondNames (document : Interface) : List String :=
  document.bonds.map (·.name.text)

theorem forestOf_masters {tree : Tree} {master : String} (member : tree ∈ forestOf machine document)
    (enslaved : master ∈ tree.values "MASTER") : master ∈ bondNames document := by
  rcases List.mem_cons.mp member with rfl | member
  · rw [rootTree_loose (addressNodes_addresses _) document "MASTER" (by simp)] at enslaved
    cases enslaved
  · cases member_of_memberTrees member with
    | port _ => simp at enslaved
    | @portSlave common name hub team slave listed =>
      rw [slaveTree_master, List.mem_singleton] at enslaved
      subst enslaved
      exact List.mem_map.mpr ⟨team, List.mem_flatMap.mpr ⟨_, listed, List.mem_singleton_self team⟩, rfl⟩
    | slave =>
      rw [slaveTree_master, List.mem_singleton] at enslaved
      subst enslaved
      exact List.mem_singleton_self _

-- A bond has a first slave.
theorem forestOf_enslaved {team : BareBond} (listed : team ∈ document.bonds) :
    slaveTree document.common team.name team.bond.first ∈ forestOf machine document := by
  apply List.mem_cons_of_mem
  have inside : slaveTree document.common team.name team.bond.first ∈ bondSlaves document.common team := by
    rw [bondSlaves_eq]
    exact List.mem_map_of_mem List.mem_cons_self
  cases document with
  | ethernet common nic => cases listed
  | vlan common link => cases listed
  | bridge common name hub =>
    obtain ⟨port, within, found⟩ := List.mem_flatMap.mp listed
    cases port with
    | ethernet nic => cases found
    | vlan link => cases found
    | bond other =>
      cases List.mem_singleton.mp found
      refine List.mem_flatMap.mpr ⟨_, within, ?_⟩
      rw [bridgePort_eq]
      exact List.mem_cons_of_mem _ inside
  | bond common other =>
    cases List.mem_singleton.mp listed
    exact inside

theorem bonded_forest (occupied : Occupied scripts (forestOf machine document)) {team : BareBond}
    (listed : team ∈ document.bonds) : bonded scripts team.name.text = true := by
  rw [bonded, List.any_eq_true]
  refine ⟨_, occupied.listed (forestOf_enslaved listed), ?_⟩
  rw [script_has, slaveTree_master]
  exact List.mem_singleton_self _

theorem bridging_forest {common : Common} {name : DeviceName} {hub : BridgeElement}
    (occupied : Occupied scripts (forestOf machine (.bridge common name hub))) :
    bridging scripts name.text = true := by
  have root := rootTree_forDevice (addressNodes_labels machine common.addressing) (.bridge common name hub)
  rw [bridging, List.any_eq_true]
  refine ⟨_, occupied.listed List.mem_cons_self, ?_⟩
  rw [Bool.and_eq_true, script_has, script_has]
  constructor
  · exact root.devices ▸ List.mem_singleton_self _
  · rw [rootTree_type (addressNodes_addresses _)]
    exact List.mem_singleton_self _

-- bond_setup finds every bond of the document.
theorem bondNames_targets (occupied : Occupied scripts (forestOf machine document)) {name : String}
    (listed : name ∈ bondNames document) : name ∈ targets scripts (rootDevice document) := by
  obtain ⟨team, member, rfl⟩ := List.mem_map.mp listed
  refine List.mem_filter.mpr ⟨?_, bonded_forest occupied member⟩
  cases document with
  | ethernet common nic => cases member
  | vlan common link => cases member
  | bond common other =>
    cases List.mem_singleton.mp member
    exact List.mem_cons_self
  | bridge common name hub =>
    obtain ⟨port, within, found⟩ := List.mem_flatMap.mp member
    cases port with
    | ethernet nic => cases found
    | vlan link => cases found
    | bond other =>
      cases List.mem_singleton.mp found
      have port := portTree_forDevice common name (.bond team)
      have inForest : portTree common name (.bond team) ∈ forestOf machine (.bridge common name hub) := by
        refine List.mem_cons_of_mem _ (List.mem_flatMap.mpr ⟨_, within, ?_⟩)
        rw [bridgePort_eq]
        exact List.mem_cons_self
      have slave : some team.name.text ∈ ports scripts name.text := by
        refine List.mem_flatMap.mpr ⟨_, List.mem_filter.mpr ⟨occupied.listed inForest, ?_⟩, ?_⟩
        · rw [script_has, portTree_bridge]
          exact List.mem_singleton_self _
        · rw [script_values, port.devices]
          exact List.mem_singleton_self _
      change team.name.text ∈ name.text :: if bridging scripts name.text = true then _ else _
      rw [if_pos (bridging_forest occupied)]
      exact List.mem_cons_of_mem _ (List.reduceOption_mem_iff.mpr slave)

end Bonds

-- Of a state between two calls: the files are as drv_define writes them, and the aliases are those of the
-- bonds that have a slave.
structure Tracking (files : Files Scripts) : Prop where
  written : ∀ script ∈ files.config.files, ∃ tree : Tree, tree.ForDevice tree.device ∧ script = tree.script
  bonding : OnlyBonding files.modprobe
  tracks : ∀ name, bondingAlias name files.modprobe = true ↔ bonded files.config name = true

inductive Request
  | define (document : Interface)
  | undefine (name : String)

-- Every bond with a slave is among the bonds that the request itself sets up or takes down, or one of its slaves
-- is left alone by the request. The names of a document have no slash.
def KeepsBonds (scripts : Scripts) : Request → Prop
  | .define document =>
    (∀ name ∈ document.names, ∀ device ∈ name, '/' ∉ device.text.toList) ∧
      ∀ master, bonded scripts master = true → master ∈ bondNames document ∨
        ∃ slave ∈ scripts.files, slave.has "MASTER" master = true ∧
          ∀ device ∈ devices document, scripts.related device slave = false
  | .undefine name =>
    ∀ master, bonded scripts master = true →
      master = name ∨ (bridging scripts name = true ∧ some master ∈ ports scripts name) ∨
        ∃ slave ∈ scripts.files, slave.has "MASTER" master = true ∧ scripts.related name slave = false

section Trees

variable {machine : Machine} {document : Interface} {scripts : Scripts} {before files : Files Scripts}

theorem bonded_iff {name : String} :
    bonded scripts name = true ↔ ∃ slave ∈ scripts.files, slave.has "MASTER" name = true := by
  rw [bonded, List.any_eq_true]

theorem ports_written (tracking : Tracking files) (name : String) : none ∉ ports files.config name := by
  intro listed
  obtain ⟨script, found, device⟩ := List.mem_flatMap.mp listed
  obtain ⟨tree, fits, rfl⟩ := tracking.written script (List.mem_of_mem_filter found)
  rw [script_values, fits.devices] at device
  cases List.mem_singleton.mp device

-- A slave that is unrelated to the document's devices has no file of theirs either.
theorem slave_kept (tracking : Tracking before) {slave : Script} (member : slave ∈ before.config.files)
    (unrelated : ∀ device ∈ devices document, before.config.related device slave = false) :
    slave ∈ (before.config.removeAll (devices document)).files.filter
      (fun script => !decide (script.name ∈ (forestOf machine document).map Tree.file)) := by
  refine List.mem_filter.mpr ⟨removeAll_keeps member unrelated, ?_⟩
  rw [Bool.not_eq_true', decide_eq_false_iff_not]
  intro listed
  obtain ⟨other, inside, same⟩ := List.mem_map.mp listed
  obtain ⟨tree, fits, rfl⟩ := tracking.written slave member
  have device : other.device = tree.device := file_injective same
  have own : tree.script.has "DEVICE" tree.device = true := by
    rw [script_has, fits.devices]
    exact List.mem_singleton_self _
  have clash := @related_of_has before.config _ _ _ (by simp) own
  rw [unrelated tree.device (device ▸ mem_devices inside)] at clash
  cases clash

theorem tracking_defined {aliased : Files Scripts} {slaveless : List Script} (tracking : Tracking before)
    (keeps : KeepsBonds before.config (.define document))
    (kept : slaveless = (before.config.removeAll (devices document)).files.filter
      (fun script => !decide (script.name ∈ (forestOf machine document).map Tree.file)))
    (config : scripts.files = slaveless ++ (forestOf machine document).map Tree.script)
    (occupied : Occupied scripts (forestOf machine document))
    (aliasing : (targets scripts (rootDevice document)).forM (setupModel true) { before with config := scripts } =
      .ok ((), aliased)) : Tracking aliased := by
  rcases @alias_all_bonding _ _ { before with config := scripts } _ _ tracking.bonding aliasing with ⟨only, same, added⟩
  have same : aliased.config = scripts := same
  have older : ∀ script ∈ slaveless, script ∈ before.config.files := by
    intro script member
    rw [kept] at member
    exact removeAll_subset _ (List.mem_of_mem_filter member)
  refine ⟨?_, only, ?_⟩
  · intro script member
    rw [same, config, List.mem_append] at member
    rcases member with old | new
    · exact tracking.written script (older script old)
    · obtain ⟨tree, inside, rfl⟩ := List.mem_map.mp new
      exact ⟨tree, forestOf_forDevice inside, rfl⟩
  · intro name
    rw [added, same, tracking.tracks]
    constructor
    · rintro (target | had)
      · exact List.of_mem_filter target
      · rcases keeps.2 name had with bond | ⟨slave, member, enslaved, unrelated⟩
        · obtain ⟨team, listed, rfl⟩ := List.mem_map.mp bond
          exact bonded_forest occupied listed
        · refine bonded_iff.mpr ⟨slave, ?_, enslaved⟩
          rw [config, kept]
          exact List.mem_append_left _ (slave_kept tracking member unrelated)
    · intro holds
      obtain ⟨slave, member, enslaved⟩ := bonded_iff.mp holds
      rw [config, List.mem_append] at member
      rcases member with old | new
      · exact Or.inr (bonded_iff.mpr ⟨slave, older slave old, enslaved⟩)
      · obtain ⟨tree, inside, rfl⟩ := List.mem_map.mp new
        exact Or.inl (bondNames_targets occupied (forestOf_masters inside (script_has.mp enslaved)))

-- The bonds that drv_undefine takes the aliases of have lost all their slaves.
theorem target_freed {name master : String} (target : master ∈ targets scripts name) :
    bonded (scripts.removeRelated name) master = false := by
  rw [← Bool.not_eq_true, bonded_iff]
  rintro ⟨slave, member, enslaved⟩
  obtain ⟨listed, unrelated⟩ := mem_remove.mp member
  rw [← Bool.not_eq_true, related_iff] at unrelated
  rcases List.mem_cons.mp (List.mem_of_mem_filter target) with rfl | port
  · exact unrelated (Or.inr (Or.inr (Or.inl enslaved)))
  · split at port
    · obtain ⟨script, found, device⟩ := List.mem_flatMap.mp (List.reduceOption_mem_iff.mp port)
      obtain ⟨around, bridge⟩ := List.mem_filter.mp found
      exact unrelated (Or.inr (Or.inr (Or.inr (belowPort_iff.mpr
        ⟨script, around, bridge, some master, device, has_iff.mp enslaved⟩))))
    · cases port

theorem tracking_undefined {name : String} (tracking : Tracking before)
    (keeps : KeepsBonds before.config (.undefine name)) :
    Tracking { before with
      config := before.config.removeRelated name
      modprobe := removeAliases (targets before.config name) before.modprobe } := by
  obtain ⟨only, left⟩ := removeAliases_bonding tracking.bonding (targets before.config name)
  refine ⟨fun script member => tracking.written script (mem_remove.mp member).1, only, ?_⟩
  intro master
  rw [left, tracking.tracks]
  constructor
  · rintro ⟨untouched, had⟩
    rcases keeps master had with rfl | ⟨bridge, port⟩ | ⟨slave, member, enslaved, unrelated⟩
    · exact absurd (List.mem_filter.mpr ⟨List.mem_cons_self, had⟩) untouched
    · refine absurd (List.mem_filter.mpr ⟨List.mem_cons_of_mem _ ?_, had⟩) untouched
      rw [if_pos bridge]
      exact List.reduceOption_mem_iff.mpr port
    · exact bonded_iff.mpr ⟨slave, mem_remove.mpr ⟨member, unrelated⟩, enslaved⟩
  · intro holds
    constructor
    · intro target
      rw [target_freed target] at holds
      cases holds
    · obtain ⟨slave, member, enslaved⟩ := bonded_iff.mp holds
      exact bonded_iff.mpr ⟨slave, (mem_remove.mp member).1, enslaved⟩

end Trees

section Runs

variable {D : Type} (augeas : Augeas Scripts D) (machine : Machine) (pathx : Pathx) (libxml : Libxml)

-- One successful call.
inductive Succeeds : Request → Ncf Scripts D → Ncf Scripts D → Prop
  | define {text : String} {document : Interface} {nif : NetcfIf} {before after : Ncf Scripts D}
      (accepted : libxml.accepts text = some document) (distinct : document.names.Nodup)
      (vlans : ∀ link ∈ document.vlans, link.WellNamed)
      (run : drvDefine augeas (backend machine pathx) libxml text (enter [] before) = .ok nif after) :
      Succeeds (.define document) before after
  | undefine {nif : NetcfIf} {before after : Ncf Scripts D}
      (run : drvUndefine augeas (backend machine pathx) nif (enter [] before) = .ok () after) :
      Succeeds (.undefine nif.name) before after

-- A run of successful calls whose requests are all allowed where they are made.
def Runs (allowed : Scripts → Request → Prop) : Ncf Scripts D → Ncf Scripts D → Prop :=
  Relation.ReflTransGen fun before after => ∃ request,
    Succeeds augeas machine pathx libxml request before after ∧ allowed (loadedTree augeas before).config request

-- What holds between two calls.
structure Idle (ncf : Ncf Scripts D) : Prop where
  registered : Registered ncf
  tables : ncf.augeasXfmTables = [some augeasXfmCommon]
  tracking : Tracking (loadedTree augeas ncf)

variable {augeas machine pathx libxml}

theorem loadedTree_saved {files : Files Scripts} {before after : Ncf Scripts D}
    (identity : ∀ disk files, augeas.read augeasXfmCommon (augeas.write disk files) = files)
    (tables : before.augeasXfmTables = [some augeasXfmCommon])
    (same : after.augeasXfmTables = before.augeasXfmTables) (disk : after.disk = augeas.write before.disk files) :
    loadedTree augeas after = files := by
  rw [loadedTree, same, tables, disk]
  exact identity before.disk files

theorem idle_define {document : Interface} {before after : Ncf Scripts D}
    (identity : ∀ disk files, augeas.read augeasXfmCommon (augeas.write disk files) = files)
    (idle : Idle augeas before) (keeps : KeepsBonds (loadedTree augeas before).config (.define document))
    (success : Succeeds augeas machine pathx libxml (.define document) before after) : Idle augeas after := by
  cases success with
  | define accepted distinct vlans run =>
    obtain ⟨_, same, _, _, _, _, _, _, _, defining, calm⟩ := drvDefine_ok idle.registered run
    cases accepted.symm.trans same
    rcases defining_tree ⟨distinct, vlans, keeps.1⟩ defining (calm rfl) with
      ⟨scripts, aliased, saved, config, occupied, aliasing, _⟩
    refine ⟨saved.registered, saved.tables.trans idle.tables, ?_⟩
    rw [loadedTree_saved identity idle.tables saved.tables saved.disk]
    exact tracking_defined idle.tracking keeps rfl config occupied aliasing

theorem idle_undefine {name : String} {before after : Ncf Scripts D}
    (identity : ∀ disk files, augeas.read augeasXfmCommon (augeas.write disk files) = files)
    (idle : Idle augeas before) (keeps : KeepsBonds (loadedTree augeas before).config (.undefine name))
    (success : Succeeds augeas machine pathx libxml (.undefine name) before after) : Idle augeas after := by
  cases success with
  | @undefine nif _ _ run =>
    have registered : Registered after := by
      have served := @registered_serve _ _ _ _ _ _ libxml (backend_safe augeas machine pathx) (.undefine nif []) _
        idle.registered
      simp only [serve, run] at served
      exact served
    obtain ⟨_, opened, opening, calm⟩ := @runs_getAugeas _ _ _ augeas (enter [] before) rfl
    have loaded := @getAugeas_loads _ _ _ _ { before with faults := [] } _ idle.registered opening
    have valued := ports_written idle.tracking nif.name
    have clear := undefine_clear opening ⟨loaded, calm⟩ valued run
    have unaliasing := @unalias_all _ (targets (loadedTree augeas before).config nif.name) (loadedTree augeas before)
    rw [← bondSetupModel_eq (fun _ => valued) clear] at unaliasing
    rcases drvUndefine_calm (implements_bondSetup machine pathx nif.name false) (implements_rmInterface nif.name)
      opening ⟨loaded, calm⟩ unaliasing (change_some rfl) with ⟨final, undefined, tables, disk⟩
    cases undefined.symm.trans run
    refine ⟨registered, tables.trans idle.tables, ?_⟩
    rw [loadedTree_saved identity idle.tables tables disk]
    exact tracking_undefined idle.tracking keeps

theorem idle_start {disk : D} (files : (augeas.read augeasXfmCommon disk).config = ∅)
    (none_yet : aliases (augeas.read augeasXfmCommon disk).modprobe = []) :
    Idle augeas (fresh augeasXfmCommon disk) := by
  have tree : loadedTree augeas (fresh augeasXfmCommon disk) = augeas.read augeasXfmCommon disk := rfl
  have quiet : ∀ name, ∀ node ∈ allNodes (augeas.read augeasXfmCommon disk).modprobe, node.aliases name = false := by
    intro name node member
    have plain := List.filter_eq_nil_iff.mp none_yet node member
    cases node with
    | directive label => rfl
    | aliasOf value modulename => exact absurd rfl plain
  refine ⟨fun copied => by simp [fresh] at copied, rfl, ?_⟩
  rw [tree]
  refine ⟨?_, ?_, ?_⟩
  · rw [files]
    intro script member
    cases member
  · intro node member name found
    rw [quiet name node member] at found
    cases found
  · intro name
    rw [files]
    constructor
    · intro listed
      obtain ⟨node, member, bonds⟩ := List.any_eq_true.mp listed
      have named := isBondingAlias_aliases bonds
      rw [quiet name node member] at named
      cases named
    · intro holds
      cases holds

theorem runs_track_bonds {disk : D} {ncf : Ncf Scripts D}
    (identity : ∀ disk files, augeas.read augeasXfmCommon (augeas.write disk files) = files)
    (files : (augeas.read augeasXfmCommon disk).config = ∅)
    (none_yet : aliases (augeas.read augeasXfmCommon disk).modprobe = [])
    (run : Runs augeas machine pathx libxml KeepsBonds (fresh augeasXfmCommon disk) ncf) (name : String) :
    bondingAlias name (loadedTree augeas ncf).modprobe = true ↔ bonded (loadedTree augeas ncf).config name = true := by
  have idle : Idle augeas ncf := by
    induction run with
    | refl => exact idle_start files none_yet
    | tail _ step ih =>
      obtain ⟨request, success, keeps⟩ := step
      cases request with
      | define document => exact idle_define identity ih keeps success
      | undefine other => exact idle_undefine identity ih keeps success
  exact idle.tracking.tracks name

end Runs

-- A bond over one card, and then the card on its own.
def teamText : String :=
  "<interface type='bond' name='bond0'><start mode='onboot'/><bond mode='active-backup'>" ++
  "<interface type='ethernet' name='eth1'/></bond></interface>"

def team : Interface :=
  .bond unaddressed ⟨bond0, ⟨some .activeBackup, none, ⟨eth1, none⟩, []⟩⟩

def freedText : String :=
  "<interface type='ethernet' name='eth1'><start mode='onboot'/></interface>"

def freed : Interface :=
  .ethernet unaddressed ⟨eth1, none⟩

def rebuilding : Libxml where
  Doc := Shared.Xml
  parse text := if text = teamText then some team.toXml else if text = freedText then some freed.toXml else none
  validate doc := if doc = team.toXml then some team else if doc = freed.toXml then some freed else none

theorem rebuilding_team : rebuilding.accepts teamText = some team := by
  simp [Libxml.accepts, rebuilding]

theorem rebuilding_freed : rebuilding.accepts freedText = some freed := by
  have texts : freedText ≠ teamText := by decide +kernel
  have documents : freed.toXml ≠ team.toXml := by decide +kernel
  simp [Libxml.accepts, rebuilding, texts, documents]

def untouched : Ncf Scripts (Files Scripts) :=
  fresh augeasXfmCommon ⟨∅, [], []⟩

def teamed : Ncf Scripts (Files Scripts) :=
  final (drvDefine direct (backend countModulo withinScripts) rebuilding teamText (enter [] untouched))

def rebuilt : Ncf Scripts (Files Scripts) :=
  final (drvDefine direct (backend countModulo withinScripts) rebuilding freedText (enter [] teamed))

theorem rebuilding_succeeds {text : String} {document : Interface} {before : Ncf Scripts (Files Scripts)}
    (accepted : rebuilding.accepts text = some document) (distinct : document.names.Nodup)
    (vlans : ∀ link ∈ document.vlans, link.WellNamed)
    (success : succeeds (drvDefine direct (backend countModulo withinScripts) rebuilding text
      (enter [] before)) = true) :
    Succeeds direct countModulo withinScripts rebuilding (.define document) before
      (final (drvDefine direct (backend countModulo withinScripts) rebuilding text (enter [] before))) := by
  obtain ⟨nif, after, run⟩ := succeeds_ok success
  rw [run]
  exact .define accepted distinct vlans run

theorem team_succeeds :
    Succeeds direct countModulo withinScripts rebuilding (.define team) untouched teamed :=
  rebuilding_succeeds rebuilding_team (by decide) (by decide) (by decide +kernel)

theorem freed_succeeds :
    Succeeds direct countModulo withinScripts rebuilding (.define freed) teamed rebuilt :=
  rebuilding_succeeds rebuilding_freed (by decide) (by decide) (by decide +kernel)

theorem team_tracked :
    Runs direct countModulo withinScripts rebuilding KeepsBonds untouched teamed ∧
      bonded (loadedTree direct teamed).config "bond0" = true ∧
      bondingAlias "bond0" (loadedTree direct teamed).modprobe = true := by
  have first : KeepsBonds (loadedTree direct untouched).config (.define team) := by
    refine ⟨by decide, ?_⟩
    intro master holds
    cases holds
  have run : Runs direct countModulo withinScripts rebuilding KeepsBonds untouched teamed :=
    Relation.ReflTransGen.single ⟨_, team_succeeds, first⟩
  have slave : bonded (loadedTree direct teamed).config "bond0" = true := by decide +kernel
  exact ⟨run, slave, (runs_track_bonds (fun _ _ => rfl) rfl rfl run "bond0").mpr slave⟩

theorem alias_outlives_bond :
    ¬ ∀ ncf, Runs direct countModulo withinScripts rebuilding (fun _ _ => True) untouched ncf → ∀ name,
      (bondingAlias name (loadedTree direct ncf).modprobe = true ↔
        bonded (loadedTree direct ncf).config name = true) := by
  intro always
  have run : Runs direct countModulo withinScripts rebuilding (fun _ _ => True) untouched rebuilt :=
    (Relation.ReflTransGen.single ⟨_, team_succeeds, trivial⟩).tail ⟨_, freed_succeeds, trivial⟩
  have stays : bondingAlias "bond0" (loadedTree direct rebuilt).modprobe = true := by decide +kernel
  have gone : bonded (loadedTree direct rebuilt).config "bond0" = false := by decide +kernel
  rw [(always rebuilt run "bond0").mp stays] at gone
  cases gone

end Netcf.RedHat
