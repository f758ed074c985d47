import Netcf.RedHat.BondSetup
import Netcf.RedHat.Define

set_option autoImplicit false

-- drv_undefine takes back what drv_define has done.
namespace Netcf.RedHat

open Shared.Faulty Linux Schema Stylesheet

-- No name of the document occurs in the tree.
structure Absent (files : Files Scripts) (document : Interface) : Prop where
  values : ∀ device, some device ∈ document.names → ∀ script ∈ files.config.files,
    ∀ label ∈ ["DEVICE", "BRIDGE", "MASTER"], script.has label device.text = false
  fileNames : ∀ device, some device ∈ document.names → ∀ script ∈ files.config.files,
    script.name ≠ "ifcfg-" ++ device.text
  aliases : ∀ device, some device ∈ document.names → hasAlias device.text files.modprobe = false

theorem mem_names_of_device {document : Interface} (named : ∀ link ∈ document.vlans, link.WellNamed)
    {device : String} (listed : device ∈ devices document) :
    ∃ name : DeviceName, some name ∈ document.names ∧ name.text = device := by
  have present : some device ∈ document.names.map (·.map (·.text)) := by
    rw [names_devices named]
    exact List.mem_map_of_mem listed
  obtain ⟨name, member, same⟩ := List.mem_map.mp present
  obtain ⟨found, rfl, rfl⟩ := Option.map_eq_some_iff.mp same
  exact ⟨found, member, rfl⟩

section Absent

variable {files : Files Scripts} {document : Interface}

theorem Absent.unrelated (absent : Absent files document) (named : ∀ link ∈ document.vlans, link.WellNamed)
    {device : String} (listed : device ∈ devices document) {script : Script} (member : script ∈ files.config.files) :
    files.config.related device script = false := by
  obtain ⟨name, inside, rfl⟩ := mem_names_of_device named listed
  have none_has := absent.values name inside
  rw [← Bool.not_eq_true, related_iff, belowPort_iff]
  rintro (here | here | here | ⟨port, around, bridge, _⟩)
  · rw [none_has script member "DEVICE" (by simp)] at here
    cases here
  · rw [none_has script member "BRIDGE" (by simp)] at here
    cases here
  · rw [none_has script member "MASTER" (by simp)] at here
    cases here
  · rw [none_has port around "BRIDGE" (by simp)] at bridge
    cases bridge

theorem Absent.removeAll (absent : Absent files document) (named : ∀ link ∈ document.vlans, link.WellNamed) :
    files.config.removeAll (devices document) = files.config :=
  removeAll_same fun _ listed _ member => absent.unrelated named listed member

theorem Absent.filter (absent : Absent files document) (named : ∀ link ∈ document.vlans, link.WellNamed)
    (machine : Machine) :
    files.config.files.filter
      (fun script => !decide (script.name ∈ (forestOf machine document).map Tree.file)) = files.config.files := by
  rw [List.filter_eq_self]
  intro script member
  rw [Bool.not_eq_true', decide_eq_false_iff_not]
  intro listed
  obtain ⟨tree, inside, same⟩ := List.mem_map.mp listed
  obtain ⟨name, found, text⟩ := mem_names_of_device named (mem_devices inside)
  exact absent.fileNames name found script member (by rw [text]; exact same.symm)

end Absent

-- What bridge_slaves is asked for: the files of a document that have its root as their bridge.
section Bridged

variable {machine : Machine} {document : Interface}

theorem rootTree_free {label : String} (listed : label ∈ ["BRIDGE", "MASTER"]) :
    (rootTree (addressNodes machine document.common.addressing) document).values label = [] :=
  rootTree_loose (addressNodes_addresses _) document label listed

theorem bridged_none {forest : Forest} {root : String} (loose : ∀ tree ∈ forest, tree.values "BRIDGE" = []) :
    forest.filter (fun tree => decide (root ∈ tree.values "BRIDGE")) = [] := by
  refine List.filter_eq_nil_iff.mpr fun tree member => ?_
  simp [loose tree member]

theorem bridged_port (common : Common) (bridge : DeviceName) (port : Port) :
    (bridgePort common bridge port).filter (fun tree => decide (bridge.text ∈ tree.values "BRIDGE")) =
      [portTree common bridge port] := by
  have slaves : (portSlaves common port).filter (fun tree => decide (bridge.text ∈ tree.values "BRIDGE")) = [] := by
    refine bridged_none fun tree member => ?_
    obtain ⟨team, nic, _, _, rfl⟩ := mem_portSlaves common member
    exact slaveTree_other team.name nic (by simp)
  rw [bridgePort_eq, List.filter_cons_of_pos (by simp), slaves]

theorem bridged_forest (machine : Machine) (document : Interface) :
    ((forestOf machine document).filter fun tree => decide (rootDevice document ∈ tree.values "BRIDGE")).map Tree.device =
      document.ports.map Port.device := by
  have alone {forest : Forest} (loose : ∀ tree ∈ forest, tree.values "BRIDGE" = []) :
      (forest.filter fun tree => decide (rootDevice document ∈ tree.values "BRIDGE")).map Tree.device = [] := by
    rw [bridged_none loose, List.map_nil]
  have root : (rootTree (addressNodes machine document.common.addressing) document).values "BRIDGE" = [] :=
    rootTree_free (by simp)
  cases document with
  | ethernet common nic => exact alone (List.forall_mem_singleton.mpr root)
  | vlan common link => exact alone (List.forall_mem_singleton.mpr root)
  | bond common team =>
    refine alone (List.forall_mem_cons.mpr ⟨root, fun tree member => ?_⟩)
    rw [memberTrees, bondSlaves_eq] at member
    obtain ⟨slave, _, rfl⟩ := List.mem_map.mp member
    exact slaveTree_other team.name slave (by simp)
  | bridge common name hub =>
    change ((rootTree _ (.bridge common name hub) :: hub.ports.flatMap (bridgePort common name)).filter fun tree =>
      decide (name.text ∈ tree.values "BRIDGE")).map Tree.device = hub.ports.map Port.device
    rw [List.filter_cons_of_neg (by simp [root]), List.filter_flatMap,
      List.flatMap_congr fun port _ => bridged_port common name port, ← List.map_eq_flatMap, List.map_map]
    refine List.map_congr_left fun port _ => ?_
    exact (portTree_forDevice common name port).device

theorem bridging_root {scripts : Scripts}
    (listed : (rootTree (addressNodes machine document.common.addressing) document).script ∈ scripts.files)
    (other : bridging scripts (rootDevice document) = false) : document.ports = [] := by
  cases document with
  | ethernet common nic => rfl
  | vlan common link => rfl
  | bond common team => rfl
  | bridge common name hub =>
    have root := rootTree_forDevice (addressNodes_labels machine common.addressing) (.bridge common name hub)
    refine absurd ?_ (Bool.not_eq_true _ ▸ other)
    rw [bridging, List.any_eq_true]
    refine ⟨_, listed, ?_⟩
    rw [Bool.and_eq_true, script_has, script_has]
    constructor
    · exact root.devices ▸ List.mem_singleton_self _
    · rw [rootTree_type (addressNodes_addresses _)]
      exact List.mem_singleton_self _

theorem ports_forest {scripts : Scripts} (occupied : Occupied scripts (forestOf machine document)) :
    ports scripts (rootDevice document) = (document.ports.map Port.device).map some := by
  obtain ⟨kept, files, apart⟩ := occupied.files
  obtain ⟨top, inside, same⟩ := (forestOf_rooted machine document).listed
  have others : kept.filter (·.has "BRIDGE" (rootDevice document)) = [] := by
    refine List.filter_eq_nil_iff.mpr fun script member => ?_
    rw [← same, apart script member top inside "BRIDGE" (by simp)]
    exact Bool.false_ne_true
  have filtered : scripts.files.filter (·.has "BRIDGE" (rootDevice document)) =
      ((forestOf machine document).filter fun tree => decide (rootDevice document ∈ tree.values "BRIDGE")).map
        Tree.script := by
    rw [files, List.filter_append, others, List.nil_append, List.filter_map]
    refine congrArg _ (List.filter_congr fun tree _ => ?_)
    rw [Function.comp_apply, Bool.eq_iff_iff, script_has, decide_eq_true_iff]
  rw [ports, devices_filtered (fun tree member => occupied.fits tree (List.mem_of_mem_filter member)) filtered,
    bridged_forest]

theorem clear_forest {scripts : Scripts} {words : Nat → Bool} (occupied : Occupied scripts (forestOf machine document)) :
    (bridging scripts (rootDevice document) = true → Clear words (ports scripts (rootDevice document)).length) ↔
      Clear words document.ports.length := by
  rw [ports_forest occupied, List.length_map, List.length_map]
  constructor
  · intro clear
    cases bridge : bridging scripts (rootDevice document) with
    | true => exact clear bridge
    | false =>
      rw [bridging_root (occupied.listed List.mem_cons_self) bridge]
      exact fun i impossible => absurd impossible (Nat.not_lt_zero i)
  · exact fun clear _ => clear

end Bridged

-- The tree between drv_define and drv_undefine.
section Added

variable {scripts : Scripts} {forest : Forest} {root : String}

theorem ports_valued (occupied : Occupied scripts forest) (listed : ∃ tree ∈ forest, tree.device = root) :
    ∀ value ∈ ports scripts root, ∃ tree ∈ forest, value = some tree.device := by
  intro value member
  obtain ⟨script, found, device⟩ := List.mem_flatMap.mp member
  obtain ⟨present, bridge⟩ := List.mem_filter.mp found
  obtain ⟨kept, files, apart⟩ := occupied.files
  obtain ⟨top, inside, rfl⟩ := listed
  rw [files, List.mem_append] at present
  rcases present with old | new
  · rw [apart script old top inside "BRIDGE" (by simp)] at bridge
    cases bridge
  · obtain ⟨tree, within, rfl⟩ := List.mem_map.mp new
    rw [script_values, (occupied.fits tree within).devices] at device
    exact ⟨tree, within, List.mem_singleton.mp device⟩

theorem ports_none (occupied : Occupied scripts forest) (listed : ∃ tree ∈ forest, tree.device = root) :
    none ∉ ports scripts root := by
  intro member
  obtain ⟨tree, _, impossible⟩ := ports_valued occupied listed none member
  cases impossible

theorem targets_devices (occupied : Occupied scripts forest) (listed : ∃ tree ∈ forest, tree.device = root)
    {name : String} (target : name ∈ targets scripts root) : name ∈ forest.map Tree.device := by
  rcases List.mem_cons.mp (List.mem_of_mem_filter target) with rfl | slave
  · obtain ⟨tree, inside, rfl⟩ := listed
    exact List.mem_map_of_mem inside
  · split at slave
    · obtain ⟨value, member, same⟩ := List.mem_filterMap.mp slave
      obtain ⟨tree, inside, rfl⟩ := ports_valued occupied listed value member
      cases same
      exact List.mem_map_of_mem inside
    · cases slave

end Added

section Undefine

variable {D : Type} {augeas : Augeas Scripts D} {machine : Machine} {pathx : Pathx} {document : Interface}

-- What drv_define leaves behind when nothing fails: the files of the forest after what has been kept, and
-- an alias for each bond that bond_setup finds among them.
theorem defining_tree {forest : Forest} {ncf start removed ready written saving after : Ncf Scripts D}
    (definable : Definable document)
    (defining : Defining augeas (backend machine pathx) document forest ncf start removed ready written saving after)
    (calm : Calm start) :
    ∃ scripts aliased, Saved augeas ncf aliased after ∧
      scripts.files = ((loadedTree augeas ncf).config.removeAll (devices document)).files.filter
        (fun script => !decide (script.name ∈ (forestOf machine document).map Tree.file)) ++
          (forestOf machine document).map Tree.script ∧
      Occupied scripts (forestOf machine document) ∧
      (targets scripts (rootDevice document)).forM (setupModel true) { loadedTree augeas ncf with config := scripts } =
        .ok ((), aliased) ∧
      Clear machine.nullBehind document.ports.length := by
  have trees : forest = forestOf machine document := get_forest defining.transforms
  subst trees
  rcases defining.models (implements_rmAllInterfaces machine pathx document)
    (implements_augPutXml pathx (forestOf machine document)) (implements_bondSetup machine pathx _ true) calm with
    ⟨cleared, filled, aliased, clearing, filling, aliasing, saved⟩
  rw [nameAttributes_devices definable.vlans, ← loadedTree, rmModel_ok] at clearing
  cases clearing
  rcases @putForest_ok pathx (forestOf machine document) (fun tree member => forestOf_forDevice member)
    (fun tree member => definable.ordinary member) (definable.forest_nodup machine)
    { loadedTree augeas ncf with config := (loadedTree augeas ncf).config.removeAll (devices document) } with
    ⟨scripts, result, files⟩
  cases result.symm.trans filling
  have occupied := occupied_of_config definable files
  have listed := (forestOf_rooted machine document).listed
  rw [deviceName_root definable.vlans] at aliasing
  exact ⟨scripts, aliased, saved, files, occupied, bondSetupModel_ok aliasing (ports_none occupied listed),
    (clear_forest occupied).mp (bondSetupModel_clear aliasing (ports_none occupied listed))⟩

-- None of its names was in use.
theorem defining_adds {forest : Forest} {ncf start removed ready written saving after : Ncf Scripts D}
    (definable : Definable document) (absent : Absent (loadedTree augeas ncf) document)
    (defining : Defining augeas (backend machine pathx) document forest ncf start removed ready written saving after)
    (calm : Calm start) :
    ∃ files, Saved augeas ncf files after ∧
      files.config.files = (loadedTree augeas ncf).config.files ++ (forestOf machine document).map Tree.script ∧
      Occupied files.config (forestOf machine document) ∧
      Adjusted (targets files.config (rootDevice document)) (allNodes (loadedTree augeas ncf).modprobe)
        files.modprobe := by
  obtain ⟨scripts, aliased, saved, files, occupied, aliasing, _⟩ := defining_tree definable defining calm
  rw [absent.removeAll definable.vlans, absent.filter definable.vlans] at files
  have listed := (forestOf_rooted machine document).listed
  have fresh : Adjusted (targets scripts (rootDevice document)) (allNodes (loadedTree augeas ncf).modprobe)
      (loadedTree augeas ncf).modprobe := by
    apply adjusted_start
    intro name target
    have device := targets_devices occupied listed target
    rw [forestOf_devices] at device
    obtain ⟨found, inside, rfl⟩ := mem_names_of_device definable.vlans device
    exact absent.aliases found inside
  obtain ⟨adjusted, same⟩ := alias_all (fun _ member => member) aliasing fresh
  have config : aliased.config = scripts := same
  refine ⟨aliased, saved, ?_, ?_, ?_⟩
  · rw [config]
    exact files
  · rw [config]
    exact occupied
  · rw [config]
    exact adjusted

theorem removeRelated_added {scripts before : Scripts} {forest : Forest} {root : String}
    (occupied : Occupied scripts forest) (rooted : Rooted forest root)
    (config : scripts.files = before.files ++ forest.map Tree.script) : scripts.removeRelated root = before := by
  obtain ⟨kept, files, outside⟩ := occupied.outside rooted.listed
  have same : kept = before.files := List.append_cancel_right (files.symm.trans config)
  have first : kept.filter (fun script => !scripts.related root script) = kept := by
    rw [List.filter_eq_self]
    intro script member
    simp [outside script member]
  have second : (forest.map Tree.script).filter (fun script => !scripts.related root script) = [] := by
    rw [List.filter_eq_nil_iff]
    intro script member
    obtain ⟨tree, inside, rfl⟩ := List.mem_map.mp member
    simp [related_forest occupied rooted inside]
  apply Scripts.eq_of_files
  change scripts.files.filter (fun script => !scripts.related root script) = before.files
  rw [files, List.filter_append, first, second, List.append_nil, same]

variable {later : Machine} {root : String}

-- Whatever follows, bond_setup has not met a null word.
theorem undefine_clear {files : Files Scripts} {entered opened final : Ncf Scripts D} {disk : D}
    {tables : List (Option Entries)} (opening : getAugeas augeas entered = .ok () opened)
    (quiet : Quiet disk tables opened files) (valued : none ∉ ports files.config root)
    (undefined : drvUndefine augeas (backend later pathx) ⟨root⟩ entered = .ok () final)
    (bridge : bridging files.config root = true) : Clear later.nullBehind (ports files.config root).length := by
  obtain ⟨_, again, opened_again, rest⟩ := bind_ok undefined
  cases opening.symm.trans opened_again
  obtain ⟨_, unaliased, setup, _⟩ := bind_ok rest
  obtain ⟨_, model, _⟩ := (implements_bondSetup later pathx root false).ok quiet setup
  exact bondSetupModel_clear model valued bridge

-- LATER is the machine as drv_undefine finds it: the words behind its variable are others.
theorem define_undone_iff {libxml : Libxml} {disk : D} {history : List Call} {text : String} {nif : NetcfIf}
    {before after : Ncf Scripts D}
    (reachable : before = reached augeas (backend machine pathx) libxml augeasXfmCommon disk history)
    (identity : ∀ disk files, augeas.read (entries before.augeasXfmTables) (augeas.write disk files) = files)
    (accepted : libxml.accepts text = some document) (definable : Definable document)
    (absent : Absent (loadedTree augeas before) document)
    (defined : drvDefine augeas (backend machine pathx) libxml text (enter [] before) = .ok nif after) :
    (∃ final, drvUndefine augeas (backend later pathx) nif (enter [] after) = .ok () final ∧
      (loadedTree augeas final).config = (loadedTree augeas before).config ∧
      aliases (loadedTree augeas final).modprobe = aliases (loadedTree augeas before).modprobe) ↔
      Clear later.nullBehind document.ports.length := by
  have registered : Registered before := by
    rw [reachable]
    exact registered_reached (backend_safe augeas machine pathx) augeasXfmCommon disk history
  rcases drvDefine_ok registered defined with
    ⟨_, same, name, _, _, _, _, _, _, defining, calm⟩
  cases accepted.symm.trans same
  have root : nif = ⟨rootDevice document⟩ := by
    cases nif
    rw [← deviceName_root definable.vlans, ← name]
  obtain ⟨files, saved, config, occupied, adjusted⟩ := defining_adds definable absent defining (calm rfl)
  have rooted := forestOf_rooted machine document
  obtain ⟨_, opened, opening, calm⟩ := @runs_getAugeas _ _ _ augeas (enter [] after) rfl
  have loaded := saved_loads identity saved opening
  have valued := ports_none occupied rooted.listed
  rw [root, ← clear_forest occupied]
  constructor
  · rintro ⟨final, undefined, _⟩
    exact undefine_clear opening ⟨loaded, calm⟩ valued undefined
  · intro clear
    have unaliasing := @unalias_all _ (targets files.config (rootDevice document)) files
    rw [← bondSetupModel_eq (fun _ => valued) clear] at unaliasing
    rcases drvUndefine_calm (implements_bondSetup later pathx (rootDevice document) false)
      (implements_rmInterface (rootDevice document)) opening ⟨loaded, calm⟩ unaliasing (change_some rfl) with
      ⟨final, undefined, tables, disk⟩
    have tree : loadedTree augeas final = { files with
        config := files.config.removeRelated (rootDevice document)
        modprobe := removeAliases (targets files.config (rootDevice document)) files.modprobe } := by
      rw [loadedTree, tables, disk, saved.tables, identity]
      rfl
    refine ⟨final, undefined, ?_, ?_⟩
    · rw [tree]
      exact removeRelated_added occupied rooted config
    · rw [tree, aliases, removeAliases_adjusted adjusted]
      rfl

end Undefine

-- A tree without the office's names, and with an alias of its own in netcf.conf.
def lab : Files Scripts :=
  ⟨⟨[⟨"ifcfg-lo", [⟨"DEVICE", some "lo"⟩]⟩, ⟨"ifcfg-lab", [⟨"DEVICE", some "eth7"⟩, ⟨"MASTER", some "bond7"⟩]⟩],
      by decide⟩,
    [⟨"netcf.conf", [.directive "options", .aliasOf (some "bond7") (some "bonding"), .directive "install"]⟩], []⟩

def beforeLab : Ncf Scripts (Files Scripts) :=
  reached direct (backend countModulo withinScripts) (.reading officeText (officeBridge unaddressed))
    augeasXfmCommon lab []

theorem absent_officeBridge : Absent (loadedTree direct beforeLab) (officeBridge unaddressed) where
  values device listed := by
    have named := officeBridge_names listed
    clear listed
    revert device
    decide
  fileNames device listed := by
    have named := officeBridge_names listed
    clear listed
    revert device
    decide
  aliases device listed := by
    have named := officeBridge_names listed
    clear listed
    revert device
    decide

theorem lab_defined :
    ∃ nif after, drvDefine direct (backend countModulo withinScripts)
      (.reading officeText (officeBridge unaddressed)) officeText (enter [] beforeLab) = .ok nif after := by
  apply succeeds_ok
  decide +kernel

theorem undefine_undoes_define_officeBridge :
    ∃ nif after final, drvDefine direct (backend countModulo withinScripts)
        (.reading officeText (officeBridge unaddressed)) officeText (enter [] beforeLab) = .ok nif after ∧
      drvUndefine direct (backend countModulo withinScripts) nif (enter [] after) = .ok () final ∧
      (loadedTree direct final).config = (loadedTree direct beforeLab).config ∧
      aliases (loadedTree direct final).modprobe = aliases (loadedTree direct beforeLab).modprobe := by
  obtain ⟨nif, after, defined⟩ := lab_defined
  have undone := @define_undone_iff _ direct countModulo withinScripts _ countModulo _ _ _ _ _ _ _ rfl
    (fun _ _ => rfl) (accepts_reading _ _) (definable_officeBridge unaddressed) absent_officeBridge defined
  obtain ⟨final, undefined, config, restored⟩ := undone.mpr (by decide)
  exact ⟨nif, after, final, defined, undefined, config, restored⟩

-- The word behind the variable is null, the others are not.
def nullBehindFirst : Machine :=
  { countModulo with nullBehind := fun i => i = 1 }

def undefinedWith (later : Machine) : Option (Except Errcode Unit) :=
  match drvDefine direct (backend countModulo withinScripts)
      (.reading officeText (officeBridge unaddressed)) officeText (enter [] beforeLab) with
  | .error _ _ => none
  | .ok nif after =>
    match drvUndefine direct (backend later withinScripts) nif (enter [] after) with
    | .ok _ _ => some (.ok ())
    | .error code _ => some (.error code)

theorem undefinedWith_error {later : Machine} {code : Errcode} (known : undefinedWith later = some (.error code)) :
    ∃ nif after stopped, drvDefine direct (backend countModulo withinScripts)
        (.reading officeText (officeBridge unaddressed)) officeText (enter [] beforeLab) = .ok nif after ∧
      drvUndefine direct (backend later withinScripts) nif (enter [] after) = .error code stopped := by
  unfold undefinedWith at known
  split at known
  · cases known
  · rename_i nif after defined
    split at known
    · cases known
    · rename_i found stopped run
      cases known
      exact ⟨nif, after, stopped, defined, run⟩

-- The office's bridge has three ports.
theorem undefine_stopped_officeBridge :
    Definable (officeBridge unaddressed) ∧ Absent (loadedTree direct beforeLab) (officeBridge unaddressed) ∧
      ∃ nif after stopped, drvDefine direct (backend countModulo withinScripts)
          (.reading officeText (officeBridge unaddressed)) officeText (enter [] beforeLab) = .ok nif after ∧
        drvUndefine direct (backend nullBehindFirst withinScripts) nif (enter [] after) = .error .nomem stopped ∧
        ¬ ∃ final, drvUndefine direct (backend nullBehindFirst withinScripts) nif (enter [] after) = .ok () final ∧
          (loadedTree direct final).config = (loadedTree direct beforeLab).config ∧
          aliases (loadedTree direct final).modprobe = aliases (loadedTree direct beforeLab).modprobe := by
  refine ⟨definable_officeBridge unaddressed, absent_officeBridge, ?_⟩
  have stops : undefinedWith nullBehindFirst = some (.error .nomem) := by decide +kernel
  obtain ⟨nif, after, stopped, defined, run⟩ := undefinedWith_error stops
  refine ⟨nif, after, stopped, defined, run, ?_⟩
  rintro ⟨final, undefined, _⟩
  cases run.symm.trans undefined

end Netcf.RedHat
