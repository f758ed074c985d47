import Netcf.RedHat.Lookup

set_option autoImplicit false

namespace Netcf.RedHat

open Shared.Faulty Linux Schema Stylesheet

theorem backend_safe {D : Type} (augeas : Augeas Scripts D) (machine : Machine) (pathx : Pathx) :
    (backend machine pathx).Safe augeas :=
  fun disk tables => backend_respects (sound_kept augeas disk tables) machine pathx fun _ => trivial

section Define

variable {D : Type} {augeas : Augeas Scripts D} {machine : Machine} {pathx : Pathx} {document : Interface}
  {forest : Forest} {ncf start removed ready written saving after : Ncf Scripts D}

-- The tree that drv_define starts from.
def loadedTree (augeas : Augeas Scripts D) (ncf : Ncf Scripts D) : Files Scripts :=
  augeas.read (entries ncf.augeasXfmTables) ncf.disk

theorem bondSetup_config {disk : D} {tables : List (Option Entries)} {name : String} {adding : Bool}
    {files : Files Scripts} (loaded : Loaded disk tables written files)
    (run : bondSetup augeas (backend machine pathx) name adding written = .ok () saving) :
    ∃ aliased, Loaded disk tables saving aliased ∧ aliased.config = files.config :=
  Linux.bondSetup_config (backend_reads (shows_kept augeas disk tables _) machine pathx) loaded run

-- The files of x's interfaces and of their slaves are gone, and those of the forest have been added.
theorem defining_config (definable : Definable document)
    (defining : Defining augeas (backend machine pathx) document forest ncf start removed ready written saving after) :
    ∃ files, Saved augeas ncf files after ∧
      files.config.files =
        ((loadedTree augeas ncf).config.removeAll (devices document)).files.filter
          (fun script => !decide (script.name ∈ forest.map Tree.file)) ++ forest.map Tree.script := by
  have trees : forest = forestOf machine document := get_forest defining.transforms
  subst trees
  rcases (implements_rmAllInterfaces machine pathx document).ok defining.loaded defining.removes with
    ⟨cleared, clearing, shown⟩
  rw [nameAttributes_devices definable.vlans, rmModel_ok] at clearing
  cases clearing
  rcases (implements_augPutXml pathx _).ok (defining.waits.loaded shown) defining.puts with
    ⟨filled, filling, shown⟩
  rcases @putForest_ok pathx _ (fun tree member => forestOf_forDevice member)
    (fun tree member => definable.ordinary member) (definable.forest_nodup machine)
    { loadedTree augeas ncf with config := (loadedTree augeas ncf).config.removeAll (devices document) } with
    ⟨scripts, result, files⟩
  cases result.symm.trans filling
  obtain ⟨aliased, shown, same⟩ := bondSetup_config shown defining.aliases
  exact ⟨aliased, defining.saves shown, by rw [same]; exact files⟩

theorem occupied_of_config {before : Scripts} {scripts : Scripts} (definable : Definable document)
    (files : scripts.files = (before.removeAll (devices document)).files.filter
      (fun script => !decide (script.name ∈ (forestOf machine document).map Tree.file)) ++
        (forestOf machine document).map Tree.script) :
    Occupied scripts (forestOf machine document) where
  fits _ member := forestOf_forDevice member
  plain tree member := definable.ordinary member
  distinct := definable.forest_nodup machine
  files := by
    refine ⟨_, files, ?_⟩
    intro script member tree inside label listed
    exact removeAll_free (List.mem_of_mem_filter member) (mem_devices inside) listed

theorem forestOf_rooted (machine : Machine) (document : Interface) :
    Rooted (forestOf machine document) (rootDevice document) where
  listed := ⟨_, List.mem_cons_self, (rootTree_forDevice (addressNodes_labels machine _) document).device⟩
  joined _ member := forestOf_joined member

-- The first get_augeas of a call loads the tree, and the later ones find it loaded.
theorem reading_opened {files : Files Scripts} {nif : NetcfIf} {disk : D} {tables : List (Option Entries)}
    {entered opened : Ncf Scripts D} (run : getAugeas augeas entered = .ok () opened)
    (loaded : Loaded disk tables opened files) :
    augGetXmlForNif augeas pathx nif entered = augGetXmlForNif augeas pathx nif opened := by
  apply bind_same
  unfold augFmtMatch
  rw [bind_of_ok _ run, bind_of_ok _ (getAugeas_loaded loaded)]

theorem strcmpSort_sorted {forest : Forest} (distinct : (forest.map Tree.device).Nodup) :
    ((strcmpSort Tree.device forest).map Tree.device).Pairwise (· < ·) := by
  rw [← strcmpSort_devices]
  have sorted := List.pairwise_insertionSort (fun left right : String => left ≤ right) (forest.map Tree.device)
  have apart : (strcmpSort id (forest.map Tree.device)).Nodup :=
    (List.perm_insertionSort _ _).nodup_iff.mpr distinct
  exact (sorted.and apart).imp fun both => lt_of_le_of_ne both.1 both.2

theorem define_reads_back {libxml : Libxml} {disk : D} {history : List Call} {text : String} {faults : List Bool}
    {nif : NetcfIf} {before : Ncf Scripts D}
    (reachable : before = reached augeas (backend machine pathx) libxml augeasXfmCommon disk history)
    (identity : ∀ disk files, augeas.read (entries before.augeasXfmTables) (augeas.write disk files) = files)
    (accepted : libxml.accepts text = some document) (definable : Definable document)
    (defined : drvDefine augeas (backend machine pathx) libxml text (enter faults before) = .ok nif after) :
    ∃ trees forest, get machine document = .ok trees ∧ forest.Perm trees ∧
      (forest.map Tree.device).Pairwise (· < ·) ∧
      (∃ final, augGetXmlForNif augeas pathx nif (enter [] after) = .ok forest final) ∧
      ∀ later found final, augGetXmlForNif augeas pathx nif (enter later after) = .ok found final →
        found = forest := by
  have registered : Registered before := by
    rw [reachable]
    exact registered_reached (backend_safe augeas machine pathx) augeasXfmCommon disk history
  rcases drvDefine_ok registered defined with
    ⟨_, same, name, trees, start, removed, ready, written, saving, defining, _⟩
  cases accepted.symm.trans same
  have root : nif = ⟨rootDevice document⟩ := by
    cases nif
    rw [← deviceName_root definable.vlans, ← name]
  obtain ⟨files, saved, config⟩ := defining_config definable defining
  have transforms : get machine document = .ok trees := defining.transforms
  cases get_forest transforms
  have occupied := occupied_of_config definable config
  have answers := fun disk tables => @answers_augGetXmlForNif _ augeas pathx disk tables _ _ _ occupied
    (forestOf_rooted machine document)
  refine ⟨_, strcmpSort Tree.device (forestOf machine document), transforms, List.perm_insertionSort _ _,
    strcmpSort_sorted occupied.distinct, ?_, ?_⟩
  · obtain ⟨_, opened, run, calm⟩ := @runs_getAugeas _ _ _ augeas (enter [] after) rfl
    have loaded := saved_loads identity saved run
    obtain ⟨final, result, _⟩ := (answers _ _).runs loaded calm
    exact ⟨final, by rw [root, reading_opened run loaded, result]⟩
  · intro later found final result
    obtain ⟨_, _, matched, _⟩ := bind_ok result
    obtain ⟨_, opened, run, _⟩ := bind_ok matched
    have loaded := saved_loads identity saved run
    rw [root, reading_opened run loaded] at result
    exact ((answers _ _).ok loaded result).1

end Define

section Examples

theorem definable_officeBridge (common : Common) : Definable (officeBridge common) where
  distinct := by
    show [some br0, some eth0, some eth2Tagged, some bond0, some eth1].Nodup
    decide
  vlans := by
    intro link listed
    rw [List.mem_singleton.mp listed]
    decide
  plain := by
    show ∀ name ∈ [some br0, some eth0, some eth2Tagged, some bond0, some eth1], ∀ device ∈ name,
      '/' ∉ device.text.toList
    decide

theorem officeBridge_names {common : Common} {device : DeviceName}
    (listed : some device ∈ (officeBridge common).names) : device ∈ [br0, eth0, eth2Tagged, bond0, eth1] := by
  have names : some device ∈ [br0, eth0, eth2Tagged, bond0, eth1].map some := listed
  obtain ⟨found, member, same⟩ := List.mem_map.mp names
  rwa [← Option.some.inj same]

def officeText : String :=
  "<interface type='bridge' name='br0'><start mode='onboot'/><bridge stp='off'>" ++
  "<interface type='ethernet' name='eth0'/>" ++
  "<interface type='vlan' name='eth2.5'><vlan tag='5'><interface name='eth2'/></vlan></interface>" ++
  "<interface type='bond' name='bond0'><bond mode='active-backup'><interface type='ethernet' name='eth1'/>" ++
  "</bond></interface></bridge></interface>"

-- A disk that keeps the tree as it is, and paths that stay within network-scripts.
def direct : Augeas Scripts (Files Scripts) := ⟨fun _ disk => disk, fun _ files => files⟩

def withinScripts : Pathx := ⟨fun _ files => some files, fun _ _ _ => none, fun _ _ => some []⟩

-- A slave that an earlier bond has left behind in a file of another name.
def stale : Files Scripts :=
  ⟨⟨[⟨"ifcfg-lo", [⟨"DEVICE", some "lo"⟩]⟩,
    ⟨"ifcfg-old", [⟨"DEVICE", some "eth7"⟩, ⟨"MASTER", some "bond0"⟩]⟩], by decide⟩, [], []⟩

def beforeOffice : Ncf Scripts (Files Scripts) :=
  reached direct (backend countModulo withinScripts) (.reading officeText (officeBridge unaddressed))
    augeasXfmCommon stale []

theorem office_defined :
    ∃ nif after, drvDefine direct (backend countModulo withinScripts)
      (.reading officeText (officeBridge unaddressed)) officeText (enter [] beforeOffice) = .ok nif after :=
  succeeds_ok (by decide +kernel)

theorem define_reads_back_officeBridge :
    ∃ nif after, drvDefine direct (backend countModulo withinScripts)
        (.reading officeText (officeBridge unaddressed)) officeText (enter [] beforeOffice) = .ok nif after ∧
      ∃ trees forest, get countModulo (officeBridge unaddressed) = .ok trees ∧ forest.Perm trees ∧
        (forest.map Tree.device).Pairwise (· < ·) ∧
        (∃ final, augGetXmlForNif direct withinScripts nif (enter [] after) = .ok forest final) ∧
        ∀ later found final, augGetXmlForNif direct withinScripts nif (enter later after) = .ok found final →
          found = forest := by
  obtain ⟨nif, after, defined⟩ := office_defined
  exact ⟨nif, after, defined, define_reads_back rfl (fun _ _ => rfl) (accepts_reading _ _)
    (definable_officeBridge unaddressed) defined⟩

end Examples

end Netcf.RedHat
