import Netcf.RedHat.Shelf

set_option autoImplicit false

-- What the calls of the driver say about the items on the shelf, in every state that a run leads to.
namespace Netcf.RedHat

open Shared.Faulty Shared.Simulation Shared.Shelf Shared.Lists Schema Stylesheet Linux
open Lenses (TypableFiles redhat_types)

section Driver

variable {D : Type} (augeas : Augeas Scripts D) (pathx : Pathx) (machine : Machine)

def drvXmlDesc (nif : NetcfIf) : Api Scripts D (List Shared.Xml) := do
  let forest ← augGetXmlForNif augeas pathx nif
  attempt .nomem
  attempt .nomem
  attempt .nomem
  return put machine forest

end Driver

section Stock

variable {machine : Machine} {item : Item} {shelf : List Item} {scripts : Scripts}

theorem Stocked.roots (stocked : Stocked machine shelf scripts) : (shelf.map Item.root).Nodup := by
  refine List.pairwise_map.mpr (stocked.apart.imp fun {left right} disjoint same => ?_)
  exact disjoint (root_listed left) (same ▸ root_listed right)

theorem Stocked.related (stocked : Stocked machine shelf scripts) (member : item ∈ shelf) {tree : Tree}
    (inside : tree ∈ item.trees machine) : scripts.related item.root tree.script = true := by
  have device {own : Tree} (listed : own ∈ item.trees machine) : own.values "DEVICE" = [own.device] :=
    (forDevice_item (stocked.proper item member) listed).devices
  rw [related_iff, script_has, script_has, script_has, belowPort_iff]
  rcases (rooted_item machine item).joined tree inside with root | bridge | master | ⟨port, listed, bridge, master⟩
  · rw [device inside, root]
    exact Or.inl (List.mem_singleton_self _)
  · exact Or.inr (Or.inl bridge)
  · exact Or.inr (Or.inr (Or.inl master))
  · refine Or.inr (Or.inr (Or.inr ⟨port.script, stocked.listed member listed, script_has.mpr bridge, some port.device,
      ?_, ?_⟩))
    · rw [script_values, device listed]
      exact List.mem_singleton_self _
    · rw [script_values]
      exact List.mem_map_of_mem master

-- A match that comes across the item's root only where the item is finds files of the item only.
theorem Stocked.filter_item (stocked : Stocked machine shelf scripts) (member : item ∈ shelf) {p : Script → Bool}
    (own : ∀ other ∈ shelf, ∀ tree ∈ other.trees machine, p tree.script = true → item.root ∈ other.devices) :
    scripts.files.filter p = (item.scripts machine).filter p := by
  have alone := filter_unique stocked.roots member
  have same : scripts.files.filter p =
      (shelf.filter fun other => decide (other.root = item.root)).flatMap fun other => (other.scripts machine).filter p := by
    rw [stocked.files, List.filter_flatMap, flatMap_filter]
    refine List.flatMap_congr fun other listed => ?_
    by_cases here : other.root = item.root
    · rw [if_pos (decide_eq_true here)]
    · rw [if_neg (by simpa using here), List.filter_eq_nil_iff]
      intro script inside found
      obtain ⟨tree, within, rfl⟩ := mem_scripts.mp inside
      have shared := own other listed tree within found
      exact here (congrArg Item.root (stocked.apart.same listed member shared (root_listed item)))
  rw [same, alone, List.flatMap_singleton]

-- What aug_get_xml_for_nif matches are the files of the item, in the order in which they were written.
theorem Stocked.filter_related (stocked : Stocked machine shelf scripts) (member : item ∈ shelf) :
    scripts.files.filter (scripts.related item.root) = item.scripts machine := by
  rw [stocked.filter_item member, List.filter_eq_self]
  · intro script inside
    obtain ⟨tree, within, rfl⟩ := mem_scripts.mp inside
    exact stocked.related member within
  · intro other listed tree within found
    by_contra foreign
    rw [stocked.unrelated listed within foreign] at found
    cases found

end Stock

section Answers

variable {D : Type} {augeas : Augeas Scripts D} {pathx : Pathx} {machine : Machine} {disk : D}
  {tables : List (Option Entries)} {files : Files Scripts} {shelf : List Item} {item : Item}

theorem answers_item (stocked : Stocked machine shelf files.config) (member : item ∈ shelf) :
    Answers (Loaded disk tables) Calm files (drvXmlDesc augeas pathx machine ⟨item.root⟩)
      (put machine (strcmpSort Tree.device (item.trees machine))) := by
  have proper := stocked.proper item member
  have forest := @answers_related _ augeas pathx disk tables files _ _ (fun _ inside => forDevice_item proper inside)
    (fun _ inside => plain_item proper (device_item inside)) (by rw [trees_devices]; exact nodup_item proper)
    (fun _ inside => stocked.listed member inside) (stocked.filter_related member)
  exact forest.bind ((answers_attempt .nomem).bind ((answers_attempt .nomem).bind
    ((answers_attempt .nomem).bind (answers_pure _))))

theorem answers_named (stocked : Stocked machine shelf files.config) (member : item ∈ shelf) {device : String}
    (listed : device ∈ item.devices) :
    Answers (Loaded disk tables) Calm files (drvLookupByName augeas pathx device)
      (if device = item.root then some ⟨device⟩ else none) := by
  have proper := stocked.proper item member
  rw [← trees_devices machine] at listed
  obtain ⟨tree, inside, rfl⟩ := List.mem_map.mp listed
  have plain := plain_item proper (device_item inside)
  have here := stocked.listed member inside
  have answer := @answers_drvLookupByName _ augeas pathx _ _ disk tables plain here
  have slave := @slavePath_script pathx _ _ plain here
  rw [slave_item proper inside] at slave
  by_cases root : tree.device = item.root
  · rw [if_neg fun found => slave.mp found root] at answer
    rwa [if_pos root]
  · rw [if_pos (slave.mpr root)] at answer
    rwa [if_neg root]

structure Standing (files : Files Scripts) (tree : Tree) : Prop where
  fits : tree.ForDevice tree.device
  plain : Ordinary tree.device
  listed : tree.script ∈ files.config.files

theorem answers_collectTrees {isActive : String → Bool} {flags : Flags} (maxnames : Nat) {trees : Forest}
    (standing : ∀ tree ∈ trees, Standing files tree) :
    Answers (Loaded disk tables) Calm files
      (collectIds augeas pathx isActive flags maxnames (trees.map fun tree => some (ifcfgPath tree.device)))
      (((trees.map Tree.device).filter (qualified isActive flags)).take maxnames) := by
  induction trees generalizing maxnames with
  | nil => cases maxnames <;> exact answers_pure _
  | cons tree rest ih =>
    have later := fun room => ih room fun other member => standing other (List.mem_cons_of_mem tree member)
    cases maxnames with
    | zero => exact answers_pure _
    | succ room =>
      have here := standing tree List.mem_cons_self
      have named : labelledAt pathx (ifcfgPath tree.device) "DEVICE" files = some [some tree.device] := by
        rw [labelledAt_script here.plain here.listed, here.fits.devices, List.map_singleton]
      have found := @answers_augFmtFind _ _ disk tables files _ augeas _
        (labelledAt pathx (ifcfgPath tree.device) "DEVICE") _ named
      refine found.bind ((answers_augGet tree.device).bind ?_)
      rw [List.map_cons]
      cases test : qualified isActive flags tree.device with
      | true =>
        rw [List.filter_cons_of_pos test, List.take_succ_cons]
        exact (answers_attempt .nomem).bind ((later room).bind (answers_pure _))
      | false =>
        rw [List.filter_cons_of_neg (by simp [test])]
        exact later (room + 1)

def allTrees (machine : Machine) (shelf : List Item) : Forest :=
  shelf.flatMap (Item.trees machine)

def rootTrees (machine : Machine) (shelf : List Item) : Forest :=
  (strcmpSort Tree.device (allTrees machine shelf)).filter fun tree => decide (tree.device ∈ shelf.map Item.root)

theorem Stocked.standing (stocked : Stocked machine shelf files.config) {tree : Tree}
    (member : tree ∈ allTrees machine shelf) : Standing files tree := by
  obtain ⟨item, listed, inside⟩ := List.mem_flatMap.mp member
  have proper := stocked.proper item listed
  exact ⟨forDevice_item proper inside, plain_item proper (device_item inside), stocked.listed listed inside⟩

theorem Stocked.distinct (stocked : Stocked machine shelf files.config) :
    ((allTrees machine shelf).map Tree.device).Nodup := by
  have same : (allTrees machine shelf).map Tree.device = shelf.flatMap Item.devices := by
    rw [allTrees, List.map_flatMap]
    exact List.flatMap_congr fun item _ => trees_devices machine item
  rw [same, List.nodup_flatMap]
  exact ⟨fun item member => nodup_item (stocked.proper item member), stocked.apart⟩

-- A device is a root if its file is not that of a slave.
theorem Stocked.root_iff (stocked : Stocked machine shelf files.config) {tree : Tree}
    (member : tree ∈ allTrees machine shelf) :
    slavePath pathx files (ifcfgPath tree.device) = true ↔ tree.device ∉ shelf.map Item.root := by
  have standing := stocked.standing member
  obtain ⟨item, listed, inside⟩ := List.mem_flatMap.mp member
  rw [slavePath_script standing.plain standing.listed, slave_item (stocked.proper item listed) inside, Ne, not_iff_not]
  constructor
  · intro root
    exact List.mem_map.mpr ⟨item, listed, root.symm⟩
  · intro root
    obtain ⟨other, present, same⟩ := List.mem_map.mp root
    have own := stocked.apart.same listed present (device_item inside) (same ▸ root_listed other)
    rw [own, same]

theorem Stocked.rootTrees (stocked : Stocked machine shelf files.config) :
    (RedHat.rootTrees machine shelf).map Tree.device = strcmpSort id (shelf.map Item.root) := by
  have sorted := strcmpSort_strict stocked.distinct
  have left : ((RedHat.rootTrees machine shelf).map Tree.device).Pairwise (· < ·) :=
    List.pairwise_map.mpr (sorted.sublist List.filter_sublist)
  have right : (strcmpSort id (shelf.map Item.root)).Pairwise (· < ·) := by
    have distinct : ((shelf.map Item.root).map id).Nodup := by
      rw [List.map_id]
      exact stocked.roots
    exact strcmpSort_strict distinct
  refine List.Perm.eq_of_pairwise (fun _ _ _ _ below above => absurd below (lt_asymm above)) left right ?_
  refine (List.perm_ext_iff_of_nodup (left.imp ne_of_lt) (right.imp ne_of_lt)).mpr fun device => ?_
  rw [(strcmpSort_perm id _).mem_iff]
  constructor
  · intro member
    obtain ⟨tree, inside, rfl⟩ := List.mem_map.mp member
    exact of_decide_eq_true (List.mem_filter.mp inside).2
  · intro member
    obtain ⟨item, listed, rfl⟩ := List.mem_map.mp member
    obtain ⟨tree, inside, root⟩ := (rooted_item machine item).listed
    refine List.mem_map.mpr ⟨tree, List.mem_filter.mpr ⟨?_, ?_⟩, root⟩
    · exact (strcmpSort_perm _ _).mem_iff.mpr (List.mem_flatMap.mpr ⟨item, listed, inside⟩)
    · rw [root]
      exact decide_eq_true member

theorem answers_topTrees (stocked : Stocked machine shelf files.config) :
    Answers (Loaded disk tables) Calm files (listInterfaces augeas pathx)
      ((rootTrees machine shelf).map fun tree => some (ifcfgPath tree.device)) := by
  have all : files.config.files.filter (fun _ => true) = (allTrees machine shelf).map Tree.script := by
    rw [List.filter_true, stocked.files, allTrees, List.map_flatMap]
    rfl
  have found := @answers_augFmtMatch _ _ disk tables files _ augeas _ fun files => files.config.devices fun _ => true
  rw [devices_filtered (fun _ member => (stocked.standing member).fits) all] at found
  have paths := @answers_uniqIfcfgPaths _ augeas pathx disk tables files _ stocked.distinct fun name member => by
    obtain ⟨tree, inside, rfl⟩ := List.mem_map.mp member
    exact count_tree (stocked.standing inside).plain (stocked.standing inside).listed
  rw [strcmpSort_devices, @List.map_map _ _ _ _ Tree.device (strcmpSort Tree.device (allTrees machine shelf))] at paths
  have marked := @answers_mapM _ _ _ _ _ (Loaded disk tables) Calm files
    (fun tree : Tree => (do
      return (some (ifcfgPath tree.device), ← isSlave augeas pathx (some (ifcfgPath tree.device))) :
        Api Scripts D (Option String × Bool)))
    (fun tree => (some (ifcfgPath tree.device), slavePath pathx files (ifcfgPath tree.device)))
    (strcmpSort Tree.device (allTrees machine shelf)) (fun tree member => by
      have standing := stocked.standing ((strcmpSort_perm _ _).mem_iff.mp member)
      refine (answers_isSlave fun label _ => ?_).bind (answers_pure _)
      rw [labelledAt_script standing.plain standing.listed]
      rfl)
  refine answers_getAugeas.bind ((found.bind paths).bind ?_)
  rw [List.mapM_map]
  refine marked.bind ?_
  have same : (((strcmpSort Tree.device (allTrees machine shelf)).map fun tree =>
        (some (ifcfgPath tree.device), slavePath pathx files (ifcfgPath tree.device))).filter fun entry => !entry.2).map
          (·.1) = (rootTrees machine shelf).map fun tree => some (ifcfgPath tree.device) := by
    rw [List.filter_map, List.map_map, rootTrees]
    refine congrArg _ (List.filter_congr fun tree member => ?_)
    have root := @Stocked.root_iff pathx machine files shelf stocked tree ((strcmpSort_perm _ _).mem_iff.mp member)
    rw [Function.comp_apply, Bool.eq_iff_iff, decide_eq_true_iff, Bool.not_eq_true', ← Bool.not_eq_true, root, not_not]
  rw [same]
  exact answers_pure _

theorem answers_listing (stocked : Stocked machine shelf files.config) (isActive : String → Bool) (flags : Flags)
    (maxnames : Nat) :
    Answers (Loaded disk tables) Calm files (drvListInterfaces augeas pathx isActive maxnames flags)
      (((strcmpSort id (shelf.map Item.root)).filter (qualified isActive flags)).take maxnames) := by
  have collected := @answers_collectTrees _ augeas pathx disk tables files isActive flags maxnames
    (rootTrees machine shelf) fun tree member =>
      stocked.standing ((strcmpSort_perm _ _).mem_iff.mp (List.mem_of_mem_filter member))
  rw [stocked.rootTrees] at collected
  exact answers_getAugeas.bind ((answers_topTrees stocked).bind collected)

end Answers

section Runs

variable {D : Type} (augeas : Augeas Scripts D) (machine : Machine) (pathx : Pathx) (libxml : Libxml)

-- The driver, and the items whose files it is to have.
structure Stock (D : Type) where
  ncf : Ncf Scripts D
  shelf : List Item

def rearranged : Call → List Item → List Item
  | .look _, shelf => shelf
  | .define text _, shelf =>
    match libxml.accepts text with
    | some document => shelve Item.root Item.devices (.document document) shelf
    | none => shelf
  | .undefine nif _, shelf => discard Item.root nif.name shelf

def serveStock (call : Call) (s : Stock D) : Answer Scripts × Stock D :=
  let served := serve augeas (backend machine pathx) libxml call s.ncf
  (served.1, ⟨served.2, if served.1.writes = true then rearranged libxml call s.shelf else s.shelf⟩)

-- The call is about whole items: a document may take the place of items, but it may not share a device with an
-- item whose root is none of its own, and nothing but a root is undefined.
def Tidy : Call → List Item → Prop
  | .look _, _ => True
  | .define text _, shelf => ∀ document, libxml.accepts text = some document →
      Definable document ∧ Fits Item.root Item.devices (.document document) shelf
  | .undefine nif _, shelf => Whole Item.root Item.devices nif.name shelf

def TidyRun : List Call → Stock D → Prop
  | [], _ => True
  | call :: rest, s => Tidy libxml call s.shelf ∧ TidyRun rest (serveStock augeas machine pathx libxml call s).2

structure Keeping (s : Stock D) : Prop where
  registered : Registered s.ncf
  tables : s.ncf.augeasXfmTables = [some augeasXfmCommon]
  stocked : Stocked machine s.shelf (loadedTree augeas s.ncf).config

variable {augeas machine pathx libxml}

theorem undefining_config {nif : NetcfIf} {faults : List Bool} {ncf after : Ncf Scripts D} (registered : Registered ncf)
    (run : drvUndefine augeas (backend machine pathx) nif (enter faults ncf) = .ok () after) :
    ∃ files, Saved augeas ncf files after ∧ files.config = (loadedTree augeas ncf).config.removeRelated nif.name := by
  obtain ⟨opened, unaliased, removed, loaded, aliasing, removing, saves⟩ := drvUndefine_ok registered run
  obtain ⟨aliased, shown, same⟩ := bondSetup_config loaded aliasing
  obtain ⟨files, changing, still⟩ := (implements_rmInterface nif.name).ok shown removing
  cases changing
  refine ⟨_, saves still, ?_⟩
  change aliased.config.removeRelated nif.name = _
  rw [same, loadedTree]

theorem loadedTree_lensed {util : Lenses.Remarks} {files : Files Scripts} {before after : Ncf Scripts D}
    (lensed : Lensed (TypableFiles util) augeas augeasXfmCommon) (tables : before.augeasXfmTables = [some augeasXfmCommon])
    (saved : Saved augeas before files after) (typed : TypableFiles util files.config) :
    loadedTree augeas after = files := by
  rw [loadedTree, saved.tables, tables, saved.disk]
  exact lensed.writes before.disk files typed

theorem keeping_serve {util : Lenses.Remarks} (lensed : Lensed (TypableFiles util) augeas augeasXfmCommon) {call : Call}
    {s : Stock D} (tidy : Tidy libxml call s.shelf) (keeping : Keeping augeas machine s) :
    Keeping augeas machine (serveStock augeas machine pathx libxml call s).2 := by
  have safe := backend_safe augeas machine pathx
  cases writes : (serve augeas (backend machine pathx) libxml call s.ncf).1.writes with
  | false =>
    have sound := @serve_sound _ _ _ _ _ _ libxml safe s.ncf.disk s.ncf.augeasXfmTables call s.ncf
      ⟨⟨rfl, rfl⟩, keeping.registered⟩ writes
    refine ⟨sound.registered, sound.store.2.trans keeping.tables, ?_⟩
    rw [serveStock, loadedTree, sound.store.1, sound.store.2, writes]
    exact keeping.stocked
  | true =>
    have lens : Lensed (TypableFiles util) augeas (entries s.ncf.augeasXfmTables) := by
      rw [keeping.tables]
      exact lensed
    obtain ⟨files, typed, saved⟩ := serve_saved (redhat_types augeas machine pathx) keeping.registered lens
      (fun text faults same document accepted => by
        cases same
        exact fun device listed => (tidy document accepted).1.devices_plain listed) writes
    refine ⟨saved.registered, saved.tables.trans keeping.tables, ?_⟩
    have tree := loadedTree_lensed lensed keeping.tables saved typed
    change Stocked machine (if (serve augeas (backend machine pathx) libxml call s.ncf).1.writes = true then
      rearranged libxml call s.shelf else s.shelf) (loadedTree augeas (serve augeas (backend machine pathx) libxml call
        s.ncf).2).config
    rw [if_pos writes, tree]
    cases call with
    | look faults =>
      simp only [serve, obtained] at writes
      split at writes
      · cases writes
      · split at writes <;> cases writes
    | define text faults =>
      obtain ⟨document, forest, _, _, _, _, _, accepted, defining⟩ := serve_defining keeping.registered writes
      obtain ⟨definable, fits⟩ := tidy document accepted
      obtain ⟨own, kept, config⟩ := defining_config definable defining
      cases saved.unique kept
      rw [get_forest defining.transforms] at config
      simp only [rearranged, accepted]
      exact keeping.stocked.shelve definable fits config
    | undefine nif faults =>
      cases run : drvUndefine augeas (backend machine pathx) nif (enter faults s.ncf) with
      | error code after => simp [serve, run, Answer.writes] at writes
      | ok _ after =>
        simp only [serve, run] at saved
        obtain ⟨own, kept, config⟩ := undefining_config keeping.registered run
        cases saved.unique kept
        rw [config]
        exact keeping.stocked.discard tidy

theorem keeping_run {util : Lenses.Remarks} (lensed : Lensed (TypableFiles util) augeas augeasXfmCommon)
    {calls : List Call} {s : Stock D} (tidy : TidyRun augeas machine pathx libxml calls s)
    (keeping : Keeping augeas machine s) :
    Keeping augeas machine (run (serveStock augeas machine pathx libxml) calls s).2 := by
  induction calls generalizing s with
  | nil => exact keeping
  | cons call rest ih => exact ih tidy.2 (keeping_serve lensed tidy.1 keeping)

end Runs

section Ports

variable {machine : Machine} {document : Interface} {item : Item} {shelf : List Item} {scripts : Scripts}

-- What bridge_slaves lists for the root of an item, in the order of the document.
def Item.ports : Item → List String
  | .document document => document.ports.map Port.device
  | .file _ => []

theorem bridged_item (proper : item.Proper) :
    ((item.trees machine).filter fun tree => decide (item.root ∈ tree.values "BRIDGE")).map Tree.device = item.ports := by
  cases item with
  | file own =>
    have loose : ∀ tree ∈ [own], tree.values "BRIDGE" = [] := List.forall_mem_singleton.mpr (Tree.Alone.bridge proper)
    change ([own].filter fun tree => decide (own.device ∈ tree.values "BRIDGE")).map Tree.device = []
    rw [bridged_none loose, List.map_nil]
  | document document => exact bridged_forest machine document

theorem Stocked.ports (stocked : Stocked machine shelf scripts) (member : item ∈ shelf) :
    ports scripts item.root = item.ports.map some := by
  have proper := stocked.proper item member
  have filtered : scripts.files.filter (·.has "BRIDGE" item.root) =
      ((item.trees machine).filter fun tree => decide (item.root ∈ tree.values "BRIDGE")).map Tree.script := by
    rw [stocked.filter_item member, Item.scripts, List.filter_map]
    · refine congrArg _ (List.filter_congr fun tree _ => ?_)
      rw [Function.comp_apply, Bool.eq_iff_iff, script_has, decide_eq_true_iff]
    · intro other listed tree within found
      exact closed_item (stocked.proper other listed) within (by simp) (script_has.mp found)
  rw [RedHat.ports, devices_filtered (fun tree inside => forDevice_item proper (List.mem_of_mem_filter inside)) filtered,
    bridged_item proper]

theorem Stocked.bridging (stocked : Stocked machine shelf scripts) (member : item ∈ shelf)
    (other : bridging scripts item.root = false) : item.ports = [] := by
  cases item with
  | file own => rfl
  | document document =>
    change document.ports.map Port.device = []
    rw [bridging_root (stocked.listed member List.mem_cons_self) other, List.map_nil]

-- Only the root of an item is a bridge of others.
theorem bridge_item (proper : item.Proper) {tree : Tree} (member : tree ∈ item.trees machine) {value : String}
    (named : value ∈ tree.values "BRIDGE") : value = item.root := by
  cases item with
  | file own =>
    rw [List.mem_singleton.mp member, Tree.Alone.bridge proper] at named
    cases named
  | document document =>
    rcases List.mem_cons.mp member with rfl | inMembers
    · rw [rootTree_free (by simp)] at named
      cases named
    cases member_of_memberTrees inMembers with
    | @port common name hub port inHub =>
      rw [portTree_bridge] at named
      exact List.mem_singleton.mp named
    | @portSlave common name hub team slave inHub =>
      rw [slaveTree_other team.name slave (by simp)] at named
      cases named
    | @slave common team slave =>
      rw [slaveTree_other team.name slave (by simp)] at named
      cases named

theorem Stocked.portless (stocked : Stocked machine shelf scripts) {name : String}
    (other : ∀ item ∈ shelf, item.root ≠ name) : RedHat.ports scripts name = [] := by
  rw [RedHat.ports, Scripts.devices, List.flatMap_eq_nil_iff]
  intro script member
  obtain ⟨listed, bridge⟩ := List.mem_filter.mp member
  obtain ⟨item, present, tree, inside, rfl⟩ := stocked.source listed
  exact absurd (bridge_item (stocked.proper item present) inside (script_has.mp bridge)).symm (other item present)

theorem Stocked.clear_iff (stocked : Stocked machine shelf scripts) {words : Nat → Bool} {name : String} :
    (RedHat.bridging scripts name = true → Clear words (RedHat.ports scripts name).length) ↔
      ∀ item ∈ shelf, item.root = name → Clear words item.ports.length := by
  have none_compared : Clear words 0 := fun i impossible => absurd impossible (Nat.not_lt_zero i)
  constructor
  · rintro clear item member rfl
    rw [stocked.ports member, List.length_map] at clear
    cases bridge : RedHat.bridging scripts item.root with
    | true => exact clear bridge
    | false =>
      rw [stocked.bridging member bridge]
      exact none_compared
  · intro clear _
    by_cases known : ∃ item ∈ shelf, item.root = name
    · obtain ⟨item, member, rfl⟩ := known
      rw [stocked.ports member, List.length_map]
      exact clear item member rfl
    · rw [stocked.portless fun item member same => known ⟨item, member, same⟩]
      exact none_compared

end Ports

section Told

variable {D : Type} {augeas : Augeas Scripts D} {machine : Machine} {pathx : Pathx} {libxml : Libxml}
  {ncf : Ncf Scripts D} {shelf : List Item}

-- What the call answers when nothing fails, and the only thing that it answers when something does.
structure Delivers {α : Type} (program : Api Scripts D α) (ncf : Ncf Scripts D) (a : α) : Prop where
  calm : ∃ after, program (enter [] ncf) = .ok a after
  only : ∀ faults b after, program (enter faults ncf) = .ok b after → b = a

def Opens {α : Type} (augeas : Augeas Scripts D) (program : Api Scripts D α) : Prop :=
  ∃ next, program = getAugeas augeas >>= next

theorem Opens.bind {α β : Type} {program : Api Scripts D α} (opens : Opens augeas program) (next : α → Api Scripts D β) :
    Opens augeas (program >>= next) := by
  obtain ⟨first, rfl⟩ := opens
  exact ⟨_, bind_assoc _ _ _⟩

theorem opened_loaded {α : Type} {program : Api Scripts D α} (registered : Registered ncf)
    (opens : Opens augeas program) {faults : List Bool} {after : Ncf Scripts D}
    (run : getAugeas augeas (enter faults ncf) = .ok () after) :
    Loaded ncf.disk ncf.augeasXfmTables after (loadedTree augeas ncf) ∧ program (enter faults ncf) = program after := by
  obtain ⟨next, rfl⟩ := opens
  have loaded := @getAugeas_loads _ _ _ _ { ncf with faults := faults } _ registered run
  refine ⟨loaded, ?_⟩
  rw [bind_of_ok _ run, bind_of_ok _ (getAugeas_loaded loaded)]

-- A call starts with get_augeas, and what it reads is the tree that has been loaded then.
theorem opened_calm {α : Type} {program : Api Scripts D α} {a : α} (registered : Registered ncf)
    (opens : Opens augeas program)
    (answers : Answers (Loaded ncf.disk ncf.augeasXfmTables) Calm (loadedTree augeas ncf) program a) :
    ∃ after, program (enter [] ncf) = .ok a after ∧ Loaded ncf.disk ncf.augeasXfmTables after (loadedTree augeas ncf) ∧
      Calm after := by
  obtain ⟨_, opened, run, calm⟩ := @runs_getAugeas _ _ _ augeas (enter [] ncf) rfl
  obtain ⟨loaded, same⟩ := opened_loaded registered opens run
  rw [same]
  exact answers.runs loaded calm

theorem delivers_opened {α : Type} {program : Api Scripts D α} {a : α} (registered : Registered ncf)
    (opens : Opens augeas program)
    (answers : Answers (Loaded ncf.disk ncf.augeasXfmTables) Calm (loadedTree augeas ncf) program a) :
    Delivers program ncf a := by
  constructor
  · obtain ⟨after, result, _⟩ := opened_calm registered opens answers
    exact ⟨after, result⟩
  · intro faults b final result
    obtain ⟨next, same⟩ := opens
    obtain ⟨_, opened, run, _⟩ := bind_ok (same ▸ result)
    obtain ⟨loaded, here⟩ := opened_loaded registered ⟨next, same⟩ run
    exact (answers.ok loaded (here ▸ result)).1

-- A document that comes back as it is, but for the order of its ports and slaves.
structure Describable (document : Interface) : Prop where
  readable : Readable document
  noIpv6 : document.common.addressing.ipv6 = none
  canonical : ∀ length ∈ document.ipv4Prefix, length.Canonical
  narrow : ∀ length ∈ document.ipv4Prefix, 0 < length.value ∧ length.value ≠ 32

structure Tells (augeas : Augeas Scripts D) (machine : Machine) (pathx : Pathx) (shelf : List Item)
    (ncf : Ncf Scripts D) : Prop where
  files : (loadedTree augeas ncf).config.files = shelf.flatMap (Item.scripts machine)
  lists : ∀ isActive maxnames flags, Delivers (drvListInterfaces augeas pathx isActive maxnames flags) ncf
    (((strcmpSort id (shelf.map Item.root)).filter (qualified isActive flags)).take maxnames)
  finds : ∀ item ∈ shelf, ∀ device ∈ item.devices, Delivers (drvLookupByName augeas pathx device) ncf
    (if device = item.root then some ⟨device⟩ else none)
  describes : ∀ document, .document document ∈ shelf → Describable document →
    Delivers (drvXmlDesc augeas pathx machine ⟨rootDevice document⟩) ncf [(arranged document).toXml]
  -- LATER is the machine as the call finds it.
  undefines : ∀ later name, (∃ after, drvUndefine augeas (backend later pathx) ⟨name⟩ (enter [] ncf) = .ok () after) ↔
    ∀ item ∈ shelf, item.root = name → Clear later.nullBehind item.ports.length

theorem undefine_stocked_iff (registered : Registered ncf)
    (stocked : Stocked machine shelf (loadedTree augeas ncf).config) (later : Machine) (name : String) :
    (∃ after, drvUndefine augeas (backend later pathx) ⟨name⟩ (enter [] ncf) = .ok () after) ↔
      ∀ item ∈ shelf, item.root = name → Clear later.nullBehind item.ports.length := by
  obtain ⟨_, opened, opening, calm⟩ := @runs_getAugeas _ _ _ augeas (enter [] ncf) rfl
  have loaded := @getAugeas_loads _ _ _ _ { ncf with faults := [] } _ registered opening
  have valued : none ∉ ports (loadedTree augeas ncf).config name := by
    intro missing
    obtain ⟨script, listed, device⟩ := List.mem_flatMap.mp missing
    obtain ⟨item, present, tree, inside, rfl⟩ := stocked.source (List.mem_of_mem_filter listed)
    rw [script_values] at device
    simp at device
  rw [← stocked.clear_iff]
  constructor
  · rintro ⟨after, undefined⟩
    exact undefine_clear opening ⟨loaded, calm⟩ valued undefined
  · intro clear
    have unaliasing := @unalias_all _ (targets (loadedTree augeas ncf).config name) (loadedTree augeas ncf)
    rw [← bondSetupModel_eq (fun _ => valued) clear] at unaliasing
    obtain ⟨final, undefined, _⟩ := drvUndefine_calm (implements_bondSetup later pathx name false)
      (implements_rmInterface name) opening ⟨loaded, calm⟩ unaliasing (change_some rfl)
    exact ⟨final, undefined⟩

theorem tells_keeping {s : Stock D} (keeping : Keeping augeas machine s) :
    Tells augeas machine pathx s.shelf s.ncf where
  files := keeping.stocked.files
  lists isActive maxnames flags :=
    delivers_opened keeping.registered ⟨_, rfl⟩ (answers_listing keeping.stocked isActive flags maxnames)
  finds item member device listed :=
    delivers_opened keeping.registered ⟨_, rfl⟩ (answers_named keeping.stocked member listed)
  describes document member describable := by
    have answer := @answers_item _ augeas pathx machine s.ncf.disk s.ncf.augeasXfmTables _ _ _ keeping.stocked member
    have whole := put_sorted_exact machine describable.readable describable.noIpv6 describable.canonical describable.narrow
    rw [Item.trees, whole] at answer
    have matched : Opens augeas (augFmtMatch augeas fun files =>
        files.config.devices (files.config.related (rootDevice document))) := ⟨_, rfl⟩
    exact delivers_opened keeping.registered ((matched.bind _).bind _) answer
  undefines later name := undefine_stocked_iff keeping.registered keeping.stocked later name

end Told

section Examples

def loopback : Tree :=
  ⟨ifcfgPath "lo", [⟨"DEVICE", "lo"⟩, ⟨"IPADDR", "127.0.0.1"⟩, ⟨"NETMASK", "255.0.0.0"⟩, ⟨"ONBOOT", "yes"⟩]⟩

theorem loopback_alone : loopback.Alone where
  fits := ⟨rfl, rfl, by decide⟩
  plain := by decide
  unquoted := by decide
  bridge := rfl
  master := rfl

def cardShelf : List Item :=
  [.file loopback, .document Lenses.card]

def cardDisk : Files Scripts :=
  ⟨⟨cardShelf.flatMap (Item.scripts countModulo), by decide +kernel⟩, [], []⟩

theorem definable_card : Definable Lenses.card where
  distinct := List.nodup_singleton _
  vlans link listed := by cases listed
  plain name listed device named := by
    cases List.mem_singleton.mp listed
    cases named
    decide

theorem stocked_card : Stocked countModulo cardShelf (Lenses.legibleFiles.read augeasXfmCommon cardDisk).config where
  files := by decide +kernel
  proper item listed := by
    rcases List.mem_cons.mp listed with rfl | last
    · exact loopback_alone
    · rw [List.mem_singleton.mp last]
      exact definable_card
  apart := by
    refine List.pairwise_pair.mpr fun device own other => ?_
    rw [List.mem_singleton.mp own] at other
    exact absurd (List.mem_singleton.mp other) (by decide)

-- The first define fails between the removal of the old files and the save of the new ones.
def officeCalls : List Call :=
  [.define officeText (List.replicate 55 false ++ [true]), .define officeText [], .look []]

theorem officeCalls_tidy :
    TidyRun Lenses.legibleFiles countModulo withinScripts (.reading officeText (officeBridge unaddressed)) officeCalls
      ⟨fresh augeasXfmCommon cardDisk, cardShelf⟩ := by
  have about {faults : List Bool} {shelf : List Item}
      (fits : Fits Item.root Item.devices (.document (officeBridge unaddressed)) shelf) :
      Tidy (.reading officeText (officeBridge unaddressed)) (.define officeText faults) shelf := by
    intro document accepted
    rw [accepts_reading] at accepted
    cases accepted
    exact ⟨definable_officeBridge unaddressed, fits⟩
  exact ⟨about (by decide +kernel), about (by decide +kernel), trivial, trivial⟩

end Examples

end Netcf.RedHat
