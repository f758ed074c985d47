import Netcf.RedHat.Define

set_option autoImplicit false

-- The files that drv_define leaves alone.  It removes files by what they hold but writes files by
-- their name, so a file stays when neither is about one of the interfaces of the document.
namespace Netcf.RedHat

open Shared.Faulty Shared.Lists Linux Schema Stylesheet

theorem set_keeps {scripts changed : Scripts} {name label value : String} {script : Script}
    (member : script ∈ scripts.files) (apart : script.name ≠ name)
    (set : scripts.set name label value = some changed) : script ∈ changed.files := by
  unfold Scripts.set at set
  split at set
  · cases set
    exact List.mem_append_left _ member
  · split at set
    · cases set
      refine List.mem_map.mpr ⟨script, member, ?_⟩
      simp [apart]
    · cases set

section Put

variable {pathx : Pathx} {script : Script}

theorem augSet_keeps {path name label value : String} (plain : scriptLabel path = some name)
    (apart : script.name ≠ name) {files changed : Files Scripts} (member : script ∈ files.config.files)
    (result : pathx.augSet path label value files = some changed) : script ∈ changed.config.files := by
  rw [Pathx.augSet, plain] at result
  obtain ⟨scripts, set, rfl⟩ := Option.map_eq_some_iff.mp result
  exact set_keeps member apart set

theorem putTreeModel_keeps {tree : Tree} {name : String} (plain : scriptLabel tree.path = some name)
    (apart : script.name ≠ name) {files after : Files Scripts} {u : Unit} (member : script ∈ files.config.files)
    (run : putTreeModel pathx tree files = .ok (u, after)) : script ∈ after.config.files := by
  obtain ⟨_, cleared, clear, fill⟩ := model_bind_ok run
  have first := change_ok clear
  rw [Pathx.augRm, plain] at first
  obtain ⟨scripts, same, rfl⟩ := Option.map_eq_some_iff.mp first
  cases same
  have still : script ∈ (files.config.remove (·.name = name)).files :=
    mem_remove.mpr ⟨member, by simpa using apart⟩
  exact forM_change_ok (P := fun files => script ∈ files.config.files)
    (fun node _ _ _ before result => augSet_keeps plain apart before result) fill still

theorem putForest_keeps {forest : Forest}
    (plain : ∀ tree ∈ forest, ∃ name, scriptLabel tree.path = some name ∧ script.name ≠ name)
    {files after : Files Scripts} {u : Unit} (member : script ∈ files.config.files)
    (run : forest.forM (putTreeModel pathx) files = .ok (u, after)) : script ∈ after.config.files := by
  induction forest generalizing files with
  | nil =>
    cases run
    exact member
  | cons tree rest ih =>
    obtain ⟨_, middle, first, others⟩ := model_bind_ok run
    obtain ⟨name, label, apart⟩ := plain tree List.mem_cons_self
    exact ih (fun other later => plain other (List.mem_cons_of_mem tree later))
      (putTreeModel_keeps label apart member first) others

end Put

theorem mem_nameAttributes {document : Interface} {name : String} (listed : some name ∈ nameAttributes document) :
    (∃ device, some device ∈ document.names ∧ device.text = name) ∨ (document.rootName = none ∧ name = "") := by
  rcases List.mem_cons.mp listed with root | member
  · cases present : document.rootName with
    | none =>
      right
      simpa [present] using root
    | some device =>
      left
      refine ⟨device, by simp [Interface.names, present], ?_⟩
      simpa [present, eq_comm] using root
  · left
    obtain ⟨found, inside, same⟩ := List.mem_map.mp member
    obtain ⟨device, rfl, rfl⟩ := Option.map_eq_some_iff.mp same
    exact ⟨device, List.mem_cons_of_mem _ inside, rfl⟩

section Define

variable {D : Type} {augeas : Augeas Scripts D} {machine : Machine} {pathx : Pathx} {document : Interface}

theorem defining_keeps {forest : Forest} {ncf start removed ready written saving after : Ncf Scripts D}
    (defining : Defining augeas (backend machine pathx) document forest ncf start removed ready written saving after)
    {script : Script} (member : script ∈ (loadedTree augeas ncf).config.files)
    (unrelated : ∀ name, some name ∈ nameAttributes document →
      (loadedTree augeas ncf).config.related name script = false)
    (plain : ∀ device ∈ devices document, '/' ∉ device.toList)
    (apart : ∀ device ∈ devices document, script.name ≠ "ifcfg-" ++ device) :
    ∃ files, Saved augeas ncf files after ∧ script ∈ files.config.files := by
  have trees : forest = forestOf machine document := get_forest defining.transforms
  rcases (implements_rmAllInterfaces machine pathx document).ok defining.loaded defining.removes with
    ⟨cleared, clearing, shown⟩
  have named := rmModel_named clearing
  rw [named, rmModel_ok] at clearing
  cases clearing
  rcases (implements_augPutXml pathx forest).ok (defining.waits.loaded shown) defining.puts with
    ⟨filled, filling, shown⟩
  have survives : script ∈ ((loadedTree augeas ncf).config.removeAll (nameAttributes document).reduceOption).files := by
    refine removeAll_keeps member fun name listed => unrelated name ?_
    rw [named]
    exact List.mem_map_of_mem listed
  have stays : script ∈ filled.config.files := by
    refine putForest_keeps ?_ survives filling
    intro tree inside
    rw [trees] at inside
    have listed := mem_devices inside
    have ordinary := devices_ordinary listed (plain _ listed)
    exact ⟨tree.file, ForDevice.plain (forestOf_forDevice inside) ordinary, apart _ listed⟩
  obtain ⟨aliased, shown, same⟩ := bondSetup_config shown defining.aliases
  exact ⟨aliased, defining.saves shown, same ▸ stays⟩

theorem define_leaves_unrelated {libxml : Libxml} {disk : D} {history : List Call} {text : String}
    {faults : List Bool} {nif : NetcfIf} {before after : Ncf Scripts D}
    (reachable : before = reached augeas (backend machine pathx) libxml augeasXfmCommon disk history)
    (accepted : libxml.accepts text = some document)
    (defined : drvDefine augeas (backend machine pathx) libxml text (enter faults before) = .ok nif after)
    {script : Script} (member : script ∈ (loadedTree augeas before).config.files)
    (unrelated : ∀ device, some device ∈ document.names →
      (loadedTree augeas before).config.related device.text script = false)
    (unnamed : document.rootName = none → (loadedTree augeas before).config.related "" script = false)
    (plain : ∀ device ∈ devices document, '/' ∉ device.toList)
    (apart : ∀ device ∈ devices document, script.name ≠ "ifcfg-" ++ device) :
    ∃ files, after.augeas.map (·.files) = some files ∧ after.disk = augeas.write before.disk files ∧
      script ∈ files.config.files := by
  have registered : Registered before := by
    rw [reachable]
    exact registered_reached (backend_safe augeas machine pathx) augeasXfmCommon disk history
  rcases drvDefine_ok registered defined with
    ⟨_, same, _, forest, start, removed, ready, written, saving, defining, _⟩
  cases accepted.symm.trans same
  have all : ∀ name, some name ∈ nameAttributes document →
      (loadedTree augeas before).config.related name script = false := by
    intro name listed
    rcases mem_nameAttributes listed with ⟨device, inside, rfl⟩ | ⟨missing, rfl⟩
    · exact unrelated device inside
    · exact unnamed missing
  obtain ⟨files, saved, stays⟩ := defining_keeps defining member all plain apart
  exact ⟨files, by rw [saved.present]; rfl, saved.disk, stays⟩

end Define

section Examples

-- Whether drv_define succeeds and the file is not there any more.
def lost (pathx : Pathx) (text : String) (document : Interface) (files : Files Scripts) (script : Script) : Bool :=
  match drvDefine direct (backend countModulo pathx) (.reading text document) text
      (enter [] (fresh augeasXfmCommon files)) with
  | .ok _ after => !decide (script ∈ after.disk.config.files)
  | .error _ _ => false

theorem define_leaves_loopback :
    ∃ nif after, drvDefine direct (backend countModulo withinScripts)
        (.reading officeText (officeBridge unaddressed)) officeText (enter [] beforeOffice) = .ok nif after ∧
      ∃ files, after.augeas.map (·.files) = some files ∧
        after.disk = direct.write beforeOffice.disk files ∧
        (⟨"ifcfg-lo", [⟨"DEVICE", some "lo"⟩]⟩ : Script) ∈ files.config.files := by
  obtain ⟨nif, after, defined⟩ := office_defined
  have unrelated : ∀ device, some device ∈ (officeBridge unaddressed).names →
      stale.config.related device.text ⟨"ifcfg-lo", [⟨"DEVICE", some "lo"⟩]⟩ = false := by
    have all : ∀ device ∈ [br0, eth0, eth2Tagged, bond0, eth1],
        stale.config.related device.text ⟨"ifcfg-lo", [⟨"DEVICE", some "lo"⟩]⟩ = false := by
      decide
    intro device listed
    exact all device (officeBridge_names listed)
  refine ⟨nif, after, defined, define_leaves_unrelated rfl (accepts_reading _ _) defined ?_ unrelated ?_ ?_ ?_⟩
  · decide
  · intro missing
    cases missing
  · decide
  · decide

def misnamed : Files Scripts := ⟨⟨[⟨"ifcfg-eth0", [⟨"DEVICE", some "eth7"⟩]⟩], by decide⟩, [], []⟩

def cardText : String := "<interface type='ethernet' name='eth0'><start mode='onboot'/></interface>"

def card : Interface := .ethernet unaddressed ⟨eth0, none⟩

-- Augeas on the paths NAME/../OTHER below network-scripts, where the file NAME exists.
def below (path : String) : List String :=
  ((path.toList.splitOn '/').drop 5).map String.ofList

def upAndDown : Pathx where
  rm path files :=
    match below path with
    | [first, "..", name] =>
      if files.config.files.any (·.name = first) then
        onScripts (fun scripts => some (scripts.remove (·.name = name))) files
      else some files
    | _ => some files
  set path value files :=
    match below path with
    | [first, "..", name, label] =>
      if files.config.files.any (·.name = first) then
        onScripts (fun scripts => scripts.set name label value) files
      else none
    | _ => none
  find _ _ := some []

def slashed : DeviceName := ⟨"a/../ifcfg-eth9", by decide +kernel⟩

def slashedText : String := "<interface type='ethernet' name='a/../ifcfg-eth9'><start mode='onboot'/></interface>"

def besideA : Files Scripts :=
  ⟨⟨[⟨"ifcfg-a", [⟨"DEVICE", some "a"⟩]⟩, ⟨"ifcfg-eth9", [⟨"DEVICE", some "eth7"⟩]⟩], by decide⟩, [], []⟩

def unnamedVlan : Interface := .vlan unaddressed { tagged with name := none }

def unnamedText : String :=
  "<interface type='vlan'><start mode='onboot'/><vlan tag='5'><interface name='eth2'/></vlan></interface>"

def emptyBridge : Files Scripts :=
  ⟨⟨[⟨"ifcfg-lan", [⟨"DEVICE", some "eth7"⟩, ⟨"BRIDGE", some ""⟩]⟩], by decide⟩, [], []⟩

-- A file is lost by its name alone, by way of a name with slashes in it, and by the empty name that
-- device_name_from_xml gives to a vlan without one.
theorem define_loses_unrelated :
    (misnamed.config.related "eth0" ⟨"ifcfg-eth0", [⟨"DEVICE", some "eth7"⟩]⟩ = false ∧
      lost withinScripts cardText card misnamed ⟨"ifcfg-eth0", [⟨"DEVICE", some "eth7"⟩]⟩ = true) ∧
    (besideA.config.related slashed.text ⟨"ifcfg-eth9", [⟨"DEVICE", some "eth7"⟩]⟩ = false ∧
      lost upAndDown slashedText (.ethernet unaddressed ⟨slashed, none⟩) besideA
        ⟨"ifcfg-eth9", [⟨"DEVICE", some "eth7"⟩]⟩ = true) ∧
    (emptyBridge.config.related "eth2.5" ⟨"ifcfg-lan", [⟨"DEVICE", some "eth7"⟩, ⟨"BRIDGE", some ""⟩]⟩ = false ∧
      lost withinScripts unnamedText unnamedVlan emptyBridge
        ⟨"ifcfg-lan", [⟨"DEVICE", some "eth7"⟩, ⟨"BRIDGE", some ""⟩]⟩ = true) := by
  decide +kernel

end Examples

end Netcf.RedHat
