import Netcf.RedHat.Legible

set_option autoImplicit false

-- What drv_lookup_by_name and drv_list_interfaces find after drv_define.
namespace Netcf.RedHat

open Shared.Faulty Shared.Lists Linux Schema Stylesheet

section Defined

variable {D : Type} {augeas : Augeas Scripts D} {machine : Machine} {pathx : Pathx} {document : Interface}
  {after : Ncf Scripts D} {files : Files Scripts} {disk : D} {tables : List (Option Entries)}

-- The name that define returns is that of the root's file, and no port or slave gets the same file.
structure Findable (document : Interface) : Prop where
  named : deviceName document = rootDevice document
  alone : rootDevice document ∉ memberDevices document

section Root

variable {before : Scripts} (plain : ∀ device ∈ devices document, '/' ∉ device.toList)
  (final : Written (forestOf machine document) before files.config)
include plain final

omit plain in
-- Of the files for the root's device the last one stays, and only the first has no master.
theorem rootScript_slave :
    ∃ tree ∈ forestOf machine document, tree.device = rootDevice document ∧ tree.script ∈ files.config.files ∧
      (tree.values "BRIDGE" ≠ [] ∨ tree.values "MASTER" ≠ [] ↔ rootDevice document ∈ memberDevices document) := by
  by_cases again : rootDevice document ∈ memberDevices document
  · rw [← memberTrees_devices] at again
    obtain ⟨front, back, split, fresh⟩ := List.eq_append_cons_of_mem (List.mem_reverse.mpr again)
    have turned := congrArg List.reverse split
    rw [List.reverse_reverse, List.reverse_append, List.reverse_cons, List.append_assoc, List.singleton_append] at turned
    obtain ⟨first, rest, trees, _, others⟩ := List.map_eq_append_iff.mp turned
    obtain ⟨tree, last, rfl, device, apart⟩ := List.map_eq_cons_iff.mp others
    have member : tree ∈ memberTrees document := by
      rw [trees]
      simp
    refine ⟨tree, List.mem_cons_of_mem _ member, device, ?_, by
      simp [memberTrees_slaves member, again, ← memberTrees_devices]⟩
    refine final.last (rootTree _ document :: first) tree last (by rw [forestOf, trees]; rfl) ?_
    intro listed
    obtain ⟨other, inside, same⟩ := List.mem_map.mp listed
    have equal : other.device = rootDevice document := (file_injective same).trans device
    refine fresh (List.mem_reverse.mp ?_)
    rw [← apart, ← equal]
    exact List.mem_map_of_mem inside
  · have fits := rootTree_forDevice (addressNodes_labels machine document.common.addressing) document
    refine ⟨_, List.mem_cons_self, fits.device, ?_, ?_⟩
    · refine final.last [] _ (memberTrees document) rfl ?_
      intro listed
      obtain ⟨other, inside, same⟩ := List.mem_map.mp listed
      have equal : other.device = rootDevice document := (file_injective same).trans fits.device
      rw [← memberTrees_devices, ← equal] at again
      exact again (List.mem_map_of_mem inside)
    · have loose := rootTree_loose (@addressNodes_addresses machine document.common.addressing) document
      simp [loose "BRIDGE", loose "MASTER", again]

theorem lookup_root :
    Answers (Loaded disk tables) Calm files (drvLookupByName augeas pathx (rootDevice document))
      (if rootDevice document ∈ memberDevices document then none else some ⟨rootDevice document⟩) := by
  obtain ⟨tree, inside, device, listed, slave⟩ := rootScript_slave final
  have here : Ordinary tree.device := device ▸ devices_ordinary List.mem_cons_self (plain _ List.mem_cons_self)
  have answer := @answers_drvLookupByName _ augeas pathx _ _ disk tables here listed
  have test := @slavePath_script pathx _ _ here listed
  rw [slave, device] at test
  rw [device] at answer
  by_cases again : rootDevice document ∈ memberDevices document
  · rw [if_pos (test.mpr again)] at answer
    rwa [if_pos again]
  · rw [if_neg fun found => again (test.mp found)] at answer
    rwa [if_neg again]

-- The root's own file is in the listing when it is no slave.
theorem listed_root (alone : rootDevice document ∉ memberDevices document)
    (isActive : String → Bool) : rootDevice document ∈ listedNames pathx files isActive bothFlags := by
  obtain ⟨tree, inside, device, listed, slave⟩ := rootScript_slave final
  have here : Ordinary tree.device := device ▸ devices_ordinary List.mem_cons_self (plain _ List.mem_cons_self)
  have named : tree.values "DEVICE" = [tree.device] := (forestOf_forDevice inside).devices
  rw [← device, listedNames]
  refine List.mem_filter.mpr ⟨List.mem_filterMap.mpr ⟨some (ifcfgPath tree.device), ?_, ?_⟩, rfl⟩
  · refine List.mem_filter.mpr ⟨List.mem_map.mpr ⟨tree.device, ?_, ?_⟩, ?_⟩
    · rw [deviceNames, strcmpSort, List.mem_insertionSort, List.mem_eraseDups]
      refine List.mem_filterMap.mpr ⟨some tree.device, List.mem_flatMap.mpr ⟨tree.script, ?_, ?_⟩, rfl⟩
      · exact List.mem_filter.mpr ⟨listed, rfl⟩
      · simp [script_values, named]
    · rw [foundPath, if_pos (count_tree here listed)]
    · have free : slavePath pathx files (ifcfgPath tree.device) = false := by
        rw [← Bool.not_eq_true, slavePath_script here listed, slave]
        exact alone
      simp [free]
  · simp [reportedName, labelledAt_script here listed, named]

end Root

-- A name that the file of the vlan is not under is not in the listing either: drv_define has removed
-- what was there for it.
theorem unlisted_name {names : List String} {before : Scripts} {name : String}
    (regular : Regular files) (legible : Legible files) (removed : name ∈ names)
    (final : Written (forestOf machine document) (before.removeAll names) files.config)
    (other : name ∉ devices document) (isActive : String → Bool) (flags : Flags) :
    name ∉ listedNames pathx files isActive flags := by
  intro listed
  obtain ⟨path, top, reported⟩ := List.mem_filterMap.mp (List.mem_of_mem_filter listed)
  obtain ⟨script, member, holds⟩ := reported_device regular legible top reported
  rcases final.origin script member with old | ⟨tree, inside, rfl⟩
  · have free := removeAll_free old removed (show "DEVICE" ∈ ["DEVICE", "BRIDGE", "MASTER"] by simp)
    rw [has_iff.mpr holds] at free
    cases free
  · rw [script_values, (forestOf_forDevice inside).devices] at holds
    have same : name = tree.device := by simpa using holds
    apply other
    rw [same, ← @forestOf_devices machine]
    exact List.mem_map_of_mem inside

theorem deviceName_removed (other : deviceName document ≠ rootDevice document) :
    deviceName document ∈ (nameAttributes document).reduceOption ∧ deviceName document ∉ devices document := by
  cases document with
  | ethernet common nic => exact absurd rfl other
  | bridge common name hub => exact absurd rfl other
  | bond common team => exact absurd rfl other
  | vlan common link =>
    cases name : link.name with
    | none => exact absurd (by simp [Linux.deviceName, rootDevice, name]) other
    | some text =>
      constructor
      · simp [Linux.deviceName, nameAttributes, Interface.rootName, Interface.memberNames, List.reduceOption, name]
      · simpa [devices, memberDevices] using other

-- The interface is looked up by its name, and listed.
def Found (augeas : Augeas Scripts D) (pathx : Pathx) (isActive : String → Bool) (maxnames : Nat) (nif : NetcfIf)
    (ncf : Ncf Scripts D) : Prop :=
  (∃ found, drvLookupByName augeas pathx nif.name ncf = .ok (some nif) found) ∧
    ∃ names final, drvListInterfaces augeas pathx isActive maxnames bothFlags ncf = .ok names final ∧ nif.name ∈ names

section Resulting

variable {before : Scripts} {ncf : Ncf Scripts D} (plain : ∀ device ∈ devices document, '/' ∉ device.toList)
include plain

theorem lookup_findable (final : Written (forestOf machine document) before files.config)
    (quiet : Quiet disk tables ncf files) (findable : Findable document) :
    ∃ found, drvLookupByName augeas pathx (deviceName document) ncf = .ok (some ⟨deviceName document⟩) found := by
  have answer := @lookup_root _ augeas _ pathx _ _ disk tables _ plain final
  rw [if_neg findable.alone, ← findable.named] at answer
  obtain ⟨state, run, _⟩ := answer.runs quiet.1 quiet.2
  exact ⟨state, run⟩

theorem found_iff_findable {isActive : String → Bool} {maxnames : Nat}
    (final : Written (forestOf machine document) (before.removeAll (nameAttributes document).reduceOption) files.config)
    (quiet : Quiet disk tables ncf files) (regular : Regular files) (legible : Legible files)
    (room : (listedNames pathx files isActive bothFlags).length ≤ maxnames) :
    Found augeas pathx isActive maxnames ⟨deviceName document⟩ ncf ↔ Findable document := by
  have listing := @answers_drvListInterfaces _ augeas pathx disk tables _ (legible.intact regular) isActive bothFlags
    maxnames
  rw [List.take_of_length_le room] at listing
  constructor
  · rintro ⟨⟨state, looked⟩, names, rest, listed, member⟩
    have named : deviceName document = rootDevice document := by
      by_contra other
      obtain ⟨gone, outside⟩ := deviceName_removed other
      rw [(listing.ok quiet.1 listed).1] at member
      exact unlisted_name regular legible gone final outside isActive bothFlags member
    refine ⟨named, ?_⟩
    intro again
    have answer := @lookup_root _ augeas _ pathx _ _ disk tables _ plain final
    rw [if_pos again, ← named] at answer
    cases (answer.ok quiet.1 looked).1
  · intro findable
    refine ⟨lookup_findable plain final quiet findable, ?_⟩
    obtain ⟨rest, run, _⟩ := listing.runs quiet.1 quiet.2
    refine ⟨_, rest, run, ?_⟩
    rw [show deviceName document = rootDevice document from findable.named]
    exact listed_root plain final findable.alone isActive

end Resulting

end Defined

section Examples

-- The tree that the definition of the example leaves behind.
def officeTree : Files Scripts :=
  match drvDefine direct (backend countModulo withinScripts) (.reading officeText (officeBridge unaddressed))
      officeText (enter [] beforeOffice) with
  | .ok _ after => after.disk
  | .error _ after => after.disk

theorem sound_officeTree : Regular officeTree ∧ Legible officeTree := by
  have checks :
      ((∀ script ∈ officeTree.config.files, none ∉ script.values "DEVICE" ∧ '/' ∉ script.name.toList) ∧
        (∀ node ∈ hwaddrs officeTree.config, node.2.isSome = true) ∧ (officeTree.sysfs.map (·.1)).Nodup) ∧
      ∀ name ∈ deviceNames officeTree, (StepName name ∧ '\'' ∉ name.toList) ∧
        ∀ place ∈ leadsTo officeTree name, place.Readable := by
    decide +kernel
  obtain ⟨⟨scripts, hwaddrs, addresses⟩, names⟩ := checks
  exact ⟨⟨fun script member => (scripts script member).1, hwaddrs, addresses, fun script member => (scripts script member).2⟩,
    legible_of_named (fun name listed => (names name listed).1) fun name listed => (names name listed).2⟩

-- Whether the interface that drv_define returns is found by its name, and whether it is listed.
def foundAgain (text : String) (document : Interface) : Option (Bool × Bool) :=
  match drvDefine direct (backend countModulo withinScripts) (.reading text document) text
      (enter [] (fresh augeasXfmCommon stale)) with
  | .error _ _ => none
  | .ok nif after =>
    let looked := match drvLookupByName direct withinScripts nif.name (enter [] after) with
      | .ok found _ => found.isSome
      | .error _ _ => false
    let listed := match drvListInterfaces direct withinScripts (fun _ => false) 10 bothFlags (enter [] after) with
      | .ok names _ => names.contains nif.name
      | .error _ _ => false
    some (looked, listed)

def renamedVlan : Interface := .vlan unaddressed { tagged with name := some br0 }

def renamedText : String :=
  "<interface type='vlan' name='br0'><start mode='onboot'/><vlan tag='5'><interface name='eth2'/></vlan></interface>"

def selfBridge : Interface := .bridge unaddressed br0 ⟨none, none, [.ethernet ⟨br0, none⟩]⟩

def selfText : String :=
  "<interface type='bridge' name='br0'><start mode='onboot'/><bridge><interface type='ethernet' name='br0'/>" ++
  "</bridge></interface>"

end Examples

end Netcf.RedHat
