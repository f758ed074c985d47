import Netcf.RedHat.Legible

set_option autoImplicit false

-- Whether drv_list_interfaces and drv_lookup_by_name agree on what is a configured interface.
namespace Netcf.RedHat

open Shared.Faulty Shared.Lists Linux

variable {D : Type} {augeas : Augeas Scripts D} {pathx : Pathx} {disk : D} {tables : List (Option Entries)}
  {files : Files Scripts}

section Names

variable (pathx : Pathx) (files : Files Scripts)

-- No slave's place: there is neither MASTER nor BRIDGE.
def Place.Free (place : Place) : Prop :=
  ∀ label ∈ subifPaths, place.values label = []

instance (place : Place) : Decidable place.Free :=
  inferInstanceAs (Decidable (∀ label ∈ subifPaths, place.values label = []))

-- The name of the device leads to a place that is no slave's.
def Configured (name : String) : Prop :=
  ∃ place ∈ leadsTo files name, place.Free

-- The device is configured, and its name leads to a file of the owner that is no slave's: the owner is
-- what is listed for it.
def Reports (device owner : String) : Prop :=
  device ∈ deviceNames files ∧ ∃ script, leadsTo files device = some (.file script) ∧
    (Place.file script).Free ∧ script.has "DEVICE" owner = true

-- The file is another device's.
def Strays (device other : String) : Prop :=
  Reports files device other ∧ other ≠ device

-- A device strays to another one alone, and that one is out of the way: its own name leads below the file
-- of some address, or strays further.
def Straight : Prop :=
  ∀ device other, Strays files device other →
    ((∃ script node, leadsTo files other = some (.entry script node)) ∨ ∃ third, Strays files other third) ∧
      ∀ another, Strays files another other → another = device

-- What drv_lookup_by_name tests: the file that is found for the name exists and is no slave's.
def topLevel (name : String) : Bool :=
  (foundPath pathx files name).any fun path => !slavePath pathx files path

def topNames : List String :=
  (deviceNames files).filter (topLevel pathx files)

-- The DEVICE in the file that is found for the name.
def ownerOf (name : String) : Option String :=
  reportedName pathx files (foundPath pathx files name)

end Names

section Straight

theorem slavePath_place (regular : Regular files) {place : Place} (within : place.Within files)
    (readable : place.Readable) : (!slavePath pathx files place.path) = true ↔ place.Free := by
  unfold slavePath Place.Free
  simp only [labelledAt_place regular within readable, Option.getD_some]
  simp

theorem answers_lookup_asked {name : String} (regular : Regular files) (askable : Askable files name)
    (asked : ∀ place ∈ leadsTo files name, ∀ label ∈ subifPaths,
      (labelledAt pathx place.path label files).isSome = true) :
    Answers (Loaded disk tables) Calm files (drvLookupByName augeas pathx name)
      (if topLevel pathx files name then some ⟨name⟩ else none) := by
  have searched := @answers_findPath _ augeas pathx disk tables files name regular.hwaddrs
    (searched_of_askable regular askable)
  refine answers_getAugeas.bind (searched.bind ?_)
  unfold topLevel
  rw [foundPath_place regular askable]
  cases leads : leadsTo files name with
  | none => exact answers_pure _
  | some place =>
    refine (answers_isSlave (asked place leads)).bind ?_
    rw [Option.map_some, Option.any_some]
    cases slavePath pathx files place.path with
    | true => exact answers_pure _
    | false => exact (answers_attempt .nomem).bind ((answers_makeNetcfIf name).bind (answers_pure _))

theorem answers_lookup {name : String} (regular : Regular files) (askable : Askable files name)
    (readable : ∀ place ∈ leadsTo files name, place.Readable) :
    Answers (Loaded disk tables) Calm files (drvLookupByName augeas pathx name)
      (if topLevel pathx files name then some ⟨name⟩ else none) := by
  refine answers_lookup_asked regular askable fun place leads label _ => ?_
  rw [labelledAt_place regular (leadsTo_within leads) (readable place leads)]
  rfl

theorem topLevel_iff {name : String} (regular : Regular files) (askable : Askable files name)
    (readable : ∀ place ∈ leadsTo files name, place.Readable) :
    topLevel pathx files name = true ↔ Configured files name := by
  unfold topLevel Configured
  rw [foundPath_place regular askable]
  cases leads : leadsTo files name with
  | none => simp
  | some place =>
    rw [Option.map_some, Option.any_some, slavePath_place regular (leadsTo_within leads) (readable place leads)]
    simp

theorem deviceNames_nodup : (deviceNames files).Nodup := by
  unfold deviceNames strcmpSort
  exact (List.perm_insertionSort _ _).nodup_iff.mpr (nodup_eraseDups _)

theorem listedNames_eq (intact : Intact pathx files) (isActive : String → Bool) :
    listedNames pathx files isActive bothFlags = (topNames pathx files).filterMap (ownerOf pathx files) := by
  have tops : topPaths pathx files = (topNames pathx files).map (foundPath pathx files) := by
    unfold topPaths topNames
    rw [List.filter_map]
    have same : ∀ name ∈ deviceNames files, ((fun path => !path.any (slavePath pathx files)) ∘ foundPath pathx files) name =
        topLevel pathx files name := by
      intro name listed
      obtain ⟨path, found, _⟩ := intact.paths name listed
      simp [topLevel, found]
    rw [List.filter_congr same]
  have all : qualified isActive bothFlags = fun _ => true := by
    funext name
    rfl
  have owners : reportedName pathx files ∘ foundPath pathx files = ownerOf pathx files := by
    funext name
    rw [Function.comp_apply, ownerOf]
  unfold listedNames
  rw [tops, List.filterMap_map, all, List.filter_true, owners]

variable (regular : Regular files) (legible : Legible files)
  (single : ∀ script ∈ files.config.files, (script.values "DEVICE").length = 1)

include single in
-- The last DEVICE of a file is its only one.
theorem last_device_iff {script : Script} (member : script ∈ files.config.files) {owner : String} :
    (script.values "DEVICE").getLast?.join = some owner ↔ script.has "DEVICE" owner = true := by
  obtain ⟨value, only⟩ := List.length_eq_one_iff.mp (single script member)
  rw [has_iff, only, List.mem_singleton, List.getLast?_singleton, Option.join_some]
  exact eq_comm

include regular legible single in
theorem reports_iff {device owner : String} :
    device ∈ topNames pathx files ∧ ownerOf pathx files device = some owner ↔ Reports files device owner := by
  unfold topNames Reports
  rw [List.mem_filter, and_assoc]
  refine and_congr_right fun listed => ?_
  rw [topLevel_iff regular (legible.askable device listed) (legible.readable device listed), Configured, ownerOf,
    reportedName_place regular legible listed]
  obtain ⟨place, leads, within⟩ := leadsTo_device listed
  rw [leads]
  cases place with
  | entry script node => simp [Place.values]
  | file script =>
    have last := @last_device_iff _ single script within.listed owner
    simpa [Place.values] using fun _ => last

include single in
theorem device_unique {script : Script} (member : script ∈ files.config.files) {first second : String}
    (one : script.has "DEVICE" first = true) (two : script.has "DEVICE" second = true) : first = second := by
  rw [← last_device_iff single member] at one two
  exact Option.some.inj (one.symm.trans two)

theorem Reports.listed {device owner : String} (reports : Reports files device owner) : owner ∈ deviceNames files := by
  obtain ⟨_, script, leads, _, holds⟩ := reports
  exact mem_deviceNames.mpr ⟨script, (leadsTo_within leads).listed, has_iff.mp holds⟩

include single in
-- A device that is listed under its own name does not stray, and nothing is left below its file.
theorem Reports.settled {device : String} (reports : Reports files device device)
    (away : (∃ script node, leadsTo files device = some (.entry script node)) ∨ ∃ third, Strays files device third) :
    False := by
  obtain ⟨_, script, leads, _, holds⟩ := reports
  rcases away with ⟨other, node, below⟩ | ⟨third, ⟨_, other, again, _, named⟩, different⟩
  · cases leads.symm.trans below
  · cases leads.symm.trans again
    exact different (device_unique single (leadsTo_within leads).listed named holds)

include regular single in
-- Where the names of the list are distinct and found, a device that strays leaves room for nobody else.
theorem straight_iff :
    (∀ device another owner, Reports files device owner → Reports files another owner → device = another) ∧
        (∀ device owner, Reports files device owner → Configured files owner) ↔
      Straight files := by
  constructor
  · rintro ⟨apart, found⟩ device other ⟨reports, different⟩
    refine ⟨?_, fun another strays => apart another device other strays.1 reports⟩
    obtain ⟨place, leads, free⟩ := found device other reports
    cases place with
    | entry script node => exact Or.inl ⟨script, node, leads⟩
    | file script =>
      have member : script ∈ files.config.files := (leadsTo_within leads).listed
      obtain ⟨value, only⟩ := List.length_eq_one_iff.mp (single script member)
      have valued := regular.devices script member
      cases value with
      | none =>
        rw [only] at valued
        exact absurd (List.mem_singleton_self _) valued
      | some third =>
        have holds : script.has "DEVICE" third = true := has_iff.mpr (only ▸ List.mem_singleton_self _)
        have further : Reports files other third := ⟨reports.listed, script, leads, free, holds⟩
        refine Or.inr ⟨third, further, ?_⟩
        rintro rfl
        exact different (apart _ _ _ further reports)
  · intro straight
    refine ⟨?_, ?_⟩
    · intro device another owner first second
      by_cases own : owner = device
      · subst own
        by_contra other
        exact first.settled single (straight another owner ⟨second, other⟩).1
      · by_cases theirs : owner = another
        · subst theirs
          exact absurd (straight device owner ⟨first, own⟩).1 (second.settled single)
        · exact ((straight device owner ⟨first, own⟩).2 another ⟨second, theirs⟩).symm
    · intro device owner reports
      by_cases own : owner = device
      · subst own
        obtain ⟨_, script, leads, free, _⟩ := reports
        exact ⟨_, leads, free⟩
      · rcases (straight device owner ⟨reports, own⟩).1 with ⟨script, node, below⟩ | ⟨third, ⟨_, script, leads, free, _⟩, _⟩
        · exact ⟨_, below, fun _ _ => rfl⟩
        · exact ⟨_, leads, free⟩

-- It is enough that no device leads to a file of another one that is no slave's.
theorem straight_of_own (own : ∀ device ∈ deviceNames files, ∀ place ∈ leadsTo files device, place.Free →
    ∀ value ∈ place.values "DEVICE", value = some device) : Straight files := by
  rintro device other ⟨⟨listed, script, leads, free, holds⟩, different⟩
  exact absurd (Option.some.inj (own device listed _ leads free _ (has_iff.mp holds))) different

include regular legible single in
-- Listing and look-up of names.
theorem names_agree_iff :
    ((topNames pathx files).filterMap (ownerOf pathx files)).Nodup ∧
        (∀ name ∈ (topNames pathx files).filterMap (ownerOf pathx files), topLevel pathx files name = true) ↔
      Straight files := by
  have distinct : (topNames pathx files).Nodup := deviceNames_nodup.sublist List.filter_sublist
  have reports := fun device owner => @reports_iff pathx _ regular legible single device owner
  have found : ∀ owner, owner ∈ deviceNames files → (topLevel pathx files owner = true ↔ Configured files owner) :=
    fun owner listed => topLevel_iff regular (legible.askable owner listed) (legible.readable owner listed)
  rw [nodup_filterMap_iff distinct, ← straight_iff regular single]
  constructor
  · rintro ⟨apart, looked⟩
    refine ⟨?_, ?_⟩
    · intro device another owner first second
      obtain ⟨one, named⟩ := (reports device owner).mpr first
      obtain ⟨two, again⟩ := (reports another owner).mpr second
      exact apart device one another two (by rw [named]; rfl) (named.trans again.symm)
    · intro device owner first
      obtain ⟨one, named⟩ := (reports device owner).mpr first
      exact (found owner first.listed).mp (looked owner (List.mem_filterMap.mpr ⟨device, one, named⟩))
  · rintro ⟨apart, looked⟩
    refine ⟨?_, ?_⟩
    · intro device one another two present same
      obtain ⟨owner, named⟩ := Option.isSome_iff_exists.mp present
      exact apart device another owner ((reports device owner).mp ⟨one, named⟩)
        ((reports another owner).mp ⟨two, same ▸ named⟩)
    · intro owner listed
      obtain ⟨device, one, named⟩ := List.mem_filterMap.mp listed
      have first := (reports device owner).mp ⟨one, named⟩
      exact (found owner first.listed).mpr (looked device owner first)

end Straight

section Examples

-- The file of eth1 is called after eth0, and that of eth0 is called otherwise.
def crossed : Files Scripts :=
  ⟨⟨[⟨"ifcfg-eth0", [⟨"DEVICE", some "eth1"⟩]⟩, ⟨"ifcfg-old", [⟨"DEVICE", some "eth0"⟩]⟩], by decide⟩, [], []⟩

end Examples

end Netcf.RedHat
