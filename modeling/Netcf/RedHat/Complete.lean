import Netcf.RedHat.BondSetup
import Netcf.RedHat.Define

set_option autoImplicit false

-- What can still go wrong in drv_define once the document is valid and nothing outside fails.
namespace Netcf.RedHat

open Shared.Faulty Linux Schema Stylesheet

section Steps

variable {D : Type} {augeas : Augeas Scripts D} {machine : Machine} {pathx : Pathx} {document : Interface}
  {disk : D} {tables : List (Option Entries)} {files : Files Scripts}

theorem applyStylesheet_refused {ncf : Ncf Scripts D} {e : TransformError} (calm : Calm ncf)
    (refused : get machine document = .error e) :
    applyStylesheet (get machine) document ncf = .error .xsltFailed ncf := by
  unfold applyStylesheet
  rw [bind_of_ok _ (attempt_calm .nomem calm), bind_of_ok _ (attempt_calm .nomem calm), refused]
  rfl

-- The names that rm_all_interfaces goes through when every interface element has one.
theorem nameAttributes_named (named : ∀ name ∈ document.memberNames, name.isSome) :
    nameAttributes document = (nameAttributes document).reduceOption.map some := by
  have all : ∀ names : List (Option String), (∀ name ∈ names, name.isSome) → names = names.reduceOption.map some := by
    intro names present
    induction names with
    | nil => rfl
    | cons name rest ih =>
      cases name with
      | none => exact absurd (present none List.mem_cons_self) (by simp)
      | some text =>
        change some text :: rest = some text :: rest.reduceOption.map some
        rw [← ih fun name later => present name (List.mem_cons_of_mem _ later)]
  apply all
  intro name listed
  rcases List.mem_cons.mp listed with rfl | member
  · rfl
  · obtain ⟨found, inside, rfl⟩ := List.mem_map.mp member
    simpa using named found inside

theorem rmAllInterfaces_named (named : ∀ name ∈ document.memberNames, name.isSome) {ncf : Ncf Scripts D}
    (loaded : Loaded disk tables ncf files) (calm : Calm ncf) :
    ∃ removed, rmAllInterfaces augeas (backend machine pathx) document ncf = .ok () removed ∧
      Loaded disk tables removed
        { files with config := files.config.removeAll (nameAttributes document).reduceOption } ∧ Calm removed := by
  have model := rmModel_ok (nameAttributes document).reduceOption files
  rw [← nameAttributes_named named] at model
  exact (implements_rmAllInterfaces machine pathx document).runs loaded calm model

end Steps

section Run

variable {D : Type} (augeas : Augeas Scripts D) (machine : Machine) (pathx : Pathx) (document : Interface)

-- drv_define from the stylesheet on.
def writing : EStateM Failure (Ncf Scripts D) String := do
  let forest ← stage .applyStylesheet (applyStylesheet (get machine) document)
  stage .augPutXml (augPutXml augeas pathx forest)
  stage .bondSetup (bondSetup augeas (backend machine pathx) (deviceName document) true)
  return deviceName document

def finishing : EStateM Failure (Ncf Scripts D) NetcfIf := do
  let name ← writing augeas machine pathx document
  stage .augSave (augSave augeas)
  stage .makeNetcfIf (makeNetcfIf name)

variable {augeas machine pathx document} {libxml : Libxml} {text : String} {before : Ncf Scripts D}

theorem define_reaches_stylesheet (registered : Registered before) (accepted : libxml.accepts text = some document)
    (named : ∀ name ∈ document.memberNames, name.isSome) :
    ∃ removed, Quiet before.disk before.augeasXfmTables removed
        { loadedTree augeas before with
          config := (loadedTree augeas before).config.removeAll (nameAttributes document).reduceOption } ∧
      drvDefine augeas (backend machine pathx) libxml text (enter [] before) =
        finishing augeas machine pathx document removed := by
  obtain ⟨doc, parsed, valid⟩ := Option.bind_eq_some_iff.mp accepted
  obtain ⟨_, opened, opening, calm⟩ := @runs_getAugeas _ _ _ augeas (enter [] before) rfl
  have loaded : Loaded before.disk before.augeasXfmTables opened (loadedTree augeas before) :=
    @getAugeas_loads _ _ _ _ { before with faults := [] } _ registered opening
  obtain ⟨one, parsing, loaded, calm⟩ := (answers_parseXml parsed).runs loaded calm
  obtain ⟨two, validating, loaded, calm⟩ := (answers_rngValidate valid).runs loaded calm
  obtain ⟨three, naming, loaded, calm⟩ := (answers_deviceNameFromXml document).runs loaded calm
  rcases @rmAllInterfaces_named _ augeas machine pathx _ _ _ _ named _ loaded calm with
    ⟨removed, removing, loaded, calm⟩
  refine ⟨removed, ⟨loaded, calm⟩, ?_⟩
  apply bind_same
  unfold defineInTree
  rw [bind_of_ok _ (stage_of_ok _ opening), bind_of_ok _ (stage_of_ok _ parsing),
    bind_of_ok _ (stage_of_ok _ validating), bind_of_ok _ (stage_of_ok _ naming),
    bind_of_ok _ (stage_of_ok _ removing)]
  rfl

variable {disk : D} {tables : List (Option Entries)} {files : Files Scripts} {ncf after : Ncf Scripts D}

-- Nothing but the stylesheet and the calls of Augeas in the last two steps can refuse.
theorem finishing_error (quiet : Quiet disk tables ncf files) {failure : Failure}
    (run : finishing augeas machine pathx document ncf = .error failure after) :
    failure.step ∈ [Step.applyStylesheet, .augPutXml, .bondSetup] := by
  rcases bind_error run with failed | ⟨name, saving, ran, rest⟩
  · rcases bind_error failed with transform | ⟨forest, ready, _, failed⟩
    · simp [(stage_error transform).1]
    rcases bind_error failed with put | ⟨_, written, _, failed⟩
    · simp [(stage_error put).1]
    rcases bind_error failed with setup | ⟨_, _, _, impossible⟩
    · simp [(stage_error setup).1]
    · cases impossible
  · obtain ⟨forest, ready, transform, ran⟩ := bind_ok ran
    obtain ⟨_, written, put, ran⟩ := bind_ok ran
    obtain ⟨_, _, setup, done⟩ := bind_ok ran
    cases done
    have later := (applyStylesheet_ok (stage_ok transform)).2
    rcases (toQuiet (implements_augPutXml pathx forest)).ok ⟨later.loaded quiet.1, later.calm quiet.2⟩
      (stage_ok put) with ⟨_, _, quiet⟩
    rcases (implements_bondSetup machine pathx (deviceName document) true).ok quiet (stage_ok setup) with
      ⟨files, _, quiet⟩
    have calm : Calm { saving with disk := augeas.write disk files } := quiet.2
    rw [bind_of_ok _ (stage_of_ok _ (augSave_calm quiet.1 quiet.2))] at rest
    cases rest.symm.trans (stage_of_ok .makeNetcfIf (makeNetcfIf_calm (deviceName document) calm))

theorem finishing_stylesheet_iff (quiet : Quiet disk tables ncf files) :
    (∃ code after, finishing augeas machine pathx document ncf = .error ⟨.applyStylesheet, code⟩ after) ↔
      ∃ length ∈ document.ipv4Prefix, length.value = 0 := by
  constructor
  · rintro ⟨code, after, run⟩
    by_contra none_zero
    have positive : ∀ length ∈ document.ipv4Prefix, length.value ≠ 0 :=
      fun length present zero => none_zero ⟨length, present, zero⟩
    rcases (answers_applyStylesheet (@get_ok machine _ positive)).runs quiet.1 quiet.2 with
      ⟨ready, transform, loaded, calm⟩
    have moved : writing augeas machine pathx document ncf = _ := bind_of_ok _ (stage_of_ok _ transform)
    rcases bind_error run with failed | ⟨name, saving, _, rest⟩
    · rw [moved] at failed
      rcases bind_error failed with put | ⟨_, written, _, failed⟩
      · cases (stage_error put).1
      rcases bind_error failed with setup | ⟨_, _, _, impossible⟩
      · cases (stage_error setup).1
      · cases impossible
    · rcases bind_error rest with save | ⟨_, _, _, make⟩
      · cases (stage_error save).1
      · cases (stage_error make).1
  · rintro ⟨length, present, zero⟩
    obtain ⟨e, refused⟩ := @get_error machine _ _ present zero
    refine ⟨.xsltFailed, ncf, ?_⟩
    have failed : writing augeas machine pathx document ncf = .error ⟨.applyStylesheet, .xsltFailed⟩ ncf :=
      bind_of_error _ (stage_of_error _ (applyStylesheet_refused quiet.2 refused))
    exact bind_of_error _ failed

theorem script_valued (tree : Tree) (label : String) : none ∉ tree.script.values label := by
  simp [Script.values, Tree.script, Node.entry]

theorem valued_ports {scripts : Scripts} (valued : ∀ script ∈ scripts.files, none ∉ script.values "DEVICE")
    (name : String) : none ∉ ports scripts name := by
  intro listed
  obtain ⟨script, member, missing⟩ := List.mem_flatMap.mp listed
  exact valued script (List.mem_of_mem_filter member) missing

theorem setup_unambiguous (names : List String) {files : Files Scripts} (unambiguous : Unambiguous files.modprobe) :
    ∃ after, names.forM (setupModel true) files = .ok ((), after) := by
  induction names generalizing files with
  | nil => exact ⟨files, rfl⟩
  | cons name rest ih =>
    obtain ⟨changed, aliased, still⟩ := aliasBond_unambiguous unambiguous name
    have first : setupModel true name files = .ok ((), { files with modprobe := changed }) := by
      apply change_some
      simp [onModprobe, aliasing, aliased]
    rcases @ih { files with modprobe := changed } still with ⟨after, others⟩
    exact ⟨after, (model_bind_of_ok _ first).trans others⟩

theorem finishing_ok (quiet : Quiet disk tables ncf files)
    (positive : ∀ length ∈ document.ipv4Prefix, length.value ≠ 0)
    (plain : ∀ device ∈ devices document, '/' ∉ device.toList)
    (valued : ∀ script ∈ files.config.files, none ∉ script.values "DEVICE")
    (unambiguous : Unambiguous files.modprobe) (clear : ∀ count, Clear machine.nullBehind count) :
    ∃ after, finishing augeas machine pathx document ncf = .ok ⟨deviceName document⟩ after := by
  have transforms : get machine document = .ok (forestOf machine document) := get_ok positive
  obtain ⟨ready, transform, loaded, calm⟩ := (answers_applyStylesheet transforms).runs quiet.1 quiet.2
  rcases @putForest_total pathx _ (fun tree member => forestOf_forDevice member)
    (fun tree member => devices_ordinary (mem_devices member) (plain _ (mem_devices member))) files with
    ⟨scripts, filling, final⟩
  obtain ⟨written, put, loaded, calm⟩ := (@implements_augPutXml pathx _ augeas _ _ _).runs loaded calm filling
  have present : ∀ script ∈ scripts.files, none ∉ script.values "DEVICE" := by
    intro script member
    rcases final.origin script member with old | ⟨tree, _, rfl⟩
    · exact valued script old
    · exact script_valued tree "DEVICE"
  rcases @setup_unambiguous (targets scripts (deviceName document)) { files with config := scripts } unambiguous with
    ⟨aliased, aliasing⟩
  have model : bondSetupModel bonded bridging (slavesModel machine (deviceName document)) (deviceName document) true
      { files with config := scripts } = .ok ((), aliased) := by
    rw [bondSetupModel_eq (fun _ => valued_ports present (deviceName document)) fun _ => clear _]
    exact aliasing
  rcases (@implements_bondSetup _ augeas _ _ machine pathx (deviceName document) true).runs ⟨loaded, calm⟩ calm model
    with ⟨saving, setup, quiet, _⟩
  have calm : Calm { saving with disk := augeas.write disk aliased } := quiet.2
  have ran : writing augeas machine pathx document ncf = .ok (deviceName document) saving := by
    unfold writing
    rw [bind_of_ok _ (stage_of_ok _ transform), bind_of_ok _ (stage_of_ok _ put),
      bind_of_ok _ (stage_of_ok _ setup)]
    rfl
  unfold finishing
  rw [bind_of_ok _ ran, bind_of_ok _ (stage_of_ok _ (augSave_calm quiet.1 quiet.2))]
  exact ⟨_, stage_of_ok _ (makeNetcfIf_calm (deviceName document) calm)⟩

end Run

section Examples

def failedAt (text : String) (document : Interface) : Option (Step × Errcode) :=
  match drvDefine direct (backend countModulo withinScripts) (.reading text document) text
      (enter [] (fresh augeasXfmCommon stale)) with
  | .ok _ _ => none
  | .error failure _ => some (failure.step, failure.code)

def zeroPrefix : Ipv4Prefix := ⟨⟨"0", by decide +kernel⟩, by decide⟩

def zeroText : String :=
  "<interface type='ethernet' name='eth0'><start mode='onboot'/><protocol family='ipv4'>" ++
  "<ip address='10.0.0.1' prefix='0'/></protocol></interface>"

def unnamedPort : Interface := .bridge unaddressed br0 ⟨none, none, [.vlan { tagged with name := none }]⟩

def unnamedPortText : String :=
  "<interface type='bridge' name='br0'><start mode='onboot'/><bridge><interface type='vlan'>" ++
  "<vlan tag='5'><interface name='eth2'/></vlan></interface></bridge></interface>"

end Examples

end Netcf.RedHat
