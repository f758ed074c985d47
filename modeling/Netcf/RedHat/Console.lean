import Netcf.RedHat.MacLookup
import Netcf.RedHat.Counting
import Netcf.RedHat.Sessions
import Netcf.RedHat.Switching
import Netcf.Tool.Sessions
import Netcf.Transaction.Api

set_option autoImplicit false

-- ncftool with the Red Hat driver under it.
namespace Netcf.RedHat

open Shared.Faulty Shared.Triples Schema Linux Linux.References Stylesheet
open Tool (Documented Library Turn Shell history verdict Clashing Unknown Fatal)

-- What the system answers while a line is carried out: if_is_active, what run_program meets in its process, the
-- kernel for drv_xml_state, libxslt's text of a description, and the details of an error.
structure World (D : Type) where
  isActive : String → Bool
  process : Posix.Process
  env : Nat → Posix.Environment
  xmlState : String → Api Scripts D String
  text : List Shared.Xml → String
  details : Session Scripts D → Option String

variable {D α : Type}

section Calls

-- A call on an interface, which a caller must still have.
def onObject (nif : Nat) (call : String → Program Scripts D α) : Program Scripts D α := do
  let found ← object nif
  References.apiEntry
  call found.name

-- drv_if_up and drv_if_down, whose errors are in the report of the process.
def switching (process : Posix.Process) (act : Switching.Program Scripts D Unit) : Program Scripts D Int := fun s =>
  let result := act ⟨s.driver, { process with report := none }, 0, []⟩
  .ok (Switching.ret result) { s with
    driver := (final result).driver, errcode := (final result).process.report.map (·.code) }

-- The functions of the transactions have their own entry.
def changing (process : Posix.Process) (act : Posix.Act Int) : Program Scripts D Int := fun s =>
  .ok (act process).1 { s with
    driver := Linux.apiEntry s.driver, errcode := (act process).2.report.map (·.code) }

variable (augeas : Augeas Scripts D) (pathx : Pathx)

def macString (name : String) : Api Scripts D (Option String) := do
  match (← augGetMac pathx name).join with
  | none => pure none
  | some mac =>
    attempt .nomem
    return some mac

-- drv_mac_string of an interface that has not been asked before.  Where get_augeas fails aug_get_mac frees
-- a pointer that it has not set, and returns a result that it has not set either.
def drvMacString (name : String) : Program Scripts D (Option String) := do
  match ← calling id (getAugeas augeas) with
  | none => throw .wild
  | some () => return (← calling id (macString pathx name)).join

variable (machine : Machine) (world : World D)

def ncfNumOfInterfaces (flags : BitVec 32) : Program Scripts D (Option Nat) := do
  References.apiEntry
  calling id (drvNumOfInterfaces augeas pathx world.isActive flags)

def ncfListInterfaces (maxnames : Nat) (flags : BitVec 32) : Program Scripts D (Option (List String)) := do
  References.apiEntry
  return (← calling id (listInterfaceIds augeas pathx world.isActive (some maxnames) flags)).map (·.2)

def ncfIfName (nif : Nat) : Program Scripts D String :=
  onObject nif pure

def ncfIfMacString (nif : Nat) : Program Scripts D (Option String) :=
  onObject nif (drvMacString augeas pathx)

def ncfIfUp (nif : Nat) : Program Scripts D Int :=
  onObject nif fun name =>
    switching world.process (Switching.drvIfUp world.env augeas (backend machine pathx) (world.isActive name) ⟨name⟩)

def ncfIfDown (nif : Nat) : Program Scripts D Int :=
  onObject nif fun name =>
    switching world.process (Switching.drvIfDown world.env augeas (backend machine pathx) ⟨name⟩)

def ncfIfXmlDesc (nif : Nat) : Program Scripts D (Option String) :=
  onObject nif fun name => do return (← calling id (drvXmlDesc augeas pathx machine ⟨name⟩)).map world.text

def ncfIfXmlState (nif : Nat) : Program Scripts D (Option String) :=
  onObject nif fun name => calling id (world.xmlState name)

def ncfChange (transaction : String) (entry : Transaction.Api.Entry) : Program Scripts D Int :=
  changing world.process (entry.ncf transaction (world.env 0) 0)

def library (libxml : Libxml) (transaction : String) : Library Scripts D where
  details := world.details
  numOfInterfaces := ncfNumOfInterfaces augeas pathx world
  listInterfaces := ncfListInterfaces augeas pathx world
  lookupByName := ncfLookupByName augeas pathx
  lookupByMacString := ncfLookupByMacString augeas pathx
  define := ncfDefine augeas pathx machine libxml
  name := ncfIfName
  macString := ncfIfMacString augeas pathx
  undefine := ncfIfUndefine augeas pathx machine
  up := ncfIfUp augeas pathx machine world
  down := ncfIfDown augeas pathx machine world
  xmlDesc := ncfIfXmlDesc augeas pathx machine world
  xmlState := ncfIfXmlState world
  changeBegin := ncfChange world transaction .begin
  changeCommit := ncfChange world transaction .commit
  changeRollback := ncfChange world transaction .rollback

end Calls

section Promises

variable {augeas : Augeas Scripts D} {pathx : Pathx} {live : List Nat}

theorem triple_onObject {nif : Nat} {call : String → Program Scripts D α} {post : α → Session Scripts D → Prop}
    {thrown : Abort → Session Scripts D → Prop} (each : ∀ name, Triple (Held [nif]) (call name) post thrown) :
    Triple (Held [nif]) (onObject nif call) post thrown :=
  (triple_object (List.mem_singleton_self nif)).safely.bind fun found =>
    (triple_apiEntry [nif]).safely.bind fun _ => each found.name

theorem triple_switching (process : Posix.Process) (act : Switching.Program Scripts D Unit) :
    Triple (Held live) (switching process act) (fun _ => Held live) never :=
  fun _ held => held.frame _ _

theorem triple_skipRest (names : List String) :
    Triple (Held []) (skipRest augeas names) (fun found s => Held [] s ∧ Reported found s) never := by
  induction names with
  | nil => exact triple_pure fun _ held => ⟨held, fun other => by cases other⟩
  | cons name rest ih => exact (triple_calling [] id _).bind fun _ => ih.strengthen fun _ given => given.1

theorem triple_macNames (names : List String) :
    Triple (Held []) (macNames augeas names) (fun found s => Held [] s ∧ Reported found s) never := by
  induction names with
  | nil => exact triple_pure fun _ held => ⟨held, fun other => by cases other⟩
  | cons name rest ih =>
    unfold macNames
    refine (triple_calling [] id _).bind fun listed => ?_
    rcases listed with _ | _ | _
    · exact (triple_skipRest rest).strengthen fun _ given => given.1
    · exact ih.strengthen fun _ given => given.1
    · refine Triple.bind ((triple_calling [] id _).strengthen fun _ given => given.1) fun room => ?_
      cases room with
      | none => exact triple_pure fun _ given => ⟨given.1, fun _ => given.2 rfl⟩
      | some _ =>
        refine Triple.bind ((triple_calling [] id _).strengthen fun _ given => given.1) fun slave => ?_
        rcases slave with _ | _ | _
        · exact (triple_skipRest rest).strengthen fun _ given => given.1
        · refine Triple.bind (ih.strengthen fun _ given => given.1) fun found => triple_pure fun _ given => ?_
          exact ⟨given.1, fun nothing => given.2 (by simpa using nothing)⟩
        · exact ih.strengthen fun _ given => given.1

-- There is room for one.
theorem triple_fillSlots {names : List String} (few : names.length ≤ 1) :
    Triple (Held []) (fillSlots names : Program Scripts D (Bool × List (Option Nat)))
      (fun filled s => (filled.2 = [] ∧ Held [] s ∨ ∃ nif : Option Nat, filled.2 = [nif] ∧ Held nif.toList s) ∧
        (filled.1 = false → s.errcode.isSome = true)) never := by
  rcases names with _ | ⟨name, _ | _⟩
  · exact triple_pure fun _ held => ⟨Or.inl ⟨rfl, held⟩, fun other => by cases other⟩
  · unfold fillSlots
    refine (triple_calling [] id _).bind fun room => ?_
    cases room with
    | none => exact triple_pure fun _ given => ⟨Or.inl ⟨rfl, given.1⟩, fun _ => given.2 rfl⟩
    | some _ =>
      refine Triple.bind ((triple_makeNetcfIf name).strengthen fun _ given => given.1) fun nif => ?_
      intro s given
      rw [bind_of_ok _ (failed_run s)]
      cases bail : s.errcode.isSome with
      | true => exact ⟨Or.inr ⟨nif, rfl, given.1⟩, fun _ => bail⟩
      | false => exact ⟨Or.inr ⟨nif, rfl, given.1⟩, fun other => by cases other⟩
  · simp at few

theorem triple_dropSlots {slots : List (Option Nat)} (said : Option Errcode → Prop) :
    Triple (fun s => (slots = [] ∧ Held [] s ∨ ∃ nif : Option Nat, slots = [nif] ∧ Held nif.toList s) ∧ said s.errcode)
      (slots.forM unref : Program Scripts D PUnit) (fun _ s => Held [] s ∧ said s.errcode) never := by
  rintro s ⟨⟨rfl, held⟩ | ⟨nif, rfl, held⟩, code⟩
  · exact ⟨held, code⟩
  · cases nif with
    | none => exact ⟨held, code⟩
    | some nif => exact ((triple_ncfIfFree nif said).bind fun _ => triple_pure fun _ left => left) s ⟨held, code⟩

theorem triple_ncfLookupByMacString (mac : String) :
    Triple (Held []) (ncfLookupByMacString augeas pathx mac 1)
      (fun answer s => Held answer.2.head?.join.toList s ∧
        (answer.1 < 0 → answer.2.head?.join = none ∧ s.errcode.isSome = true)) never := by
  have failed {given : Session Scripts D → Prop} (reports : ∀ s, given s → Held [] s ∧ s.errcode.isSome = true) :
      Triple given (pure (-1, nulls 1) : Program Scripts D (Int × List (Option Nat)))
        (fun answer s => Held answer.2.head?.join.toList s ∧
          (answer.1 < 0 → answer.2.head?.join = none ∧ s.errcode.isSome = true)) never :=
    triple_pure fun s start => ⟨(reports s start).1, fun _ => ⟨rfl, (reports s start).2⟩⟩
  refine (triple_apiEntry []).bind fun _ => (triple_calling [] id _).bind fun started => ?_
  cases started with
  | none => exact failed fun _ given => ⟨given.1, given.2 rfl⟩
  | some _ =>
    refine Triple.bind ((triple_calling [] id _).strengthen fun _ given => given.1) fun matched => ?_
    rcases matched with _ | _ | ⟨first, others⟩
    · exact failed fun _ given => ⟨given.1, given.2 rfl⟩
    · exact triple_pure fun _ given => ⟨given.1, fun other => by cases other⟩
    · refine Triple.bind ((triple_calling [] id _).strengthen fun _ given => given.1) fun room => ?_
      cases room with
      | none => exact failed fun _ given => ⟨given.1, given.2 rfl⟩
      | some _ =>
        refine Triple.bind ((triple_macNames _).strengthen fun _ given => given.1) fun names => ?_
        cases names with
        | none => exact failed fun _ given => ⟨given.1, given.2 rfl⟩
        | some names =>
          have few : (names.take 1).length ≤ 1 := List.length_take_le 1 names
          refine Triple.bind ((triple_fillSlots few).strengthen fun _ given => given.1) fun filled => ?_
          refine triple_ite (fun worked => triple_pure fun s given => ⟨?_, fun negative => ?_⟩) fun broken => ?_
          · rcases given.1 with ⟨empty, held⟩ | ⟨nif, one, held⟩
            · rw [empty]
              exact held
            · rw [one]
              simpa using held
          · exact absurd negative (by simp)
          · refine Triple.bind ((triple_dropSlots fun code => code.isSome = true).strengthen fun s given => ?_) fun _ => ?_
            · exact ⟨given.1, given.2 (by simpa using broken)⟩
            · exact failed fun _ given => given

theorem triple_ncfLookupByName (name : String) :
    Triple (Held []) (ncfLookupByName augeas pathx name) (fun nif => Held nif.toList) never := by
  refine (triple_apiEntry []).bind fun _ => (triple_calling [] id _).bind fun started => ?_
  cases started with
  | none => exact triple_pure fun _ given => given.1
  | some _ =>
    refine Triple.bind ((triple_calling [] id _).strengthen fun _ given => given.1) fun path => ?_
    rcases path with _ | _ | path
    · exact triple_pure fun _ given => given.1
    · exact triple_pure fun _ given => given.1
    · refine Triple.bind ((triple_calling [] id _).strengthen fun _ given => given.1) fun slave => ?_
      refine triple_ite (fun _ => triple_pure fun _ given => given.1) fun _ => ?_
      refine Triple.bind ((triple_calling [] id _).strengthen fun _ given => given.1) fun room => ?_
      cases room with
      | none => exact triple_pure fun _ given => given.1
      | some _ =>
        exact (triple_returnNetcfIf name).weaken (fun _ given => given.1) (fun _ _ given => given.1) fun _ _ => id

theorem triple_ncfDefine (machine : Machine) (libxml : Libxml) (xml : String) :
    Triple (Held []) (ncfDefine augeas pathx machine libxml xml) (fun nif s => Held nif.toList s ∧ Reported nif s)
      never := by
  refine (triple_apiEntry []).bind fun _ => (triple_calling [] Failure.code _).bind fun saved => ?_
  cases saved with
  | none => exact triple_pure fun _ given => ⟨given.1, fun _ => given.2 rfl⟩
  | some name => exact (triple_returnNetcfIf name).strengthen fun _ given => given.1

theorem triple_ncfIfUndefine (machine : Machine) (nif : Nat) :
    Triple (Held [nif]) (ncfIfUndefine augeas pathx machine nif)
      (fun r s => Held [nif] s ∧ (r < 0 → s.errcode.isSome = true)) never := by
  refine (triple_object (List.mem_singleton_self nif)).bind fun found => (triple_apiEntry _).bind fun _ => ?_
  refine (triple_calling [nif] id _).bind fun done => ?_
  cases done with
  | none => exact triple_pure fun _ given => ⟨given.1, fun _ => given.2 rfl⟩
  | some _ => exact triple_pure fun _ given => ⟨given.1, fun negative => absurd negative (by decide)⟩

theorem triple_mapped {β : Type} {program : Program Scripts D (Option α)} (f : α → β)
    (triple : Triple (Held live) program (fun found s => Held live s ∧ Reported found s) never) :
    Triple (Held live) (do return (← program).map f) (fun found s => Held live s ∧ Reported found s) never := by
  refine triple.bind fun found => triple_pure fun _ given => ⟨given.1, fun nothing => given.2 ?_⟩
  exact Option.map_eq_none_iff.mp nothing

theorem triple_ncfIfName (nif : Nat) :
    Triple (Held [nif]) (ncfIfName nif : Program Scripts D String) (fun _ => Held [nif]) never :=
  triple_onObject fun _ => triple_pure fun _ => id

theorem triple_ncfIfMacString (nif : Nat) :
    Triple (Held [nif]) (ncfIfMacString augeas pathx nif) (fun _ => Held [nif]) fun abort _ => abort = .wild := by
  refine triple_onObject fun name => (triple_calling [nif] id _).safely.bind fun loaded => ?_
  cases loaded with
  | none => exact triple_throw fun _ _ => rfl
  | some _ =>
    refine Triple.bind ((triple_calling [nif] id _).safely.strengthen fun _ given => given.1) fun mac => ?_
    exact triple_pure fun _ given => given.1

theorem drvMacString_stops (augeas : Augeas Scripts D) (pathx : Pathx) (name : String) (session : Session Scripts D) :
    (∃ abort after, drvMacString augeas pathx name session = .error abort after) ↔
      ∃ code after, (getAugeas augeas : Api Scripts D Unit) session.driver = .error code after := by
  unfold drvMacString
  cases loaded : (getAugeas augeas : Api Scripts D Unit) session.driver with
  | error code driver =>
    have called : calling id (getAugeas augeas) session =
        .ok none { session with driver := driver, errcode := some code } := by
      rw [calling, loaded]
      rfl
    rw [bind_of_ok _ called]
    exact ⟨fun _ => ⟨code, driver, rfl⟩, fun _ => ⟨_, _, rfl⟩⟩
  | ok _ driver =>
    have called : calling id (getAugeas augeas) session = .ok (some ()) { session with driver := driver } := by
      rw [calling, loaded]
    obtain ⟨answer, after, _, run, _⟩ :=
      calling_cases id (macString pathx name : Api Scripts D (Option String)) { session with driver := driver }
    rw [bind_of_ok _ called]
    dsimp only
    rw [bind_of_ok _ run]
    constructor
    · rintro ⟨abort, stopped, other⟩
      cases other
    · rintro ⟨code, stopped, other⟩
      cases other

theorem triple_ncfIfXmlState (world : World D) (nif : Nat) :
    Triple (Held [nif]) (ncfIfXmlState world nif) (fun xml s => Held [nif] s ∧ Reported xml s) never :=
  triple_onObject fun _ => triple_calling _ id _

theorem triple_ncfIfUp (machine : Machine) (world : World D) (nif : Nat) :
    Triple (Held [nif]) (ncfIfUp augeas pathx machine world nif) (fun _ => Held [nif]) never :=
  triple_onObject fun _ => triple_switching _ _

theorem triple_ncfIfDown (machine : Machine) (world : World D) (nif : Nat) :
    Triple (Held [nif]) (ncfIfDown augeas pathx machine world nif) (fun _ => Held [nif]) never :=
  triple_onObject fun _ => triple_switching _ _

theorem triple_ncfIfXmlDesc (machine : Machine) (world : World D) (nif : Nat) :
    Triple (Held [nif]) (ncfIfXmlDesc augeas pathx machine world nif)
      (fun xml s => Held [nif] s ∧ Reported xml s) never := by
  unfold ncfIfXmlDesc
  refine triple_onObject fun name => ?_
  exact triple_mapped world.text (triple_calling [nif] id _)

theorem triple_ncfChange (world : World D) (transaction : String) (entry : Transaction.Api.Entry) :
    Triple (Held []) (ncfChange world transaction entry)
      (fun r s => Held [] s ∧ (r < 0 → s.errcode.isSome = true)) never := by
  intro s held
  refine ⟨held.frame _ _, fun negative => ?_⟩
  obtain ⟨code, ret⟩ :=
    @Transaction.Api.changeWith_run transaction entry.word (world.env 0) 0 { world.process with report := none } rfl
  rw [← Transaction.Api.Entry.ncf_run] at code ret
  change ((entry.ncf transaction (world.env 0) 0 world.process).2.report.map (·.code)).isSome = true
  rw [code]
  cases failed : Transaction.Api.callCode 0 (world.env 0) with
  | some error => rfl
  | none =>
    rw [ret, failed, if_pos rfl] at negative
    exact absurd negative (by decide)

theorem documented_library (machine : Machine) (world : World D) (libxml : Libxml) (transaction : String) :
    Documented (library augeas pathx machine world libxml transaction) where
  numOfInterfaces _ := (triple_apiEntry []).bind fun _ => triple_calling [] id _
  listInterfaces _ _ := (triple_apiEntry []).bind fun _ => triple_mapped _ (triple_calling [] id _)
  lookupByName := triple_ncfLookupByName
  lookupByMacString := triple_ncfLookupByMacString
  define := triple_ncfDefine machine libxml
  name := triple_ncfIfName
  macString := triple_ncfIfMacString
  undefine := triple_ncfIfUndefine machine
  up := triple_ncfIfUp machine world
  down := triple_ncfIfDown machine world
  xmlDesc := triple_ncfIfXmlDesc machine world
  xmlState := triple_ncfIfXmlState world
  changeBegin := triple_ncfChange world transaction .begin
  changeCommit := triple_ncfChange world transaction .commit
  changeRollback := triple_ncfChange world transaction .rollback

end Promises

section Sessions

variable (augeas : Augeas Scripts D) (pathx : Pathx) (machine : Machine) (libxml : Libxml) (transaction : String)

structure Input (D : Type) where
  text : List Char
  world : World D
  readFile : List Char → Option String

def Input.turn (input : Input D) : Turn Scripts D :=
  ⟨input.text, library augeas pathx machine input.world libxml transaction, input.readFile⟩

-- ncftool behind ncf_init, with the faults to come in the driver and in its own allocations.
def started (driver : Ncf Scripts D) (faults : List Bool) : Shell Scripts D :=
  ⟨⟨driver, none, 1, false, [], 0, 0⟩, ⟨faults, []⟩, []⟩

variable {augeas pathx machine libxml transaction}

theorem documented_turns (inputs : List (Input D)) :
    ∀ turn ∈ inputs.map (·.turn augeas pathx machine libxml transaction), Documented turn.library := by
  intro turn member
  obtain ⟨input, _, rfl⟩ := List.mem_map.mp member
  exact documented_library machine input.world libxml transaction

def plainWorld : World (Files Scripts) where
  isActive _ := false
  process := Posix.caller
  env _ := Posix.endingWith (.ok 0)
  xmlState _ := throw .netlink
  text _ := ""
  details _ := none

def typing (text : String) : Input (Files Scripts) :=
  ⟨text.toList, plainWorld, fun _ => none⟩

def plainTurn (text : String) : Turn Scripts (Files Scripts) :=
  (typing text).turn direct withinScripts countModulo (.reading officeText (officeBridge unaddressed)) "netcf-transaction"

theorem undefine_taken (s : Tool.Session) (calm : s.faults = []) :
    Tool.parseline Tool.commands "undefine eth9".toList s =
      .ok (some ⟨Tool.cmdUndefine, [⟨0, .string "eth9".toList⟩]⟩) s := by
  have known : Tool.lookupCmdDef Tool.commands (Tool.nexttoken "undefine eth9".toList).1 = some Tool.cmdUndefine := by
    decide
  have first : Tool.parseToken Tool.cmdUndefine (Tool.total Tool.cmdUndefine) 0 [] "eth9".toList s =
      .ok (some (1, [⟨0, .string "eth9".toList⟩])) s := by
    obtain ⟨faults, complaints⟩ := s
    cases calm
    rfl
  have behind : Tool.parseArgs Tool.cmdUndefine (Tool.total Tool.cmdUndefine) 0 [] ('e' :: "th9".toList) s =
      .ok (some (1, [⟨0, .string "eth9".toList⟩])) s := by
    rw [Tool.parseArgs, show (Tool.nexttoken ('e' :: "th9".toList)).1 = "eth9".toList by decide, bind_of_ok _ first]
    dsimp only
    rw [show (Tool.nexttoken ('e' :: "th9".toList)).2 = [] by decide, Tool.parseArgs]
    rfl
  rw [Tool.parseline_known known (Tool.commands_ordered Tool.cmdUndefine (by decide)),
    show (Tool.nexttoken "undefine eth9".toList).2 = 'e' :: "th9".toList by decide, bind_of_ok _ behind]
  rfl

theorem eth9_missing :
    answer (ncfLookupByName direct withinScripts "eth9" (started (loadedWith stale) []).library) = some none ∧
      (final (ncfLookupByName direct withinScripts "eth9" (started (loadedWith stale) []).library)).errcode = none := by
  decide +kernel

end Sessions

end Netcf.RedHat
