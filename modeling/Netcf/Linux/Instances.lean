import Netcf.Linux.Augeas
import Netcf.Shared.Triples

set_option autoImplicit false

-- ncf_init, drv_init, drv_close and ncf_close of the Linux drivers: what an instance holds.
namespace Netcf.Linux.Instances

open Shared.Faulty Shared.Triples

section Definitions

-- What is got from the system for an instance; DETAILS is the text of its error.
inductive Resource
  | netcf | root | schema | details
  | driver | tables | get | put | ioctl | socket | linkCache | addrCache | augeas
  deriving DecidableEq

-- The struct that the pointer is in.
def owner : Resource → Resource
  | .netcf | .root | .schema | .details | .driver => .netcf
  | _ => .driver

inductive Fault
  | dangling | twice | lost

-- POINTER tells of a field that is not NULL (or not -1), LIVE of what has not been given back.
structure Handle where
  live : Resource → Bool
  pointer : Resource → Bool
  ref : Nat
  errcode : Option Errcode

abbrev Act := EStateM Fault Handle

-- What the system answers. GIVES is for the calls that get something, FAILURE for the files that are read, with
-- the error of the first step that does not work, and PARSES for the schema where no step tells of an error.
structure Answers where
  gives : Resource → Bool
  failure : Resource → Option Errcode
  parses : Bool
  isDirectory : Bool
  flags : Bool
  connects : Bool

-- A struct comes from ALLOC or make_ref, which clear it.
def acquire (r : Resource) (works : Bool) : Act Bool := fun s =>
  if r ≠ .netcf ∧ s.live (owner r) = false then .error .dangling s
  else if s.live r = true then .error .lost s
  else .ok works { s with
    live := fun x => if x = r then works else s.live x
    pointer := fun x => if x = r then works else if owner x = r then false else s.pointer x }

-- The function that frees takes NULL as well, and the field keeps its value.
def release (r : Resource) : Act Unit := fun s =>
  if s.live (owner r) = false then .error .dangling s
  else if s.pointer r = false then .ok () s
  else if s.live r = false then .error .twice s
  else .ok () { s with live := fun x => if x = r then false else s.live x }

def clear (r : Resource) : Act Unit := fun s =>
  if s.live (owner r) = false then .error .dangling s
  else .ok () { s with pointer := fun x => if x = r then false else s.pointer x }

-- FREE of safe-alloc.h.
def free (r : Resource) : Act Unit := do
  release r
  clear r

def held (r : Resource) : Act Bool := fun s =>
  if s.live (owner r) = false then .error .dangling s else .ok (s.pointer r) s

def failed : Act Bool := do
  return (← get).errcode.isSome

variable (env : Answers)

-- Only the first error is remembered.
def reportError (code : Errcode) : Act Unit := do
  if !(← failed) then
    modify fun s => { s with errcode := some code }
    let _ ← acquire .details (env.gives .details)

-- ERR_NOMEM
def nomem : Act Unit :=
  modify fun s => { s with errcode := some .nomem }

-- rng_error takes the errors and the warnings of the parser of libxml2.  Without memory for its context
-- that gives no schema, and nobody is told.
def rngParse : Act Unit :=
  match env.failure .schema with
  | some .nomem => nomem
  | some .file => reportError env .file
  | told => do
    told.forM (reportError env)
    let _ ← acquire .schema env.parses

def parseStylesheet (r : Resource) : Act Unit :=
  match env.failure r with
  | none => do let _ ← acquire r true
  | some .nomem => nomem
  | some code => reportError env code

def parseStylesheets : Act Unit := do
  parseStylesheet env .get
  parseStylesheet env .put

def netlinkClose : Act Unit := do
  free .addrCache
  free .linkCache
  free .socket

def netlinkInit : Act Bool := do
  if !(← acquire .socket (env.gives .socket)) then
    netlinkClose
    return false
  if !env.connects then
    netlinkClose
    return false
  if !(← acquire .linkCache (env.gives .linkCache)) then
    netlinkClose
    return false
  if !(← acquire .addrCache (env.gives .addrCache)) then
    netlinkClose
    return false
  return true

-- The descriptor is in the driver only when it is ready.
def initIoctlFd : Act Bool := do
  if !(← acquire .ioctl (env.gives .ioctl)) then
    reportError env .internal
    return false
  if !env.flags then
    reportError env .internal
    free .ioctl
    return false
  return true

def drvClose : Act Unit := do
  if ← held .driver then
    release .get
    release .put
    netlinkClose
    release .ioctl
    release .augeas
    free .tables
    free .driver

-- The label error of drv_init.
def abandon : Act Int := do
  drvClose
  return -1

-- The SUSE driver does not look at the root.
def drvInit (checksRoot : Bool) : Act Int := do
  if !(← acquire .driver (env.gives .driver)) then return -1
  if !(← acquire .tables (env.gives .tables)) then
    nomem
    abandon
  else if checksRoot && !env.isDirectory then
    reportError env .file
    abandon
  else
    parseStylesheets env
    if ← failed then abandon
    else if !(← initIoctlFd env) then abandon
    else if !(← netlinkInit env) then abandon
    else return 0

def freeNetcf : Act Unit := do
  release .root
  release .netcf

-- unref(ncf, netcf)
def unrefNetcf : Act Unit := do
  modify fun s => { s with ref := s.ref - 1 }
  if (← get).ref = 0 then freeNetcf

-- API_ENTRY
def apiEntry : Act Unit := do
  modify fun s => { s with errcode := none }
  free .details

def ncfClose : Act Int := do
  apiEntry
  if 1 < (← get).ref then
    modify fun s => { s with errcode := some .inUse }
    return -1
  drvClose
  release .schema
  unrefNetcf
  return 0

-- What ncf_init does with a new instance: the result, and whether the caller gets the instance.
def initialise (checksRoot : Bool) : Act (Int × Bool) := do
  let error : Act (Int × Bool) := do
    let _ ← ncfClose
    return (-2, false)
  if !(← acquire .root (env.gives .root)) then error
  else
    rngParse env
    if ← failed then error
    else return (← drvInit env checksRoot, true)

def ncfInit (checksRoot : Bool) : Act (Int × Bool) := do
  if !(← acquire .netcf (env.gives .netcf)) then return (-2, false)
  modify fun s => { s with ref := 1 }
  initialise env checksRoot

def nothing : Handle :=
  ⟨fun _ => false, fun _ => false, 0, none⟩

end Definitions

section Accounts

-- The instance holds RS, each thing where its pointer says, and perhaps the text of an error.
structure Has (rs : List Resource) (s : Handle) : Prop where
  live : ∀ r, r ≠ .details → (s.live r = true ↔ r ∈ rs)
  points : ∀ r, s.live (owner r) = true → s.pointer r = s.live r
  owned : ∀ r, s.live r = true → s.live (owner r) = true
  silent : s.errcode = none → s.live .details = false
  single : s.ref = 1

variable {env : Answers} {rs : List Resource} {r : Resource} {code : Option Errcode} {s : Handle}

theorem Has.not_live (has : Has rs s) (real : r ≠ .details) (absent : r ∉ rs) : s.live r = false :=
  Bool.eq_false_iff.mpr fun live => absent ((has.live r real).mp live)

theorem Has.struct (has : Has rs s) (member : owner r ∈ rs) : s.live (owner r) = true :=
  (has.live (owner r) (by cases r <;> decide)).mpr member

theorem acquire_run (live : r ≠ .netcf → s.live (owner r) = true) (free : s.live r = false) (works : Bool) :
    acquire r works s = .ok works { s with
      live := fun x => if x = r then works else s.live x
      pointer := fun x => if x = r then works else if owner x = r then false else s.pointer x } := by
  unfold acquire
  have struct : ¬(r ≠ .netcf ∧ s.live (owner r) = false) := by
    rintro ⟨inner, gone⟩
    rw [live inner] at gone
    cases gone
  rw [if_neg struct, if_neg (by simp [free])]

-- What is in a struct that is not there is not there either.
theorem Has.below (has : Has rs s) (free : s.live r = false) (x : Resource) (inside : owner x = r) : s.live x = false :=
  Bool.eq_false_iff.mpr fun live => by
    have struct := has.owned x live
    rw [inside, free] at struct
    cases struct

theorem triple_acquire (said : Option Errcode → Prop) (struct : owner r ∈ rs) (real : r ≠ .details) (absent : r ∉ rs)
    (works : Bool) :
    Triple (fun s => Has rs s ∧ said s.errcode) (acquire r works)
      (fun ok s => ok = works ∧ Has (if works = true then r :: rs else rs) s ∧ said s.errcode) never := by
  rintro s ⟨has, same⟩
  have free := has.not_live real absent
  have apart : owner r ≠ r := fun loop => absent (loop ▸ struct)
  rw [acquire_run (fun _ => has.struct struct) free works]
  refine ⟨rfl, ⟨fun x shown => ?_, fun x above => ?_, fun x held => ?_, fun quiet => ?_, has.single⟩, same⟩
  · dsimp only
    by_cases here : x = r
    · rw [if_pos here, here]
      cases works with
      | true => simp
      | false => simpa using absent
    · rw [if_neg here, has.live x shown]
      cases works <;> simp [here]
  · dsimp only at above ⊢
    by_cases here : x = r
    · rw [if_pos here, if_pos here]
    · rw [if_neg here, if_neg here]
      by_cases inside : owner x = r
      · rw [if_pos inside, has.below free x inside]
      · rw [if_neg inside] at above ⊢
        exact has.points x above
  · dsimp only at held ⊢
    by_cases here : x = r
    · rw [here, if_neg apart]
      exact has.struct struct
    · rw [if_neg here] at held
      have live := has.owned x held
      by_cases inside : owner x = r
      · rw [inside, free] at live
        cases live
      · rw [if_neg inside]
        exact live
  · exact (if_neg (Ne.symm real)).trans (has.silent quiet)

theorem Has.noted (has : Has rs s) (code : Errcode) : Has rs { s with errcode := some code } :=
  ⟨has.live, has.points, has.owned, (fun other => by cases other), has.single⟩

theorem triple_nomem : Triple (Has rs) nomem (fun _ s => Has rs s ∧ s.errcode.isSome = true) never :=
  triple_modify fun _ has => ⟨has.noted .nomem, rfl⟩

-- The text of the first error is new.
theorem Has.told (has : Has rs s) (netcf : .netcf ∈ rs) (works : Bool) (code : Errcode) :
    Has rs { s with
      errcode := some code
      live := fun x => if x = .details then works else s.live x
      pointer := fun x => if x = .details then works else if owner x = .details then false else s.pointer x } := by
  have inner (x : Resource) : owner x ≠ .details := by cases x <;> decide
  refine ⟨fun x shown => ?_, fun x above => ?_, fun x held => ?_, fun other => ?_, has.single⟩
  · dsimp only
    rw [if_neg shown]
    exact has.live x shown
  · dsimp only at above ⊢
    rw [if_neg (inner x)] at above ⊢
    by_cases here : x = .details
    · rw [if_pos here, if_pos here]
    · rw [if_neg here, if_neg here]
      exact has.points x above
  · dsimp only at held ⊢
    rw [if_neg (inner x)]
    by_cases here : x = .details
    · rw [here]
      exact (has.live .netcf (by decide)).mpr netcf
    · rw [if_neg here] at held
      exact has.owned x held
  · cases other

theorem failed_run (s : Handle) : failed s = .ok s.errcode.isSome s := rfl

theorem triple_reportError (netcf : .netcf ∈ rs) (code : Errcode) :
    Triple (Has rs) (reportError env code) (fun _ s => Has rs s ∧ s.errcode.isSome = true) never := by
  intro s has
  cases earlier : s.errcode with
  | some error =>
    have run : reportError env code s = .ok () s := by
      unfold reportError
      rw [bind_of_ok _ (failed_run s), earlier]
      rfl
    rw [run]
    exact ⟨has, by rw [earlier]; rfl⟩
  | none =>
    have free := has.silent earlier
    have struct : s.live .netcf = true := (has.live .netcf (by decide)).mpr netcf
    have got := @acquire_run .details { s with errcode := some code } (fun _ => struct) free (env.gives .details)
    have run : reportError env code s = .ok () { s with
        errcode := some code
        live := fun x => if x = .details then env.gives .details else s.live x
        pointer := fun x => if x = .details then env.gives .details else if owner x = .details then false
          else s.pointer x } := by
      unfold reportError
      rw [bind_of_ok _ (failed_run s), earlier]
      exact (bind_of_ok _ (modify_run _ s)).trans (bind_of_ok _ got)
    rw [run]
    exact ⟨has.told netcf _ code, rfl⟩

theorem triple_parseStylesheet (netcf : .netcf ∈ rs) (struct : owner r ∈ rs) (real : r ≠ .details) (absent : r ∉ rs) :
    Triple (fun s => Has rs s ∧ s.errcode = code) (parseStylesheet env r)
      (fun _ s => Has (if env.failure r = none then r :: rs else rs) s ∧
        (s.errcode = none ↔ code = none ∧ env.failure r = none)) never := by
  have broken {program : Act Unit} {error : Errcode}
      (triple : Triple (Has rs) program (fun _ s => Has rs s ∧ s.errcode.isSome = true) never) :
      Triple (fun s => Has rs s ∧ s.errcode = code) program
        (fun _ s => Has (if some error = none then r :: rs else rs) s ∧
          (s.errcode = none ↔ code = none ∧ some error = none)) never := by
    refine triple.weaken (fun _ => And.left) (fun _ s given => ⟨by simpa using given.1, ?_⟩) fun _ _ => id
    simp [Option.isSome_iff_ne_none.mp given.2]
  unfold parseStylesheet
  cases failure : env.failure r with
  | none =>
    refine (triple_acquire (· = code) struct real absent true).bind fun _ => triple_pure fun s given => ?_
    exact ⟨by simpa using given.2.1, by simp [given.2.2]⟩
  | some error =>
    cases error with
    | nomem => exact broken triple_nomem
    | _ => exact broken (triple_reportError netcf _)

-- The instance in front of its driver.  It may lack a schema.
def shell (env : Answers) : List Resource :=
  if env.parses = true then [.schema, .root, .netcf] else [.root, .netcf]

theorem triple_rngParse :
    Triple (fun s => Has [.root, .netcf] s ∧ s.errcode = none) (rngParse env)
      (fun _ s => if env.failure .schema = none then Has (shell env) s ∧ s.errcode = none
        else ∃ held, .netcf ∈ held ∧ Has held s ∧ s.errcode.isSome = true) never := by
  have got (said : Option Errcode → Prop) :
      Triple (fun s => Has [.root, .netcf] s ∧ said s.errcode) (do let _ ← acquire .schema env.parses)
        (fun _ s => Has (shell env) s ∧ said s.errcode) never :=
    (triple_acquire said (by decide) (by decide) (by decide) env.parses).bind fun _ =>
      triple_pure fun s given => given.2
  have top : .netcf ∈ shell env := by
    unfold shell
    split <;> decide
  have loud {program : Act Unit} {held : List Resource} (netcf : .netcf ∈ held)
      (triple : Triple (Has [.root, .netcf]) program (fun _ s => Has held s ∧ s.errcode.isSome = true) never) :
      Triple (fun s => Has [.root, .netcf] s ∧ s.errcode = none) program
        (fun _ s => ∃ held, .netcf ∈ held ∧ Has held s ∧ s.errcode.isSome = true) never :=
    triple.weaken (fun _ => And.left) (fun _ s given => ⟨held, netcf, given⟩) fun _ _ => id
  have parsed (code : Errcode) := loud top
    ((@triple_reportError env _ (by decide : .netcf ∈ [Resource.root, .netcf]) code).bind fun _ => got (·.isSome = true))
  unfold rngParse
  cases failure : env.failure .schema with
  | none => exact got (· = none)
  | some error =>
    cases error with
    | nomem => exact loud (by decide) triple_nomem
    | file => exact loud (by decide) (triple_reportError (by decide) .file)
    | _ => exact parsed _

-- S without what is GONE, and with the pointers of CLEARED gone as well.
def Handle.without (s : Handle) (gone cleared : List Resource) : Handle :=
  { s with
    live := fun x => if x ∈ gone then false else s.live x
    pointer := fun x => if x ∈ cleared then false else s.pointer x }

section Closing

variable {gone cleared : List Resource}

theorem release_without (struct : s.live (owner r) = true) (agree : s.pointer r = s.live r) (up : owner r ∉ gone)
    (fresh : r ∉ gone) (shown : r ∉ cleared) :
    release r (s.without gone cleared) = .ok () (s.without (r :: gone) cleared) := by
  have still : (s.without gone cleared).live (owner r) = true := (if_neg up).trans struct
  have pointed : (s.without gone cleared).pointer r = s.pointer r := if_neg shown
  have alive : (s.without gone cleared).live r = s.live r := if_neg fresh
  unfold release
  rw [if_neg (by simp [still]), pointed, alive, agree]
  have more : (fun x => if x = r then false else (s.without gone cleared).live x) = (s.without (r :: gone) cleared).live := by
    funext x
    unfold Handle.without
    by_cases here : x = r <;> simp [here]
  cases held : s.live r with
  | true =>
    rw [if_neg (by decide), if_neg (by decide), more]
    rfl
  | false =>
    rw [if_pos rfl]
    have same : (s.without gone cleared).live = (s.without (r :: gone) cleared).live := by
      rw [← more]
      funext x
      by_cases here : x = r
      · rw [if_pos here, here, alive, held]
      · rw [if_neg here]
    exact congrArg (EStateM.Result.ok ()) (congrArg (fun live => { s.without gone cleared with live := live }) same)

theorem clear_without (struct : s.live (owner r) = true) (up : owner r ∉ gone) :
    clear r (s.without gone cleared) = .ok () (s.without gone (r :: cleared)) := by
  have still : (s.without gone cleared).live (owner r) = true := (if_neg up).trans struct
  unfold clear
  rw [if_neg (by simp [still])]
  unfold Handle.without
  congr
  funext x
  by_cases here : x = r <;> simp [here]

theorem free_without (struct : s.live (owner r) = true) (agree : s.pointer r = s.live r) (up : owner r ∉ r :: gone)
    (fresh : r ∉ gone) (shown : r ∉ cleared) :
    free r (s.without gone cleared) = .ok () (s.without (r :: gone) (r :: cleared)) := by
  have first := release_without struct agree (fun inner => up (List.mem_cons_of_mem r inner)) fresh shown
  exact (bind_of_ok _ first).trans (clear_without struct up)

-- In the order in which drv_close gives them back, the last first.
def driverParts : List Resource :=
  [.driver, .tables, .augeas, .ioctl, .socket, .linkCache, .addrCache, .put, .get]

theorem drvClose_run (has : Has rs s) (driver : s.live .driver = true) :
    drvClose s = .ok () (s.without driverParts [.driver, .tables, .socket, .linkCache, .addrCache]) := by
  have netcf : s.live .netcf = true := has.owned .driver driver
  have part (r : Resource) (inside : owner r = .driver) : s.live (owner r) = true ∧ s.pointer r = s.live r := by
    have struct : s.live (owner r) = true := inside ▸ driver
    exact ⟨struct, has.points r struct⟩
  have found : held .driver s = .ok true s := by
    unfold held
    rw [if_neg (by simp [owner, netcf]), has.points .driver netcf, driver]
  unfold drvClose
  rw [bind_of_ok _ found]
  change (do release .get; release .put; netlinkClose; release .ioctl; release .augeas; free .tables; free .driver : Act Unit)
    (s.without [] []) = _
  have released {r : Resource} {gone cleared : List Resource} (inside : owner r = .driver) (still : .driver ∉ gone)
      (fresh : r ∉ gone) (shown : r ∉ cleared) :
      release r (s.without gone cleared) = .ok () (s.without (r :: gone) cleared) :=
    release_without (part r inside).1 (part r inside).2 (inside ▸ still) fresh shown
  have freed {r : Resource} {gone cleared : List Resource} (inside : owner r = .driver) (still : .driver ∉ r :: gone)
      (fresh : r ∉ gone) (shown : r ∉ cleared) :
      free r (s.without gone cleared) = .ok () (s.without (r :: gone) (r :: cleared)) :=
    free_without (part r inside).1 (part r inside).2 (inside ▸ still) fresh shown
  have netlink : netlinkClose (s.without [.put, .get] []) =
      .ok () (s.without [.socket, .linkCache, .addrCache, .put, .get] [.socket, .linkCache, .addrCache]) :=
    (bind_of_ok _ (freed rfl (by decide) (by decide) (by decide))).trans
      ((bind_of_ok _ (freed rfl (by decide) (by decide) (by decide))).trans
        (freed rfl (by decide) (by decide) (by decide)))
  rw [bind_of_ok _ (released rfl (by decide) (by decide) (by decide)),
    bind_of_ok _ (released rfl (by decide) (by decide) (by decide)), bind_of_ok _ netlink,
    bind_of_ok _ (released rfl (by decide) (by decide) (by decide)),
    bind_of_ok _ (released rfl (by decide) (by decide) (by decide)),
    bind_of_ok _ (freed rfl (by decide) (by decide) (by decide))]
  exact free_without netcf (has.points .driver netcf) (by decide) (by decide) (by decide)

theorem Has.without_driver (has : Has rs s) :
    Has (rs.filter (· ∉ driverParts)) (s.without driverParts [.driver, .tables, .socket, .linkCache, .addrCache]) := by
  have struct (x : Resource) : owner x ∈ driverParts ∨ owner x = .netcf := by cases x <;> decide
  have inner (x : Resource) (inside : owner x ∈ driverParts) : x ∈ driverParts := by
    revert inside
    cases x <;> decide
  refine ⟨fun x shown => ?_, fun x above => ?_, fun x held => ?_, fun quiet => ?_, has.single⟩
  · by_cases gone : x ∈ driverParts
    · simp [Handle.without, gone]
    · simp [Handle.without, gone, has.live x shown]
  · by_cases gone : owner x ∈ driverParts
    · simp [Handle.without, gone] at above
    · have alive : s.live (owner x) = true := by simpa [Handle.without, gone] using above
      have points := has.points x alive
      cases x with
      | netcf | root | schema | details => simpa [Handle.without, driverParts] using points
      | driver => simp [Handle.without, driverParts]
      | _ => exact absurd (show Resource.driver ∈ driverParts by decide) gone
  · have kept : x ∉ driverParts := fun gone => by simp [Handle.without, gone] at held
    have alive : s.live x = true := by simpa [Handle.without, kept] using held
    have top : owner x ∉ driverParts := fun inside => kept (inner x inside)
    simpa [Handle.without, top] using has.owned x alive
  · simpa [Handle.without, driverParts] using has.silent quiet

variable (said : Option Errcode → Prop)

theorem triple_drvClose (netcf : .netcf ∈ rs) :
    Triple (fun s => Has rs s ∧ said s.errcode) drvClose
      (fun _ s => Has (rs.filter (· ∉ driverParts)) s ∧ said s.errcode) never := by
  rintro s ⟨has, same⟩
  have struct : s.live .netcf = true := (has.live .netcf (by decide)).mpr netcf
  cases driver : s.live .driver with
  | true =>
    rw [drvClose_run has driver]
    exact ⟨has.without_driver, same⟩
  | false =>
    have found : held .driver s = .ok false s := by
      unfold held
      rw [if_neg (by simp [owner, struct]), has.points .driver struct, driver]
    unfold drvClose
    rw [bind_of_ok _ found]
    refine ⟨⟨fun x shown => ?_, has.points, has.owned, has.silent, has.single⟩, same⟩
    rw [has.live x shown, List.mem_filter]
    refine (and_iff_left_of_imp fun member => ?_).symm
    have live := has.owned x ((has.live x shown).mpr member)
    cases x with
    | netcf | root | schema | details => rfl
    | driver => rw [(has.live .driver shown).mpr member] at driver; cases driver
    | _ => rw [show s.live .driver = true from live] at driver; cases driver

theorem Has.congr {other : List Resource} (has : Has rs s) (same : ∀ x, x ∈ rs ↔ x ∈ other) : Has other s :=
  ⟨fun x shown => (has.live x shown).trans (same x), has.points, has.owned, has.silent, has.single⟩

theorem without_leaf {t : Handle} (points : ∀ x, t.live (owner x) = true → t.pointer x = t.live x)
    (owned : ∀ x, t.live x = true → t.live (owner x) = true) (leaf : ∀ x, owner x ≠ r) :
    (∀ x, (t.without [r] [r]).live (owner x) = true → (t.without [r] [r]).pointer x = (t.without [r] [r]).live x) ∧
      ∀ x, (t.without [r] [r]).live x = true → (t.without [r] [r]).live (owner x) = true := by
  constructor
  · intro x above
    have above : t.live (owner x) = true := by simpa [Handle.without, leaf x] using above
    by_cases here : x = r
    · simp [Handle.without, here]
    · simpa [Handle.without, here] using points x above
  · intro x held
    have here : x ≠ r := fun here => by simp [Handle.without, here] at held
    simpa [Handle.without, leaf x] using owned x (by simpa [Handle.without, here] using held)

theorem triple_free (leaf : ∀ x, owner x ≠ r) (real : r ≠ .details) (struct : owner r ∈ rs) :
    Triple (fun s => Has rs s ∧ said s.errcode) (free r)
      (fun _ s => Has (rs.filter (· ≠ r)) s ∧ said s.errcode) never := by
  rintro s ⟨has, same⟩
  have alive := has.struct struct
  have run := @free_without r s [] [] alive (has.points r alive) (by simpa using leaf r) List.not_mem_nil List.not_mem_nil
  rw [show free r s = free r (s.without [] []) from rfl, run]
  obtain ⟨points, owned⟩ := without_leaf has.points has.owned leaf
  refine ⟨⟨fun x shown => ?_, points, owned, fun quiet => ?_, has.single⟩, same⟩
  · by_cases here : x = r
    · simp [Handle.without, here]
    · simp [Handle.without, here, has.live x shown]
  · simpa [Handle.without, Ne.symm real] using has.silent quiet

theorem triple_apiEntry (netcf : .netcf ∈ rs) :
    Triple (Has rs) apiEntry (fun _ s => Has rs s ∧ s.errcode = none) never := by
  intro s has
  have struct : s.live .netcf = true := (has.live .netcf (by decide)).mpr netcf
  have run := @free_without .details { s with errcode := none } [] [] struct (has.points .details struct) (by decide)
    List.not_mem_nil List.not_mem_nil
  rw [show apiEntry s = .ok () (({ s with errcode := none } : Handle).without [.details] [.details]) from
    (bind_of_ok _ (modify_run _ s)).trans run]
  have leaf (x : Resource) : owner x ≠ .details := by cases x <;> decide
  obtain ⟨points, owned⟩ := @without_leaf .details { s with errcode := none } has.points has.owned leaf
  refine ⟨⟨fun x shown => ?_, points, owned, fun _ => rfl, has.single⟩, rfl⟩
  simpa [Handle.without, shown] using has.live x shown

theorem unrefNetcf_run (single : s.ref = 1) : unrefNetcf s = freeNetcf { s with ref := 0 } := by
  unfold unrefNetcf
  rw [bind_of_ok _ (modify_run _ s), single]
  rfl

theorem triple_freeing (netcf : .netcf ∈ rs) (closed : ∀ x ∈ rs, x ∉ driverParts) :
    Triple (fun s => Has rs s ∧ s.errcode = none) (do release .schema; unrefNetcf; return 0 : Act Int)
      (fun ret s => ret = 0 ∧ ∀ r, s.live r = false) never := by
  rintro s ⟨has, quiet⟩
  have struct : s.live .netcf = true := (has.live .netcf (by decide)).mpr netcf
  have schema : release .schema s = .ok () (s.without [.schema] []) :=
    @release_without .schema s [] [] struct (has.points .schema struct) (by decide) List.not_mem_nil List.not_mem_nil
  have single : (s.without [.schema] []).ref = 1 := has.single
  have root : release .root (({ s with ref := 0 } : Handle).without [.schema] []) =
      .ok () (({ s with ref := 0 } : Handle).without [.root, .schema] []) :=
    release_without struct (has.points .root struct) (by decide) (by decide) (by decide)
  have last : release .netcf (({ s with ref := 0 } : Handle).without [.root, .schema] []) =
      .ok () (({ s with ref := 0 } : Handle).without [.netcf, .root, .schema] []) :=
    release_without struct (has.points .netcf struct) (by decide) (by decide) (by decide)
  have dropped : unrefNetcf (s.without [.schema] []) =
      .ok () (({ s with ref := 0 } : Handle).without [.netcf, .root, .schema] []) :=
    (unrefNetcf_run single).trans ((bind_of_ok _ root).trans last)
  rw [bind_of_ok _ schema, bind_of_ok _ dropped]
  refine ⟨rfl, fun r => ?_⟩
  by_cases shell : r ∈ [.netcf, .root, .schema]
  · exact if_pos shell
  · refine (if_neg shell).trans ?_
    by_cases details : r = .details
    · rw [details]
      exact has.silent quiet
    · refine has.not_live details fun member => closed r member ?_
      revert shell details
      cases r <;> decide

-- ncf_close of an instance without interfaces gives back all that there is.
theorem triple_ncfClose (netcf : .netcf ∈ rs) :
    Triple (Has rs) ncfClose (fun ret s => ret = 0 ∧ ∀ r, s.live r = false) never := by
  refine (triple_apiEntry netcf).bind fun _ s given => ?_
  rw [bind_of_ok _ (get_run s), given.1.single, if_neg (by decide)]
  have still : .netcf ∈ rs.filter (· ∉ driverParts) := List.mem_filter.mpr ⟨netcf, by decide⟩
  have closed := (triple_drvClose (fun code => code = none) netcf).bind fun _ =>
    triple_freeing still fun x member => by simpa using (List.mem_filter.mp member).2
  exact closed s given

end Closing

section Opening

variable (said : Option Errcode → Prop)

theorem triple_netlinkClose {base : List Resource} (driver : .driver ∈ base)
    (same : ∀ x, x ∈ rs ∧ x ∉ [.socket, .linkCache, .addrCache] ↔ x ∈ base) :
    Triple (fun s => Has rs s ∧ said s.errcode) netlinkClose (fun _ s => Has base s ∧ said s.errcode) never := by
  have struct : .driver ∈ rs := ((same .driver).mpr driver).1
  have leaf (r : Resource) (inside : r ∈ [.socket, .linkCache, .addrCache]) (x : Resource) : owner x ≠ r := by
    revert inside
    cases r <;> cases x <;> decide
  have second : .driver ∈ rs.filter (· ≠ .addrCache) := List.mem_filter.mpr ⟨struct, by decide⟩
  have third : .driver ∈ (rs.filter (· ≠ .addrCache)).filter (· ≠ .linkCache) := List.mem_filter.mpr ⟨second, by decide⟩
  refine (triple_free said (leaf .addrCache (by decide)) (by decide) struct).bind fun _ => ?_
  refine (triple_free said (leaf .linkCache (by decide)) (by decide) second).bind fun _ => ?_
  refine (triple_free said (leaf .socket (by decide)) (by decide) third).conclude fun _ s given => ⟨?_, given.2⟩
  refine given.1.congr fun x => (Iff.trans ?_ (same x))
  simp only [List.mem_filter, decide_eq_true_eq, List.mem_cons, List.not_mem_nil, or_false, not_or]
  tauto

def connected (env : Answers) : Bool :=
  env.gives .socket && env.connects && env.gives .linkCache && env.gives .addrCache

theorem triple_netlinkInit (driver : .driver ∈ rs) (absent : ∀ x ∈ [.socket, .linkCache, .addrCache], x ∉ rs) :
    Triple (fun s => Has rs s ∧ said s.errcode) (netlinkInit env)
      (fun ok s => ok = connected env ∧ Has (if ok = true then .addrCache :: .linkCache :: .socket :: rs else rs) s ∧
        said s.errcode) never := by
  have closing {held : List Resource} (same : ∀ x, x ∈ held ∧ x ∉ [.socket, .linkCache, .addrCache] ↔ x ∈ rs)
      (broken : connected env = false) :
      Triple (fun s => Has held s ∧ said s.errcode) (do netlinkClose; return false)
        (fun ok s => ok = connected env ∧ Has (if ok = true then .addrCache :: .linkCache :: .socket :: rs else rs) s ∧
          said s.errcode) never :=
    (triple_netlinkClose said driver same).bind fun _ => triple_pure fun _ given => ⟨broken.symm, given⟩
  have outside (x : Resource) (member : x ∈ rs) : x ∉ [.socket, .linkCache, .addrCache] := fun inside =>
    absent x inside member
  have socket : .socket ∉ rs := absent .socket (by decide)
  have linkCache : .linkCache ∉ rs := absent .linkCache (by decide)
  have addrCache : .addrCache ∉ rs := absent .addrCache (by decide)
  unfold netlinkInit
  refine (triple_acquire said driver (by decide) socket (env.gives .socket)).bind fun ok => ?_
  rintro s ⟨rfl, given⟩
  cases first : env.gives .socket with
  | false =>
    rw [first] at given
    exact closing (fun x => ⟨And.left, fun member => ⟨member, outside x member⟩⟩) (by simp [connected, first]) s given
  | true =>
    rw [first] at given
    cases connects : env.connects with
    | false =>
      refine closing (fun x => ⟨?_, fun member => ⟨List.mem_cons_of_mem _ member, outside x member⟩⟩)
        (by simp [connected, connects]) s given
      rintro ⟨member, apart⟩
      exact (List.mem_cons.mp member).resolve_left fun here => apart (by simp [here])
    | true =>
      refine Triple.bind (triple_acquire said (List.mem_cons_of_mem _ driver) (by decide) (by simp [linkCache])
        (env.gives .linkCache)) (fun ok => ?_) s given
      rintro s ⟨rfl, given⟩
      cases second : env.gives .linkCache with
      | false =>
        rw [second] at given
        refine closing (fun x => ⟨?_, fun member => ⟨List.mem_cons_of_mem _ member, outside x member⟩⟩)
          (by simp [connected, second]) s given
        rintro ⟨member, apart⟩
        exact (List.mem_cons.mp member).resolve_left fun here => apart (by simp [here])
      | true =>
        rw [second] at given
        refine Triple.bind (triple_acquire said (List.mem_cons_of_mem _ (List.mem_cons_of_mem _ driver)) (by decide)
          (by simp [addrCache]) (env.gives .addrCache)) (fun ok => ?_) s given
        rintro s ⟨rfl, given⟩
        cases third : env.gives .addrCache with
        | false =>
          rw [third] at given
          refine closing (fun x => ⟨?_, fun member => ⟨?_, outside x member⟩⟩) (by simp [connected, third]) s given
          · rintro ⟨member, apart⟩
            have outer : x ≠ .socket ∧ x ≠ .linkCache ∧ x ≠ .addrCache := by simpa using apart
            exact (List.mem_cons.mp ((List.mem_cons.mp member).resolve_left outer.2.1)).resolve_left outer.1
          · exact List.mem_cons_of_mem _ (List.mem_cons_of_mem _ member)
        | true =>
          rw [third] at given
          exact ⟨by simp [connected, first, connects, second, third], given⟩

theorem triple_initIoctlFd (netcf : .netcf ∈ rs) (driver : .driver ∈ rs) (absent : .ioctl ∉ rs) :
    Triple (fun s => Has rs s ∧ s.errcode = none) (initIoctlFd env)
      (fun ok s => ok = (env.gives .ioctl && env.flags) ∧ Has (if ok = true then .ioctl :: rs else rs) s ∧
        (ok = s.errcode.isNone)) never := by
  unfold initIoctlFd
  refine (triple_acquire (· = none) driver (by decide) absent (env.gives .ioctl)).bind fun ok => ?_
  rintro s ⟨rfl, given⟩
  cases got : env.gives .ioctl with
  | false =>
    rw [got] at given
    refine Triple.bind (triple_reportError netcf .internal) (fun _ => triple_pure fun s told => ?_) s given.1
    exact ⟨rfl, told.1, by simpa using told.2⟩
  | true =>
    rw [got] at given
    cases flags : env.flags with
    | false =>
      have leaf (x : Resource) : owner x ≠ .ioctl := by cases x <;> decide
      refine Triple.bind (@triple_reportError env (.ioctl :: rs) (List.mem_cons_of_mem .ioctl netcf) .internal)
        (fun _ => ?_) s given.1
      refine (triple_free (fun code => code.isSome = true) leaf (by decide) (List.mem_cons_of_mem .ioctl driver)).bind
        fun _ => ?_
      refine triple_pure fun s told => ⟨by simp, told.1.congr fun x => ?_, by simpa using told.2⟩
      simp only [List.mem_filter, List.mem_cons, decide_eq_true_eq]
      refine ⟨fun member => member.1.resolve_left member.2, fun member => ⟨Or.inr member, ?_⟩⟩
      rintro rfl
      exact absent member
    | true => exact ⟨rfl, given.1, by simp [given.2]⟩

def styled (env : Answers) : Bool :=
  (env.failure .get).isNone && (env.failure .put).isNone

-- What an instance holds besides its driver.
structure Bare (base : List Resource) : Prop where
  netcf : .netcf ∈ base
  apart : ∀ x ∈ driverParts, x ∉ base

theorem Bare.strip {base : List Resource} (bare : Bare base) {parts : List Resource}
    (inside : ∀ x ∈ parts, x ∈ driverParts) : (parts ++ base).filter (· ∉ driverParts) = base := by
  have gone : parts.filter (· ∉ driverParts) = [] :=
    List.filter_eq_nil_iff.mpr fun x member => by simpa using inside x member
  have kept : base.filter (· ∉ driverParts) = base :=
    List.filter_eq_self.mpr fun x member => decide_eq_true fun part => bare.apart x part member
  rw [List.filter_append, gone, kept, List.nil_append]

theorem Bare.fresh {base : List Resource} (bare : Bare base) (r : Resource) (part : r ∈ driverParts)
    (parts : List Resource) (absent : r ∉ parts) : r ∉ parts ++ base :=
  fun member => (List.mem_append.mp member).elim absent (bare.apart r part)

theorem Bare.held {base : List Resource} (bare : Bare base) (parts : List Resource) : .netcf ∈ parts ++ base :=
  List.mem_append_right parts bare.netcf

-- What drv_init needs behind the struct of the driver and in front of netlink.
def readies (env : Answers) (checksRoot : Bool) : Bool :=
  env.gives .tables && (!checksRoot || env.isDirectory) && styled env && (env.gives .ioctl && env.flags)

def driverOpens (env : Answers) (checksRoot : Bool) : Bool :=
  env.gives .driver && readies env checksRoot && connected env

def opened (env : Answers) (checksRoot : Bool) (base : List Resource) : List Resource :=
  (if driverOpens env checksRoot = true then
    [.addrCache, .linkCache, .socket, .ioctl, .put, .get, .tables, .driver] else []) ++ base

structure Initialised (env : Answers) (checksRoot : Bool) (base : List Resource) (answer : Int) (s : Handle) : Prop where
  ret : answer = if driverOpens env checksRoot = true then 0 else -1
  has : Has (opened env checksRoot base) s
  silent : answer = -1 → (s.errcode = none ↔ env.gives .driver = false ∨ readies env checksRoot = true)

section Driver

variable {base : List Resource} (bare : Bare base) {checksRoot : Bool}
include bare

-- The second one is parsed when the first one has failed, too.
theorem triple_parseStylesheets :
    Triple (fun s => Has ([.tables, .driver] ++ base) s ∧ s.errcode = none) (parseStylesheets env)
      (fun _ s => if styled env = true then Has ([.put, .get, .tables, .driver] ++ base) s ∧ s.errcode = none
        else ∃ parts, (∀ x ∈ parts, x ∈ driverParts) ∧ Has (parts ++ base) s ∧ s.errcode.isSome = true) never := by
  have getFirst := bare.fresh .get (by decide) [.tables, .driver] (by decide)
  unfold parseStylesheets
  refine (triple_parseStylesheet (bare.held [.tables, .driver]) (by simp [owner]) (by decide) getFirst).bind fun _ => ?_
  rintro s ⟨has, first⟩
  cases get : env.failure .get with
  | none =>
    simp only [get, if_true] at has
    have putNext := bare.fresh .put (by decide) [.get, .tables, .driver] (by decide)
    refine (Triple.conclude (@triple_parseStylesheet env _ .put s.errcode (bare.held [.get, .tables, .driver])
      (by simp [owner]) (by decide) putNext) fun _ s given => ?_) s ⟨has, rfl⟩
    obtain ⟨has, second⟩ := given
    rw [styled, get]
    cases put : env.failure .put with
    | none =>
      simp only [put, if_true] at has
      exact ⟨has, second.mpr ⟨first.mpr ⟨rfl, get⟩, put⟩⟩
    | some code =>
      simp only [put, reduceCtorEq, if_false] at has
      exact ⟨[.get, .tables, .driver], by decide, has, by simpa [put, Option.isSome_iff_ne_none] using second.not⟩
  | some error =>
    simp only [get, reduceCtorEq, if_false] at has
    have putNext := bare.fresh .put (by decide) [.tables, .driver] (by decide)
    refine (Triple.conclude (@triple_parseStylesheet env _ .put s.errcode (bare.held [.tables, .driver])
      (by simp [owner]) (by decide) putNext) fun _ s given => ?_) s ⟨has, rfl⟩
    obtain ⟨has, second⟩ := given
    have bad : s.errcode.isSome = true := by
      simpa [first, get, Option.isSome_iff_ne_none] using second.not
    rw [styled, get]
    cases put : env.failure .put with
    | none =>
      simp only [put, if_true] at has
      exact ⟨[.put, .tables, .driver], by decide, has, bad⟩
    | some code =>
      simp only [put, reduceCtorEq, if_false] at has
      exact ⟨[.tables, .driver], by decide, has, bad⟩

-- drv_init goes to its label error.
theorem triple_abandon (parts : List Resource) (inside : ∀ x ∈ parts, x ∈ driverParts) (said : Option Errcode → Prop)
    (broken : driverOpens env checksRoot = false)
    (silent : ∀ code, said code → (code = none ↔ env.gives .driver = false ∨ readies env checksRoot = true)) :
    Triple (fun s => Has (parts ++ base) s ∧ said s.errcode) abandon
      (Initialised env checksRoot base) never := by
  refine (triple_drvClose said (bare.held parts)).bind fun _ => triple_pure fun s given => ⟨by simp [broken], ?_, fun _ => ?_⟩
  · rw [opened, broken, ← bare.strip inside]
    exact given.1
  · exact silent s.errcode given.2

-- It does so after an error that has been told.
theorem triple_abandon_told (parts : List Resource) (inside : ∀ x ∈ parts, x ∈ driverParts)
    (driver : env.gives .driver = true) (unready : readies env checksRoot = false) :
    Triple (fun s => Has (parts ++ base) s ∧ s.errcode.isSome = true) abandon
      (Initialised env checksRoot base) never := by
  have broken : driverOpens env checksRoot = false := by simp [driverOpens, unready]
  refine triple_abandon bare parts inside (·.isSome = true) broken fun code told => ?_
  rw [driver, unready]
  simpa using Option.isSome_iff_ne_none.mp told

-- The last step, netlink.
theorem triple_drvInit_netlink (driver : env.gives .driver = true) (ready : readies env checksRoot = true) :
    Triple (fun s => Has ([.ioctl, .put, .get, .tables, .driver] ++ base) s ∧ s.errcode = none)
      (do if !(← netlinkInit env) then abandon else return 0)
      (Initialised env checksRoot base) never := by
  refine (triple_netlinkInit (· = none) (by simp) fun x member => bare.fresh x ?_ _ ?_).bind fun ok => ?_
  · revert member
    cases x <;> decide
  · revert member
    cases x <;> decide
  · rintro s ⟨rfl, has, quiet⟩
    cases link : connected env with
    | false =>
      rw [link] at has
      exact triple_abandon bare [.ioctl, .put, .get, .tables, .driver] (by decide) (· = none)
        (by simp [driverOpens, link]) (fun code told => by simp [show code = none from told, ready]) s ⟨has, quiet⟩
    | true =>
      rw [link] at has
      have opens : driverOpens env checksRoot = true := by simp [driverOpens, driver, ready, link]
      refine ⟨by simp [opens], ?_, fun negative => by cases negative⟩
      rw [opened, opens]
      exact has

-- The steps from the socket for ioctl on.
theorem triple_drvInit_ioctl (driver : env.gives .driver = true) (tables : env.gives .tables = true)
    (directory : (!checksRoot || env.isDirectory) = true) (sheets : styled env = true) :
    Triple (fun s => Has ([.put, .get, .tables, .driver] ++ base) s ∧ s.errcode = none)
      (do
        if !(← initIoctlFd env) then abandon
        else if !(← netlinkInit env) then abandon
        else return 0)
      (Initialised env checksRoot base) never := by
  have absent := bare.fresh .ioctl (by decide) [.put, .get, .tables, .driver] (by decide)
  refine (triple_initIoctlFd (bare.held [.put, .get, .tables, .driver]) (by simp) absent).bind fun ok => ?_
  rintro s ⟨rfl, has, code⟩
  cases ready : env.gives .ioctl && env.flags with
  | false =>
    rw [ready] at has code
    have bad : s.errcode.isSome = true := by
      cases told : s.errcode <;> simp [told] at code ⊢
    exact triple_abandon_told bare [.put, .get, .tables, .driver] (by decide) driver
      (by simp [readies, ready]) s ⟨has, bad⟩
  | true =>
    rw [ready] at has code
    have quiet : s.errcode = none := by
      cases told : s.errcode <;> simp [told] at code ⊢
    exact triple_drvInit_netlink bare driver (by rw [readies, tables, directory, sheets, ready]; rfl) s ⟨has, quiet⟩

-- The steps from the stylesheets on.
theorem triple_drvInit_styled (driver : env.gives .driver = true) (tables : env.gives .tables = true)
    (directory : (!checksRoot || env.isDirectory) = true) :
    Triple (fun s => Has ([.tables, .driver] ++ base) s ∧ s.errcode = none)
      (do
        parseStylesheets env
        if ← failed then abandon
        else if !(← initIoctlFd env) then abandon
        else if !(← netlinkInit env) then abandon
        else return 0)
      (Initialised env checksRoot base) never := by
  refine (triple_parseStylesheets bare).bind fun _ => ?_
  intro s given
  rw [bind_of_ok _ (failed_run s)]
  cases sheets : styled env with
  | false =>
    rw [sheets] at given
    obtain ⟨parts, inside, has, bad⟩ := given
    rw [bad]
    exact triple_abandon_told bare parts inside driver (by simp [readies, sheets]) s ⟨has, bad⟩
  | true =>
    rw [sheets] at given
    obtain ⟨has, good⟩ := given
    rw [good]
    exact triple_drvInit_ioctl bare driver tables directory sheets s ⟨has, good⟩

theorem triple_drvInit (checksRoot : Bool) :
    Triple (fun s => Has base s ∧ s.errcode = none) (drvInit env checksRoot) (Initialised env checksRoot base) never := by
  have noDriver := bare.fresh .driver (by decide) [] (by decide)
  have noTables := bare.fresh .tables (by decide) [.driver] (by decide)
  unfold drvInit
  refine (triple_acquire (· = none) bare.netcf (by decide) noDriver (env.gives .driver)).bind fun ok => ?_
  rintro s ⟨rfl, given⟩
  cases driver : env.gives .driver with
  | false =>
    rw [driver] at given
    have broken : driverOpens env checksRoot = false := by simp [driverOpens, driver]
    refine ⟨by simp [broken], ?_, fun _ => by simp [given.2, driver]⟩
    rw [opened, broken]
    exact given.1
  | true =>
    rw [driver] at given
    refine Triple.bind (triple_acquire (· = none) List.mem_cons_self (by decide) noTables (env.gives .tables))
      (fun ok => ?_) s given
    rintro s ⟨rfl, given⟩
    cases tables : env.gives .tables with
    | false =>
      rw [tables] at given
      exact Triple.bind triple_nomem (fun _ => triple_abandon_told bare [.driver] (by decide) driver
        (by simp [readies, tables])) s given.1
    | true =>
      rw [tables] at given
      cases root : checksRoot && !env.isDirectory with
      | true =>
        have directory : (!checksRoot || env.isDirectory) = false := by
          revert root
          cases checksRoot <;> cases env.isDirectory <;> decide
        exact Triple.bind (triple_reportError (bare.held [.tables, .driver]) .file) (fun _ =>
          triple_abandon_told bare [.tables, .driver] (by decide) driver (by simp [readies, directory])) s given.1
      | false =>
        have directory : (!checksRoot || env.isDirectory) = true := by
          revert root
          cases checksRoot <;> cases env.isDirectory <;> decide
        exact triple_drvInit_styled bare driver tables directory s given

end Driver

def instanceOpens (env : Answers) : Bool :=
  env.gives .netcf && env.gives .root && (env.failure .schema).isNone

theorem nothing_netcf : Has [.netcf] { nothing with
    live := fun x => if x = .netcf then true else false
    pointer := fun x => if x = .netcf then true else if owner x = .netcf then false else false
    ref := 1 } := by
  refine ⟨fun x _ => by simp, fun x above => ?_, fun x held => ?_, fun _ => rfl, rfl⟩
  · cases x <;> simp_all [owner]
  · cases x <;> simp_all [owner]

theorem bare_shell (env : Answers) : Bare (shell env) := by
  constructor
  · unfold shell
    split <;> decide
  · unfold shell
    split <;> decide

-- An instance whose driver has been set up or torn down, or nothing at all.
def Started (env : Answers) (checksRoot : Bool) (answer : Int × Bool) (s : Handle) : Prop :=
  if instanceOpens env = true then answer.2 = true ∧ Initialised env checksRoot (shell env) answer.1 s
  else answer = (-2, false) ∧ ∀ r, s.live r = false

theorem started_nothing {checksRoot : Bool} (broken : instanceOpens env = false) (empty : ∀ r, s.live r = false) :
    Started env checksRoot (-2, false) s := by
  rw [Started, broken]
  exact ⟨rfl, empty⟩

theorem triple_initialise (checksRoot : Bool) (netcf : env.gives .netcf = true) :
    Triple (fun s => Has [.netcf] s ∧ s.errcode = none) (initialise env checksRoot) (Started env checksRoot) never := by
  have gaveUp {held : List Resource} (top : .netcf ∈ held) (broken : instanceOpens env = false) :
      Triple (Has held) (do let _ ← ncfClose; return (-2, false)) (Started env checksRoot) never :=
    (triple_ncfClose top).bind fun _ => triple_pure fun s given => started_nothing broken given.2
  refine (triple_acquire (· = none) (by decide) (by decide) (by decide) (env.gives .root)).bind fun ok => ?_
  rintro s ⟨rfl, given⟩
  cases root : env.gives .root with
  | false =>
    rw [root] at given
    exact gaveUp (by decide) (by simp [instanceOpens, root]) s given.1
  | true =>
    rw [root] at given
    refine Triple.bind triple_rngParse (fun _ => ?_) s given
    intro s given
    rw [bind_of_ok _ (failed_run s)]
    cases schema : env.failure .schema with
    | some error =>
      rw [schema, if_neg (by simp)] at given
      obtain ⟨held, top, has, bad⟩ := given
      rw [bad]
      exact gaveUp top (by simp [instanceOpens, schema]) s has
    | none =>
      rw [schema, if_pos rfl] at given
      obtain ⟨has, good⟩ := given
      rw [good]
      have opens : instanceOpens env = true := by simp [instanceOpens, netcf, root, schema]
      refine Triple.bind (triple_drvInit (bare_shell env) checksRoot) (fun ret => triple_pure fun s initialised => ?_) s
        ⟨has, good⟩
      rw [Started, opens]
      exact ⟨rfl, initialised⟩

theorem triple_ncfInit (checksRoot : Bool) :
    Triple (· = nothing) (ncfInit env checksRoot) (Started env checksRoot) never := by
  rintro _ rfl
  unfold ncfInit
  have got := @acquire_run .netcf nothing (fun top => absurd rfl top) rfl (env.gives .netcf)
  rw [bind_of_ok _ got]
  cases netcf : env.gives .netcf with
  | false => exact started_nothing (by simp [instanceOpens, netcf]) fun r => ite_self false
  | true => exact triple_initialise checksRoot netcf _ ⟨nothing_netcf, rfl⟩

end Opening

-- Whatever fails, nothing is used after it has been freed, freed twice or lost. With -2 ncf_init has given back
-- everything itself, also when it is the schema that cannot be read; otherwise ncf_close does. An instance that
-- comes with -1 has an error code, unless it is the allocation of the driver or netlink that has failed.
theorem instance_accounted (env : Answers) (checksRoot : Bool) :
    (∃ ret kept after, ncfInit env checksRoot nothing = .ok (ret, kept) after ∧
      ret = (if instanceOpens env = false then -2 else if driverOpens env checksRoot = true then 0 else -1) ∧
      (kept = true ↔ ret ≠ -2) ∧
      (ret = -2 → ∀ r, after.live r = false) ∧
      (ret ≠ -2 → Has (opened env checksRoot (shell env)) after) ∧
      (ret = -1 → (after.errcode = none ↔ env.gives .driver = false ∨ readies env checksRoot = true))) ∧
      ∀ rs later, .netcf ∈ rs → Has rs later →
        ∃ closed, ncfClose later = .ok 0 closed ∧ ∀ r, closed.live r = false := by
  constructor
  · obtain ⟨⟨ret, kept⟩, after, run, started⟩ := (@triple_ncfInit env checksRoot).answers rfl
    refine ⟨ret, kept, after, run, ?_⟩
    rw [Started] at started
    cases opens : instanceOpens env with
    | false =>
      rw [opens] at started
      obtain ⟨answer, empty⟩ := started
      cases answer
      exact ⟨rfl, by decide, fun _ => empty, fun other => absurd rfl other, fun other => by cases other⟩
    | true =>
      rw [opens] at started
      obtain ⟨kept, initialised⟩ := started
      have two : ret ≠ -2 := by
        rw [show ret = _ from initialised.ret]
        split_ifs <;> decide
      exact ⟨initialised.ret, iff_of_true kept two, fun other => absurd other two, fun _ => initialised.has,
        initialised.silent⟩
  · intro rs later netcf has
    obtain ⟨ret, closed, run, rfl, empty⟩ := (@triple_ncfClose rs netcf).answers has
    exact ⟨closed, run, empty⟩

-- All works but nl_connect.
def unconnected : Answers :=
  ⟨fun _ => true, fun _ => none, true, true, true, false⟩

theorem instance_accounted_unconnected :
    ∃ after, ncfInit unconnected true nothing = .ok (-1, true) after ∧ after.errcode = none ∧
      ∃ closed, ncfClose after = .ok 0 closed ∧ ∀ r, closed.live r = false := by
  obtain ⟨⟨ret, kept, after, run, value, keeps, _, has, silent⟩, closes⟩ := instance_accounted unconnected true
  have failed : ret = -1 := value
  have given : ret ≠ -2 := by
    rw [failed]
    decide
  have handed : kept = true := keeps.mpr given
  rw [failed, handed] at run
  exact ⟨after, run, (silent failed).mpr (Or.inr rfl), closes _ after (by decide) (has given)⟩

end Accounts

end Netcf.Linux.Instances
