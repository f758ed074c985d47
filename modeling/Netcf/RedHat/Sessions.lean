import Netcf.Linux.References
import Netcf.RedHat.Listing

set_option autoImplicit false

-- The public calls of the Red Hat driver with the references that they take and drop, and
-- drv_lookup_by_mac_string.
namespace Netcf.RedHat

open Shared.Faulty Linux Linux.References Stylesheet

variable {D : Type}

section Queries

variable (augeas : Augeas Scripts D) (pathx : Pathx)

def hasIfcfgFile (name : String) : Api Scripts D Bool := do
  let found ← augFmtMatch augeas fun files => files.config.devices (files.config.related name)
  return !found.isEmpty

-- *[DEVICE = 'NAME']/LABEL
def ownValues (name label : String) (files : Files Scripts) : List (Option String) :=
  (files.config.files.filter (·.has "DEVICE" name)).flatMap (·.values label)

-- is_slave of the expression *[DEVICE = 'NAME'].
def isSlaveDevice (name : String) : Api Scripts D Bool :=
  subifPaths.anyM fun label => do
    let found ← augFmtMatch augeas (ownValues name label)
    return !found.isEmpty

def toLower (text : String) : String :=
  String.ofList (text.toList.map Char.toLower)

def baseName (path : String) : String :=
  String.ofList (path.toList.reverse.takeWhile (· ≠ '/')).reverse

-- The test [address/content = 'MAC']: a quote in the address makes another expression of it.
def macMatches (mac : String) (files : Files Scripts) : Option (List String) :=
  if '\'' ∈ mac.toList then
    (pathx.find ("/files/sys/class/net/*[address/content = '" ++ toLower mac ++ "']") files).map fun found =>
      found.map fun node => baseName node.1
  else some ((files.sysfs.filter (·.2 = toLower mac)).map (·.1))

def augMatchMac (mac : String) : Api Scripts D (List String) := do
  attempt .nomem
  let found ← augFmtFind augeas (macMatches pathx mac)
  found.forM fun _ => attempt .nomem
  return found

end Queries

section Programs

variable (augeas : Augeas Scripts D) (pathx : Pathx)

-- Once a query has failed the error code is set, and has_ifcfg_file gets no further than get_augeas.
def skipRest : List String → Program Scripts D (Option (List String))
  | [] => pure (some [])
  | _ :: rest => do
    let _ ← calling id (getAugeas augeas)
    skipRest rest

def macNames : List String → Program Scripts D (Option (List String))
  | [] => pure (some [])
  | name :: rest => do
    match ← calling id (hasIfcfgFile augeas name) with
    | none => skipRest augeas rest
    | some false => macNames rest
    | some true =>
      match ← calling id (attempt .nomem : Api Scripts D Unit) with
      | none => pure none
      | some () =>
        match ← calling id (isSlaveDevice augeas name) with
        | none => skipRest augeas rest
        | some true => macNames rest
        | some false => return (← macNames rest).map (name :: ·)

def fillSlots : List String → Program Scripts D (Bool × List (Option Nat))
  | [] => pure (true, [])
  | name :: rest => do
    match ← calling id (attempt .nomem : Api Scripts D Unit) with
    | none => pure (false, [])
    | some () =>
      let nif ← References.makeNetcfIf name
      if ← failed then pure (false, [nif])
      else
        let later ← fillSlots rest
        return (later.1, nif :: later.2)

def nulls (count : Nat) : List (Option Nat) :=
  List.replicate count none

def drvLookupByMacString (mac : String) (maxifaces : Nat) : Program Scripts D (Int × List (Option Nat)) := do
  match ← calling id (getAugeas augeas) with
  | none => pure (-1, nulls maxifaces)
  | some () =>
    match ← calling id (augMatchMac augeas pathx mac) with
    | none => pure (-1, nulls maxifaces)
    | some [] => pure (0, nulls maxifaces)
    | some (first :: others) =>
      match ← calling id (attempt .nomem : Api Scripts D Unit) with
      | none => pure (-1, nulls maxifaces)
      | some () =>
        match ← macNames augeas (first :: others) with
        | none => pure (-1, nulls maxifaces)
        | some names =>
          let filled ← fillSlots (names.take maxifaces)
          if filled.1 then
            return (names.length, filled.2 ++ nulls (maxifaces - filled.2.length))
          else
            filled.2.forM unref
            return (-1, nulls maxifaces)

def ncfLookupByMacString (mac : String) (maxifaces : Nat) : Program Scripts D (Int × List (Option Nat)) := do
  References.apiEntry
  drvLookupByMacString augeas pathx mac maxifaces

def ncfLookupByName (name : String) : Program Scripts D (Option Nat) := do
  References.apiEntry
  match ← calling id (getAugeas augeas) with
  | none => pure none
  | some () =>
    match ← calling id (findIfcfgPath augeas pathx name) with
    | none => pure none
    | some none => pure none
    | some (some path) =>
      let slave ← calling id (isSlave augeas pathx (some path))
      if slave.getD true then pure none
      else
        match ← calling id (attempt .nomem : Api Scripts D Unit) with
        | none => pure none
        | some () => returnNetcfIf name

variable (machine : Machine) (libxml : Libxml)

def defineAndSave (text : String) : EStateM Failure (Ncf Scripts D) String := do
  let name ← defineInTree augeas (backend machine pathx) libxml text
  stage .augSave (augSave augeas)
  return name

def ncfDefine (text : String) : Program Scripts D (Option Nat) := do
  References.apiEntry
  match ← calling Failure.code (defineAndSave augeas pathx machine libxml text) with
  | none => pure none
  | some name => returnNetcfIf name

def ncfIfUndefine (nif : Nat) : Program Scripts D Int := do
  let found ← object nif
  References.apiEntry
  match ← calling id (drvUndefine augeas (backend machine pathx) ⟨found.name⟩) with
  | none => pure (-1)
  | some () => pure 0

end Programs

section Counted

variable {augeas : Augeas Scripts D} {pathx : Pathx}

theorem hands_skipRest (names : List String) : Hands silent (skipRest augeas names) := by
  induction names with
  | nil => exact hands_pure rfl
  | cons name rest ih => exact (hands_calling _ _).bind fun _ => ih

theorem hands_macNames (names : List String) : Hands silent (macNames augeas names) := by
  induction names with
  | nil => exact hands_pure rfl
  | cons name rest ih =>
    refine (hands_calling _ _).bind fun listed => ?_
    rcases listed with _ | _ | _
    · exact hands_skipRest rest
    · exact ih
    · refine (hands_calling _ _).bind fun room => ?_
      cases room with
      | none => exact hands_pure rfl
      | some _ =>
        refine (hands_calling _ _).bind fun slave => ?_
        rcases slave with _ | _ | _
        · exact hands_skipRest rest
        · exact ih.bind fun _ => hands_pure rfl
        · exact ih

theorem hands_fillSlots (names : List String) :
    Hands (fun filled => filled.2.reduceOption) (fillSlots names : Program Scripts D (Bool × List (Option Nat))) := by
  induction names with
  | nil => exact hands_pure rfl
  | cons name rest ih =>
    refine (hands_calling _ _).bind fun room => ?_
    cases room with
    | none => exact hands_pure rfl
    | some _ =>
      intro live s counted
      obtain ⟨answer, middle, made, outcome⟩ := makeNetcfIf_counted counted name
      dsimp only
      rw [bind_of_ok _ made, bind_of_ok _ (failed_run middle)]
      rcases outcome with ⟨rfl, set, still⟩ | ⟨rfl, _, _, still⟩
      · rw [if_pos set]
        exact ⟨(false, [none]), middle, rfl, still⟩
      · cases bail : middle.errcode.isSome with
        | true => exact ⟨(false, [some s.next]), middle, rfl, still⟩
        | false =>
          obtain ⟨later, after, others, done⟩ := ih _ middle still
          refine ⟨(later.1, some s.next :: later.2), after, ?_, ?_⟩
          · rw [if_neg Bool.false_ne_true, bind_of_ok _ others]
            rfl
          · exact done.perm List.perm_middle

theorem hands_drvLookupByMacString (mac : String) (maxifaces : Nat) :
    Hands (fun answer => answer.2.reduceOption) (drvLookupByMacString augeas pathx mac maxifaces) := by
  have nothing : (nulls maxifaces).reduceOption = [] := List.reduceOption_replicate_none
  refine (hands_calling _ _).bind fun started => ?_
  cases started with
  | none => exact hands_pure nothing
  | some _ =>
    refine (hands_calling _ _).bind fun matched => ?_
    rcases matched with _ | _ | ⟨first, others⟩
    · exact hands_pure nothing
    · exact hands_pure nothing
    · refine (hands_calling _ _).bind fun room => ?_
      cases room with
      | none => exact hands_pure nothing
      | some _ =>
        refine (hands_macNames _).bind fun names => ?_
        cases names with
        | none => exact hands_pure nothing
        | some names =>
          intro live s counted
          obtain ⟨filled, middle, ran, still⟩ := hands_fillSlots (names.take maxifaces) live s counted
          dsimp only
          rw [bind_of_ok _ ran]
          cases filled.1 with
          | true =>
            refine ⟨_, middle, rfl, ?_⟩
            rwa [List.reduceOption_append, nulls, List.reduceOption_replicate_none, List.append_nil]
          | false =>
            obtain ⟨after, dropped, left⟩ := unref_all_counted still
            rw [if_neg Bool.false_ne_true, bind_of_ok _ dropped]
            refine ⟨_, after, rfl, ?_⟩
            rwa [nothing]

theorem hands_ncfLookupByName (name : String) : Hands Option.toList (ncfLookupByName augeas pathx name) := by
  refine hands_apiEntry.bind fun _ => (hands_calling _ _).bind fun started => ?_
  cases started with
  | none => exact hands_pure rfl
  | some _ =>
    refine (hands_calling _ _).bind fun path => ?_
    rcases path with _ | _ | path
    · exact hands_pure rfl
    · exact hands_pure rfl
    · refine (hands_calling _ _).bind fun slave => ?_
      cases slave.getD true with
      | true => exact hands_pure rfl
      | false =>
        refine (hands_calling _ _).bind fun room => ?_
        cases room with
        | none => exact hands_pure rfl
        | some _ => exact hands_returnNetcfIf name

theorem hands_ncfDefine (machine : Machine) (libxml : Libxml) (text : String) :
    Hands Option.toList (ncfDefine augeas pathx machine libxml text) := by
  refine hands_apiEntry.bind fun _ => (hands_calling _ _).bind fun saved => ?_
  cases saved with
  | none => exact hands_pure rfl
  | some name => exact hands_returnNetcfIf name

theorem ncfIfUndefine_counted (machine : Machine) {live : List Nat} {s : Session Scripts D} (counted : Counted live s)
    {nif : Nat} (member : nif ∈ live) :
    ∃ answer after, ncfIfUndefine augeas pathx machine nif s = .ok answer after ∧ Counted live after := by
  obtain ⟨found, run, _⟩ := counted.object_ok member
  have rest : Hands silent (do
      References.apiEntry
      match ← calling id (drvUndefine augeas (backend machine pathx) ⟨found.name⟩) with
      | none => pure (-1)
      | some () => pure 0 : Program Scripts D Int) := by
    refine hands_apiEntry.bind fun _ => (hands_calling _ _).bind fun done => ?_
    cases done with
    | none => exact hands_pure rfl
    | some _ => exact hands_pure rfl
  unfold ncfIfUndefine
  rw [bind_of_ok _ run]
  exact rest live s counted

end Counted

section Clients

-- The calls of a client, which passes only interfaces that it holds.
inductive ClientCall
  | lookupByName (name : String)
  | lookupByMacString (mac : String) (maxifaces : Nat)
  | define (text : String)
  | undefine (nif : Nat)
  | free (nif : Nat)

structure Client (D : Type) where
  session : Session Scripts D
  held : List Nat

-- The state that a successful ncf_init leaves, with the faults to come.
def opened (driver : Ncf Scripts D) : Client D :=
  ⟨⟨driver, none, 1, false, [], 0, 0⟩, []⟩

variable (augeas : Augeas Scripts D) (pathx : Pathx) (machine : Machine) (libxml : Libxml)

def receive {α : Type} (new : α → List Nat) (program : Program Scripts D α) : EStateM Abort (Client D) Unit :=
  fun client =>
    match program client.session with
    | .ok a after => .ok () ⟨after, new a ++ client.held⟩
    | .error abort after => .error abort ⟨after, client.held⟩

def holding (nif : Nat) (program : EStateM Abort (Client D) Unit) : EStateM Abort (Client D) Unit := fun client =>
  if nif ∈ client.held then program client else .ok () client

def release (nif : Nat) : EStateM Abort (Client D) Unit := fun client =>
  receive silent (ncfIfFree (some nif)) { client with held := client.held.erase nif }

def request : ClientCall → EStateM Abort (Client D) Unit
  | .lookupByName name => receive Option.toList (ncfLookupByName augeas pathx name)
  | .lookupByMacString mac maxifaces =>
      receive (fun answer => answer.2.reduceOption) (ncfLookupByMacString augeas pathx mac maxifaces)
  | .define text => receive Option.toList (ncfDefine augeas pathx machine libxml text)
  | .undefine nif => holding nif (receive silent (ncfIfUndefine augeas pathx machine nif))
  | .free nif => holding nif (release nif)

variable {augeas pathx machine libxml}

theorem receive_counted {α : Type} {new : α → List Nat} {program : Program Scripts D α} (hands : Hands new program)
    {client : Client D} (counted : Counted client.held client.session) :
    ∃ after, receive new program client = .ok () after ∧ Counted after.held after.session := by
  obtain ⟨a, after, ran, still⟩ := hands _ _ counted
  unfold receive
  rw [ran]
  exact ⟨_, rfl, still⟩

theorem holding_counted {nif : Nat} {program : EStateM Abort (Client D) Unit} {client : Client D}
    (counted : Counted client.held client.session)
    (each : nif ∈ client.held → ∃ after, program client = .ok () after ∧ Counted after.held after.session) :
    ∃ after, holding nif program client = .ok () after ∧ Counted after.held after.session := by
  unfold holding
  split
  · exact each (by assumption)
  · exact ⟨client, rfl, counted⟩

-- One call, whatever fails in it.
theorem request_counted (call : ClientCall) {client : Client D} (counted : Counted client.held client.session) :
    ∃ after, request augeas pathx machine libxml call client = .ok () after ∧ Counted after.held after.session := by
  cases call with
  | lookupByName name => exact receive_counted (hands_ncfLookupByName name) counted
  | lookupByMacString mac maxifaces =>
    exact receive_counted (hands_apiEntry.bind fun _ => hands_drvLookupByMacString mac maxifaces) counted
  | define text => exact receive_counted (hands_ncfDefine machine libxml text) counted
  | undefine nif =>
    refine holding_counted counted fun held => ?_
    obtain ⟨answer, after, ran, still⟩ := @ncfIfUndefine_counted _ augeas pathx machine _ _ counted _ held
    refine ⟨⟨after, client.held⟩, ?_, still⟩
    unfold receive
    rw [ran]
    rfl
  | free nif =>
    refine holding_counted counted fun held => ?_
    obtain ⟨after, ran, still⟩ := unref_counted counted held
    refine ⟨⟨after, client.held.erase nif⟩, ?_, still⟩
    unfold release receive ncfIfFree
    rw [ran]
    rfl

theorem requests_counted (calls : List ClientCall) {client : Client D} (counted : Counted client.held client.session) :
    ∃ after, calls.forM (request augeas pathx machine libxml) client = .ok () after ∧
      Counted after.held after.session := by
  induction calls generalizing client with
  | nil => exact ⟨client, rfl, counted⟩
  | cons call rest ih =>
    obtain ⟨middle, first, still⟩ := request_counted call counted
    obtain ⟨after, others, done⟩ := ih still
    exact ⟨after, (bind_of_ok _ first).trans others, done⟩

theorem counted_opened (driver : Ncf Scripts D) : Counted (opened driver).held (opened driver).session :=
  ⟨rfl, List.Perm.refl _, List.nodup_nil, nofun, nofun, Nat.zero_le _, fun _ => rfl, Or.inl rfl⟩

-- No call sequence makes an assertion fail. While fewer than 2^32 - 2 interfaces have been alive at once, the
-- count of the netcf object is one more than the number of interfaces that the client holds, each of these has one
-- reference, and ncf_close refuses exactly while there is one.
theorem references_counted (augeas : Augeas Scripts D) (pathx : Pathx) (machine : Machine) (libxml : Libxml)
    (driver : Ncf Scripts D) (calls : List ClientCall) :
    ∃ after, calls.forM (request augeas pathx machine libxml) (opened driver) = .ok () after ∧
      (after.session.peak < 2 ^ 32 - 2 →
        after.session.ref = 1 + after.held.length ∧
          (after.session.objects.map (·.1)).Perm after.held ∧
          (∀ entry ∈ after.session.objects, entry.2.ref = 1) ∧
          ∃ answer closed, ncfClose after.session = .ok answer closed ∧
            (answer = -1 ∧ closed.errcode = some .inUse ↔ after.held ≠ []) ∧
            (answer = 0 ↔ after.held = [])) := by
  obtain ⟨after, ran, counted⟩ := @requests_counted _ augeas pathx machine libxml calls _ (counted_opened driver)
  refine ⟨after, ran, ?_⟩
  intro room
  obtain ⟨answer, closed, run, outcome⟩ := ncfClose_counted counted room
  refine ⟨counted.exact room, counted.alive, counted.single, answer, closed, run, ?_⟩
  rcases outcome with ⟨rfl, code, some⟩ | ⟨rfl, _, none⟩
  · simp [code, some]
  · simp [none]

end Clients

end Netcf.RedHat
