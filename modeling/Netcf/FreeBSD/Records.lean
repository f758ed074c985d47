import Netcf.Shared.Loops
import Netcf.FreeBSD.Interfaces

set_option autoImplicit false

-- What drv_mac_string and drv_xml_state take from the records of getifaddrs (drv_freebsd.c).  Both read
-- every address as a link-level one, and both go through all records whose name the interface's name
-- begins with.
namespace Netcf.FreeBSD

open Shared.Faulty Shared.Loops

section Layout

-- struct sockaddr_dl
def Sockaddr.sdlType (addr : Sockaddr) : UInt8 :=
  addr.byte 4

def Sockaddr.sdlNlen (addr : Sockaddr) : UInt8 :=
  addr.byte 5

def Sockaddr.sdlAlen (addr : Sockaddr) : UInt8 :=
  addr.byte 6

def Sockaddr.lladdr (addr : Sockaddr) (i : Nat) : UInt8 :=
  addr.byte (8 + addr.sdlNlen.toNat + i)

def iftEther : UInt8 := 6

def iftL2vlan : UInt8 := 135

def iftBridge : UInt8 := 209

def hexByte (byte : UInt8) : List Char :=
  [Nat.digitChar (byte.toNat / 16), Nat.digitChar (byte.toNat % 16)]

def etherNtoa (octet : Nat → UInt8) : String :=
  String.ofList ([':'].intercalate ((List.range 6).map fun i => hexByte (octet i)))

-- strncmp over the length of the record's name.
def sameName (name : String) (ifa : Ifaddrs) : Bool :=
  ifa.name.toList.isPrefixOf name.toList

end Layout

structure NetcfIf where
  name : String
  mac : Option String
  deriving DecidableEq

section Mac

variable {α : Type}

def hasMac (sdl : Sockaddr) : Bool :=
  sdl.sdlAlen > 0 &&
    ((sdl.sdlType == iftEther || sdl.sdlType == iftL2vlan || sdl.sdlType == iftBridge) && sdl.sdlAlen == 6)

def drvMacString : List Ifaddrs → NetcfIf → Call α NetcfIf
  | [], nif => pure nif
  | ifa :: rest, nif => do
    if sameName nif.name ifa then
      match ifa.addr with
      | none => drvMacString rest nif
      | some sdl =>
        if hasMac sdl then
          let mac ← strdup (etherNtoa sdl.lladdr)
          drvMacString rest { nif with mac := mac }
        else drvMacString rest nif
    else drvMacString rest nif

-- The address that a record gives to the interface.
def taken (name : String) (ifa : Ifaddrs) : Option Sockaddr :=
  if sameName name ifa then ifa.addr.filter hasMac else none

def Sockaddr.text (sdl : Sockaddr) : String :=
  etherNtoa sdl.lladdr

theorem drvMacString_run (ifap : List Ifaddrs) (nif : NetcfIf) (s : Session α) :
    ∃ mac faults, drvMacString ifap nif s = .ok { nif with mac := mac } { s with faults := faults } ∧
      (s.faults = [] → faults = [] ∧
        mac = overwrite (fun ifa => (taken nif.name ifa).map fun sdl => some sdl.text) nif.mac ifap) := by
  induction ifap generalizing nif s with
  | nil => exact ⟨nif.mac, s.faults, rfl, fun calm => ⟨calm, rfl⟩⟩
  | cons ifa rest ih =>
    unfold drvMacString overwrite
    cases same : sameName nif.name ifa with
    | false =>
      simp only [taken, same, Bool.false_eq_true, if_false, Option.map_none, Option.getD_none]
      exact ih nif s
    | true =>
      cases here : ifa.addr with
      | none =>
        simp only [taken, same, here, if_true, Option.filter_none, Option.map_none, Option.getD_none]
        exact ih nif s
      | some sdl =>
        cases test : hasMac sdl with
        | false =>
          simp only [taken, same, here, test, if_true, Bool.false_eq_true, if_false, Option.filter_some, Option.map_none,
            Option.getD_none]
          exact ih nif s
        | true =>
          simp only [taken, same, here, test, if_true, Option.filter_some, Option.map_some, Option.getD_some]
          obtain ⟨copy, faults, run, _, calm⟩ := strdup_run (etherNtoa sdl.lladdr) s
          rw [bind_of_ok _ run]
          obtain ⟨mac, later, ran, quiet⟩ := ih { nif with mac := copy } { s with faults := faults }
          refine ⟨mac, later, ran, ?_⟩
          intro still
          obtain ⟨none_left, rfl⟩ := calm still
          exact quiet none_left

theorem drvMacString_calm (ifap : List Ifaddrs) (nif : NetcfIf) {s : Session α} (calm : s.faults = []) :
    drvMacString ifap nif s = .ok { nif with
      mac := ((ifap.filterMap (taken nif.name)).getLast?.map Sockaddr.text).or nif.mac } s := by
  obtain ⟨mac, faults, run, quiet⟩ := drvMacString_run ifap nif s
  obtain ⟨none_left, rfl⟩ := quiet calm
  rw [run, none_left, ← calm, overwrite_eq, ← List.map_filterMap, List.getLast?_map]
  cases (ifap.filterMap (taken nif.name)).getLast? <;> rfl

end Mac

section Own

def ownAddress (name : String) (ifa : Ifaddrs) : Option Sockaddr :=
  if ifa.name = name then ifa.addr.filter fun sdl => sdl.family == afLink && hasMac sdl else none

def ownAddresses (name : String) (ifap : List Ifaddrs) : List Sockaddr :=
  ifap.filterMap (ownAddress name)

-- The interface gets one of its own addresses, or keeps what it had when it has none.
structure MacIsOwn (ifap : List Ifaddrs) (before after : NetcfIf) : Prop where
  found : ownAddresses before.name ifap ≠ [] →
    ∃ sdl ∈ ownAddresses before.name ifap, after.mac = some sdl.text
  missing : ownAddresses before.name ifap = [] → after.mac = before.mac

theorem taken_of_ownAddress {name : String} {ifa : Ifaddrs} {sdl : Sockaddr}
    (own : ownAddress name ifa = some sdl) : taken name ifa = some sdl := by
  unfold ownAddress at own
  by_cases same : ifa.name = name
  · rw [if_pos same, Option.filter_eq_some_iff, Bool.and_eq_true] at own
    have starts : sameName name ifa = true := by
      rw [sameName, same, List.isPrefixOf_iff_prefix]
    rw [taken, if_pos starts, Option.filter_eq_some_iff]
    exact ⟨own.1, own.2.2⟩
  · rw [if_neg same] at own
    cases own

theorem ownAddresses_of_none_taken {name : String} {ifap : List Ifaddrs} (none_taken : ifap.filterMap (taken name) = []) :
    ownAddresses name ifap = [] := by
  rw [ownAddresses, List.filterMap_eq_nil_iff]
  rw [List.filterMap_eq_nil_iff] at none_taken
  intro ifa member
  cases own : ownAddress name ifa with
  | none => rfl
  | some sdl =>
    have given := taken_of_ownAddress own
    rw [none_taken ifa member] at given
    cases given

-- The last record that is taken for one of the interface shows the address of one of its own records, or the
-- address that it had where it has no record of its own.
theorem mac_is_own_iff (ifap : List Ifaddrs) (nif : NetcfIf) :
    (∃ found after, drvMacString ifap nif (fresh [] : Session NetcfIf) = .ok found after ∧ MacIsOwn ifap nif found) ↔
      ∀ last ∈ (ifap.filterMap (taken nif.name)).getLast?,
        if ownAddresses nif.name ifap = [] then nif.mac = some last.text
        else ∃ sdl ∈ ownAddresses nif.name ifap, sdl.text = last.text := by
  have run := @drvMacString_calm NetcfIf ifap nif (fresh []) rfl
  have determined : (∃ found after, drvMacString ifap nif (fresh [] : Session NetcfIf) = .ok found after ∧
      MacIsOwn ifap nif found) ↔
      MacIsOwn ifap nif { nif with
        mac := ((ifap.filterMap (taken nif.name)).getLast?.map Sockaddr.text).or nif.mac } := by
    constructor
    · rintro ⟨found, after, ran, own⟩
      rw [run] at ran
      cases ran
      exact own
    · exact fun own => ⟨_, _, run, own⟩
  rw [determined]
  cases last : (ifap.filterMap (taken nif.name)).getLast? with
  | none =>
    have nothing := ownAddresses_of_none_taken (List.getLast?_eq_none_iff.mp last)
    constructor
    · intro _ sdl other
      cases other
    · exact fun _ => ⟨fun some_own => absurd nothing some_own, fun _ => rfl⟩
  | some sdl =>
    rw [Option.map_some, Option.some_or]
    by_cases nothing : ownAddresses nif.name ifap = []
    · simp only [nothing, if_true]
      constructor
      · intro own other same
        cases same
        exact (own.missing nothing).symm
      · intro same
        exact ⟨fun some_own => absurd nothing some_own, fun _ => (same sdl rfl).symm⟩
    · simp only [nothing, if_false]
      constructor
      · intro own other same
        cases same
        obtain ⟨first, member, shown⟩ := own.found nothing
        exact ⟨first, member, (Option.some.inj shown).symm⟩
      · intro same
        obtain ⟨first, member, shown⟩ := same sdl rfl
        exact ⟨fun _ => ⟨first, member, congrArg some shown.symm⟩, fun none_own => absurd none_own nothing⟩

def tenthFirst : List Ifaddrs :=
  [⟨"em10", 0, some (linkAddr 6 0 6 [0, 0, 0, 0, 0, 10])⟩, ⟨"em1", 0, some (linkAddr 6 0 6 [0, 0, 0, 0, 0, 1])⟩]

-- The address of em1 is given to em10.
theorem em10_gets_mac_of_em1 :
    ¬ ∃ found after, drvMacString tenthFirst ⟨"em10", none⟩ (fresh [] : Session NetcfIf) = .ok found after ∧
      MacIsOwn tenthFirst ⟨"em10", none⟩ found := by
  rintro ⟨found, after, run, own⟩
  have other : answer (drvMacString tenthFirst ⟨"em10", none⟩ (fresh [] : Session NetcfIf)) =
      some ⟨"em10", some "00:00:00:00:00:01"⟩ := by
    decide +kernel
  rw [answer_ok other run] at own
  have only : ownAddresses "em10" tenthFirst = [linkAddr 6 0 6 [0, 0, 0, 0, 0, 10]] := rfl
  obtain ⟨sdl, member, shown⟩ := own.found (by rw [only]; exact List.cons_ne_nil _ _)
  rw [only, List.mem_singleton] at member
  rw [member] at shown
  revert shown
  decide +kernel

end Own

section State

inductive InterfaceType
  | ethernet | bridge | vlan
  deriving DecidableEq

-- The calls of drv_xml_state that the system answers: the socket and the MTU of the interface, and for
-- an IPv6 record a socket and two requests.
structure Kernel where
  socket : Bool
  mtu : Option Nat
  socket6 : Ifaddrs → Bool
  flags6 : Ifaddrs → Bool
  lifetime6 : Ifaddrs → Bool

def Kernel.answers6 (kernel : Kernel) (ifa : Ifaddrs) : Bool :=
  kernel.socket6 ifa && kernel.flags6 ifa && kernel.lifetime6 ifa

-- What is handed to xml_print.
structure LiveState where
  interfaceType : InterfaceType
  mac : Option String
  mtu : Nat
  inet6 : Bool
  deriving DecidableEq

def typeOf (sdl : Sockaddr) : InterfaceType :=
  if sdl.sdlType = iftBridge then .bridge
  else if sdl.sdlType = iftL2vlan then .vlan
  else .ethernet

variable {α : Type}

-- None is a return before anything is printed.
def stateLoop (kernel : Kernel) (name : String) : LiveState → List Ifaddrs → Call α (Option LiveState)
  | live, [] => pure (some live)
  | live, ifa :: rest => do
    if sameName name ifa then
      match ifa.addr with
      | none => throw .crash
      | some sdl =>
        let live := { live with interfaceType := typeOf sdl }
        let live := if sdl.family = afInet then { live with inet6 := false } else live
        if sdl.family = afInet6 then
          if kernel.answers6 ifa then
            stateLoop kernel name { live with inet6 := true } rest
          else return none
        else stateLoop kernel name live rest
    else stateLoop kernel name live rest

def drvXmlState (kernel : Kernel) (ifap : List Ifaddrs) (nif : NetcfIf) : Call α (Option LiveState) := do
  let nif ← drvMacString ifap nif
  if kernel.socket then
    stateLoop kernel nif.name ⟨.ethernet, nif.mac, kernel.mtu.getD 0, false⟩ ifap
  else return none

-- The address that a record is judged by.
def seen (name : String) (ifa : Ifaddrs) : Option Sockaddr :=
  if sameName name ifa then ifa.addr else none

def answered (kernel : Kernel) (name : String) (ifap : List Ifaddrs) : Bool :=
  ifap.all fun ifa => kernel.answers6 ifa || !(seen name ifa).any (·.family == afInet6)

theorem stateLoop_run (kernel : Kernel) {name : String} {ifap : List Ifaddrs} (complete : addressed ifap = true)
    (live : LiveState) (s : Session α) :
    if answered kernel name ifap then
      ∃ after, stateLoop kernel name live ifap s = .ok (some after) s ∧
        after.interfaceType = overwrite (fun ifa => (seen name ifa).map typeOf) live.interfaceType ifap
    else stateLoop kernel name live ifap s = .ok none s := by
  induction ifap generalizing live with
  | nil => exact ⟨live, rfl, rfl⟩
  | cons ifa rest ih =>
    rw [addressed, List.all_cons, Bool.and_eq_true] at complete
    obtain ⟨sdl, here⟩ := Option.isSome_iff_exists.mp complete.1
    have later := ih complete.2
    rw [answered, List.all_cons]
    unfold stateLoop overwrite
    cases same : sameName name ifa with
    | false =>
      simp only [seen, same, Bool.false_eq_true, if_false, Option.any_none, Bool.not_false, Bool.or_true, Bool.true_and,
        Option.map_none, Option.getD_none]
      exact later live
    | true =>
      by_cases six : sdl.family = afInet6
      · cases answers : kernel.answers6 ifa with
        | true =>
          simp only [seen, same, here, six, if_true, Bool.true_or, Bool.true_and, Option.map_some,
            Option.getD_some]
          exact later _
        | false =>
          simp only [seen, same, here, six, if_true, Option.any_some, beq_self_eq_true, Bool.not_true,
            Bool.or_false, Bool.false_and, Bool.false_eq_true, if_false]
          rfl
      · have other : (sdl.family == afInet6) = false := by simpa using six
        simp only [seen, same, here, six, other, if_true, if_false, Option.any_some, Bool.not_false, Bool.or_true,
          Bool.true_and, Option.map_some, Option.getD_some]
        by_cases four : sdl.family = afInet
        · simp only [four, if_true]
          exact later _
        · simp only [four, if_false]
          exact later _

def linkOf (name : String) (ifa : Ifaddrs) : Bool :=
  ifa.name = name && ifa.addr.any (·.family == afLink)

-- One link-level record for each interface, and any number of internet addresses.
structure Reported (ifap : List Ifaddrs) : Prop where
  families : ∀ ifa ∈ ifap, ∃ addr, ifa.addr = some addr ∧ addr.family ∈ [afLink, afInet, afInet6]
  link : ∀ ifa ∈ ifap, ifap.countP (linkOf ifa.name) = 1

theorem Reported.complete {ifap : List Ifaddrs} (reported : Reported ifap) : addressed ifap = true := by
  rw [addressed, List.all_eq_true]
  intro ifa member
  obtain ⟨addr, here, _⟩ := reported.families ifa member
  rw [here, Option.isSome_some]

def HasLink (ifap : List Ifaddrs) (name : String) (sdl : Sockaddr) : Prop :=
  ∃ own ∈ ifap, own.name = name ∧ own.addr = some sdl ∧ sdl.family = afLink

theorem seen_link {ifap : List Ifaddrs} {name : String} {sdl : Sockaddr} (link : HasLink ifap name sdl) :
    ∃ last, (ifap.filterMap (seen name)).getLast? = some last := by
  obtain ⟨own, member, rfl, here, _⟩ := link
  have judged : seen own.name own = some sdl := by
    rw [seen, sameName, List.isPrefixOf_iff_prefix.mpr (List.prefix_refl _), if_pos rfl, here]
  cases last : (ifap.filterMap (seen own.name)).getLast? with
  | none =>
    have nothing := List.filterMap_eq_nil_iff.mp (List.getLast?_eq_none_iff.mp last) own member
    rw [judged] at nothing
    cases nothing
  | some other => exact ⟨other, rfl⟩

-- The type is the one of the interface's own link-level record when the last record that is taken for one of the
-- interface has a byte of the same kind in that place.
theorem live_type_iff (kernel : Kernel) {ifap : List Ifaddrs} (reported : Reported ifap) {name : String}
    {sdl : Sockaddr} (link : HasLink ifap name sdl) (mac : Option String) (s : Session α) :
    (∃ live after, drvXmlState kernel ifap ⟨name, mac⟩ s = .ok (some live) after ∧
        live.interfaceType = typeOf sdl) ↔
      kernel.socket = true ∧ answered kernel name ifap = true ∧
        ∀ last ∈ (ifap.filterMap (seen name)).getLast?, typeOf last = typeOf sdl := by
  obtain ⟨found, faults, run, _⟩ := drvMacString_run ifap ⟨name, mac⟩ s
  rw [drvXmlState, bind_of_ok _ run]
  cases kernel.socket with
  | false =>
    constructor
    · rintro ⟨live, after, printed, _⟩
      cases printed
    · rintro ⟨opened, _⟩
      cases opened
  | true =>
    have loop := @stateLoop_run _ kernel name _ reported.complete ⟨.ethernet, found, kernel.mtu.getD 0, false⟩
      { s with faults := faults }
    rw [if_pos rfl]
    cases calls : answered kernel name ifap with
    | false =>
      rw [calls, if_neg Bool.false_ne_true] at loop
      constructor
      · rintro ⟨live, after, printed, _⟩
        rw [loop] at printed
        cases printed
      · rintro ⟨_, complete, _⟩
        cases complete
    | true =>
      rw [calls, if_pos rfl] at loop
      obtain ⟨live, ran, type⟩ := loop
      obtain ⟨last, judged⟩ := seen_link link
      rw [overwrite_eq, ← List.map_filterMap, List.getLast?_map, judged, Option.map_some, Option.getD_some] at type
      rw [judged]
      constructor
      · rintro ⟨other, after, printed, right⟩
        rw [ran] at printed
        cases printed
        refine ⟨rfl, rfl, ?_⟩
        intro record same
        cases same
        rw [← type, right]
      · rintro ⟨_, _, right⟩
        exact ⟨live, _, ran, by rw [type, right last rfl]⟩

-- A system that answers every call.
def willing : Kernel :=
  ⟨true, some 1500, fun _ => true, fun _ => true, fun _ => true⟩

def inetAddr (a b c d : UInt8) : Sockaddr :=
  ⟨fun i => [16, afInet, 0, 0, a, b, c, d].getD i 0⟩

def card : List Ifaddrs :=
  [⟨"em0", 0, some (linkAddr iftEther 0 6 [0, 0, 0, 0, 0, 1])⟩, ⟨"em0", 0, some (inetAddr 192 168 1 1)⟩]

theorem card_type_right :
    ∃ live after, drvXmlState willing card ⟨"em0", none⟩ (fresh [] : Session NetcfIf) = .ok (some live) after ∧
      live.interfaceType = typeOf (linkAddr iftEther 0 6 [0, 0, 0, 0, 0, 1]) := by
  refine (live_type_iff willing ⟨?_, by decide⟩ ⟨_, List.mem_cons_self, rfl, rfl, rfl⟩ none (fresh [])).mpr ⟨rfl, rfl, ?_⟩
  · intro ifa member
    rcases List.mem_pair.mp member with rfl | rfl
    · exact ⟨_, rfl, by decide⟩
    · exact ⟨_, rfl, by decide⟩
  · intro last found
    cases found
    decide

def bridge : List Ifaddrs :=
  [⟨"bridge0", 0, some (linkAddr iftBridge 0 6 [0, 0, 0, 0, 0, 1])⟩, ⟨"bridge0", 0, some (inetAddr 192 168 1 1)⟩]

-- The first byte of the internet address is taken for the type of the link.
theorem bridge_type_wrong :
    Reported bridge ∧ HasLink bridge "bridge0" (linkAddr iftBridge 0 6 [0, 0, 0, 0, 0, 1]) ∧
      ¬ ∃ live after, drvXmlState willing bridge ⟨"bridge0", none⟩ (fresh [] : Session NetcfIf) =
          .ok (some live) after ∧
        live.interfaceType = typeOf (linkAddr iftBridge 0 6 [0, 0, 0, 0, 0, 1]) := by
  refine ⟨⟨?_, by decide⟩, ⟨_, List.mem_cons_self, rfl, rfl, rfl⟩, ?_⟩
  · intro ifa member
    rcases List.mem_pair.mp member with rfl | rfl
    · exact ⟨_, rfl, by decide⟩
    · exact ⟨_, rfl, by decide⟩
  · rintro ⟨live, after, run, right⟩
    have other : answer (drvXmlState willing bridge ⟨"bridge0", none⟩ (fresh [] : Session NetcfIf)) =
        some (some ⟨.ethernet, some "00:00:00:00:00:01", 1500, false⟩) := by
      decide +kernel
    rw [Option.some.inj (answer_ok other run)] at right
    revert right
    decide

end State

end Netcf.FreeBSD
