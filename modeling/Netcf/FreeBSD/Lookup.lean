import Netcf.FreeBSD.Records

set_option autoImplicit false

-- drv_lookup_by_name and drv_lookup_by_mac_string of the FreeBSD driver (drv_freebsd.c).
namespace Netcf.FreeBSD

open Shared.Faulty Shared.Stores

section Program

variable (probes : String → Bool)

def outOfMemory : Call NetcfIf Unit :=
  modify fun s => { s with errcode := true }

-- With an error left from an earlier call the way out frees the name once with the interface and once
-- more by itself.
def makeNetcfIf (name : String) : Call NetcfIf (Option NetcfIf) := do
  if ← flakyAlloc then
    outOfMemory
    return none
  modify fun s => { s with ref := s.ref + 1 }
  if (← get).errcode then throw .crash
  return some ⟨name, none⟩

def drvLookupByName (name : String) : Call NetcfIf (Option NetcfIf) := do
  if probes name then
    match ← strdup name with
    | none =>
      outOfMemory
      return none
    | some nameDup => makeNetcfIf nameDup
  else return none

-- An interface that is not stored takes its reference to the instance with it.
def matchInterfaces (ifap : List Ifaddrs) (mac : String) (maxifaces : Nat) :
    Nat → List (Option String) → Call NetcfIf Nat
  | total, [] => pure total
  | total, intf :: rest => do
    match intf with
    | none => throw .crash
    | some name =>
      match ← drvLookupByName probes name with
      | none => matchInterfaces ifap mac maxifaces total rest
      | some nif =>
        let temp ← drvMacString ifap nif
        match temp.mac with
        | none => matchInterfaces ifap mac maxifaces total rest
        | some currIfaceMac =>
          if currIfaceMac = mac then
            keep ⟨total, maxifaces, some temp⟩
            matchInterfaces ifap mac maxifaces (total + 1) rest
          else matchInterfaces ifap mac maxifaces total rest

-- A list that cannot be made is one of -1 interfaces.
def interfacesOrNone (ifap : List Ifaddrs) : Call NetcfIf (List (Option String)) := fun s =>
  match listInterfaces ifap s with
  | .error .nomem s' => .ok [] s'
  | result => result

-- The size of the array is not looked at.
def drvLookupByMacString (ifap : List Ifaddrs) (mac : String) (maxifaces : Nat) : Call NetcfIf Nat := do
  let intfIds ← interfacesOrNone ifap
  matchInterfaces probes ifap mac maxifaces 0 intfIds

end Program

section Run

variable {probes : String → Bool} {ifap : List Ifaddrs} {mac : String}

def macOf (ifap : List Ifaddrs) (name : String) : Option String :=
  (ifap.filterMap (taken name)).getLast?.map Sockaddr.text

theorem drvLookupByName_calm (name : String) {s : Session NetcfIf} (calm : s.faults = []) (clean : s.errcode = false) :
    drvLookupByName probes name s =
      if probes name then .ok (some ⟨name, none⟩) { s with ref := s.ref + 1 } else .ok none s := by
  obtain ⟨faults, errcode, ref, stores⟩ := s
  dsimp only at calm clean
  subst calm clean
  unfold drvLookupByName
  cases probes name <;> rfl

theorem drvMacString_new (name : String) {s : Session NetcfIf} (calm : s.faults = []) :
    drvMacString ifap ⟨name, none⟩ s = .ok ⟨name, macOf ifap name⟩ s := by
  rw [drvMacString_calm _ _ calm, Option.or_none]
  rfl

def exactMatches (probes : String → Bool) (ifap : List Ifaddrs) (mac : String) (names : List String) : List NetcfIf :=
  ((names.filter probes).filter fun name => macOf ifap name = some mac).map fun name => ⟨name, some mac⟩

theorem matchInterfaces_calm (maxifaces total : Nat) (names : List String) {s : Session NetcfIf}
    (calm : s.faults = []) (clean : s.errcode = false) :
    matchInterfaces probes ifap mac maxifaces total (names.map some) s =
      .ok (total + (exactMatches probes ifap mac names).length)
        { s with
          ref := s.ref + (names.filter probes).length
          stores := s.stores ++ placed maxifaces total (exactMatches probes ifap mac names) } := by
  induction names generalizing total s with
  | nil =>
    simp only [exactMatches, List.filter_nil, List.map_nil, List.length_nil, Nat.add_zero, placed_nil, List.append_nil]
    rfl
  | cons name rest ih =>
    have found := @drvLookupByName_calm probes name s calm clean
    rw [List.map_cons]
    unfold matchInterfaces
    dsimp only
    cases test : probes name with
    | false =>
      rw [test, if_neg Bool.false_ne_true] at found
      rw [bind_of_ok _ found, exactMatches, List.filter_cons_of_neg (by simp [test])]
      exact ih total calm clean
    | true =>
      rw [test, if_pos rfl] at found
      have run := @drvMacString_new ifap name { s with ref := s.ref + 1 } calm
      rw [bind_of_ok _ found]
      dsimp only
      rw [bind_of_ok _ run]
      dsimp only
      have counted : s.ref + 1 + (rest.filter probes).length = s.ref + ((name :: rest).filter probes).length := by
        rw [List.filter_cons_of_pos test, List.length_cons]
        omega
      cases address : macOf ifap name with
      | none =>
        have same : exactMatches probes ifap mac (name :: rest) = exactMatches probes ifap mac rest := by
          rw [exactMatches, List.filter_cons_of_pos test, List.filter_cons_of_neg (by simp [address])]
          rfl
        rw [same, ← counted]
        exact ih total calm clean
      | some current =>
        dsimp only
        by_cases equal : current = mac
        · subst equal
          have more : exactMatches probes ifap current (name :: rest) =
              ⟨name, some current⟩ :: exactMatches probes ifap current rest := by
            rw [exactMatches, List.filter_cons_of_pos test, List.filter_cons_of_pos (by simp [address])]
            rfl
          have kept : keep ⟨total, maxifaces, some ⟨name, some current⟩⟩ { s with ref := s.ref + 1 } =
              .ok () { s with
                ref := s.ref + 1
                stores := s.stores ++ [⟨total, maxifaces, some ⟨name, some current⟩⟩] } := rfl
          rw [if_pos rfl, bind_of_ok _ kept, more, ← counted, placed_cons, List.length_cons]
          have others := @ih (total + 1) { s with
            ref := s.ref + 1
            stores := s.stores ++ [⟨total, maxifaces, some ⟨name, some current⟩⟩] } calm clean
          rw [others, List.append_assoc, List.singleton_append, Nat.add_assoc, Nat.add_comm 1]
        · have same : exactMatches probes ifap mac (name :: rest) = exactMatches probes ifap mac rest := by
            rw [exactMatches, List.filter_cons_of_pos test, List.filter_cons_of_neg (by simp [address, equal])]
            rfl
          rw [if_neg equal, same, ← counted]
          exact ih total calm clean

theorem drvLookupByMacString_crash (missing : addressed ifap = false) (maxifaces : Nat) (s : Session NetcfIf) :
    drvLookupByMacString probes ifap mac maxifaces s = .error .crash s := by
  apply bind_of_error
  rw [interfacesOrNone, listInterfaces_crash missing]

theorem drvLookupByMacString_calm (complete : addressed ifap = true) (maxifaces ref : Nat) :
    drvLookupByMacString probes ifap mac maxifaces ⟨[], false, ref, []⟩ =
      .ok (exactMatches probes ifap mac (configured ifap)).length
        ⟨[], false, ref + ((configured ifap).filter probes).length,
          placed maxifaces 0 (exactMatches probes ifap mac (configured ifap))⟩ := by
  rcases listInterfaces_run complete (⟨[], false, ref, []⟩ : Session NetcfIf) with
    ⟨loud, _⟩ | ⟨copies, later, run, _, calm⟩
  · exact absurd rfl loud
  · obtain ⟨rfl, rfl⟩ := calm rfl
    have listed : interfacesOrNone ifap ⟨[], false, ref, []⟩ =
        .ok ((configured ifap).map some) ⟨[], false, ref, []⟩ := by
      rw [interfacesOrNone, run]
    rw [drvLookupByMacString, bind_of_ok _ listed, matchInterfaces_calm _ _ _ rfl rfl, Nat.zero_add, List.nil_append]

end Run

section Contract

variable (probes : String → Bool) (ifap : List Ifaddrs) (mac : String)

def sameMac (left right : String) : Bool :=
  left.toList.map Char.toLower = right.toList.map Char.toLower

def matching : List String :=
  ((configured ifap).filter probes).filter fun name => (macOf ifap name).any (sameMac mac)

-- What netcf.h promises of a call on an array: nothing is stored past its end, slots without an interface are
-- NULL, all interfaces with the address are counted, and every interface that is stored holds one reference to the
-- instance.
structure HonoursContract (ref : Nat) (array : List (Option NetcfIf)) (total : Nat) (after : Session NetcfIf) : Prop where
  inBounds : ∀ store ∈ after.stores, store.InBounds
  few : after.stores.length ≤ array.length
  empty : ∀ slot ∈ (written array after.stores).drop after.stores.length, slot = none
  counted : total = (matching probes ifap mac).length
  references : after.ref = ref + after.stores.length

variable {probes ifap mac}

theorem sameMac_self (text : String) : sameMac text text = true :=
  decide_eq_true rfl

theorem matching_of_exact (exact_all : ∀ name ∈ (configured ifap).filter probes, macOf ifap name = some mac) :
    matching probes ifap mac = (configured ifap).filter probes := by
  rw [matching, List.filter_eq_self]
  intro name member
  rw [exact_all name member]
  exact sameMac_self mac

theorem exactMatches_of_exact (exact_all : ∀ name ∈ (configured ifap).filter probes, macOf ifap name = some mac) :
    (exactMatches probes ifap mac (configured ifap)).length = ((configured ifap).filter probes).length := by
  have all : ((configured ifap).filter probes).filter (fun name => macOf ifap name = some mac) =
      (configured ifap).filter probes := by
    rw [List.filter_eq_self]
    intro name member
    exact decide_eq_true (exact_all name member)
  rw [exactMatches, List.length_map, all]

-- Since other interfaces are dropped without their reference, there may not be any.
theorem mac_lookup_contract_iff (ref : Nat) (array : List (Option NetcfIf)) :
    (∃ total after, drvLookupByMacString probes ifap mac array.length ⟨[], false, ref, []⟩ = .ok total after ∧
        HonoursContract probes ifap mac ref array total after) ↔
      addressed ifap = true ∧ (∀ name ∈ (configured ifap).filter probes, macOf ifap name = some mac) ∧
        ((configured ifap).filter probes).length ≤ array.length ∧
        ∀ slot ∈ array.drop ((configured ifap).filter probes).length, slot = none := by
  constructor
  · rintro ⟨total, after, run, contract⟩
    have complete : addressed ifap = true := by
      cases missing : addressed ifap with
      | true => rfl
      | false =>
        rw [drvLookupByMacString_crash missing] at run
        cases run
    rw [drvLookupByMacString_calm complete] at run
    cases run
    have lengths := contract.references
    simp only [length_placed, Nat.add_left_cancel_iff] at lengths
    have exact_all : ∀ name ∈ (configured ifap).filter probes, macOf ifap name = some mac := by
      rw [exactMatches, List.length_map] at lengths
      have kept := List.filter_eq_self.mp (List.filter_sublist.eq_of_length lengths.symm)
      exact fun name member => of_decide_eq_true (kept name member)
    have room := contract.few
    have empty := contract.empty
    simp only [length_placed] at room empty
    rw [written_placed _ _ _ (by rwa [Nat.zero_add]), List.take_zero, List.nil_append, Nat.zero_add,
      List.drop_left' (by rw [List.length_map])] at empty
    rw [← lengths] at room empty
    exact ⟨complete, exact_all, room, empty⟩
  · rintro ⟨complete, exact_all, room, empty⟩
    have lengths := exactMatches_of_exact exact_all
    refine ⟨_, _, drvLookupByMacString_calm complete _ _, ?_, ?_, ?_, ?_, ?_⟩
    · rw [placed_inBounds_iff, Nat.zero_add, lengths]
      exact Or.inr room
    · rwa [length_placed, lengths]
    · rw [length_placed, written_placed _ _ _ (by rw [Nat.zero_add, lengths]; exact room), List.take_zero,
        List.nil_append, Nat.zero_add, List.drop_left' (by rw [List.length_map]), lengths]
      exact empty
    · rw [lengths, matching_of_exact exact_all]
    · simp only [length_placed, lengths]

-- Two cards and an array for one, as ncftool has it.
theorem second_card_leaks :
    ¬ ∃ total after, drvLookupByMacString (fun _ => true) twoCards "00:00:00:00:00:01" 1 ⟨[], false, 1, []⟩ =
        .ok total after ∧
      HonoursContract (fun _ => true) twoCards "00:00:00:00:00:01" 1 [none] total after := by
  rintro ⟨total, after, run, contract⟩
  have run' := @drvLookupByMacString_calm (fun _ => true) twoCards "00:00:00:00:00:01" (by decide) 1 1
  rw [run] at run'
  cases run'
  exact absurd contract.references (by decide)

end Contract

end Netcf.FreeBSD
