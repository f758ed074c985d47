import Netcf.Shared.Stores
import Netcf.Linux.Listing

set_option autoImplicit false

-- The interfaces that getifaddrs reports, and how the FreeBSD driver lists them (drv_freebsd.c).
namespace Netcf.FreeBSD

open Shared.Faulty Shared.Stores Linux

-- What a pointer to a socket address leads to. Nothing but its family says how long the address is.
structure Sockaddr where
  byte : Nat → UInt8

structure Ifaddrs where
  name : String
  flags : BitVec 32
  addr : Option Sockaddr

def afInet : UInt8 := 2

def afLink : UInt8 := 18

def afInet6 : UInt8 := 28

def iffCantconfig : BitVec 32 := 0x10000

def Sockaddr.family (addr : Sockaddr) : UInt8 :=
  addr.byte 1

section Session

-- struct netcf with the allocations that are going to fail, and the pointers handed to the caller.
structure Session (α : Type) where
  faults : List Bool
  errcode : Bool
  ref : Nat
  stores : List (Store α)

inductive Stop
  | nomem
  | crash

abbrev Call (α : Type) := EStateM Stop (Session α)

variable {α : Type}

def flakyAlloc : Call α Bool := fun s =>
  match s.faults with
  | [] => .ok false s
  | fails :: later => .ok fails { s with faults := later }

def strdup (text : String) : Call α (Option String) := do
  return if ← flakyAlloc then none else some text

def keep (store : Store α) : Call α Unit :=
  modify fun s => { s with stores := s.stores ++ [store] }

-- A call of the library on an instance that nobody else holds.
def fresh (faults : List Bool) : Session α :=
  ⟨faults, false, 1, []⟩

end Session

section Listing

variable {α : Type}

def listed (flags : BitVec 32) (addr : Sockaddr) : Bool :=
  addr.family == afLink && flags &&& iffCantconfig == 0

-- One pass of list_interfaces, which stores the names only the second time.
def listPass (storing : Bool) (nint : Nat) (intf : List (Option String)) :
    List Ifaddrs → Call α (Nat × List (Option String))
  | [] => pure (nint, intf)
  | ifa :: rest => do
    match ifa.addr with
    | none => throw .crash
    | some addr =>
      if listed ifa.flags addr then
        if storing then
          let name ← strdup ifa.name
          if nint < intf.length then listPass storing (nint + 1) (intf.set nint name) rest
          else throw .crash
        else listPass storing (nint + 1) intf rest
      else listPass storing nint intf rest

def listInterfaces (ifap : List Ifaddrs) : Call α (List (Option String)) := do
  let counted ← listPass false 0 [] ifap
  if ← flakyAlloc then
    modify fun s => { s with errcode := true }
    throw .nomem
  let filled ← listPass true 0 (List.replicate counted.1 none) ifap
  return filled.2

variable (isActive : String → Bool) (flags : BitVec 32)

-- A missing array is replaced by one of a single slot as soon as there is a name to store.
def arrayFor : Option Nat → Call String (Option Nat)
  | some capacity => pure (some capacity)
  | none => do
    if ← flakyAlloc then return none
    return some 1

def collectIds (maxnames : Int) : Option Nat → Nat → List (Option String) → Call String Nat
  | _, nqualified, [] => pure nqualified
  | names, nqualified, intf :: rest => do
    if (nqualified : Int) < maxnames then
      match intf with
      | none => throw .crash
      | some name =>
        if isQualified isActive flags name then
          match ← arrayFor names with
          | none => collectIds maxnames none (nqualified + 1) rest
          | some capacity =>
            let copy ← strdup name
            keep ⟨nqualified, capacity, copy⟩
            match copy with
            | none =>
              modify fun s => { s with errcode := true }
              throw .nomem
            | some _ => collectIds maxnames (some capacity) (nqualified + 1) rest
        else collectIds maxnames names nqualified rest
    else pure nqualified

def listInterfaceIds (ifap : List Ifaddrs) (maxnames : Int) (names : Bool) : Call String Nat := do
  let intf ← listInterfaces ifap
  if names then collectIds isActive flags maxnames (some maxnames.toNat) 0 intf
  else collectIds isActive flags intf.length none 0 intf

def drvListInterfaces (ifap : List Ifaddrs) (maxnames : Int) : Call String Nat :=
  listInterfaceIds isActive flags ifap maxnames true

def drvNumOfInterfaces (ifap : List Ifaddrs) : Call String Nat :=
  listInterfaceIds isActive flags ifap 0 false

end Listing

section Configured

def configured (ifap : List Ifaddrs) : List String :=
  (ifap.filter fun ifa => ifa.addr.any (listed ifa.flags)).map Ifaddrs.name

def addressed (ifap : List Ifaddrs) : Bool :=
  ifap.all (·.addr.isSome)

theorem configured_cons (ifa : Ifaddrs) (rest : List Ifaddrs) {addr : Sockaddr} (here : ifa.addr = some addr) :
    configured (ifa :: rest) = if listed ifa.flags addr then ifa.name :: configured rest else configured rest := by
  unfold configured
  cases test : listed ifa.flags addr with
  | true => rw [List.filter_cons_of_pos (by simp [here, test]), List.map_cons, if_pos rfl]
  | false => rw [List.filter_cons_of_neg (by simp [here, test]), if_neg Bool.false_ne_true]

variable {α : Type}

-- The first pass only counts.
theorem listPass_counts (ifap : List Ifaddrs) (nint : Nat) (intf : List (Option String)) (s : Session α) :
    listPass false nint intf ifap s =
      if addressed ifap then .ok (nint + (configured ifap).length, intf) s else .error .crash s := by
  induction ifap generalizing nint with
  | nil => rfl
  | cons ifa rest ih =>
    unfold listPass
    cases here : ifa.addr with
    | none =>
      simp only [addressed, List.all_cons, here, Option.isSome_none, Bool.false_and, Bool.false_eq_true, if_false]
      rfl
    | some addr =>
      have others : addressed (ifa :: rest) = addressed rest := by simp [addressed, here]
      rw [others, configured_cons ifa rest here]
      cases test : listed ifa.flags addr with
      | true =>
        simp only [test, if_true, Bool.false_eq_true, if_false, List.length_cons]
        rw [ih, Nat.add_assoc, Nat.add_comm 1]
      | false =>
        simp only [test, Bool.false_eq_true, if_false]
        exact ih nint

end Configured

section Runs

variable {α : Type}

-- What is left of a name when there may be no memory for a copy.
def CopyOf (copy : Option String) (name : String) : Prop :=
  copy = none ∨ copy = some name

theorem strdup_run (text : String) (s : Session α) :
    ∃ copy faults, strdup text s = .ok copy { s with faults := faults } ∧ CopyOf copy text ∧
      (s.faults = [] → faults = [] ∧ copy = some text) := by
  obtain ⟨faults, errcode, ref, stores⟩ := s
  rcases faults with _ | ⟨fails, later⟩
  · exact ⟨some text, [], rfl, Or.inr rfl, fun _ => ⟨rfl, rfl⟩⟩
  · cases fails with
    | true => exact ⟨none, later, rfl, Or.inl rfl, fun calm => by cases calm⟩
    | false => exact ⟨some text, later, rfl, Or.inr rfl, fun calm => by cases calm⟩

-- The second pass finds as many names as the first one has counted.
theorem listPass_stores {ifap : List Ifaddrs} (complete : addressed ifap = true) (nint : Nat)
    (intf : List (Option String)) (room : intf.length = nint + (configured ifap).length) (s : Session α) :
    ∃ copies faults, listPass true nint intf ifap s =
        .ok (nint + (configured ifap).length, intf.take nint ++ copies) { s with faults := faults } ∧
      List.Forall₂ CopyOf copies (configured ifap) ∧
      (s.faults = [] → faults = [] ∧ copies = (configured ifap).map some) := by
  induction ifap generalizing nint intf s with
  | nil =>
    have whole : intf.take nint = intf := List.take_of_length_le (Nat.le_of_eq room)
    refine ⟨[], s.faults, ?_, List.Forall₂.nil, fun calm => ⟨calm, rfl⟩⟩
    rw [List.append_nil, whole]
    rfl
  | cons ifa rest ih =>
    cases here : ifa.addr with
    | none => simp [addressed, here] at complete
    | some addr =>
      have others : addressed rest = true := by
        rw [addressed, List.all_cons, Bool.and_eq_true] at complete
        exact complete.2
      rw [configured_cons ifa rest here] at room ⊢
      unfold listPass
      simp only [here]
      cases test : listed ifa.flags addr with
      | false =>
        simp only [test, Bool.false_eq_true, if_false] at room ⊢
        exact ih others nint intf room s
      | true =>
        simp only [test, if_true, List.length_cons] at room ⊢
        obtain ⟨copy, faults, run, made, calm⟩ := strdup_run ifa.name s
        rw [bind_of_ok _ run, if_pos (by omega)]
        have longer : (intf.set nint copy).length = nint + 1 + (configured rest).length := by
          rw [List.length_set]
          omega
        rcases ih others (nint + 1) (intf.set nint copy) longer { s with faults := faults }
          with ⟨copies, later, ran, more, quiet⟩
        refine ⟨copy :: copies, later, ?_, List.Forall₂.cons made more, ?_⟩
        · rw [ran, set_take (by omega), List.append_assoc, List.singleton_append, Nat.add_assoc, Nat.add_comm 1]
        · intro still
          obtain ⟨none_left, same⟩ := quiet (calm still).1
          exact ⟨none_left, by rw [same, (calm still).2, List.map_cons]⟩

theorem listInterfaces_crash {ifap : List Ifaddrs} (missing : addressed ifap = false) (s : Session α) :
    listInterfaces ifap s = .error .crash s := by
  have counts := @listPass_counts α ifap 0 [] s
  rw [missing, if_neg Bool.false_ne_true] at counts
  exact bind_of_error _ counts

theorem listInterfaces_run {ifap : List Ifaddrs} (complete : addressed ifap = true) (s : Session α) :
    (s.faults ≠ [] ∧ ∃ faults, listInterfaces ifap s = .error .nomem { s with faults := faults, errcode := true }) ∨
      ∃ copies faults, listInterfaces ifap s = .ok copies { s with faults := faults } ∧
        List.Forall₂ CopyOf copies (configured ifap) ∧
        (s.faults = [] → faults = [] ∧ copies = (configured ifap).map some) := by
  have counts := @listPass_counts α ifap 0 [] s
  rw [complete, if_pos rfl, Nat.zero_add] at counts
  have filled := fun t : Session α => listPass_stores complete 0
    (List.replicate (configured ifap).length none) (by rw [List.length_replicate, Nat.zero_add]) t
  rw [listInterfaces, bind_of_ok _ counts]
  obtain ⟨faults, errcode, ref, stores⟩ := s
  rcases faults with _ | ⟨fails, later⟩
  · right
    obtain ⟨copies, faults, run, made, calm⟩ := filled ⟨[], errcode, ref, stores⟩
    refine ⟨copies, faults, ?_, made, calm⟩
    exact bind_of_ok _ run
  · cases fails with
    | true => exact Or.inl ⟨by simp, later, rfl⟩
    | false =>
      right
      obtain ⟨copies, faults, run, made, _⟩ := filled ⟨later, errcode, ref, stores⟩
      refine ⟨copies, faults, ?_, made, fun calm => by cases calm⟩
      exact bind_of_ok _ run

end Runs

section Bounds

variable {isActive : String → Bool} {flags : BitVec 32}

theorem arrayFor_run (names : Option Nat) (s : Session String) :
    ∃ array faults, arrayFor names s = .ok array { s with faults := faults } ∧
      (array = none ∧ names = none ∨ array = some (names.getD 1)) ∧
      (s.faults = [] → faults = [] ∧ array = some (names.getD 1)) := by
  cases names with
  | some capacity => exact ⟨some capacity, s.faults, rfl, Or.inr rfl, fun calm => ⟨calm, rfl⟩⟩
  | none =>
    obtain ⟨faults, errcode, ref, stores⟩ := s
    rcases faults with _ | ⟨fails, later⟩
    · exact ⟨some 1, [], rfl, Or.inr rfl, fun _ => ⟨rfl, rfl⟩⟩
    · cases fails with
      | true => exact ⟨none, later, rfl, Or.inl ⟨rfl, rfl⟩, fun calm => by cases calm⟩
      | false => exact ⟨some 1, later, rfl, Or.inr rfl, fun calm => by cases calm⟩

-- Where a store of list_interface_ids goes, whatever fails on the way.
structure Placed (maxnames : Int) (bound : Nat) (names : Option Nat) (store : Store String) : Prop where
  below : (store.index : Int) < maxnames
  counted : store.index < bound
  capacity : store.capacity = names.getD 1

theorem collectIds_placed (maxnames : Int) (names : Option Nat) (nqualified : Nat) (intf : List (Option String))
    (s : Session String) :
    ∀ store ∈ (final (collectIds isActive flags maxnames names nqualified intf s)).stores,
      store ∈ s.stores ∨
        Placed maxnames (nqualified + intf.countP (·.any (isQualified isActive flags))) names store := by
  induction intf generalizing names nqualified s with
  | nil => exact fun store member => Or.inl member
  | cons entry rest ih =>
    unfold collectIds
    by_cases room : (nqualified : Int) < maxnames
    · rw [if_pos room]
      cases entry with
      | none => exact fun store member => Or.inl member
      | some name =>
        cases test : isQualified isActive flags name with
        | false =>
          simp only [test, Bool.false_eq_true, if_false]
          rw [List.countP_cons_of_neg (by simp [test])]
          exact ih names nqualified s
        | true =>
          simp only [test, if_true]
          rw [List.countP_cons_of_pos (by simp [test])]
          obtain ⟨array, faults, run, made, _⟩ := arrayFor_run names s
          rw [bind_of_ok _ run]
          have later : nqualified + 1 + rest.countP (·.any (isQualified isActive flags)) =
              nqualified + (rest.countP (·.any (isQualified isActive flags)) + 1) := by omega
          rcases made with ⟨rfl, rfl⟩ | rfl
          · rw [← later]
            exact ih none (nqualified + 1) _
          · obtain ⟨copy, after, copied, _, _⟩ := strdup_run name { s with faults := faults }
            simp only
            rw [bind_of_ok _ copied]
            have here : Placed maxnames (nqualified + (rest.countP (·.any (isQualified isActive flags)) + 1)) names
                ⟨nqualified, names.getD 1, copy⟩ := ⟨room, by simp only; omega, rfl⟩
            have split : ∀ store ∈ s.stores ++ [⟨nqualified, names.getD 1, copy⟩], store ∈ s.stores ∨
                Placed maxnames (nqualified + (rest.countP (·.any (isQualified isActive flags)) + 1)) names store := by
              intro store member
              rcases List.mem_append.mp member with old | new
              · exact Or.inl old
              · exact Or.inr (List.mem_singleton.mp new ▸ here)
            have kept : keep ⟨nqualified, names.getD 1, copy⟩ { s with faults := after } =
                .ok () { s with faults := after, stores := s.stores ++ [⟨nqualified, names.getD 1, copy⟩] } := rfl
            rw [bind_of_ok _ kept]
            cases copy with
            | none => exact split
            | some text =>
              intro store member
              rcases ih (some (names.getD 1)) (nqualified + 1) _ store member with old | new
              · exact split store old
              · rw [later] at new
                exact Or.inr ⟨new.below, new.counted, new.capacity⟩
    · rw [if_neg room]
      exact fun store member => Or.inl member

-- While nothing fails the names are stored one after the other.
theorem collectIds_calm (maxnames : Int) (names : Option Nat) (nqualified : Nat) (list : List String)
    {s : Session String} (calm : s.faults = []) :
    collectIds isActive flags maxnames names nqualified (list.map some) s =
      .ok (nqualified + ((list.filter (isQualified isActive flags)).take (maxnames - nqualified).toNat).length)
        { s with stores := (s.stores ++ placed (names.getD 1) nqualified
            ((list.filter (isQualified isActive flags)).take (maxnames - nqualified).toNat)) } := by
  induction list generalizing names nqualified s with
  | nil =>
    simp only [List.filter_nil, List.take_nil, List.length_nil, Nat.add_zero, placed_nil, List.append_nil]
    rfl
  | cons name rest ih =>
    rw [List.map_cons]
    unfold collectIds
    by_cases room : (nqualified : Int) < maxnames
    · rw [if_pos room]
      cases test : isQualified isActive flags name with
      | false =>
        simp only [test, Bool.false_eq_true, if_false]
        rw [List.filter_cons_of_neg (by simp [test])]
        exact ih names nqualified calm
      | true =>
        have left : (maxnames - nqualified).toNat = (maxnames - (nqualified + 1 : Nat)).toNat + 1 := by omega
        simp only [test, if_true]
        rw [List.filter_cons_of_pos test, left, List.take_succ_cons, List.length_cons, placed_cons]
        obtain ⟨array, faults, run, _, made⟩ := arrayFor_run names s
        obtain ⟨none_left, rfl⟩ := made calm
        rw [bind_of_ok _ run]
        obtain ⟨copy, after, copied, _, same⟩ := strdup_run name { s with faults := faults }
        obtain ⟨still, rfl⟩ := same none_left
        simp only
        rw [bind_of_ok _ copied]
        have kept : keep ⟨nqualified, names.getD 1, some name⟩ { s with faults := after } =
            .ok () { s with faults := after, stores := s.stores ++ [⟨nqualified, names.getD 1, some name⟩] } := rfl
        rw [bind_of_ok _ kept]
        have others := @ih (some (names.getD 1)) (nqualified + 1)
          { s with faults := after, stores := s.stores ++ [⟨nqualified, names.getD 1, some name⟩] } still
        simp only
        rw [others, still, calm, List.append_assoc, List.singleton_append, Nat.add_assoc, Nat.add_comm 1]
        rfl
    · have none_left : (maxnames - nqualified).toNat = 0 := by omega
      rw [if_neg room, none_left, List.take_zero, List.length_nil, placed_nil, List.append_nil]
      rfl

theorem countP_copies {copies : List (Option String)} {names : List String} (made : List.Forall₂ CopyOf copies names) :
    copies.countP (·.any (isQualified isActive flags)) ≤ (names.filter (isQualified isActive flags)).length := by
  rw [← List.countP_eq_length_filter]
  induction made with
  | nil => exact Nat.le_refl 0
  | cons copied _ ih =>
    rw [List.countP_cons, List.countP_cons]
    rcases copied with rfl | rfl
    · exact Nat.le_add_right_of_le ih
    · exact Nat.add_le_add_right ih _

end Bounds

section Theorem

variable (isActive : String → Bool) (flags : BitVec 32) (ifap : List Ifaddrs)

def wantedNames : List String :=
  (configured ifap).filter (wanted isActive flags)

-- Whatever fails, names are stored only below the end of their array; and when nothing fails, an array of the size
-- that drv_num_of_interfaces gives is filled by drv_list_interfaces.
structure StaysInBounds : Prop where
  listing : ∀ faults maxnames,
    ∀ store ∈ (final (drvListInterfaces isActive flags ifap maxnames (fresh faults))).stores, store.InBounds
  counting : ∀ faults,
    ∀ store ∈ (final (drvNumOfInterfaces isActive flags ifap (fresh faults))).stores, store.InBounds
  agrees : ∃ count counted stored, drvNumOfInterfaces isActive flags ifap (fresh []) = .ok count counted ∧
    drvListInterfaces isActive flags ifap count (fresh []) = .ok count stored ∧
    (stored.stores.filterMap Store.value).length = count

variable {isActive flags ifap}

theorem listInterfaceIds_stores (complete : addressed ifap = true) (faults : List Bool) (maxnames : Int) (names : Bool) :
    ∀ store ∈ (final (listInterfaceIds isActive flags ifap maxnames names (fresh faults))).stores,
      ∃ limit : Int, (names = true → limit = maxnames) ∧
        Placed limit (wantedNames isActive flags ifap).length (if names then some maxnames.toNat else none) store := by
  rcases listInterfaces_run complete (fresh faults : Session String) with
    ⟨_, later, failed⟩ | ⟨copies, later, run, made, _⟩
  · rw [listInterfaceIds, bind_of_error _ failed]
    intro store member
    cases member
  · have few := @countP_copies isActive flags _ _ made
    rw [isQualified_eq] at few
    rw [listInterfaceIds, bind_of_ok _ run]
    intro store member
    cases names with
    | true =>
      rcases collectIds_placed _ _ _ _ _ store member with old | new
      · cases old
      · rw [Nat.zero_add, isQualified_eq] at new
        exact ⟨maxnames, fun _ => rfl, new.below, Nat.lt_of_lt_of_le new.counted few, new.capacity⟩
    | false =>
      rcases collectIds_placed _ _ _ _ _ store member with old | new
      · cases old
      · rw [Nat.zero_add, isQualified_eq] at new
        exact ⟨copies.length, fun other => absurd other Bool.false_ne_true, new.below, Nat.lt_of_lt_of_le new.counted few, new.capacity⟩

theorem drvListInterfaces_calm (complete : addressed ifap = true) (maxnames : Int) :
    drvListInterfaces isActive flags ifap maxnames (fresh []) =
      .ok ((wantedNames isActive flags ifap).take maxnames.toNat).length
        ⟨[], false, 1, placed maxnames.toNat 0 ((wantedNames isActive flags ifap).take maxnames.toNat)⟩ := by
  rcases listInterfaces_run complete (fresh [] : Session String) with ⟨loud, _⟩ | ⟨copies, later, run, _, calm⟩
  · exact absurd rfl loud
  · obtain ⟨rfl, rfl⟩ := calm rfl
    rw [drvListInterfaces, listInterfaceIds, bind_of_ok _ run, if_pos rfl, collectIds_calm _ _ _ _ rfl, isQualified_eq,
      Nat.zero_add]
    rw [Nat.cast_zero, Int.sub_zero]
    rfl

theorem drvNumOfInterfaces_calm (complete : addressed ifap = true) :
    drvNumOfInterfaces isActive flags ifap (fresh []) =
      .ok (wantedNames isActive flags ifap).length
        ⟨[], false, 1, placed 1 0 (wantedNames isActive flags ifap)⟩ := by
  rcases listInterfaces_run complete (fresh [] : Session String) with ⟨loud, _⟩ | ⟨copies, later, run, _, calm⟩
  · exact absurd rfl loud
  · obtain ⟨rfl, rfl⟩ := calm rfl
    have all : (((((configured ifap).map some).length : Nat) : Int) - (0 : Nat)).toNat = (configured ifap).length := by
      rw [List.length_map]
      omega
    rw [drvNumOfInterfaces, listInterfaceIds, bind_of_ok _ run, if_neg Bool.false_ne_true,
      collectIds_calm _ _ _ _ rfl, all, List.take_of_length_le (List.length_filter_le _ _), isQualified_eq, Nat.zero_add]
    rfl

-- The counting call stays inside the array it makes only where it has at most one name to put there.
theorem listing_in_bounds_iff :
    StaysInBounds isActive flags ifap ↔ addressed ifap = true ∧ (wantedNames isActive flags ifap).length ≤ 1 := by
  constructor
  · intro inside
    have complete : addressed ifap = true := by
      cases missing : addressed ifap with
      | true => rfl
      | false =>
        obtain ⟨count, counted, _, run, _⟩ := inside.agrees
        rw [drvNumOfInterfaces, listInterfaceIds, bind_of_error _ (listInterfaces_crash missing _)] at run
        cases run
    refine ⟨complete, ?_⟩
    have stored := inside.counting []
    rw [drvNumOfInterfaces_calm complete] at stored
    rcases (placed_inBounds_iff 1 0 _).mp stored with nothing | few
    · rw [nothing]
      exact Nat.zero_le 1
    · rwa [Nat.zero_add] at few
  · rintro ⟨complete, few⟩
    refine ⟨?_, ?_, ?_⟩
    · intro faults maxnames store member
      obtain ⟨limit, same, below, _, capacity⟩ := listInterfaceIds_stores complete faults maxnames true store member
      rw [if_pos rfl, Option.getD_some] at capacity
      rw [same rfl] at below
      unfold Store.InBounds
      omega
    · intro faults store member
      obtain ⟨_, _, _, counted, capacity⟩ := listInterfaceIds_stores complete faults 0 false store member
      rw [if_neg Bool.false_ne_true, Option.getD_none] at capacity
      unfold Store.InBounds
      omega
    · have listed := @drvListInterfaces_calm isActive flags _ complete (wantedNames isActive flags ifap).length
      rw [Int.toNat_natCast, List.take_length] at listed
      exact ⟨_, _, _, drvNumOfInterfaces_calm complete, listed, congrArg List.length (values_placed _ _ _)⟩

-- A link-level address of sdl_type, sdl_nlen, sdl_alen and the bytes of the name and the address.
def linkAddr (type nlen alen : UInt8) (data : List UInt8) : Sockaddr :=
  ⟨fun i => ([54, afLink, 0, 0, type, nlen, alen, 0] ++ data).getD i 0⟩

def twoCards : List Ifaddrs :=
  [⟨"em0", 0, some (linkAddr 6 0 6 [0, 0, 0, 0, 0, 1])⟩, ⟨"em1", 0, some (linkAddr 6 0 6 [0, 0, 0, 0, 0, 2])⟩]

-- The second name goes past the end of an array of one slot.
theorem two_cards_overflow : ¬ StaysInBounds (fun _ => true) (ifaceActive ||| ifaceInactive) twoCards := by
  intro inside
  have stored := inside.counting []
  rw [drvNumOfInterfaces_calm (by decide)] at stored
  have outside := stored ⟨1, 1, some "em1"⟩ (List.mem_cons_of_mem _ List.mem_cons_self)
  exact absurd outside (Nat.lt_irrefl 1)

end Theorem

end Netcf.FreeBSD
