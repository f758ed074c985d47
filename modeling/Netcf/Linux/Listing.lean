import Netcf.Linux.Programs

set_option autoImplicit false

-- The loop of list_interface_ids that the Linux drivers share.
namespace Netcf.Linux

open Shared.Faulty

-- netcf_if_flag_t
def ifaceInactive : BitVec 32 := 1

def ifaceActive : BitVec 32 := 2

section Qualified

variable (isActive : String → Bool)

def isQualified (flags : BitVec 32) (name : String) : Bool :=
  flags &&& (ifaceActive ||| ifaceInactive) == (ifaceActive ||| ifaceInactive) ||
    (isActive name && flags &&& ifaceActive != 0) || (!isActive name && flags &&& ifaceInactive != 0)

-- Which interfaces the flags ask for: the bit of an interface's state has to be set.
def wanted (flags : BitVec 32) (name : String) : Bool :=
  if isActive name then flags.getLsbD 1 else flags.getLsbD 0

theorem active_bit (flags : BitVec 32) : (flags &&& ifaceActive != 0) = flags.getLsbD 1 := by
  have alone : flags &&& ifaceActive = if flags.getLsbD 1 then BitVec.twoPow 32 1 else 0#32 := BitVec.and_twoPow flags 1
  rw [alone]
  cases flags.getLsbD 1 <;> rfl

theorem inactive_bit (flags : BitVec 32) : (flags &&& ifaceInactive != 0) = flags.getLsbD 0 := by
  have alone : flags &&& ifaceInactive = if flags.getLsbD 0 then BitVec.twoPow 32 0 else 0#32 := BitVec.and_twoPow flags 0
  rw [alone]
  cases flags.getLsbD 0 <;> rfl

theorem both_bits (flags : BitVec 32) :
    (flags &&& (ifaceActive ||| ifaceInactive) == (ifaceActive ||| ifaceInactive)) =
      (flags.getLsbD 1 && flags.getLsbD 0) := by
  have first : flags &&& ifaceActive = if flags.getLsbD 1 then BitVec.twoPow 32 1 else 0#32 := BitVec.and_twoPow flags 1
  have second : flags &&& ifaceInactive = if flags.getLsbD 0 then BitVec.twoPow 32 0 else 0#32 :=
    BitVec.and_twoPow flags 0
  have split : flags &&& (ifaceActive ||| ifaceInactive) = flags &&& ifaceActive ||| flags &&& ifaceInactive := by
    ext i
    simp [Bool.and_or_distrib_left]
  rw [split, first, second]
  cases flags.getLsbD 1 <;> cases flags.getLsbD 0 <;> rfl

theorem isQualified_eq (flags : BitVec 32) : isQualified isActive flags = wanted isActive flags := by
  funext name
  unfold isQualified wanted
  rw [active_bit, inactive_bit, both_bits]
  cases isActive name <;> cases flags.getLsbD 1 <;> cases flags.getLsbD 0 <;> rfl

end Qualified

section Loop

variable {C D P : Type} (isActive : String → Bool) (idOf : P → Api C D (Option String)) (names : Bool)
  (flags : BitVec 32)

-- How many names there is room for, and the interfaces that are left. Names are copied only into an array, and an
-- interface without a name is passed over.
def collectNames : Nat → List P → Api C D (Nat × List String)
  | 0, _ => pure (0, [])
  | _, [] => pure (0, [])
  | room + 1, intf :: rest => do
    match ← idOf intf with
    | none => collectNames (room + 1) rest
    | some name =>
      if isQualified isActive flags name then
        onlyIf names (attempt .nomem)
        let (nqualified, stored) ← collectNames room rest
        return (nqualified + 1, if names then name :: stored else stored)
      else collectNames (room + 1) rest

-- Without an array there is room for all, whatever the caller says.
def listInterfaceIds (listInterfaces : Api C D (List P)) (maxnames : Option Nat) : Api C D (Nat × List String) := do
  let intf ← listInterfaces
  collectNames isActive idOf maxnames.isSome flags (maxnames.getD intf.length) intf

end Loop

section Answers

variable {C D P : Type} {disk : D} {tables : List (Option Entries)} {files : Files C} {isActive : String → Bool}
  {idOf : P → Api C D (Option String)} {named : P → Option String}

theorem answers_onlyIf (names : Bool) :
    Answers (Loaded disk tables) Calm files (onlyIf names (attempt .nomem) : Api C D PUnit) ⟨⟩ := by
  cases names with
  | true => exact answers_attempt .nomem
  | false => exact answers_pure _

theorem answers_collectNames (names : Bool) (flags : BitVec 32) (room : Nat) {list : List P}
    (each : ∀ intf ∈ list, Answers (Loaded disk tables) Calm files (idOf intf) (named intf)) :
    Answers (Loaded disk tables) Calm files (collectNames isActive idOf names flags room list)
      ((((list.filterMap named).filter (isQualified isActive flags)).take room).length,
        if names then ((list.filterMap named).filter (isQualified isActive flags)).take room else []) := by
  induction list generalizing room with
  | nil => cases room <;> cases names <;> exact answers_pure _
  | cons intf rest ih =>
    have later := fun room => ih room fun other member => each other (List.mem_cons_of_mem intf member)
    cases room with
    | zero => cases names <;> exact answers_pure _
    | succ room =>
      refine (each intf List.mem_cons_self).bind ?_
      cases found : named intf with
      | none =>
        rw [List.filterMap_cons_none found]
        exact later (room + 1)
      | some name =>
        rw [List.filterMap_cons_some found]
        dsimp only
        cases test : isQualified isActive flags name with
        | false =>
          rw [List.filter_cons_of_neg (by simp [test]), if_neg Bool.false_ne_true]
          exact later (room + 1)
        | true =>
          rw [List.filter_cons_of_pos test, if_pos rfl, List.take_succ_cons, List.length_cons]
          refine (answers_onlyIf names).bind ((later room).bind ?_)
          cases names <;> exact answers_pure _

variable {listInterfaces : Api C D (List P)} {list : List P}

theorem answers_listInterfaceIds (listing : Answers (Loaded disk tables) Calm files listInterfaces list)
    (each : ∀ intf ∈ list, Answers (Loaded disk tables) Calm files (idOf intf) (named intf)) (flags : BitVec 32)
    (maxnames : Nat) :
    Answers (Loaded disk tables) Calm files (listInterfaceIds isActive idOf flags listInterfaces (some maxnames))
      ((((list.filterMap named).filter (isQualified isActive flags)).take maxnames).length,
        ((list.filterMap named).filter (isQualified isActive flags)).take maxnames) :=
  listing.bind (answers_collectNames true flags maxnames each)

theorem answers_count (listing : Answers (Loaded disk tables) Calm files listInterfaces list)
    (each : ∀ intf ∈ list, Answers (Loaded disk tables) Calm files (idOf intf) (named intf)) (flags : BitVec 32) :
    Answers (Loaded disk tables) Calm files (listInterfaceIds isActive idOf flags listInterfaces none)
      (((list.filterMap named).filter (isQualified isActive flags)).length, []) := by
  have counted := @answers_collectNames _ _ _ disk tables files isActive _ named false flags list.length list each
  have all : ((list.filterMap named).filter (isQualified isActive flags)).length ≤ list.length :=
    (List.length_filter_le _ _).trans (List.length_filterMap_le _ _)
  rw [List.take_of_length_le all] at counted
  exact listing.bind counted

section Names

variable {program : Api C D (List String)} {names : List String}
  (listing : Answers (Loaded disk tables) Calm files program names) (flags : BitVec 32)
include listing

theorem answers_listNames (maxnames : Nat) :
    Answers (Loaded disk tables) Calm files
      (listInterfaceIds isActive (fun name => pure (some name)) flags program (some maxnames))
      (((names.filter (isQualified isActive flags)).take maxnames).length,
        (names.filter (isQualified isActive flags)).take maxnames) := by
  have stores := @answers_listInterfaceIds _ _ _ disk tables files isActive _ some _ _ listing
    (fun name _ => answers_pure (some name)) flags maxnames
  rwa [List.filterMap_some] at stores

theorem answers_countNames :
    Answers (Loaded disk tables) Calm files
      (listInterfaceIds isActive (fun name => pure (some name)) flags program none)
      ((names.filter (isQualified isActive flags)).length, []) := by
  have counts := @answers_count _ _ _ disk tables files isActive _ some _ _ listing
    (fun name _ => answers_pure (some name)) flags
  rwa [List.filterMap_some] at counts

end Names

end Answers

section Delivered

variable {C D : Type}

-- What the three calls deliver of a list of names: list_interface_ids the first of those that the flags ask for,
-- drv_num_of_interfaces as many as drv_list_interfaces has names for an array of that size, and the active and the
-- inactive ones together all of them.
structure FilterThenTruncate (listInterfaceIds : Option Nat → BitVec 32 → Api C D (Nat × List String))
    (drvNumOfInterfaces : BitVec 32 → Api C D Nat) (drvListInterfaces : Nat → BitVec 32 → Api C D (List String))
    (isActive : String → Bool) (names : List String) (ncf : Ncf C D) : Prop where
  stored : ∀ flags maxnames, ∃ after, listInterfaceIds (some maxnames) flags ncf =
    .ok (((names.filter (wanted isActive flags)).take maxnames).length,
      (names.filter (wanted isActive flags)).take maxnames) after
  counted : ∀ flags, ∃ after, listInterfaceIds none flags ncf =
    .ok ((names.filter (wanted isActive flags)).length, []) after
  fits : ∀ flags, ∃ count after found final, drvNumOfInterfaces flags ncf = .ok count after ∧
    drvListInterfaces count flags ncf = .ok found final ∧ found.length = count ∧
      found = names.filter (wanted isActive flags)
  parts : ∀ room, names.length ≤ room → ∃ all up down first second third,
    drvListInterfaces room (ifaceActive ||| ifaceInactive) ncf = .ok all first ∧
      drvListInterfaces room ifaceActive ncf = .ok up second ∧
      drvListInterfaces room ifaceInactive ncf = .ok down third ∧
      all = names ∧ up = all.filter isActive ∧ down = all.filter fun name => !isActive name

variable {listInterfaceIds : Option Nat → BitVec 32 → Api C D (Nat × List String)}
  {drvNumOfInterfaces : BitVec 32 → Api C D Nat} {drvListInterfaces : Nat → BitVec 32 → Api C D (List String)}
  {isActive : String → Bool} {names : List String} {disk : D} {tables : List (Option Entries)} {files : Files C}
  {ncf : Ncf C D}

theorem wanted_both : names.filter (wanted isActive (ifaceActive ||| ifaceInactive)) = names := by
  rw [List.filter_eq_self]
  intro name _
  unfold wanted
  cases isActive name <;> rfl

theorem wanted_active : names.filter (wanted isActive ifaceActive) = names.filter isActive := by
  apply List.filter_congr
  intro name _
  unfold wanted
  cases isActive name <;> rfl

theorem wanted_inactive : names.filter (wanted isActive ifaceInactive) = names.filter fun name => !isActive name := by
  apply List.filter_congr
  intro name _
  unfold wanted
  cases isActive name <;> rfl

theorem filterThenTruncate (quiet : Quiet disk tables ncf files)
    (stores : ∀ flags maxnames, Answers (Loaded disk tables) Calm files (listInterfaceIds (some maxnames) flags)
      (((names.filter (isQualified isActive flags)).take maxnames).length,
        (names.filter (isQualified isActive flags)).take maxnames))
    (counts : ∀ flags, Answers (Loaded disk tables) Calm files (listInterfaceIds none flags)
      ((names.filter (isQualified isActive flags)).length, []))
    (num : ∀ flags, drvNumOfInterfaces flags = do return (← listInterfaceIds none flags).1)
    (list : ∀ maxnames flags, drvListInterfaces maxnames flags = do return (← listInterfaceIds (some maxnames) flags).2) :
    FilterThenTruncate listInterfaceIds drvNumOfInterfaces drvListInterfaces isActive names ncf := by
  simp only [isQualified_eq] at stores counts
  have delivers : ∀ maxnames flags, ∃ after, drvListInterfaces maxnames flags ncf =
      .ok ((names.filter (wanted isActive flags)).take maxnames) after := by
    intro maxnames flags
    have answer : Answers (Loaded disk tables) Calm files
        (do return (← listInterfaceIds (some maxnames) flags).2)
        ((names.filter (wanted isActive flags)).take maxnames) := (stores flags maxnames).bind (answers_pure _)
    obtain ⟨after, run, _⟩ := answer.runs quiet.1 quiet.2
    exact ⟨after, by rw [list]; exact run⟩
  refine ⟨?_, ?_, ?_, ?_⟩
  · intro flags maxnames
    obtain ⟨after, run, _⟩ := (stores flags maxnames).runs quiet.1 quiet.2
    exact ⟨after, run⟩
  · intro flags
    obtain ⟨after, run, _⟩ := (counts flags).runs quiet.1 quiet.2
    exact ⟨after, run⟩
  · intro flags
    have answer : Answers (Loaded disk tables) Calm files (do return (← listInterfaceIds none flags).1)
        (names.filter (wanted isActive flags)).length := (counts flags).bind (answers_pure _)
    obtain ⟨after, run, _⟩ := answer.runs quiet.1 quiet.2
    obtain ⟨final, listed⟩ := delivers (names.filter (wanted isActive flags)).length flags
    rw [List.take_length] at listed
    exact ⟨_, after, _, final, by rw [num]; exact run, listed, rfl, rfl⟩
  · intro room enough
    obtain ⟨first, all⟩ := delivers room (ifaceActive ||| ifaceInactive)
    obtain ⟨second, up⟩ := delivers room ifaceActive
    obtain ⟨third, down⟩ := delivers room ifaceInactive
    rw [wanted_both, List.take_of_length_le enough] at all
    rw [wanted_active, List.take_of_length_le ((List.length_filter_le _ _).trans enough)] at up
    rw [wanted_inactive, List.take_of_length_le ((List.length_filter_le _ _).trans enough)] at down
    exact ⟨_, _, _, first, second, third, all, up, down, rfl, rfl, rfl⟩

end Delivered

end Netcf.Linux
