import Netcf.Shared.Search
import Netcf.Schema.Lexical
import Mathlib.Data.Rat.Floor

set_option autoImplicit false

-- The extension functions of xslt_ext.c and the XPath and EXSLT string functions the stylesheets call.
namespace Netcf.Stylesheet

open Schema

-- What the C text leaves open: 0xffffffffu shifted right by its full width, the address that inet_pton
-- does not store when it rejects its text, and which of the words that lie behind the array variable of
-- bridge_slaves' caller are null (the word at place 0 is the variable itself).
structure Machine where
  oversizedShift : BitVec 32
  uninitialised : BitVec 32
  nullBehind : Nat → Bool

-- The same machine at another call, where other words lie behind the variable.
def Machine.finding (machine : Machine) (words : Nat → Bool) : Machine :=
  { machine with nullBehind := words }

-- A processor that takes the shift count modulo 32 leaves 0xffffffff as it is.
def countModulo : Machine := ⟨0xffffffff#32, 0#32, fun _ => false⟩

inductive TransformError
  | notInt
  | outOfRange (prefixLen : Nat)
  deriving DecidableEq

def octets (address : BitVec 32) : List Nat :=
  [24, 16, 8, 0].map fun offset => (address >>> offset).toNat % 256

def inetNtop (address : BitVec 32) : String :=
  ".".intercalate ((octets address).map toString)

def shiftMask (machine : Machine) (prefixLen : Nat) : BitVec 32 :=
  if prefixLen < 32 then 0xffffffff#32 >>> prefixLen else machine.oversizedShift

def ipcalcNetmask (machine : Machine) (rawPrefix : ℚ) : Except TransformError String :=
  let prefixLen := rawPrefix.floor.toNat
  if (prefixLen : ℚ) ≠ rawPrefix then .error .notInt
  else if prefixLen = 0 ∨ prefixLen > 32 then .error (.outOfRange prefixLen)
  else .ok (inetNtop (~~~ shiftMask machine prefixLen))

-- inet_pton for AF_INET: four octets, none with a leading zero, `current` being the one in progress.
def ptonLoop : List Char → (done : List Nat) → (current : Option Nat) → Option (List Nat)
  | [], done, some octet => if done.length = 3 then some (done ++ [octet]) else none
  | [], _, none => none
  | c :: rest, done, none => if c.isDigit then ptonLoop rest done (some (c.toNat - '0'.toNat)) else none
  | c :: rest, done, some octet =>
    if c.isDigit then
      let next := octet * 10 + (c.toNat - '0'.toNat)
      if octet = 0 ∨ next > 255 then none else ptonLoop rest done (some next)
    else if c = '.' ∧ done.length < 3 then ptonLoop rest (done ++ [octet]) none
    else none

def inetPton (text : String) : Option (BitVec 32) :=
  (ptonLoop text.toList [] none).map fun parts =>
    parts.foldl (fun address octet => (address <<< 8) ||| BitVec.ofNat 32 octet) 0#32

-- The loop takes one off for every i such that the low i + 1 bits are clear.  `(2 << i) - 1` wraps
-- around for the last two values of i.
def countPrefix (netmask : BitVec 32) : Nat :=
  (List.range 32).foldl
    (fun prefixLen i => if netmask &&& ((2#32 <<< i) - 1#32) = 0#32 then prefixLen - 1 else prefixLen) 32

def ipcalcPrefix (machine : Machine) (netmask : String) : String :=
  if netmask = "" then ""
  else toString (countPrefix ((inetPton netmask).getD machine.uninitialised))

def endsValue (c : Char) : Bool :=
  c = ' ' ∨ c = '\t' ∨ c = '\'' ∨ c = '"'

def valueAfter : List Char → List Char
  | '=' :: rest => rest.takeWhile fun c => !endsValue c
  | _ => []

-- Only the first occurrence of `name` is looked at.
def lookupOption (opts name : List Char) : List Char :=
  match opts.dropInfix? name with
  | some (_, val) => valueAfter val
  | none => []

def bondOption (opts name : String) : String :=
  String.ofList (lookupOption opts.toList name.toList)

def substringBefore (text mark : String) : String :=
  match text.toList.dropInfix? mark.toList with
  | some (before, _) => String.ofList before
  | none => ""

def substringAfter (text mark : String) : String :=
  match text.toList.dropInfix? mark.toList with
  | some (_, after) => String.ofList after
  | none => ""

def strSplit (text : String) : List String :=
  ((text.toList.splitOn ' ').filter (· ≠ [])).map String.ofList

-- Words that are joined by single spaces come back one by one.
theorem strSplit_intercalate {words : List String} (proper : ∀ word ∈ words, ' ' ∉ word.toList ∧ word ≠ "") :
    strSplit (" ".intercalate words) = words := by
  cases words with
  | nil => rfl
  | cons first rest =>
    have spaceless : ∀ word ∈ (first :: rest).map String.toList, ' ' ∉ word := by
      intro word member
      obtain ⟨text, listed, rfl⟩ := List.mem_map.mp member
      exact (proper text listed).1
    have kept : ((first :: rest).map String.toList).filter (· ≠ []) = (first :: rest).map String.toList := by
      rw [List.filter_eq_self]
      intro word member
      obtain ⟨text, listed, rfl⟩ := List.mem_map.mp member
      have filled := (proper text listed).2
      simpa using filled
    rw [strSplit, String.toList_intercalate, show " ".toList = [' '] from rfl,
      List.splitOn_intercalate ' ' spaceless (by simp), kept, List.map_map]
    simp [Function.comp_def]

theorem ipcalcNetmask_nat (machine : Machine) (prefixLen : Nat) :
    ipcalcNetmask machine prefixLen =
      if prefixLen = 0 ∨ prefixLen > 32 then .error (.outOfRange prefixLen)
      else .ok (inetNtop (~~~ shiftMask machine prefixLen)) := by
  have exact : (prefixLen : ℚ).floor.toNat = prefixLen := by
    exact congrArg Int.toNat (Rat.floor_intCast prefixLen)
  simp only [ipcalcNetmask, exact, ne_eq, not_true_eq_false, if_false]

-- The schema bounds a prefix by 32, so only 0 is refused.
theorem ipcalcNetmask_value (machine : Machine) {length : Ipv4Prefix} (positive : length.value ≠ 0) :
    ipcalcNetmask machine length.value = .ok (inetNtop (~~~ shiftMask machine length.value)) := by
  have most := length.bounded
  unfold Unsigned.value at *
  rw [ipcalcNetmask_nat, if_neg (by omega)]

section Prefix

variable {α : Type} {machine : Machine} {prefixLen : Option Ipv4Prefix}

theorem netmask_ok (positive : ∀ length ∈ prefixLen, length.value ≠ 0) (build : Option String → α) :
    (prefixLen.mapM fun length => ipcalcNetmask machine length.value).map build =
      .ok (build (prefixLen.map fun length => inetNtop (~~~ shiftMask machine length.value))) := by
  cases prefixLen with
  | none => rfl
  | some length =>
    have shown := ipcalcNetmask_value machine (positive length rfl)
    simp only [Option.mapM_some, shown]
    rfl

theorem netmask_zero {length : Ipv4Prefix} (present : prefixLen = some length) (zero : length.value = 0)
    (build : Option String → α) :
    ∃ e, (prefixLen.mapM fun length => ipcalcNetmask machine length.value).map build = .error e := by
  subst present
  simp only [Option.mapM_some, ipcalcNetmask_nat, zero]
  exact ⟨_, rfl⟩

theorem netmask_written {build : Option String → α} {made : α}
    (written : (prefixLen.mapM fun length => ipcalcNetmask machine length.value).map build = .ok made) :
    ∃ netmask, made = build netmask ∧
      ∀ text ∈ netmask, ∃ length : Ipv4Prefix, ipcalcNetmask machine length.value = .ok text := by
  cases prefixLen with
  | none =>
    cases written
    exact ⟨none, rfl, fun text absent => by cases absent⟩
  | some length =>
    rw [Option.mapM_some] at written
    cases shown : ipcalcNetmask machine length.value with
    | error e =>
      rw [shown] at written
      cases written
    | ok netmask =>
      rw [shown] at written
      cases written
      exact ⟨some netmask, rfl, fun text same => ⟨length, Option.some.inj same ▸ shown⟩⟩

-- What succeeds unless the prefix is 0.
theorem succeeds_iff {result : Except TransformError α} {a : α}
    (ok : (∀ length ∈ prefixLen, length.value ≠ 0) → result = .ok a)
    (error : ∀ length ∈ prefixLen, length.value = 0 → ∃ e, result = .error e) :
    (∃ b, result = .ok b) ↔ ∀ length ∈ prefixLen, length.value ≠ 0 := by
  constructor
  · rintro ⟨b, run⟩ length present zero
    obtain ⟨e, failed⟩ := error length present zero
    rw [failed] at run
    cases run
  · intro positive
    exact ⟨a, ok positive⟩

end Prefix

theorem ipcalcPrefix_netmask (machine : Machine) {prefixLen : Nat} (positive : 0 < prefixLen)
    (narrow : prefixLen < 32) :
    ipcalcPrefix machine (inetNtop (~~~ shiftMask machine prefixLen)) = toString prefixLen := by
  have reads : ∀ n < 32, 0 < n →
      inetNtop (~~~ (0xffffffff#32 >>> n)) ≠ "" ∧
        (inetPton (inetNtop (~~~ (0xffffffff#32 >>> n)))).map countPrefix = some n := by
    decide +kernel
  obtain ⟨some_text, parsed⟩ := reads prefixLen narrow positive
  obtain ⟨address, found, counted⟩ := Option.map_eq_some_iff.mp parsed
  simp only [ipcalcPrefix, shiftMask, narrow, if_true, some_text, if_false, found, Option.getD_some,
    counted]

-- Which prefixes come back from their netmasks, whatever the processor does with a shift by 32.
theorem reread_prefix_iff (length : Ipv4Prefix) (positive : length.value ≠ 0) :
    (∀ machine, ipcalcPrefix machine (inetNtop (~~~ shiftMask machine length.value)) = length.text) ↔
      length.Canonical ∧ length.value ≠ 32 := by
  constructor
  · intro back
    by_cases full : length.value = 32
    · have zero := back countModulo
      rw [full, show ipcalcPrefix countModulo (inetNtop (~~~ shiftMask countModulo 32)) = "0" by decide +kernel] at zero
      have none := positive
      rw [Unsigned.value, ← zero] at none
      exact absurd (by decide) none
    · have most : length.value ≤ 32 := length.bounded
      have again := back countModulo
      rw [ipcalcPrefix_netmask countModulo (by omega) (by omega)] at again
      exact ⟨again.symm, full⟩
  · rintro ⟨canonical, narrow⟩ machine
    have most : length.value ≤ 32 := length.bounded
    rw [ipcalcPrefix_netmask machine (by omega) (by omega), canonical]

end Netcf.Stylesheet
