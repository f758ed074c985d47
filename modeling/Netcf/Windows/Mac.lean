import Netcf.Linux.Augeas

set_option autoImplicit false

-- drv_mac_string (drv_mswindows.c): the physical address of an interface's adapter, written byte by byte
-- into a buffer of the stack.
namespace Netcf.Windows

open Linux (Errcode)
open Shared.Faulty

section Program

def bufsize : Nat := 1024

-- FRIENDLY_NAME is what WideCharToMultiByte makes of the name, none when it fails.
structure IpAdapterAddresses where
  friendlyName : Option String
  physicalAddress : List UInt8

structure NetcfIf where
  name : String
  mac : Option (List Char)
  deriving DecidableEq

inductive Stop
  | error
  -- Beyond the end of the buffer.
  | overflow
  deriving DecidableEq

structure Session where
  faults : List Bool
  errcode : Option Errcode
  -- The characters in front of the buffer's NUL.
  mac : List Char
  nif : NetcfIf
  deriving DecidableEq

abbrev Call := EStateM Stop Session

def allocFails : Call Bool := fun s =>
  match s.faults with
  | [] => .ok false s
  | fails :: later => .ok fails { s with faults := later }

def fail (code : Errcode) : Call Unit := do
  modify fun s => { s with errcode := some code }
  throw .error

def asprintf (text : List Char) : Call (List Char) := do
  if ← allocFails then fail .nomem
  return text

def put (text : List Char) : Call Unit :=
  if text.length < bufsize then modify fun s => { s with mac := text } else throw .overflow

def strcpy (buf : List Char) : Call Unit :=
  put buf

def strcat (buf : List Char) : Call Unit := do
  put ((← get).mac ++ buf)

def strdupMac : Call Unit := do
  let s ← get
  if ← allocFails then
    modify fun s => { s with nif := { s.nif with mac := none } }
    fail .nomem
  modify fun t => { t with nif := { t.nif with mac := some s.mac } }

def upperDigit (n : Nat) : Char :=
  (Nat.digitChar n).toUpper

-- "%.2X"
def formatX (byte : UInt8) : List Char :=
  [upperDigit (byte.toNat / 16), upperDigit (byte.toNat % 16)]

def startMac (i : Nat) (byte : UInt8) : Call Unit :=
  if i = 0 then do strcpy (← asprintf (formatX byte ++ [':'])) else pure ()

-- The test for the first byte has no else: what follows is done for it as well.
def addByte (length i : Nat) (byte : UInt8) : Call Unit :=
  if i = length - 1 then do strcat (← asprintf (formatX byte))
  else do strcat (← asprintf (formatX byte ++ [':']))

def macLoop (length : Nat) : Nat → List UInt8 → Call Unit
  | _, [] => pure ()
  | i, byte :: rest => do
    startMac i byte
    addByte length i byte
    strdupMac
    macLoop length (i + 1) rest

def findAdapter : List IpAdapterAddresses → Call Unit
  | [] => pure ()
  | adapter :: rest => do
    match adapter.friendlyName with
    | none => fail .nomem
    | some wName =>
      if (← get).nif.name = wName then
        macLoop adapter.physicalAddress.length 0 adapter.physicalAddress
      else findAdapter rest

-- What is behind the label error comes after success, too.
def untilError (program : Call Unit) : Call (Option (List Char)) := fun s =>
  match program s with
  | .ok _ after | .error .error after => .ok after.nif.mac after
  | .error .overflow after => .error .overflow after

-- ADAPTERS is the table that build_adapter_table makes, empty when it fails.
def searchTable (adapters : List IpAdapterAddresses) : Call Unit := do
  if adapters = [] then modify fun s => { s with errcode := some .other }
  if (← get).errcode ≠ none then throw .error
  findAdapter adapters

def drvMacString (adapters : List IpAdapterAddresses) : Call (Option (List Char)) :=
  untilError (searchTable adapters)

end Program

section Text

-- Two digits for each byte, and a colon between one byte and the next.
def macText (address : List UInt8) : List Char :=
  [':'].intercalate (address.map formatX)

theorem macText_cons (byte next : UInt8) (rest : List UInt8) :
    macText (byte :: next :: rest) = formatX byte ++ [':'] ++ macText (next :: rest) := by
  unfold macText
  rw [List.map_cons, List.map_cons, List.intercalate_cons_cons, List.append_assoc]

end Text

section Rounds

variable {s after : Session} {text : List Char} {length i : Nat} {byte : UInt8} {rest : List UInt8}

theorem allocFails_mac {fails : Bool} (run : allocFails s = .ok fails after) : after.mac = s.mac := by
  unfold allocFails at run
  split at run
  · cases run
    rfl
  · cases run
    rfl

theorem asprintf_ok {buf : List Char} (run : asprintf text s = .ok buf after) :
    buf = text ∧ after.mac = s.mac := by
  obtain ⟨fails, middle, asked, later⟩ := bind_ok run
  cases fails with
  | true => cases later
  | false =>
    cases later
    exact ⟨rfl, allocFails_mac asked⟩

theorem put_ok (run : put text s = .ok () after) : after.mac = text := by
  unfold put at run
  by_cases room : text.length < bufsize
  · rw [if_pos room] at run
    cases run
    rfl
  · rw [if_neg room] at run
    cases run

theorem strcat_ok (run : (do strcat (← asprintf text)) s = .ok () after) : after.mac = s.mac ++ text := by
  obtain ⟨buf, middle, printed, added⟩ := bind_ok run
  obtain ⟨rfl, same⟩ := asprintf_ok printed
  obtain ⟨_, _, got, stored⟩ := bind_ok added
  cases got
  rw [put_ok stored, same]

theorem startMac_ok (run : startMac i byte s = .ok () after) :
    after.mac = if i = 0 then formatX byte ++ [':'] else s.mac := by
  unfold startMac at run
  by_cases first : i = 0
  · rw [if_pos first] at run ⊢
    obtain ⟨buf, middle, printed, stored⟩ := bind_ok run
    obtain ⟨rfl, _⟩ := asprintf_ok printed
    exact put_ok stored
  · rw [if_neg first] at run ⊢
    cases run
    rfl

theorem addByte_ok (run : addByte length i byte s = .ok () after) :
    after.mac = s.mac ++ if i = length - 1 then formatX byte else formatX byte ++ [':'] := by
  unfold addByte at run
  by_cases last : i = length - 1
  · rw [if_pos last] at run ⊢
    exact strcat_ok run
  · rw [if_neg last] at run ⊢
    exact strcat_ok run

theorem strdupMac_ok (run : strdupMac s = .ok () after) : after.mac = s.mac ∧ after.nif.mac = some s.mac := by
  obtain ⟨_, _, got, run⟩ := bind_ok run
  cases got
  obtain ⟨fails, middle, asked, later⟩ := bind_ok run
  have same := allocFails_mac asked
  cases fails with
  | true => cases later
  | false =>
    cases later
    exact ⟨same, rfl⟩

theorem macLoop_cons_ok (run : macLoop length i (byte :: rest) s = .ok () after) :
    ∃ middle, macLoop length (i + 1) rest middle = .ok () after ∧ middle.nif.mac = some middle.mac ∧
      middle.mac = (if i = 0 then formatX byte ++ [':'] else s.mac) ++
        if i = length - 1 then formatX byte else formatX byte ++ [':'] := by
  obtain ⟨_, started, first, run⟩ := bind_ok run
  obtain ⟨_, added, second, run⟩ := bind_ok run
  obtain ⟨_, copied, third, run⟩ := bind_ok run
  obtain ⟨same, copy⟩ := strdupMac_ok third
  refine ⟨copied, run, copy.trans (congrArg some same.symm), ?_⟩
  rw [same, addByte_ok second, startMac_ok first]

theorem macLoop_later_ok (positive : 0 < i) (whole : length = i + (rest.length + 1))
    (run : macLoop length i (byte :: rest) s = .ok () after) :
    after.nif.mac = some (s.mac ++ macText (byte :: rest)) := by
  induction rest generalizing i byte s with
  | nil =>
    obtain ⟨middle, run, copy, text⟩ := macLoop_cons_ok run
    cases run
    rw [if_neg (by omega), if_pos (by rw [List.length_nil] at whole; omega)] at text
    rw [copy, text]
    rfl
  | cons next rest ih =>
    rw [List.length_cons] at whole
    obtain ⟨middle, run, _, text⟩ := macLoop_cons_ok run
    rw [if_neg (by omega), if_neg (by omega)] at text
    rw [ih (by omega) (by omega) run, text, macText_cons, List.append_assoc]

theorem macLoop_ok {first : UInt8} (run : macLoop (first :: rest).length 0 (first :: rest) s = .ok () after) :
    after.nif.mac = some (formatX first ++ [':'] ++ macText (first :: rest)) := by
  obtain ⟨middle, run, copy, text⟩ := macLoop_cons_ok run
  rw [if_pos rfl] at text
  cases rest with
  | nil =>
    cases run
    rw [copy, text]
    rfl
  | cons next rest =>
    rw [if_neg (by rw [List.length_cons, List.length_cons]; omega)] at text
    rw [macLoop_later_ok (by omega) (by rw [List.length_cons, List.length_cons]; omega) run, text, macText_cons,
      List.append_assoc]

end Rounds

section Calm

variable {s : Session} {length i : Nat} {byte : UInt8} {rest : List UInt8}

theorem asprintf_calm (calm : s.faults = []) (text : List Char) : asprintf text s = .ok text s := by
  have asked : allocFails s = .ok false s := by rw [allocFails, calm]
  exact bind_of_ok _ asked

theorem put_fits {text : List Char} (room : text.length < bufsize) :
    put text s = .ok () { s with mac := text } := by
  rw [put, if_pos room]
  rfl

theorem strdupMac_calm (calm : s.faults = []) :
    strdupMac s = .ok () { s with nif := { s.nif with mac := some s.mac } } := by
  have asked : allocFails s = .ok false s := by rw [allocFails, calm]
  exact (bind_of_ok _ (get_run s)).trans (bind_of_ok _ asked)

theorem startMac_calm (calm : s.faults = []) :
    startMac i byte s = .ok () { s with mac := if i = 0 then formatX byte ++ [':'] else s.mac } := by
  unfold startMac
  by_cases first : i = 0
  · rw [if_pos first, if_pos first]
    exact (bind_of_ok _ (asprintf_calm calm _)).trans (put_fits (show 3 < bufsize by decide))
  · rw [if_neg first, if_neg first]
    rfl

theorem addByte_calm (calm : s.faults = []) (room : s.mac.length + 3 < bufsize) :
    addByte length i byte s =
      .ok () { s with mac := s.mac ++ if i = length - 1 then formatX byte else formatX byte ++ [':'] } := by
  have added (text : List Char) (short : text.length ≤ 3) :
      (do strcat (← asprintf text)) s = .ok () { s with mac := s.mac ++ text } := by
    refine (bind_of_ok _ (asprintf_calm calm text)).trans ((bind_of_ok _ (get_run s)).trans (put_fits ?_))
    rw [List.length_append]
    omega
  unfold addByte
  by_cases last : i = length - 1
  · rw [if_pos last, if_pos last]
    exact added _ (show 2 ≤ 3 by decide)
  · rw [if_neg last, if_neg last]
    exact added _ (show 3 ≤ 3 by decide)

theorem macLoop_calm (bytes : List UInt8) (calm : s.faults = [])
    (room : (if i = 0 then 3 else s.mac.length) + 3 * bytes.length < bufsize) :
    ∃ after, macLoop length i bytes s = .ok () after := by
  induction bytes generalizing i s with
  | nil => exact ⟨s, rfl⟩
  | cons byte rest ih =>
    rw [List.length_cons] at room
    have started : (if i = 0 then formatX byte ++ [':'] else s.mac).length = if i = 0 then 3 else s.mac.length := by
      split_ifs <;> rfl
    have added : (if i = length - 1 then formatX byte else formatX byte ++ [':']).length ≤ 3 := by
      split_ifs
      · exact (show 2 ≤ 3 by decide)
      · exact (show 3 ≤ 3 by decide)
    have first := @startMac_calm s i byte calm
    have second := @addByte_calm
      { s with mac := if i = 0 then formatX byte ++ [':'] else s.mac } length i byte calm (by rw [started]; omega)
    generalize (if i = 0 then formatX byte ++ [':'] else s.mac) = begun at first second started
    generalize (if i = length - 1 then formatX byte else formatX byte ++ [':']) = text at second added
    obtain ⟨after, run⟩ := @ih
      { s with mac := begun ++ text, nif := { s.nif with mac := some (begun ++ text) } } (i + 1) calm (by
        rw [if_neg (Nat.succ_ne_zero i), List.length_append, started]
        omega)
    exact ⟨after, (bind_of_ok _ first).trans ((bind_of_ok _ second).trans
      ((bind_of_ok _ (@strdupMac_calm { s with mac := begun ++ text } calm)).trans run))⟩

end Calm

section Driver

variable {s : Session} {front : List IpAdapterAddresses} {adapter : IpAdapterAddresses}

theorem findAdapter_found (back : List IpAdapterAddresses)
    (others : ∀ other ∈ front, ∃ name, other.friendlyName = some name ∧ s.nif.name ≠ name)
    (named : adapter.friendlyName = some s.nif.name) :
    findAdapter (front ++ adapter :: back) s =
      macLoop adapter.physicalAddress.length 0 adapter.physicalAddress s := by
  induction front with
  | nil =>
    rw [List.nil_append, findAdapter, named]
    refine (bind_of_ok _ (get_run s)).trans ?_
    rw [if_pos rfl]
  | cons other front ih =>
    obtain ⟨name, known, apart⟩ := others other List.mem_cons_self
    rw [List.cons_append, findAdapter, known]
    refine (bind_of_ok _ (get_run s)).trans ?_
    rw [if_neg apart]
    exact ih fun later member => others later (List.mem_cons_of_mem other member)

theorem drvMacString_found (back : List IpAdapterAddresses)
    (others : ∀ other ∈ front, ∃ name, other.friendlyName = some name ∧ s.nif.name ≠ name)
    (named : adapter.friendlyName = some s.nif.name) {first : UInt8} {rest : List UInt8}
    (address : adapter.physicalAddress = first :: rest) (room : 3 + 3 * (rest.length + 1) < bufsize)
    (calm : s.faults = []) (clear : s.errcode = none) :
    answer (drvMacString (front ++ adapter :: back) s) =
      some (some (formatX first ++ [':'] ++ macText (first :: rest))) := by
  have found := findAdapter_found back others named
  rw [address] at found
  obtain ⟨after, run⟩ := @macLoop_calm s (first :: rest).length 0 (first :: rest) calm room
  have filled : front ++ adapter :: back ≠ [] := List.append_ne_nil_of_right_ne_nil _ (List.cons_ne_nil _ _)
  have whole : searchTable (front ++ adapter :: back) s = .ok () after := by
    unfold searchTable
    rw [if_neg filled]
    refine (bind_of_ok _ (get_run s)).trans ?_
    rw [if_neg (not_not.mpr clear)]
    exact found.trans run
  rw [drvMacString, untilError, whole, answer, macLoop_ok run]

end Driver

section Formatting

def Formats (address : List UInt8) (s : Session) : Prop :=
  ∃ after, macLoop address.length 0 address s = .ok () after ∧ after.nif.mac = some (macText address)

theorem never_formats (first : UInt8) (rest : List UInt8) (s : Session) : ¬ Formats (first :: rest) s := by
  rintro ⟨after, run, right⟩
  rw [macLoop_ok run, Option.some_inj, List.append_left_eq_self] at right
  cases right

def lanAdapter : IpAdapterAddresses :=
  ⟨some "Local Area Connection", [0x00, 0x1b, 0x21, 0x3c, 0x9d, 0xf8]⟩

def asked : Session :=
  ⟨[], none, [], ⟨"Local Area Connection", none⟩⟩

theorem first_byte_twice :
    ¬ Formats lanAdapter.physicalAddress asked ∧
      answer (drvMacString [lanAdapter] asked) = some (some "00:00:1B:21:3C:9D:F8".toList) := by
  constructor
  · rintro ⟨after, run, right⟩
    cases run
    exact absurd right (by decide)
  · rfl

end Formatting

end Netcf.Windows
