import Netcf.Shared.Loops
import Netcf.FreeBSD.Undefine

set_option autoImplicit false

-- The scan of rc.conf in drv_xml_desc of the FreeBSD driver (drv_freebsd.c).
namespace Netcf.FreeBSD

open Shared.Chunks Shared.Loops

section Scan

inductive Fault
  | nullPointer | undefined
  deriving DecidableEq

-- snprintf into ifcfg_intf and ifcfg_intf_ipv6, which have 20 and 40 bytes.
def ifcfgIntf (name : List Char) : List Char :=
  ("ifconfig_".toList ++ name).take 19

def ifcfgIntfIpv6 (name : List Char) : List Char :=
  ("ifconfig_".toList ++ name ++ "_ipv6".toList).take 39

-- The bytes that strncpy writes for a string and the size of a pointer.
def eightBytes (text : List Char) : List Char :=
  text.take 8 ++ List.replicate (8 - text.length) '\x00'

-- Eight bytes from a place in the line, where the copy reads the value up to the NUL behind it.
def fits (place tName value : Nat) : Bool :=
  place + 8 ≤ 256 && (place + 8 ≤ tName + 1 || tName + 1 + min 8 (value + 1) ≤ place)

-- The copy of a value to t_val, and the name of the token after it. Once a quoted value has been read t_val is a
-- place in the line, and the copy can go into the name; it is undefined where it leaves the line or meets the
-- value itself.
def copyValue (tVal : Option Nat) (tName value : List Char) : Except Fault (List Char) :=
  match tVal with
  | none => .ok tName
  | some place =>
    if fits place tName.length value.length then
      let line := tName ++ '\x00' :: value
      if place + 8 ≤ tName.length + 1 then
        .ok ((line.take place ++ (eightBytes value ++ line.drop (place + 8))).takeWhile (· ≠ '\x00'))
      else .ok tName
    else .error .undefined

-- strsep leaves a null pointer where the line has no '='.
def splitLine (tVal : Option Nat) (line : List Char) : Except Fault (Option Nat × List Char) :=
  let tName := line.takeWhile (· ≠ '=')
  match line.dropWhile (· ≠ '=') with
  | [] => .error .nullPointer
  | _ :: value =>
    if value.head? = some '"' then .ok (some (tName.length + 2), tName)
    else do return (tVal, ← copyValue tVal tName value)

def family (name : List Char) (inet6 : Bool) (tName : List Char) : Bool :=
  let inet6 := if tName = ifcfgIntf name then false else inet6
  if tName = ifcfgIntfIpv6 name then true else inet6

def scanLines (name : List Char) : Option Nat → Bool → List Char → Except Fault Bool
  | _, inet6, [] => .ok inet6
  | tVal, inet6, c :: rest =>
      if mentions name (fgets 256 (c :: rest)).1 then do
        let token ← splitLine tVal (fgets 256 (c :: rest)).1
        scanLines name token.1 (family name inet6 token.2) (fgets 256 (c :: rest)).2
      else scanLines name tVal inet6 (fgets 256 (c :: rest)).2
termination_by _ _ input => input.length
decreasing_by all_goals exact Nat.lt_succ_of_le (cut_shorter '\n' 254 c rest)

-- Whether the family handed to xml_print is IPv6.  Without rc.conf nothing is printed.
def drvXmlDesc (name : List Char) (etc : Etc) : Except Fault (Option Bool) :=
  match etc.rcConf with
  | none => .ok none
  | some content => do return some (← scanLines name none false content.chars)

end Scan

section Reads

def tokenName (piece : List Char) : List Char :=
  piece.takeWhile (· ≠ '=')

def tokenValue (piece : List Char) : List Char :=
  (piece.dropWhile (· ≠ '=')).drop 1

-- Where a quoted value begins.
def quotedAt (piece : List Char) : Option Nat :=
  if (tokenValue piece).head? = some '"' then some ((tokenName piece).length + 2) else none

-- The pieces that mention the name, each with the place of t_val when it is read.
def reads (name : List Char) : Option Nat → List (List Char) → List (Option Nat × List Char)
  | _, [] => []
  | tVal, piece :: rest =>
      if mentions name piece then (tVal, piece) :: reads name ((quotedAt piece).or tVal) rest
      else reads name tVal rest

structure Readable (read : Option Nat × List Char) : Prop where
  assigns : '=' ∈ read.2
  copies : quotedAt read.2 = none → ∀ place ∈ read.1, fits place (tokenName read.2).length (tokenValue read.2).length = true

-- The family of a token of that name.
def keyFamily (name tName : List Char) : Option Bool :=
  if tName = ifcfgIntfIpv6 name then some true
  else if tName = ifcfgIntf name then some false
  else none

-- The name of a piece, with the value over it where t_val is a place in front of the end of the name.
def readName (read : Option Nat × List Char) : List Char :=
  match quotedAt read.2, read.1 with
  | none, some place =>
    if place + 8 ≤ (tokenName read.2).length + 1 then
      let line := tokenName read.2 ++ '\x00' :: tokenValue read.2
      (line.take place ++ (eightBytes (tokenValue read.2) ++ line.drop (place + 8))).takeWhile (· ≠ '\x00')
    else tokenName read.2
  | _, _ => tokenName read.2

theorem family_eq (name : List Char) (inet6 : Bool) (tName : List Char) :
    family name inet6 tName = (keyFamily name tName).getD inet6 := by
  unfold family keyFamily
  dsimp only
  by_cases six : tName = ifcfgIntfIpv6 name
  · rw [if_pos six, if_pos six, Option.getD_some]
  · rw [if_neg six, if_neg six]
    by_cases four : tName = ifcfgIntf name
    · rw [if_pos four, if_pos four, Option.getD_some]
    · rw [if_neg four, if_neg four, Option.getD_none]

theorem copyValue_ok_iff {tVal : Option Nat} {tName value : List Char} :
    (∃ after, copyValue tVal tName value = .ok after) ↔
      ∀ place ∈ tVal, fits place tName.length value.length = true := by
  cases tVal with
  | none =>
    constructor
    · intro _ place other
      cases other
    · exact fun _ => ⟨tName, rfl⟩
  | some place =>
    unfold copyValue
    dsimp only
    cases room : fits place tName.length value.length with
    | false =>
      constructor
      · rintro ⟨after, copied⟩
        rw [if_neg Bool.false_ne_true] at copied
        cases copied
      · intro all
        rw [all place rfl] at room
        cases room
    | true =>
      constructor
      · intro _ other same
        cases same
        exact room
      · intro _
        rw [if_pos rfl]
        by_cases before : place + 8 ≤ tName.length + 1
        · rw [if_pos before]
          exact ⟨_, rfl⟩
        · rw [if_neg before]
          exact ⟨_, rfl⟩

theorem dropWhile_assigns {piece : List Char} :
    piece.dropWhile (· ≠ '=') = [] ∧ '=' ∉ piece ∨
      piece.dropWhile (· ≠ '=') = '=' :: tokenValue piece ∧ '=' ∈ piece := by
  unfold tokenValue
  induction piece with
  | nil => exact Or.inl ⟨rfl, List.not_mem_nil⟩
  | cons c rest ih =>
    by_cases here : c = '='
    · rw [List.dropWhile_cons_of_neg (by simpa using here)]
      exact Or.inr ⟨by rw [here]; rfl, by rw [here]; exact List.mem_cons_self⟩
    · rw [List.dropWhile_cons_of_pos (by simpa using here), List.mem_cons]
      simp only [Ne.symm here, false_or]
      exact ih

theorem splitLine_missing {piece : List Char} (missing : '=' ∉ piece) (tVal : Option Nat) :
    splitLine tVal piece = .error .nullPointer := by
  rcases @dropWhile_assigns piece with ⟨rest, _⟩ | ⟨_, present⟩
  · rw [splitLine, rest]
  · exact absurd present missing

theorem splitLine_present {piece : List Char} (present : '=' ∈ piece) (tVal : Option Nat) :
    splitLine tVal piece =
      match quotedAt piece with
      | some place => .ok (some place, tokenName piece)
      | none => do return (tVal, ← copyValue tVal (tokenName piece) (tokenValue piece)) := by
  rcases @dropWhile_assigns piece with ⟨_, missing⟩ | ⟨rest, _⟩
  · exact absurd present missing
  · rw [splitLine, rest, quotedAt]
    dsimp only
    by_cases quoted : (tokenValue piece).head? = some '"'
    · rw [if_pos quoted, if_pos quoted]
      rfl
    · rw [if_neg quoted, if_neg quoted]
      rfl

theorem splitLine_ok {tVal : Option Nat} {piece : List Char} (readable : Readable (tVal, piece)) :
    splitLine tVal piece = .ok ((quotedAt piece).or tVal, readName (tVal, piece)) := by
  rw [splitLine_present readable.assigns, readName]
  cases quoted : quotedAt piece with
  | some place => rfl
  | none =>
    cases tVal with
    | none => rfl
    | some place =>
      dsimp only
      rw [copyValue, if_pos (readable.copies quoted place rfl)]
      by_cases before : place + 8 ≤ (tokenName piece).length + 1
      · rw [if_pos before, if_pos before]
        rfl
      · rw [if_neg before, if_neg before]
        rfl

theorem splitLine_error {tVal : Option Nat} {piece : List Char} (unreadable : ¬ Readable (tVal, piece)) :
    ∃ fault, splitLine tVal piece = .error fault := by
  by_cases present : '=' ∈ piece
  · cases split : splitLine tVal piece with
    | error fault => exact ⟨fault, rfl⟩
    | ok token =>
      exfalso
      apply unreadable
      refine ⟨present, ?_⟩
      intro unquoted
      rw [splitLine_present present, unquoted] at split
      dsimp only at split
      apply copyValue_ok_iff.mp
      cases copied : copyValue tVal (tokenName piece) (tokenValue piece) with
      | error fault =>
        rw [copied] at split
        cases split
      | ok tName => exact ⟨tName, rfl⟩
  · exact ⟨.nullPointer, splitLine_missing present tVal⟩

-- One reading after the other: a line that mentions the name is split, and what it is called decides.
theorem scanLines_ok_iff (name : List Char) (tVal : Option Nat) (inet6 : Bool) (input : List Char) (result : Bool) :
    scanLines name tVal inet6 input = .ok result ↔
      (∀ read ∈ reads name tVal (pieces input), Readable read) ∧
        overwrite (fun read => keyFamily name (readName read)) inet6 (reads name tVal (pieces input)) = result := by
  unfold pieces
  induction input using chunks.induct '\n' 254 generalizing tVal inet6 with
  | case1 =>
    rw [scanLines, chunks, reads, overwrite, Except.ok.injEq]
    constructor
    · intro same
      refine ⟨?_, same⟩
      intro read member
      cases member
    · exact And.right
  | case2 c rest ih =>
    rw [scanLines, chunks_cons, reads]
    change (if mentions name (cut '\n' 255 (c :: rest)).1 then _ else _) = _ ↔ _
    cases mentions name (cut '\n' 255 (c :: rest)).1 with
    | false =>
      rw [if_neg Bool.false_ne_true, if_neg Bool.false_ne_true]
      exact ih tVal inet6
    | true =>
      rw [if_pos rfl, if_pos rfl, List.forall_mem_cons, overwrite]
      by_cases readable : Readable (tVal, (cut '\n' 255 (c :: rest)).1)
      · change (splitLine tVal (cut '\n' 255 (c :: rest)).1 >>= _) = _ ↔ _
        rw [splitLine_ok readable, ← family_eq, and_iff_right readable]
        exact ih _ _
      · obtain ⟨fault, split⟩ := splitLine_error readable
        change (splitLine tVal (cut '\n' 255 (c :: rest)).1 >>= _) = _ ↔ _
        rw [split]
        constructor
        · intro failed
          cases failed
        · rintro ⟨⟨good, _⟩, _⟩
          exact absurd good readable

end Reads

section Family

-- The family that a line of rc.conf sets up for the interface.
def assignsFamily (name line : List Char) : Option Bool :=
  if comment line then none
  else
    (assigned line).bind fun word =>
      if word = "ifconfig_".toList ++ name ++ "_ipv6".toList then some true
      else if word = "ifconfig_".toList ++ name then some false
      else none

def lastFamily (name content : List Char) : Bool :=
  ((lines '\n' content).filterMap (assignsFamily name)).getLast?.getD false

-- Where t_val is after pieces.
def placeAfter (name : List Char) : Option Nat → List (List Char) → Option Nat
  | tVal, [] => tVal
  | tVal, piece :: rest => placeAfter name (if mentions name piece then (quotedAt piece).or tVal else tVal) rest

-- The lines of the file, each with those of its pieces that mention the name.
def readLines (name : List Char) : Option Nat → List (List Char) → List (List Char × List (Option Nat × List Char))
  | _, [] => []
  | tVal, line :: rest =>
      (line, reads name tVal (pieces line)) :: readLines name (placeAfter name tVal (pieces line)) rest

-- What a line sets, and what the scan takes it for: the last of its pieces that is called like a setting.
def setFamily (name : List Char) (line : List Char × List (Option Nat × List Char)) : Option Bool :=
  assignsFamily name line.1

def takenFamily (name : List Char) (line : List Char × List (Option Nat × List Char)) : Option Bool :=
  (line.2.filterMap fun read => keyFamily name (readName read)).getLast?

-- The line sets that variable.
structure Assigns (word line : List Char) : Prop where
  code : comment line = false
  word : assigned line = some word

-- A file as it is usually written, where what is read are its lines: no line is longer than the
-- buffer, those that mention the interface assign something, no bare value comes after a quoted one,
-- and the settings of a short name stand at the margin.
structure Orderly (name content : List Char) : Prop where
  short : ∀ line ∈ lines '\n' content, line.length ≤ 255
  assigns : ∀ line ∈ lines '\n' content, mentions name line = true → '=' ∈ line
  quoted : ((lines '\n' content).filter (mentions name)).Pairwise fun earlier later =>
    (quotedAt earlier).isSome = true → (quotedAt later).isSome = true
  margin : ∀ line ∈ lines '\n' content, (assignsFamily name line).isSome = true → line.dropWhile blank = line
  brief : name.length ≤ 10

theorem keys_apart (name : List Char) : ifcfgIntf name ≠ ifcfgIntfIpv6 name := by
  intro same
  have lengths := congrArg List.length same
  simp only [ifcfgIntf, ifcfgIntfIpv6, List.length_take, List.length_append, show "ifconfig_".toList.length = 9 from rfl,
    show "_ipv6".toList.length = 5 from rfl] at lengths
  omega

theorem keyFamily_six {name tName : List Char} : keyFamily name tName = some true ↔ tName = ifcfgIntfIpv6 name := by
  unfold keyFamily
  by_cases six : tName = ifcfgIntfIpv6 name
  · simp [six]
  · by_cases four : tName = ifcfgIntf name
    · simp [four, keys_apart]
    · simp [six, four]

theorem keyFamily_four {name tName : List Char} : keyFamily name tName = some false ↔ tName = ifcfgIntf name := by
  unfold keyFamily
  by_cases six : tName = ifcfgIntfIpv6 name
  · simp [six, (keys_apart name).symm]
  · by_cases four : tName = ifcfgIntf name
    · simp [four, keys_apart]
    · simp [six, four]

theorem assignsFamily_six {name line : List Char} :
    assignsFamily name line = some true ↔ Assigns ("ifconfig_".toList ++ name ++ "_ipv6".toList) line := by
  unfold assignsFamily
  constructor
  · intro six
    by_cases remark : comment line = true
    · rw [if_pos remark] at six
      cases six
    · rw [if_neg remark] at six
      obtain ⟨word, sets, key⟩ := Option.bind_eq_some_iff.mp six
      by_cases same : word = "ifconfig_".toList ++ name ++ "_ipv6".toList
      · exact ⟨by simpa using remark, same ▸ sets⟩
      · rw [if_neg same] at key
        split at key <;> cases key
  · rintro ⟨code, sets⟩
    rw [if_neg (by simp [code]), sets, Option.bind_some, if_pos rfl]

theorem assignsFamily_four {name line : List Char} :
    assignsFamily name line = some false ↔ Assigns ("ifconfig_".toList ++ name) line := by
  have apart : "ifconfig_".toList ++ name ≠ "ifconfig_".toList ++ name ++ "_ipv6".toList := by
    intro same
    simpa using congrArg List.length same
  unfold assignsFamily
  constructor
  · intro four
    by_cases remark : comment line = true
    · rw [if_pos remark] at four
      cases four
    · rw [if_neg remark] at four
      obtain ⟨word, sets, key⟩ := Option.bind_eq_some_iff.mp four
      by_cases same : word = "ifconfig_".toList ++ name
      · exact ⟨by simpa using remark, same ▸ sets⟩
      · rw [if_neg same] at key
        split at key <;> cases key
  · rintro ⟨code, sets⟩
    rw [if_neg (by simp [code]), sets, Option.bind_some, if_neg apart, if_pos rfl]

theorem drvXmlDesc_ok_iff (content : Text) (tmp : Option Text) (name : List Char) (inet6 : Bool) :
    drvXmlDesc name ⟨some content, tmp⟩ = .ok (some inet6) ↔
      (∀ read ∈ reads name none (pieces content.chars), Readable read) ∧
        overwrite (fun read => keyFamily name (readName read)) false (reads name none (pieces content.chars)) = inet6 := by
  rw [← scanLines_ok_iff]
  unfold drvXmlDesc
  dsimp only
  cases scanLines name none false content.chars with
  | error fault =>
    constructor
    · intro other
      cases other
    · intro other
      cases other
  | ok found =>
    constructor
    · intro same
      cases same
      rfl
    · intro same
      cases same
      rfl

section Lines

variable {name content : List Char} (orderly : Orderly name content)

theorem reads_lines (tVal : Option Nat) (list : List (List Char)) :
    (reads name tVal list).map (·.2) = list.filter (mentions name) := by
  induction list generalizing tVal with
  | nil => rfl
  | cons line rest ih =>
    rw [reads]
    by_cases mentioned : mentions name line = true
    · rw [if_pos mentioned, List.map_cons, ih, List.filter_cons_of_pos mentioned]
    · rw [if_neg mentioned, ih, List.filter_cons_of_neg mentioned]

-- Where t_val is a place in the line, a quoted value has been read before.
theorem reads_bare {list : List (List Char)} {tVal : Option Nat}
    (quoted : (list.filter (mentions name)).Pairwise fun earlier later =>
      (quotedAt earlier).isSome = true → (quotedAt later).isSome = true)
    (all : tVal.isSome = true → ∀ line ∈ list.filter (mentions name), (quotedAt line).isSome = true)
    {read : Option Nat × List Char} (member : read ∈ reads name tVal list) (bare : quotedAt read.2 = none) :
    read.1 = none := by
  induction list generalizing tVal with
  | nil => cases member
  | cons line rest ih =>
    rw [reads] at member
    by_cases mentioned : mentions name line = true
    · rw [List.filter_cons_of_pos mentioned] at quoted all
      obtain ⟨first, later⟩ := List.pairwise_cons.mp quoted
      rw [if_pos mentioned] at member
      rcases List.mem_cons.mp member with rfl | behind
      · cases tVal with
        | none => rfl
        | some place =>
          have here := all rfl line List.mem_cons_self
          rw [bare] at here
          cases here
      · refine ih later (fun known => ?_) behind
        cases here : quotedAt line with
        | some place => exact fun other inside => first other inside (by rw [here]; rfl)
        | none =>
          rw [here, Option.none_or] at known
          exact fun other inside => all known other (List.mem_cons_of_mem _ inside)
    · rw [List.filter_cons_of_neg mentioned] at quoted all
      rw [if_neg mentioned] at member
      exact ih quoted all member

theorem ifcfgIntf_brief (brief : name.length ≤ 10) : ifcfgIntf name = "ifconfig_".toList ++ name := by
  rw [ifcfgIntf, List.take_of_length_le]
  rw [List.length_append, show "ifconfig_".toList.length = 9 from rfl]
  omega

theorem ifcfgIntfIpv6_brief (brief : name.length ≤ 10) :
    ifcfgIntfIpv6 name = "ifconfig_".toList ++ name ++ "_ipv6".toList := by
  rw [ifcfgIntfIpv6, List.take_of_length_le]
  rw [List.length_append, List.length_append, show "ifconfig_".toList.length = 9 from rfl,
    show "_ipv6".toList.length = 5 from rfl]
  omega

-- A line at the margin that begins with the name of a setting is no comment and mentions the interface.
theorem mentions_setting {line : List Char} (tail : List Char) (starts : "ifconfig_".toList ++ name ++ tail <+: line) :
    mentions name line = true ∧ comment line = false ∧ line.dropWhile blank = line := by
  obtain ⟨rest, rfl⟩ := starts
  have inside : name <:+: "ifconfig_".toList ++ name ++ tail ++ rest := by
    rw [List.append_assoc]
    exact List.infix_append _ _ _
  refine ⟨?_, rfl, rfl⟩
  rw [mentions, (strstr_iff _ _).mpr inside]
  rfl

theorem tokenName_prefix (line : List Char) : tokenName line <+: line :=
  List.takeWhile_prefix _

-- What is read of a line at the margin is what the line sets.
theorem keyFamily_line (brief : name.length ≤ 10) {line : List Char} (assigns : '=' ∈ line)
    (margin : (assignsFamily name line).isSome = true → line.dropWhile blank = line) :
    keyFamily name (tokenName line) = assignsFamily name line := by
  have word : line.dropWhile blank = line → assigned line = some (tokenName line) := by
    intro here
    unfold assigned tokenName
    rw [here, if_pos assigns]
  have same : ∀ key six, (assignsFamily name line = some six ↔ Assigns key line) →
      (keyFamily name (tokenName line) = some six ↔ tokenName line = key) →
      "ifconfig_".toList ++ name <+: key →
      (keyFamily name (tokenName line) = some six ↔ assignsFamily name line = some six) := by
    intro key six sets reads starts
    rw [sets, reads]
    constructor
    · intro called
      have front : "ifconfig_".toList ++ name <+: line := starts.trans (called ▸ tokenName_prefix line)
      have setting := @mentions_setting name line [] (by rwa [List.append_nil])
      obtain ⟨_, code, here⟩ := setting
      exact ⟨code, by rw [word here, called]⟩
    · intro setting
      have here := margin (by rw [sets.mpr setting]; rfl)
      exact Option.some.inj ((word here).symm.trans setting.word)
  have six := same _ true assignsFamily_six (keyFamily_six.trans (by rw [ifcfgIntfIpv6_brief brief]))
    (List.prefix_append _ _)
  have four := same _ false assignsFamily_four (keyFamily_four.trans (by rw [ifcfgIntf_brief brief]))
    List.prefix_rfl
  apply Option.ext
  intro family
  cases family with
  | true => exact six
  | false => exact four

include orderly in
theorem Orderly.reads {read : Option Nat × List Char} (member : read ∈ reads name none (lines '\n' content)) :
    read.2 ∈ lines '\n' content ∧ Readable read ∧
      keyFamily name (readName read) = assignsFamily name read.2 := by
  have listed : read.2 ∈ (lines '\n' content).filter (mentions name) := by
    rw [← reads_lines none]
    exact List.mem_map_of_mem member
  obtain ⟨inside, mentioned⟩ := List.mem_filter.mp listed
  have assigns := orderly.assigns _ inside mentioned
  have bare : quotedAt read.2 = none → read.1 = none :=
    reads_bare orderly.quoted (fun known => by cases known) member
  refine ⟨inside, ⟨assigns, fun unquoted place known => ?_⟩, ?_⟩
  · rw [bare unquoted] at known
    cases known
  · have plain : readName read = tokenName read.2 := by
      unfold readName
      cases quoted : quotedAt read.2 with
      | some place => rfl
      | none => rw [bare quoted]
    rw [plain, keyFamily_line orderly.brief assigns (orderly.margin _ inside)]

include orderly in
theorem Orderly.mentioned {line : List Char} (member : line ∈ lines '\n' content)
    (sets : (assignsFamily name line).isSome = true) : mentions name line = true := by
  have here := orderly.margin line member sets
  have starts : ∀ tail : List Char, Assigns ("ifconfig_".toList ++ name ++ tail) line → mentions name line = true := by
    intro tail setting
    have word := setting.word
    unfold assigned at word
    rw [here] at word
    dsimp only at word
    split at word
    · exact (mentions_setting tail (Option.some.inj word ▸ List.takeWhile_prefix _)).1
    · cases word
  obtain ⟨family, found⟩ := Option.isSome_iff_exists.mp sets
  cases family with
  | true => exact starts _ (assignsFamily_six.mp found)
  | false => exact starts [] (by rw [List.append_nil]; exact assignsFamily_four.mp found)

include orderly in
theorem Orderly.filterMap_reads :
    (FreeBSD.reads name none (lines '\n' content)).filterMap (fun read => keyFamily name (readName read)) =
      (lines '\n' content).filterMap (assignsFamily name) := by
  have each : (FreeBSD.reads name none (lines '\n' content)).filterMap (fun read => keyFamily name (readName read)) =
      ((FreeBSD.reads name none (lines '\n' content)).map (·.2)).filterMap (assignsFamily name) := by
    rw [List.filterMap_map]
    exact List.filterMap_congr fun read member => (orderly.reads member).2.2
  rw [each, reads_lines, List.filterMap_filter]
  apply List.filterMap_congr
  intro line member
  by_cases mentioned : mentions name line = true
  · rw [if_pos mentioned]
  · rw [if_neg mentioned, eq_comm, ← Option.not_isSome_iff_eq_none]
    exact fun sets => mentioned (orderly.mentioned member sets)

end Lines

theorem reads_append (name : List Char) (tVal : Option Nat) (front back : List (List Char)) :
    reads name tVal (front ++ back) = reads name tVal front ++ reads name (placeAfter name tVal front) back := by
  induction front generalizing tVal with
  | nil => rfl
  | cons piece rest ih =>
    rw [List.cons_append, reads, reads, placeAfter]
    by_cases mentioned : mentions name piece = true
    · rw [if_pos mentioned, if_pos mentioned, if_pos mentioned, ih]
      rfl
    · rw [if_neg mentioned, if_neg mentioned, if_neg mentioned, ih]

theorem readLines_lines (name : List Char) (tVal : Option Nat) (list : List (List Char)) :
    (readLines name tVal list).map (·.1) = list := by
  induction list generalizing tVal with
  | nil => rfl
  | cons line rest ih => rw [readLines, List.map_cons, ih]

theorem readLines_reads (name : List Char) (tVal : Option Nat) (list : List (List Char)) :
    (readLines name tVal list).flatMap (·.2) = reads name tVal (list.flatMap pieces) := by
  induction list generalizing tVal with
  | nil => rfl
  | cons line rest ih => rw [readLines, List.flatMap_cons, ih, List.flatMap_cons, reads_append]

theorem pieces_lines (content : List Char) : pieces content = (lines '\n' content).flatMap pieces := by
  have cut := @chunks_of_lines _ _ '\n' 254 _ (lines_ended '\n' content)
  rwa [lines_flatten] at cut

theorem taken_eq (name content : List Char) :
    overwrite (fun read => keyFamily name (readName read)) false (reads name none (pieces content)) =
      overwrite (takenFamily name) false (readLines name none (lines '\n' content)) := by
  rw [pieces_lines, ← readLines_reads, overwrite_flatMap]
  rfl

theorem set_eq (name content : List Char) :
    lastFamily name content = overwrite (setFamily name) false (readLines name none (lines '\n' content)) := by
  have all : (lines '\n' content).filterMap (assignsFamily name) =
      (readLines name none (lines '\n' content)).filterMap (setFamily name) := by
    conv_lhs => rw [← readLines_lines name none (lines '\n' content), List.filterMap_map]
    rfl
  rw [lastFamily, all, overwrite_eq]

-- The scan gets through when every piece that mentions the interface can be read, and it is right when the last
-- line that it takes for something else is made good for.  In an orderly file both are so.
theorem scan_picks_family_iff (content : Text) (tmp : Option Text) (name : List Char) :
    (drvXmlDesc name ⟨some content, tmp⟩ = .ok (some (lastFamily name content.chars)) ↔
      (∀ line ∈ readLines name none (lines '\n' content.chars), ∀ read ∈ line.2, Readable read) ∧
        Concur (setFamily name) (takenFamily name) false (readLines name none (lines '\n' content.chars))) ∧
      (Orderly name content.chars →
        drvXmlDesc name ⟨some content, tmp⟩ = .ok (some (lastFamily name content.chars))) := by
  constructor
  · rw [drvXmlDesc_ok_iff, taken_eq, set_eq, concur_iff, pieces_lines, ← readLines_reads]
    refine and_congr_left fun _ => ⟨fun all line member read inside => ?_, fun all read member => ?_⟩
    · exact all read (List.mem_flatMap.mpr ⟨line, member, inside⟩)
    · obtain ⟨line, listed, inside⟩ := List.mem_flatMap.mp member
      exact all line listed read inside
  · intro orderly
    have read : pieces content.chars = lines '\n' content.chars := chunks_eq_lines '\n' orderly.short
    rw [drvXmlDesc_ok_iff, read, overwrite_eq, orderly.filterMap_reads]
    exact ⟨fun read member => (orderly.reads member).2.1, rfl⟩

def bothFamilies : Text :=
  ⟨"hostname=box\nifconfig_em0=DHCP\nifconfig_em0_ipv6=\"inet6 accept_rtadv\"\n".toList, by decide⟩

theorem bothFamilies_scanned :
    drvXmlDesc "em0".toList ⟨some bothFamilies, none⟩ = .ok (some (lastFamily "em0".toList bothFamilies.chars)) ∧
      lastFamily "em0".toList bothFamilies.chars = true :=
  ⟨(scan_picks_family_iff bothFamilies none "em0".toList).2
    ⟨by decide +kernel, by decide +kernel, by decide +kernel, by decide +kernel, by decide⟩, by decide +kernel⟩

-- The name of the interface in a line that sets nothing.
def mention : Text :=
  ⟨"echo em0\n".toList, by decide⟩

theorem mention_not_scanned :
    ¬ drvXmlDesc "em0".toList ⟨some mention, none⟩ = .ok (some (lastFamily "em0".toList mention.chars)) := by
  have failed : scanLines "em0".toList none false mention.chars = .error .nullPointer := by
    change scanLines "em0".toList none false ('e' :: "cho em0\n".toList) = _
    rw [scanLines, if_pos (by decide), splitLine_missing (by decide)]
    rfl
  have result : drvXmlDesc "em0".toList ⟨some mention, none⟩ = .error .nullPointer := by
    unfold drvXmlDesc
    dsimp only
    rw [failed]
    rfl
  rw [result]
  intro same
  cases same

end Family

end Netcf.FreeBSD
