import Netcf.Shared.Chunks
import Netcf.Shared.Lists

set_option autoImplicit false

-- drv_undefine of the FreeBSD driver, which copies rc.conf without the interface (drv_freebsd.c).
namespace Netcf.FreeBSD

open Shared.Chunks Shared.Lists

-- Text without a NUL, so that the string in a buffer is all that fgets has put there.
structure Text where
  chars : List Char
  noNul : '\x00' ∉ chars

-- rc.conf, when it can be opened, and its copy under the temporary name.
structure Etc where
  rcConf : Option Text
  rcConfTmp : Option Text

-- The line that fgets puts into a buffer, and what is left to read.
def fgets (size : Nat) (input : List Char) : List Char × List Char :=
  cut '\n' (size - 1) input

-- Whether strstr finds the name.
def strstr : List Char → List Char → Bool
  | [], name => name.isEmpty
  | c :: rest, name => name.isPrefixOf (c :: rest) || strstr rest name

theorem strstr_iff (line name : List Char) : strstr line name = true ↔ name <:+: line := by
  induction line with
  | nil => rw [strstr, List.isEmpty_iff, List.infix_nil]
  | cons c rest ih => rw [strstr, Bool.or_eq_true, List.isPrefixOf_iff_prefix, ih, List.infix_cons_iff]

def mentions (name line : List Char) : Bool :=
  line.head? != some '#' && strstr line name

-- The loop: fgets answers NULL where nothing is left.
def copyOthers (name : List Char) : List Char → List Char
  | [] => []
  | c :: rest =>
      if mentions name (fgets 256 (c :: rest)).1 then copyOthers name (fgets 256 (c :: rest)).2
      else (fgets 256 (c :: rest)).1 ++ copyOthers name (fgets 256 (c :: rest)).2
termination_by input => input.length
decreasing_by all_goals exact Nat.lt_succ_of_le (cut_shorter '\n' 254 c rest)

def pieces (input : List Char) : List (List Char) :=
  chunks '\n' 254 input

theorem copyOthers_eq (name input : List Char) :
    copyOthers name input = ((pieces input).filter fun piece => !mentions name piece).flatten := by
  unfold pieces
  induction input using chunks.induct '\n' 254 with
  | case1 =>
    rw [copyOthers, chunks]
    rfl
  | case2 c rest ih =>
    rw [copyOthers, chunks_cons, List.filter_cons]
    change (if mentions name (cut '\n' 255 (c :: rest)).1 then copyOthers name (cut '\n' 255 (c :: rest)).2
      else (cut '\n' 255 (c :: rest)).1 ++ copyOthers name (cut '\n' 255 (c :: rest)).2) = _
    rw [ih]
    cases mentions name (cut '\n' 255 (c :: rest)).1 <;> rfl

theorem copyOthers_subset (name input : List Char) : copyOthers name input ⊆ input := by
  intro c member
  rw [copyOthers_eq] at member
  obtain ⟨piece, kept, inside⟩ := List.mem_flatten.mp member
  rw [← chunks_flatten '\n' 254 input]
  exact List.mem_flatten.mpr ⟨piece, (List.mem_filter.mp kept).1, inside⟩

-- The temporary file may fail to open for writing. The result of rename is not looked at: when it fails the copy
-- stays under the temporary name.
def drvUndefine (opens renames : Bool) (name : List Char) (etc : Etc) : Int × Etc :=
  match etc.rcConf with
  | none => (-1, etc)
  | some content =>
    if opens then
      let copy : Text := ⟨copyOthers name content.chars, fun nul => content.noNul (copyOthers_subset name _ nul)⟩
      if renames then (0, ⟨some copy, none⟩) else (0, { etc with rcConfTmp := some copy })
    else (-1, etc)

def blank (c : Char) : Bool :=
  c == ' ' || c == '\t'

-- The variable that a line of sh(1) assigns.
def assigned (line : List Char) : Option (List Char) :=
  let code := line.dropWhile blank
  if '=' ∈ code then some (code.takeWhile (· ≠ '=')) else none

def identifier (word : List Char) : Bool :=
  word.all fun c => c.isAlphanum || c == '_'

-- ifconfig_NAME, ifconfig_NAME_*, vlan_NAME and vlans_NAME.
def belongs (name word : List Char) : Bool :=
  word == "ifconfig_".toList ++ name ||
    (word.dropPrefix? ("ifconfig_".toList ++ name ++ ['_'])).any identifier ||
    word == "vlan_".toList ++ name || word == "vlans_".toList ++ name

def comment (line : List Char) : Bool :=
  (line.dropWhile blank).head? == some '#'

def ownSetting (name line : List Char) : Bool :=
  !comment line && (assigned line).any (belongs name)

def others (name content : List Char) : List Char :=
  ((lines '\n' content).filter fun line => !ownSetting name line).flatten

theorem chunked_pieces (input : List Char) : Chunked '\n' 254 (pieces input) :=
  chunked_chunks '\n' 254 input

theorem pieces_of_lines {list : List (List Char)} (ended : list.Pairwise fun line _ => Ended '\n' line) :
    pieces list.flatten = list.flatMap pieces :=
  chunks_of_lines '\n' ended

-- Both texts are made of pieces of rc.conf, and a text made of such pieces shows them.
theorem copyOthers_eq_others_iff (name content : List Char) :
    copyOthers name content = others name content ↔
      ∀ line ∈ lines '\n' content, ∀ piece ∈ pieces line, mentions name piece = ownSetting name line := by
  have ended := lines_ended '\n' content
  have read : pieces content = (lines '\n' content).flatMap pieces := by
    rw [← pieces_of_lines ended, lines_flatten]
  have wanted : pieces (others name content) =
      ((lines '\n' content).filter fun line => !ownSetting name line).flatMap pieces :=
    pieces_of_lines (ended.sublist List.filter_sublist)
  have kept : Chunked '\n' 254 ((pieces content).filter fun piece => !mentions name piece) :=
    (chunked_pieces content).sublist '\n' List.filter_sublist
  have whole : others name content = (pieces (others name content)).flatten := (chunks_flatten '\n' 254 _).symm
  rw [copyOthers_eq, whole, flatten_eq_iff '\n' kept (chunked_pieces _), wanted, read, filter_parts_eq_iff]
  simp only [Bool.not_inj_iff]

-- The copy is rc.conf without the settings of the interface exactly when every piece of a line that fits into the
-- buffer shows whose line it is: pieces of the interface's own lines name it and do not look like comments, and
-- pieces of other lines do not name it or do look like comments.
theorem undefine_removes_own_iff (content : Text) (tmp : Option Text) (name : List Char) :
    (drvUndefine true true name ⟨some content, tmp⟩).2.rcConf.map Text.chars = some (others name content.chars) ↔
      ∀ line ∈ lines '\n' content.chars, ∀ piece ∈ pieces line,
        if ownSetting name line then piece.head? ≠ some '#' ∧ name <:+: piece
        else piece.head? = some '#' ∨ ¬ name <:+: piece := by
  change some (copyOthers name content.chars) = some (others name content.chars) ↔ _
  rw [Option.some_inj, copyOthers_eq_others_iff]
  apply forall₂_congr
  intro line _
  apply forall₂_congr
  intro piece _
  rw [← strstr_iff]
  unfold mentions
  cases ownSetting name line
  · simp [imp_iff_not_or]
  · simp

theorem copyOthers_of_mentioned {name line : List Char} (read : fgets 256 line = (line, []))
    (found : mentions name line = true) : copyOthers name line = [] := by
  cases line with
  | nil => rw [copyOthers]
  | cons c rest => rw [copyOthers, read, if_pos found, copyOthers]

def tenthCard : Text :=
  ⟨"ifconfig_em10=DHCP\n".toList, by decide⟩

-- em10 keeps nothing when em1 is undefined.
theorem undefine_em1_takes_em10 :
    ¬ (drvUndefine true true "em1".toList ⟨some tenthCard, none⟩).2.rcConf.map Text.chars =
      some (others "em1".toList tenthCard.chars) := by
  have gone : copyOthers "em1".toList tenthCard.chars = [] := copyOthers_of_mentioned (by decide) (by decide)
  change ¬ some (copyOthers "em1".toList tenthCard.chars) = _
  rw [gone]
  decide

end Netcf.FreeBSD
