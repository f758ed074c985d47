import Netcf.Tool.Tokens

set_option autoImplicit false

-- The single command that main builds from its arguments (ncftool.c), against the tokens of its line.
namespace Netcf.Tool

section Join

inductive Abort
  | outOfMemory | nullPointer | bufferOverflow | intOverflow
  deriving DecidableEq

-- A conversion to int.
def toInt (x : Int) : Int :=
  x.bmod (2 ^ 32)

def intMax : Int := 2 ^ 31 - 1

def intMin : Int := -2 ^ 31

-- strncat into a buffer of CAPACITY bytes. As a size_t a negative count is beyond every length.
def strncat (capacity : Nat) (dest src : List Char) (count : Int) : Except Abort (List Char) :=
  let copied := if count < 0 then src else src.take count.toNat
  if dest.length + copied.length < capacity then .ok (dest ++ copied) else .error .bufferOverflow

def joinArgs (capacity : Nat) : Int → List Char → List (List Char) → Except Abort (List Char)
  | _, cmd, [] => .ok cmd
  | cmdsize, cmd, arg :: rest => do
    let cmd ← strncat capacity cmd arg cmdsize
    let cmdsize := toInt (cmdsize - arg.length)
    let cmd ← strncat capacity cmd [' '] cmdsize
    if cmdsize = intMin then throw .intOverflow
    joinArgs capacity (cmdsize - 1) cmd rest

def cmdSize (args : List (List Char)) : Int :=
  args.foldl (fun cmdsize arg => toInt (cmdsize + (arg.length + 1))) 0

-- ALLOC_N of no elements succeeds without a buffer, and of a negative number of them it fails.
def oneShot (args : List (List Char)) : Except Abort (List Char) :=
  let cmdsize := cmdSize args
  if cmdsize = intMax then .error .intOverflow
  else if cmdsize + 1 < 0 then .error .outOfMemory
  else if cmdsize + 1 = 0 then .error .nullPointer
  else joinArgs (cmdsize + 1).toNat cmdsize [] args

end Join

section Size

theorem toInt_of_fits {x : Int} (low : intMin ≤ x) (high : x ≤ intMax) : toInt x = x := by
  unfold intMin at low
  unfold intMax at high
  change x.bmod 4294967296 = x
  exact Int.bmod_eq_of_le_mul_two (by omega) (by omega)

theorem toInt_wrapped {x : Int} (large : intMax < x) (nonneg : 0 ≤ toInt x) : toInt x ≤ x - 2 ^ 32 := by
  unfold intMax at large
  change 0 ≤ x.bmod 4294967296 at nonneg
  change x.bmod 4294967296 ≤ x - 4294967296
  rw [Int.bmod_eq_emod] at nonneg ⊢
  split_ifs at nonneg ⊢ <;> omega

theorem cmdSize_eq (args : List (List Char)) : cmdSize args = toInt (extent args) := by
  have from_any : ∀ (args : List (List Char)) (size : Int),
      args.foldl (fun cmdsize arg => toInt (cmdsize + ((arg.length : Int) + 1))) (toInt size) =
        toInt (size + extent args) := by
    intro args
    induction args with
    | nil => simp
    | cons arg rest ih =>
      intro size
      have round : toInt (toInt size + ((arg.length : Int) + 1)) = toInt (size + (arg.length + 1)) :=
        Int.bmod_add_bmod
      rw [List.foldl_cons, round, ih, extent_cons]
      congr 1
      omega
  have zero : toInt 0 = 0 := by decide
  have all := from_any args 0
  rw [zero, Int.zero_add] at all
  exact all

end Size

section Joined

def joined (args : List (List Char)) : List Char :=
  args.flatMap fun arg => arg ++ [' ']

theorem length_joined (args : List (List Char)) : (joined args).length = extent args := by
  induction args with
  | nil => rfl
  | cons arg rest ih =>
    rw [joined, List.flatMap_cons, List.length_append, extent_cons, ← ih]
    simp [joined]

theorem strncat_fits {capacity : Nat} {dest src : List Char} {count : Int} (whole : (src.length : Int) ≤ count)
    (room : dest.length + src.length < capacity) : strncat capacity dest src count = .ok (dest ++ src) := by
  have copied : (if count < 0 then src else src.take count.toNat) = src := by
    rw [if_neg (by omega)]
    exact List.take_of_length_le (by omega)
  unfold strncat
  dsimp only
  rw [copied, if_pos room]

-- With room for everything nothing is cut off.
theorem joinArgs_fits {capacity : Nat} (cmd : List Char) (args : List (List Char))
    (small : (extent args : Int) ≤ intMax) (room : cmd.length + extent args < capacity) :
    joinArgs capacity (extent args) cmd args = .ok (cmd ++ joined args) := by
  induction args generalizing cmd with
  | nil => simp [joinArgs, joined]
  | cons arg rest ih =>
    rw [extent_cons] at small room
    have left : toInt ((extent (arg :: rest) : Int) - arg.length) = extent rest + 1 := by
      rw [extent_cons, toInt_of_fits]
      · omega
      · unfold intMin
        omega
      · omega
    have first := @strncat_fits capacity cmd arg (extent (arg :: rest)) (by rw [extent_cons]; omega) (by omega)
    have second := @strncat_fits capacity (cmd ++ arg) [' '] (extent rest + 1)
      (by rw [List.length_singleton]; omega)
      (by simp only [List.length_append, List.length_singleton]; omega)
    have later := ih (cmd ++ arg ++ [' ']) (by omega)
      (by simp only [List.length_append, List.length_singleton]; omega)
    have positive : ¬ (extent rest : Int) + 1 = intMin := by
      unfold intMin
      omega
    rw [joinArgs, first]
    dsimp only [bind, Except.bind]
    rw [left, second]
    dsimp only
    rw [if_neg positive]
    rw [show (extent rest : Int) + 1 - 1 = extent rest by omega]
    simpa [joined] using later

-- What comes out never is longer than the buffer.
theorem strncat_within {capacity : Nat} {dest src after : List Char} {count : Int}
    (run : strncat capacity dest src count = .ok after) : after.length < capacity := by
  unfold strncat at run
  generalize (if count < 0 then src else src.take count.toNat) = copied at run
  dsimp only at run
  by_cases fits : dest.length + copied.length < capacity
  · rw [if_pos fits] at run
    cases run
    rw [List.length_append]
    exact fits
  · rw [if_neg fits] at run
    cases run

theorem joinArgs_within {capacity : Nat} {cmdsize : Int} {cmd line : List Char} {args : List (List Char)}
    (within : cmd.length < capacity) (run : joinArgs capacity cmdsize cmd args = .ok line) :
    line.length < capacity := by
  induction args generalizing cmdsize cmd with
  | nil =>
    cases run
    exact within
  | cons arg rest ih =>
    rw [joinArgs] at run
    cases first : strncat capacity cmd arg cmdsize with
    | error abort =>
      rw [first] at run
      cases run
    | ok middle =>
      rw [first] at run
      dsimp only [bind, Except.bind] at run
      cases second : strncat capacity middle [' '] (toInt (cmdsize - arg.length)) with
      | error abort =>
        rw [second] at run
        cases run
      | ok after =>
        rw [second] at run
        dsimp only at run
        by_cases least : toInt (cmdsize - arg.length) = intMin
        · rw [if_pos least] at run
          cases run
        · rw [if_neg least] at run
          exact ih (strncat_within second) run

theorem oneShot_small {args : List (List Char)} (small : (extent args : Int) < intMax) :
    oneShot args = .ok (joined args) := by
  have size : cmdSize args = extent args := by
    rw [cmdSize_eq, toInt_of_fits]
    · unfold intMin
      omega
    · omega
  unfold oneShot
  dsimp only
  rw [size, if_neg (by omega), if_neg (by omega), if_neg (by omega)]
  exact joinArgs_fits [] args (by omega) (by simp only [List.length_nil]; omega)

-- When the size does not fit an int the buffer is too small for all of the arguments.
theorem oneShot_large {args : List (List Char)} (large : intMax ≤ (extent args : Int)) {line : List Char}
    (run : oneShot args = .ok line) : line.length + 1 < extent args := by
  unfold oneShot at run
  dsimp only at run
  rw [cmdSize_eq] at run
  by_cases most : toInt (extent args) = intMax
  · rw [if_pos most] at run
    cases run
  · rw [if_neg most] at run
    by_cases negative : toInt (extent args) + 1 < 0
    · rw [if_pos negative] at run
      cases run
    · rw [if_neg negative] at run
      by_cases zero : toInt (extent args) + 1 = 0
      · rw [if_pos zero] at run
        cases run
      · rw [if_neg zero] at run
        have beyond : intMax < (extent args : Int) := by
          rcases Int.lt_or_eq_of_le large with more | same
          · exact more
          · exact absurd (by rw [← same]; decide) most
        have wrapped := toInt_wrapped beyond (by omega)
        have within := joinArgs_within (by simp only [List.length_nil]; omega) run
        omega

end Joined

section Split

variable {arg : List Char} {rest : List (List Char)}

theorem joined_cons (arg : List Char) (rest : List (List Char)) : joined (arg :: rest) = arg ++ ' ' :: joined rest := by
  simp [joined]

-- A word goes through as it is.
theorem nexttoken_joined (plain : Plain arg) (filled : arg ≠ []) :
    nexttoken (joined (arg :: rest)) = (arg, joined rest) := by
  rw [joined_cons]
  exact nexttoken_written ⟨arg, none, filled, plain⟩ fun c here => by cases here; decide

theorem restTokens_joined (plain : ∀ arg ∈ rest, Plain arg) (filled : ∀ arg ∈ rest, arg ≠ []) :
    restTokens (joined rest) = rest := by
  induction rest with
  | nil => exact restTokens.eq_1
  | cons arg rest ih =>
    have some_left : joined (arg :: rest) ≠ [] := by simp [joined_cons]
    rw [restTokens_some some_left, tokens,
      nexttoken_joined (plain arg List.mem_cons_self) (filled arg List.mem_cons_self),
      ih (fun other member => plain other (List.mem_cons_of_mem _ member))
        (fun other member => filled other (List.mem_cons_of_mem _ member))]

theorem cutAt_without {ends : Char → Bool} {s : List Char} : ∀ c ∈ (cutAt ends s).1, ends c = false := by
  intro c member
  have kept := List.mem_takeWhile_imp member
  simpa using kept

-- What a quote opens would come out without the quote.
theorem unquoted_of_token {front back : List Char} {mark : Char}
    (token : (nexttoken (arg ++ ' ' :: joined rest)).1 = arg) (split : arg = front ++ mark :: back)
    (blank : ∀ c ∈ front, isblank c = true) : isQuote mark = false := by
  by_contra marked
  rw [Bool.not_eq_false] at marked
  rw [split, List.append_assoc, nexttoken_skip blank, List.cons_append, nexttoken_quoted marked, ← split] at token
  have without := @cutAt_without (· = mark) (back ++ ' ' :: joined rest) mark
    (by rw [token, split]; exact List.mem_append_right front List.mem_cons_self)
  simp at without

-- Nothing but blanks: the token would have to come from the arguments behind it.
theorem solid_of_tokens (filled : arg ≠ []) (same : tokens (joined (arg :: rest)) = arg :: rest) :
    arg.dropWhile isblank ≠ [] := by
  intro solid
  have blanks := @List.takeWhile_append_dropWhile _ isblank arg
  have front : ∀ c ∈ arg.takeWhile isblank, isblank c = true := fun c member => List.mem_takeWhile_imp member
  rw [solid, List.append_nil] at blanks
  have skipped : nexttoken (joined (arg :: rest)) = nexttoken (joined rest) := by
    rw [joined_cons, ← blanks, nexttoken_skip front]
    exact @nexttoken_skip [' '] (joined rest) (by simp [isblank])
  have extents := extent_tokens (joined rest)
  have positive := List.length_pos_iff.mpr filled
  rw [tokens, ← skipped, ← tokens, same, extent_cons, length_joined] at extents
  omega

-- An argument that begins with a quote or a blank comes out as something else.
theorem plain_of_token (filled : arg ≠ []) (same : tokens (joined (arg :: rest)) = arg :: rest) : Plain arg := by
  have token : (nexttoken (arg ++ ' ' :: joined rest)).1 = arg := by
    rw [tokens, joined_cons] at same
    exact (List.cons.inj same).1
  have blanks := @List.takeWhile_append_dropWhile _ isblank arg
  have front : ∀ c ∈ arg.takeWhile isblank, isblank c = true := fun c member => List.mem_takeWhile_imp member
  obtain ⟨d, back, solid⟩ := List.exists_cons_of_ne_nil (solid_of_tokens filled same)
  rw [solid] at blanks
  have nonblank : isblank d = false := by
    have stopped := List.head?_dropWhile_not isblank arg
    rw [solid] at stopped
    simpa using stopped
  have plain := nexttoken_plain nonblank (unquoted_of_token token blanks.symm front) (back ++ ' ' :: joined rest)
  have cut : arg = (cutAt isblank (d :: (back ++ ' ' :: joined rest))).1 := by
    rw [← plain, ← List.cons_append, ← nexttoken_skip front, ← List.append_assoc, blanks, token]
  have solids : ∀ c ∈ arg, isblank c = false := by
    rw [cut]
    exact cutAt_without
  refine ⟨solids, ?_⟩
  intro c here
  obtain ⟨first, others, chars⟩ := List.exists_cons_of_ne_nil filled
  rw [chars] at here
  cases here
  exact @unquoted_of_token _ _ [] others c token chars fun _ member => absurd member List.not_mem_nil

theorem plain_of_tokens (filled : ∀ arg ∈ rest, arg ≠ []) (same : restTokens (joined rest) = rest) :
    ∀ arg ∈ rest, Plain arg := by
  induction rest with
  | nil => exact fun _ member => absurd member List.not_mem_nil
  | cons arg rest ih =>
    have some_left : joined (arg :: rest) ≠ [] := by simp [joined_cons]
    rw [restTokens_some some_left] at same
    have here := plain_of_token (filled arg List.mem_cons_self) same
    rw [tokens, nexttoken_joined here (filled arg List.mem_cons_self)] at same
    have others := ih (fun other member => filled other (List.mem_cons_of_mem _ member)) (List.cons.inj same).2
    exact List.forall_mem_cons.mpr ⟨here, others⟩

-- The arguments go through when each of them is a word that nexttoken takes as it is, and their size with a byte
-- for each of them is below the largest int.
theorem arguments_pass_through_iff {args : List (List Char)} (given : args ≠ [])
    (filled : ∀ arg ∈ args, arg ≠ []) :
    (∃ line, oneShot args = .ok line ∧ tokens line = args) ↔
      (∀ arg ∈ args, Plain arg) ∧ (args.map fun arg => arg.length + 1).sum < 2 ^ 31 - 1 := by
  have some_left : joined args ≠ [] := by
    cases args with
    | nil => exact absurd rfl given
    | cons arg rest => simp [joined_cons]
  change _ ↔ _ ∧ extent args < 2 ^ 31 - 1
  by_cases small : (extent args : Int) < intMax
  · rw [and_iff_left (by unfold intMax at small; omega)]
    constructor
    · rintro ⟨line, run, same⟩
      rw [oneShot_small small] at run
      cases run
      rw [← restTokens_some some_left] at same
      exact plain_of_tokens filled same
    · intro plain
      refine ⟨joined args, oneShot_small small, ?_⟩
      rw [← restTokens_some some_left]
      exact restTokens_joined plain filled
  · constructor
    · rintro ⟨line, run, same⟩
      have shorter := oneShot_large (by omega) run
      have extents := extent_tokens line
      rw [same] at extents
      omega
    · rintro ⟨_, less⟩
      unfold intMax at small
      omega

theorem arguments_pass_through_ifup :
    ∃ line, oneShot ["ifup".toList, "eth0".toList] = .ok line ∧ tokens line = ["ifup".toList, "eth0".toList] :=
  (arguments_pass_through_iff (by decide) (by decide)).mpr
    ⟨by
      intro arg member
      simp only [List.mem_cons, List.not_mem_nil, or_false] at member
      rcases member with rfl | rfl
      · exact ⟨by simp [isblank], by simp [isQuote]⟩
      · exact ⟨by simp [isblank], by simp [isQuote]⟩, by decide⟩

-- A file name with a blank in it comes out in two pieces.
theorem blank_splits_argument :
    ¬ ∃ line, oneShot ["define".toList, "my file".toList] = .ok line ∧
      tokens line = ["define".toList, "my file".toList] := by
  rintro ⟨line, run, same⟩
  rw [oneShot_small (by decide)] at run
  cases run
  rw [← restTokens_some (by decide)] at same
  have plain := plain_of_tokens (by decide) same "my file".toList (by simp)
  exact absurd (plain.solid ' ' (by decide)) (by decide)

end Split

end Netcf.Tool
