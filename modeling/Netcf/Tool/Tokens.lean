import Mathlib.Algebra.Ring.Int.Defs
import Mathlib.Algebra.Ring.Nat
import Mathlib.Data.List.TakeWhile

set_option autoImplicit false

-- The tokens of a command line, as nexttoken and the loop of parseline cut them off (ncftool.c).
namespace Netcf.Tool

section Scanner

def isblank (c : Char) : Bool :=
  c = ' ' || c = '\t'

def isQuote (c : Char) : Bool :=
  c = '\'' || c = '"'

-- Up to a character that ends the token, and what is left behind that character.
def cutAt (ends : Char → Bool) (s : List Char) : List Char × List Char :=
  (s.takeWhile fun c => !ends c, (s.dropWhile fun c => !ends c).drop 1)

def nexttoken (line : List Char) : List Char × List Char :=
  match line.dropWhile isblank with
  | [] => ([], [])
  | c :: rest => if isQuote c then cutAt (· = c) rest else cutAt isblank (c :: rest)

theorem cutAt_le (ends : Char → Bool) (s : List Char) :
    (cutAt ends s).1.length + (cutAt ends s).2.length ≤ s.length := by
  have whole := congrArg List.length (@List.takeWhile_append_dropWhile _ (fun c => !ends c) s)
  rw [List.length_append] at whole
  simp only [cutAt, List.length_drop]
  omega

-- Where something is left, the character in between is gone.
theorem cutAt_lt {ends : Char → Bool} {s : List Char} (more : (cutAt ends s).2 ≠ []) :
    (cutAt ends s).1.length + 1 + (cutAt ends s).2.length = s.length := by
  have whole := congrArg List.length (@List.takeWhile_append_dropWhile _ (fun c => !ends c) s)
  have left := List.length_pos_iff.mpr more
  rw [List.length_append] at whole
  simp only [cutAt, List.length_drop] at left ⊢
  omega

theorem nexttoken_le (line : List Char) :
    (nexttoken line).1.length + (nexttoken line).2.length ≤ line.length := by
  have skipped := (@List.dropWhile_sublist _ line isblank).length_le
  unfold nexttoken
  cases front : line.dropWhile isblank with
  | nil => exact Nat.zero_le _
  | cons c rest =>
    rw [front, List.length_cons] at skipped
    dsimp only
    split_ifs
    · exact (cutAt_le _ rest).trans (by omega)
    · exact (cutAt_le _ (c :: rest)).trans (by rw [List.length_cons]; omega)

theorem nexttoken_lt {line : List Char} (more : (nexttoken line).2 ≠ []) :
    (nexttoken line).1.length + 1 + (nexttoken line).2.length ≤ line.length := by
  have skipped := (@List.dropWhile_sublist _ line isblank).length_le
  revert more
  unfold nexttoken
  cases front : line.dropWhile isblank with
  | nil => exact fun none_left => absurd rfl none_left
  | cons c rest =>
    rw [front, List.length_cons] at skipped
    dsimp only
    split_ifs
    · intro more
      rw [cutAt_lt more]
      omega
    · intro more
      rw [cutAt_lt more, List.length_cons]
      exact skipped

theorem nexttoken_shorter (c : Char) (rest : List Char) :
    (nexttoken (c :: rest)).2.length < (c :: rest).length := by
  by_cases more : (nexttoken (c :: rest)).2 = []
  · rw [more]
    exact Nat.succ_pos _
  · have longer := nexttoken_lt more
    omega

-- The loop goes on as long as something is left.
def restTokens : List Char → List (List Char)
  | [] => []
  | c :: rest => (nexttoken (c :: rest)).1 :: restTokens (nexttoken (c :: rest)).2
termination_by line => line.length
decreasing_by exact nexttoken_shorter c rest

def tokens (line : List Char) : List (List Char) :=
  (nexttoken line).1 :: restTokens (nexttoken line).2

theorem restTokens_some {line : List Char} (some_left : line ≠ []) : restTokens line = tokens line := by
  cases line with
  | nil => exact absurd rfl some_left
  | cons c rest => rw [restTokens, tokens]

-- The characters that the tokens take, with one more for each of them.
def extent (toks : List (List Char)) : Nat :=
  (toks.map fun tok => tok.length + 1).sum

@[simp] theorem extent_nil : extent [] = 0 := rfl

@[simp] theorem extent_cons (tok : List Char) (toks : List (List Char)) :
    extent (tok :: toks) = tok.length + 1 + extent toks := rfl

theorem extent_tokens (line : List Char) : extent (tokens line) ≤ line.length + 1 := by
  induction length : line.length using Nat.strong_induction_on generalizing line with
  | _ n ih =>
    rw [tokens, extent_cons, ← length]
    by_cases more : (nexttoken line).2 = []
    · have kept := nexttoken_le line
      rw [more, List.length_nil] at kept
      rw [more, restTokens, extent_nil]
      omega
    · have kept := nexttoken_lt more
      have later := ih _ (by omega) (nexttoken line).2 rfl
      rw [restTokens_some more]
      omega

end Scanner

section Reading

variable {s tail : List Char}

theorem takeWhile_stops {p : Char → Bool} (all : ∀ c ∈ s, p c = true) (stops : ∀ c ∈ tail.head?, p c = false) :
    (s ++ tail).takeWhile p = s ∧ (s ++ tail).dropWhile p = tail := by
  rw [List.takeWhile_append_of_pos all, List.dropWhile_append_of_pos all]
  cases tail with
  | nil => exact ⟨List.append_nil s, rfl⟩
  | cons c rest =>
    have stop := stops c rfl
    rw [List.takeWhile_cons_of_neg (by simp [stop]), List.dropWhile_cons_of_neg (by simp [stop])]
    exact ⟨List.append_nil s, rfl⟩

theorem cutAt_stop {ends : Char → Bool} (all : ∀ c ∈ s, ends c = false) (stops : ∀ c ∈ tail.head?, ends c = true) :
    cutAt ends (s ++ tail) = (s, tail.drop 1) := by
  obtain ⟨taken, left⟩ := @takeWhile_stops s tail (fun c => !ends c)
    (fun c member => by rw [all c member]; rfl) (fun c member => by rw [stops c member]; rfl)
  rw [cutAt, taken, left]

-- Blanks in front of a token are skipped.
theorem nexttoken_skip (blank : ∀ c ∈ s, isblank c = true) : nexttoken (s ++ tail) = nexttoken tail := by
  unfold nexttoken
  rw [List.dropWhile_append_of_pos blank]

theorem nexttoken_blank (blank : ∀ c ∈ s, isblank c = true) : nexttoken s = ([], []) := by
  have skipped := @nexttoken_skip s [] blank
  rw [List.append_nil] at skipped
  rw [skipped]
  rfl

theorem nexttoken_quoted {quote : Char} (isQuoted : isQuote quote = true) (rest : List Char) :
    nexttoken (quote :: rest) = cutAt (· = quote) rest := by
  have solid : isblank quote = false := by
    simp only [isQuote, Bool.or_eq_true, decide_eq_true_eq] at isQuoted
    rcases isQuoted with rfl | rfl <;> decide
  unfold nexttoken
  rw [List.dropWhile_cons_of_neg (by simp [solid])]
  dsimp only
  rw [if_pos isQuoted]

theorem nexttoken_plain {c : Char} (solid : isblank c = false) (unquoted : isQuote c = false) (rest : List Char) :
    nexttoken (c :: rest) = cutAt isblank (c :: rest) := by
  unfold nexttoken
  rw [List.dropWhile_cons_of_neg (by simp [solid])]
  dsimp only
  rw [if_neg (by simp [unquoted])]

end Reading

section Lines

structure Plain (text : List Char) : Prop where
  solid : ∀ c ∈ text, isblank c = false
  unquoted : ∀ c ∈ text.head?, isQuote c = false

structure Token where
  text : List Char
  quote : Option Char
  filled : text ≠ []
  proper : match quote with
    | none => Plain text
    | some mark => isQuote mark = true ∧ mark ∉ text

def Token.written (token : Token) : List Char :=
  match token.quote with
  | none => token.text
  | some mark => mark :: (token.text ++ [mark])

structure Blanks where
  chars : List Char
  blank : ∀ c ∈ chars, isblank c = true

structure Gap extends Blanks where
  some_blank : chars ≠ []

structure Line where
  leading : Blanks
  first : Token
  rest : List (Gap × Token)
  trailing : Blanks

def tailText (trailing : Blanks) : List (Gap × Token) → List Char
  | [] => trailing.chars
  | (gap, token) :: more => gap.chars ++ (token.written ++ tailText trailing more)

def Line.text (line : Line) : List Char :=
  line.leading.chars ++ (line.first.written ++ tailText line.trailing line.rest)

def Line.words (line : Line) : List (List Char) :=
  line.rest.map fun part => part.2.text

-- A token without quotes takes the blank behind it along.
def behind (token : Token) (tail : List Char) : List Char :=
  if token.quote.isSome then tail else tail.drop 1

-- Whether blanks are left over behind the last token.
def spareBehind (trailing : Blanks) : Token → List (Gap × Token) → Bool
  | token, [] => behind token trailing.chars ≠ []
  | _, (_, token) :: more => spareBehind trailing token more

def Line.spare (line : Line) : Bool :=
  spareBehind line.trailing line.first line.rest

theorem nexttoken_written (token : Token) {tail : List Char} (blank : ∀ c ∈ tail.head?, isblank c = true) :
    nexttoken (token.written ++ tail) = (token.text, behind token tail) := by
  have proper := token.proper
  unfold Token.written behind
  cases quote : token.quote with
  | some mark =>
    rw [quote] at proper
    obtain ⟨isMark, absent⟩ := proper
    dsimp only
    rw [List.cons_append, List.append_assoc, nexttoken_quoted isMark, cutAt_stop]
    · rfl
    · intro c member
      exact decide_eq_false fun same => absent (same ▸ member)
    · intro c here
      cases here
      exact decide_eq_true rfl
  | none =>
    rw [quote] at proper
    dsimp only
    cases text : token.text with
    | nil => exact absurd text token.filled
    | cons c rest =>
      rw [text] at proper
      have plain := @nexttoken_plain c (proper.solid c List.mem_cons_self) (proper.unquoted c rfl) (rest ++ tail)
      rw [List.cons_append, plain, ← List.cons_append, cutAt_stop proper.solid blank]
      rfl

theorem tailText_head (trailing : Blanks) (rest : List (Gap × Token)) :
    ∀ c ∈ (tailText trailing rest).head?, isblank c = true := by
  cases rest with
  | nil => exact fun c here => trailing.blank c (List.mem_of_mem_head? here)
  | cons part more =>
    obtain ⟨gap, token⟩ := part
    intro c here
    rw [tailText] at here
    cases chars : gap.chars with
    | nil => exact absurd chars gap.some_blank
    | cons b bs =>
      rw [chars, List.cons_append, List.head?_cons, Option.mem_some_iff] at here
      exact gap.blank c (by rw [chars, here]; exact List.mem_cons_self)

theorem behind_gap (token : Token) (gap : Gap) (tail : List Char) :
    ∃ left : Blanks, behind token (gap.chars ++ tail) = left.chars ++ tail := by
  unfold behind
  split_ifs
  · exact ⟨gap.toBlanks, rfl⟩
  · refine ⟨⟨gap.chars.drop 1, fun c member => gap.blank c (List.mem_of_mem_drop member)⟩, ?_⟩
    exact List.drop_append_of_le_length (List.length_pos_iff.mpr gap.some_blank)

theorem written_filled (token : Token) : token.written ≠ [] := by
  unfold Token.written
  cases token.quote with
  | none => exact token.filled
  | some mark => exact List.cons_ne_nil _ _

theorem restTokens_behind (trailing : Blanks) (token : Token) (rest : List (Gap × Token)) :
    restTokens (behind token (tailText trailing rest)) =
      rest.map (fun part => part.2.text) ++ if spareBehind trailing token rest then [[]] else [] := by
  induction rest generalizing token with
  | nil =>
    rw [tailText, spareBehind, List.map_nil, List.nil_append]
    by_cases none_left : behind token trailing.chars = []
    · simp [none_left, restTokens]
    · have blank : ∀ c ∈ behind token trailing.chars, isblank c = true := by
        intro c member
        unfold behind at member
        split_ifs at member
        · exact trailing.blank c member
        · exact trailing.blank c (List.mem_of_mem_drop member)
      rw [restTokens_some none_left, tokens, nexttoken_blank blank, restTokens, if_pos (by simpa using none_left)]
  | cons part more ih =>
    obtain ⟨gap, next⟩ := part
    obtain ⟨left, split⟩ := behind_gap token gap (next.written ++ tailText trailing more)
    have some_left : left.chars ++ (next.written ++ tailText trailing more) ≠ [] := by
      simp [written_filled next]
    rw [tailText, split, restTokens_some some_left, tokens, nexttoken_skip left.blank,
      nexttoken_written next (tailText_head trailing more), ih next]
    rfl

theorem tokens_text (line : Line) :
    tokens line.text = line.first.text :: (line.words ++ if line.spare then [[]] else []) := by
  rw [tokens, Line.text, nexttoken_skip line.leading.blank,
    nexttoken_written line.first (tailText_head line.trailing line.rest), restTokens_behind]
  rfl

end Lines

end Netcf.Tool
