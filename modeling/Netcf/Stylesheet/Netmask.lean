import Netcf.Stylesheet.Extension

set_option autoImplicit false

-- ipcalc_prefix with its int arithmetic and the results of its calls (xslt_ext.c), against the netmasks
-- that it is given.
namespace Netcf.Stylesheet

section Program

inductive PrefixError
  | illegalNetmask (netmask : String)
  deriving DecidableEq

-- Whether a value is one of an int, and the int that a value leaves in 32 bits.
def fitsInt (x : Int) : Bool :=
  -2 ^ 31 ≤ x && x < 2 ^ 31

def asInt (x : Int) : Int :=
  x.bmod (2 ^ 32)

-- The loop: IN_RANGE as long as no shift or subtraction has left the range of its type.
structure PrefixLoop where
  prefixLen : Nat
  inRange : Bool
  deriving DecidableEq

def prefixStep (netmask : BitVec 32) (loop : PrefixLoop) (i : Nat) : PrefixLoop :=
  let shifted : Int := 2 * 2 ^ i
  let mask := asInt shifted - 1
  let loop := { loop with inRange := loop.inRange && fitsInt shifted && fitsInt mask }
  if netmask &&& BitVec.ofInt 32 mask = 0#32 then
    { prefixLen := loop.prefixLen - 1, inRange := loop.inRange && 0 < loop.prefixLen }
  else loop

def prefixLoop (netmask : BitVec 32) : PrefixLoop :=
  (List.range 32).foldl (prefixStep netmask) ⟨32, true⟩

-- 1 for an address, 0 for every other text: the family is known.
def inetPtonResult (text : String) : Int :=
  if (inetPton text).isSome then 1 else 0

structure PrefixRun where
  answer : Except PrefixError String
  inRange : Bool

def prefixRun (machine : Machine) (netmask : String) : PrefixRun :=
  if netmask = "" then ⟨.ok "", true⟩
  else if inetPtonResult netmask < 0 then ⟨.error (.illegalNetmask netmask), true⟩
  else
    let loop := prefixLoop ((inetPton netmask).getD machine.uninitialised)
    ⟨.ok (toString loop.prefixLen), loop.inRange⟩

end Program

section Loop

theorem step_mask {i : Nat} (low : i < 32) : BitVec.ofInt 32 (asInt (2 * 2 ^ i) - 1) = (2#32 <<< i) - 1#32 := by
  have all : ∀ i < 32, BitVec.ofInt 32 (asInt (2 * 2 ^ i) - 1) = (2#32 <<< i) - 1#32 := by
    decide +kernel
  exact all i low

theorem prefixStep_prefixLen (netmask : BitVec 32) (loop : PrefixLoop) {i : Nat} (low : i < 32) :
    (prefixStep netmask loop i).prefixLen =
      if netmask &&& ((2#32 <<< i) - 1#32) = 0#32 then loop.prefixLen - 1 else loop.prefixLen := by
  unfold prefixStep
  rw [← step_mask low]
  dsimp only
  split_ifs <;> rfl

-- The count of the loop is the one that the stylesheets' model has.
theorem prefixLoop_prefixLen (netmask : BitVec 32) : (prefixLoop netmask).prefixLen = countPrefix netmask := by
  have folds : ∀ (list : List Nat) (loop : PrefixLoop), (∀ i ∈ list, i < 32) →
      (list.foldl (prefixStep netmask) loop).prefixLen = list.foldl (fun prefixLen i =>
        if netmask &&& ((2#32 <<< i) - 1#32) = 0#32 then prefixLen - 1 else prefixLen) loop.prefixLen := by
    intro list
    induction list with
    | nil => exact fun _ _ => rfl
    | cons i rest ih =>
      intro loop low
      rw [List.foldl_cons, List.foldl_cons, ih _ fun j member => low j (List.mem_cons_of_mem _ member),
        prefixStep_prefixLen netmask loop (low i List.mem_cons_self)]
  exact folds (List.range 32) ⟨32, true⟩ fun i member => List.mem_range.mp member

theorem prefixStep_overflow (netmask : BitVec 32) (loop : PrefixLoop) {i : Nat}
    (overflow : fitsInt (2 * 2 ^ i) = false) : (prefixStep netmask loop i).inRange = false := by
  unfold prefixStep
  dsimp only
  split_ifs <;> simp [overflow]

theorem prefixStep_stays (netmask : BitVec 32) {loop : PrefixLoop} (left : loop.inRange = false) (i : Nat) :
    (prefixStep netmask loop i).inRange = false := by
  unfold prefixStep
  dsimp only
  split_ifs <;> simp [left]

-- The loop goes up to i = 31, and 2 << 30 is already too large.
theorem prefixLoop_overflow (netmask : BitVec 32) : (prefixLoop netmask).inRange = false := by
  unfold prefixLoop
  rw [List.range_succ, List.foldl_append, List.range_succ, List.foldl_append]
  exact prefixStep_stays netmask (prefixStep_overflow netmask _ (by decide)) 31

-- So the test for a failure of inet_pton never holds.
theorem inetPtonResult_nonneg (text : String) : ¬inetPtonResult text < 0 := by
  unfold inetPtonResult
  split_ifs <;> decide

theorem prefixRun_answer (machine : Machine) (netmask : String) :
    (prefixRun machine netmask).answer = .ok (ipcalcPrefix machine netmask) := by
  unfold prefixRun ipcalcPrefix
  by_cases empty : netmask = ""
  · rw [if_pos empty, if_pos empty]
  · rw [if_neg empty, if_neg empty, if_neg (inetPtonResult_nonneg netmask), ← prefixLoop_prefixLen]

theorem prefixRun_inRange (machine : Machine) (netmask : String) :
    (prefixRun machine netmask).inRange = decide (netmask = "") := by
  unfold prefixRun
  by_cases empty : netmask = ""
  · rw [if_pos empty, decide_eq_true empty]
  · rw [if_neg empty, if_neg (inetPtonResult_nonneg netmask), decide_eq_false empty]
    exact prefixLoop_overflow _

end Loop

section Soundness

-- P ones, and zeros behind them.
def Ones (p : Nat) (address : BitVec 32) : Prop :=
  ∀ i < 32, address.getMsbD i = decide (i < p)

-- A transform error, nothing for nothing, or the prefix of the netmask.
def AnswersSoundly (machine : Machine) (netmask : String) : Except PrefixError String → Prop
  | .error _ => True
  | .ok text => text = "" ∧ netmask = "" ∨
    ∃ p ≤ 32, text = toString p ∧ ∃ address, inetPton netmask = some address ∧ Ones p address ∧
      (0 < p → ∃ again, ipcalcNetmask machine p = .ok again ∧ inetPton again = some address)

structure Sound (machine : Machine) (netmask : String) : Prop where
  answer : AnswersSoundly machine netmask (prefixRun machine netmask).answer
  inRange : (prefixRun machine netmask).inRange = true

theorem ones_unique {p : Nat} {address other : BitVec 32} (one : Ones p address) (two : Ones p other) :
    address = other :=
  BitVec.eq_of_getMsbD_eq fun i low => (one i low).trans (two i low).symm

theorem countPrefix_ones {p : Nat} (small : p ≤ 32) {address : BitVec 32} (ones : Ones p address) :
    countPrefix address = p := by
  have shape : ∀ q < 33, Ones q (~~~ (BitVec.allOnes 32 >>> q)) ∧ countPrefix (~~~ (BitVec.allOnes 32 >>> q)) = q := by
    unfold Ones
    decide +kernel
  obtain ⟨same, counted⟩ := shape p (by omega)
  rw [ones_unique ones same]
  exact counted

theorem netmask_reread {p : Nat} (positive : 0 < p) (narrow : p < 32) (machine : Machine) {address : BitVec 32}
    (ones : Ones p address) : ∃ again, ipcalcNetmask machine p = .ok again ∧ inetPton again = some address := by
  have shape : ∀ q < 32, Ones q (~~~ (0xffffffff#32 >>> q)) ∧
      inetPton (inetNtop (~~~ (0xffffffff#32 >>> q))) = some (~~~ (0xffffffff#32 >>> q)) := by
    unfold Ones
    decide +kernel
  obtain ⟨same, reread⟩ := shape p narrow
  rw [ones_unique ones same]
  refine ⟨_, ?_, reread⟩
  rw [ipcalcNetmask_nat, if_neg (by omega), shiftMask, if_pos narrow]

theorem answersSoundly_iff (netmask : String) :
    (∀ machine, AnswersSoundly machine netmask (prefixRun machine netmask).answer) ↔
      netmask = "" ∨ ∃ p < 32, ∃ address, inetPton netmask = some address ∧ Ones p address := by
  constructor
  · intro sound
    have answer := sound countModulo
    rw [prefixRun_answer] at answer
    rcases answer with ⟨_, nothing⟩ | ⟨p, small, _, address, text, ones, back⟩
    · exact Or.inl nothing
    · by_cases narrow : p < 32
      · exact Or.inr ⟨p, narrow, address, text, ones⟩
      · obtain ⟨again, run, reread⟩ := back (by omega)
        rw [show p = 32 by omega] at ones run
        rw [show ipcalcNetmask countModulo (32 : Nat) = .ok "0.0.0.0" by
          rw [ipcalcNetmask_nat]
          decide +kernel] at run
        cases run
        rw [show inetPton "0.0.0.0" = some 0#32 by decide +kernel] at reread
        cases reread
        exact absurd (ones 0 (by decide)) (by decide)
  · intro good machine
    rw [prefixRun_answer]
    rcases good with nothing | ⟨p, narrow, address, text, ones⟩
    · rw [nothing]
      exact Or.inl ⟨rfl, rfl⟩
    · have some_text : netmask ≠ "" := by
        intro nothing
        rw [nothing] at text
        cases text
      rw [ipcalcPrefix, if_neg some_text, text, Option.getD_some, countPrefix_ones (by omega) ones]
      exact Or.inr ⟨p, by omega, rfl, address, text, ones, fun positive =>
        netmask_reread positive narrow machine ones⟩

-- For every text but the empty one the loop shifts beyond the range of an int. The answer alone is the right one
-- for the netmasks with ones in front up to /31.
theorem prefix_sound_iff (netmask : String) :
    (∀ machine, Sound machine netmask ↔ netmask = "") ∧
      ((∀ machine, AnswersSoundly machine netmask (prefixRun machine netmask).answer) ↔
        netmask = "" ∨ ∃ p < 32, ∃ address, inetPton netmask = some address ∧ Ones p address) := by
  refine ⟨fun machine => ?_, answersSoundly_iff netmask⟩
  constructor
  · intro sound
    have inRange := sound.inRange
    rw [prefixRun_inRange] at inRange
    exact of_decide_eq_true inRange
  · intro nothing
    refine ⟨(answersSoundly_iff netmask).mpr (Or.inl nothing) machine, ?_⟩
    rw [prefixRun_inRange]
    exact decide_eq_true nothing

-- Ones in two places: the answer is 24.
theorem scattered_netmask_accepted : ¬ Sound countModulo "255.0.255.0" := by
  intro sound
  have answer := sound.answer
  rw [prefixRun_answer, show ipcalcPrefix countModulo "255.0.255.0" = "24" by decide +kernel] at answer
  rcases answer with ⟨nothing, _⟩ | ⟨p, small, text, address, parsed, ones, _⟩
  · exact absurd nothing (by decide)
  · have which : ∀ q < 33, "24" = toString q → q = 24 := by decide +kernel
    cases which p (by omega) text
    cases parsed.symm.trans (show inetPton "255.0.255.0" = some 0xff00ff00#32 by decide +kernel)
    exact absurd (ones 8 (by decide)) (by decide)

end Soundness

end Netcf.Stylesheet
