import Netcf.Tool.Commands

set_option autoImplicit false

-- What parseline makes of the tokens of a line, and where that differs from the grammar of the commands.
namespace Netcf.Tool

open Shared.Faulty

section Tokens

variable (definition : CommandDef)

-- An option that is the name of something else than a boolean option.
def clashes (tok : List Char) : Bool :=
  isOption tok && (definition.opts.find? (·.name.toList = optionName tok)).any (·.tag ≠ .bool)

def positionals (toks : List (List Char)) : List (List Char) :=
  toks.filter fun tok => !isOption tok

def reached : Nat → List (List Char) → List (List Char)
  | _, [] => []
  | room, tok :: rest =>
    if isOption tok then tok :: reached room rest
    else
      match room with
      | 0 => []
      | room + 1 => tok :: reached room rest

theorem reached_option {tok : List Char} (option : isOption tok = true) (room : Nat) (rest : List (List Char)) :
    reached room (tok :: rest) = tok :: reached room rest := by
  cases room <;> rw [reached, if_pos option]

theorem reached_full {tok : List Char} (positional : isOption tok = false) (rest : List (List Char)) :
    reached 0 (tok :: rest) = [] := by
  rw [reached, if_neg (by simp [positional])]

theorem reached_positional {tok : List Char} (positional : isOption tok = false) (room : Nat)
    (rest : List (List Char)) : reached (room + 1) (tok :: rest) = tok :: reached room rest := by
  rw [reached, if_neg (by simp [positional])]

-- What is entered for a token.
def entry (tok : List Char) : Option CommandOpt :=
  if isOption tok then (findOpt (optionName tok) 0 definition.opts).map fun found => ⟨found.1, .bvalue⟩
  else some ⟨nextArg definition.opts 0, .string tok⟩

def narg : Nat :=
  definition.opts.countP (·.tag = .arg)

def total : Nat :=
  definition.opts.countP (·.isArg)

theorem findOpt_find (name : List Char) (place : Nat) (opts : List CommandOptDef) :
    (findOpt name place opts).map (·.2) = opts.find? (·.name.toList = name) := by
  induction opts generalizing place with
  | nil => rfl
  | cons first rest ih =>
    rw [findOpt]
    by_cases here : first.name.toList = name
    · rw [if_pos here, List.find?_cons_of_pos (by simpa using here)]
      rfl
    · rw [if_neg here, List.find?_cons_of_neg (by simpa using here)]
      exact ih (place + 1)

theorem findOpt_place {name : List Char} {place : Nat} {opts : List CommandOptDef} {found : Nat × CommandOptDef}
    (search : findOpt name place opts = some found) :
    place ≤ found.1 ∧ opts[found.1 - place]? = some found.2 ∧ found.2.name.toList = name := by
  induction opts generalizing place with
  | nil => cases search
  | cons first rest ih =>
    rw [findOpt] at search
    by_cases here : first.name.toList = name
    · rw [if_pos here] at search
      cases search
      exact ⟨Nat.le_refl _, by simp, here⟩
    · rw [if_neg here] at search
      obtain ⟨after, at_place, same⟩ := ih search
      refine ⟨by omega, ?_, same⟩
      rw [show found.1 - place = found.1 - (place + 1) + 1 by omega, List.getElem?_cons_succ]
      exact at_place

-- Going on from an argument the loop stays where it is.
theorem nextArg_nextArg (opts : List CommandOptDef) (place : Nat) :
    nextArg opts (nextArg opts place) = nextArg opts place := by
  have stays : ∀ rest : List CommandOptDef,
      (rest.drop (rest.findIdx CommandOptDef.isArg)).findIdx CommandOptDef.isArg = 0 := by
    intro rest
    induction rest with
    | nil => rfl
    | cons first rest ih =>
      rw [List.findIdx_cons]
      cases here : first.isArg with
      | true =>
        rw [cond_true, List.drop_zero, List.findIdx_cons, here]
        rfl
      | false => exact ih
  have again := stays (opts.drop place)
  rw [List.drop_drop] at again
  unfold nextArg
  rw [again]
  rfl

theorem nextArg_iterate (opts : List CommandOptDef) (curarg : Nat) :
    (nextArg opts)^[curarg] (nextArg opts 0) = nextArg opts 0 :=
  Function.iterate_fixed (nextArg_nextArg opts 0) curarg

end Tokens

section Runs

variable {definition : CommandDef} {s : Session}

def Granted (count : Nat) (s : Session) : Prop :=
  ∀ fails ∈ s.faults.take count, fails = false

def Session.told (s : Session) (text : String) : Session :=
  { s with complaints := s.complaints ++ [text] }

def Session.drawn (s : Session) (count : Nat) : Session :=
  { s with faults := s.faults.drop count }

theorem granted_zero (s : Session) : Granted 0 s := fun _ member => by
  rw [List.take_zero] at member
  cases member

theorem granted_add {first second : Nat} {after : Session} (left : after.faults = s.faults.drop first) :
    Granted (first + second) s ↔ Granted first s ∧ Granted second after := by
  unfold Granted
  rw [List.take_add, left]
  exact List.forall_mem_append

theorem granted_calm (calm : s.faults = []) (count : Nat) : Granted count s := fun _ member => by
  rw [calm, List.take_nil] at member
  cases member

theorem failing_of_not_granted {count : Nat} (failing : ¬Granted count s) : true ∈ s.faults := by
  unfold Granted at failing
  push Not at failing
  obtain ⟨fails, member, unlike⟩ := failing
  rw [ne_eq, Bool.not_eq_false] at unlike
  exact unlike ▸ List.mem_of_mem_take member

theorem complain_told (text : String) (s : Session) : complain text s = .ok () (s.told text) := rfl

theorem makeCommandOpt_granted (granted : Granted 1 s) : makeCommandOpt s = .ok true (s.drawn 1) := by
  have room : allocFails s = .ok false (s.drawn 1) := by
    obtain ⟨faults, complaints⟩ := s
    cases faults with
    | nil => rfl
    | cons fails later =>
      have succeeds : fails = false := granted fails List.mem_cons_self
      rw [succeeds]
      rfl
  unfold makeCommandOpt
  rw [bind_of_ok _ room]
  rfl

theorem makeCommandOpt_failing (failing : ¬Granted 1 s) : ∃ after, makeCommandOpt s = .ok false after := by
  have full : allocFails s = .ok true (s.drawn 1) := by
    unfold allocFails Session.drawn
    cases faults : s.faults with
    | nil => exact absurd (granted_calm faults 1) failing
    | cons fails later =>
      cases fails with
      | true => rfl
      | false =>
        refine absurd (fun each member => ?_) failing
        rw [faults] at member
        simpa using member
  unfold makeCommandOpt
  rw [bind_of_ok _ full]
  exact ⟨_, rfl⟩

def cost (definition : CommandDef) (tok : List Char) : Nat :=
  (entry definition tok).toList.length

theorem parseToken_clashes {tok : List Char} (clash : clashes definition tok = true) (most curarg : Nat)
    (opt : List CommandOpt) (granted : Granted 1 s) :
    ∃ after, parseToken definition most curarg opt tok s = .error .assertion after := by
  rw [clashes, Bool.and_eq_true] at clash
  obtain ⟨option, other⟩ := clash
  rw [← findOpt_find _ 0] at other
  unfold parseToken
  rw [if_pos option]
  cases search : findOpt (optionName tok) 0 definition.opts with
  | none =>
    rw [search] at other
    cases other
  | some found =>
    rw [search] at other
    have unlike : found.2.tag ≠ .bool := by simpa using other
    dsimp only
    rw [bind_of_ok _ (makeCommandOpt_granted granted), if_pos rfl, if_neg unlike]
    exact ⟨_, rfl⟩

structure Passes (definition : CommandDef) (most curarg : Nat) (tok : List Char) (s : Session) : Prop where
  clear : clashes definition tok = false
  room : isOption tok = true ∨ curarg < most
  granted : Granted (cost definition tok) s

def advance (definition : CommandDef) (curarg : Nat) (opt : List CommandOpt) (tok : List Char) :
    Nat × List CommandOpt :=
  (curarg + (if isOption tok then 0 else 1), opt ++ (entry definition tok).toList)

theorem parseToken_passes {tok : List Char} {most curarg : Nat} (passes : Passes definition most curarg tok s)
    (opt : List CommandOpt) :
    ∃ after, parseToken definition most curarg opt tok s = .ok (some (advance definition curarg opt tok)) after ∧
      after.faults = s.faults.drop (cost definition tok) := by
  obtain ⟨clear, room, granted⟩ := passes
  unfold parseToken advance
  unfold cost entry at *
  cases option : isOption tok with
  | false =>
    have here : curarg < most := by simpa [option] using room
    rw [option] at granted
    simp only [Bool.false_eq_true, if_false] at granted ⊢
    rw [if_neg (by omega), nextArg_iterate, bind_of_ok _ (makeCommandOpt_granted granted)]
    exact ⟨s.drawn 1, rfl, rfl⟩
  | true =>
    rw [option] at granted
    simp only [if_true] at granted ⊢
    rw [clashes, option, Bool.true_and, ← findOpt_find _ 0] at clear
    cases search : findOpt (optionName tok) 0 definition.opts with
    | none =>
      dsimp only
      rw [bind_of_ok _ (complain_told _ s), Option.map_none, Option.toList_none, List.append_nil]
      exact ⟨s.told _, rfl, rfl⟩
    | some found =>
      rw [search] at clear granted
      have boolean : found.2.tag = .bool := by simpa using clear
      dsimp only
      rw [bind_of_ok _ (makeCommandOpt_granted granted), if_pos rfl, if_pos boolean]
      exact ⟨s.drawn 1, rfl, rfl⟩

-- Where it does not go on, parseline gives up on the line, or the program comes to an end.
theorem parseToken_stops {tok : List Char} {most curarg : Nat} (stops : ¬Passes definition most curarg tok s)
    (opt : List CommandOpt) :
    ∃ after, parseToken definition most curarg opt tok s = .ok none after ∨
      parseToken definition most curarg opt tok s = .error .assertion after ∧ clashes definition tok = true ∨
      parseToken definition most curarg opt tok s = .error .nullPointer after ∧ true ∈ s.faults := by
  cases option : isOption tok with
  | false =>
    have clear : clashes definition tok = false := by rw [clashes, option, Bool.false_and]
    by_cases full : most ≤ curarg
    · unfold parseToken
      rw [option, if_neg Bool.false_ne_true, if_pos full, bind_of_ok _ (complain_told _ s)]
      exact ⟨s.told _, Or.inl rfl⟩
    · have failing : ¬Granted 1 s := fun granted =>
        stops ⟨clear, Or.inr (by omega), by rwa [cost, entry, option]⟩
      obtain ⟨after, run⟩ := makeCommandOpt_failing failing
      unfold parseToken
      rw [option, if_neg Bool.false_ne_true, if_neg full, bind_of_ok _ run]
      exact ⟨after, Or.inr (Or.inr ⟨rfl, failing_of_not_granted failing⟩)⟩
  | true =>
    by_cases granted : Granted 1 s
    · cases clash : clashes definition tok with
      | true =>
        obtain ⟨after, run⟩ := parseToken_clashes clash most curarg opt granted
        exact ⟨after, Or.inr (Or.inl ⟨run, rfl⟩)⟩
      | false =>
        refine absurd ⟨clash, Or.inl option, ?_⟩ stops
        unfold cost
        cases entry definition tok with
        | none => exact granted_zero s
        | some _ => exact granted
    · obtain ⟨after, run⟩ := makeCommandOpt_failing granted
      unfold parseToken
      rw [option, if_pos rfl]
      cases search : findOpt (optionName tok) 0 definition.opts with
      | none =>
        refine absurd ⟨?_, Or.inl option, ?_⟩ stops
        · rw [clashes, option, Bool.true_and, ← findOpt_find _ 0, search]
          rfl
        · rw [cost, entry, option, if_pos rfl, search]
          exact granted_zero s
      | some found =>
        dsimp only
        rw [bind_of_ok _ run]
        exact ⟨after, Or.inl rfl⟩

theorem positionals_option {tok : List Char} (option : isOption tok = true) (rest : List (List Char)) :
    positionals (tok :: rest) = positionals rest :=
  List.filter_cons_of_neg (by simp [option])

theorem positionals_positional {tok : List Char} (positional : isOption tok = false) (rest : List (List Char)) :
    positionals (tok :: rest) = tok :: positionals rest :=
  List.filter_cons_of_pos (by simp [positional])

theorem length_positionals (tok : List Char) (rest : List (List Char)) :
    (positionals (tok :: rest)).length = (if isOption tok then 0 else 1) + (positionals rest).length := by
  cases option : isOption tok with
  | true => rw [positionals_option option, if_pos rfl, Nat.zero_add]
  | false => rw [positionals_positional option, List.length_cons, if_neg Bool.false_ne_true, Nat.add_comm]

def entries (definition : CommandDef) (toks : List (List Char)) : List CommandOpt :=
  toks.filterMap (entry definition)

theorem entries_cons (definition : CommandDef) (tok : List Char) (rest : List (List Char)) :
    entries definition (tok :: rest) = (entry definition tok).toList ++ entries definition rest := by
  unfold entries
  cases entered : entry definition tok with
  | none => rw [List.filterMap_cons_none entered, Option.toList_none, List.nil_append]
  | some o => rw [List.filterMap_cons_some entered, Option.toList_some, List.singleton_append]

structure Taken (definition : CommandDef) (room : Nat) (toks : List (List Char)) (s : Session) : Prop where
  clear : ∀ tok ∈ toks, clashes definition tok = false
  fitting : (positionals toks).length ≤ room
  granted : Granted (entries definition toks).length s

theorem taken_cons_iff {most curarg : Nat} {tok : List Char} {rest : List (List Char)} {after : Session}
    (left : after.faults = s.faults.drop (cost definition tok)) :
    Taken definition (most - curarg) (tok :: rest) s ↔
      Passes definition most curarg tok s ∧
        Taken definition (most - (advance definition curarg [] tok).1) rest after := by
  have counted := length_positionals tok rest
  have granted : Granted (entries definition (tok :: rest)).length s ↔
      Granted (cost definition tok) s ∧ Granted (entries definition rest).length after := by
    rw [entries_cons, List.length_append]
    exact granted_add left
  unfold advance
  constructor
  · intro taken
    have fitting := taken.fitting
    obtain ⟨here, later⟩ := granted.mp taken.granted
    refine ⟨⟨taken.clear tok List.mem_cons_self, ?_, here⟩,
      ⟨fun each member => taken.clear each (List.mem_cons_of_mem _ member), ?_, later⟩⟩
    · cases option : isOption tok with
      | true => exact Or.inl rfl
      | false =>
        rw [option, if_neg Bool.false_ne_true] at counted
        exact Or.inr (by omega)
    · dsimp only
      omega
  · intro ⟨passes, taken⟩
    have fitting := taken.fitting
    dsimp only at fitting
    refine ⟨List.forall_mem_cons.mpr ⟨passes.clear, taken.clear⟩, ?_, granted.mpr ⟨passes.granted, taken.granted⟩⟩
    rcases passes.room with option | room
    · rw [option, if_pos rfl] at counted fitting
      omega
    · split_ifs at counted fitting <;> omega

-- The loop on a line, by the tokens of the line.
theorem parseArgs_taken {most curarg : Nat} (line : List Char) (opt : List CommandOpt)
    (taken : Taken definition (most - curarg) (restTokens line) s) :
    ∃ after, parseArgs definition most curarg opt line s =
      .ok (some (curarg + (positionals (restTokens line)).length, opt ++ entries definition (restTokens line))) after := by
  induction line using restTokens.induct generalizing curarg opt s with
  | case1 =>
    rw [restTokens, parseArgs]
    exact ⟨s, by simp [positionals, entries]; rfl⟩
  | case2 c rest ih =>
    rw [restTokens] at taken ⊢
    rw [parseArgs]
    generalize (nexttoken (c :: rest)).1 = tok at *
    have drawn : (s.drawn (cost definition tok)).faults = s.faults.drop (cost definition tok) := rfl
    have passes := ((taken_cons_iff drawn).mp taken).1
    obtain ⟨after, run, left⟩ := parseToken_passes passes opt
    have later := ((taken_cons_iff left).mp taken).2
    rw [bind_of_ok _ run]
    obtain ⟨last, ran⟩ := ih (advance definition curarg opt tok).2 later
    refine ⟨last, ran.trans ?_⟩
    rw [entries_cons, length_positionals, ← List.append_assoc, ← Nat.add_assoc]
    rfl

theorem parseArgs_left {most curarg : Nat} (line : List Char) (opt : List CommandOpt)
    (untaken : ¬Taken definition (most - curarg) (restTokens line) s) (out : Nat × List CommandOpt) (after : Session) :
    parseArgs definition most curarg opt line s ≠ .ok (some out) after := by
  induction line using restTokens.induct generalizing curarg opt s with
  | case1 =>
    rw [restTokens] at untaken
    exact absurd ⟨fun _ member => absurd member List.not_mem_nil, Nat.zero_le _, granted_zero s⟩ untaken
  | case2 c rest ih =>
    rw [restTokens] at untaken
    rw [parseArgs]
    generalize (nexttoken (c :: rest)).1 = tok at *
    by_cases passes : Passes definition most curarg tok s
    · obtain ⟨middle, run, left⟩ := parseToken_passes passes opt
      rw [bind_of_ok _ run]
      exact ih _ fun later => untaken ((taken_cons_iff left).mpr ⟨passes, later⟩)
    · obtain ⟨middle, run | ⟨run, _⟩ | ⟨run, _⟩⟩ := parseToken_stops passes opt
      · rw [bind_of_ok _ run]
        exact fun same => by cases same
      · rw [bind_of_error _ run]
        exact fun same => by cases same
      · rw [bind_of_error _ run]
        exact fun same => by cases same

-- Behind a token that there is room for, the loop comes to those that it comes to from the next round on.
theorem reached_advance {most curarg : Nat} {tok : List Char} (room : isOption tok = true ∨ curarg < most)
    (opt : List CommandOpt) (rest : List (List Char)) :
    reached (most - curarg) (tok :: rest) =
      tok :: reached (most - (advance definition curarg opt tok).1) rest := by
  rw [advance]
  cases option : isOption tok with
  | true => rw [reached_option option, if_pos rfl, Nat.add_zero]
  | false =>
    have left : curarg < most := by simpa [option] using room
    rw [show most - curarg = most - (curarg + 1) + 1 by omega, reached_positional option, if_neg Bool.false_ne_true]

theorem parseArgs_clashes {most curarg : Nat} (line : List Char) (opt : List CommandOpt) (calm : s.faults = [])
    (clash : ∃ tok ∈ reached (most - curarg) (restTokens line), clashes definition tok = true) :
    ∃ after, parseArgs definition most curarg opt line s = .error .assertion after := by
  induction line using restTokens.induct generalizing curarg opt s with
  | case1 =>
    obtain ⟨tok, member, _⟩ := clash
    rw [restTokens, reached] at member
    cases member
  | case2 c rest ih =>
    obtain ⟨tok, member, other⟩ := clash
    rw [restTokens] at member
    rw [parseArgs]
    generalize (nexttoken (c :: rest)).1 = first at *
    cases here : clashes definition first with
    | true =>
      obtain ⟨after, run⟩ := parseToken_clashes here most curarg opt (granted_calm calm 1)
      exact ⟨after, bind_of_error _ run⟩
    | false =>
      by_cases room : isOption first = true ∨ curarg < most
      · obtain ⟨after, run, left⟩ := parseToken_passes ⟨here, room, granted_calm calm _⟩ opt
        rw [@reached_advance definition _ _ _ room opt] at member
        have later := (List.mem_cons.mp member).resolve_left fun same => by simp [← same, other] at here
        rw [bind_of_ok _ run]
        exact ih _ (by rw [left, calm, List.drop_nil]) ⟨tok, later, other⟩
      · have positional : isOption first = false := by simpa using (not_or.mp room).1
        rw [show most - curarg = 0 by omega, reached_full positional] at member
        cases member

-- Otherwise only a failed allocation can end the program.
theorem parseArgs_clear {most curarg : Nat} (line : List Char) (opt : List CommandOpt)
    (clear : ∀ tok ∈ reached (most - curarg) (restTokens line), clashes definition tok = false) {e : Stop}
    {after : Session} (run : parseArgs definition most curarg opt line s = .error e after) :
    e = .nullPointer ∧ true ∈ s.faults := by
  induction line using restTokens.induct generalizing curarg opt s with
  | case1 =>
    rw [parseArgs] at run
    cases run
  | case2 c rest ih =>
    rw [restTokens] at clear
    rw [parseArgs] at run
    generalize (nexttoken (c :: rest)).1 = tok at *
    by_cases passes : Passes definition most curarg tok s
    · obtain ⟨middle, ran, left⟩ := parseToken_passes passes opt
      rw [bind_of_ok _ ran] at run
      rw [@reached_advance definition _ _ _ passes.room opt] at clear
      obtain ⟨stop, failing⟩ := ih _ (fun each member => clear each (List.mem_cons_of_mem tok member)) run
      rw [left] at failing
      exact ⟨stop, List.mem_of_mem_drop failing⟩
    · obtain ⟨middle, ran | ⟨ran, clash⟩ | ⟨ran, failing⟩⟩ := parseToken_stops passes opt
      · rw [bind_of_ok _ ran] at run
        cases run
      · refine absurd (clear tok ?_) (by simp [clash])
        rw [clashes, Bool.and_eq_true] at clash
        rw [reached_option clash.1]
        exact List.mem_cons_self
      · rw [bind_of_error _ ran] at run
        cases run
        exact ⟨rfl, failing⟩

end Runs

end Netcf.Tool
