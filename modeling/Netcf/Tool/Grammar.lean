import Netcf.Tool.Parsing

set_option autoImplicit false

-- Which lines parseline accepts, against the grammar that the tables of the commands describe.
namespace Netcf.Tool

open Shared.Faulty

section Accepting

variable {commands : List CommandDef} {definition : CommandDef} {s : Session} {line : List Char}

def Ordered (opts : List CommandOptDef) : Prop :=
  opts.Pairwise fun former latter => former.tag = .param → latter.tag ≠ .arg

theorem total_eq (definition : CommandDef) :
    narg definition + definition.opts.countP (·.tag = .param) = total definition := by
  unfold narg total
  induction definition.opts with
  | nil => rfl
  | cons first rest ih =>
    rw [List.countP_cons, List.countP_cons, List.countP_cons, ← ih, CommandOptDef.isArg]
    cases first.tag <;> simp <;> omega

theorem countArgs_ordered {opts : List CommandOptDef} (ordered : Ordered opts) (narg nparam : Nat)
    (before : 0 < nparam → ∀ latter ∈ opts, latter.tag ≠ .arg) :
    countArgs opts narg nparam s =
      .ok (narg + opts.countP (·.tag = .arg), nparam + opts.countP (·.tag = .param)) s := by
  induction opts generalizing narg nparam with
  | nil => rfl
  | cons first rest ih =>
    obtain ⟨behind, later⟩ := List.pairwise_cons.mp ordered
    have tail : 0 < nparam → ∀ latter ∈ rest, latter.tag ≠ .arg := fun positive latter member =>
      before positive latter (List.mem_cons_of_mem _ member)
    rw [countArgs, List.countP_cons, List.countP_cons]
    cases tag : first.tag with
    | arg =>
      have none_before : ¬0 < nparam := fun positive => before positive first List.mem_cons_self tag
      rw [if_pos rfl, if_neg none_before, ih later _ _ tail]
      simp [Nat.add_assoc, Nat.add_comm 1]
    | param =>
      rw [if_neg (by simp), if_pos rfl, ih later _ _ fun _ latter member => behind latter member tag]
      simp [Nat.add_assoc, Nat.add_comm 1]
    | none | bool =>
      rw [if_neg (by simp), if_neg (by simp), ih later _ _ tail]
      simp

-- The tokens behind the first one.
def operands (line : List Char) : List (List Char) :=
  restTokens (nexttoken line).2

theorem parseline_unknown (unknown : lookupCmdDef commands (nexttoken line).1 = none) :
    ∃ after, parseline commands line s = .ok none after := by
  unfold parseline
  rw [unknown]
  dsimp only
  rw [bind_of_ok _ (complain_told _ s)]
  exact ⟨_, rfl⟩

theorem parseline_known (known : lookupCmdDef commands (nexttoken line).1 = some definition)
    (ordered : Ordered definition.opts) :
    parseline commands line s = (do
      match ← parseArgs definition (total definition) 0 [] (nexttoken line).2 with
      | none => return none
      | some (curarg, opt) =>
        if curarg < narg definition then
          complain ("Not enough arguments for " ++ definition.name ++ "\n")
          return none
        return some ⟨definition, opt⟩ : Call (Option Command)) s := by
  have counted := @countArgs_ordered s definition.opts ordered 0 0 fun positive => absurd positive (Nat.lt_irrefl 0)
  rw [Nat.zero_add, Nat.zero_add] at counted
  unfold parseline
  rw [known, ← total_eq]
  dsimp only
  rw [bind_of_ok _ counted]
  rfl

structure Accepted (definition : CommandDef) (toks : List (List Char)) (s : Session) : Prop
    extends Taken definition (total definition) toks s where
  enough : narg definition ≤ (positionals toks).length

theorem parseline_accepted (known : lookupCmdDef commands (nexttoken line).1 = some definition)
    (ordered : Ordered definition.opts) (accepted : Accepted definition (operands line) s) :
    ∃ after, parseline commands line s = .ok (some ⟨definition, entries definition (operands line)⟩) after := by
  obtain ⟨after, run⟩ := @parseArgs_taken definition s (total definition) 0 (nexttoken line).2 [] accepted.toTaken
  have enough := accepted.enough
  unfold operands at *
  rw [parseline_known known ordered, bind_of_ok _ run]
  dsimp only
  rw [if_neg (by omega), List.nil_append]
  exact ⟨after, rfl⟩

theorem parseline_refused (known : lookupCmdDef commands (nexttoken line).1 = some definition)
    (ordered : Ordered definition.opts) (refused : ¬Accepted definition (operands line) s) (command : Command)
    (after : Session) : parseline commands line s ≠ .ok (some command) after := by
  intro run
  rw [parseline_known known ordered] at run
  by_cases taken : Taken definition (total definition) (operands line) s
  · have few : ¬narg definition ≤ (positionals (operands line)).length := fun enough => refused ⟨taken, enough⟩
    obtain ⟨middle, ran⟩ := @parseArgs_taken definition s (total definition) 0 (nexttoken line).2 [] taken
    unfold operands at few
    rw [bind_of_ok _ ran] at run
    dsimp only at run
    rw [if_pos (by omega), bind_of_ok _ (complain_told _ middle)] at run
    cases run
  · obtain ⟨out, middle, ran, rest⟩ := bind_ok run
    cases out with
    | none => cases rest
    | some out => exact parseArgs_left _ _ taken out middle ran

end Accepting

section Grammar

structure Permitted (definition : CommandDef) (words : List (List Char)) : Prop where
  known : ∀ tok ∈ words, isOption tok = true →
    ∃ option ∈ definition.opts, option.tag = .bool ∧ option.name.toList = optionName tok
  enough : narg definition ≤ (positionals words).length
  fitting : (positionals words).length ≤ total definition

-- The options that the words ask for, and each argument at the place of its definition.
structure Bound (definition : CommandDef) (words : List (List Char)) (opt : List CommandOpt) : Prop where
  given : ∀ tok ∈ words, isOption tok = true → ∃ o ∈ opt, o.value = .bvalue ∧
    ∃ option, definition.opts[o.place]? = some option ∧ option.tag = .bool ∧ option.name.toList = optionName tok
  arguments : ∀ (k : Nat) (tok : List Char), (positionals words)[k]? = some tok →
    ∃ place, (definition.opts.findIdxs CommandOptDef.isArg)[k]? = some place ∧ ⟨place, .string tok⟩ ∈ opt

structure FollowsGrammar (commands : List CommandDef) (line : Line)
    (result : EStateM.Result Stop Session (Option Command)) : Prop where
  accepts : (∃ command after, result = .ok (some command) after) ↔
    ∃ definition, lookupCmdDef commands line.first.text = some definition ∧ Permitted definition line.words
  binds : ∀ command after, result = .ok (some command) after →
    lookupCmdDef commands line.first.text = some command.definition ∧
      Bound command.definition line.words command.opt

-- With one more for blanks that are left over at the end.
def Line.handed (line : Line) : List (List Char) :=
  line.words ++ if line.spare then [[]] else []

-- Lines of the grammar that the code takes: all arguments go to the first definition.
structure RightlyAccepted (definition : CommandDef) (line : Line) (s : Session) : Prop where
  known : ∀ tok ∈ line.words, isOption tok = true →
    (definition.opts.find? (·.name.toList = optionName tok)).any (·.tag = .bool) = true
  enough : narg definition ≤ (positionals line.words).length
  single : (positionals line.words).length ≤ 1
  fitting : (positionals line.handed).length ≤ total definition
  granted : Granted (entries definition line.handed).length s

structure RightlyRefused (definition : CommandDef) (line : Line) (s : Session) : Prop where
  refused : (∃ tok ∈ line.words, clashes definition tok = true) ∨
    (positionals line.handed).length < narg definition ∨ total definition < (positionals line.handed).length ∨
      ¬Granted (entries definition line.handed).length s
  outside : (∃ tok ∈ line.words, isOption tok = true ∧
      ∀ option ∈ definition.opts, option.name.toList = optionName tok → option.tag ≠ .bool) ∨
    (positionals line.words).length < narg definition ∨ total definition < (positionals line.words).length

variable {definition : CommandDef} {line : Line} {s : Session}

theorem first_text (line : Line) : (nexttoken line.text).1 = line.first.text :=
  (List.cons.inj (tokens_text line)).1

theorem operands_text (line : Line) : operands line.text = line.handed :=
  (List.cons.inj (tokens_text line)).2

theorem clashes_empty (definition : CommandDef) : clashes definition [] = false := rfl

theorem accepted_iff : Accepted definition (operands line.text) s ↔
    (∀ tok ∈ line.words, clashes definition tok = false) ∧ narg definition ≤ (positionals line.handed).length ∧
      (positionals line.handed).length ≤ total definition ∧ Granted (entries definition line.handed).length s := by
  rw [operands_text]
  constructor
  · intro accepted
    exact ⟨fun tok member => accepted.clear tok (List.mem_append_left _ member), accepted.enough,
      accepted.fitting, accepted.granted⟩
  · intro ⟨clear, enough, fitting, granted⟩
    refine ⟨⟨?_, fitting, granted⟩, enough⟩
    intro tok member
    rcases List.mem_append.mp member with word | spare
    · exact clear tok word
    · split_ifs at spare
      · rw [List.mem_singleton.mp spare]
        exact clashes_empty definition
      · cases spare

theorem positionals_handed (line : Line) : (positionals line.words).length ≤ (positionals line.handed).length := by
  unfold Line.handed positionals
  rw [List.filter_append, List.length_append]
  exact Nat.le_add_right _ _

theorem clear_iff {tok : List Char} : clashes definition tok = false ↔
    (isOption tok = true →
      ∀ found, definition.opts.find? (·.name.toList = optionName tok) = some found → found.tag = .bool) := by
  unfold clashes
  cases isOption tok with
  | false => simp
  | true =>
    cases definition.opts.find? (·.name.toList = optionName tok) with
    | none => simp
    | some found => simp

theorem known_iff {tok : List Char} (clear : clashes definition tok = false) (option : isOption tok = true) :
    (definition.opts.find? (·.name.toList = optionName tok)).any (·.tag = .bool) = true ↔
      ∃ d ∈ definition.opts, d.tag = .bool ∧ d.name.toList = optionName tok := by
  have boolean := clear_iff.mp clear option
  cases search : definition.opts.find? (·.name.toList = optionName tok) with
  | none =>
    rw [List.find?_eq_none] at search
    refine iff_of_false (by simp) ?_
    intro ⟨d, member, _, same⟩
    exact search d member (by simpa using same)
  | some found =>
    refine iff_of_true (by simpa using boolean found search) ?_
    exact ⟨found, List.mem_of_find?_eq_some search, boolean found search,
      by simpa using List.find?_some search⟩

theorem entry_positional {tok : List Char} (positional : isOption tok = false) :
    entry definition tok = some ⟨nextArg definition.opts 0, .string tok⟩ := by
  rw [entry, positional, if_neg Bool.false_ne_true]

-- An argument always goes to the definition that the first loop stops at.
theorem place_of_entry {toks : List (List Char)} {place : Nat} {tok : List Char}
    (member : ⟨place, .string tok⟩ ∈ entries definition toks) : place = nextArg definition.opts 0 := by
  obtain ⟨each, _, entered⟩ := List.mem_filterMap.mp member
  unfold entry at entered
  split_ifs at entered
  · obtain ⟨found, _, same⟩ := Option.map_eq_some_iff.mp entered
    cases same
  · cases entered
    rfl

theorem first_argument (some_argument : 0 < total definition) :
    (definition.opts.findIdxs CommandOptDef.isArg)[0]? = some (nextArg definition.opts 0) := by
  have from_any : ∀ (opts : List CommandOptDef) (start : Nat), 0 < opts.countP CommandOptDef.isArg →
      (opts.findIdxs CommandOptDef.isArg start)[0]? = some (start + opts.findIdx CommandOptDef.isArg) := by
    intro opts
    induction opts with
    | nil => exact fun start positive => absurd positive (Nat.lt_irrefl 0)
    | cons first rest ih =>
      intro start positive
      rw [List.findIdxs_cons, List.findIdx_cons]
      cases here : first.isArg with
      | true => rfl
      | false =>
        rw [List.countP_cons_of_neg (by simp [here])] at positive
        rw [if_neg Bool.false_ne_true, ih (start + 1) positive, cond_false]
        congr 1
        omega
  exact from_any definition.opts 0 some_argument

theorem bound_of_accepted (accepted : RightlyAccepted definition line s) :
    Bound definition line.words (entries definition line.handed) := by
  have entered : ∀ {tok o}, tok ∈ line.words → entry definition tok = some o →
      o ∈ entries definition line.handed := fun member found =>
    List.mem_filterMap.mpr ⟨_, List.mem_append_left _ member, found⟩
  constructor
  · intro tok member option
    have known := accepted.known tok member option
    rw [← findOpt_find _ 0] at known
    cases search : findOpt (optionName tok) 0 definition.opts with
    | none =>
      rw [search] at known
      cases known
    | some found =>
      rw [search] at known
      obtain ⟨_, at_place, same⟩ := findOpt_place search
      refine ⟨⟨found.1, .bvalue⟩, entered member ?_, rfl, found.2, at_place, by simpa using known, same⟩
      rw [entry, if_pos option, search]
      rfl
  · intro k tok at_place
    obtain ⟨bound, _⟩ := List.getElem?_eq_some_iff.mp at_place
    have single := accepted.single
    have zero : k = 0 := by omega
    have fitting := (positionals_handed line).trans accepted.fitting
    obtain ⟨member, positional⟩ := List.mem_filter.mp (List.mem_of_getElem? at_place)
    rw [zero]
    exact ⟨_, first_argument (by omega), entered member (entry_positional (by simpa using positional))⟩

theorem single_of_bound (bound : Bound definition line.words (entries definition line.handed)) :
    (positionals line.words).length ≤ 1 := by
  by_contra several
  have first := bound.arguments 0 _ (List.getElem?_eq_getElem (by omega))
  have second := bound.arguments 1 _ (List.getElem?_eq_getElem (by omega))
  obtain ⟨place, at_first, member⟩ := first
  obtain ⟨other, at_second, also⟩ := second
  have same : place = other := (place_of_entry member).trans (place_of_entry also).symm
  have apart : (definition.opts.findIdxs CommandOptDef.isArg).Nodup := List.nodup_findIdxs
  obtain ⟨in_bounds, _⟩ := List.getElem?_eq_some_iff.mp at_first
  have equal := (List.getElem?_inj in_bounds apart).mp (at_first.trans (same ▸ at_second.symm))
  omega

theorem accepted_of_rightly (accepted : RightlyAccepted definition line s) :
    Accepted definition (operands line.text) s := by
  refine accepted_iff.mpr
    ⟨?_, accepted.enough.trans (positionals_handed line), accepted.fitting, accepted.granted⟩
  intro tok member
  refine clear_iff.mpr fun option found search => ?_
  have known := accepted.known tok member option
  rw [search] at known
  simpa using known

theorem not_accepted_of_rightly (refused : RightlyRefused definition line s) :
    ¬Accepted definition (operands line.text) s := by
  intro accepted
  obtain ⟨clear, enough, fitting, granted⟩ := accepted_iff.mp accepted
  rcases refused.refused with ⟨tok, member, clash⟩ | few | many | failing
  · rw [clear tok member] at clash
    cases clash
  · omega
  · omega
  · exact failing granted

theorem not_permitted_iff : ¬Permitted definition line.words ↔
    (∃ tok ∈ line.words, isOption tok = true ∧
      ∀ option ∈ definition.opts, option.name.toList = optionName tok → option.tag ≠ .bool) ∨
    (positionals line.words).length < narg definition ∨ total definition < (positionals line.words).length := by
  constructor
  · intro outside
    by_contra inside
    push Not at inside
    obtain ⟨known, enough, fitting⟩ := inside
    refine outside ⟨fun tok member option => ?_, enough, fitting⟩
    obtain ⟨d, listed, same, boolean⟩ := known tok member option
    exact ⟨d, listed, boolean, same⟩
  · intro outside permitted
    obtain ⟨known, enough, fitting⟩ := permitted
    rcases outside with ⟨tok, member, option, unknown⟩ | few | many
    · obtain ⟨d, listed, boolean, same⟩ := known tok member option
      exact unknown d listed same boolean
    · omega
    · omega

section Line

variable {commands : List CommandDef} (search : lookupCmdDef commands line.first.text = some definition)
include search

theorem known_first : lookupCmdDef commands (nexttoken line.text).1 = some definition := by
  rw [first_text, search]

theorem permitted_iff : (∃ other, lookupCmdDef commands line.first.text = some other ∧ Permitted other line.words) ↔
    Permitted definition line.words := by
  simp [search]

variable (ordered : Ordered definition.opts)
include ordered

theorem follows_of_accepted (accepted : RightlyAccepted definition line s) :
    FollowsGrammar commands line (parseline commands line.text s) := by
  have taken := accepted_of_rightly accepted
  obtain ⟨last, run⟩ := parseline_accepted (known_first search) ordered taken
  have clear := (accepted_iff.mp taken).1
  have permitted : Permitted definition line.words :=
    ⟨fun tok member option => (known_iff (clear tok member) option).mp (accepted.known tok member option),
      accepted.enough, (positionals_handed line).trans accepted.fitting⟩
  refine ⟨?_, ?_⟩
  · rw [permitted_iff search]
    exact iff_of_true ⟨_, last, run⟩ permitted
  · intro command after ran
    cases run.symm.trans ran
    rw [operands_text]
    exact ⟨search, bound_of_accepted accepted⟩

theorem follows_of_refused (refused : RightlyRefused definition line s) :
    FollowsGrammar commands line (parseline commands line.text s) := by
  have never := parseline_refused (known_first search) ordered (not_accepted_of_rightly refused)
  refine ⟨?_, fun command after run => absurd run (never command after)⟩
  rw [permitted_iff search]
  refine iff_of_false ?_ (not_permitted_iff.mpr refused.outside)
  intro ⟨command, after, run⟩
  exact never command after run

theorem rightly_of_follows (follows : FollowsGrammar commands line (parseline commands line.text s)) :
    RightlyAccepted definition line s ∨ RightlyRefused definition line s := by
  obtain ⟨accepts, binds⟩ := follows
  rw [permitted_iff search] at accepts
  by_cases accepted : Accepted definition (operands line.text) s
  · obtain ⟨last, run⟩ := parseline_accepted (known_first search) ordered accepted
    have permitted := accepts.mp ⟨_, last, run⟩
    obtain ⟨clear, _, fitting, granted⟩ := accepted_iff.mp accepted
    have bound := (binds _ last run).2
    rw [operands_text] at bound
    exact Or.inl ⟨fun tok member option =>
      (known_iff (clear tok member) option).mpr (permitted.known tok member option),
      permitted.enough, single_of_bound bound, fitting, granted⟩
  · refine Or.inr ⟨?_, not_permitted_iff.mp ?_⟩
    · rw [accepted_iff] at accepted
      by_contra inside
      push Not at inside
      obtain ⟨clear, enough, fitting, granted⟩ := inside
      exact accepted ⟨fun tok member => by simpa using clear tok member, enough, fitting, granted⟩
    · intro permitted
      obtain ⟨command, after, run⟩ := accepts.mpr permitted
      exact parseline_refused (known_first search) ordered accepted command after run

end Line

-- Defects: an option of no known name is only complained about, every argument is bound to the first definition,
-- and blanks left over at the end count as an empty argument.
theorem parseline_follows_grammar_iff {commands : List CommandDef}
    (ordered : ∀ definition ∈ commands, Ordered definition.opts) (line : Line) (s : Session) :
    FollowsGrammar commands line (parseline commands line.text s) ↔
      ∀ definition, lookupCmdDef commands line.first.text = some definition →
        RightlyAccepted definition line s ∨ RightlyRefused definition line s := by
  cases search : lookupCmdDef commands line.first.text with
  | none =>
    obtain ⟨last, run⟩ := @parseline_unknown commands s line.text (by rw [first_text, search])
    refine iff_of_true ⟨?_, ?_⟩ fun definition found => by cases found
    · refine iff_of_false ?_ (by rw [search]; simp)
      intro ⟨command, after, ran⟩
      cases run.symm.trans ran
    · intro command after ran
      cases run.symm.trans ran
  | some definition =>
    have in_order := ordered definition (List.mem_of_find?_eq_some search)
    constructor
    · intro follows other found
      cases found
      exact rightly_of_follows search in_order follows
    · intro right
      rcases right definition rfl with accepted | refused
      · exact follows_of_accepted search in_order accepted
      · exact follows_of_refused search in_order refused

theorem commands_ordered : ∀ definition ∈ commands, Ordered definition.opts := by
  unfold Ordered
  decide

def blanks (n : Nat) : Blanks where
  chars := List.replicate n ' '
  blank := fun c member => by
    rw [List.eq_of_mem_replicate member]
    rfl

def ifupEth0 (spaces : Nat) : Line where
  leading := blanks 0
  first := ⟨"ifup".toList, none, by decide, by simp [isblank], by simp [isQuote]⟩
  rest := [(⟨blanks 1, by decide⟩, ⟨"eth0".toList, none, by decide, by simp [isblank], by simp [isQuote]⟩)]
  trailing := blanks spaces

theorem parseline_follows_grammar_iff_ifup :
    FollowsGrammar commands (ifupEth0 1) (parseline commands (ifupEth0 1).text ⟨[], []⟩) := by
  refine (parseline_follows_grammar_iff commands_ordered (ifupEth0 1) ⟨[], []⟩).mpr ?_
  intro definition found
  have same : lookupCmdDef commands (ifupEth0 1).first.text = some cmdIfUp := by decide
  cases same.symm.trans found
  exact Or.inl ⟨by decide, by decide, by decide, by decide, granted_calm rfl _⟩

theorem spare_blanks_refused :
    ¬FollowsGrammar commands (ifupEth0 2) (parseline commands (ifupEth0 2).text ⟨[], []⟩) := by
  intro follows
  have known : lookupCmdDef commands (ifupEth0 2).first.text = some cmdIfUp := by decide
  obtain ⟨command, after, run⟩ := follows.accepts.mpr ⟨cmdIfUp, known, by decide, by decide, by decide⟩
  rw [← first_text] at known
  refine parseline_refused known (commands_ordered cmdIfUp (by decide)) ?_ command after run
  rw [accepted_iff]
  intro ⟨_, _, fitting, _⟩
  exact absurd fitting (by decide)

end Grammar

section Aborting

variable {definition : CommandDef} {s : Session} {line : List Char}

-- Where parseline succeeds, the handler gets its arguments, and only a failed allocation ends the program.
def Unharmed (s : Session) : EStateM.Result Stop Session (Option Command) → Prop
  | .ok none _ => True
  | .ok (some command) after =>
    ∀ name ∈ command.definition.handler, ∃ tok, argValue command name after = .ok tok after
  | .error stop _ => stop = .nullPointer ∧ true ∈ s.faults

theorem handlers_ask : ∀ definition ∈ commands, ∀ name ∈ definition.handler,
    definition.opts[nextArg definition.opts 0]? = some ⟨.arg, name⟩ ∧
      ∀ option ∈ definition.opts, option.name = name → option.tag = .arg := by
  decide

-- The first entry of that name is none of a boolean option.
theorem argValue_found {toks : List (List Char)} {name : String}
    (first : definition.opts[nextArg definition.opts 0]? = some ⟨.arg, name⟩)
    (own : ∀ option ∈ definition.opts, option.name = name → option.tag = .arg)
    (accepted : Accepted definition toks s) (after : Session) :
    ∃ tok, argValue ⟨definition, entries definition toks⟩ name after = .ok tok after := by
  have mandatory : 0 < narg definition :=
    List.countP_pos_iff.mpr ⟨_, List.mem_of_getElem? first, rfl⟩
  have enough := accepted.enough
  obtain ⟨tok, member⟩ := List.exists_mem_of_length_pos (show 0 < (positionals toks).length by omega)
  obtain ⟨given, positional⟩ := List.mem_filter.mp member
  have entered : ⟨nextArg definition.opts 0, .string tok⟩ ∈ entries definition toks :=
    List.mem_filterMap.mpr ⟨tok, given, entry_positional (by simpa using positional)⟩
  have named_there : named definition name ⟨nextArg definition.opts 0, .string tok⟩ = true := by
    rw [named, first]
    exact decide_eq_true rfl
  unfold argValue paramValue
  cases search : (entries definition toks).find? (named definition name) with
  | none => exact absurd named_there (List.find?_eq_none.mp search _ entered)
  | some o =>
    have here := List.find?_some search
    obtain ⟨each, listed, source⟩ := List.mem_filterMap.mp (List.mem_of_find?_eq_some search)
    unfold entry at source
    split_ifs at source with option
    · obtain ⟨found, lookup, same⟩ := Option.map_eq_some_iff.mp source
      obtain ⟨_, at_place, _⟩ := findOpt_place lookup
      have boolean := clear_iff.mp (accepted.clear each listed) option found.2
        (by rw [← findOpt_find _ 0, lookup]; rfl)
      have named_so : found.2.name = name := by
        rw [← same, named, show definition.opts[found.1]? = some found.2 from at_place] at here
        simpa using here
      have argument := own found.2 (List.mem_of_getElem? at_place) named_so
      rw [boolean] at argument
      cases argument
    · cases source
      exact ⟨each, rfl⟩

theorem parseline_clashes {commands : List CommandDef}
    (known : lookupCmdDef commands (nexttoken line).1 = some definition) (ordered : Ordered definition.opts)
    (calm : s.faults = []) (clash : ∃ tok ∈ reached (total definition) (operands line), clashes definition tok = true) :
    ∃ after, parseline commands line s = .error .assertion after := by
  obtain ⟨after, run⟩ :=
    @parseArgs_clashes definition s (total definition) 0 (nexttoken line).2 [] calm clash
  rw [parseline_known known ordered, bind_of_error _ run]
  exact ⟨after, rfl⟩

theorem unharmed_accepted (known : lookupCmdDef commands (nexttoken line).1 = some definition)
    (accepted : Accepted definition (operands line) s) : Unharmed s (parseline commands line s) := by
  have listed := List.mem_of_find?_eq_some known
  obtain ⟨after, run⟩ := parseline_accepted known (commands_ordered definition listed) accepted
  rw [run]
  intro name asked
  obtain ⟨first, own⟩ := handlers_ask definition listed name asked
  exact argValue_found first own accepted after

theorem unharmed_refused (known : lookupCmdDef commands (nexttoken line).1 = some definition)
    (refused : ¬Accepted definition (operands line) s)
    (clear : ∀ tok ∈ reached (total definition) (operands line), clashes definition tok = false) :
    Unharmed s (parseline commands line s) := by
  have ordered := commands_ordered definition (List.mem_of_find?_eq_some known)
  have never := parseline_refused known ordered refused
  cases run : parseline commands line s with
  | ok result after =>
    cases result with
    | none => trivial
    | some command => exact absurd run (never command after)
  | error stop after =>
    rw [parseline_known known ordered] at run
    rcases bind_error run with first | ⟨out, middle, _, second⟩
    · exact parseArgs_clear _ _ clear first
    · cases out with
      | none => cases second
      | some out =>
        dsimp only at second
        split_ifs at second
        · rw [bind_of_ok _ (complain_told _ middle)] at second
          cases second
        · cases second

-- An option is compared with the names of arguments, too, and then stops at the assertion.
theorem no_line_aborts_iff (line : List Char) :
    (∀ s, Unharmed s (parseline commands line s)) ↔
      ∀ definition, lookupCmdDef commands (nexttoken line).1 = some definition →
        ∀ tok ∈ reached (total definition) (operands line), clashes definition tok = false := by
  constructor
  · intro safe definition known tok member
    by_contra clash
    rw [Bool.not_eq_false] at clash
    have ordered := commands_ordered definition (List.mem_of_find?_eq_some known)
    obtain ⟨after, run⟩ := @parseline_clashes definition ⟨[], []⟩ line commands known ordered rfl ⟨tok, member, clash⟩
    have harmed := safe ⟨[], []⟩
    rw [run] at harmed
    cases harmed.1
  · intro clear s
    cases known : lookupCmdDef commands (nexttoken line).1 with
    | none =>
      obtain ⟨after, run⟩ := @parseline_unknown commands s line known
      rw [run]
      trivial
    | some definition =>
      by_cases accepted : Accepted definition (operands line) s
      · exact unharmed_accepted known accepted
      · exact unharmed_refused known accepted (clear definition known)

def dumpxmlName : List Char :=
  "dumpxml --name".toList

theorem argument_name_aborts : ¬∀ s, Unharmed s (parseline commands dumpxmlName s) := by
  intro safe
  have known : lookupCmdDef commands (nexttoken dumpxmlName).1 = some cmdDumpXml := by decide
  have ordered := commands_ordered cmdDumpXml (by decide)
  have behind : restTokens (nexttoken dumpxmlName).2 = ["--name".toList] := by
    rw [show (nexttoken dumpxmlName).2 = '-' :: "-name".toList by decide, restTokens,
      show (nexttoken ('-' :: "-name".toList)).2 = [] by decide, restTokens]
    decide
  have clash : ∃ tok ∈ reached (total cmdDumpXml) (operands dumpxmlName), clashes cmdDumpXml tok = true :=
    ⟨"--name".toList, by rw [operands, behind]; decide, by decide⟩
  obtain ⟨after, run⟩ := @parseline_clashes cmdDumpXml ⟨[], []⟩ dumpxmlName commands known ordered rfl clash
  have harmed := safe ⟨[], []⟩
  rw [run] at harmed
  cases harmed.1

end Aborting

end Netcf.Tool
