import Netcf.Linux.Atomicity
import Netcf.Posix.Codes
import Netcf.Shared.Attempts

set_option autoImplicit false

-- drv_if_up and drv_if_down of the drivers with bridges: ifup and ifdown for the ports of a bridge and
-- for the interface itself.
namespace Netcf.Linux.Switching

open Shared.Faulty Shared.Attempts
open Posix (Environment Process forks runCode)

-- The driver in its process. CALLS counts those of run_program, and STARTED are the commands that got a child.
structure Caller (C D : Type) where
  driver : Ncf C D
  process : Process
  calls : Nat
  started : List (List String)

-- What ends a program is in the report of the process.
abbrev Program (C D : Type) := EStateM Unit (Caller C D)

variable {C D F : Type}

def errBail : Program C D Unit := do
  if (← get).process.report.isSome then throw ()

def reportError (code : Errcode) (details : String) : Program C D Unit :=
  modify fun s => { s with process := (Posix.reportError code details s.process).2 }

-- A query that fails reports its error and leaves it to the caller to look for one.
def asking {α : Type} (fallback : α) (query : Api C D α) : Program C D α := fun s =>
  match query s.driver with
  | .ok a after => .ok a { s with driver := after }
  | .error code after =>
    .ok fallback { s with driver := after, process := (Posix.reportError code "" s.process).2 }

section Driver

variable (env : Nat → Environment)

def run1 (prog arg : String) : Program C D Unit :=
  modify fun s => { s with
    process := (Posix.run1 (env s.calls) prog arg s.process).2
    calls := s.calls + 1
    started := s.started ++ if forks (env s.calls) = true then [[prog, arg]] else [] }

def runEach (prog : String) (args : List String) : Program C D Unit :=
  args.forM fun arg => do
    run1 env prog arg
    errBail

variable (augeas : Augeas C D) (backend : Backend C D F)

def runSlaves (prog name : String) : Program C D Unit := do
  if ← asking false (backend.isBridge augeas name) then
    let slaves ← asking [] (backend.bridgeSlaves augeas name)
    errBail
    runEach env prog slaves

-- ACTIVE is what if_is_active finds when the commands are through.
def drvIfUp (active : Bool) (nif : NetcfIf) : Program C D Unit := do
  runSlaves env augeas backend "ifup" nif.name
  run1 env "ifup" nif.name
  errBail
  if !active then
    reportError .other ("interface " ++ nif.name ++ " failed to become active - possible disconnected cable.")
    throw ()

def drvIfDown (nif : NetcfIf) : Program C D Unit := do
  run1 env "ifdown" nif.name
  errBail
  runSlaves env augeas backend "ifdown" nif.name

def ret : EStateM.Result Unit (Caller C D) Unit → Int
  | .ok _ _ => 0
  | .error _ _ => -1

def apiEntry (faults : List Bool) (s : Caller C D) : Caller C D :=
  { s with driver := enter faults s.driver, process := { s.process with report := none } }

def ncfIfUp (active : Bool) (nif : NetcfIf) (faults : List Bool) (s : Caller C D) : EStateM.Result Unit (Caller C D) Unit :=
  drvIfUp env augeas backend active nif (apiEntry faults s)

def ncfIfDown (nif : NetcfIf) (faults : List Bool) (s : Caller C D) : EStateM.Result Unit (Caller C D) Unit :=
  drvIfDown env augeas backend nif (apiEntry faults s)

end Driver

section Runs

variable {env : Nat → Environment} {prog arg : String} {args front back : List String} {s : Caller C D}

def works (env : Nat → Environment) (n : Nat) : Bool :=
  (runCode (env n)).isNone

def starts (env : Nat → Environment) (n : Nat) : Bool :=
  forks (env n)

-- The commands have been run in turn, up to the first that has not worked.
structure Ran (env : Nat → Environment) (prog : String) (args : List String) (s : Caller C D)
    (result : EStateM.Result Unit (Caller C D) Unit) : Prop where
  done : ret result = 0 ↔ allWork (works env) s.calls args = true
  started : (final result).started = s.started ++ (tried (works env) (starts env) s.calls args).map fun arg => [prog, arg]
  clear : ret result = 0 → (final result).process.report = none ∧ (final result).calls = s.calls + args.length

theorem forks_of_runCode {environment : Environment} (fine : (runCode environment).isNone = true) :
    forks environment = true := by
  unfold runCode at fine
  split_ifs at fine with memory child
  · cases fine
  · exact (Bool.and_eq_true_iff.mp child).1
  · cases fine

theorem run1_started (env : Nat → Environment) (n : Nat) (prog arg : String) :
    (if forks (env n) = true then [[prog, arg]] else []) =
      (tried (works env) (starts env) n [arg]).map fun arg => [prog, arg] := by
  unfold tried starts
  cases fine : works env n with
  | true =>
    rw [if_pos (forks_of_runCode fine), if_pos rfl]
    rfl
  | false =>
    rw [if_neg Bool.false_ne_true]
    cases forks (env n) <;> rfl

theorem asking_ok {α : Type} {fallback a : α} {query : Api C D α} {after : Ncf C D} (answer : query s.driver = .ok a after) :
    asking fallback query s = .ok a { s with driver := after } := by
  unfold asking
  rw [answer]

theorem asking_error {α : Type} {fallback : α} {query : Api C D α} {code : Errcode} {after : Ncf C D}
    (failed : query s.driver = .error code after) :
    asking fallback query s =
      .ok fallback { s with driver := after, process := (Posix.reportError code "" s.process).2 } := by
  unfold asking
  rw [failed]

theorem errBail_clear (clear : s.process.report = none) : (errBail : Program C D Unit) s = .ok () s := by
  unfold errBail
  rw [bind_of_ok _ (get_run s), clear]
  rfl

theorem errBail_said (said : s.process.report.isSome = true) : (errBail : Program C D Unit) s = .error () s := by
  unfold errBail
  rw [bind_of_ok _ (get_run s), said]
  rfl

theorem errBail_ok {after : Caller C D} (run : (errBail : Program C D Unit) s = .ok () after) : after = s := by
  cases said : s.process.report with
  | none =>
    rw [errBail_clear said] at run
    cases run
    rfl
  | some report =>
    rw [errBail_said (by rw [said]; rfl)] at run
    cases run

-- The state after a command.
def stepped (env : Nat → Environment) (prog arg : String) (s : Caller C D) : Caller C D :=
  { s with
    process := (Posix.run1 (env s.calls) prog arg s.process).2
    calls := s.calls + 1
    started := s.started ++ if forks (env s.calls) = true then [[prog, arg]] else [] }

theorem run1_run (env : Nat → Environment) (prog arg : String) (s : Caller C D) :
    (run1 env prog arg : Program C D Unit) s = .ok () (stepped env prog arg s) := rfl

theorem ran_one (clear : s.process.report = none) :
    Ran env prog [arg] s ((run1 env prog arg >>= fun _ => errBail : Program C D Unit) s) := by
  have told : (stepped env prog arg s).process.report.map (·.code) = runCode (env s.calls) :=
    Posix.runProgram_code (env s.calls) [prog, arg] clear
  have one : allWork (works env) s.calls [arg] = works env s.calls := Bool.and_true _
  have started : (stepped env prog arg s).started = s.started ++ _ :=
    congrArg (s.started ++ ·) (run1_started env s.calls prog arg)
  rw [bind_of_ok _ (run1_run env prog arg s)]
  cases said : (stepped env prog arg s).process.report with
  | none =>
    rw [said] at told
    rw [errBail_clear said]
    refine ⟨iff_of_true rfl ?_, started, fun _ => ⟨said, rfl⟩⟩
    rw [one, works, ← told]
    rfl
  | some report =>
    rw [said] at told
    rw [errBail_said (by rw [said]; rfl)]
    refine ⟨iff_of_false (by simp [ret]) ?_, started, fun done => by cases done⟩
    rw [one, works, ← told]
    exact Bool.false_ne_true

theorem Ran.bind {first second : Program C D Unit} (one : Ran env prog front s (first s))
    (two : ∀ after, first s = .ok () after → Ran env prog back after (second after)) :
    Ran env prog (front ++ back) s ((first >>= fun _ => second) s) := by
  cases run : first s with
  | error e after =>
    rw [run] at one
    have failed : ¬ allWork (works env) s.calls front = true := fun all => by simpa [ret] using one.done.mpr all
    rw [bind_of_error _ run]
    refine ⟨iff_of_false (by simp [ret]) ?_, ?_, fun done => by cases done⟩
    · rw [allWork_append, Bool.and_eq_true]
      exact fun all => failed all.1
    · rw [tried_append, if_neg failed]
      exact one.started
  | ok u after =>
    rw [run] at one
    have all := one.done.mp rfl
    have calls : after.calls = s.calls + front.length := (one.clear rfl).2
    have first : after.started = s.started ++ (tried (works env) (starts env) s.calls front).map fun arg =>
      [prog, arg] := one.started
    obtain ⟨done, started, clear⟩ := two after run
    rw [calls] at done started clear
    rw [bind_of_ok _ run]
    refine ⟨?_, ?_, ?_⟩
    · rw [allWork_append, all, Bool.true_and]
      exact done
    · rw [started, first, tried_all all, tried_append, if_pos all, List.map_append, List.append_assoc]
    · rw [List.length_append, ← Nat.add_assoc]
      exact clear

theorem ran_nothing (clear : s.process.report = none) : Ran env prog [] s ((pure () : Program C D Unit) s) :=
  ⟨iff_of_true rfl rfl, (List.append_nil _).symm, fun _ => ⟨clear, rfl⟩⟩

theorem runEach_ran (clear : s.process.report = none) : Ran env prog args s (runEach env prog args s) := by
  induction args generalizing s with
  | nil => exact ran_nothing clear
  | cons arg rest ih =>
    have one := @ran_one _ _ env prog arg s clear
    refine one.bind fun after run => ih ?_
    rw [run] at one
    exact (one.clear rfl).1

end Runs

section Slaves

variable {env : Nat → Environment} {augeas : Augeas C D} {backend : Backend C D F}
  {prog name : String} {s : Caller C D} {one two : Ncf C D} {bridge active : Bool} {slaves : List String}

-- What is_bridge and bridge_slaves answer: the latter is asked about bridges only.
def Answered (augeas : Augeas C D) (backend : Backend C D F) (name : String) (driver : Ncf C D) (slaves : List String) : Prop :=
  ∃ bridge one, backend.isBridge augeas name driver = .ok bridge one ∧
    if bridge = true then ∃ two, backend.bridgeSlaves augeas name one = .ok slaves two else slaves = []

theorem runSlaves_ran (answered : Answered augeas backend name s.driver slaves) (clear : s.process.report = none) :
    Ran env prog slaves s (runSlaves env augeas backend prog name s) := by
  obtain ⟨bridge, one, recognised, listed⟩ := answered
  unfold runSlaves
  rw [bind_of_ok _ (asking_ok recognised)]
  cases bridge with
  | false =>
    rw [if_neg Bool.false_ne_true] at listed ⊢
    rw [listed]
    obtain ⟨done, started, final⟩ := @ran_nothing _ _ env prog { s with driver := one } clear
    exact ⟨done, started, final⟩
  | true =>
    rw [if_pos rfl] at listed ⊢
    obtain ⟨two, listed⟩ := listed
    rw [bind_of_ok _ (asking_ok listed), bind_of_ok _ (@errBail_clear _ _ { s with driver := two } clear)]
    obtain ⟨done, started, final⟩ := @runEach_ran _ _ env prog slaves { s with driver := two } clear
    exact ⟨done, started, final⟩

theorem ncfIfUp_ran {faults : List Bool} {nif : NetcfIf}
    (answered : Answered augeas backend nif.name (enter faults s.driver) slaves) :
    (ret (ncfIfUp env augeas backend active nif faults s) = 0 ↔
        allWork (works env) s.calls (slaves ++ [nif.name]) = true ∧ active = true) ∧
      (final (ncfIfUp env augeas backend active nif faults s)).started = s.started ++
        (tried (works env) (starts env) s.calls (slaves ++ [nif.name])).map fun name => ["ifup", name] := by
  have first : Ran env "ifup" slaves (apiEntry faults s)
      (runSlaves env augeas backend "ifup" nif.name (apiEntry faults s)) := runSlaves_ran answered rfl
  have commands := first.bind fun after run => @ran_one _ _ env "ifup" nif.name after (by
    rw [run] at first
    exact (first.clear rfl).1)
  unfold ncfIfUp drvIfUp
  rw [← bind_assoc, ← bind_assoc, bind_assoc (runSlaves env augeas backend "ifup" nif.name)]
  cases run : (runSlaves env augeas backend "ifup" nif.name >>= fun _ => run1 env "ifup" nif.name >>= fun _ => errBail)
      (apiEntry faults s) with
  | error e after =>
    rw [run] at commands
    rw [bind_of_error _ run]
    refine ⟨iff_of_false (by simp [ret]) fun all => ?_, commands.started⟩
    simpa [ret] using commands.done.mpr all.1
  | ok u after =>
    rw [run] at commands
    rw [bind_of_ok _ run]
    have all := commands.done.mp rfl
    cases active with
    | true => exact ⟨iff_of_true rfl ⟨all, rfl⟩, commands.started⟩
    | false => exact ⟨iff_of_false (show ¬ (-1 : Int) = 0 by decide) (by simp), commands.started⟩

theorem ncfIfDown_ran {faults : List Bool} {nif : NetcfIf}
    (answered : Answered augeas backend nif.name (enter faults s.driver) slaves) :
    Ran env "ifdown" (nif.name :: slaves) (apiEntry faults s) (ncfIfDown env augeas backend nif faults s) := by
  have first := @ran_one _ _ env "ifdown" nif.name (apiEntry faults s) rfl
  unfold ncfIfDown drvIfDown
  rw [← bind_assoc]
  refine first.bind fun after run => runSlaves_ran ?_ ?_
  · rw [bind_of_ok _ (run1_run env "ifdown" nif.name _)] at run
    rw [errBail_ok run]
    exact answered
  · rw [run] at first
    exact (first.clear rfl).1

def caller (driver : Ncf C D) (process : Process) : Caller C D :=
  ⟨driver, process, 0, []⟩

-- The ports come up before the bridge and go down after it, and the first command that fails is the last. 0 is
-- returned for a whole list of commands that have all succeeded only.
structure Switched (env : Nat → Environment) (active : Bool) (name : String) (ports : List String)
    (up down : EStateM.Result Unit (Caller C D) Unit) : Prop where
  raised : ret up = 0 ↔ (∀ i ≤ ports.length, works env i = true) ∧ active = true
  brought : (final up).started = (tried (works env) (starts env) 0 (ports ++ [name])).map fun name => ["ifup", name]
  lowered : ret down = 0 ↔ ∀ i ≤ ports.length, works env i = true
  taken : (final down).started = (tried (works env) (starts env) 0 (name :: ports)).map fun name => ["ifdown", name]

theorem switched {driver : Ncf C D} {process : Process} {faults : List Bool} {nif : NetcfIf}
    (answered : Answered augeas backend nif.name (enter faults driver) slaves) :
    Switched env active nif.name slaves (ncfIfUp env augeas backend active nif faults (caller driver process))
      (ncfIfDown env augeas backend nif faults (caller driver process)) := by
  have all (list : List String) (length : list.length = slaves.length + 1) :
      allWork (works env) 0 list = true ↔ ∀ i ≤ slaves.length, works env i = true := by
    rw [allWork_iff, length]
    simp only [Nat.zero_add, Nat.lt_add_one_iff]
  obtain ⟨up, brought⟩ := @ncfIfUp_ran _ _ _ env augeas backend (caller driver process) active slaves faults nif answered
  have down := @ncfIfDown_ran _ _ _ env augeas backend (caller driver process) slaves faults nif answered
  refine ⟨?_, brought, ?_, down.started⟩
  · rw [up, caller, all _ (by simp)]
  · exact down.done.trans (all (nif.name :: slaves) rfl)

variable {faults : List Bool} {nif : NetcfIf} {code : Errcode} {asked : Ncf C D}

-- The error of is_bridge is found after the command that it should have kept from being run.
theorem ncfIfUp_unrecognised (failed : backend.isBridge augeas nif.name (enter faults s.driver) = .error code asked) :
    ret (ncfIfUp env augeas backend active nif faults s) = -1 ∧
      (final (ncfIfUp env augeas backend active nif faults s)).started =
        s.started ++ (if forks (env s.calls) = true then [["ifup", nif.name]] else []) ∧
      (final (ncfIfUp env augeas backend active nif faults s)).process.children =
        s.process.children ++ if forks (env s.calls) = true then (env s.calls).fork.toOption.toList else [] := by
  let unsure : Caller C D := { apiEntry faults s with driver := asked, process := { s.process with report := some ⟨code, ""⟩ } }
  have passed : runSlaves env augeas backend "ifup" nif.name (apiEntry faults s) = .ok () unsure := by
    unfold runSlaves
    rw [bind_of_ok _ (asking_error failed)]
    rfl
  obtain ⟨said, children⟩ := @Posix.runProgram_unheard (env s.calls) ["ifup", nif.name]
    { s.process with report := some ⟨code, ""⟩ } ⟨code, ""⟩ rfl
  have left : (errBail : Program C D Unit) (stepped env "ifup" nif.name unsure) =
      .error () (stepped env "ifup" nif.name unsure) := errBail_said said
  unfold ncfIfUp drvIfUp
  rw [bind_of_ok _ passed, bind_of_ok _ (run1_run env "ifup" nif.name unsure), bind_of_error _ left]
  exact ⟨rfl, rfl, children⟩

-- There it is not found at all.
theorem ncfIfDown_unrecognised (failed : backend.isBridge augeas nif.name (enter faults s.driver) = .error code asked) :
    (ret (ncfIfDown env augeas backend nif faults s) = 0 ↔ works env s.calls = true) ∧
      (ret (ncfIfDown env augeas backend nif faults s) = 0 →
        (final (ncfIfDown env augeas backend nif faults s)).process.report = some ⟨code, ""⟩) ∧
      (final (ncfIfDown env augeas backend nif faults s)).started =
        s.started ++ if forks (env s.calls) = true then [["ifdown", nif.name]] else [] := by
  have first := @ran_one _ _ env "ifdown" nif.name (apiEntry faults s) rfl
  have one : allWork (works env) s.calls [nif.name] = works env s.calls := Bool.and_true _
  have same := run1_started env s.calls "ifdown" nif.name
  unfold ncfIfDown drvIfDown
  rw [← bind_assoc]
  cases run : (run1 env "ifdown" nif.name >>= fun _ => errBail : Program C D Unit) (apiEntry faults s) with
  | error e after =>
    rw [run] at first
    rw [bind_of_error _ run]
    refine ⟨first.done.trans (Bool.eq_iff_iff.mp one), fun done => absurd done (by simp [ret]), ?_⟩
    rw [same]
    exact first.started
  | ok u after =>
    rw [run] at first
    obtain ⟨clear, _⟩ := first.clear rfl
    have driver : after.driver = enter faults s.driver := by
      rw [bind_of_ok _ (run1_run env "ifdown" nif.name _)] at run
      rw [errBail_ok run]
      rfl
    rw [bind_of_ok _ run]
    unfold runSlaves
    rw [← driver] at failed
    rw [bind_of_ok _ (asking_error failed)]
    refine ⟨iff_of_true rfl ((Bool.eq_iff_iff.mp one).mp (first.done.mp rfl)), fun _ => ?_, ?_⟩
    · change (after.process.report.or _) = _
      rw [show after.process.report = none from clear]
      rfl
    · rw [same]
      exact first.started

-- A bridge that is_bridge fails to recognise: ifup is run for it without its ports, and although -1 is returned
-- its child is left alone; ifdown is run for it, its ports stay up, and 0 is returned all the same.
structure Unrecognised (env : Nat → Environment) (name : String) (code : Errcode) (process : Process)
    (up down : EStateM.Result Unit (Caller C D) Unit) : Prop where
  refused : ret up = -1
  brought : (final up).started = if forks (env 0) = true then [["ifup", name]] else []
  left : (final up).process.children =
    process.children ++ if forks (env 0) = true then (env 0).fork.toOption.toList else []
  lowered : ret down = 0 ↔ works env 0 = true
  hidden : ret down = 0 → (final down).process.report.map (·.code) = some code
  taken : (final down).started = if forks (env 0) = true then [["ifdown", name]] else []

theorem unrecognised {driver : Ncf C D} {process : Process}
    (failed : backend.isBridge augeas nif.name (enter faults driver) = .error code asked) :
    Unrecognised env nif.name code process (ncfIfUp env augeas backend active nif faults (caller driver process))
      (ncfIfDown env augeas backend nif faults (caller driver process)) := by
  obtain ⟨refused, brought, left⟩ := @ncfIfUp_unrecognised _ _ _ env augeas backend (caller driver process) active faults
    nif code asked failed
  obtain ⟨lowered, hidden, taken⟩ := @ncfIfDown_unrecognised _ _ _ env augeas backend (caller driver process) faults
    nif code asked failed
  exact ⟨refused, brought, left, lowered, fun done => by rw [hidden done]; rfl, taken⟩

-- bridge_slaves fails, and runSlaves with it.
theorem runSlaves_unlisted (recognised : backend.isBridge augeas name s.driver = .ok true one)
    (failed : backend.bridgeSlaves augeas name one = .error code two) (clear : s.process.report = none) :
    runSlaves env augeas backend prog name s =
      .error () { s with driver := two, process := { s.process with report := some ⟨code, ""⟩ } } := by
  have said : (Posix.reportError code "" s.process).2 = { s.process with report := some ⟨code, ""⟩ } := by
    have kept : (Posix.reportError code "" s.process).2 =
        { s.process with report := s.process.report.or (some ⟨code, ""⟩) } := rfl
    rw [kept, clear]
    rfl
  unfold runSlaves
  rw [bind_of_ok _ (asking_ok recognised), if_pos rfl,
    bind_of_ok _ (@asking_error _ _ { s with driver := one } _ _ _ _ _ failed), said]
  exact bind_of_error _ (errBail_said rfl)

-- A bridge whose ports bridge_slaves fails to list: nothing is started for it by ncf_if_up, and ncf_if_down has
-- run ifdown for it alone by then. Both return -1.
structure Unlisted (env : Nat → Environment) (name : String) (code : Errcode)
    (up down : EStateM.Result Unit (Caller C D) Unit) : Prop where
  refused : ret up = -1
  reported : (final up).process.report.map (·.code) = some code
  brought : (final up).started = []
  stopped : ret down = -1
  taken : (final down).started = if forks (env 0) = true then [["ifdown", name]] else []

theorem unlisted {driver : Ncf C D} {process : Process}
    (recognised : backend.isBridge augeas nif.name (enter faults driver) = .ok true one)
    (failed : backend.bridgeSlaves augeas nif.name one = .error code two) :
    Unlisted env nif.name code (ncfIfUp env augeas backend active nif faults (caller driver process))
      (ncfIfDown env augeas backend nif faults (caller driver process)) := by
  have up : ncfIfUp env augeas backend active nif faults (caller driver process) = .error () _ :=
    bind_of_error _ (@runSlaves_unlisted _ _ _ env augeas backend "ifup" nif.name (apiEntry faults (caller driver process))
      one two code recognised failed rfl)
  have first := @ran_one _ _ env "ifdown" nif.name (apiEntry faults (caller driver process)) rfl
  have same := run1_started env 0 "ifdown" nif.name
  have down : ∃ after, ncfIfDown env augeas backend nif faults (caller driver process) = .error () after ∧
      after.started = [] ++ (tried (works env) (starts env) 0 [nif.name]).map fun name => ["ifdown", name] := by
    unfold ncfIfDown drvIfDown
    rw [← bind_assoc]
    cases run : (run1 env "ifdown" nif.name >>= fun _ => errBail : Program C D Unit)
        (apiEntry faults (caller driver process)) with
    | error e after =>
      rw [run] at first
      exact ⟨after, bind_of_error _ run, first.started⟩
    | ok u after =>
      rw [run] at first
      have entered : after.driver = enter faults driver := by
        rw [bind_of_ok _ (run1_run env "ifdown" nif.name _)] at run
        rw [errBail_ok run]
        rfl
      rw [← entered] at recognised
      exact ⟨_, (bind_of_ok _ run).trans (runSlaves_unlisted recognised failed (first.clear rfl).1), first.started⟩
  obtain ⟨after, down, started⟩ := down
  rw [up, down]
  exact ⟨rfl, rfl, rfl, rfl, by rw [same]; exact started⟩

end Slaves

end Netcf.Linux.Switching
