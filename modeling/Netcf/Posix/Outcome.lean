import Netcf.Posix.Program

set_option autoImplicit false

-- What run_program reports about the child, and in which state it leaves the caller.
namespace Netcf.Posix

variable {env : Environment} {before : Process} {pipe : Pipe} {pid : Nat}

section Steps

-- The caller after all of exec_program has gone well.
def forked (before : Process) (pipe : Pipe) (pid : Nat) : Process :=
  { before with
    closes := before.closes ++ [pipe.writeEnd]
    descriptors := (pipe.readEnd :: pipe.writeEnd :: before.descriptors).erase pipe.writeEnd
    children := before.children ++ [pid] }

theorem execProgram_forked (commandline : String) (opened : env.pipe = .ok pipe) (blocked : env.block = .ok ())
    (child : env.fork = .ok pid) (restored : env.restore = .ok ()) :
    execProgram env commandline before = (some (pid, pipe.readEnd), forked before pipe pid) := by
  unfold execProgram
  rw [opened, blocked, child, restored]
  rfl

theorem waitChild_run (env : Environment) (pid interruptions : Nat) (self : Process) :
    waitChild env pid interruptions self =
      match env.completion with
      | .error _ => ((1, env.unset), self)
      | .ok status => ((0, status), { self with children := self.children.erase pid }) := by
  induction interruptions with
  | succ n ih => exact ih
  | zero =>
    unfold waitChild
    cases env.completion with
    | error why => rfl
    | ok status => rfl

end Steps

section Report

variable {status : Status}

def ExitedWith (code : Nat) (status : Status) : Prop :=
  wifexited status = true ∧ wexitstatus status = code

instance (code : Nat) (status : Status) : Decidable (ExitedWith code status) :=
  inferInstanceAs (Decidable (_ ∧ _))

-- The ladder of checks, by what the status says.
theorem statusReport_exited (env : Environment) (argvStr output : String) {waitret : Int} (told : waitret ≠ -1) :
    (statusReport env argvStr output waitret status = none ↔ ExitedWith 0 status) ∧
      ((statusReport env argvStr output waitret status).map (·.code) = some .invalidOp ↔ ExitedWith 199 status) := by
  unfold statusReport ExitedWith
  rw [if_neg told]
  cases wifexited status with
  | false => cases wifsignaled status <;> simp
  | true =>
    simp only [Bool.not_true, Bool.false_and, Bool.false_eq_true, if_false, true_and]
    unfold exitEnoent exitCannotInvoke exitSigmask exitDup2 exitInvalidInThisState
    generalize wexitstatus status = code
    by_cases invalid : code = 199
    · subst invalid
      simp
    · by_cases zero : code = 0
      · subst zero
        simp
      · simp only [invalid, zero, if_false, ne_eq, not_false_eq_true, if_true, iff_false]
        split_ifs <;> simp

end Report

section Run

-- The child runs, all that it writes is read, and no error is there from before.
structure Started (env : Environment) (before : Process) : Prop where
  clear : before.report = none
  memory : env.memory = true
  pipe : ∃ pipe, env.pipe = .ok pipe
  block : env.block = .ok ()
  fork : ∃ pid, env.fork = .ok pid
  restore : env.restore = .ok ()
  fdopen : env.fdopen = .ok ()
  output : ∃ output, env.output = .ok output

def Delivered (env : Environment) (code : Nat) : Prop :=
  ∃ status, env.completion = .ok status ∧ ExitedWith code status

-- What the caller is told agrees with how the child has ended.
structure ReportsChild (env : Environment) (result : Result) (after : Process) : Prop where
  success : result.ret = 0 ∧ after.report = none ↔ Delivered env 0
  failure : ¬ Delivered env 0 → result.ret = -1 ∧ after.report.isSome
  invalid : after.report.map (·.code) = some .invalidOp ↔ Delivered env 199

-- The status that the checks work on, which nobody may have stored.
def Environment.status (env : Environment) : Status :=
  match env.completion with
  | .error _ => env.unset
  | .ok status => status

-- However it ends, the result of the wait is not -1.
theorem waitChild_tells (env : Environment) (pid interruptions : Nat) (self : Process) :
    ∃ waitret : Int, waitret ≠ -1 ∧ ∃ after : Process,
      waitChild env pid interruptions self = ((waitret, env.status), after) ∧
        after.report = self.report ∧ after.closes = self.closes := by
  have waited := waitChild_run env pid interruptions self
  cases done : env.completion with
  | error why =>
    rw [done] at waited
    exact ⟨1, by decide, self, by rw [waited, Environment.status, done], rfl, rfl⟩
  | ok status =>
    rw [done] at waited
    exact ⟨0, by decide, { self with children := self.children.erase pid },
      by rw [waited, Environment.status, done], rfl, rfl⟩

-- What is left to do with the status of the child looked at.
def conclude (output : String) (outfd : Nat) : Option Report → Act Result
  | some report => do
    reportError report.code report.details
    release none outfd
    return ⟨-1, some output⟩
  | none => do
    release none outfd
    return ⟨0, some output⟩

theorem collect_run {output : String} {self : Process} (env : Environment) (argvStr : String) (pid outfd : Nat)
    (clear : self.report = none) (opened : env.fdopen = .ok ()) (read : env.output = .ok output) :
    ∃ waitret : Int, waitret ≠ -1 ∧
      (collect env argvStr pid outfd self).1.ret =
        (if statusReport env argvStr output waitret env.status = none then 0 else -1) ∧
      (collect env argvStr pid outfd self).2.report = statusReport env argvStr output waitret env.status ∧
      (collect env argvStr pid outfd self).2.closes = self.closes ++ [outfd] ++ [outfd] := by
  obtain ⟨waitret, told, after, waited, report, closes⟩ := waitChild_tells env pid env.interruptions
    { self with closes := self.closes ++ [outfd], descriptors := self.descriptors.erase outfd }
  have unfolded : collect env argvStr pid outfd self =
      conclude output outfd (statusReport env argvStr output waitret env.status) after := by
    unfold collect
    rw [opened, read]
    change (waitChild env pid env.interruptions >>= fun ended =>
      conclude output outfd (statusReport env argvStr output ended.1 ended.2) : Act Result)
        { self with closes := self.closes ++ [outfd], descriptors := self.descriptors.erase outfd } = _
    simp only [bind, StateT.bind, waited]
  rw [unfolded]
  refine ⟨waitret, told, ?_⟩
  cases statusReport env argvStr output waitret env.status with
  | none => exact ⟨rfl, report.trans clear, congrArg (· ++ [outfd]) closes⟩
  | some said =>
    refine ⟨rfl, ?_, congrArg (· ++ [outfd]) closes⟩
    change after.report.or (some said) = some said
    rw [report.trans clear]
    rfl

-- With a child at work run_program goes on to collect what it says, unless there was an error before.
theorem runProgram_forked (argv : List String) (memory : env.memory = true) (opened : env.pipe = .ok pipe)
    (blocked : env.block = .ok ()) (child : env.fork = .ok pid) (restored : env.restore = .ok ()) :
    runProgram env argv before =
      if before.report = none then collect env (argvToString argv) pid pipe.readEnd (forked before pipe pid)
      else (release none pipe.readEnd >>= fun _ => return ⟨-1, none⟩ : Act Result) (forked before pipe pid) := by
  have started := @execProgram_forked env before pipe pid (argvToString argv) opened blocked child restored
  unfold runProgram
  rw [if_pos memory]
  simp only [bind, StateT.bind, started]
  have same : (forked before pipe pid).report = before.report := rfl
  cases earlier : before.report with
  | none =>
    rw [if_pos rfl]
    simp only [get, getThe, MonadStateOf.get, StateT.get, pure, same, earlier]
  | some report =>
    rw [if_neg (Option.some_ne_none report)]
    simp only [get, getThe, MonadStateOf.get, StateT.get, pure, same, earlier]
    rfl

-- What run_program says is right when the checks take the status for what the child has delivered.
theorem reportsChild_iff {result : Result} {after : Process} {said : Option Report} {status : Status}
    (ret : result.ret = if said = none then 0 else -1) (report : after.report = said)
    (success : said = none ↔ ExitedWith 0 status) (invalid : said.map (·.code) = some .invalidOp ↔ ExitedWith 199 status) :
    ReportsChild env result after ↔
      (ExitedWith 0 status ↔ Delivered env 0) ∧ (ExitedWith 199 status ↔ Delivered env 199) := by
  have told : result.ret = 0 ∧ after.report = none ↔ ExitedWith 0 status := by
    rw [ret, report, ← success]
    constructor
    · exact And.right
    · intro none_said
      exact ⟨if_pos none_said, none_said⟩
  have refused : after.report.map (·.code) = some .invalidOp ↔ ExitedWith 199 status := by
    rw [report, invalid]
  constructor
  · intro right
    exact ⟨told.symm.trans right.success, refused.symm.trans right.invalid⟩
  · rintro ⟨zero, other⟩
    refine ⟨told.trans zero, ?_, refused.trans other⟩
    intro failed
    rw [← zero, ← success] at failed
    rw [ret, report, if_neg failed]
    exact ⟨rfl, Option.isSome_iff_ne_none.mpr failed⟩

theorem delivered_iff {status : Status} (done : env.completion = .ok status) (code : Nat) :
    Delivered env code ↔ ExitedWith code status := by
  constructor
  · rintro ⟨other, same, exited⟩
    rw [done] at same
    cases same
    exact exited
  · intro exited
    exact ⟨status, done, exited⟩

theorem not_delivered {why : String} (done : env.completion = .error why) (code : Nat) : ¬ Delivered env code := by
  rintro ⟨status, delivered, _⟩
  rw [done] at delivered
  cases delivered

-- When waitpid fails for good its comparison with -1 is still not -1, so the checks go on with whatever the
-- variable for the status holds.
theorem reports_child_iff {argv : List String} (started : Started env before) :
    ReportsChild env (runProgram env argv before).1 (runProgram env argv before).2 ↔
      ∀ why, env.completion = .error why → ¬ ExitedWith 0 env.unset ∧ ¬ ExitedWith 199 env.unset := by
  obtain ⟨pipe, opened⟩ := started.pipe
  obtain ⟨pid, child⟩ := started.fork
  obtain ⟨output, read⟩ := started.output
  rw [runProgram_forked argv started.memory opened started.block child started.restore, if_pos started.clear]
  obtain ⟨waitret, told, ret, report, _⟩ := collect_run env (argvToString argv) pid pipe.readEnd
    (show (forked before pipe pid).report = none from started.clear) started.fdopen read
  obtain ⟨success, invalid⟩ := @statusReport_exited env.status env (argvToString argv) output waitret told
  rw [reportsChild_iff ret report success invalid]
  cases done : env.completion with
  | error why =>
    have status : env.status = env.unset := by rw [Environment.status, done]
    simp only [status, not_delivered done, iff_false]
    constructor
    · intro neither _ _
      exact neither
    · intro neither
      exact neither why rfl
  | ok status =>
    have same : env.status = status := by rw [Environment.status, done]
    simp only [same, delivered_iff done, iff_self, and_self, true_iff]
    intro why other
    cases other

-- A child that is started with the descriptors 3 and 4 for its pipe and writes nothing.
def endingWith (completion : Except String Status) : Environment :=
  ⟨true, .ok ⟨3, 4, by decide⟩, 0xfffffffffffbfeff, .ok (), .ok 4711, .ok (), .ok (), .ok "", 0, completion, 0⟩

def caller : Process :=
  ⟨0, [0, 1, 2], [], [], none⟩

theorem reports_child_iff_success :
    ReportsChild (endingWith (.ok 0)) (runProgram (endingWith (.ok 0)) ["ifup", "eth0"] caller).1
      (runProgram (endingWith (.ok 0)) ["ifup", "eth0"] caller).2 :=
  (reports_child_iff ⟨rfl, rfl, ⟨_, rfl⟩, rfl, ⟨_, rfl⟩, rfl, rfl, ⟨_, rfl⟩⟩).mpr fun _ other => by cases other

theorem lost_child_succeeds :
    ¬ ReportsChild (endingWith (.error "No child processes"))
      (runProgram (endingWith (.error "No child processes")) ["ifup", "eth0"] caller).1
      (runProgram (endingWith (.error "No child processes")) ["ifup", "eth0"] caller).2 := by
  intro reports
  obtain ⟨status, delivered, _⟩ := reports.success.mp ⟨rfl, rfl⟩
  cases delivered

end Run

section Cleanup

-- The outcomes with which run_program gives up before there is a child, without a mask to put back.
def NoChild (env : Environment) (before : Process) : Prop :=
  env.memory = false ∨ (∃ why, env.pipe = .error why) ∨ (∃ why, env.block = .error why) ∨
    (∃ why, env.fork = .error why) ∧ before.mask = env.filled

def RestoreFails (env : Environment) : Prop :=
  env.memory = true ∧ (∃ pipe, env.pipe = .ok pipe) ∧ env.block = .ok () ∧ (∃ pid, env.fork = .ok pid) ∧
    ∃ why, env.restore = .error why

-- The caller has its mask, each end of a pipe has been closed once, and no child is left.
structure LeavesAsFound (env : Environment) (before after : Process) : Prop where
  mask : after.mask = before.mask ∨ RestoreFails env
  ends : ∀ pipe, env.memory = true → env.pipe = .ok pipe →
    after.closes.count pipe.readEnd = before.closes.count pipe.readEnd + 1 ∧
      after.closes.count pipe.writeEnd = before.closes.count pipe.writeEnd + 1
  children : after.children = before.children

theorem runProgram_abandoned (argv : List String) (memory : env.memory = true)
    (abandoned : (execProgram env (argvToString argv) before).1 = none) :
    (runProgram env argv before).2 = (execProgram env (argvToString argv) before).2 := by
  unfold runProgram
  rw [if_pos memory]
  simp only [bind, StateT.bind]
  cases started : execProgram env (argvToString argv) before with
  | mk child after =>
    rw [started] at abandoned
    dsimp only at abandoned
    subst abandoned
    rfl

-- Both ends are closed when exec_program gives up with the pipe open.
theorem execProgram_abandoned {commandline : String} (opened : env.pipe = .ok pipe)
    (failed : (∃ why, env.block = .error why) ∨
      env.block = .ok () ∧ ((∃ why, env.fork = .error why) ∨
        (∃ pid, env.fork = .ok pid) ∧ ∃ why, env.restore = .error why)) :
    (execProgram env commandline before).1 = none ∧
      (execProgram env commandline before).2.closes = before.closes ++ [pipe.readEnd] ++ [pipe.writeEnd] ∧
      (execProgram env commandline before).2.mask = (if env.block = .ok () then env.filled else before.mask) ∧
      (execProgram env commandline before).2.children =
        before.children ++ (if env.block = .ok () then env.fork.toOption.toList else []) := by
  unfold execProgram
  rw [opened]
  rcases failed with ⟨why, blocked⟩ | ⟨blocked, ⟨why, child⟩ | ⟨⟨pid, child⟩, why, restored⟩⟩
  · rw [blocked]
    refine ⟨rfl, rfl, rfl, ?_⟩
    exact (List.append_nil _).symm
  · rw [blocked, child]
    refine ⟨rfl, rfl, rfl, ?_⟩
    exact (List.append_nil _).symm
  · rw [blocked, child, restored]
    exact ⟨rfl, rfl, rfl, rfl⟩

-- After the fork the child is not waited for, or the read end is closed with its stream and by itself.
theorem collect_cases {self : Process} (env : Environment) (argvStr : String) (pid outfd : Nat)
    (clear : self.report = none) :
    (collect env argvStr pid outfd self).2.children = self.children ∨
      (collect env argvStr pid outfd self).2.closes = self.closes ++ [outfd] ++ [outfd] := by
  cases opened : env.fdopen with
  | error why =>
    left
    unfold collect
    rw [opened]
    rfl
  | ok u =>
    cases read : env.output with
    | error why =>
      left
      unfold collect
      rw [opened, read]
      rfl
    | ok output =>
      right
      obtain ⟨_, _, _, _, closes⟩ := collect_run env argvStr pid outfd clear opened read
      exact closes

theorem forked_not_left (argv : List String) (memory : env.memory = true) (opened : env.pipe = .ok pipe)
    (blocked : env.block = .ok ()) (child : env.fork = .ok pid) (restored : env.restore = .ok ()) :
    ¬ LeavesAsFound env before (runProgram env argv before).2 := by
  intro leaves
  have same := leaves.children
  have ends := (leaves.ends pipe memory opened).1
  have waiting : ∀ after : Process, after.children = (forked before pipe pid).children →
      after.children ≠ before.children := by
    intro after left none_left
    rw [left] at none_left
    simp [forked] at none_left
  rw [runProgram_forked argv memory opened blocked child restored] at same ends
  cases earlier : before.report with
  | some report =>
    rw [if_neg (by rw [earlier]; exact Option.some_ne_none report)] at same
    exact waiting _ rfl same
  | none =>
    rw [if_pos earlier] at same ends
    rcases collect_cases env (argvToString argv) pid pipe.readEnd
      (show (forked before pipe pid).report = none from earlier) with left | closes
    · exact waiting _ left same
    · rw [closes] at ends
      simp only [forked, List.count_append, List.count_singleton_self] at ends
      omega

theorem count_ends (pipe : Pipe) (closes : List Nat) :
    (closes ++ [pipe.readEnd] ++ [pipe.writeEnd]).count pipe.readEnd = closes.count pipe.readEnd + 1 ∧
      (closes ++ [pipe.readEnd] ++ [pipe.writeEnd]).count pipe.writeEnd = closes.count pipe.writeEnd + 1 := by
  have apart := pipe.apart
  simp [List.count_append, apart, apart.symm]

-- What is left to say of a run that gives up with the pipe open.
theorem abandoned_left_iff {argv : List String} (memory : env.memory = true) (opened : env.pipe = .ok pipe)
    (failed : (∃ why, env.block = .error why) ∨
      env.block = .ok () ∧ ((∃ why, env.fork = .error why) ∨
        (∃ pid, env.fork = .ok pid) ∧ ∃ why, env.restore = .error why)) :
    LeavesAsFound env before (runProgram env argv before).2 ↔
      ((if env.block = .ok () then env.filled else before.mask) = before.mask ∨ RestoreFails env) ∧
        (if env.block = .ok () then env.fork.toOption.toList else []) = [] := by
  obtain ⟨none_started, closes, mask, children⟩ :=
    @execProgram_abandoned env before pipe (argvToString argv) opened failed
  rw [runProgram_abandoned argv memory none_started]
  constructor
  · intro leaves
    have same := leaves.children
    have masked := leaves.mask
    rw [children, List.append_right_eq_self] at same
    rw [mask] at masked
    exact ⟨masked, same⟩
  · rintro ⟨masked, none_left⟩
    refine ⟨by rwa [mask], ?_, ?_⟩
    · intro other _ same
      rw [opened] at same
      cases same
      rw [closes]
      exact count_ends pipe before.closes
    · rw [children, none_left, List.append_nil]

-- With a pipe and the signals blocked, only a fork that fails leaves no child.
theorem noChild_iff (memory : env.memory = true) (opened : env.pipe = .ok pipe) (blocked : env.block = .ok ()) :
    NoChild env before ↔ (∃ why, env.fork = .error why) ∧ before.mask = env.filled := by
  simp [NoChild, memory, opened, blocked]

theorem leaves_as_found_iff (env : Environment) (argv : List String) (before : Process) :
    LeavesAsFound env before (runProgram env argv before).2 ↔ NoChild env before := by
  cases memory : env.memory with
  | false =>
    have after : (runProgram env argv before).2 = { before with report := some ⟨.nomem, ""⟩ } := by
      unfold runProgram
      rw [if_neg (by simp [memory])]
      rfl
    rw [after]
    refine iff_of_true ⟨Or.inl rfl, ?_, rfl⟩ (Or.inl memory)
    intro pipe enough
    rw [memory] at enough
    cases enough
  | true =>
    cases opened : env.pipe with
    | error why =>
      have after : execProgram env (argvToString argv) before =
          (none, { before with report := before.report.or (some ⟨.exec, "failed to create pipe while forking for '" ++
            argvToString argv ++ "': " ++ why⟩) }) := by
        unfold execProgram
        rw [opened]
        rfl
      rw [runProgram_abandoned argv memory (by rw [after]), after]
      refine iff_of_true ⟨Or.inl rfl, ?_, rfl⟩ (Or.inr (Or.inl ⟨why, opened⟩))
      intro pipe _ other
      rw [opened] at other
      cases other
    | ok pipe =>
      cases blocked : env.block with
      | error why =>
        rw [abandoned_left_iff memory opened (Or.inl ⟨why, blocked⟩), blocked]
        exact iff_of_true ⟨Or.inl (if_neg (by simp)), if_neg (by simp)⟩ (Or.inr (Or.inr (Or.inl ⟨why, blocked⟩)))
      | ok u =>
        cases child : env.fork with
        | error why =>
          rw [abandoned_left_iff memory opened (Or.inr ⟨blocked, Or.inl ⟨why, child⟩⟩), if_pos blocked, if_pos blocked]
          rw [noChild_iff memory opened blocked]
          constructor
          · rintro ⟨same | ⟨_, _, _, ⟨pid, other⟩, _⟩, _⟩
            · exact ⟨⟨why, child⟩, same.symm⟩
            · rw [child] at other
              cases other
          · rintro ⟨_, same⟩
            rw [child]
            exact ⟨Or.inl same.symm, rfl⟩
        | ok pid =>
          have none_without : ¬ NoChild env before := by
            rw [noChild_iff memory opened blocked, child]
            rintro ⟨⟨why, other⟩, _⟩
            cases other
          refine iff_of_false ?_ none_without
          cases restored : env.restore with
          | error why =>
            rw [abandoned_left_iff memory opened (Or.inr ⟨blocked, Or.inr ⟨⟨pid, child⟩, why, restored⟩⟩),
              if_pos blocked, if_pos blocked, child]
            rintro ⟨_, none_left⟩
            cases none_left
          | ok u => exact forked_not_left argv memory opened blocked child restored

-- The program runs and exits with code 0, and the read end is closed a second time.
theorem read_end_closed_twice :
    ¬ LeavesAsFound (endingWith (.ok 0)) caller (runProgram (endingWith (.ok 0)) ["ifup", "eth0"] caller).2 := by
  intro leaves
  have ends := (leaves.ends _ rfl rfl).1
  revert ends
  decide

end Cleanup

end Netcf.Posix
