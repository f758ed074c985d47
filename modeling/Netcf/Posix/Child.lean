import Mathlib.Logic.Function.Basic
import Netcf.Posix.Codes
import Netcf.Shared.Triples

set_option autoImplicit false

-- The child's side of exec_program: what a program is started with, and what run_program makes of its end.
namespace Netcf.Posix

open Shared.Faulty Shared.Triples

section Side

inductive File
  | readSide
  | writeSide
  | other (id : Nat)
  deriving DecidableEq

inductive Disposition
  | default | ignored | caught
  deriving DecidableEq

-- What the descriptors of a process refer to.
abbrev Table := Nat → Option File

structure Child where
  table : Table
  handlers : Nat → Disposition
  mask : SigSet

-- What the system answers to the child. sigaction fails for the signals that are not SETTABLE, OPENMAX is the int
-- that sysconf gives, and an execvp that fails comes with whether it has set ENOENT.
structure ChildEnvironment where
  settable : Nat → Bool
  unmask : Bool
  dup2 : Nat → Bool
  openMax : Int
  exec : Except Bool Unit

-- A child that does not get as far as execvp leaves with _exit.
abbrev ChildAct := EStateM Nat Child

variable (env : ChildEnvironment)

def setDefault (signal : Nat) : ChildAct Unit :=
  modify fun self =>
    if env.settable signal then { self with handlers := Function.update self.handlers signal .default } else self

def dup2 (old new : Nat) : ChildAct Bool := do
  let file := (← get).table old
  if env.dup2 new && file.isSome then
    modify fun self => { self with table := Function.update self.table new file }
    return true
  else return false

def closeFd (fd : Nat) : ChildAct Unit :=
  modify fun self => { self with table := Function.update self.table fd none }

def orExit (code : Nat) (works : Bool) : ChildAct Unit :=
  if works then return () else throw code

def execvp : ChildAct Unit :=
  match env.exec with
  | .ok _ => return ()
  | .error enoent => throw (if enoent then exitEnoent else exitCannotInvoke)

-- NSIG
def nsig : Nat := 65

def childSide (pipe : Pipe) : ChildAct Unit := do
  (List.range' 1 (nsig - 1)).forM (setDefault env)
  orExit exitSigmask env.unmask
  modify fun self => { self with mask := 0 }
  orExit exitDup2 (← dup2 env pipe.writeEnd 1)
  orExit exitDup2 (← dup2 env pipe.writeEnd 2)
  closeFd pipe.readEnd
  (List.range' 3 (env.openMax - 3).toNat).forM closeFd
  execvp env

-- The process that fork leaves, of a caller with the descriptors of TABLE beside the pipe.
def Child.born (filled : SigSet) (table : Table) (handlers : Nat → Disposition) (pipe : Pipe) : Child :=
  ⟨Function.update (Function.update table pipe.readEnd (some .readSide)) pipe.writeEnd (some .writeSide), handlers,
    filled⟩

end Side

section Started

variable {env : ChildEnvironment} {pipe : Pipe} {self : Child}

theorem setDefaults_run (signals : List Nat) :
    signals.forM (setDefault env) self = .ok () { self with
      handlers := fun signal => if signal ∈ signals ∧ env.settable signal = true then .default else self.handlers signal } := by
  induction signals generalizing self with
  | nil => rfl
  | cons signal rest ih =>
    have first : setDefault env signal self = .ok () (if env.settable signal then
        { self with handlers := Function.update self.handlers signal .default } else self) := rfl
    refine (bind_of_ok (fun _ => rest.forM (setDefault env)) first).trans ?_
    rw [ih]
    cases settable : env.settable signal with
    | false =>
      congr
      funext other
      by_cases here : other = signal
      · simp [here, settable]
      · simp [here]
    | true =>
      rw [if_pos rfl]
      congr
      funext other
      by_cases here : other = signal
      · simp [here, settable]
      · simp [here]

theorem closeFds_run (fds : List Nat) :
    fds.forM closeFd self = .ok () { self with table := fun fd => if fd ∈ fds then none else self.table fd } := by
  induction fds generalizing self with
  | nil => rfl
  | cons fd rest ih =>
    have first : closeFd fd self = .ok () { self with table := Function.update self.table fd none } := rfl
    refine (bind_of_ok (fun _ => rest.forM closeFd) first).trans ?_
    rw [ih]
    congr
    funext other
    by_cases here : other = fd
    · simp [here]
    · simp [here]

-- The child when it calls execvp.
def prepared (env : ChildEnvironment) (pipe : Pipe) (self : Child) : Child where
  table fd :=
    if fd = pipe.readEnd then none
    else if fd = 1 ∨ fd = 2 then some .writeSide
    else if 3 ≤ fd ∧ (fd : Int) < env.openMax then none
    else self.table fd
  handlers signal :=
    if (1 ≤ signal ∧ signal < nsig) ∧ env.settable signal = true then .default else self.handlers signal
  mask := 0

theorem dup2_run {new old : Nat} {file : File} (opened : self.table old = some file) :
    dup2 env old new self = .ok (env.dup2 new)
      (if env.dup2 new then { self with table := Function.update self.table new (some file) } else self) := by
  unfold dup2
  rw [bind_of_ok _ (get_run self), opened]
  cases env.dup2 new <;> rfl

-- What _exit is called with in front of the program.
def failure (env : ChildEnvironment) : Option Nat :=
  if env.unmask = false then some exitSigmask
  else if (env.dup2 1 && env.dup2 2) = false then some exitDup2
  else match env.exec with
    | .ok _ => none
    | .error enoent => some (if enoent then exitEnoent else exitCannotInvoke)

def unmasked (env : ChildEnvironment) (self : Child) : Child :=
  { self with
    handlers := fun signal =>
      if signal ∈ List.range' 1 (nsig - 1) ∧ env.settable signal = true then .default else self.handlers signal
    mask := 0 }

-- What is left to do when the outputs have been redirected.
def finishing (env : ChildEnvironment) (pipe : Pipe) : ChildAct Unit := do
  closeFd pipe.readEnd
  (List.range' 3 (env.openMax - 3).toNat).forM closeFd
  execvp env

theorem childSide_unmasked (unmask : env.unmask = true) :
    childSide env pipe self = (do
      orExit exitDup2 (← dup2 env pipe.writeEnd 1)
      orExit exitDup2 (← dup2 env pipe.writeEnd 2)
      finishing env pipe : ChildAct Unit) (unmasked env self) := by
  unfold childSide
  rw [bind_of_ok _ (setDefaults_run _), unmask]
  rfl

def redirected (env : ChildEnvironment) (self : Child) : Child :=
  { unmasked env self with
    table := Function.update (Function.update self.table 1 (some .writeSide)) 2 (some .writeSide) }

theorem finishing_run (env : ChildEnvironment) (pipe : Pipe) (self : Child) :
    finishing env pipe (redirected env self) = execvp env (prepared env pipe self) := by
  have first : closeFd pipe.readEnd (redirected env self) = .ok () { redirected env self with
      table := Function.update (redirected env self).table pipe.readEnd none } := rfl
  unfold finishing
  rw [bind_of_ok _ first, bind_of_ok _ (closeFds_run _)]
  congr 1
  unfold redirected unmasked prepared
  dsimp only
  congr 1
  · funext fd
    have within : fd ∈ List.range' 3 (env.openMax - 3).toNat ↔ 3 ≤ fd ∧ (fd : Int) < env.openMax := by
      rw [List.mem_range'_1]
      omega
    by_cases read : fd = pipe.readEnd
    · simp [read]
    · rw [Function.update_of_ne read, if_neg read]
      by_cases out : fd = 1
      · simp [out]
      · by_cases err : fd = 2
        · simp [err]
        · rw [Function.update_of_ne err, Function.update_of_ne out, if_neg (not_or.mpr ⟨out, err⟩)]
          exact if_congr within rfl rfl
  · funext signal
    refine if_congr (and_congr_left' ?_) rfl rfl
    rw [List.mem_range'_1, nsig]

theorem childSide_ends (opened : self.table pipe.writeEnd = some .writeSide) :
    Ends (fun _ program => failure env = none ∧ program = prepared env pipe self)
      (fun code _ => failure env = some code) (childSide env pipe self) := by
  unfold failure
  cases unmask : env.unmask with
  | false =>
    unfold childSide
    rw [bind_of_ok _ (setDefaults_run _), unmask]
    exact if_pos rfl
  | true =>
    rw [if_neg (by decide), childSide_unmasked unmask, bind_of_ok _ (@dup2_run env (unmasked env self) 1 _ _ opened)]
    cases out : env.dup2 1 with
    | false => exact if_pos rfl
    | true =>
      have kept : ({ unmasked env self with table := Function.update self.table 1 (some .writeSide) } : Child).table
          pipe.writeEnd = some .writeSide := by
        by_cases here : pipe.writeEnd = 1
        · simp [here]
        · simp [here, opened]
      have second := @dup2_run env _ 2 _ _ kept
      cases err : env.dup2 2 with
      | false =>
        rw [err] at second
        have ended := bind_of_ok (fun works => do orExit exitDup2 works; finishing env pipe) second
        exact (congrArg (Ends _ _) ended).mpr (if_pos rfl)
      | true =>
        rw [err] at second
        have ended := (bind_of_ok (fun works => do orExit exitDup2 works; finishing env pipe) second).trans
          (finishing_run env pipe self)
        refine (congrArg (Ends _ _) ended).mpr ?_
        unfold execvp
        cases env.exec with
        | ok _ => exact ⟨rfl, rfl⟩
        | error enoent => rfl

theorem childSide_prepared (opened : self.table pipe.writeEnd = some .writeSide) (fine : failure env = none) :
    childSide env pipe self = .ok () (prepared env pipe self) := by
  have ends := @childSide_ends env pipe self opened
  cases run : childSide env pipe self with
  | ok _ program =>
    rw [run] at ends
    rw [ends.2]
  | error code after =>
    rw [run] at ends
    have failed : failure env = some code := ends
    rw [fine] at failed
    cases failed

end Started

section Program

variable {child : ChildEnvironment} {pipe : Pipe} {table : Table} {handlers : Nat → Disposition} {filled : SigSet}

-- Both outputs go to the pipe, and of its caller the program has no more than stdin.
structure Sealed (program : Child) : Prop where
  out : program.table 1 = some .writeSide
  err : program.table 2 = some .writeSide
  alone : ∀ fd, 3 ≤ fd → program.table fd = none

-- pipe gives descriptors that are not in use.
structure Fresh (table : Table) (pipe : Pipe) : Prop where
  read : table pipe.readEnd = none
  write : table pipe.writeEnd = none

theorem born_write : (Child.born filled table handlers pipe).table pipe.writeEnd = some .writeSide := by
  simp [Child.born]

theorem sealed_iff (fresh : Fresh table pipe) :
    Sealed (prepared child pipe (.born filled table handlers pipe)) ↔
      (pipe.readEnd ≠ 1 ∧ pipe.readEnd ≠ 2) ∧
        ∀ fd, 3 ≤ fd → table fd ≠ none ∨ fd = pipe.writeEnd → (fd : Int) < child.openMax := by
  have out : (prepared child pipe (.born filled table handlers pipe)).table 1 = some .writeSide ↔ pipe.readEnd ≠ 1 := by
    simp only [prepared]
    by_cases read : pipe.readEnd = 1 <;> simp [read, eq_comm]
  have err : (prepared child pipe (.born filled table handlers pipe)).table 2 = some .writeSide ↔ pipe.readEnd ≠ 2 := by
    simp only [prepared]
    by_cases read : pipe.readEnd = 2 <;> simp [read, eq_comm]
  have rest (fd : Nat) (above : 3 ≤ fd) :
      (prepared child pipe (.born filled table handlers pipe)).table fd = none ↔
        (table fd ≠ none ∨ fd = pipe.writeEnd → (fd : Int) < child.openMax) := by
    simp only [prepared, Child.born]
    by_cases read : fd = pipe.readEnd
    · rw [if_pos read]
      refine iff_of_true rfl ?_
      rintro (opened | write)
      · exact absurd (read ▸ fresh.read) opened
      · exact absurd (read.symm.trans write) pipe.apart
    · rw [if_neg read, if_neg (by omega)]
      by_cases below : (fd : Int) < child.openMax
      · rw [if_pos ⟨above, below⟩]
        exact iff_of_true rfl fun _ => below
      · rw [if_neg fun closed => below closed.2]
        by_cases write : fd = pipe.writeEnd
        · rw [write, Function.update_self]
          exact iff_of_false (fun other => by cases other) fun closes => below (write ▸ closes (Or.inr rfl))
        · rw [Function.update_of_ne write, Function.update_of_ne read]
          refine ⟨fun closed open_ => ?_, fun closes => ?_⟩
          · exact absurd closed (open_.resolve_right write)
          · by_contra opened
            exact below (closes (Or.inl opened))
  constructor
  · intro sealed
    exact ⟨⟨out.mp sealed.out, err.mp sealed.err⟩, fun fd above => (rest fd above).mp (sealed.alone fd above)⟩
  · rintro ⟨⟨first, second⟩, below⟩
    exact ⟨out.mpr first, err.mpr second, fun fd above => (rest fd above).mpr (below fd above)⟩

end Program

section Whole

variable {env : Environment} {before : Process} {child : ChildEnvironment} {pipe : Pipe} {table : Table}
  {handlers : Nat → Disposition} {own status : Status}

-- What waitpid stores of a child whose program ends with OWN, if it gets to run.
def Leaves (result : EStateM.Result Nat Child Unit) (own status : Status) : Prop :=
  match result with
  | .ok _ _ => status = own
  | .error code _ => ExitedWith code status

-- Which child an environment is about: one with the pipe beside the descriptors of TABLE, of whose end waitpid
-- tells.
structure Child.Of (env : Environment) (child : ChildEnvironment) (pipe : Pipe) (table : Table)
    (handlers : Nat → Disposition) (own status : Status) : Prop where
  opened : env.pipe = .ok pipe
  fresh : Fresh table pipe
  reaped : env.completion = .ok status
  left : Leaves (childSide child pipe (.born env.filled table handlers pipe)) own status

theorem failure_ne_zero {code : Nat} (failed : failure child = some code) : code ≠ 0 := by
  unfold failure at failed
  rintro rfl
  split_ifs at failed with unmask redirect
  · exact absurd failed (by decide)
  · exact absurd failed (by decide)
  · rcases executes : child.exec with enoent | _
    · rw [executes] at failed
      cases enoent <;> exact absurd failed (by decide)
    · rw [executes] at failed
      cases failed

theorem leaves_success {self : Child} (opened : self.table pipe.writeEnd = some .writeSide)
    (left : Leaves (childSide child pipe self) own status) :
    ExitedWith 0 status ↔ failure child = none ∧ ExitedWith 0 own := by
  have ends := @childSide_ends child pipe self opened
  cases run : childSide child pipe self with
  | ok _ program =>
    rw [run] at ends left
    have same : status = own := left
    rw [same]
    exact ⟨fun zero => ⟨ends.1, zero⟩, And.right⟩
  | error code after =>
    rw [run] at ends left
    have failed : failure child = some code := ends
    have exited : ExitedWith code status := left
    refine iff_of_false (fun zero => ?_) fun both => ?_
    · exact failure_ne_zero failed (exited.2.symm.trans zero.2)
    · rw [failed] at both
      cases both.1

theorem runCode_eq_none :
    runCode env = none ↔ (forks env = true ∧ listens env = true) ∧ ExitedWith 0 env.status := by
  unfold runCode
  cases memory : env.memory with
  | false => simp [forks, memory]
  | true =>
    rw [if_neg (by decide), ← Bool.and_eq_true]
    by_cases works : (forks env && listens env) = true
    · rw [if_pos works, statusCode]
      by_cases zero : ExitedWith 0 env.status
      · simp [works, zero]
      · rw [if_neg zero]
        split_ifs <;> simp [zero]
    · rw [if_neg works]
      exact iff_of_false (fun other => by cases other) fun both => works both.1

theorem ok_of_isOk {ε α : Type} {answer : Except ε α} (works : answer.isOk = true) : ∃ a, answer = .ok a := by
  cases answer with
  | error why => cases works
  | ok a => exact ⟨a, rfl⟩

theorem started_of_works (clear : before.report = none) (forked : forks env = true) (listening : listens env = true) :
    Started env before := by
  simp only [forks, listens, Bool.and_eq_true] at forked listening
  obtain ⟨⟨⟨memory, pipe⟩, block⟩, fork⟩ := forked
  obtain ⟨⟨restore, fdopen⟩, output⟩ := listening
  exact ⟨clear, memory, ok_of_isOk pipe, (ok_of_isOk block).choose_spec, ok_of_isOk fork, (ok_of_isOk restore).choose_spec,
    (ok_of_isOk fdopen).choose_spec, ok_of_isOk output⟩

-- run_program succeeds for a program that has been started and has exited with 0. What it has started has no
-- signals blocked and none of the caller's handlers, and it is sealed but for descriptors beyond those that
-- sysconf tells of and a caller without a stdout or stderr of its own.
theorem program_isolated (argv : List String) (clear : before.report = none)
    (forks_it : Child.Of env child pipe table handlers own status) :
    ((runProgram env argv before).1.ret = 0 ∧ (runProgram env argv before).2.report = none ↔
      (forks env = true ∧ listens env = true) ∧ failure child = none ∧ ExitedWith 0 own) ∧
      ∀ program, childSide child pipe (.born env.filled table handlers pipe) = .ok () program →
        program.mask = 0 ∧
        (∀ signal, 1 ≤ signal → signal < nsig → child.settable signal = true → program.handlers signal = .default) ∧
        (Sealed program ↔ (pipe.readEnd ≠ 1 ∧ pipe.readEnd ≠ 2) ∧
          ∀ fd, 3 ≤ fd → table fd ≠ none ∨ fd = pipe.writeEnd → (fd : Int) < child.openMax) := by
  have found : env.status = status := by rw [Environment.status, forks_it.reaped]
  have zero := leaves_success born_write forks_it.left
  constructor
  · rw [← zero]
    constructor
    · rintro ⟨_, silent⟩
      have code := runProgram_code env argv clear
      rw [silent] at code
      exact found ▸ runCode_eq_none.mp code.symm
    · rintro ⟨⟨forked, listening⟩, exited⟩
      have reports := (@reports_child_iff env before argv (started_of_works clear forked listening)).mpr
        fun why lost => by rw [forks_it.reaped] at lost; cases lost
      exact reports.success.mpr ((delivered_iff forks_it.reaped 0).mpr exited)
  · intro program run
    have ends := @childSide_ends child pipe (.born env.filled table handlers pipe) born_write
    rw [run] at ends
    rw [ends.2]
    exact ⟨rfl, fun signal low high settable => if_pos ⟨⟨low, high⟩, settable⟩, sealed_iff forks_it.fresh⟩

def plainChild : ChildEnvironment :=
  ⟨fun signal => signal ≠ 9 && signal ≠ 19, true, fun _ => true, 1024, .ok ()⟩

def standardStreams : Table :=
  fun fd => if fd < 3 then some (.other fd) else none

theorem ends_apart : (3 : Nat) ≠ 4 := by decide

def ownPipe : Pipe :=
  ⟨3, 4, ends_apart⟩

-- SIGTERM is caught.
def ownHandlers : Nat → Disposition :=
  fun signal => if signal = 15 then .caught else .default

-- The child of endingWith.
def ordinary : Child :=
  .born (endingWith (.ok 0)).filled standardStreams ownHandlers ownPipe

theorem ordinary_run : childSide plainChild ownPipe ordinary =
    .ok () (prepared plainChild ownPipe ordinary) :=
  childSide_prepared born_write rfl

theorem ordinary_of :
    Child.Of (endingWith (.ok 0)) plainChild ownPipe standardStreams ownHandlers 0 0 where
  opened := rfl
  fresh := ⟨rfl, rfl⟩
  reaped := rfl
  left := by
    change Leaves (childSide plainChild ownPipe ordinary) 0 0
    rw [ordinary_run]
    rfl

theorem program_isolated_ifup :
    ((runProgram (endingWith (.ok 0)) ["ifup", "eth0"] caller).1.ret = 0 ∧
        (runProgram (endingWith (.ok 0)) ["ifup", "eth0"] caller).2.report = none) ∧
      Sealed (prepared plainChild ownPipe ordinary) := by
  have isolated := program_isolated ["ifup", "eth0"] (show caller.report = none from rfl) ordinary_of
  refine ⟨isolated.1.mpr ⟨⟨rfl, rfl⟩, rfl, by decide⟩, ?_⟩
  refine (isolated.2 _ ordinary_run).2.2.mpr ⟨by decide, fun fd above used => ?_⟩
  rcases used with opened | rfl
  · exact absurd (if_neg (by omega)) opened
  · decide

end Whole

end Netcf.Posix
