import Netcf.Posix.Outcome

set_option autoImplicit false

-- What the caller of run_program knows when it looks at the error code only.
namespace Netcf.Posix

open Linux (Errcode)

-- There is a child to run the program.
def forks (env : Environment) : Bool :=
  env.memory && env.pipe.isOk && env.block.isOk && env.fork.isOk

def statusCode (status : Status) : Option Errcode :=
  if ExitedWith 0 status then none
  else if ExitedWith 199 status then some .invalidOp
  else some .exec

-- The stream of the child's output is set up and read.
def listens (env : Environment) : Bool :=
  env.restore.isOk && env.fdopen.isOk && env.output.isOk

def runCode (env : Environment) : Option Errcode :=
  if env.memory = false then some .nomem
  else if (forks env && listens env) = true then statusCode env.status
  else some .exec

theorem statusReport_code (env : Environment) (argvStr output : String) {waitret : Int} (told : waitret ≠ -1)
    (status : Status) :
    (statusReport env argvStr output waitret status).map (·.code) = statusCode status := by
  obtain ⟨success, invalid⟩ := @statusReport_exited status env argvStr output waitret told
  have known : (statusReport env argvStr output waitret status).map (·.code) ∈
      [none, some .exec, some .invalidOp] := by
    unfold statusReport
    split_ifs <;> simp
  unfold statusCode
  by_cases zero : ExitedWith 0 status
  · rw [if_pos zero, success.mpr zero]
    rfl
  · rw [if_neg zero]
    by_cases refused : ExitedWith 199 status
    · rw [if_pos refused, invalid.mpr refused]
    · rw [if_neg refused]
      rcases List.mem_cons.mp known with nothing | listed
      · exact absurd (success.mp (Option.map_eq_none_iff.mp nothing)) zero
      · rcases List.mem_cons.mp listed with exec | other
        · exact exec
        · exact absurd (invalid.mp (List.mem_singleton.mp other)) refused

-- The failures with which exec_program gives up.
def GivesUp (env : Environment) : Prop :=
  (∃ why, env.pipe = .error why) ∨ (∃ pipe, env.pipe = .ok pipe) ∧
    ((∃ why, env.block = .error why) ∨ env.block = .ok () ∧
      ((∃ why, env.fork = .error why) ∨ (∃ pid, env.fork = .ok pid) ∧ ∃ why, env.restore = .error why))

theorem givesUp_or (env : Environment) :
    GivesUp env ∨ ∃ pipe pid, env.pipe = .ok pipe ∧ env.block = .ok () ∧ env.fork = .ok pid ∧ env.restore = .ok () := by
  cases opened : env.pipe with
  | error why => exact Or.inl (Or.inl ⟨why, opened⟩)
  | ok pipe =>
    cases blocked : env.block with
    | error why => exact Or.inl (Or.inr ⟨⟨pipe, opened⟩, Or.inl ⟨why, blocked⟩⟩)
    | ok u =>
      cases child : env.fork with
      | error why => exact Or.inl (Or.inr ⟨⟨pipe, opened⟩, Or.inr ⟨blocked, Or.inl ⟨why, child⟩⟩⟩)
      | ok pid =>
        cases restored : env.restore with
        | error why => exact Or.inl (Or.inr ⟨⟨pipe, opened⟩, Or.inr ⟨blocked, Or.inr ⟨⟨pid, child⟩, why, restored⟩⟩⟩)
        | ok u => exact Or.inr ⟨pipe, pid, rfl, rfl, rfl, rfl⟩

theorem execProgram_code {env : Environment} {self : Process} (commandline : String) (clear : self.report = none)
    (failed : GivesUp env) :
    (execProgram env commandline self).1 = none ∧
      (execProgram env commandline self).2.report.map (·.code) = some .exec := by
  have said (details : String) : (self.report.or (some ⟨.exec, details⟩)).map (·.code) = some .exec := by
    rw [clear]
    rfl
  unfold execProgram
  rcases failed with ⟨why, opened⟩ | ⟨⟨pipe, opened⟩, ⟨why, blocked⟩ | ⟨blocked, ⟨why, child⟩ |
    ⟨⟨pid, child⟩, why, restored⟩⟩⟩
  · rw [opened]
    exact ⟨rfl, said _⟩
  · rw [opened, blocked]
    exact ⟨rfl, said _⟩
  · rw [opened, blocked, child]
    exact ⟨rfl, said _⟩
  · rw [opened, blocked, child, restored]
    exact ⟨rfl, said _⟩

theorem collect_code (env : Environment) (argvStr : String) (pid outfd : Nat) {self : Process}
    (clear : self.report = none) :
    (collect env argvStr pid outfd self).2.report.map (·.code) =
      if (env.fdopen.isOk && env.output.isOk) = true then statusCode env.status else some .exec := by
  have said (details : String) : (self.report.or (some ⟨.exec, details⟩)).map (·.code) = some .exec := by
    rw [clear]
    rfl
  cases opened : env.fdopen with
  | error why =>
    unfold collect
    rw [opened]
    exact said _
  | ok u =>
    cases read : env.output with
    | error why =>
      unfold collect
      rw [opened, read]
      exact said _
    | ok output =>
      obtain ⟨waitret, told, _, report, _⟩ := collect_run env argvStr pid outfd clear opened read
      rw [report]
      exact statusReport_code env argvStr output told env.status

theorem runProgram_code (env : Environment) (argv : List String) {self : Process} (clear : self.report = none) :
    (runProgram env argv self).2.report.map (·.code) = runCode env := by
  unfold runCode forks listens
  cases memory : env.memory with
  | false =>
    unfold runProgram
    rw [if_neg (by simp [memory])]
    rfl
  | true =>
    rcases givesUp_or env with failed | ⟨pipe, pid, opened, blocked, child, restored⟩
    · obtain ⟨abandoned, code⟩ := execProgram_code (argvToString argv) clear failed
      rw [runProgram_abandoned argv memory abandoned, code]
      rcases failed with ⟨why, opened⟩ | ⟨⟨pipe, opened⟩, ⟨why, blocked⟩ | ⟨blocked, ⟨why, child⟩ |
        ⟨⟨pid, child⟩, why, restored⟩⟩⟩
      · rw [opened]
        rfl
      · rw [opened, blocked]
        rfl
      · rw [opened, blocked, child]
        rfl
      · rw [opened, blocked, child, restored]
        rfl
    · rw [runProgram_forked argv memory opened blocked child restored, if_pos clear, opened, blocked, child, restored]
      exact collect_code env (argvToString argv) pid pipe.readEnd clear

theorem execProgram_unheard {env : Environment} {self : Process} {report : Report} (commandline : String)
    (memory : env.memory = true) (said : self.report = some report) (failed : GivesUp env) :
    (execProgram env commandline self).1 = none ∧ (execProgram env commandline self).2.report.isSome = true ∧
      (execProgram env commandline self).2.children =
        self.children ++ if forks env = true then env.fork.toOption.toList else [] := by
  have kept (details : String) : (self.report.or (some ⟨.exec, details⟩)).isSome = true := by
    rw [said]
    rfl
  unfold execProgram forks
  rcases failed with ⟨why, opened⟩ | ⟨⟨pipe, opened⟩, ⟨why, blocked⟩ | ⟨blocked, ⟨why, child⟩ |
    ⟨⟨pid, child⟩, why, restored⟩⟩⟩
  · rw [memory, opened]
    exact ⟨rfl, kept _, (List.append_nil _).symm⟩
  · rw [memory, opened, blocked]
    exact ⟨rfl, kept _, (List.append_nil _).symm⟩
  · rw [memory, opened, blocked, child]
    exact ⟨rfl, kept _, (List.append_nil _).symm⟩
  · rw [memory, opened, blocked, child, restored]
    exact ⟨rfl, kept _, rfl⟩

-- With an error there from before, run_program gives its child no more thought once it has been forked.
theorem runProgram_unheard (env : Environment) (argv : List String) {self : Process} {report : Report}
    (said : self.report = some report) :
    (runProgram env argv self).2.report.isSome = true ∧
      (runProgram env argv self).2.children =
        self.children ++ if forks env = true then env.fork.toOption.toList else [] := by
  cases memory : env.memory with
  | false =>
    have unforked : forks env = false := by simp [forks, memory]
    unfold runProgram
    rw [if_neg (by simp [memory]), unforked]
    exact ⟨rfl, (List.append_nil _).symm⟩
  | true =>
    rcases givesUp_or env with failed | ⟨pipe, pid, opened, blocked, child, restored⟩
    · obtain ⟨gone, told, children⟩ := execProgram_unheard (argvToString argv) memory said failed
      rw [runProgram_abandoned argv memory gone]
      exact ⟨told, children⟩
    · have forked_here : forks env = true := by
        unfold forks
        rw [memory, opened, blocked, child]
        rfl
      rw [runProgram_forked argv memory opened blocked child restored, if_neg (by simp [said]), if_pos forked_here, child]
      exact ⟨congrArg Option.isSome said, rfl⟩

end Netcf.Posix
