import Netcf.Linux.Augeas

set_option autoImplicit false

-- exec_program and run_program (dutil_posix.c): a child, the pipe that its output comes through and
-- the signal mask around the fork.
namespace Netcf.Posix

open Linux (Errcode)

section Status

-- What waitpid stores, taken apart as sys/wait.h does it.
abbrev Status := BitVec 32

def wtermsig (status : Status) : Nat :=
  (status &&& 0x7f).toNat

def wifexited (status : Status) : Bool :=
  wtermsig status = 0

-- ((signed char) ((status & 0x7f) + 1) >> 1) > 0
def wifsignaled (status : Status) : Bool :=
  wtermsig status ≠ 0 && wtermsig status ≠ 0x7f

def wexitstatus (status : Status) : Nat :=
  ((status >>> 8) &&& 0xff).toNat

def exitDup2 : Nat := 124

def exitSigmask : Nat := 125

def exitCannotInvoke : Nat := 126

def exitEnoent : Nat := 127

def exitInvalidInThisState : Nat := 199

end Status

structure Report where
  code : Errcode
  details : String
  deriving DecidableEq

abbrev SigSet := BitVec 64

structure Process where
  mask : SigSet
  descriptors : List Nat
  closes : List Nat
  children : List Nat
  report : Option Report

structure Pipe where
  readEnd : Nat
  writeEnd : Nat
  apart : readEnd ≠ writeEnd

-- What the system answers to each call. A failing call comes with the text of its error, FILLED is the mask that a
-- full set of signals leads to, and UNSET is what the variable for the status of the child holds as long as
-- nothing is stored in it.
structure Environment where
  memory : Bool
  pipe : Except String Pipe
  filled : SigSet
  block : Except String Unit
  fork : Except String Nat
  restore : Except String Unit
  fdopen : Except String Unit
  output : Except String String
  interruptions : Nat
  completion : Except String Status
  unset : Status

abbrev Act := StateM Process

def argvToString (argv : List String) : String :=
  " ".intercalate argv

-- Only the first error is remembered.
def reportError (code : Errcode) (details : String) : Act Unit :=
  modify fun self => { self with report := self.report.or (some ⟨code, details⟩) }

def close (fd : Nat) : Act Unit :=
  modify fun self => { self with closes := self.closes ++ [fd], descriptors := self.descriptors.erase fd }

def setMask (mask : SigSet) : Act Unit :=
  modify fun self => { self with mask := mask }

section Exec

variable (env : Environment) (commandline : String)

-- The pid of the child and the read end.  Without a child both ends are closed, where there are any.
def execProgram : Act (Option (Nat × Nat)) := do
  match env.pipe with
  | .error errbuf =>
    reportError .exec ("failed to create pipe while forking for '" ++ commandline ++ "': " ++ errbuf)
    return none
  | .ok pipe =>
    let error (details : String) : Act (Option (Nat × Nat)) := do
      reportError .exec details
      close pipe.readEnd
      close pipe.writeEnd
      return none
    modify fun self => { self with descriptors := pipe.readEnd :: pipe.writeEnd :: self.descriptors }
    match env.block with
    | .error errbuf =>
      error ("failed to set signal mask while forking for '" ++ commandline ++ "': " ++ errbuf)
    | .ok _ =>
      let oldmask := (← get).mask
      setMask env.filled
      match env.fork with
      | .error errbuf => error ("failed to fork for '" ++ commandline ++ "': " ++ errbuf)
      | .ok pid =>
        modify fun self => { self with children := self.children ++ [pid] }
        match env.restore with
        | .error errbuf =>
          error ("failed to restore signal mask while forking for '" ++ commandline ++ "': " ++ errbuf)
        | .ok _ =>
          setMask oldmask
          close pipe.writeEnd
          return some (pid, pipe.readEnd)

end Exec

section Run

variable (env : Environment)

-- What is assigned to waitret is the comparison of the result of waitpid with -1.
def waitChild (pid : Nat) : Nat → Act (Int × Status)
  | interruptions + 1 => waitChild pid interruptions
  | 0 =>
    match env.completion with
    | .error _ => return (1, env.unset)
    | .ok status => do
      modify fun self => { self with children := self.children.erase pid }
      return (0, status)

def errorText {α : Type} : Except String α → String
  | .error errbuf => errbuf
  | .ok _ => ""

def statusReport (argvStr output : String) (waitret : Int) (exitstatus : Status) : Option Report :=
  if waitret = -1 then
    some ⟨.exec, "Failed waiting for completion of '" ++ argvStr ++ "': " ++ errorText env.completion⟩
  else if !wifexited exitstatus && wifsignaled exitstatus then
    some ⟨.exec, "'" ++ argvStr ++ "' terminated by signal: " ++ toString (wtermsig exitstatus)⟩
  else if !wifexited exitstatus then
    some ⟨.exec, "'" ++ argvStr ++ "' terminated improperly"⟩
  else if wexitstatus exitstatus = exitEnoent then
    some ⟨.exec, "Running '" ++ argvStr ++ "' program not found"⟩
  else if wexitstatus exitstatus = exitCannotInvoke then
    some ⟨.exec, "Running '" ++ argvStr ++ "' program located but not usable"⟩
  else if wexitstatus exitstatus = exitSigmask then
    some ⟨.exec, "Running '" ++ argvStr ++ "' failed to reset child process signal mask"⟩
  else if wexitstatus exitstatus = exitDup2 then
    some ⟨.exec, "Running '" ++ argvStr ++ "' failed to dup2 child process stdout/stderr"⟩
  else if wexitstatus exitstatus = exitInvalidInThisState then
    some ⟨.invalidOp, "Running '" ++ argvStr ++ "' operation is invalid in this state"⟩
  else if wexitstatus exitstatus ≠ 0 then
    some ⟨.exec, "Running '" ++ argvStr ++ "' failed with exit code " ++ toString (wexitstatus exitstatus) ++ ": " ++
      output⟩
  else none

structure Result where
  ret : Int
  output : Option String

-- What the code does at its label error, where a stream has the descriptor of the pipe.
def release (outfile outfd : Option Nat) : Act Unit :=
  match outfile, outfd with
  | some fd, _ => close fd
  | none, some fd => close fd
  | none, none => return ()

def collect (argvStr : String) (pid outfd : Nat) : Act Result := do
  match env.fdopen with
  | .error errbuf =>
    reportError .exec
      ("Failed to create file stream for output while executing '" ++ argvStr ++ "': " ++ errbuf)
    release none outfd
    return ⟨-1, none⟩
  | .ok _ =>
    match env.output with
    | .error errbuf =>
      reportError .exec ("Error while reading output from execution of '" ++ argvStr ++ "': " ++ errbuf)
      release outfd outfd
      return ⟨-1, none⟩
    | .ok output =>
      close outfd
      let (waitret, exitstatus) ← waitChild env pid env.interruptions
      match statusReport env argvStr output waitret exitstatus with
      | some report =>
        reportError report.code report.details
        release none outfd
        return ⟨-1, some output⟩
      | none =>
        release none outfd
        return ⟨0, some output⟩

def runProgram (argv : List String) : Act Result := do
  if env.memory then
    let child ← execProgram env (argvToString argv)
    match child, (← get).report with
    | none, _ =>
      release none none
      return ⟨-1, none⟩
    | some (_, outfd), some _ =>
      release none outfd
      return ⟨-1, none⟩
    | some (pid, outfd), none => collect env (argvToString argv) pid outfd
  else
    modify fun self => { self with report := some ⟨.nomem, ""⟩ }
    release none none
    return ⟨-1, none⟩

def run1 (prog arg : String) : Act Unit := do
  let _ ← runProgram env [prog, arg]
  return ()

end Run

end Netcf.Posix
