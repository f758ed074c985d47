import Netcf.Posix.Codes
import Netcf.Transaction.Refinement

set_option autoImplicit false

-- Transactions as a caller of the library has them: the script is the child of run_program, and the parent
-- may fail before the fork or lose the child after it.
namespace Netcf.Transaction.Api

open Shared.Simulation
open Posix (Environment Process Act Status forks listens statusCode runCode runProgram_code)
open Linux (Errcode)

variable {Content : Type}

section Library

-- NETCF_TRANSACTION, where configure has found the script.
variable (transaction : String)

-- The three functions of the driver differ in the word that they pass to the script.
def changeWith (word : String) (env : Environment) (flags : BitVec 32) : Act Int := do
  if flags ≠ 0 then
    Posix.reportError .other ("unsupported flags value " ++ toString flags.toInt)
    return -1
  else
    Posix.run1 env transaction word
    match (← get).report with
    | some _ => return -1
    | none => return 0

def drvChangeBegin (env : Environment) (flags : BitVec 32) : Act Int :=
  changeWith transaction "change-begin" env flags

def drvChangeRollback (env : Environment) (flags : BitVec 32) : Act Int :=
  changeWith transaction "change-rollback" env flags

def drvChangeCommit (env : Environment) (flags : BitVec 32) : Act Int :=
  changeWith transaction "change-commit" env flags

-- API_ENTRY, as far as the errors go.
def apiEntry : Act Unit :=
  modify fun self => { self with report := none }

def ncfChangeBegin (env : Environment) (flags : BitVec 32) : Act Int := do
  apiEntry
  drvChangeBegin transaction env flags

def ncfChangeRollback (env : Environment) (flags : BitVec 32) : Act Int := do
  apiEntry
  drvChangeRollback transaction env flags

def ncfChangeCommit (env : Environment) (flags : BitVec 32) : Act Int := do
  apiEntry
  drvChangeCommit transaction env flags

end Library

section Child

-- The words that the case at the end of the script takes to one of its functions.
def Argument.ofWord : String → Option Argument
  | "start" | "restart" | "reload" | "force-reload" | "condrestart" | "try-restart" => some .start
  | "change-begin" => some .changeBegin
  | "change-commit" => some .changeCommit
  | "change-rollback" => some .changeRollback
  | _ => none

variable [DecidableEq Content]

-- The other words change nothing; a word that the script does not know leads to its usage.
def script (word : String) (faults : Faults Content) (stamp : String) (w : World Content) : Nat × World Content :=
  match Argument.ofWord word with
  | some argument => ((main argument faults stamp w).status, (main argument faults stamp w).world)
  | none => (if word ∈ ["stop", "status", "--help", "snapshot-dir"] then 0 else 2, w)

-- How the child of exec_program ends: by itself in front of the program, or as the script.
inductive Child (Content : Type) where
  | sigmask
  | dup2
  | enoent
  | cannotInvoke
  | invoked (faults : Faults Content) (stamp : String)

def Child.exit (word : String) (w : World Content) : Child Content → Nat × World Content
  | .sigmask => (Posix.exitSigmask, w)
  | .dup2 => (Posix.exitDup2, w)
  | .enoent => (Posix.exitEnoent, w)
  | .cannotInvoke => (Posix.exitCannotInvoke, w)
  | .invoked faults stamp => script word faults stamp w

-- W_EXITCODE (code, 0) of sys/wait.h.
def exitStatus (code : Nat) : Status :=
  BitVec.ofNat 32 code <<< 8

end Child

section Serving

inductive Entry where
  | begin
  | rollback
  | commit
  deriving DecidableEq

def Entry.word : Entry → String
  | .begin => "change-begin"
  | .rollback => "change-rollback"
  | .commit => "change-commit"

def Entry.ncf (transaction : String) : Entry → Environment → BitVec 32 → Act Int
  | .begin => ncfChangeBegin transaction
  | .rollback => ncfChangeRollback transaction
  | .commit => ncfChangeCommit transaction

structure Call (Content : Type) where
  entry : Entry
  flags : BitVec 32
  env : Environment
  child : Child Content

inductive Event (Content : Type) where
  | call (c : Call Content)
  | write (name : FileName) (c : Content)
  | delete (name : FileName)

structure Answer where
  ret : Int
  code : Option Errcode
  deriving DecidableEq

structure System (Content : Type) where
  world : World Content
  process : Process

-- The status that waitpid delivers, when it delivers one, is that of the child.
def ending (code : Nat) (env : Environment) : Environment :=
  { env with completion := env.completion.map fun _ => exitStatus code }

variable [DecidableEq Content]

def Call.serve (transaction : String) (c : Call Content) (s : System Content) : Answer × System Content :=
  let ended := c.child.exit c.entry.word s.world
  let told := c.entry.ncf transaction (ending ended.1 c.env) c.flags s.process
  (⟨told.1, told.2.report.map (·.code)⟩,
    ⟨if c.flags = 0 ∧ forks c.env = true then ended.2 else s.world, told.2⟩)

def Event.serve (transaction : String) : Event Content → System Content → Answer × System Content
  | .call c, s => c.serve transaction s
  | .write name c, s => (⟨0, none⟩, { s with world := { s.world with config := s.world.config.insert name c } })
  | .delete name, s => (⟨0, none⟩, { s with world := { s.world with config := s.world.config.erase name } })

end Serving

section Told

def callCode (flags : BitVec 32) (env : Environment) : Option Errcode :=
  if flags = 0 then runCode env else some .other

theorem changeWith_run (transaction word : String) (env : Environment) (flags : BitVec 32) {self : Process}
    (clear : self.report = none) :
    let told := changeWith transaction word env flags self
    told.2.report.map (·.code) = callCode flags env ∧ told.1 = if callCode flags env = none then 0 else -1 := by
  unfold changeWith callCode
  by_cases plain : flags = 0
  · have code : (Posix.run1 env transaction word self).2.report.map (·.code) = runCode env :=
      runProgram_code env [transaction, word] clear
    rw [if_neg (not_not_intro plain), if_pos plain]
    simp only [bind, StateT.bind, get, getThe, MonadStateOf.get, StateT.get, pure]
    cases ended : Posix.run1 env transaction word self with
    | mk u after =>
      rw [ended] at code
      dsimp only at code ⊢
      rw [← code]
      cases said : after.report with
      | none => exact ⟨congrArg (Option.map _) said, rfl⟩
      | some report => exact ⟨congrArg (Option.map _) said, rfl⟩
  · rw [if_pos plain, if_neg plain]
    refine ⟨?_, rfl⟩
    change (self.report.or (some ⟨.other, _⟩)).map (·.code) = some .other
    rw [clear]
    rfl

def answer (code : Option Errcode) : Answer :=
  ⟨if code = none then 0 else -1, code⟩

theorem Entry.ncf_run (transaction : String) (entry : Entry) (env : Environment) (flags : BitVec 32) (self : Process) :
    entry.ncf transaction env flags self =
      changeWith transaction entry.word env flags { self with report := none } := by
  cases entry <;> rfl

variable [DecidableEq Content]

theorem Call.serve_run (transaction : String) (c : Call Content) (s : System Content) :
    (c.serve transaction s).1 =
        answer (callCode c.flags (ending (c.child.exit c.entry.word s.world).1 c.env)) ∧
      (c.serve transaction s).2.world =
        if c.flags = 0 ∧ forks c.env = true then (c.child.exit c.entry.word s.world).2 else s.world := by
  refine ⟨?_, rfl⟩
  have ran := @changeWith_run transaction c.entry.word (ending (c.child.exit c.entry.word s.world).1 c.env) c.flags
    { s.process with report := none } rfl
  have same := Entry.ncf_run transaction c.entry (ending (c.child.exit c.entry.word s.world).1 c.env) c.flags s.process
  simp only [Call.serve, same]
  exact congrArg₂ Answer.mk ran.2 ran.1

end Told

section Refining

def Entry.action : Entry → Abstract.Action (FileName → Option Content)
  | .begin => .begin
  | .rollback => .rollback
  | .commit => .commit

-- The number that a process exits with, as its caller is told.
def told (status : Nat) : Answer :=
  answer (if status = 0 then none else if status = 199 then some .invalidOp else some .exec)

variable [DecidableEq Content]

def Child.isScript : Child Content → Bool
  | .invoked _ _ => true
  | _ => false

-- A call as a request: whether it reaches the transaction, and what is answered then.
def Call.request (c : Call Content) : Abstract.Request (FileName → Option Content) Answer :=
  if c.flags ≠ 0 then ⟨none, fun _ => answer (some .other)⟩
  else if c.env.memory = false then ⟨none, fun _ => answer (some .nomem)⟩
  else if forks c.env = false ∨ c.child.isScript = false then ⟨none, fun _ => answer (some .exec)⟩
  else if listens c.env = false then ⟨some c.entry.action, fun _ => answer (some .exec)⟩
  else ⟨some c.entry.action, told⟩

def Event.request : Event Content → Abstract.Request (FileName → Option Content) Answer
  | .call c => c.request
  | .write name c => ⟨some (.edit fun m => Function.update m name (some c)), told⟩
  | .delete name => ⟨some (.edit fun m => Function.update m name none), told⟩

-- The commands of the script succeed, and waitpid delivers the status of the child.
structure Call.Sound (c : Call Content) : Prop where
  waited : ∃ status, c.env.completion = .ok status
  commands : ∀ faults stamp, c.child = .invoked faults stamp → faults = Faults.none

def Event.Sound : Event Content → Prop
  | .call c => c.Sound
  | .write _ _ | .delete _ => True

theorem ending_status {env : Environment} {status : Status} (code : Nat) (waited : env.completion = .ok status) :
    (ending code env).status = exitStatus code := by
  unfold Environment.status ending
  rw [waited]
  rfl

-- The script without failing commands, as the child of the three functions.
theorem script_simulates (entry : Entry) (stamp : String) (w : World Content) :
    (script entry.word Faults.none stamp w).1 = (Abstract.step entry.action (view w)).1 ∧
      view (script entry.word Faults.none stamp w).2 = (Abstract.step entry.action (view w)).2 := by
  cases entry with
  | begin => exact step_simulates .changeBegin w
  | rollback => exact step_simulates (.changeRollback stamp) w
  | commit => exact step_simulates .changeCommit w

theorem statusCode_exit {code : Nat} (known : code ∈ [0, 199, 124, 125, 126, 127]) :
    statusCode (exitStatus code) =
      if code = 0 then none else if code = 199 then some .invalidOp else some .exec := by
  revert code
  decide

-- A child that does not get to the script ends with one of the codes that stand for that.
theorem Child.exit_of_not_script (word : String) (w : World Content) {child : Child Content}
    (stopped : child.isScript = false) :
    (child.exit word w).2 = w ∧ statusCode (exitStatus (child.exit word w).1) = some .exec := by
  cases child with
  | sigmask => exact ⟨rfl, @statusCode_exit 125 (by decide)⟩
  | dup2 => exact ⟨rfl, @statusCode_exit 124 (by decide)⟩
  | enoent => exact ⟨rfl, @statusCode_exit 127 (by decide)⟩
  | cannotInvoke => exact ⟨rfl, @statusCode_exit 126 (by decide)⟩
  | invoked faults stamp => cases stopped

theorem Child.exit_script {c : Call Content} (sound : c.Sound) (script : c.child.isScript = true) (w : World Content) :
    (c.child.exit c.entry.word w).1 = (Abstract.step c.entry.action (view w)).1 ∧
      view (c.child.exit c.entry.word w).2 = (Abstract.step c.entry.action (view w)).2 := by
  cases invoked : c.child with
  | invoked faults stamp =>
    rw [sound.commands faults stamp invoked]
    exact script_simulates c.entry stamp w
  | sigmask => simp [invoked, Child.isScript] at script
  | dup2 => simp [invoked, Child.isScript] at script
  | enoent => simp [invoked, Child.isScript] at script
  | cannotInvoke => simp [invoked, Child.isScript] at script

theorem Call.serve_simulates (transaction : String) {c : Call Content} (sound : c.Sound) (s : System Content) :
    (c.serve transaction s).1 = (c.request.serve (view s.world)).1 ∧
      view (c.serve transaction s).2.world = (c.request.serve (view s.world)).2 := by
  obtain ⟨answered, world⟩ := c.serve_run transaction s
  obtain ⟨status, waited⟩ := sound.waited
  rw [answered, world]
  unfold Call.request callCode
  by_cases flagged : c.flags ≠ 0
  · rw [if_pos flagged, if_neg flagged, if_neg fun both => flagged both.1]
    exact ⟨rfl, rfl⟩
  have plain : c.flags = 0 := not_not.mp flagged
  have delivered := ending_status (c.child.exit c.entry.word s.world).1 waited
  have runs : runCode (ending (c.child.exit c.entry.word s.world).1 c.env) =
      if c.env.memory = false then some .nomem
      else if (forks c.env && listens c.env) = true then statusCode (exitStatus (c.child.exit c.entry.word s.world).1)
      else some .exec := by
    rw [← delivered]
    rfl
  simp only [plain, ne_eq, not_true_eq_false, if_false, if_true, true_and]
  rw [runs]
  cases memory : c.env.memory with
  | false =>
    have none_forked : forks c.env = false := by simp [forks, memory]
    simp [none_forked, Abstract.Request.serve]
  | true =>
    cases forked : forks c.env with
    | false => simp [Abstract.Request.serve]
    | true =>
      cases script : c.child.isScript with
      | false =>
        obtain ⟨kept, exec⟩ := Child.exit_of_not_script c.entry.word s.world script
        simp [Abstract.Request.serve, kept, exec]
      | true =>
        obtain ⟨code, moved⟩ := Child.exit_script sound script s.world
        have known : statusCode (exitStatus (Abstract.step c.entry.action (view s.world)).1) =
            if (Abstract.step c.entry.action (view s.world)).1 = 0 then none
            else if (Abstract.step c.entry.action (view s.world)).1 = 199 then some .invalidOp else some .exec := by
          rcases Abstract.step_status c.entry.action (view s.world) with zero | refused
          · rw [zero]
            exact statusCode_exit (by decide)
          · rw [refused]
            exact statusCode_exit (by decide)
        cases heard : listens c.env with
        | false => simp [Abstract.Request.serve, moved]
        | true => simp [Abstract.Request.serve, moved, code, known, told]

theorem Event.serve_simulates (transaction : String) {e : Event Content} (sound : e.Sound) (s : System Content) :
    (e.serve transaction s).1 = (e.request.serve (view s.world)).1 ∧
      view (e.serve transaction s).2.world = (e.request.serve (view s.world)).2 := by
  cases e with
  | call c => exact c.serve_simulates transaction sound s
  | write name c =>
    refine ⟨rfl, ?_⟩
    simp [Event.serve, Event.request, Abstract.Request.serve, Abstract.step, view, files_insert]
  | delete name =>
    refine ⟨rfl, ?_⟩
    simp [Event.serve, Event.request, Abstract.Request.serve, Abstract.step, view, files_erase]

-- Whatever fails in the parent and in front of the script, the calls are a run of the abstract transaction in
-- which some requests do not arrive and some answers are lost.
theorem calls_refine_transaction (transaction : String) (events : List (Event Content)) (start : System Content)
    (sound : ∀ e ∈ events, e.Sound) :
    (run (Event.serve transaction) events start).1 =
        (run (fun e => e.request.serve) events (view start.world)).1 ∧
      view (run (Event.serve transaction) events start).2.world =
        (run (fun e => e.request.serve) events (view start.world)).2 :=
  simulated_run (fun s : System Content => view s.world) events
    (fun e listed s => e.serve_simulates transaction (sound e listed) s) start

-- A call with enough of everything, whose child runs the script.
def plainly (entry : Entry) (flags : BitVec 32) : Call Nat :=
  ⟨entry, flags, Posix.endingWith (.ok 0), .invoked Faults.none "2011-10-30-12:00:00"⟩

def loopback : System Nat :=
  ⟨⟨AList.insert ⟨.ifcfg, "lo"⟩ 1 ∅, none, ∅⟩, Posix.caller⟩

-- The commit is done, but the stream of its output cannot be set up.
def deaf : Call Nat :=
  { plainly .commit 0 with env := { Posix.endingWith (.ok 0) with fdopen := .error "Cannot allocate memory" } }

def lostCommit : List (Event Nat) :=
  [.call (plainly .begin 0), .write ⟨.ifcfg, "lo"⟩ 2, .call deaf, .call (plainly .rollback 0)]

theorem plainly_sound (entry : Entry) (flags : BitVec 32) : (plainly entry flags).Sound := by
  refine ⟨⟨0, rfl⟩, ?_⟩
  intro faults stamp invoked
  cases invoked
  rfl

theorem deaf_sound : deaf.Sound :=
  ⟨⟨0, rfl⟩, (plainly_sound .commit 0).commands⟩

theorem calls_refine_transaction_lostCommit :
    (run (Event.serve "netcf-transaction") lostCommit loopback).1 =
        (run (fun e => e.request.serve) lostCommit (view loopback.world)).1 ∧
      view (run (Event.serve "netcf-transaction") lostCommit loopback).2.world =
        (run (fun e => e.request.serve) lostCommit (view loopback.world)).2 :=
  calls_refine_transaction "netcf-transaction" lostCommit loopback (by
    simp [lostCommit, Event.Sound, plainly_sound, deaf_sound])

-- The caller is told of a failure, but the transaction is over.
example : (run (Event.serve "netcf-transaction") lostCommit loopback).1 =
    [⟨0, none⟩, ⟨0, none⟩, ⟨-1, some .exec⟩, ⟨-1, some .invalidOp⟩] := by decide +kernel

end Refining

section Visible

variable [DecidableEq Content]

def Event.closes : Event Content → Bool
  | .call c => c.entry ≠ .begin
  | .write _ _ | .delete _ => false

-- The answers that tell the caller that nothing has been committed or rolled back.
def Answer.declines (a : Answer) : Prop :=
  a.code ∈ [some .other, some .nomem, some .invalidOp]

instance (a : Answer) : Decidable a.declines :=
  inferInstanceAs (Decidable (_ ∈ _))

theorem told_zero {status : Nat} (zero : (told status).ret = 0) : status = 0 := by
  by_contra other
  unfold told answer at zero
  rw [if_neg other] at zero
  by_cases refused : status = 199
  · simp [refused] at zero
  · simp [refused] at zero

omit [DecidableEq Content] in
theorem Call.request_succeeds {c : Call Content} {v : Abstract.State (FileName → Option Content)}
    (success : (c.request.serve v).1.ret = 0) :
    (Abstract.step c.entry.action v).1 = 0 ∧ (c.request.serve v).2 = (Abstract.step c.entry.action v).2 := by
  unfold Call.request at success ⊢
  split_ifs at success ⊢ with flagged memory stopped deaf
  · simp [Abstract.Request.serve, answer] at success
  · simp [Abstract.Request.serve, answer] at success
  · simp [Abstract.Request.serve, answer] at success
  · simp [Abstract.Request.serve, answer] at success
  · exact ⟨told_zero success, rfl⟩

omit [DecidableEq Content] in
-- What the answers leave open: a commit or a rollback that has acted is answered with success or EEXEC.
theorem Call.request_declined {c : Call Content} {v : Abstract.State (FileName → Option Content)}
    (declined : (c.request.serve v).1.declines) :
    (c.request.serve v).2 = v ∨ (Abstract.step c.entry.action v).1 = Abstract.invalid ∧
      (c.request.serve v).2 = (Abstract.step c.entry.action v).2 := by
  unfold Call.request Answer.declines at declined
  unfold Call.request
  split_ifs at declined ⊢ with flagged memory stopped deaf
  · exact Or.inl rfl
  · exact Or.inl rfl
  · exact Or.inl rfl
  · simp [Abstract.Request.serve, answer] at declined
  · right
    rcases Abstract.step_status c.entry.action v with zero | refused
    · simp [Abstract.Request.serve, told, answer, zero] at declined
    · exact ⟨refused, rfl⟩

-- Begins and edits leave an open transaction open, and so do the others when they are declined.
theorem Event.serve_keeps_open (transaction : String) {e : Event Content} (sound : e.Sound) {s : System Content}
    {m : FileName → Option Content} (opened : (view s.world).saved = some m)
    (fine : e.closes = true → (e.serve transaction s).1.declines) :
    (view (e.serve transaction s).2.world).saved = some m := by
  obtain ⟨answered, moved⟩ := e.serve_simulates transaction sound s
  rw [moved]
  rw [answered] at fine
  cases e with
  | write name c => exact opened
  | delete name => exact opened
  | call c =>
    by_cases closes : c.entry = .begin
    · change (c.request.serve (view s.world)).2.saved = some m
      have begins : (Abstract.step (c.entry.action : Abstract.Action (FileName → Option Content)) (view s.world)).2.saved =
          some m := by
        rw [closes]
        exact Abstract.step_saved m .begin (view s.world) trivial opened
      unfold Call.request
      split_ifs
      · exact opened
      · exact opened
      · exact opened
      · exact begins
      · exact begins
    · have declined := fine (by simpa [Event.closes] using closes)
      rcases Call.request_declined declined with kept | ⟨refused, kept⟩
      · change (c.request.serve (view s.world)).2.saved = some m
        rw [kept]
        exact opened
      · change (c.request.serve (view s.world)).2.saved = some m
        rw [kept, Abstract.step_refused refused]
        exact opened

-- What the answers alone let the caller rely on: between a begin and a rollback that are both answered with 0,
-- with every commit and rollback in between answered with EOTHER, ENOMEM or EINVALIDOP, the rollback brings back
-- the files that the begin found.
theorem rollback_restores_begun (transaction : String) (s : System Content) (opening closing : Call Content)
    (between : List (Event Content)) (begins : opening.entry = .begin) (rolls : closing.entry = .rollback)
    (sound : opening.Sound ∧ (∀ e ∈ between, e.Sound) ∧ closing.Sound)
    (begun : (opening.serve transaction s).1.ret = 0)
    (declined : ∀ pair ∈ between.zip (run (Event.serve transaction) between (opening.serve transaction s).2).1,
      pair.1.closes = true → pair.2.declines)
    (rolled : (closing.serve transaction
      (run (Event.serve transaction) between (opening.serve transaction s).2).2).1.ret = 0) :
    view (closing.serve transaction
        (run (Event.serve transaction) between (opening.serve transaction s).2).2).2.world =
      ⟨files s.world.config, none⟩ := by
  obtain ⟨first, middle, last⟩ := sound
  obtain ⟨answered, moved⟩ := opening.serve_simulates transaction first s
  rw [answered] at begun
  obtain ⟨accepted, acted⟩ := Call.request_succeeds begun
  have opened : (view (opening.serve transaction s).2.world).saved = some (files s.world.config) := by
    rw [begins] at accepted acted
    rw [moved, acted]
    exact Abstract.begin_saves accepted
  have kept := run_answered (Event.serve transaction)
    (fun t : System Content => (view t.world).saved = some (files s.world.config))
    (fun e a => e.Sound ∧ (e.closes = true → a.declines))
    (fun e t open_ fine => e.serve_keeps_open transaction fine.1 open_ fine.2) between (opening.serve transaction s).2
    (fun pair listed => ⟨middle pair.1 (List.of_mem_zip listed).1, declined pair listed⟩) opened
  obtain ⟨answered', moved'⟩ := closing.serve_simulates transaction last
    (run (Event.serve transaction) between (opening.serve transaction s).2).2
  rw [answered'] at rolled
  obtain ⟨_, acted'⟩ := Call.request_succeeds rolled
  rw [rolls] at acted'
  rw [moved', acted']
  exact Abstract.rollback_returns kept

def refusedCommits : List (Event Nat) :=
  [.write ⟨.ifcfg, "lo"⟩ 2, .call (plainly .commit 1), .call (plainly .begin 0)]

theorem rollback_restores_begun_refused :
    view ((plainly .rollback 0).serve "netcf-transaction"
        (run (Event.serve "netcf-transaction") refusedCommits
          ((plainly .begin 0).serve "netcf-transaction" loopback).2).2).2.world =
      ⟨files loopback.world.config, none⟩ :=
  rollback_restores_begun "netcf-transaction" loopback (plainly .begin 0) (plainly .rollback 0) refusedCommits rfl rfl
    ⟨plainly_sound _ _, by simp [refusedCommits, Event.Sound, plainly_sound], plainly_sound _ _⟩
    (by decide +kernel) (by decide +kernel) (by decide +kernel)

end Visible

end Netcf.Transaction.Api
