import Netcf.Linux.Holding
import Netcf.Tool.Grammar
import Netcf.Tool.Handlers

set_option autoImplicit false

-- Whole sessions: what ncftool gives back, what it says, and where it ends.
namespace Netcf.Tool

open Shared.Faulty Shared.Triples
open Linux.References (Held Reported triple_ncfIfFree)

variable {C D α : Type}

section Promises

-- What ncftool relies on when it asks for one interface at a time.
structure Documented (library : Library C D) : Prop where
  numOfInterfaces : ∀ flags, Triple (Held []) (library.numOfInterfaces flags)
    (fun nint s => Held [] s ∧ Reported nint s) never
  listInterfaces : ∀ maxnames flags, Triple (Held []) (library.listInterfaces maxnames flags)
    (fun names s => Held [] s ∧ Reported names s) never
  lookupByName : ∀ name, Triple (Held []) (library.lookupByName name) (fun nif => Held nif.toList) never
  lookupByMacString : ∀ mac, Triple (Held []) (library.lookupByMacString mac 1)
    (fun answer s => Held answer.2.head?.join.toList s ∧
      (answer.1 < 0 → answer.2.head?.join = none ∧ s.errcode.isSome = true)) never
  define : ∀ xml, Triple (Held []) (library.define xml)
    (fun nif s => Held nif.toList s ∧ Reported nif s) never
  name : ∀ nif, Triple (Held [nif]) (library.name nif) (fun _ => Held [nif]) never
  macString : ∀ nif, Triple (Held [nif]) (library.macString nif) (fun _ => Held [nif]) fun abort _ => abort = .wild
  undefine : ∀ nif, Triple (Held [nif]) (library.undefine nif)
    (fun r s => Held [nif] s ∧ (r < 0 → s.errcode.isSome = true)) never
  up : ∀ nif, Triple (Held [nif]) (library.up nif) (fun _ => Held [nif]) never
  down : ∀ nif, Triple (Held [nif]) (library.down nif) (fun _ => Held [nif]) never
  xmlDesc : ∀ nif, Triple (Held [nif]) (library.xmlDesc nif)
    (fun xml s => Held [nif] s ∧ Reported xml s) never
  xmlState : ∀ nif, Triple (Held [nif]) (library.xmlState nif)
    (fun xml s => Held [nif] s ∧ Reported xml s) never
  changeBegin : Triple (Held []) library.changeBegin
    (fun r s => Held [] s ∧ (r < 0 → s.errcode.isSome = true)) never
  changeCommit : Triple (Held []) library.changeCommit
    (fun r s => Held [] s ∧ (r < 0 → s.errcode.isSome = true)) never
  changeRollback : Triple (Held []) library.changeRollback
    (fun r s => Held [] s ∧ (r < 0 → s.errcode.isSome = true)) never

end Promises

section Console

structure Since (start s : Session) : Prop where
  said : start.complaints <+: s.complaints
  drawn : s.faults <:+ start.faults

structure Loud (start s : Session) : Prop extends Since start s where
  more : start.complaints ≠ s.complaints

variable {start s : Session}

theorem Since.refl (s : Session) : Since s s :=
  ⟨List.prefix_rfl, List.suffix_rfl⟩

theorem Since.trans {middle : Session} (first : Since start middle) (second : Since middle s) : Since start s :=
  ⟨first.said.trans second.said, second.drawn.trans first.drawn⟩

theorem Since.told (since : Since start s) (text : String) : Loud start (s.told text) := by
  refine ⟨⟨since.said.trans (List.prefix_append _ _), since.drawn⟩, fun same => ?_⟩
  have longer := congrArg List.length same
  have shorter := since.said.length_le
  unfold Session.told at longer
  rw [List.length_append, List.length_singleton] at longer
  omega

-- What has been said in front of it counts, too.
theorem Loud.since {middle : Session} (first : Since start middle) (loud : Loud middle s) : Loud start s := by
  refine ⟨first.trans loud.toSince, fun same => loud.more ?_⟩
  have back : s.complaints <+: middle.complaints := same ▸ first.said
  exact loud.said.eq_of_length (le_antisymm loud.said.length_le back.length_le)

-- It is not taken back by what comes later.
theorem Loud.later {last : Session} (loud : Loud start s) (later : Since s last) : Loud start last := by
  refine ⟨loud.toSince.trans later, fun same => loud.more ?_⟩
  have back : s.complaints <+: start.complaints := same ▸ later.said
  exact loud.said.eq_of_length (le_antisymm loud.said.length_le back.length_le)

theorem triple_allocFails (start : Session) {thrown : Stop → Session → Prop} :
    Triple (Since start) allocFails (fun _ => Since start) thrown := by
  intro s since
  unfold allocFails
  cases faults : s.faults with
  | nil => exact since
  | cons fails later =>
    refine ⟨since.said, ?_⟩
    have suffix := since.drawn
    rw [faults] at suffix
    exact (List.suffix_cons fails later).trans suffix

theorem triple_complain (start : Session) (text : String) {thrown : Stop → Session → Prop} :
    Triple (Since start) (complain text) (fun _ => Loud start) thrown :=
  fun _ since => since.told text

end Console

section Parts

variable {pre : Linux.References.Session C D → Prop} {kept : Session → Prop} {thrown : Crash → Shell C D → Prop}

theorem triple_aborts {program : Linux.References.Program C D α} {post : α → Linux.References.Session C D → Prop}
    {aborts : Linux.References.Abort → Prop} (promise : Triple pre program post fun abort _ => aborts abort)
    (failed : ∀ abort shell, aborts abort → thrown (.library abort) shell) :
    Triple (fun shell => pre shell.library ∧ kept shell.console) (calls program)
      (fun a shell => post a shell.library ∧ kept shell.console) thrown :=
  promise.within libraryPart (fun shell => kept shell.console) (fun _ _ => id) fun abort _ _ stops _ =>
    failed abort _ stops

theorem triple_calls {program : Linux.References.Program C D α} {post : α → Linux.References.Session C D → Prop}
    (promise : Triple pre program post never) :
    Triple (fun shell => pre shell.library ∧ kept shell.console) (calls program)
      (fun a shell => post a shell.library ∧ kept shell.console) thrown :=
  triple_aborts promise fun _ _ impossible => (impossible : False).elim

theorem triple_tools {call : Call α} {post : α → Session → Prop} {stopped : Stop → Session → Prop}
    (promise : Triple kept call post stopped)
    (failed : ∀ stop (shell : Shell C D) session, stopped stop session → pre shell.library →
      thrown (.tool stop) { shell with console := session }) :
    Triple (fun shell : Shell C D => pre shell.library ∧ kept shell.console) (tools call)
      (fun a shell => pre shell.library ∧ post a shell.console) thrown := by
  have turned : Triple (fun shell : Shell C D => kept shell.console ∧ pre shell.library) (tools call)
      (fun a shell => post a shell.console ∧ pre shell.library) thrown :=
    promise.within consolePart (fun shell => pre shell.library) (fun _ _ => id)
      fun stop session shell => failed stop shell session
  exact turned.weaken (fun _ => And.symm) (fun _ _ => And.symm) fun _ _ => id

theorem triple_draw (start : Session) :
    Triple (fun shell : Shell C D => pre shell.library ∧ Since start shell.console) (tools allocFails)
      (fun _ shell => pre shell.library ∧ Since start shell.console) thrown :=
  triple_tools (triple_allocFails start) fun _ _ _ impossible => (impossible : False).elim

theorem triple_print {kept : Shell C D → Prop} {text : String}
    (blind : ∀ shell, kept shell → kept { shell with printed := shell.printed ++ [text] }) :
    Triple kept (print text) (fun _ => kept) thrown :=
  triple_modify blind

theorem triple_say {kept : Shell C D → Prop} {start : Session} {text : String}
    (deaf : ∀ shell session, kept shell → kept { shell with console := session }) :
    Triple (fun shell => kept shell ∧ Since start shell.console) (say text)
      (fun _ shell => kept shell ∧ Loud start shell.console) thrown :=
  fun shell given => ⟨deaf shell _ given.1, given.2.told text⟩

theorem triple_free (nif : Nat) (said : Option Linux.Errcode → Prop) :
    Triple (fun shell : Shell C D => (Held [nif] shell.library ∧ said shell.library.errcode) ∧ kept shell.console)
      (free (some nif)) (fun _ shell => (Held [] shell.library ∧ said shell.library.errcode) ∧ kept shell.console)
      thrown :=
  triple_calls (triple_ncfIfFree nif said)

end Parts

section Handlers

variable {library : Library C D} {command : Command} {start : Session}

structure Handed (command : Command) : Prop where
  listed : command.definition ∈ commands
  given : ∀ name ∈ command.definition.handler, ∃ tok, paramValue command name = some (.string tok)
  worded : paramValue command "command" ≠ some .bvalue

def Prompt (start : Session) (shell : Shell C D) : Prop :=
  Held [] shell.library ∧ Since start shell.console

-- A handler that fails has said so, or the library has an error to report, or it is a SILENT case.
def Done (start : Session) (silent : Prop) (res : CmdRes) (shell : Shell C D) : Prop :=
  Prompt start shell ∧
    (res = .err → Loud start shell.console ∨ shell.library.errcode.isSome = true ∨ silent)

theorem done_fine {silent : Prop} {res : CmdRes} {shell : Shell C D} (prompt : Prompt start shell)
    (fine : res ≠ .err) : Done start silent res shell :=
  ⟨prompt, fun failed => absurd failed fine⟩

theorem done_loud {silent : Prop} {res : CmdRes} {shell : Shell C D} (held : Held [] shell.library)
    (loud : Loud start shell.console) : Done start silent res shell :=
  ⟨⟨held, loud.toSince⟩, fun _ => Or.inl loud⟩

theorem done_code {silent : Prop} {res : CmdRes} {shell : Shell C D} (prompt : Prompt start shell)
    (code : shell.library.errcode.isSome = true) : Done start silent res shell :=
  ⟨prompt, fun _ => Or.inr (Or.inl code)⟩

theorem argValue_given {name : String} {tok : List Char} (found : paramValue command name = some (.string tok)) :
    (tools (argValue command name) : Action C D (List Char)) = pure tok := by
  unfold argValue
  rw [found]
  rfl

theorem triple_listMac (documented : Documented library) (name : String) :
    Triple (Prompt start) (Handler.listMac library name) (fun _ => Prompt start) fun crash _ => crash = .library .wild := by
  refine (triple_calls (documented.lookupByName name)).bind fun nif => ?_
  cases nif with
  | none => exact triple_print fun _ => id
  | some nif =>
    refine (triple_aborts (documented.macString nif) fun _ _ => congrArg Crash.library).bind fun mac => ?_
    have freed : Triple (fun shell : Shell C D => Held [nif] shell.library ∧ Since start shell.console)
        (free (some nif)) (fun _ => Prompt start) fun crash _ => crash = .library .wild :=
      (triple_free nif fun _ => True).weaken (fun _ given => ⟨⟨given.1, trivial⟩, given.2⟩)
        (fun _ _ given => ⟨given.1.1, given.2⟩) fun _ _ => id
    cases mac with
    | none => exact (triple_print fun _ => id).bind fun _ => freed
    | some mac => exact (triple_print fun _ => id).bind fun _ => freed

-- Of the calls on the library only that for the MAC addresses of the list can stop the program.
def Asked (command : Command) (crash : Crash) : Prop :=
  crash = .library .wild ∧ optPresent command "macs" = true

theorem triple_listNames (documented : Documented library) (nint : Nat) :
    Triple (Prompt start) (Handler.listNames library command nint) (Done start False)
      fun crash _ => Asked command crash := by
  refine (triple_calls (documented.listInterfaces nint _)).bind fun names => ?_
  cases names with
  | none => exact triple_pure fun _ given => done_code ⟨given.1.1, given.2⟩ (given.1.2 rfl)
  | some intf =>
    have each (name : String) : Triple (Prompt start)
        (if optPresent command "macs" then Handler.listMac library name else print (name ++ "\n"))
        (fun _ => Prompt start) fun crash _ => Asked command crash :=
      triple_ite (fun macs => (triple_listMac documented name).weaken (fun _ => id) (fun _ _ => id)
        fun _ _ crash => ⟨crash, macs⟩) fun _ => triple_print fun _ => id
    have last : Triple (Prompt start) (pure CmdRes.ok : Action C D CmdRes) (Done start False)
        fun crash _ => Asked command crash :=
      triple_pure fun _ prompt => done_fine prompt (by decide)
    have shown := (triple_forM fun name (_ : name ∈ intf) => each name).bind fun _ => last
    exact shown.strengthen fun _ given => ⟨given.1.1, given.2⟩

theorem triple_cmdList (documented : Documented library) :
    Triple (Prompt start) (Handler.cmdList library command) (Done start False)
      fun crash _ => Asked command crash := by
  refine (triple_calls (documented.numOfInterfaces _)).bind fun nint => ?_
  cases nint with
  | none => exact triple_pure fun _ given => done_code ⟨given.1.1, given.2⟩ (given.1.2 rfl)
  | some nint =>
    have drawn : Triple (Prompt start) (if 0 < nint then tools allocFails else pure false : Action C D Bool)
        (fun _ => Prompt start) fun crash _ => Asked command crash :=
      triple_ite (fun _ => triple_draw start) fun _ => triple_pure fun _ => id
    refine (drawn.bind fun memory => ?_).strengthen fun _ given => ⟨given.1.1, given.2⟩
    exact triple_ite (fun _ => triple_pure fun _ prompt => done_fine prompt (by decide))
      fun _ => triple_listNames documented nint

-- The end of the handlers that have an interface: it is given back, whatever came of the call on it.
theorem triple_release (nif : Nat) (res : CmdRes) (silent : Prop) :
    Triple (fun shell : Shell C D => (Held [nif] shell.library ∧ (res = .err → shell.library.errcode.isSome = true)) ∧
        Since start shell.console)
      (do free (some nif); return res) (Done start silent) never := by
  refine (triple_free nif fun code => res = .err → code.isSome = true).bind fun _ => triple_pure fun _ given => ?_
  exact ⟨⟨given.1.1, given.2⟩, fun failed => Or.inr (Or.inl (given.1.2 failed))⟩

theorem triple_release_loud (nif : Nat) (res : CmdRes) (silent : Prop) :
    Triple (fun shell : Shell C D => Held [nif] shell.library ∧ Loud start shell.console)
      (do free (some nif); return res) (Done start silent) never := by
  refine Triple.strengthen ((triple_free nif fun _ => True).bind fun _ => triple_pure fun _ given => ?_)
    fun _ given => ⟨⟨given.1, trivial⟩, given.2⟩
  exact done_loud given.1.1 given.2

theorem triple_missing (name : List Char) (silent : Prop) :
    Triple (Prompt start) (do say (Handler.missing name); return .err : Action C D CmdRes) (Done start silent) never :=
  Triple.bind (triple_say fun _ _ => id) fun _ => triple_pure fun _ given => done_loud given.1 given.2

theorem triple_dumped (documented : Documented library) (nif : Nat) :
    Triple (fun shell => Held [nif] shell.library ∧ Since start shell.console) (Handler.dumped library command nif)
      (fun res shell => (Held [nif] shell.library ∧ (res = .err → shell.library.errcode.isSome = true)) ∧
        Since start shell.console) never := by
  have either : Triple (Held [nif]) (if optPresent command "live" then library.xmlState nif else library.xmlDesc nif)
      (fun xml s => Held [nif] s ∧ (xml = none → s.errcode.isSome = true)) never :=
    triple_ite (fun _ => documented.xmlState nif) fun _ => documented.xmlDesc nif
  refine (triple_calls either).bind fun xml => ?_
  cases xml with
  | none => exact triple_pure fun _ given => ⟨⟨given.1.1, fun _ => given.1.2 rfl⟩, given.2⟩
  | some xml =>
    refine Triple.bind (triple_print fun _ => id) fun _ => triple_pure fun _ given => ?_
    exact ⟨⟨given.1.1, fun other => by cases other⟩, given.2⟩

theorem triple_dumpLookup (documented : Documented library) (name : List Char) :
    Triple (Prompt start) (Handler.dumpLookup library command name)
      (fun found shell => Held (found.join.toList) shell.library ∧ Since start shell.console ∧
        (found = none → Loud start shell.console)) never := by
  refine triple_ite (fun _ => ?_) fun _ => ?_
  · refine (triple_calls (documented.lookupByMacString _)).bind fun answer => ?_
    obtain ⟨maxifaces, ifaces⟩ := answer
    have last : Triple (fun shell => Held ifaces.head?.join.toList shell.library ∧ Since start shell.console)
        (pure (some ifaces.head?.join) : Action C D (Option (Option Nat)))
        (fun found shell => Held (found.join.toList) shell.library ∧ Since start shell.console ∧
          (found = none → Loud start shell.console)) never :=
      triple_pure fun _ given => ⟨by simpa using given.1, given.2, fun other => by cases other⟩
    refine triple_ite (fun negative => ?_) fun _ => triple_ite (fun _ => ?_) fun _ => ?_
    · refine Triple.bind (triple_say fun _ _ => id) fun _ => triple_pure fun _ given => ?_
      have nothing := (given.1.2 negative).1
      exact ⟨by simpa [nothing] using given.1.1, given.2.toSince, fun _ => given.2⟩
    · refine Triple.bind (triple_say fun _ _ => id) fun _ => last.strengthen fun _ given => ?_
      exact ⟨given.1.1, given.2.toSince⟩
    · exact last.strengthen fun _ given => ⟨given.1.1, given.2⟩
  · refine (triple_calls (documented.lookupByName _)).bind fun nif => triple_pure fun _ given => ?_
    exact ⟨by simpa using given.1, given.2, fun other => by cases other⟩

theorem triple_cmdDumpXml (documented : Documented library) {name : List Char}
    (given : paramValue command "name" = some (.string name)) :
    Triple (Prompt start) (Handler.cmdDumpXml library command) (Done start False) never := by
  unfold Handler.cmdDumpXml
  rw [argValue_given given, pure_bind]
  refine (triple_dumpLookup documented name).bind fun found => ?_
  rcases found with _ | _ | nif
  · exact triple_pure fun _ said => done_loud said.1 (said.2.2 rfl)
  · exact (triple_missing name False).strengthen fun _ said => ⟨said.1, said.2.1⟩
  · refine Triple.bind ((triple_dumped documented nif).strengthen fun _ said => ⟨said.1, said.2.1⟩) fun res => ?_
    exact triple_release nif res False

theorem triple_switch (documented : Documented library) {act : Nat → Linux.References.Program C D Int}
    (acts : ∀ nif, Triple (Held [nif]) (act nif) (fun _ => Held [nif]) never) {name : List Char}
    (given : paramValue command "iface" = some (.string name)) (done failed : String) :
    Triple (Prompt start) (Handler.switch library command act done failed) (Done start False) never := by
  unfold Handler.switch
  rw [argValue_given given, pure_bind]
  refine (triple_calls (documented.lookupByName _)).bind fun nif => ?_
  cases nif with
  | none => exact triple_missing name False
  | some nif =>
    refine (triple_calls (acts nif)).bind fun ret => ?_
    refine triple_ite (fun _ => ?_) fun _ => ?_
    · exact Triple.bind (triple_say fun _ _ => id) fun _ => triple_release_loud nif _ False
    · exact Triple.bind (triple_say fun _ _ => id) fun _ => triple_release_loud nif _ False

theorem triple_cmdDefine (documented : Documented library) {fname : List Char}
    (given : paramValue command "xmlfile" = some (.string fname)) (readFile : List Char → Option String) :
    Triple (Prompt start) (Handler.cmdDefine library command readFile) (Done start False) never := by
  unfold Handler.cmdDefine
  rw [argValue_given given, pure_bind]
  cases readFile fname with
  | none =>
    exact Triple.bind (triple_say fun _ _ => id) fun _ => triple_pure fun _ said => done_loud said.1 said.2
  | some xml =>
    refine (triple_calls (documented.define xml)).bind fun nif => ?_
    cases nif with
    | none => exact triple_pure fun _ said => done_code ⟨said.1.1, said.2⟩ (said.1.2 rfl)
    | some nif =>
      refine ((triple_calls (documented.name nif)).strengthen fun _ said => ⟨said.1.1, said.2⟩).bind fun text => ?_
      refine Triple.bind (triple_print fun _ => id) fun _ => ?_
      exact (triple_release nif .ok False).strengthen fun _ said => ⟨⟨said.1, fun other => by cases other⟩, said.2⟩

theorem triple_change {act : Linux.References.Program C D Int}
    (acts : Triple (Held []) act (fun r s => Held [] s ∧ (r < 0 → s.errcode.isSome = true)) never) (done : String) :
    Triple (Prompt start) (Handler.change act done) (Done start False) never := by
  refine (triple_calls acts).bind fun r => triple_ite (fun negative => ?_) fun _ => ?_
  · exact triple_pure fun _ said => done_code ⟨said.1.1, said.2⟩ (said.1.2 negative)
  · refine Triple.bind (triple_print fun _ => id) fun _ => triple_pure fun _ said => ?_
    exact done_fine ⟨said.1.1, said.2⟩ (by decide)

theorem triple_cmdHelp (worded : paramValue command "command" ≠ some .bvalue) :
    Triple (Prompt start) (Handler.cmdHelp command : Action C D CmdRes) (Done start False) never := by
  have last : Triple (Prompt start) (pure CmdRes.ok : Action C D CmdRes) (Done start False) never :=
    triple_pure fun _ prompt => done_fine prompt (by decide)
  unfold Handler.cmdHelp
  cases asked : paramValue command "command" with
  | none =>
    refine Triple.bind (triple_print fun _ => id) fun _ => ?_
    refine Triple.bind (triple_forM fun _ _ => triple_print fun _ => id) fun _ => ?_
    exact Triple.bind (triple_print fun _ => id) fun _ => last
  | some value =>
    cases value with
    | bvalue => exact absurd asked worded
    | string name =>
      dsimp only
      cases lookupCmdDef commands name with
      | none =>
        exact Triple.bind (triple_say fun _ _ => id) fun _ => triple_pure fun _ said => done_loud said.1 said.2
      | some definition =>
        have page : Triple (Prompt start) (Handler.helpOn name definition : Action C D Unit) (fun _ => Prompt start)
            never :=
          Triple.bind (triple_print fun _ => id) fun _ => Triple.bind (triple_print fun _ => id) fun _ =>
            Triple.bind (triple_print fun _ => id) fun _ => triple_print fun _ => id
        exact page.bind fun _ => last

-- The command is undefine, and the look-up of its interface finds nothing without an error.
def Unfound (library : Library C D) (command : Command) (session : Linux.References.Session C D) : Prop :=
  command.definition = cmdUndefine ∧
    ∃ name after, paramValue command "iface" = some (.string name) ∧
      library.lookupByName (String.ofList name) session = .ok none after ∧ after.errcode = none

theorem triple_cmdUndefine (documented : Documented library) (undefines : command.definition = cmdUndefine)
    {name : List Char} (given : paramValue command "iface" = some (.string name))
    (session : Linux.References.Session C D) :
    Triple (fun shell => shell.library = session ∧ Prompt start shell) (Handler.cmdUndefine library command)
      (Done start (Unfound library command session)) never := by
  unfold Handler.cmdUndefine
  rw [argValue_given given, pure_bind]
  have looked := ((documented.lookupByName (String.ofList name)).both
    (triple_run (· = session) (library.lookupByName (String.ofList name)))).weaken (fun s => And.symm) (fun _ _ => id)
    fun _ _ both => both.1
  refine Triple.bind ((triple_calls looked).strengthen fun _ said => ⟨⟨said.1, said.2.1⟩, said.2.2⟩) fun nif => ?_
  cases nif with
  | none =>
    refine triple_pure fun shell said => ⟨⟨said.1.1, said.2⟩, fun _ => Or.inr ?_⟩
    obtain ⟨_, rfl, run⟩ := said.1.2
    cases code : shell.library.errcode with
    | some error => exact Or.inl rfl
    | none => exact Or.inr ⟨undefines, name, shell.library, given, run, code⟩
  | some nif =>
    refine Triple.bind ((triple_calls (documented.undefine nif)).strengthen fun _ said => ⟨said.1.1, said.2⟩) fun r => ?_
    refine triple_ite (fun negative => ?_) fun _ => ?_
    · exact (triple_release nif .err _).strengthen fun _ said => ⟨⟨said.1.1, fun _ => said.1.2 negative⟩, said.2⟩
    · refine Triple.bind (triple_print fun _ => id) fun _ => ?_
      exact (triple_release nif .ok _).strengthen fun _ said => ⟨⟨said.1.1, fun other => by cases other⟩, said.2⟩

theorem Done.silent {silent other : Prop} {res : CmdRes} {shell : Shell C D} (done : Done start silent res shell)
    (implies : silent → other) : Done start other res shell :=
  ⟨done.1, fun failed => (done.2 failed).imp_right (Or.imp_right implies)⟩

-- The program ends in list --macs.
structure Lost (command : Command) (crash : Crash) : Prop where
  listing : command.definition = cmdList
  asked : Asked command crash

-- Every handler gives back what it has looked up, and fails without a word only at an unknown interface.
theorem triple_handler (documented : Documented library) (handed : Handed command)
    (readFile : List Char → Option String) (session : Linux.References.Session C D) :
    Triple (fun shell => shell.library = session ∧ Prompt start shell) (Handler.handler library command readFile)
      (Done start (Unfound library command session)) fun crash _ => Lost command crash := by
  have loud {program : Action C D CmdRes} (triple : Triple (Prompt start) program (Done start False) never) :
      Triple (fun shell => shell.library = session ∧ Prompt start shell) program
        (Done start (Unfound library command session)) fun crash _ => Lost command crash :=
    triple.weaken (fun _ => And.right) (fun _ _ done => done.silent False.elim) fun _ _ impossible => impossible.elim
  have given := handed.given
  have listed := handed.listed
  unfold Handler.handler
  simp only [commands, List.mem_cons, List.not_mem_nil, or_false] at listed
  rcases listed with same | same | same | same | same | same | same | same | same | same | same
  all_goals rw [same] at given ⊢
  · exact (triple_cmdList documented).weaken (fun _ => And.right) (fun _ _ done => done.silent False.elim)
      fun _ _ asked => ⟨same, asked⟩
  · obtain ⟨name, found⟩ := given "name" (List.mem_singleton_self _)
    exact loud (triple_cmdDumpXml documented found)
  · obtain ⟨fname, found⟩ := given "xmlfile" (List.mem_singleton_self _)
    exact loud (triple_cmdDefine documented found readFile)
  · obtain ⟨name, found⟩ := given "iface" (List.mem_singleton_self _)
    exact (triple_cmdUndefine documented same found session).safely
  · obtain ⟨name, found⟩ := given "iface" (List.mem_singleton_self _)
    exact loud (triple_switch documented documented.up found _ _)
  · obtain ⟨name, found⟩ := given "iface" (List.mem_singleton_self _)
    exact loud (triple_switch documented documented.down found _ _)
  · exact loud (triple_change documented.changeBegin _)
  · exact loud (triple_change documented.changeCommit _)
  · exact loud (triple_change documented.changeRollback _)
  · exact loud (triple_cmdHelp handed.worded)
  · exact loud (triple_pure fun _ prompt => done_fine prompt (by decide))

end Handlers

section Lines

variable {start s : Session} {definition : CommandDef} {line : List Char}

theorem triple_makeCommandOpt (start : Session) {thrown : Stop → Session → Prop} :
    Triple (Since start) makeCommandOpt (fun room s => Since start s ∧ (room = false → Loud start s)) thrown := by
  refine (triple_allocFails start).bind fun fails => triple_ite (fun _ => ?_) fun _ => ?_
  · exact (triple_complain start _).bind fun _ => triple_pure fun _ loud => ⟨loud.toSince, fun _ => loud⟩
  · exact triple_pure fun _ since => ⟨since, fun other => by cases other⟩

-- What the loop of parseline leaves behind, also where it gives up.
def Told {α : Type} (start : Session) (out : Option α) (s : Session) : Prop :=
  Since start s ∧ (out = none → Loud start s)

theorem triple_parseToken (most curarg : Nat) (opt : List CommandOpt) (tok : List Char) :
    Triple (Since start) (parseToken definition most curarg opt tok) (Told start) fun _ _ => True := by
  unfold parseToken
  refine triple_ite (fun _ => ?_) fun _ => triple_ite (fun _ => ?_) fun _ => ?_
  · cases findOpt (optionName tok) 0 definition.opts with
    | none =>
      refine (triple_complain start _).bind fun _ => triple_pure fun _ loud => ?_
      exact ⟨loud.toSince, fun other => by cases other⟩
    | some found =>
      refine (triple_makeCommandOpt start).bind fun room => triple_ite (fun granted => ?_) fun denied => ?_
      · refine triple_ite (fun _ => triple_pure fun _ said => ⟨said.1, fun other => by cases other⟩) fun _ => ?_
        exact triple_throw fun _ _ => trivial
      · refine triple_pure fun _ said => ⟨said.1, fun _ => said.2 ?_⟩
        simpa using denied
  · exact (triple_complain start _).bind fun _ => triple_pure fun _ loud => ⟨loud.toSince, fun _ => loud⟩
  · refine (triple_makeCommandOpt start).bind fun room => triple_ite (fun _ => ?_) fun _ => ?_
    · exact triple_pure fun _ said => ⟨said.1, fun other => by cases other⟩
    · exact triple_throw fun _ _ => trivial

theorem triple_parseArgs (most curarg : Nat) (opt : List CommandOpt) (line : List Char) :
    Triple (Since start) (parseArgs definition most curarg opt line) (Told start) fun _ _ => True := by
  induction curarg, opt, line using parseArgs.induct with
  | case1 curarg opt =>
    rw [parseArgs]
    exact triple_pure fun _ since => ⟨since, fun other => by cases other⟩
  | case2 curarg opt c rest ih =>
    rw [parseArgs]
    refine (triple_parseToken most curarg opt _).bind fun out => ?_
    cases out with
    | none => exact triple_pure fun _ told => ⟨told.1, fun _ => told.2 rfl⟩
    | some out => exact (ih out.1 out.2).strengthen fun _ told => told.1

theorem triple_parseline (start : Session) (line : List Char) :
    Triple (Since start) (parseline commands line) (Told start) fun _ _ => True := by
  have refused (text : String) : Triple (Since start) (do complain text; return none : Call (Option Command))
      (Told start) fun _ _ => True :=
    (triple_complain start text).bind fun _ => triple_pure fun _ loud => ⟨loud.toSince, fun _ => loud⟩
  intro s since
  cases known : lookupCmdDef commands (nexttoken line).1 with
  | none =>
    unfold parseline
    rw [known]
    exact refused _ s since
  | some definition =>
    rw [parseline_known known (commands_ordered definition (List.mem_of_find?_eq_some known))]
    refine (triple_parseArgs _ 0 [] _).bind (fun out => ?_) s since
    cases out with
    | none => exact triple_pure fun _ told => ⟨told.1, fun _ => told.2 rfl⟩
    | some out =>
      refine triple_ite (fun _ => (refused _).strengthen fun _ told => told.1) fun _ => ?_
      exact triple_pure fun _ told => ⟨told.1, fun other => by cases other⟩

-- An option of the command stops parseline where it is the name of an argument.
def Clashing (line : List Char) : Prop :=
  ∃ definition, lookupCmdDef commands (nexttoken line).1 = some definition ∧
    ∃ tok ∈ reached (total definition) (operands line), clashes definition tok = true

theorem bvalue_of_entry {toks : List (List Char)} {name : String}
    (clear : ∀ tok ∈ toks, clashes definition tok = false)
    (found : paramValue ⟨definition, entries definition toks⟩ name = some .bvalue) :
    ∃ option ∈ definition.opts, option.name = name ∧ option.tag = .bool := by
  obtain ⟨o, search, value⟩ := Option.map_eq_some_iff.mp found
  have here := List.find?_some search
  obtain ⟨tok, listed, source⟩ := List.mem_filterMap.mp (List.mem_of_find?_eq_some search)
  unfold entry at source
  split_ifs at source with option
  · obtain ⟨found, lookup, same⟩ := Option.map_eq_some_iff.mp source
    obtain ⟨_, at_place, _⟩ := findOpt_place lookup
    have boolean := clear_iff.mp (clear tok listed) option found.2 (by rw [← findOpt_find _ 0, lookup]; rfl)
    rw [← same, named, show definition.opts[found.1]? = some found.2 from at_place] at here
    exact ⟨found.2, List.mem_of_getElem? at_place, by simpa using here, boolean⟩
  · cases source
    cases value

theorem handed_of_parseline {command : Command} {after : Session}
    (run : parseline commands line s = .ok (some command) after) : Handed command := by
  cases known : lookupCmdDef commands (nexttoken line).1 with
  | none =>
    obtain ⟨_, refused⟩ := @parseline_unknown commands s line known
    rw [refused] at run
    cases run
  | some definition =>
    have listed := List.mem_of_find?_eq_some known
    have ordered := commands_ordered definition listed
    by_cases accepted : Accepted definition (operands line) s
    · obtain ⟨_, taken⟩ := parseline_accepted known ordered accepted
      rw [taken] at run
      cases run
      refine ⟨listed, fun name asked => ?_, fun found => ?_⟩
      · obtain ⟨first, own⟩ := handlers_ask definition listed name asked
        obtain ⟨tok, value⟩ := argValue_found first own accepted s
        unfold argValue at value
        rcases given : paramValue ⟨definition, entries definition (operands line)⟩ name with _ | _ | word
        · rw [given] at value
          cases value
        · rw [given] at value
          cases value
        · exact ⟨word, rfl⟩
      · obtain ⟨option, member, same, boolean⟩ := bvalue_of_entry accepted.clear found
        have never_boolean : ∀ definition ∈ commands, ∀ option ∈ definition.opts, option.name = "command" →
            option.tag ≠ .bool := by decide
        exact never_boolean definition listed option member same boolean
    · exact absurd run (parseline_refused known ordered accepted command after)

-- Without a clash only an allocation that fails stops parseline.
theorem parseline_stops {stop : Stop} {after : Session} (run : parseline commands line s = .error stop after) :
    Clashing line ∨ stop = .nullPointer ∧ true ∈ s.faults := by
  by_cases clash : Clashing line
  · exact Or.inl clash
  refine Or.inr ?_
  cases known : lookupCmdDef commands (nexttoken line).1 with
  | none =>
    obtain ⟨_, refused⟩ := @parseline_unknown commands s line known
    rw [refused] at run
    cases run
  | some definition =>
    have clear : ∀ tok ∈ reached (total definition) (operands line), clashes definition tok = false := by
      intro tok member
      by_contra clashing
      rw [Bool.not_eq_false] at clashing
      exact clash ⟨definition, known, tok, member, clashing⟩
    rw [parseline_known known (commands_ordered definition (List.mem_of_find?_eq_some known))] at run
    rcases bind_error run with first | ⟨out, middle, _, second⟩
    · exact parseArgs_clear _ _ clear first
    · cases out with
      | none => cases second
      | some out =>
        dsimp only at second
        split_ifs at second
        · rw [bind_of_ok _ (complain_told _ middle)] at second
          cases second
        · cases second

variable {turn : Turn C D} {shell : Shell C D}

-- What strdup leaves of the allocations.
def Session.next (s : Session) : Session :=
  { s with faults := s.faults.tail }

-- The line ends the program: parseline does not return, or it takes a list --macs, in which a call on the
-- library does not.
def Fatal (turn : Turn C D) (shell : Shell C D) (crash : Crash) : Prop :=
  (∃ stop console, crash = .tool stop ∧ parseline commands turn.text shell.console.next = .error stop console) ∨
    ∃ command console, parseline commands turn.text shell.console.next = .ok (some command) console ∧
      Lost command crash

-- parseline takes the line without a word, and it is an undefine of an interface that is not there.
structure Unknown (turn : Turn C D) (shell : Shell C D) : Prop where
  copied : shell.console.faults.head? ≠ some true
  taken : ∃ command console, parseline commands turn.text shell.console.next = .ok (some command) console ∧
    console.complaints = shell.console.complaints ∧ Unfound turn.library command shell.library

theorem allocFails_run (s : Session) : allocFails s = .ok (s.faults.head? = some true) s.next := by
  obtain ⟨faults, complaints⟩ := s
  rcases faults with _ | ⟨_ | _, later⟩ <;> rfl

theorem since_next (s : Session) : Since s s.next :=
  ⟨List.prefix_rfl, List.tail_suffix _⟩

theorem triple_printNetcfError (library : Library C D) (start : Session) (silent : Prop)
    {thrown : Crash → Shell C D → Prop} :
    Triple (Done start silent .err) (printNetcfError library)
      (fun _ shell => Prompt start shell ∧ (Loud start shell.console ∨ silent)) thrown := by
  intro shell done
  unfold printNetcfError
  rw [bind_of_ok _ (get_run shell)]
  have failed := done.2 rfl
  cases code : shell.library.errcode with
  | none => exact ⟨done.1, failed.imp_right fun said => said.resolve_left (by simp [code])⟩
  | some error =>
    have said := done.1.2.told ("error: " ++ errmsg error ++ "\n")
    cases details : library.details shell.library with
    | none => exact ⟨⟨done.1.1, said.toSince⟩, Or.inl said⟩
    | some text =>
      have more := said.toSince.told ("error: " ++ text ++ "\n")
      exact ⟨⟨done.1.1, more.toSince⟩, Or.inl more⟩

structure Carried (turn : Turn C D) (shell : Shell C D) (cmdret : Int) (after : Shell C D) : Prop where
  held : Held [] after.library
  since : Since shell.console after.console
  told : cmdret ≠ 0 → Loud shell.console after.console ∨ Unknown turn shell

theorem tools_ok {call : Call α} {a : α} {session : Session} (run : call shell.console = .ok a session) :
    tools call shell = .ok a { shell with console := session } :=
  @within_ok _ _ _ _ _ consolePart _ _ _ _ _ run

theorem tools_error {call : Call α} {stop : Stop} {session : Session} (run : call shell.console = .error stop session) :
    tools call shell = .error (.tool stop) { shell with console := session } :=
  @within_error _ _ _ _ _ consolePart _ _ _ _ _ run

theorem calls_ok {program : Linux.References.Program C D α} {a : α} {session : Linux.References.Session C D}
    (run : program shell.library = .ok a session) : calls program shell = .ok a { shell with library := session } :=
  @within_ok _ _ _ _ _ libraryPart _ _ _ _ _ run

theorem runCommandLine_copied (copied : shell.console.faults.head? ≠ some true) :
    runCommandLine turn shell = runCopy turn { shell with console := shell.console.next } := by
  have run := allocFails_run shell.console
  rw [decide_eq_false copied] at run
  unfold runCommandLine
  rw [bind_of_ok _ (tools_ok run)]
  rfl

theorem runHandler_spec {command : Command} {console : Session} (documented : Documented turn.library)
    (held : Held [] shell.library) (copied : shell.console.faults.head? ≠ some true)
    (run : parseline commands turn.text shell.console.next = .ok (some command) console)
    (since : Since shell.console console) :
    Ends (fun out after => Carried turn shell out.1 after) (fun crash _ => Lost command crash)
      (runHandler turn command { shell with console := console }) := by
  have handles := @triple_handler _ _ _ _ console documented (handed_of_parseline run) turn.readFile shell.library
  have unknown {after : Shell C D} (later : Since console after.console)
      (outcome : Loud console after.console ∨ Unfound turn.library command shell.library) :
      Loud shell.console after.console ∨ Unknown turn shell := by
    rcases outcome with loud | unfound
    · exact Or.inl (loud.since since)
    · by_cases silent : shell.console.complaints = console.complaints
      · exact Or.inr ⟨copied, command, console, run, silent.symm, unfound⟩
      · exact Or.inl (Loud.later ⟨since, silent⟩ later)
  have spec : Triple (fun shell' => shell'.library = shell.library ∧ Prompt console shell')
      (runHandler turn command) (fun out after => Carried turn shell out.1 after)
      fun crash _ => Lost command crash := by
    refine Triple.bind handles fun res => ?_
    cases res with
    | err =>
      refine (triple_printNetcfError turn.library console _).bind fun _ => triple_pure fun _ done => ?_
      exact ⟨done.1.1, since.trans done.1.2, fun _ => unknown done.1.2 done.2⟩
    | enomem =>
      refine Triple.bind (Triple.strengthen (triple_say fun _ _ => id) fun _ done => done.1) fun _ => ?_
      exact triple_pure fun _ done => ⟨done.1, since.trans done.2.toSince, fun _ => Or.inl (done.2.since since)⟩
    | ok | quit | unknown =>
      exact triple_pure fun _ done => ⟨done.1.1, since.trans done.1.2, fun failed => absurd rfl failed⟩
  exact spec _ ⟨rfl, held, Since.refl console⟩

theorem runCommandLine_spec (documented : Documented turn.library) (held : Held [] shell.library) :
    Ends (fun out after => Carried turn shell out.1 after)
      (fun crash _ => Fatal turn shell crash) (runCommandLine turn shell) := by
  have since := since_next shell.console
  by_cases copied : shell.console.faults.head? = some true
  · have run := allocFails_run shell.console
    have said := since.told "Out of memory\n"
    rw [decide_eq_true copied] at run
    unfold runCommandLine
    rw [bind_of_ok _ (tools_ok run)]
    exact ⟨held, said.toSince, fun _ => Or.inl said⟩
  · have parsed := triple_parseline shell.console turn.text shell.console.next since
    rw [runCommandLine_copied copied, runCopy]
    cases run : parseline commands turn.text shell.console.next with
    | error stop console =>
      rw [bind_of_error _ (tools_error run)]
      exact Or.inl ⟨stop, console, rfl, run⟩
    | ok out console =>
      rw [run] at parsed
      rw [bind_of_ok _ (tools_ok run)]
      cases out with
      | none => exact ⟨held, parsed.1, fun _ => Or.inl (parsed.2 rfl)⟩
      | some command =>
        exact (runHandler_spec documented held copied run parsed.1).weaken (fun _ _ => id)
          fun _ _ lost => Or.inr ⟨command, console, run, lost⟩

-- Nothing is said of an interface that undefine does not find.
theorem Unknown.run (unknown : Unknown turn shell) :
    ∃ after, runCommandLine turn shell = .ok (-1, .err) after ∧
      after.console.complaints = shell.console.complaints := by
  obtain ⟨copied, command, console, parsed, silent, undefines, name, found, given, looked, clear⟩ := unknown
  rw [runCommandLine_copied copied, runCopy, bind_of_ok _ (tools_ok parsed)]
  have asked : calls (turn.library.lookupByName (String.ofList name)) { shell with console := console } =
      .ok none { shell with console := console, library := found } :=
    calls_ok looked
  have handled : Handler.handler turn.library command turn.readFile { shell with console := console } =
      .ok .err { shell with console := console, library := found } := by
    unfold Handler.handler
    rw [undefines]
    change Handler.cmdUndefine turn.library command _ = _
    unfold Handler.cmdUndefine
    rw [argValue_given given, pure_bind, bind_of_ok _ asked]
    rfl
  have printed : printNetcfError turn.library { shell with console := console, library := found } =
      .ok () { shell with console := console, library := found } := by
    unfold printNetcfError
    rw [bind_of_ok _ (get_run _), clear]
    rfl
  change ∃ after, runHandler turn command _ = _ ∧ _
  unfold runHandler
  rw [bind_of_ok _ handled]
  dsimp only
  rw [bind_of_ok _ printed]
  exact ⟨_, rfl, silent⟩

-- With memory a line that clashes always ends the program.
theorem Clashing.run (clash : Clashing turn.text) (calm : shell.console.faults = []) :
    ∃ after, runCommandLine turn shell = .error (.tool .assertion) after := by
  obtain ⟨definition, known, tok, member, clashes⟩ := clash
  have ordered := commands_ordered definition (List.mem_of_find?_eq_some known)
  have next : shell.console.next.faults = [] := by
    unfold Session.next
    rw [calm]
    rfl
  obtain ⟨after, run⟩ := @parseline_clashes definition _ _ commands known ordered next ⟨tok, member, clashes⟩
  rw [runCommandLine_copied (by simp [calm]), runCopy, bind_of_error _ (tools_error run)]
  exact ⟨_, rfl⟩

end Lines

section Runs

def history : List (Turn C D) → Shell C D → List (Turn C D × Shell C D)
  | [], _ => []
  | turn :: rest, shell =>
    (turn, shell) ::
      match runCommandLine turn shell with
      | .ok (cmdret, cmdstatus) after => if cmdret = 0 && cmdstatus = .quit then [] else history rest after
      | .error _ _ => []

-- What a line has to say about the exit status: a quit and a line that ends the program say nothing.
def verdict (entry : Turn C D × Shell C D) : Option Int :=
  match runCommandLine entry.1 entry.2 with
  | .ok (cmdret, cmdstatus) _ => if cmdret = 0 && cmdstatus = .quit then none else some cmdret
  | .error _ _ => none

variable {turns : List (Turn C D)} {shell : Shell C D}

theorem history_spec (documented : ∀ turn ∈ turns, Documented turn.library) (held : Held [] shell.library) (ret : Int) :
    (∀ entry ∈ history turns shell, entry.1 ∈ turns ∧ Held [] entry.2.library ∧ Since shell.console entry.2.console) ∧
      Ends (fun r after => Held [] after.library ∧ r = ((history turns shell).filterMap verdict).getLast?.getD ret ∧
          ∀ entry ∈ history turns shell, ∃ out middle, runCommandLine entry.1 entry.2 = .ok out middle)
        (fun crash _ => ∃ front entry after, history turns shell = front ++ [entry] ∧
          (∀ earlier ∈ front, ∃ out middle, runCommandLine earlier.1 earlier.2 = .ok out middle) ∧
          runCommandLine entry.1 entry.2 = .error crash after) (mainLoop ret turns shell) := by
  induction turns generalizing ret shell with
  | nil =>
    have empty : ∀ entry, entry ∉ history [] shell := fun _ => List.not_mem_nil
    exact ⟨fun entry member => absurd member (empty entry), held, rfl, fun entry member => absurd member (empty entry)⟩
  | cons turn rest ih =>
    have spec := runCommandLine_spec (documented turn List.mem_cons_self) held
    unfold history mainLoop
    cases run : runCommandLine turn shell with
    | error crash after =>
      rw [run] at spec
      rw [bind_of_error _ run]
      refine ⟨fun entry member => ?_, [], (turn, shell), after, rfl, fun _ none => absurd none List.not_mem_nil, run⟩
      rw [List.mem_singleton.mp member]
      exact ⟨List.mem_cons_self, held, Since.refl _⟩
    | ok out middle =>
      obtain ⟨cmdret, cmdstatus⟩ := out
      rw [run] at spec
      rw [bind_of_ok _ run]
      dsimp only
      have here : verdict (turn, shell) = if cmdret = 0 && cmdstatus = .quit then none else some cmdret := by
        unfold verdict
        dsimp only
        rw [run]
      by_cases quits : (cmdret = 0 && cmdstatus = .quit) = true
      · rw [if_pos quits] at here
        rw [if_pos quits, if_pos quits, List.filterMap_cons_none here]
        refine ⟨fun entry member => ?_, spec.held, rfl, fun entry member => ?_⟩
        · rw [List.mem_singleton.mp member]
          exact ⟨List.mem_cons_self, held, Since.refl _⟩
        · rw [List.mem_singleton.mp member]
          exact ⟨_, _, run⟩
      · rw [if_neg quits] at here
        rw [if_neg quits, if_neg quits, List.filterMap_cons_some here]
        obtain ⟨each, ends⟩ := ih (fun other member => documented other (List.mem_cons_of_mem _ member)) spec.held cmdret
        refine ⟨fun entry member => ?_, ends.weaken (fun r after said => ⟨said.1, ?_, ?_⟩) fun crash _ said => ?_⟩
        · rcases List.mem_cons.mp member with rfl | later
          · exact ⟨List.mem_cons_self, held, Since.refl _⟩
          · obtain ⟨listed, kept, since⟩ := each entry later
            exact ⟨List.mem_cons_of_mem _ listed, kept, spec.since.trans since⟩
        · rw [said.2.1, List.getLast?_cons]
          cases (history rest middle).filterMap verdict |>.getLast? <;> rfl
        · exact List.forall_mem_cons.mpr ⟨⟨_, _, run⟩, said.2.2⟩
        · obtain ⟨front, entry, after, whole, earlier, crashed⟩ := said
          exact ⟨(turn, shell) :: front, entry, after, congrArg _ whole, List.forall_mem_cons.mpr ⟨⟨_, _, run⟩, earlier⟩,
            crashed⟩

end Runs

end Netcf.Tool
