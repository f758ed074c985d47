import Netcf.Linux.Listing
import Netcf.Linux.References
import Netcf.Shared.Triples
import Netcf.Tool.Commands

set_option autoImplicit false

-- The handlers of the commands, run_command_line and main_loop (ncftool.c).
namespace Netcf.Tool

open Shared.Faulty Shared.Triples
open Linux (Errcode ifaceActive ifaceInactive)
open Linux.References (Abort)

-- What ncftool calls of the library. Counts and arrays that come with -1, and strings that are NULL, are nothing
-- here; an interface is its address. DETAILS is the text that comes with an error code.
structure Library (C D : Type) where
  details : Linux.References.Session C D → Option String
  numOfInterfaces : BitVec 32 → Linux.References.Program C D (Option Nat)
  listInterfaces : Nat → BitVec 32 → Linux.References.Program C D (Option (List String))
  lookupByName : String → Linux.References.Program C D (Option Nat)
  lookupByMacString : String → Nat → Linux.References.Program C D (Int × List (Option Nat))
  define : String → Linux.References.Program C D (Option Nat)
  name : Nat → Linux.References.Program C D String
  macString : Nat → Linux.References.Program C D (Option String)
  undefine : Nat → Linux.References.Program C D Int
  up : Nat → Linux.References.Program C D Int
  down : Nat → Linux.References.Program C D Int
  xmlDesc : Nat → Linux.References.Program C D (Option String)
  xmlState : Nat → Linux.References.Program C D (Option String)
  changeBegin : Linux.References.Program C D Int
  changeCommit : Linux.References.Program C D Int
  changeRollback : Linux.References.Program C D Int

-- The netcf instance, the allocations and stderr of ncftool itself, and stdout.
structure Shell (C D : Type) where
  library : Linux.References.Session C D
  console : Session
  printed : List String

inductive Crash
  | tool (stop : Stop)
  | library (abort : Abort)

abbrev Action (C D : Type) := EStateM Crash (Shell C D)

-- A line with what the system lets the library and read_file do while it is carried out.
structure Turn (C D : Type) where
  text : List Char
  library : Library C D
  readFile : List Char → Option String

-- enum command_result
inductive CmdRes
  | ok | err | enomem | quit | unknown
  deriving DecidableEq

variable {C D α : Type}

def libraryPart : Part (Linux.References.Session C D) (Shell C D) where
  get := Shell.library
  set session shell := { shell with library := session }
  get_set _ _ := rfl

def consolePart : Part Session (Shell C D) where
  get := Shell.console
  set session shell := { shell with console := session }
  get_set _ _ := rfl

def calls (program : Linux.References.Program C D α) : Action C D α :=
  within libraryPart .library program

def tools (call : Call α) : Action C D α :=
  within consolePart .tool call

def say (text : String) : Action C D Unit :=
  tools (complain text)

def print (text : String) : Action C D Unit :=
  modify fun shell => { shell with printed := shell.printed ++ [text] }

def optPresent (command : Command) (name : String) : Bool :=
  command.opt.any (named command.definition name)

-- ncf_if_free ignores NULL.
def free (nif : Option Nat) : Action C D Unit :=
  calls (Linux.References.ncfIfFree nif)

-- The conversion %-WIDTHs.
def padded (width : Nat) (text : String) : String :=
  text ++ String.ofList (List.replicate (width - text.length) ' ')

section Manual

-- The texts of a command that only help prints, those of its options in their order.
structure Manual where
  synopsis : String
  help : String
  opts : List String

def manual (name : String) : Manual :=
  match name with
  | "list" => ⟨"list network interfaces", "list the currently configured toplevel network interfaces",
      ["show MAC addresses", "show all (up & down) interfaces", "show only inactive (down) interfaces"]⟩
  | "dumpxml" => ⟨"dump the XML description of an interface", "dump the XML description of an interface",
      ["interpret the name as a MAC address", "include information about the live interface",
        "the name of the interface"]⟩
  | "define" => ⟨"define an interface from an XML file", "define an interface from an XML file",
      ["file containing the XML description of the interface"]⟩
  | "undefine" => ⟨"undefine an interface", "remove the configuration of an interface", ["the name of the interface"]⟩
  | "ifup" => ⟨"bring up an interface", "bring up an interface", ["the name of the interface"]⟩
  | "ifdown" => ⟨"bring down an interface", "bring down an interface", ["the name of the interface"]⟩
  | "change-begin" => ⟨"mark the beginning of a set of revertible network config changes",
      "marks the beginning of a set of revertible network config changes", []⟩
  | "change-commit" => ⟨"commit the pending network config changes",
      "commits (makes permanent) of a set of network config changes", []⟩
  | "change-rollback" => ⟨"rollback (revert) a set of network config changes",
      "rollback (revert) a set of network config changes", []⟩
  | "help" => ⟨"print help", "list all commands or print details about one command", [""]⟩
  | _ => ⟨"exit the program", "exit this interactive program", []⟩

def usageOf (option : CommandOptDef) : String :=
  match option.tag with
  | .bool => " [--" ++ option.name ++ "]"
  | .arg => " <" ++ option.name ++ ">"
  | _ => " [<" ++ option.name ++ ">]"

def explained (option : CommandOptDef × String) : String :=
  if option.1.tag = .bool then "    --" ++ padded 8 option.1.name ++ " " ++ option.2 ++ "\n"
  else "    " ++ padded 10 ("<" ++ option.1.name ++ ">") ++ " " ++ option.2 ++ "\n"

end Manual

namespace Handler

variable (library : Library C D) (command : Command)

def listFlags : BitVec 32 :=
  if optPresent command "all" then ifaceActive ||| ifaceInactive
  else if optPresent command "inactive" then ifaceInactive
  else ifaceActive

def listMac (name : String) : Action C D Unit := do
  match ← calls (library.lookupByName name) with
  | none => print (padded 8 name ++ " lookup failed\n")
  | some nif =>
    match ← calls (library.macString nif) with
    | none => print (padded 8 name ++ " could not get MAC\n")
    | some mac => print (padded 8 name ++ " " ++ mac ++ "\n")
    free nif

def listNames (nint : Nat) : Action C D CmdRes := do
  match ← calls (library.listInterfaces nint (listFlags command)) with
  | none => return .err
  | some intf =>
    intf.forM fun name => if optPresent command "macs" then listMac library name else print (name ++ "\n")
    return .ok

-- ALLOC_N of no elements does not allocate.
def cmdList : Action C D CmdRes := do
  match ← calls (library.numOfInterfaces (listFlags command)) with
  | none => return .err
  | some nint =>
    if ← (if 0 < nint then tools allocFails else pure false) then return .enomem
    else listNames library command nint

def missing (name : List Char) : String :=
  "Interface " ++ String.ofList name ++ " does not exist or is not a toplevel interface\n"

def dumped (nif : Nat) : Action C D CmdRes := do
  match ← calls (if optPresent command "live" then library.xmlState nif else library.xmlDesc nif) with
  | none => return .err
  | some xml =>
    print (xml ++ "\n")
    return .ok

-- The look-up, or nothing where it has failed and been reported.
def dumpLookup (name : List Char) : Action C D (Option (Option Nat)) := do
  if optPresent command "mac" then
    let (maxifaces, ifaces) ← calls (library.lookupByMacString (String.ofList name) 1)
    if maxifaces < 0 then
      say ("error looking up interface with MAC " ++ String.ofList name ++ "\n")
      return none
    if 1 < maxifaces then
      say ("warning: " ++ toString maxifaces ++ " interfaces have MAC " ++ String.ofList name ++
        ", only showing one\n")
    return some ifaces.head?.join
  else return some (← calls (library.lookupByName (String.ofList name)))

def cmdDumpXml : Action C D CmdRes := do
  let name ← tools (argValue command "name")
  match ← dumpLookup library command name with
  | none => return .err
  | some none =>
    say (missing name)
    return .err
  | some (some nif) =>
    let result ← dumped library command nif
    free nif
    return result

-- cmd_if_up and cmd_if_down: the call on the interface and the words for how it went.
def switch (act : Nat → Linux.References.Program C D Int) (done failed : String) : Action C D CmdRes := do
  let name ← tools (argValue command "iface")
  match ← calls (library.lookupByName (String.ofList name)) with
  | none =>
    say (missing name)
    return .err
  | some nif =>
    let ret ← calls (act nif)
    if ret = 0 then say ("Interface " ++ String.ofList name ++ done)
    else say ("Interface " ++ String.ofList name ++ failed)
    free nif
    return if ret = 0 then .ok else .err

def cmdIfUp : Action C D CmdRes :=
  switch library command library.up " successfully brought up\n" " bring-up failed!\n"

def cmdIfDown : Action C D CmdRes :=
  switch library command library.down " successfully brought down\n" " bring-down failed!\n"

def cmdDefine (readFile : List Char → Option String) : Action C D CmdRes := do
  let fname ← tools (argValue command "xmlfile")
  match readFile fname with
  | none =>
    say ("Failed to read " ++ String.ofList fname ++ "\n")
    return .err
  | some xml =>
    match ← calls (library.define xml) with
    | none => return .err
    | some nif =>
      print ("Defined interface " ++ (← calls (library.name nif)) ++ "\n")
      free nif
      return .ok

-- Nothing is said here about an interface that is not there.
def cmdUndefine : Action C D CmdRes := do
  let name ← tools (argValue command "iface")
  match ← calls (library.lookupByName (String.ofList name)) with
  | none => return .err
  | some nif =>
    let r ← calls (library.undefine nif)
    if r < 0 then
      free nif
      return .err
    print (String.ofList name ++ " undefined\n")
    free nif
    return .ok

-- cmd_change_begin, cmd_change_commit and cmd_change_rollback.
def change (act : Linux.References.Program C D Int) (done : String) : Action C D CmdRes := do
  if (← calls act) < 0 then return .err
  print ("config change transaction " ++ done ++ "\n")
  return .ok

def cmdChangeBegin : Action C D CmdRes :=
  change library.changeBegin "started"

def cmdChangeCommit : Action C D CmdRes :=
  change library.changeCommit "committed"

def cmdChangeRollback : Action C D CmdRes :=
  change library.changeRollback "rolled back"

def helpOn (name : List Char) (definition : CommandDef) : Action C D Unit := do
  let texts := manual definition.name
  print ("  COMMAND\n    " ++ String.ofList name ++ " - " ++ texts.synopsis ++ "\n\n")
  print ("  SYNOPSIS\n    " ++ String.ofList name ++ String.join (definition.opts.map usageOf) ++ "\n\n")
  print ("  DESCRIPTION\n    " ++ texts.help ++ "\n\n")
  print ("  OPTIONS\n" ++ String.join ((definition.opts.zip texts.opts).map explained) ++ "\n")

def cmdHelp : Action C D CmdRes := do
  match paramValue command "command" with
  | none =>
    print "Commands:\n\n"
    commands.forM fun definition =>
      print ("    " ++ padded 10 definition.name ++ " - " ++ (manual definition.name).synopsis ++ "\n")
    print "\nType 'help <command>' for more information on a command\n\n"
    return .ok
  | some .bvalue => throw (.tool .nullPointer)
  | some (.string name) =>
    match lookupCmdDef commands name with
    | none =>
      say ("unknown command " ++ String.ofList name ++ "\n")
      return .err
    | some definition =>
      helpOn name definition
      return .ok

def cmdQuit : Action C D CmdRes :=
  return .quit

-- The function pointer in the definition of the command.
def handler (readFile : List Char → Option String) : Action C D CmdRes :=
  match command.definition.name with
  | "list" => cmdList library command
  | "dumpxml" => cmdDumpXml library command
  | "define" => cmdDefine library command readFile
  | "undefine" => cmdUndefine library command
  | "ifup" => cmdIfUp library command
  | "ifdown" => cmdIfDown library command
  | "change-begin" => cmdChangeBegin library
  | "change-commit" => cmdChangeCommit library
  | "change-rollback" => cmdChangeRollback library
  | "help" => cmdHelp command
  | _ => cmdQuit

end Handler

section Loop

def errmsg : Errcode → String
  | .internal => "internal error"
  | .other => "unspecified error"
  | .nomem => "allocation failed"
  | .xmlParser => "XML parser failed"
  | .xmlInvalid => "XML invalid"
  | .noent => "required entry missing"
  | .exec => "failed to execute external program"
  | .inUse => "instance still in use"
  | .xsltFailed => "XSLT transformation failed"
  | .file => "File operation failed"
  | .ioctl => "ioctl operation failed"
  | .netlink => "NETLINK socket operation failed"
  | .invalidOp => "Operation invalid in this state"

-- ncf_error is no API entry.
def printNetcfError (library : Library C D) : Action C D Unit := do
  let session := (← get).library
  match session.errcode with
  | none => pure ()
  | some code =>
    say ("error: " ++ errmsg code ++ "\n")
    match library.details session with
    | none => pure ()
    | some details => say ("error: " ++ details ++ "\n")

-- What run_command_line returns, and the command status that it leaves.
def runHandler (turn : Turn C D) (command : Command) : Action C D (Int × CmdRes) := do
  match ← Handler.handler turn.library command turn.readFile with
  | .err =>
    printNetcfError turn.library
    return (-1, .err)
  | .enomem =>
    say "error: allocation failed\n"
    return (-1, .enomem)
  | cmdstatus => return (0, cmdstatus)

def runCopy (turn : Turn C D) : Action C D (Int × CmdRes) := do
  match ← tools (parseline commands turn.text) with
  | none => return (-1, .unknown)
  | some command => runHandler turn command

-- The line is copied first.
def runCommandLine (turn : Turn C D) : Action C D (Int × CmdRes) := do
  if ← tools allocFails then
    say "Out of memory\n"
    return (-1, .ok)
  else runCopy turn

-- The turns end where readline returns NULL.
def mainLoop : Int → List (Turn C D) → Action C D Int
  | ret, [] => return ret
  | ret, turn :: rest => do
    let (cmdret, cmdstatus) ← runCommandLine turn
    if cmdret = 0 && cmdstatus = .quit then return ret
    mainLoop cmdret rest

-- The exit status that main makes of it.
def exitStatus (r : Int) : Nat :=
  if r = 0 then 0 else 1

end Loop

end Netcf.Tool
