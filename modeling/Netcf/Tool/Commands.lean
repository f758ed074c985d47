import Mathlib.Logic.Function.Iterate
import Netcf.Shared.Faulty
import Netcf.Tool.Tokens

set_option autoImplicit false

-- The commands of ncftool and the parser of its command lines (ncftool.c).
namespace Netcf.Tool

open Shared.Faulty

section Parser

inductive Tag
  | none | bool | arg | param
  deriving DecidableEq

structure CommandOptDef where
  tag : Tag
  name : String
  deriving DecidableEq

-- A command. HANDLER are the arguments whose values its handler asks arg_value for.
structure CommandDef where
  name : String
  opts : List CommandOptDef
  handler : List String
  deriving DecidableEq

inductive Value
  | bvalue
  | string (tok : List Char)
  deriving DecidableEq

-- An option that is set: the place of its definition among those of the command, and its value.
structure CommandOpt where
  place : Nat
  value : Value
  deriving DecidableEq

structure Command where
  definition : CommandDef
  opt : List CommandOpt
  deriving DecidableEq

inductive Stop
  | assertion
  | exit (code : Nat)
  | nullPointer

-- The allocations that are going to fail, and what has been written to stderr.
structure Session where
  faults : List Bool
  complaints : List String

abbrev Call := EStateM Stop Session

def allocFails : Call Bool := fun s =>
  match s.faults with
  | [] => .ok false s
  | fails :: later => .ok fails { s with faults := later }

def complain (text : String) : Call Unit :=
  modify fun s => { s with complaints := s.complaints ++ [text] }

def CommandOptDef.isArg (definition : CommandOptDef) : Bool :=
  definition.tag = .arg || definition.tag = .param

def lookupCmdDef (commands : List CommandDef) (name : List Char) : Option CommandDef :=
  commands.find? (·.name.toList = name)

-- Whether there is room for one more option.
def makeCommandOpt : Call Bool := do
  if ← allocFails then
    complain "Allocation failed\n"
    return false
  return true

def countArgs : List CommandOptDef → Nat → Nat → Call (Nat × Nat)
  | [], narg, nparam => return (narg, nparam)
  | definition :: rest, narg, nparam =>
    if definition.tag = .arg then
      if 0 < nparam then do
        complain "internal error: mandatory argument after optional one\n"
        throw (.exit 2)
      else countArgs rest (narg + 1) nparam
    else if definition.tag = .param then countArgs rest narg (nparam + 1)
    else countArgs rest narg nparam

def isOption (tok : List Char) : Bool :=
  tok.head? = some '-'

-- Behind one dash or two.
def optionName (tok : List Char) : List Char :=
  match tok.drop 1 with
  | '-' :: name => name
  | name => name

def findOpt (name : List Char) : Nat → List CommandOptDef → Option (Nat × CommandOptDef)
  | _, [] => none
  | place, definition :: rest =>
    if definition.name.toList = name then some (place, definition) else findOpt name (place + 1) rest

-- The loop over the definitions stops at an argument, also at the one it starts from.
def nextArg (opts : List CommandOptDef) (place : Nat) : Nat :=
  place + (opts.drop place).findIdx CommandOptDef.isArg

def parseToken (definition : CommandDef) (total curarg : Nat) (opt : List CommandOpt) (tok : List Char) :
    Call (Option (Nat × List CommandOpt)) := do
  if isOption tok then
    match findOpt (optionName tok) 0 definition.opts with
    | none =>
      complain ("Illegal option " ++ String.ofList tok ++ "\n")
      return some (curarg, opt)
    | some (place, found) =>
      if ← makeCommandOpt then
        if found.tag = .bool then return some (curarg, opt ++ [⟨place, .bvalue⟩])
        throw .assertion
      return none
  else if total ≤ curarg then
    complain ("Too many arguments. Command " ++ definition.name ++ " takes only " ++ toString total ++ " arguments\n")
    return none
  else
    let place := (nextArg definition.opts)^[curarg] (nextArg definition.opts 0)
    if ← makeCommandOpt then return some (curarg + 1, opt ++ [⟨place, .string tok⟩])
    throw .nullPointer

def parseArgs (definition : CommandDef) (total : Nat) :
    Nat → List CommandOpt → List Char → Call (Option (Nat × List CommandOpt))
  | curarg, opt, [] => return some (curarg, opt)
  | curarg, opt, c :: rest => do
    match ← parseToken definition total curarg opt (nexttoken (c :: rest)).1 with
    | none => return none
    | some (curarg, opt) => parseArgs definition total curarg opt (nexttoken (c :: rest)).2
termination_by _ _ line => line.length
decreasing_by exact nexttoken_shorter c rest

-- The command when parseline returns 0, nothing when it returns -1.
def parseline (commands : List CommandDef) (line : List Char) : Call (Option Command) := do
  match lookupCmdDef commands (nexttoken line).1 with
  | none =>
    complain ("Unknown command '" ++ String.ofList (nexttoken line).1 ++ "'\n")
    return none
  | some definition =>
    let (narg, nparam) ← countArgs definition.opts 0 0
    match ← parseArgs definition (narg + nparam) 0 [] (nexttoken line).2 with
    | none => return none
    | some (curarg, opt) =>
      if curarg < narg then
        complain ("Not enough arguments for " ++ definition.name ++ "\n")
        return none
      return some ⟨definition, opt⟩

end Parser

section Values

def named (definition : CommandDef) (name : String) (o : CommandOpt) : Bool :=
  definition.opts[o.place]?.any (·.name = name)

def paramValue (command : Command) (name : String) : Option Value :=
  (command.opt.find? (named command.definition name)).map (·.value)

-- As a string the value of a boolean option is a pointer to nothing.
def argValue (command : Command) (name : String) : Call (List Char) :=
  match paramValue command name with
  | some (.string tok) => return tok
  | some .bvalue => throw .nullPointer
  | none => do
    complain "internal error: argument without value\n"
    throw (.exit 2)

end Values

section Table

def cmdList : CommandDef :=
  ⟨"list", [⟨.bool, "macs"⟩, ⟨.bool, "all"⟩, ⟨.bool, "inactive"⟩], []⟩

def cmdDumpXml : CommandDef :=
  ⟨"dumpxml", [⟨.bool, "mac"⟩, ⟨.bool, "live"⟩, ⟨.arg, "name"⟩], ["name"]⟩

def cmdDefine : CommandDef :=
  ⟨"define", [⟨.arg, "xmlfile"⟩], ["xmlfile"]⟩

def cmdUndefine : CommandDef :=
  ⟨"undefine", [⟨.arg, "iface"⟩], ["iface"]⟩

def cmdIfUp : CommandDef :=
  ⟨"ifup", [⟨.arg, "iface"⟩], ["iface"]⟩

def cmdIfDown : CommandDef :=
  ⟨"ifdown", [⟨.arg, "iface"⟩], ["iface"]⟩

def cmdChangeBegin : CommandDef :=
  ⟨"change-begin", [], []⟩

def cmdChangeCommit : CommandDef :=
  ⟨"change-commit", [], []⟩

def cmdChangeRollback : CommandDef :=
  ⟨"change-rollback", [], []⟩

def cmdHelp : CommandDef :=
  ⟨"help", [⟨.param, "command"⟩], []⟩

def cmdQuit : CommandDef :=
  ⟨"quit", [], []⟩

def commands : List CommandDef :=
  [cmdList, cmdDumpXml, cmdDefine, cmdUndefine, cmdIfUp, cmdIfDown, cmdChangeBegin, cmdChangeCommit,
    cmdChangeRollback, cmdHelp, cmdQuit]

end Table

end Netcf.Tool
