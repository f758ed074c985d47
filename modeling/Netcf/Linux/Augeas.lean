import Mathlib.Data.List.ReduceOption
import Netcf.Shared.Faulty

set_option autoImplicit false

-- The Augeas instance of a Linux driver (dutil_linux.c).  Every call that can fail, in Augeas or in
-- the allocator, takes the next entry of a list of faults; an empty list means that nothing fails.
namespace Netcf.Linux

open Shared.Faulty

inductive Errcode
  | internal | other | nomem | xmlParser | xmlInvalid | noent | exec | inUse | xsltFailed | file
  | ioctl | netlink | invalidOp
  deriving DecidableEq

inductive ModprobeNode
  | aliasOf (value modulename : Option String)
  | directive (label : String)
  deriving DecidableEq

structure ModprobeFile where
  name : String
  nodes : List ModprobeNode
  deriving DecidableEq

-- The loaded tree: the driver's configuration, /files/etc/modprobe.d and /files/sys/class/net.
structure Files (C : Type) where
  config : C
  modprobe : List ModprobeFile
  sysfs : List (String × String)
  deriving DecidableEq

abbrev Entries := List (String × String)

-- Augeas itself: the tree that aug_load reads from a disk under the entries of /augeas/load, and the disk that
-- aug_save leaves.
structure Augeas (C D : Type) where
  read : Entries → D → Files C
  write : D → Files C → D

structure Instance (C : Type) where
  load : Entries
  files : Files C

-- struct driver, with the disk and the faults to come.
structure Ncf (C D : Type) where
  disk : D
  augeas : Option (Instance C)
  augeasXfmTables : List (Option Entries)
  copyAugeasXfm : Bool
  loadAugeas : Bool
  faults : List Bool

abbrev Api (C D : Type) := EStateM Errcode (Ncf C D)

variable {C D : Type}

def flaky : Api C D Bool := fun ncf =>
  match ncf.faults with
  | [] => .ok false ncf
  | fails :: later => .ok fails { ncf with faults := later }

def attempt (code : Errcode) : Api C D Unit := do
  if ← flaky then throw code

-- API_ENTRY, by way of drv_entry.
def apiEntry (ncf : Ncf C D) : Ncf C D :=
  { ncf with loadAugeas := true }

def setEntry (entries : Entries) (entry : String × String) : Entries :=
  if entries.any (·.1 = entry.1) then
    entries.map fun old => if old.1 = entry.1 then entry else old
  else entries ++ [entry]

def updateInstance (change : Instance C → Instance C) : Api C D Unit :=
  modify fun ncf => { ncf with augeas := ncf.augeas.map change }

def createInstance [EmptyCollection C] : Api C D Unit := do
  if (← get).augeas.isNone then
    attempt .nomem
    attempt .other
    modify fun ncf => { ncf with augeas := some ⟨[], ⟨∅, [], []⟩⟩, copyAugeasXfm := true }

def copyTables : Api C D Unit := do
  if (← get).copyAugeasXfm then
    attempt .other
    updateInstance fun aug => { aug with load := [] }
    (← get).augeasXfmTables.reduceOption.flatten.forM fun entry => do
      attempt .other
      updateInstance fun aug => { aug with load := setEntry aug.load entry }
    modify fun ncf => { ncf with copyAugeasXfm := false, loadAugeas := true }

-- The look for nodes under /augeas//error: a search that fails itself counts as one without matches.
def loadErrors : Api C D Unit := do
  unless ← flaky do
    attempt .other

def loadFiles (augeas : Augeas C D) : Api C D Unit := do
  if (← get).loadAugeas then
    attempt .other
    let disk := (← get).disk
    updateInstance fun aug => { aug with files := augeas.read aug.load disk }
    loadErrors
    modify fun ncf => { ncf with loadAugeas := false }

def closingOnError (body : Api C D Unit) : Api C D Unit := fun ncf =>
  match body ncf with
  | .ok result after => .ok result after
  | .error code after => .error code { after with augeas := none }

def getAugeas [EmptyCollection C] (augeas : Augeas C D) : Api C D Unit :=
  closingOnError do
    createInstance
    copyTables
    loadFiles augeas

def tree : Api C D (Files C) := do
  match (← get).augeas with
  | some aug => pure aug.files
  | none => throw .internal

def augMatch {α : Type} (query : Files C → α) : Api C D α := do
  attempt .other
  return query (← tree)

def refusable {α : Type} (found : Option α) : Api C D α :=
  match found with
  | some a => pure a
  | none => throw .other

-- aug_get of a node that an aug_match has found.  A node without a value gives the null pointer, which
-- the callers dereference.
def augGet (value : Option String) : Api C D String := do
  attempt .other
  match value with
  | some text => pure text
  | none => throw .internal

-- aug_rm, aug_set and aug_insert: `none` is a call that Augeas refuses.
def augUpdate (code : Errcode) (change : Files C → Option (Files C)) : Api C D Unit := do
  attempt code
  match change (← tree) with
  | some files => updateInstance fun aug => { aug with files := files }
  | none => throw code

def augSave (augeas : Augeas C D) : Api C D Unit := do
  attempt .other
  let files ← tree
  modify fun ncf => { ncf with disk := augeas.write ncf.disk files }

section Formatted

variable [EmptyCollection C] (augeas : Augeas C D)

def augFmtMatch {α : Type} (query : Files C → α) : Api C D α := do
  getAugeas augeas
  attempt .nomem
  augMatch query

-- A query with an expression of its own making: `none` is an expression that Augeas refuses.
def augFmtFind {α : Type} (query : Files C → Option α) : Api C D α := do
  refusable (← augFmtMatch augeas query)

def augFmtUpdate (change : Files C → Option (Files C)) : Api C D Unit := do
  getAugeas augeas
  attempt .nomem
  augUpdate .other change

end Formatted

end Netcf.Linux
