import Netcf.Shared.Lists
import Netcf.Linux.Lifecycle

set_option autoImplicit false

-- The aliases for the bonding module in /etc/modprobe.d.
namespace Netcf.Linux

open Shared.Faulty Shared.Lists

variable {C D : Type}

abbrev Modprobe := List ModprobeFile

def ModprobeNode.isAlias : ModprobeNode → Bool
  | .aliasOf _ _ => true
  | .directive _ => false

def ModprobeNode.aliases (name : String) : ModprobeNode → Bool
  | .aliasOf value _ => value = some name
  | .directive _ => false

def ModprobeNode.loads : ModprobeNode → Bool
  | .aliasOf _ modulename => modulename.isSome
  | .directive _ => false

def hasAlias (name : String) (modprobe : Modprobe) : Bool :=
  modprobe.any fun file => file.nodes.any (·.aliases name)

def netcfConf (file : ModprobeFile) : Bool :=
  file.name = "netcf.conf"

-- The files that /files/etc/modprobe.d/netcf.conf/alias[last()] reaches into.
def lastAlias (file : ModprobeFile) : Bool :=
  netcfConf file && file.nodes.any (·.isAlias)

def insertAfterLast : List ModprobeNode → List ModprobeNode
  | [] => []
  | node :: rest =>
    if node.isAlias && !rest.any (·.isAlias) then node :: .aliasOf none none :: rest
    else node :: insertAfterLast rest

def setLast (name : String) : List ModprobeNode → List ModprobeNode
  | [] => []
  | .directive label :: rest => .directive label :: setLast name rest
  | .aliasOf value modulename :: rest =>
    if rest.any (·.isAlias) then .aliasOf value modulename :: setLast name rest
    else .aliasOf (some name) modulename :: rest

def onNodes (f : List ModprobeNode → List ModprobeNode) (file : ModprobeFile) : ModprobeFile :=
  { file with nodes := f file.nodes }

-- aug_insert and aug_set refuse a path with several matches; aug_set creates what is missing.
def insertAlias (modprobe : Modprobe) : Option Modprobe :=
  if modprobe.countP lastAlias = 1 then some (alter lastAlias (onNodes insertAfterLast) modprobe)
  else none

def setLastAlias (name : String) (modprobe : Modprobe) : Option Modprobe :=
  if modprobe.countP lastAlias = 1 then some (alter lastAlias (onNodes (setLast name)) modprobe)
  else if modprobe.countP lastAlias = 0 then
    if modprobe.countP netcfConf = 0 then
      some (modprobe ++ [⟨"netcf.conf", [.aliasOf (some name) none]⟩])
    else if modprobe.countP netcfConf = 1 then
      some (alter netcfConf (onNodes (· ++ [.aliasOf (some name) none])) modprobe)
    else none
  else none

def ModprobeNode.load (name : String) : ModprobeNode → ModprobeNode
  | .aliasOf value modulename =>
    if value = some name then .aliasOf value (some "bonding") else .aliasOf value modulename
  | .directive label => .directive label

-- The path */alias[ . = NAME]/modulename.
def setModulename (name : String) (modprobe : Modprobe) : Option Modprobe :=
  let nodes := modprobe.flatMap (·.nodes)
  let loading := fun node : ModprobeNode => node.aliases name && node.loads
  if nodes.countP loading = 1 then
    some (modprobe.map (onNodes (alter loading (·.load name))))
  else if nodes.countP loading = 0 ∧ nodes.countP (·.aliases name) = 1 then
    some (modprobe.map (onNodes (·.map (·.load name))))
  else none

def isBondingAlias (name : String) : ModprobeNode → Bool
  | .aliasOf value modulename => value = some name && modulename = some "bonding"
  | .directive _ => false

def removeAlias (name : String) (modprobe : Modprobe) : Modprobe :=
  modprobe.map (onNodes (·.filter fun node => !isBondingAlias name node))

def onModprobe (f : Modprobe → Option Modprobe) (files : Files C) : Option (Files C) :=
  (f files.modprobe).map fun modprobe => { files with modprobe := modprobe }

-- The results of the aug_match and of the aug_set are not checked.
def addAlias (name : String) : Api C D Unit := do
  attempt .nomem
  let found ← ignoring false (augMatch fun files => decide (0 < files.modprobe.countP lastAlias))
  onlyIf found (augUpdate .other (onModprobe insertAlias))
  ignoring () (augUpdate .other (onModprobe (setLastAlias name)))

section Driver

variable [EmptyCollection C] (augeas : Augeas C D)

def modprobedAliasBond (name : String) : Api C D Unit := do
  getAugeas augeas
  let known ← augFmtMatch augeas fun files => hasAlias name files.modprobe
  onlyIf (!known) (addAlias name)
  attempt .nomem
  augUpdate .other (onModprobe (setModulename name))

def modprobedUnaliasBond (name : String) : Api C D Unit := do
  getAugeas augeas
  attempt .nomem
  augUpdate .other (onModprobe fun modprobe => some (removeAlias name modprobe))

end Driver

end Netcf.Linux
