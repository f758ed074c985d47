import Netcf.Linux.Augeas
import Netcf.Shared.Siblings
import Netcf.Debian.Put

set_option autoImplicit false

-- The stanzas of /files/etc/network/interfaces, and what the path expressions of drv_debian.c find in
-- them and do to them.
namespace Netcf.Debian

open Linux Shared.Siblings

-- In the Interfaces lens every node below a stanza has a value.
structure Entry where
  label : String
  value : String
  deriving DecidableEq

structure Stanza where
  label : String
  value : Option String
  entries : List Entry
  deriving DecidableEq

abbrev Interfaces := List Stanza

def Stanza.values (stanza : Stanza) (label : String) : List String :=
  (stanza.entries.filter (·.label = label)).map (·.value)

-- iface[. = 'NAME']
def configures (name : String) (stanza : Stanza) : Bool :=
  stanza.label = "iface" && stanza.value = some name

-- auto[./1 = 'NAME']
def leads (name : String) (stanza : Stanza) : Bool :=
  stanza.label = "auto" && (stanza.values "1").contains name

section Queries

variable (interfaces : Interfaces) (name : String)

def configured : List Stanza :=
  interfaces.filter (configures name)

def hasAuto : Bool :=
  interfaces.any (·.label = "auto")

def bonded : Bool :=
  (configured interfaces name).any fun stanza => stanza.values "bond_slaves" ≠ []

def bridging : Bool :=
  (configured interfaces name).any fun stanza => stanza.values "bridge_ports" ≠ []

def listed (label : String) : List String :=
  (configured interfaces name).flatMap (·.values label)

end Queries

-- A word up to each space; the loop ends with the text, so a space at the end adds nothing.
def splitDevs (devs : String) : List String :=
  let words := devs.toList.splitOn ' '
  (if 1 < words.length ∧ words.getLast? = some [] then words.dropLast else words).map String.ofList

def dependents (devs : String) : List String :=
  if devs = "none" then [] else splitDevs devs

def shown (stanza : Stanza) : List Node :=
  (numbered Entry.label stanza.entries).map fun place => ⟨some place.1, place.2.value⟩

section Changes

-- LABEL[n]
def atPosition (label : String) (f : Stanza → Stanza) : Nat → Interfaces → Interfaces :=
  updateNth (·.label = label) ⟨label, none, []⟩ f

def setKey (label : String) (n : Nat) (key : String) : Interfaces → Interfaces :=
  atPosition label (fun stanza => { stanza with value := some key }) n

-- LABEL[n]/NODE[last()+1]
def addNode (label : String) (n : Nat) (node : Node) : Interfaces → Interfaces :=
  atPosition label (fun stanza =>
    { stanza with entries := stanza.entries ++ [⟨node.label.getD "1", node.value⟩] }) n

def without (p : Stanza → Bool) (interfaces : Interfaces) : Interfaces :=
  interfaces.filter fun stanza => !p stanza

def onInterfaces (f : Interfaces → Interfaces) (files : Files Interfaces) : Option (Files Interfaces) :=
  some { files with config := f files.config }

end Changes

end Netcf.Debian
