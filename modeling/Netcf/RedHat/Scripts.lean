import Netcf.Linux.Define
import Netcf.RedHat.Forest

set_option autoImplicit false

-- The ifcfg files of the loaded tree, and what the path expressions of drv_redhat.c find in them.
namespace Netcf.RedHat

open Linux Shared.Lists

-- A labelled node of a file.  Lines without a label are out of reach of every path used here.
structure Entry where
  label : String
  value : Option String
  deriving DecidableEq

structure Script where
  name : String
  entries : List Entry
  deriving DecidableEq

-- /files/etc/sysconfig/network-scripts: a directory holds one file of a name.
structure Scripts where
  files : List Script
  distinct : (files.map (·.name)).Nodup
  deriving DecidableEq

instance : EmptyCollection Scripts := ⟨⟨[], List.nodup_nil⟩⟩

def Script.values (script : Script) (label : String) : List (Option String) :=
  (script.entries.filter (·.label = label)).map (·.value)

-- The test [ LABEL = 'VALUE' ] of a value without a quote.
def Script.has (script : Script) (label value : String) : Bool :=
  (script.values label).contains (some value)

def Scripts.devices (scripts : Scripts) (p : Script → Bool) : List (Option String) :=
  (scripts.files.filter p).flatMap (·.values "DEVICE")

-- The test [ MASTER = ../*[BRIDGE = 'NAME']/DEVICE ].  Two node sets are equal when some node of the
-- one has the value of some node of the other, where no value equals no value.
def Scripts.belowPort (scripts : Scripts) (name : String) (script : Script) : Bool :=
  (script.values "MASTER").any (scripts.devices (·.has "BRIDGE" name)).contains

def Scripts.related (scripts : Scripts) (name : String) (script : Script) : Bool :=
  script.has "DEVICE" name || script.has "BRIDGE" name || script.has "MASTER" name ||
    scripts.belowPort name script

def Scripts.remove (scripts : Scripts) (p : Script → Bool) : Scripts :=
  ⟨scripts.files.filter fun script => !p script, scripts.distinct.sublist (List.filter_sublist.map _)⟩

def Script.assign (label value : String) (script : Script) : Script :=
  let entry : Entry := ⟨label, some value⟩
  if script.entries.any (·.label = label) then
    { script with entries := alter (·.label = label) (fun _ => entry) script.entries }
  else { script with entries := script.entries ++ [entry] }

theorem assign_name (label value : String) (script : Script) : (script.assign label value).name = script.name := by
  by_cases listed : script.entries.any (·.label = label) <;> simp [Script.assign, listed]

-- aug_set creates what is missing and refuses a path with several matches.
def Scripts.set (scripts : Scripts) (name label value : String) : Option Scripts :=
  if absent : name ∉ scripts.files.map (·.name) then
    some ⟨scripts.files ++ [⟨name, [⟨label, some value⟩]⟩], by
      simpa [List.nodup_append, scripts.distinct] using absent⟩
  else if ∀ script ∈ scripts.files, script.name = name → script.entries.countP (·.label = label) ≤ 1 then
    some ⟨alter (·.name = name) (·.assign label value) scripts.files, by
      rw [alter, List.map_map]
      convert scripts.distinct using 2
      funext script
      by_cases here : script.name = name <;> simp [here, assign_name]⟩
  else none

section Names

-- What ends a name in a path expression, the backslash, and white space.
def metacharacters : List Char :=
  ['/', '[', ']', '(', ')', '|', '=', '!', ',', '\\', ' ', '\t', '\n', '\x0b', '\x0c', '\r']

def axes : List String :=
  ["self", "child", "seq", "descendant", "descendant-or-self", "parent", "ancestor", "root", "preceding-sibling",
    "following-sibling"]

-- Within a path expression the text stands for itself as a part of a name.
def Ordinary (name : String) : Prop :=
  ∀ c ∈ name.toList, c ∉ metacharacters

instance (name : String) : Decidable (Ordinary name) :=
  List.decidableBAll (fun c => c ∉ metacharacters) name.toList

-- The text stands for itself as a step of a path expression.
structure StepName (name : String) : Prop where
  ordinary : Ordinary name
  named : name.toList.head? ∉ [none, some '.', some '*']
  axisless : ∀ axis ∈ axes, ¬ axis.toList ++ [':', ':'] <+: name.toList

instance (name : String) : Decidable (StepName name) :=
  decidable_of_iff (Ordinary name ∧ name.toList.head? ∉ [none, some '.', some '*'] ∧
      ∀ axis ∈ axes, ¬ axis.toList ++ [':', ':'] <+: name.toList)
    ⟨fun parts => ⟨parts.1, parts.2.1, parts.2.2⟩, fun step => ⟨step.ordinary, step.named, step.axisless⟩⟩

end Names

-- The label below network-scripts that a path leads to.
def scriptLabel (path : String) : Option String :=
  let label := String.ofList (path.toList.drop (networkScriptsPath.length + 1))
  if path = networkScriptsPath ++ "/" ++ label ∧ StepName label then some label else none

-- Whether a path leads to a node within a file of network-scripts.
def withinScript (path : String) : Bool :=
  let below := path.toList.drop (networkScriptsPath.length + 1)
  let file := below.takeWhile (· ≠ '/')
  let entry := below.drop (file.length + 1)
  path = networkScriptsPath ++ "/" ++ String.ofList file ++ "/" ++ String.ofList entry ∧
    StepName (String.ofList file) ∧ StepName (String.ofList entry)

def Script.path (script : Script) : String :=
  networkScriptsPath ++ "/" ++ script.name

-- A node is called LABEL[i] by aug_match when it has a sibling of the same label.
def Script.shown (script : Script) : List (String × Entry) :=
  script.entries.zipIdx.map fun place =>
    let same := fun entry : Entry => decide (entry.label = place.1.label)
    if script.entries.countP same = 1 then (place.1.label, place.1)
    else (place.1.label ++ "[" ++ toString ((script.entries.take place.2).countP same + 1) ++ "]", place.1)

-- Augeas on the expressions that do not just lead to a file of network-scripts.  A device name is put
-- into them as it is: with a slash ifcfg-NAME is a path of several steps, with brackets it picks a node
-- by a test, and a quote ends the text that it is compared with.  `none` is an expression that Augeas
-- refuses.
structure Pathx where
  rm : String → Files Scripts → Option (Files Scripts)
  set : String → String → Files Scripts → Option (Files Scripts)
  find : String → Files Scripts → Option (List (String × Option String))

def onScripts (f : Scripts → Option Scripts) (files : Files Scripts) : Option (Files Scripts) :=
  (f files.config).map fun scripts => { files with config := scripts }

namespace Pathx

variable (pathx : Pathx)

def augRm (path : String) : Files Scripts → Option (Files Scripts) :=
  match scriptLabel path with
  | some name => onScripts fun scripts => some (scripts.remove (·.name = name))
  | none => pathx.rm path

def augSet (path label value : String) : Files Scripts → Option (Files Scripts) :=
  match scriptLabel path with
  | some name => onScripts fun scripts => scripts.set name label value
  | none => pathx.set (path ++ "/" ++ label) value

def count (path : String) (files : Files Scripts) : Option Nat :=
  match scriptLabel path with
  | some name => some (files.config.files.countP (·.name = name))
  | none => (pathx.find path files).map List.length

-- The nodes PATH/*, by the rest of their paths.
def children (path : String) (files : Files Scripts) : Option (List (String × Option String)) :=
  match scriptLabel path with
  | some name => some ((files.config.files.filter (·.name = name)).flatMap fun script =>
      script.shown.map fun node => (node.1, node.2.value))
  | none => (pathx.find (path ++ "/*") files).map fun found => found.map fun node =>
      (String.ofList (node.1.toList.drop (path.length + 1)), node.2)

end Pathx

end Netcf.RedHat
