import Netcf.Schema.Document
import Netcf.Stylesheet.Extension
import Netcf.Linux.Modprobe

set_option autoImplicit false

-- drv_define and drv_undefine, whose text the Linux drivers share.
namespace Netcf.Linux

open Shared.Faulty Schema Stylesheet

-- libxml2: the parser, and the validator for interface.rng.
structure Libxml where
  Doc : Type
  parse : String → Option Doc
  validate : Doc → Option Interface

def Libxml.accepts (libxml : Libxml) (text : String) : Option Interface :=
  (libxml.parse text).bind libxml.validate

-- libxml2 as far as one text goes.
def Libxml.reading (text : String) (document : Interface) : Libxml where
  Doc := Shared.Xml
  parse other := if other = text then some document.toXml else none
  validate doc := if doc = document.toXml then some document else none

theorem accepts_reading (text : String) (document : Interface) :
    (Libxml.reading text document).accepts text = some document := by
  simp [Libxml.accepts, Libxml.reading]

structure NetcfIf where
  name : String
  deriving DecidableEq

-- The name attributes after device_name_from_xml: a root without one has been given an empty one, since the
-- function passes its still empty result to xmlSetProp.
def nameAttributes (document : Interface) : List (Option String) :=
  some ((document.rootName.map (·.text)).getD "") :: document.memberNames.map (·.map (·.text))

-- The parts in which the drivers differ. F is what the get stylesheet produces.
structure Backend (C D F : Type) where
  get : Interface → Except TransformError F
  rmInterface : Augeas C D → String → Api C D Unit
  augPutXml : Augeas C D → F → Api C D Unit
  isBond : Augeas C D → String → Api C D Bool
  isBridge : Augeas C D → String → Api C D Bool
  bridgeSlaves : Augeas C D → String → Api C D (List String)
  -- The names of the interface elements that rm_all_interfaces goes through.
  mentioned : Interface → List (Option String) := nameAttributes

inductive Step
  | getAugeas | parseXml | rngValidate | deviceNameFromXml | rmAllInterfaces | applyStylesheet
  | augPutXml | bondSetup | augSave | makeNetcfIf
  deriving DecidableEq

structure Failure where
  step : Step
  code : Errcode
  deriving DecidableEq

variable {C D F : Type}

def stage {α : Type} (step : Step) (program : Api C D α) : EStateM Failure (Ncf C D) α :=
  program.adaptExcept fun code => ⟨step, code⟩

def parseXml (libxml : Libxml) (text : String) : Api C D libxml.Doc := do
  attempt .nomem
  match libxml.parse text with
  | some doc => pure doc
  | none => throw .xmlParser

def rngValidate (libxml : Libxml) (doc : libxml.Doc) : Api C D Interface :=
  match libxml.validate doc with
  | some document => pure document
  | none => throw .xmlInvalid

def deviceName : Interface → String
  | .ethernet _ nic => nic.name.text
  | .vlan _ link => (link.name.map (·.text)).getD link.deviceName
  | .bridge _ name _ => name.text
  | .bond _ team => team.name.text

def deviceNameFromXml (document : Interface) : Api C D String := do
  attempt .nomem
  attempt .nomem
  onlyIf document.rootName.isNone (attempt .nomem)
  attempt .internal
  return deviceName document

def applyStylesheet (get : Interface → Except TransformError F) (document : Interface) : Api C D F := do
  attempt .nomem
  attempt .nomem
  match get document with
  | .ok forest => pure forest
  | .error _ => throw .xsltFailed

section Bridges

-- The check after strdup looks at the caller's variable instead, and from the second copy on at what
-- lies behind it.  So a failed copy is the null pointer that the formats of glibc print as (null), and
-- a null word counts as a failed copy.
def copySlave (machine : Machine) (slave : Option String × Nat) : Api C D String := do
  let dev ← augGet slave.1
  let copy := if ← flaky then "(null)" else dev
  onlyIf (0 < slave.2 && machine.nullBehind slave.2) (throw .nomem)
  return copy

-- bridge_slaves, which the drivers with bridges have in common up to the path of the ifcfg files.
def copySlaves [EmptyCollection C] (machine : Machine) (augeas : Augeas C D)
    (devices : Files C → List (Option String)) : Api C D (List String) := do
  getAugeas augeas
  let slaves ← augFmtMatch augeas devices
  slaves.zipIdx.mapM (copySlave machine)

-- None of the words that are taken for the copies of COUNT names is null.
def Clear (words : Nat → Bool) (count : Nat) : Prop :=
  ∀ i < count, 0 < i → words i = false

instance (words : Nat → Bool) (count : Nat) : Decidable (Clear words count) :=
  inferInstanceAs (Decidable (∀ i < count, 0 < i → words i = false))

end Bridges

section Driver

variable [EmptyCollection C] (augeas : Augeas C D) (backend : Backend C D F)

def rmAllInterfaces (document : Interface) : Api C D Unit := do
  attempt .nomem
  attempt .nomem
  (backend.mentioned document).forM fun name =>
    match name with
    | some name => do
      attempt .nomem
      backend.rmInterface augeas name
    | none => throw .nomem

def setup (adding : Bool) (name : String) : Api C D Unit :=
  if adding then modprobedAliasBond augeas name else modprobedUnaliasBond augeas name

def setupIfBond (adding : Bool) (name : String) : Api C D Unit := do
  if ← backend.isBond augeas name then setup augeas adding name

def bondSetup (name : String) (adding : Bool) : Api C D Unit := do
  setupIfBond augeas backend adding name
  if ← backend.isBridge augeas name then
    let slaves ← backend.bridgeSlaves augeas name
    slaves.forM (setupIfBond augeas backend adding)

def makeNetcfIf (name : String) : Api C D NetcfIf := do
  attempt .nomem
  return ⟨name⟩

-- The steps of drv_define up to its save: they work on the loaded tree only.
def defineInTree (libxml : Libxml) (text : String) : EStateM Failure (Ncf C D) String := do
  stage .getAugeas (getAugeas augeas)
  let doc ← stage .parseXml (parseXml libxml text)
  let document ← stage .rngValidate (rngValidate libxml doc)
  let name ← stage .deviceNameFromXml (deviceNameFromXml document)
  stage .rmAllInterfaces (rmAllInterfaces augeas backend document)
  let forest ← stage .applyStylesheet (applyStylesheet backend.get document)
  stage .augPutXml (backend.augPutXml augeas forest)
  stage .bondSetup (bondSetup augeas backend name true)
  return name

def drvDefine (libxml : Libxml) (text : String) : EStateM Failure (Ncf C D) NetcfIf := do
  let name ← defineInTree augeas backend libxml text
  stage .augSave (augSave augeas)
  stage .makeNetcfIf (makeNetcfIf name)

def drvUndefine (nif : NetcfIf) : Api C D Unit := do
  getAugeas augeas
  bondSetup augeas backend nif.name false
  backend.rmInterface augeas nif.name
  augSave augeas

end Driver

end Netcf.Linux
