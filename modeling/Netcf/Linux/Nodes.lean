import Netcf.Shared.Xml
import Netcf.Linux.Augeas

set_option autoImplicit false

-- The element that the live state of an interface is filled into (xml_new_node and xml_node of dutil.c,
-- and what is used of libxml2).  A program works on one element; a pointer to a node below it is its
-- place among the children, which stays the same since children are only appended.
namespace Netcf.Linux.Live

open Shared.Faulty Shared.Xml

section Document

-- The text, comments and so on between elements are kept as they are.
inductive Node
  | element (name : String) (attributes : List (String × String)) (children : List Node)
  | other (text : String)

def Node.hasName (name : String) : Node → Bool
  | .element own _ _ => own = name
  | .other _ => false

inductive Stop
  -- goto error
  | failed
  | badPointer
  | outOfFuel
  deriving DecidableEq

-- An element that is being filled. Every allocation takes the next entry of FAULTS, and none left means that it
-- succeeds. DATA is what a libnl callback keeps between its calls.
structure Filling (δ : Type) where
  faults : List Bool
  errcode : Option Errcode
  errdetails : Option String
  attributes : List (String × String)
  children : List Node
  data : δ

abbrev Fill (δ : Type) := EStateM Stop (Filling δ)

variable {δ ε α : Type}

def allocFails : Fill δ Bool := fun s =>
  match s.faults with
  | [] => .ok false s
  | fails :: later => .ok fails { s with faults := later }

-- ERR_NOMEM where its condition holds.
def nomem : Fill δ α := do
  modify fun s => { s with errcode := some .nomem }
  throw .failed

def errNomem (program : Fill δ (Option α)) : Fill δ α := do
  match ← program with
  | some a => return a
  | none => nomem

-- We only remember the first error
def reportError (code : Errcode) (details : String) (s : Filling δ) : Filling δ :=
  match s.errcode with
  | some _ => s
  | none => { s with errcode := some code, errdetails := some details }

def errThrow (code : Errcode) (details : String) : Fill δ α := do
  modify (reportError code details)
  throw .failed

def errBail : Fill δ Unit := do
  if (← get).errcode.isSome then throw .failed

def xmlNewNode (name : String) : Fill δ (Option Nat) := do
  if ← allocFails then return none
  let s ← get
  set { s with children := s.children ++ [Node.element name [] []] }
  return some s.children.length

def xmlNode (name : String) : Fill δ (Option Nat) := do
  match (← get).children.findIdx? (Node.hasName name) with
  | some place => return some place
  | none => xmlNewNode name

-- xmlSetProp replaces an attribute of that name, xmlNewProp does not look for one.
def xmlSetProp (name value : String) : Fill δ (Option Unit) := do
  if ← allocFails then return none
  modify fun s => { s with attributes := setProp name value s.attributes }
  return some ()

def xmlNewProp (name value : String) : Fill δ (Option Unit) := do
  if ← allocFails then return none
  modify fun s => { s with attributes := s.attributes ++ [(name, value)] }
  return some ()

def Filling.enter (s : Filling δ) (attributes : List (String × String)) (children : List Node) : Filling Unit :=
  ⟨s.faults, s.errcode, s.errdetails, attributes, children, ()⟩

def Filling.leave (s : Filling δ) (place : Nat) (name : String) (inner : Filling Unit) : Filling δ where
  faults := inner.faults
  errcode := inner.errcode
  errdetails := inner.errdetails
  attributes := s.attributes
  children := s.children.set place (.element name inner.attributes inner.children)
  data := s.data

-- The program on the child that the pointer leads to.
def within (place : Nat) (program : Fill Unit α) : Fill δ α := fun s =>
  match s.children[place]? with
  | some (.element name attributes children) =>
    match program (s.enter attributes children) with
    | .ok a inner => .ok a (s.leave place name inner)
    | .error e inner => .error e (s.leave place name inner)
  | _ => .error .badPointer s

-- A function whose errors end at its own label.  RET is what it returns then.
def untilError (ret : α) (program : Fill δ α) : Fill δ α := fun s =>
  match program s with
  | .error .failed s' => .ok ret s'
  | result => result

-- nl_cache_foreach over the objects, with the data that the callback starts from.
def foreach {β : Type} (objects : List β) (start : ε) (callback : β → Fill ε Unit) : Fill δ Unit := fun s =>
  match objects.forM callback ⟨s.faults, s.errcode, s.errdetails, s.attributes, s.children, start⟩ with
  | .ok _ s' => .ok () { s' with data := s.data }
  | .error e s' => .error e { s' with data := s.data }

end Document

section Calm

variable {δ ε α : Type} {s : Filling δ}

theorem allocFails_calm (calm : s.faults = []) : allocFails s = .ok false s := by
  unfold allocFails
  rw [calm]

theorem errNomem_some {program : Fill δ (Option α)} {a : α} {s' : Filling δ} (run : program s = .ok (some a) s') :
    errNomem program s = .ok a s' := by
  unfold errNomem
  rw [bind_of_ok _ run]
  rfl

theorem errBail_calm (calm : s.errcode = none) : errBail s = .ok () s := by
  unfold errBail
  rw [bind_of_ok _ (get_run s), calm]
  rfl

theorem xmlNewNode_calm (calm : s.faults = []) (name : String) :
    xmlNewNode name s =
      .ok (some s.children.length) { s with children := s.children ++ [Node.element name [] []] } := by
  unfold xmlNewNode
  rw [bind_of_ok _ (allocFails_calm calm)]
  rfl

theorem xmlNode_new (calm : s.faults = []) {name : String} (new : ∀ child ∈ s.children, child.hasName name = false) :
    xmlNode name s =
      .ok (some s.children.length) { s with children := s.children ++ [Node.element name [] []] } := by
  have absent : s.children.findIdx? (Node.hasName name) = none := List.findIdx?_eq_none_iff.mpr new
  unfold xmlNode
  rw [bind_of_ok _ (get_run s), absent]
  exact xmlNewNode_calm calm name

theorem xmlNode_found {name : String} {place : Nat} (found : s.children.findIdx? (Node.hasName name) = some place) :
    xmlNode name s = .ok (some place) s := by
  unfold xmlNode
  rw [bind_of_ok _ (get_run s), found]
  rfl

theorem xmlSetProp_calm (calm : s.faults = []) (name value : String) :
    xmlSetProp name value s = .ok (some ()) { s with attributes := setProp name value s.attributes } := by
  unfold xmlSetProp
  rw [bind_of_ok _ (allocFails_calm calm)]
  rfl

theorem xmlNewProp_calm (calm : s.faults = []) (name value : String) :
    xmlNewProp name value s = .ok (some ()) { s with attributes := s.attributes ++ [(name, value)] } := by
  unfold xmlNewProp
  rw [bind_of_ok _ (allocFails_calm calm)]
  rfl

theorem within_ok {place : Nat} {name : String} {attributes : List (String × String)} {children : List Node}
    (there : s.children[place]? = some (.element name attributes children)) {program : Fill Unit α} {a : α}
    {inner : Filling Unit} (run : program (s.enter attributes children) = .ok a inner) :
    within place program s = .ok a (s.leave place name inner) := by
  unfold within
  rw [there]
  dsimp only
  rw [run]

-- On the child that has just been appended.
theorem within_last {former : List Node} {name : String} {attributes : List (String × String)} {children : List Node}
    (last : s.children = former ++ [.element name attributes children]) {program : Fill Unit α} {a : α}
    {inner : Filling Unit} (run : program (s.enter attributes children) = .ok a inner) :
    within former.length program s = .ok a
      { s.leave former.length name inner with
        children := former ++ [.element name inner.attributes inner.children] } := by
  rw [within_ok (by rw [last, List.getElem?_concat_length]) run]
  unfold Filling.leave
  rw [last]
  congr 2
  simp

theorem within_last_prop (calm : s.faults = []) {former : List Node} {name : String}
    {attributes : List (String × String)} {children : List Node}
    (last : s.children = former ++ [.element name attributes children]) (key value : String) :
    within former.length (errNomem (xmlSetProp key value)) s = .ok ()
      { s with children := former ++ [.element name (setProp key value attributes) children] } := by
  have quiet : (s.enter attributes children).faults = [] := calm
  rw [within_last last (errNomem_some (xmlSetProp_calm quiet key value))]
  rfl

theorem untilError_ok {program : Fill δ α} {a : α} {s' : Filling δ} (run : program s = .ok a s') (ret : α) :
    untilError ret program s = .ok a s' := by
  unfold untilError
  rw [run]

theorem foreach_ok {β : Type} {objects : List β} {start : ε} {callback : β → Fill ε Unit} {s' : Filling ε}
    (run : objects.forM callback ⟨s.faults, s.errcode, s.errdetails, s.attributes, s.children, start⟩ = .ok () s') :
    foreach objects start callback s = .ok () { s' with data := s.data } := by
  unfold foreach
  rw [run]

theorem foreach_single {β : Type} {object : β} {start : ε} {callback : β → Fill ε Unit} {s' : Filling ε}
    (run : callback object ⟨s.faults, s.errcode, s.errdetails, s.attributes, s.children, start⟩ = .ok () s') :
    foreach [object] start callback s = .ok () { s' with data := s.data } :=
  foreach_ok (bind_of_ok (fun _ => List.forM [] callback) run)

end Calm

end Netcf.Linux.Live
