import Mathlib.Data.List.Basic

set_option autoImplicit false

namespace Shared

inductive Xml where
  | element (name : String) (attributes : List (String × String)) (children : List Xml)

namespace Xml

mutual

def decEq : (left right : Xml) → Decidable (left = right)
  | .element name attributes children, .element name' attributes' children' =>
    if same : name = name' ∧ attributes = attributes' then
      match decEqList children children' with
      | isTrue equal => isTrue (by simp [same, equal])
      | isFalse differ => isFalse (by simp [differ])
    else isFalse (by
      intro equal
      injection equal with nameEqual attributesEqual
      exact same ⟨nameEqual, attributesEqual⟩)

def decEqList : (left right : List Xml) → Decidable (left = right)
  | [], [] => isTrue rfl
  | [], _ :: _ => isFalse (by simp)
  | _ :: _, [] => isFalse (by simp)
  | x :: xs, y :: ys =>
    match decEq x y, decEqList xs ys with
    | isTrue head, isTrue tail => isTrue (by simp [head, tail])
    | isFalse differ, _ => isFalse (by simp [differ])
    | _, isFalse differ => isFalse (by simp [differ])

end

instance : DecidableEq Xml := decEq

def optional (name : String) (value : Option String) : List (String × String) :=
  match value with
  | some text => [(name, text)]
  | none => []

def tag : Xml → String
  | .element name _ _ => name

def children : Xml → List Xml
  | .element _ _ children => children

def getProp (attributes : List (String × String)) (name : String) : Option String :=
  (attributes.find? (·.1 = name)).map (·.2)

-- The value of an attribute that is there is replaced, a new one comes last.
def setProp (name value : String) : List (String × String) → List (String × String)
  | [] => [(name, value)]
  | (own, former) :: rest => if own = name then (own, value) :: rest else (own, former) :: setProp name value rest

theorem getProp_setProp (name value : String) (attributes : List (String × String)) :
    getProp (setProp name value attributes) name = some value := by
  induction attributes with
  | nil => simp [setProp, getProp]
  | cons pair rest ih =>
    obtain ⟨own, former⟩ := pair
    by_cases same : own = name
    · simp [setProp, getProp, same]
    · rw [getProp] at ih
      simp [setProp, getProp, same, ih]

end Xml

end Shared
