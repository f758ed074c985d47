import Netcf.Linux.Programs
import Netcf.Debian.Driver

set_option autoImplicit false

-- What drv_debian.c writes to the loaded tree and reads from it, apart from what fails outside.
namespace Netcf.Debian

open Shared.Faulty Shared.Siblings Linux Schema Stylesheet

variable {D : Type} {augeas : Augeas Interfaces D} {disk : D} {tables : List (Option Entries)}

section Writing

def edit (f : Interfaces → Interfaces) : StateT (Files Interfaces) (Except Errcode) Unit :=
  fun files => .ok ((), { files with config := f files.config })

theorem implements_edit (f : Interfaces → Interfaces) :
    Implements (Loaded disk tables) Calm (augFmtUpdate augeas (onInterfaces f)) (edit f) :=
  implements_getAugeas.bind fun _ => (implements_attempt .nomem).bind fun _ =>
    implements_augUpdate .other (onInterfaces f)

def removeInterface (name : String) (interfaces : Interfaces) : Interfaces :=
  without (configures name) (without (leads name) interfaces)

theorem implements_rmInterface (name : String) :
    Implements (Loaded disk tables) Calm (rmInterface augeas name) (edit (removeInterface name)) :=
  (implements_edit (without (leads name))).bind fun _ => implements_edit (without (configures name))

def Node.entry (node : Node) : Entry :=
  ⟨node.label.getD "1", node.value⟩

def Element.stanza (label : String) (element : Element) : Stanza :=
  ⟨label, element.key, element.nodes.map Node.entry⟩

def StanzaArray.stanzas (array : StanzaArray) : List Stanza :=
  array.elements.map (Element.stanza array.label)

-- An element without a key and without nodes would be counted but not created.
def StanzaArray.Filled (array : StanzaArray) : Prop :=
  ∀ element ∈ array.elements, element.key = none → element.nodes ≠ []

section Elements

variable {label : String} {files : Files Interfaces}

theorem addNodes {front : Interfaces} {stanza : Stanza} {nodes : List Node} (named : stanza.label = label) :
    nodes.forM (fun node => edit (addNode label (front.countP (·.label = label) + 1) node))
        { files with config := front ++ [stanza] } =
      .ok ((), { files with config :=
        front ++ [{ stanza with entries := stanza.entries ++ nodes.map Node.entry }] }) := by
  induction nodes generalizing stanza with
  | nil => simp; rfl
  | cons node rest ih =>
    have step : addNode label (front.countP (·.label = label) + 1) node (front ++ [stanza]) =
        front ++ [{ stanza with entries := stanza.entries ++ [node.entry] }] :=
      updateNth_last (by simpa using named) front
    have first : edit (addNode label (front.countP (·.label = label) + 1) node)
        { files with config := front ++ [stanza] } =
        .ok ((), { files with config := front ++ [{ stanza with entries := stanza.entries ++ [node.entry] }] }) := by
      rw [edit, step]
    have others := @ih { stanza with entries := stanza.entries ++ [node.entry] } named
    rw [model_forM_cons, model_bind_of_ok _ first, others]
    simp

def putElementModel (label : String) (n : Nat) (element : Element) :
    StateT (Files Interfaces) (Except Errcode) Unit := do
  element.key.toList.forM fun key => edit (setKey label n key)
  element.nodes.forM fun node => edit (addNode label n node)

theorem putElement_appends {element : Element} (filled : element.key = none → element.nodes ≠ []) :
    putElementModel label (files.config.countP (·.label = label) + 1) element files =
      .ok ((), { files with config := files.config ++ [element.stanza label] }) := by
  rcases element with ⟨_ | key, nodes⟩
  · rcases nodes with _ | ⟨node, rest⟩
    · exact absurd rfl (filled rfl)
    have first : edit (addNode label (files.config.countP (·.label = label) + 1) node) files =
        .ok ((), { files with config := files.config ++ [⟨label, none, [node.entry]⟩] }) := by
      rw [edit, addNode, atPosition, updateNth_new]
      rfl
    have keyless : ((none : Option String).toList.forM fun key =>
        edit (setKey label (files.config.countP (·.label = label) + 1) key)) files = .ok ((), files) := rfl
    exact (model_bind_of_ok _ keyless).trans ((model_bind_of_ok _ first).trans
      (@addNodes label files files.config ⟨label, none, [node.entry]⟩ rest rfl))
  · have one : edit (setKey label (files.config.countP (·.label = label) + 1) key) files =
        .ok ((), { files with config := files.config ++ [⟨label, some key, []⟩] }) := by
      rw [edit, setKey, atPosition, updateNth_new]
    have first : ([key].forM fun key => edit (setKey label (files.config.countP (·.label = label) + 1) key)) files =
        .ok ((), { files with config := files.config ++ [⟨label, some key, []⟩] }) :=
      (model_bind_of_ok _ one).trans rfl
    exact (model_bind_of_ok _ first).trans (@addNodes label files files.config ⟨label, some key, []⟩ nodes rfl)

theorem putElements_append {elements : List Element}
    (filled : ∀ element ∈ elements, element.key = none → element.nodes ≠ []) :
    (elements.zipIdx (files.config.countP (·.label = label) + 1)).forM
        (fun place => putElementModel label place.2 place.1) files =
      .ok ((), { files with config := files.config ++ elements.map (Element.stanza label) }) := by
  induction elements generalizing files with
  | nil => simp; rfl
  | cons element rest ih =>
    have first := @putElement_appends label files element (filled element List.mem_cons_self)
    have counted : (files.config ++ [element.stanza label]).countP (·.label = label) =
        files.config.countP (·.label = label) + 1 := by
      simp [Element.stanza]
    have others := @ih { files with config := files.config ++ [element.stanza label] }
      fun other later => filled other (List.mem_cons_of_mem element later)
    rw [counted] at others
    rw [List.zipIdx_cons, model_forM_cons, model_bind_of_ok _ first, others]
    simp

end Elements

theorem implements_augPutArray {array : StanzaArray} (filled : array.Filled) :
    Implements (Loaded disk tables) Calm (augPutArray augeas array) (edit (· ++ array.stanzas)) := by
  have element : ∀ place : Element × Nat, Implements (Loaded disk tables) Calm
      (augPutElement augeas array.label place.2 place.1) (putElementModel array.label place.2 place.1) :=
    fun place => (implements_forM (fun key => implements_edit _) _).bind fun _ =>
      implements_forM (fun node => implements_edit _) _
  have all := (@implements_augFmtMatch _ _ disk tables _ augeas _
    fun files => files.config.countP (·.label = array.label)).bind fun last =>
      implements_forM element (array.elements.zipIdx (last + 1))
  refine all.congr fun files => ?_
  rw [model_bind_of_ok _ rfl, putElements_append filled]
  rfl

theorem implements_appends {α : Type} {f : α → Api Interfaces D Unit} {g : α → List Stanza} {list : List α}
    (each : ∀ a ∈ list, Implements (Loaded disk tables) Calm (f a) (edit (· ++ g a))) :
    Implements (Loaded disk tables) Calm (list.forM f) (edit (· ++ list.flatMap g)) := by
  induction list with
  | nil =>
    refine Implements.congr (implements_pure ()) fun files => ?_
    simp [edit]
    rfl
  | cons a rest ih =>
    have both := (each a List.mem_cons_self).bind fun _ => ih fun b later => each b (List.mem_cons_of_mem a later)
    refine both.congr fun files => ?_
    rw [model_bind_of_ok _ rfl]
    simp [edit]

def Tree.stanzas (tree : Tree) : List Stanza :=
  tree.arrays.flatMap StanzaArray.stanzas

theorem implements_augPutXml {forest : Forest} (filled : ∀ tree ∈ forest, ∀ array ∈ tree.arrays, array.Filled) :
    Implements (Loaded disk tables) Calm (augPutXml augeas forest) (edit (· ++ forest.flatMap Tree.stanzas)) :=
  implements_appends fun tree listed => implements_appends fun array inside =>
    implements_augPutArray (filled tree listed array inside)

end Writing

section Reading

variable {files : Files Interfaces}

def members (interfaces : Interfaces) (label name : String) : List String :=
  (listed interfaces name label).flatMap dependents

def visited (interfaces : Interfaces) (name : String) : List String :=
  name :: (if bonded interfaces name then members interfaces "bond_slaves" name
    else if bridging interfaces name then
      (members interfaces "bridge_ports" name).flatMap fun port => port :: members interfaces "bond_slaves" port
    else [])

def readIntf (interfaces : Interfaces) (name : String) : List Element :=
  (configured interfaces name).map fun stanza => ⟨some name, shown stanza⟩

def readForest (interfaces : Interfaces) (name : String) : Forest :=
  [⟨networkInterfacesPath, (if hasAuto interfaces then [⟨"auto", [⟨none, [⟨none, name⟩]⟩]⟩] else []) ++
    [⟨"iface", (visited interfaces name).flatMap (readIntf interfaces)⟩]⟩]

theorem answers_copies {α : Type} {f : α → Api Interfaces D α} {list : List α}
    (each : ∀ a, Answers (Loaded disk tables) Calm files (f a) a) :
    Answers (Loaded disk tables) Calm files (list.mapM f) list := by
  have all := @answers_mapM _ _ _ _ _ (Loaded disk tables) Calm files f id list fun a _ => each a
  rwa [List.map_id] at all

theorem answers_matchedDeps (query : Interfaces → List String) :
    Answers (Loaded disk tables) Calm files (matchedDeps augeas query) ((query files.config).flatMap dependents) := by
  have copies : ∀ devs, Answers (Loaded disk tables) Calm files
      (copyDependents devs : Api Interfaces D (List String)) (dependents devs) := fun devs =>
    (answers_attempt .other).bind (answers_copies fun dev =>
      (answers_attempt .nomem).bind ((answers_attempt .nomem).bind (answers_pure dev)))
  have found : Answers (Loaded disk tables) Calm files
      (augMatch (fun files => query files.config) : Api Interfaces D (List String)) (query files.config) :=
    (implements_augMatch _).answers rfl
  exact answers_getAugeas.bind ((answers_attempt .nomem).bind (found.bind
    ((answers_mapM fun devs _ => copies devs).bind (answers_pure _))))

theorem answers_interfaceDeps (label name : String) :
    Answers (Loaded disk tables) Calm files (interfaceDeps augeas label name) (members files.config label name) :=
  answers_matchedDeps fun interfaces => listed interfaces name label

-- The result of this aug_get is not looked at.
theorem answers_unchecked {α : Type} {next : Api Interfaces D α} {a : α}
    (later : Answers (Loaded disk tables) Calm files next a) :
    Answers (Loaded disk tables) Calm files (do let _ ← flaky; next) a := by
  intro ncf loaded
  rcases faults : ncf.faults with _ | ⟨fails, rest⟩
  · have run : (flaky : Api Interfaces D Bool) ncf = .ok false ncf := by simp [flaky, faults]
    rw [bind_of_ok _ run]
    exact later ncf loaded
  · have run : (flaky : Api Interfaces D Bool) ncf = .ok fails { ncf with faults := rest } := by simp [flaky, faults]
    have loud : ¬ Calm ncf := by simp [Calm, faults]
    rw [bind_of_ok _ run]
    rcases later _ (loaded.faults rest) with ⟨_, failed⟩ | ⟨after, ran, still, _⟩
    · exact Or.inl ⟨loud, failed⟩
    · exact Or.inr ⟨after, ran, still, fun calm => absurd calm loud⟩

theorem answers_augGetXmlForIntf (name : String) :
    Answers (Loaded disk tables) Calm files (augGetXmlForIntf augeas name) (readIntf files.config name) := by
  have stanza : ∀ stanza, Answers (Loaded disk tables) Calm files (augGetStanza augeas name stanza)
      ⟨some name, shown stanza⟩ := fun stanza =>
    answers_unchecked ((answers_augFmtMatch fun _ => shown stanza).bind
      ((answers_copies fun node : Node => (answers_attempt .other).bind (answers_pure node)).bind
        (answers_pure (⟨some name, shown stanza⟩ : Element))))
  exact answers_getAugeas.bind ((answers_augFmtMatch fun files => configured files.config name).bind
    (answers_mapM fun found _ => stanza found))

theorem answers_augGetXmlForAll (names : List String) :
    Answers (Loaded disk tables) Calm files (augGetXmlForAll augeas names)
      (names.flatMap (readIntf files.config)) :=
  (answers_mapM fun name _ => answers_augGetXmlForIntf name).bind (answers_pure _)

theorem answers_augGetXmlForPort (port : String) :
    Answers (Loaded disk tables) Calm files (augGetXmlForPort augeas port)
      ((port :: members files.config "bond_slaves" port).flatMap (readIntf files.config)) :=
  (answers_augGetXmlForIntf port).bind ((answers_interfaceDeps "bond_slaves" port).bind
    ((answers_augGetXmlForAll _).bind (answers_pure _)))

theorem answers_augGetXmlForMembers (name : String) :
    Answers (Loaded disk tables) Calm files (augGetXmlForMembers augeas name)
      ((visited files.config name).tail.flatMap (readIntf files.config)) := by
  have ports := @answers_mapM _ _ _ _ _ (Loaded disk tables) Calm files (augGetXmlForPort augeas) _
    (members files.config "bridge_ports" name) fun port _ => answers_augGetXmlForPort port
  refine (answers_augFmtMatch fun files => bonded files.config name).bind ?_
  rw [visited, List.tail_cons]
  cases bonded files.config name with
  | true => exact (answers_interfaceDeps "bond_slaves" name).bind (answers_augGetXmlForAll _)
  | false =>
    refine (answers_augFmtMatch fun files => bridging files.config name).bind ?_
    cases bridging files.config name with
    | true =>
      simp only [Bool.false_eq_true, if_false, if_true, List.flatMap_assoc]
      refine (answers_interfaceDeps "bridge_ports" name).bind (ports.bind ?_)
      rw [← List.flatMap_def]
      exact answers_pure _
    | false => exact answers_pure _

theorem answers_augGetXml (name : String) :
    Answers (Loaded disk tables) Calm files (augGetXml augeas ⟨name⟩) (readForest files.config name) := by
  refine (answers_augFmtMatch fun files => hasAuto files.config).bind
    ((answers_augGetXmlForIntf name).bind ((answers_augGetXmlForMembers name).bind ?_))
  exact answers_pure _

end Reading

end Netcf.Debian
