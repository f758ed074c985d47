import Netcf.Linux.Outcome

set_option autoImplicit false

-- The aliases for the bonding module while nothing fails: adding an alias for a name that has none
-- puts one node between two of the old ones.
namespace Netcf.Linux

open Shared.Faulty Shared.Lists

variable {C D : Type}

section Tree

def addAliasTo (name : String) (modprobe : Modprobe) : Option Modprobe :=
  (if 0 < modprobe.countP lastAlias then insertAlias modprobe else some modprobe).map fun inserted =>
    (setLastAlias name inserted).getD inserted

def aliasBond (name : String) (modprobe : Modprobe) : Option Modprobe :=
  (if hasAlias name modprobe then some modprobe else addAliasTo name modprobe).bind (setModulename name)

def unaliasBond (name : String) (modprobe : Modprobe) : Option Modprobe :=
  some (removeAlias name modprobe)

def aliasing (adding : Bool) : String → Modprobe → Option Modprobe :=
  if adding then aliasBond else unaliasBond

end Tree

section Nodes

def allNodes (modprobe : Modprobe) : List ModprobeNode :=
  modprobe.flatMap (·.nodes)

def aliases (modprobe : Modprobe) : List ModprobeNode :=
  (allNodes modprobe).filter (·.isAlias)

theorem allNodes_split (front : Modprobe) (file : ModprobeFile) (back : Modprobe) :
    allNodes (front ++ file :: back) = allNodes front ++ (file.nodes ++ allNodes back) := by
  simp [allNodes]

theorem allNodes_map (f : List ModprobeNode → List ModprobeNode)
    (spreads : ∀ front back, f (front ++ back) = f front ++ f back) (empty : f [] = []) (modprobe : Modprobe) :
    allNodes (modprobe.map (onNodes f)) = f (allNodes modprobe) := by
  induction modprobe with
  | nil => exact empty.symm
  | cons file rest ih =>
    rw [List.map_cons, ← List.nil_append (onNodes f file :: _), allNodes_split, ih]
    change f file.nodes ++ f (allNodes rest) = _
    rw [← spreads]
    rfl

theorem hasAlias_iff (name : String) (modprobe : Modprobe) :
    hasAlias name modprobe = (allNodes modprobe).any (·.aliases name) := by
  simp [hasAlias, allNodes, List.any_flatMap]

theorem split_last {nodes : List ModprobeNode} (listed : nodes.any (·.isAlias)) :
    ∃ front last back, nodes = front ++ last :: back ∧ last.isAlias ∧ back.any (·.isAlias) = false := by
  induction nodes with
  | nil => simp at listed
  | cons node rest ih =>
    cases later : rest.any (·.isAlias) with
    | true =>
      obtain ⟨front, last, back, rfl, found, none_later⟩ := ih later
      exact ⟨node :: front, last, back, rfl, found, none_later⟩
    | false =>
      have here : node.isAlias = true := by simpa [later] using listed
      exact ⟨[], node, rest, rfl, here, later⟩

theorem insertAfterLast_split {front back : List ModprobeNode} {last : ModprobeNode} (found : last.isAlias)
    (none_later : back.any (·.isAlias) = false) :
    insertAfterLast (front ++ last :: back) = front ++ last :: .aliasOf none none :: back := by
  induction front with
  | nil => simp [insertAfterLast, found, none_later]
  | cons node rest ih => simp [insertAfterLast, found, ih]

theorem setLast_split {front back : List ModprobeNode} {value modulename : Option String} (name : String)
    (none_later : back.any (·.isAlias) = false) :
    setLast name (front ++ .aliasOf value modulename :: back) =
      front ++ .aliasOf (some name) modulename :: back := by
  have found : (ModprobeNode.aliasOf value modulename).isAlias = true := rfl
  induction front with
  | nil => simp [setLast, none_later]
  | cons node rest ih => cases node <;> simp [setLast, found, ih]

-- In the file with aliases the new one follows the last of them.
theorem setLast_insertAfterLast (name : String) {nodes : List ModprobeNode} (listed : nodes.any (·.isAlias)) :
    ∃ front back, nodes = front ++ back ∧
      setLast name (insertAfterLast nodes) = front ++ .aliasOf (some name) none :: back := by
  obtain ⟨front, last, back, rfl, found, none_later⟩ := split_last listed
  refine ⟨front ++ [last], back, by simp, ?_⟩
  rw [insertAfterLast_split found none_later,
    show front ++ last :: .aliasOf none none :: back = (front ++ [last]) ++ .aliasOf none none :: back by simp,
    setLast_split name none_later]

end Nodes

@[simp] theorem aliases_aliasOf (name : String) (value modulename : Option String) :
    (ModprobeNode.aliasOf value modulename).aliases name = decide (value = some name) := rfl

@[simp] theorem loads_aliasOf (value modulename : Option String) :
    (ModprobeNode.aliasOf value modulename).loads = modulename.isSome := rfl

section Adding

variable {name : String} {modprobe changed : Modprobe}

theorem addAliasTo_last (once : modprobe.countP lastAlias = 1) (added : addAliasTo name modprobe = some changed) :
    ∃ front back, allNodes modprobe = front ++ back ∧
      allNodes changed = front ++ .aliasOf (some name) none :: back := by
  obtain ⟨before, file, after, rfl, found, quiet, silent⟩ := split_of_countP once
  have insert : insertAlias (before ++ file :: after) = some (before ++ onNodes insertAfterLast file :: after) := by
    rw [insertAlias, if_pos once, alter_of_split found quiet silent]
  have listed : file.nodes.any (·.isAlias) = true := by
    simp only [lastAlias, Bool.and_eq_true] at found
    exact found.2
  obtain ⟨front, back, nodes, result⟩ := setLast_insertAfterLast name listed
  have still : lastAlias (onNodes insertAfterLast file) = true := by
    obtain ⟨first, last, later, split, isLast, none_later⟩ := split_last listed
    simp only [lastAlias, Bool.and_eq_true] at found ⊢
    refine ⟨found.1, ?_⟩
    rw [onNodes, split, insertAfterLast_split isLast none_later]
    simp [isLast]
  have again : (before ++ onNodes insertAfterLast file :: after).countP lastAlias = 1 := by
    simpa [List.countP_append, List.countP_cons, found, still] using once
  have set : setLastAlias name (before ++ onNodes insertAfterLast file :: after) =
      some (before ++ onNodes (setLast name) (onNodes insertAfterLast file) :: after) := by
    rw [setLastAlias, if_pos again, alter_of_split still quiet silent]
  have done : changed = before ++ onNodes (setLast name) (onNodes insertAfterLast file) :: after := by
    have positive : 0 < (before ++ file :: after).countP lastAlias := by omega
    rw [addAliasTo, if_pos positive, insert, Option.map_some, set, Option.getD_some] at added
    exact (Option.some.inj added).symm
  refine ⟨allNodes before ++ front, back ++ allNodes after, ?_, ?_⟩
  · simp [allNodes_split, nodes]
  · rw [done, allNodes_split]
    simp [onNodes, result]

theorem addAliasTo_first (none_yet : modprobe.countP lastAlias = 0)
    (added : addAliasTo name modprobe = some changed) :
    (1 < modprobe.countP netcfConf ∧ changed = modprobe) ∨
      ∃ front back, allNodes modprobe = front ++ back ∧
        allNodes changed = front ++ .aliasOf (some name) none :: back := by
  have plain : changed = (setLastAlias name modprobe).getD modprobe := by
    simpa [addAliasTo, none_yet, eq_comm] using added
  rw [plain, setLastAlias, if_neg (by omega), if_pos none_yet]
  by_cases missing : modprobe.countP netcfConf = 0
  · right
    refine ⟨allNodes modprobe, [], by simp, ?_⟩
    rw [if_pos missing]
    simp [allNodes]
  · by_cases once : modprobe.countP netcfConf = 1
    · right
      rw [if_neg missing, if_pos once]
      obtain ⟨before, file, after, rfl, found, quiet, silent⟩ := split_of_countP once
      refine ⟨allNodes before ++ file.nodes, allNodes after, by simp [allNodes_split], ?_⟩
      rw [Option.getD_some, alter_of_split found quiet silent, allNodes_split]
      simp [onNodes]
    · left
      rw [if_neg missing, if_neg once, Option.getD_none]
      exact ⟨by omega, rfl⟩

theorem setModulename_new {front back : List ModprobeNode} (nodes : allNodes modprobe =
      front ++ .aliasOf (some name) none :: back)
    (fresh : (front ++ back).any (·.aliases name) = false)
    (set : setModulename name modprobe = some changed) :
    allNodes changed = front ++ .aliasOf (some name) (some "bonding") :: back := by
  simp only [List.any_append, Bool.or_eq_false_iff, List.any_eq_false, Bool.not_eq_true] at fresh
  have others : ∀ list : List ModprobeNode, (∀ node ∈ list, node.aliases name = false) →
      list.countP (·.aliases name) = 0 ∧ list.countP (fun node => node.aliases name && node.loads) = 0 ∧
        list.map (·.load name) = list := by
    intro list quiet
    refine ⟨List.countP_eq_zero.mpr (by simpa using quiet),
      List.countP_eq_zero.mpr fun node member => by simp [quiet node member], ?_⟩
    rw [@List.map_congr_left _ _ _ _ id fun node member => ?_, List.map_id]
    have apart := quiet node member
    cases node with
    | directive label => rfl
    | aliasOf value modulename =>
      simp only [ModprobeNode.aliases, decide_eq_false_iff_not] at apart
      simp [ModprobeNode.load, apart]
  obtain ⟨front_none, front_quiet, front_same⟩ := others front fresh.1
  obtain ⟨back_none, back_quiet, back_same⟩ := others back fresh.2
  have loads : (allNodes modprobe).countP (fun node => node.aliases name && node.loads) = 0 := by
    rw [nodes, List.countP_append, List.countP_cons_of_neg (by simp), front_quiet, back_quiet]
  have names : (allNodes modprobe).countP (·.aliases name) = 1 := by
    rw [nodes, List.countP_append, List.countP_cons_of_pos (by simp), front_none, back_none]
  unfold setModulename at set
  simp only [← allNodes.eq_1 modprobe, loads, names] at set
  have done : changed = modprobe.map (onNodes (·.map (·.load name))) := by simpa [eq_comm] using set
  rw [done, allNodes_map _ (fun _ _ => List.map_append) rfl, nodes, List.map_append, List.map_cons, front_same,
    back_same]
  simp [ModprobeNode.load]

-- Setting the module name of a name whose aliases all load the bonding module changes nothing.
theorem setModulename_known (bonding : ∀ node ∈ allNodes modprobe, node.aliases name → isBondingAlias name node)
    (set : setModulename name modprobe = some changed) : allNodes changed = allNodes modprobe := by
  have loading : ∀ node ∈ allNodes modprobe, node.aliases name = (node.aliases name && node.loads) := by
    intro node member
    cases found : node.aliases name with
    | false => rfl
    | true =>
      have bonds := bonding node member found
      cases node with
      | directive label => simp [isBondingAlias] at bonds
      | aliasOf value modulename =>
        simp only [isBondingAlias, Bool.and_eq_true, decide_eq_true_eq] at bonds
        simp [ModprobeNode.loads, bonds.2]
  have counts : (allNodes modprobe).countP (·.aliases name) =
      (allNodes modprobe).countP (fun node => node.aliases name && node.loads) :=
    List.countP_congr fun node member => by rw [← loading node member]
  unfold setModulename at set
  simp only [← allNodes.eq_1 modprobe, counts] at set
  by_cases once : (allNodes modprobe).countP (fun node => node.aliases name && node.loads) = 1
  · rw [if_pos once] at set
    have done := (Option.some.inj set).symm
    rw [done, allNodes_map (alter _ _) (fun _ _ => List.map_append) rfl, alter,
      @List.map_congr_left _ _ _ _ id fun node member => ?_, List.map_id]
    split
    · rename_i found
      have bonds := bonding node member (by rw [loading node member]; exact found)
      cases node with
      | directive label => simp [isBondingAlias] at bonds
      | aliasOf value modulename =>
        simp only [isBondingAlias, Bool.and_eq_true, decide_eq_true_eq] at bonds
        simp [ModprobeNode.load, bonds]
    · rfl
  · rw [if_neg once, if_neg (by omega)] at set
    cases set

-- A name without an alias gets exactly one, for the bonding module.
theorem aliasBond_fresh (fresh : hasAlias name modprobe = false) (done : aliasBond name modprobe = some changed) :
    ∃ front back, allNodes modprobe = front ++ back ∧
      allNodes changed = front ++ .aliasOf (some name) (some "bonding") :: back := by
  simp only [aliasBond, fresh, Bool.false_eq_true, if_false, Option.bind_eq_some_iff] at done
  obtain ⟨added, adding, set⟩ := done
  rw [hasAlias_iff] at fresh
  have finish : ∀ front back, allNodes modprobe = front ++ back →
      allNodes added = front ++ .aliasOf (some name) none :: back →
      ∃ front back, allNodes modprobe = front ++ back ∧
        allNodes changed = front ++ .aliasOf (some name) (some "bonding") :: back := by
    intro front back old new
    exact ⟨front, back, old, setModulename_new new (old ▸ fresh) set⟩
  by_cases none_yet : modprobe.countP lastAlias = 0
  · rcases addAliasTo_first none_yet adding with ⟨_, rfl⟩ | ⟨front, back, old, new⟩
    · -- The aug_set was refused, so there is no alias to set the module name of.
      have nothing : (allNodes added).countP (·.aliases name) = 0 := by
        rw [List.countP_eq_zero]
        simpa using fresh
      have quiet : (allNodes added).countP (fun node => node.aliases name && node.loads) = 0 := by
        rw [List.countP_eq_zero] at nothing ⊢
        intro node member
        simp [nothing node member]
      unfold setModulename at set
      simp only [← allNodes.eq_1 added, nothing, quiet] at set
      simp at set
    · exact finish front back old new
  · by_cases once : modprobe.countP lastAlias = 1
    · obtain ⟨front, back, old, new⟩ := addAliasTo_last once adding
      exact finish front back old new
    · have refused : addAliasTo name modprobe = none := by
        simp [addAliasTo, insertAlias, once, Nat.pos_of_ne_zero none_yet]
      rw [refused] at adding
      cases adding

end Adding

section Undoing

-- While aliases for NAMES come and go, the other nodes stay as they are.
def among (names : List String) (node : ModprobeNode) : Bool :=
  names.any fun name => node.aliases name

structure Adjusted (names : List String) (others : List ModprobeNode) (modprobe : Modprobe) : Prop where
  rest : (allNodes modprobe).filter (fun node => !among names node) = others
  bonding : ∀ name ∈ names, ∀ node ∈ allNodes modprobe, node.aliases name → isBondingAlias name node

variable {names : List String} {others : List ModprobeNode} {modprobe changed : Modprobe}

theorem adjusted_start (fresh : ∀ name ∈ names, hasAlias name modprobe = false) :
    Adjusted names (allNodes modprobe) modprobe := by
  have quiet : ∀ name ∈ names, ∀ node ∈ allNodes modprobe, node.aliases name = false := by
    intro name listed
    have absent := fresh name listed
    rw [hasAlias_iff] at absent
    simpa using absent
  constructor
  · rw [List.filter_eq_self]
    intro node member
    simpa [among] using fun name listed => quiet name listed node member
  · intro name listed node member found
    rw [quiet name listed node member] at found
    cases found

theorem aliasBond_adjusted {name : String} (listed : name ∈ names) (adjusted : Adjusted names others modprobe)
    (done : aliasBond name modprobe = some changed) : Adjusted names others changed := by
  cases known : hasAlias name modprobe with
  | true =>
    have set : setModulename name modprobe = some changed := by simpa [aliasBond, known] using done
    have same := setModulename_known (adjusted.bonding name listed) set
    exact ⟨same ▸ adjusted.rest, same ▸ adjusted.bonding⟩
  | false =>
    obtain ⟨front, back, old, new⟩ := aliasBond_fresh known done
    have inside : among names (.aliasOf (some name) (some "bonding")) = true := by
      simpa [among] using listed
    constructor
    · rw [← adjusted.rest, old, new, List.filter_append, List.filter_append,
        List.filter_cons_of_neg (by simp [inside])]
    · intro other member node found named
      rw [new, List.mem_append, List.mem_cons] at found
      rcases found with before | rfl | after
      · exact adjusted.bonding other member node (old ▸ List.mem_append_left _ before) named
      · simpa [isBondingAlias] using named
      · exact adjusted.bonding other member node (old ▸ List.mem_append_right _ after) named

theorem allNodes_removeAlias (name : String) (modprobe : Modprobe) :
    allNodes (removeAlias name modprobe) = (allNodes modprobe).filter fun node => !isBondingAlias name node :=
  allNodes_map _ (fun _ _ => List.filter_append ..) rfl modprobe

def removeAliases (names : List String) (modprobe : Modprobe) : Modprobe :=
  names.foldl (fun modprobe name => removeAlias name modprobe) modprobe

theorem allNodes_removeAliases (names : List String) (modprobe : Modprobe) :
    allNodes (removeAliases names modprobe) =
      (allNodes modprobe).filter fun node => names.all fun name => !isBondingAlias name node := by
  induction names generalizing modprobe with
  | nil => simp [removeAliases]
  | cons name rest ih =>
    change allNodes (removeAliases rest (removeAlias name modprobe)) = _
    rw [ih, allNodes_removeAlias, List.filter_filter]
    simp [Bool.and_comm]

theorem isBondingAlias_aliases {name : String} {node : ModprobeNode} (bonds : isBondingAlias name node) :
    node.aliases name := by
  cases node with
  | directive label => simp [isBondingAlias] at bonds
  | aliasOf value modulename =>
    simp only [isBondingAlias, Bool.and_eq_true] at bonds
    exact bonds.1

theorem removeAliases_adjusted (adjusted : Adjusted names others modprobe) :
    allNodes (removeAliases names modprobe) = others := by
  rw [allNodes_removeAliases, ← adjusted.rest]
  apply List.filter_congr
  intro node member
  rw [Bool.eq_iff_iff]
  simp only [List.all_eq_true, Bool.not_eq_true', among, List.any_eq_false, Bool.not_eq_true]
  constructor
  · intro quiet name listed
    by_contra named
    rw [Bool.not_eq_false] at named
    have bonds := adjusted.bonding name listed node member named
    rw [quiet name listed] at bonds
    cases bonds
  · intro quiet name listed
    by_contra bonds
    rw [Bool.not_eq_false] at bonds
    have named := isBondingAlias_aliases bonds
    rw [quiet name listed] at named
    cases named

end Undoing

section Unambiguous

-- Every path that modprobed_alias_bond changes leads to at most one node.
structure Unambiguous (modprobe : Modprobe) : Prop where
  once : ∀ name, (allNodes modprobe).countP (·.aliases name) ≤ 1
  conf : modprobe.countP netcfConf ≤ 1

variable {modprobe : Modprobe}

theorem countP_netcfConf_map {f : ModprobeFile → ModprobeFile} (keeps : ∀ file, (f file).name = file.name)
    (modprobe : Modprobe) : (modprobe.map f).countP netcfConf = modprobe.countP netcfConf := by
  rw [List.countP_map]
  congr 1
  funext file
  simp [netcfConf, keeps]

theorem countP_netcfConf_alter (p : ModprobeFile → Bool) (f : List ModprobeNode → List ModprobeNode)
    (modprobe : Modprobe) : (alter p (onNodes f) modprobe).countP netcfConf = modprobe.countP netcfConf := by
  apply countP_netcfConf_map
  intro file
  cases p file <;> rfl

theorem countP_lastAlias_le (modprobe : Modprobe) : modprobe.countP lastAlias ≤ modprobe.countP netcfConf := by
  apply List.countP_mono_left
  intro file _ last
  simp only [lastAlias, Bool.and_eq_true] at last
  exact last.1

theorem setLastAlias_conf {name : String} (conf : modprobe.countP netcfConf ≤ 1) :
    ((setLastAlias name modprobe).getD modprobe).countP netcfConf ≤ 1 := by
  unfold setLastAlias
  split
  · rw [Option.getD_some, countP_netcfConf_alter]
    exact conf
  · split
    · split
      · rename_i missing
        rw [Option.getD_some, List.countP_append, missing]
        simp [netcfConf]
      · split
        · rw [Option.getD_some, countP_netcfConf_alter]
          exact conf
        · exact conf
    · exact conf

theorem addAliasTo_unambiguous {name : String} (unambiguous : Unambiguous modprobe) :
    ∃ added, addAliasTo name modprobe = some added ∧ added.countP netcfConf ≤ 1 := by
  have few := (countP_lastAlias_le modprobe).trans unambiguous.conf
  by_cases none_yet : modprobe.countP lastAlias = 0
  · refine ⟨(setLastAlias name modprobe).getD modprobe, by simp [addAliasTo, none_yet], ?_⟩
    exact setLastAlias_conf unambiguous.conf
  · have once : modprobe.countP lastAlias = 1 := by omega
    have inserted : insertAlias modprobe = some (alter lastAlias (onNodes insertAfterLast) modprobe) := by
      rw [insertAlias, if_pos once]
    have conf : (alter lastAlias (onNodes insertAfterLast) modprobe).countP netcfConf ≤ 1 := by
      rw [countP_netcfConf_alter]
      exact unambiguous.conf
    refine ⟨_, ?_, @setLastAlias_conf _ name conf⟩
    rw [addAliasTo, if_pos (by omega), inserted, Option.map_some]

theorem aliases_load (name other : String) (node : ModprobeNode) :
    (node.load name).aliases other = node.aliases other := by
  cases node with
  | directive label => rfl
  | aliasOf value modulename =>
    by_cases same : value = some name <;> simp [ModprobeNode.load, same]

-- The module name can be set where the name has one alias, and no alias comes or goes.
theorem setModulename_once {name : String} (once : (allNodes modprobe).countP (·.aliases name) = 1) :
    ∃ changed, setModulename name modprobe = some changed ∧
      (∀ other, (allNodes changed).countP (·.aliases other) = (allNodes modprobe).countP (·.aliases other)) ∧
      changed.countP netcfConf = modprobe.countP netcfConf := by
  have few : (allNodes modprobe).countP (fun node => node.aliases name && node.loads) ≤ 1 := by
    rw [← once]
    apply List.countP_mono_left
    intro node _ both
    exact (Bool.and_eq_true _ _ ▸ both).1
  have counts : ∀ f : ModprobeNode → ModprobeNode, (∀ other node, (f node).aliases other = node.aliases other) →
      ∀ other, (allNodes (modprobe.map (onNodes (·.map f)))).countP (·.aliases other) =
        (allNodes modprobe).countP (·.aliases other) := by
    intro f keeps other
    rw [allNodes_map _ (fun _ _ => List.map_append) rfl, List.countP_map]
    congr 1
    funext node
    exact keeps other node
  unfold setModulename
  simp only [← allNodes.eq_1 modprobe]
  by_cases loading : (allNodes modprobe).countP (fun node => node.aliases name && node.loads) = 1
  · rw [if_pos loading]
    refine ⟨_, rfl, counts _ ?_, @countP_netcfConf_map (onNodes _) (fun _ => rfl) _⟩
    intro other node
    split
    · exact aliases_load name other node
    · rfl
  · rw [if_neg loading, if_pos ⟨by omega, once⟩]
    exact ⟨_, rfl, counts _ fun other node => aliases_load name other node,
      @countP_netcfConf_map (onNodes _) (fun _ => rfl) _⟩

theorem aliasBond_unambiguous (unambiguous : Unambiguous modprobe) (name : String) :
    ∃ changed, aliasBond name modprobe = some changed ∧ Unambiguous changed := by
  cases known : hasAlias name modprobe with
  | true =>
    have once : (allNodes modprobe).countP (·.aliases name) = 1 := by
      have most := unambiguous.once name
      have least : 0 < (allNodes modprobe).countP (·.aliases name) := by
        rw [List.countP_pos_iff]
        rw [hasAlias_iff, List.any_eq_true] at known
        exact known
      omega
    obtain ⟨changed, set, same, conf⟩ := setModulename_once once
    refine ⟨changed, by simpa [aliasBond, known] using set, ?_, conf ▸ unambiguous.conf⟩
    intro other
    rw [same]
    exact unambiguous.once other
  | false =>
    obtain ⟨added, adding, conf⟩ := @addAliasTo_unambiguous _ name unambiguous
    have split : ∃ front back, allNodes modprobe = front ++ back ∧
        allNodes added = front ++ .aliasOf (some name) none :: back := by
      have few := (countP_lastAlias_le modprobe).trans unambiguous.conf
      by_cases none_yet : modprobe.countP lastAlias = 0
      · rcases addAliasTo_first none_yet adding with ⟨many, _⟩ | found
        · exact absurd unambiguous.conf (by omega)
        · exact found
      · exact addAliasTo_last (by omega) adding
    obtain ⟨front, back, old, new⟩ := split
    have quiet : (allNodes modprobe).countP (·.aliases name) = 0 := by
      rw [List.countP_eq_zero]
      rw [hasAlias_iff] at known
      simpa using known
    have counts : ∀ other, (allNodes added).countP (·.aliases other) =
        (allNodes modprobe).countP (·.aliases other) + if name = other then 1 else 0 := by
      intro other
      rw [old, new, List.countP_append, List.countP_append, List.countP_cons]
      simp only [aliases_aliasOf, Option.some.injEq, decide_eq_true_eq]
      omega
    have once : (allNodes added).countP (·.aliases name) = 1 := by rw [counts, quiet, if_pos rfl]
    obtain ⟨changed, set, same, still⟩ := setModulename_once once
    refine ⟨changed, by simp [aliasBond, known, adding, set], ?_, still ▸ conf⟩
    intro other
    rw [same, counts]
    by_cases here : name = other
    · subst here
      rw [quiet, if_pos rfl]
    · rw [if_neg here]
      exact unambiguous.once other

end Unambiguous

section Bonding

-- There is an alias NAME bonding.
def bondingAlias (name : String) (modprobe : Modprobe) : Bool :=
  (allNodes modprobe).any (isBondingAlias name)

-- Every alias is one for the bonding module.
def OnlyBonding (modprobe : Modprobe) : Prop :=
  ∀ node ∈ allNodes modprobe, ∀ name, node.aliases name = true → isBondingAlias name node = true

variable {name : String} {modprobe changed : Modprobe}

theorem isBondingAlias_unique {other : String} {node : ModprobeNode} (here : isBondingAlias name node = true)
    (there : isBondingAlias other node = true) : name = other := by
  cases node with
  | directive label => simp [isBondingAlias] at here
  | aliasOf value modulename =>
    simp only [isBondingAlias, Bool.and_eq_true, decide_eq_true_eq] at here there
    exact Option.some.inj (here.1.symm.trans there.1)

theorem hasAlias_bonding (only : OnlyBonding modprobe) (name : String) :
    hasAlias name modprobe = bondingAlias name modprobe := by
  rw [hasAlias_iff, bondingAlias, Bool.eq_iff_iff, List.any_eq_true, List.any_eq_true]
  constructor
  · rintro ⟨node, member, found⟩
    exact ⟨node, member, only node member name found⟩
  · rintro ⟨node, member, bonds⟩
    exact ⟨node, member, isBondingAlias_aliases bonds⟩

theorem aliasBond_bonding (only : OnlyBonding modprobe) (done : aliasBond name modprobe = some changed) :
    OnlyBonding changed ∧
      ∀ other, bondingAlias other changed = true ↔ other = name ∨ bondingAlias other modprobe = true := by
  cases known : hasAlias name modprobe with
  | true =>
    have set : setModulename name modprobe = some changed := by simpa [aliasBond, known] using done
    have same := setModulename_known (fun node member => only node member name) set
    refine ⟨fun node member => only node (same ▸ member), fun other => ?_⟩
    have here : bondingAlias name modprobe = true := hasAlias_bonding only name ▸ known
    rw [bondingAlias, same, ← bondingAlias]
    constructor
    · exact Or.inr
    · rintro (rfl | listed)
      · exact here
      · exact listed
  | false =>
    obtain ⟨front, back, old, new⟩ := aliasBond_fresh known done
    constructor
    · intro node member
      rw [new, List.mem_append, List.mem_cons] at member
      rcases member with before | rfl | after
      · exact only node (old ▸ List.mem_append_left _ before)
      · intro other found
        simpa [isBondingAlias] using found
      · exact only node (old ▸ List.mem_append_right _ after)
    · intro other
      simp only [bondingAlias, old, new, List.any_append, List.any_cons, Bool.or_eq_true, isBondingAlias,
        Bool.and_eq_true, decide_eq_true_eq, Option.some.injEq]
      tauto

theorem removeAliases_bonding (only : OnlyBonding modprobe) (names : List String) :
    OnlyBonding (removeAliases names modprobe) ∧
      ∀ other, bondingAlias other (removeAliases names modprobe) = true ↔
        other ∉ names ∧ bondingAlias other modprobe = true := by
  constructor
  · intro node member
    rw [allNodes_removeAliases] at member
    exact only node (List.mem_of_mem_filter member)
  · intro other
    simp only [bondingAlias, allNodes_removeAliases, List.any_eq_true, List.mem_filter, List.all_eq_true,
      Bool.not_eq_true']
    constructor
    · rintro ⟨node, ⟨member, quiet⟩, bonds⟩
      refine ⟨fun listed => ?_, node, member, bonds⟩
      rw [quiet other listed] at bonds
      cases bonds
    · rintro ⟨apart, node, member, bonds⟩
      refine ⟨node, ⟨member, fun name listed => ?_⟩, bonds⟩
      by_contra clash
      rw [Bool.not_eq_false] at clash
      exact apart (isBondingAlias_unique clash bonds ▸ listed)

end Bonding

section Programs

variable {disk : D} {tables : List (Option Entries)}

def Quiet (disk : D) (tables : List (Option Entries)) (ncf : Ncf C D) (files : Files C) : Prop :=
  Loaded disk tables ncf files ∧ Calm ncf

theorem toQuiet {α : Type} {program : Api C D α} {model : StateT (Files C) (Except Errcode) α}
    (implements : Implements (Loaded disk tables) Calm program model) :
    Implements (Quiet disk tables) Calm program model :=
  implements.quiet

theorem implements_ignoring_augMatch {α : Type} (fallback : α) (query : Files C → α) :
    Implements (Quiet disk tables) Calm (ignoring fallback (augMatch query) : Api C D α)
      (ask query) := by
  intro ncf files quiet
  obtain ⟨after, ran, loaded, calm⟩ := (implements_augMatch query).runs quiet.1 quiet.2 rfl
  right
  refine ⟨after, ?_, ⟨loaded, calm⟩, fun _ => calm⟩
  unfold ignoring
  rw [ran]

-- While nothing fails a refused aug_set leaves the tree as it is.
theorem augUpdate_refused {code : Errcode} {f : Files C → Option (Files C)} {ncf : Ncf C D} {files : Files C}
    (quiet : Quiet disk tables ncf files) (refused : f files = none) :
    augUpdate code f ncf = .error code ncf := by
  unfold augUpdate
  rw [bind_of_ok _ (attempt_calm code quiet.2), bind_of_ok _ (tree_loaded quiet.1), refused]
  rfl

theorem implements_ignoring_augUpdate (code : Errcode) (f : Files C → Option (Files C)) :
    Implements (Quiet disk tables) Calm (ignoring () (augUpdate code f) : Api C D Unit)
      (modify fun files => (f files).getD files) := by
  intro ncf files quiet
  right
  unfold ignoring
  cases result : f files with
  | none =>
    rw [augUpdate_refused quiet result]
    refine ⟨ncf, rfl, ?_, id⟩
    simpa [result] using quiet
  | some changed =>
    obtain ⟨after, ran, loaded, calm⟩ := (implements_augUpdate code f).runs quiet.1 quiet.2 (change_some result)
    rw [ran]
    refine ⟨after, rfl, ?_, fun _ => calm⟩
    simp only [result, Option.getD_some]
    exact ⟨loaded, calm⟩

theorem onModprobe_getD (f : Modprobe → Option Modprobe) (files : Files C) :
    (onModprobe f files).getD files = { files with modprobe := (f files.modprobe).getD files.modprobe } := by
  cases result : f files.modprobe <;> simp [onModprobe, result]

theorem implements_addAlias (name : String) :
    Implements (Quiet disk tables) Calm (addAlias name : Api C D Unit)
      (change .other (onModprobe (addAliasTo name))) := by
  have parts := (toQuiet (implements_attempt .nomem)).bind fun _ =>
    (implements_ignoring_augMatch false
      (fun files : Files C => decide (0 < files.modprobe.countP lastAlias))).bind fun found =>
    (implements_onlyIf found (toQuiet (implements_augUpdate .other (onModprobe insertAlias)))).bind fun _ =>
    (implements_ignoring_augUpdate .other (onModprobe (setLastAlias name)) :
      Implements (Quiet disk tables) Calm _ _)
  refine parts.congr fun files => ?_
  rw [model_bind_of_ok _ rfl, model_bind_of_ok _ rfl]
  by_cases positive : 0 < files.modprobe.countP lastAlias
  · rw [if_pos (by simpa using positive)]
    cases inserted : insertAlias files.modprobe with
    | none =>
      rw [change_none (by simp [onModprobe, addAliasTo, positive, inserted]),
        model_bind_of_error _ (change_none (by simp [onModprobe, inserted]))]
    | some modprobe =>
      rw [change_some (by simp [onModprobe, addAliasTo, positive, inserted]; rfl),
        model_bind_of_ok _ (change_some (by simp [onModprobe, inserted]; rfl))]
      exact congrArg (fun files => Except.ok ((), files))
        (onModprobe_getD (setLastAlias name) { files with modprobe := modprobe }).symm
  · rw [if_neg (by simpa using positive), change_some (by simp [onModprobe, addAliasTo, positive]; rfl),
      model_bind_of_ok _ rfl]
    exact congrArg (fun files => Except.ok ((), files)) (onModprobe_getD (setLastAlias name) _).symm

variable [EmptyCollection C] {augeas : Augeas C D}

theorem implements_augFmtMatch {α : Type} (query : Files C → α) :
    Implements (Loaded disk tables) Calm (augFmtMatch augeas query) (ask query) :=
  implements_getAugeas.bind fun _ => (implements_attempt _).bind fun _ => implements_augMatch query

theorem implements_modprobedAliasBond (name : String) :
    Implements (Quiet disk tables) Calm (modprobedAliasBond augeas name)
      (change .other (onModprobe (aliasBond name))) := by
  have parts := (toQuiet (@implements_getAugeas _ _ _ augeas disk tables)).bind fun _ =>
    (toQuiet (@implements_augFmtMatch _ _ disk tables _ augeas _ fun files => hasAlias name files.modprobe)).bind
      fun known => (implements_onlyIf (!known) (implements_addAlias name)).bind fun _ =>
    (toQuiet (implements_attempt .nomem)).bind fun _ =>
    toQuiet (implements_augUpdate .other (onModprobe (setModulename name)))
  refine parts.congr fun files => ?_
  rw [model_bind_of_ok _ rfl, model_bind_of_ok _ rfl]
  cases known : hasAlias name files.modprobe with
  | true =>
    rw [if_neg (by simp [known]), model_bind_of_ok _ rfl, model_bind_of_ok _ rfl]
    simp [change, onModprobe, aliasBond, known]
  | false =>
    rw [if_pos (by simp [known])]
    cases added : addAliasTo name files.modprobe with
    | none =>
      rw [model_bind_of_error _ (change_none (by simp [onModprobe, added])),
        change_none (by simp [onModprobe, aliasBond, known, added])]
    | some modprobe =>
      rw [model_bind_of_ok _ (change_some (by simp [onModprobe, added]; rfl)), model_bind_of_ok _ rfl]
      simp [change, onModprobe, aliasBond, known, added]

theorem implements_setup (adding : Bool) (name : String) :
    Implements (Quiet disk tables) Calm (setup augeas adding name)
      (change .other (onModprobe (aliasing adding name))) := by
  cases adding with
  | true => exact implements_modprobedAliasBond name
  | false =>
    exact toQuiet (implements_getAugeas.bind fun _ => (implements_attempt _).bind fun _ =>
      implements_augUpdate .other (onModprobe (unaliasBond name)))

end Programs

end Netcf.Linux
