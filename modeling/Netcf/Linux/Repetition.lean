import Netcf.Linux.Programs

set_option autoImplicit false

-- Setting up a bond a second time changes nothing.
namespace Netcf.Linux

open Shared.Faulty Shared.Lists

variable {C : Type} {name : String} {modprobe changed : Modprobe}

def loading (name : String) (node : ModprobeNode) : Bool :=
  node.aliases name && node.loads

-- The path */alias[ . = NAME]/modulename leads to one node, and the module is the bonding module.
structure Settled (name : String) (modprobe : Modprobe) : Prop where
  once : (allNodes modprobe).countP (loading name) = 1
  bonding : ∀ node ∈ allNodes modprobe, loading name node = true → isBondingAlias name node = true

theorem load_bonding {node : ModprobeNode} (bonds : isBondingAlias name node = true) : node.load name = node := by
  cases node with
  | directive label => rfl
  | aliasOf value modulename =>
    simp only [isBondingAlias, Bool.and_eq_true, decide_eq_true_eq] at bonds
    rw [ModprobeNode.load, if_pos bonds.1, bonds.2]

theorem loading_load {node : ModprobeNode} : loading name (node.load name) = node.aliases name := by
  cases node with
  | directive label => rfl
  | aliasOf value modulename =>
    by_cases same : value = some name <;> simp [loading, ModprobeNode.load, same]

theorem bonding_load {node : ModprobeNode} (named : node.aliases name = true) :
    isBondingAlias name (node.load name) = true := by
  cases node with
  | directive label => cases named
  | aliasOf value modulename =>
    have same : value = some name := of_decide_eq_true named
    simp [isBondingAlias, ModprobeNode.load, same]

-- What setModulename does to the nodes, whichever of its two branches is taken.
theorem setModulename_cases (set : setModulename name modprobe = some changed) :
    ((allNodes modprobe).countP (loading name) = 1 ∧
      allNodes changed = alter (loading name) (·.load name) (allNodes modprobe)) ∨
    ((allNodes modprobe).countP (·.aliases name) = 1 ∧ allNodes changed = (allNodes modprobe).map (·.load name)) := by
  unfold setModulename at set
  simp only [← allNodes.eq_1 modprobe] at set
  split at set
  · rename_i once
    left
    refine ⟨once, ?_⟩
    rw [← Option.some.inj set]
    exact allNodes_map (alter _ _) (fun _ _ => List.map_append) rfl modprobe
  · split at set
    · rename_i both
      right
      refine ⟨both.2, ?_⟩
      rw [← Option.some.inj set]
      exact allNodes_map _ (fun _ _ => List.map_append) rfl modprobe
    · cases set

theorem setModulename_settles (set : setModulename name modprobe = some changed) : Settled name changed := by
  rcases setModulename_cases set with ⟨once, nodes⟩ | ⟨once, nodes⟩
  · have after : ∀ node, loading name (if loading name node = true then node.load name else node) =
        loading name node := by
      intro node
      by_cases loads : loading name node = true
      · have named : node.aliases name = true := (Bool.and_eq_true _ _ ▸ loads).1
        rw [if_pos loads, loading_load, named, loads]
      · rw [if_neg loads]
    constructor
    · rw [nodes, alter, List.countP_map, ← once]
      congr 1
      funext node
      exact after node
    · intro node member loads
      rw [nodes, alter] at member
      obtain ⟨old, _, rfl⟩ := List.mem_map.mp member
      rw [after] at loads
      rw [if_pos loads]
      exact bonding_load (Bool.and_eq_true _ _ ▸ loads).1
  · constructor
    · rw [nodes, List.countP_map, ← once]
      congr 1
      funext node
      exact loading_load
    · intro node member loads
      rw [nodes] at member
      obtain ⟨old, _, rfl⟩ := List.mem_map.mp member
      rw [loading_load] at loads
      exact bonding_load loads

theorem aliasBond_settles (done : aliasBond name modprobe = some changed) : Settled name changed := by
  obtain ⟨_, _, set⟩ := Option.bind_eq_some_iff.mp done
  exact setModulename_settles set

theorem aliasBond_settled (settled : Settled name modprobe) : aliasBond name modprobe = some modprobe := by
  have known : hasAlias name modprobe = true := by
    have some_loads : 0 < (allNodes modprobe).countP (loading name) := by
      have once := settled.once
      omega
    obtain ⟨node, member, loads⟩ := List.countP_pos_iff.mp some_loads
    rw [hasAlias_iff, List.any_eq_true]
    exact ⟨node, member, (Bool.and_eq_true _ _ ▸ loads).1⟩
  have same : modprobe.map (onNodes (alter (loading name) (·.load name))) = modprobe := by
    have each : ∀ file ∈ modprobe, onNodes (alter (loading name) (·.load name)) file = id file := by
      intro file listed
      have nodes : alter (loading name) (·.load name) file.nodes = file.nodes := by
        rw [alter, @List.map_congr_left _ _ _ _ id fun node member => ?_, List.map_id]
        split
        · rename_i loads
          exact load_bonding (settled.bonding node (List.mem_flatMap.mpr ⟨file, listed, member⟩) loads)
        · rfl
      rw [onNodes, nodes]
      rfl
    rw [List.map_congr_left each, List.map_id]
  have set : setModulename name modprobe = some modprobe := by
    unfold setModulename
    simp only [← allNodes.eq_1 modprobe]
    exact (if_pos settled.once).trans (congrArg some same)
  simp [aliasBond, known, set]

section Others

variable {other : String}

theorem settled_of_same (settled : Settled other modprobe)
    (same : (allNodes changed).filter (·.aliases other) = (allNodes modprobe).filter (·.aliases other)) :
    Settled other changed := by
  have parts : ∀ nodes : List ModprobeNode,
      nodes.countP (loading other) = (nodes.filter (·.aliases other)).countP (·.loads) := by
    intro nodes
    rw [List.countP_filter]
    congr 1
    funext node
    exact Bool.and_comm _ _
  constructor
  · rw [parts, same, ← parts]
    exact settled.once
  · intro node member loads
    have named : node.aliases other = true := (Bool.and_eq_true _ _ ▸ loads).1
    have found : node ∈ (allNodes changed).filter (·.aliases other) := List.mem_filter.mpr ⟨member, named⟩
    rw [same] at found
    exact settled.bonding node (List.mem_of_mem_filter found) loads

theorem filter_map_fixed {f : ModprobeNode → ModprobeNode} (nodes : List ModprobeNode)
    (keeps : ∀ node, (f node).aliases other = node.aliases other)
    (fixed : ∀ node, node.aliases other = true → f node = node) :
    (nodes.map f).filter (·.aliases other) = nodes.filter (·.aliases other) := by
  have named : (fun node : ModprobeNode => node.aliases other) ∘ f = fun node => node.aliases other :=
    funext fun node => keeps node
  rw [List.filter_map, named, @List.map_congr_left _ _ _ _ id fun node member => ?_, List.map_id]
  exact fixed node (List.of_mem_filter member)

theorem load_other (apart : other ≠ name) {node : ModprobeNode} (named : node.aliases other = true) :
    node.load name = node := by
  cases node with
  | directive label => rfl
  | aliasOf value modulename =>
    have same : value = some other := of_decide_eq_true named
    simp [ModprobeNode.load, same, apart]

theorem setModulename_others (apart : other ≠ name) (set : setModulename name modprobe = some changed) :
    (allNodes changed).filter (·.aliases other) = (allNodes modprobe).filter (·.aliases other) := by
  rcases setModulename_cases set with ⟨_, nodes⟩ | ⟨_, nodes⟩
  · rw [nodes, alter]
    apply filter_map_fixed
    · intro node
      split
      · exact aliases_load name other node
      · rfl
    · intro node named
      split
      · exact load_other apart named
      · rfl
  · rw [nodes]
    exact filter_map_fixed _ (aliases_load name other) fun node => load_other apart

theorem addAliasTo_others (apart : other ≠ name) (added : addAliasTo name modprobe = some changed) :
    (allNodes changed).filter (·.aliases other) = (allNodes modprobe).filter (·.aliases other) := by
  have between : ∀ front back, allNodes modprobe = front ++ back →
      allNodes changed = front ++ .aliasOf (some name) none :: back →
      (allNodes changed).filter (·.aliases other) = (allNodes modprobe).filter (·.aliases other) := by
    intro front back old new
    rw [old, new, List.filter_append, List.filter_append, List.filter_cons_of_neg (by simpa using apart.symm)]
  by_cases none_yet : modprobe.countP lastAlias = 0
  · rcases addAliasTo_first none_yet added with ⟨_, rfl⟩ | ⟨front, back, old, new⟩
    · rfl
    · exact between front back old new
  · by_cases once : modprobe.countP lastAlias = 1
    · obtain ⟨front, back, old, new⟩ := addAliasTo_last once added
      exact between front back old new
    · have refused : addAliasTo name modprobe = none := by
        simp [addAliasTo, insertAlias, once, Nat.pos_of_ne_zero none_yet]
      rw [refused] at added
      cases added

theorem aliasBond_keeps (settled : Settled other modprobe) (done : aliasBond name modprobe = some changed) :
    Settled other changed := by
  by_cases apart : other = name
  · subst apart
    exact aliasBond_settles done
  · obtain ⟨middle, first, set⟩ := Option.bind_eq_some_iff.mp done
    have same : (allNodes middle).filter (·.aliases other) = (allNodes modprobe).filter (·.aliases other) := by
      split at first
      · rw [Option.some.inj first]
      · exact addAliasTo_others apart first
    exact settled_of_same (settled_of_same settled same) (setModulename_others apart set)

end Others

section Names

variable {names : List String} {files after : Files C} {u : Unit}

theorem alias_settled (settled : ∀ name ∈ names, Settled name files.modprobe) :
    names.forM (setupModel true) files = .ok ((), files) := by
  induction names with
  | nil => rfl
  | cons name rest ih =>
    have first : setupModel true name files = .ok ((), files) := by
      apply change_some
      simp [onModprobe, aliasing, aliasBond_settled (settled name List.mem_cons_self)]
    rw [model_forM_cons, model_bind_of_ok _ first]
    exact ih fun other later => settled other (List.mem_cons_of_mem name later)

theorem alias_settles (run : names.forM (setupModel true) files = .ok (u, after)) :
    (∀ name ∈ names, Settled name after.modprobe) ∧
      ∀ other, Settled other files.modprobe → Settled other after.modprobe := by
  induction names generalizing files with
  | nil =>
    cases run
    exact ⟨nofun, fun _ settled => settled⟩
  | cons name rest ih =>
    obtain ⟨_, middle, first, others⟩ := model_bind_ok run
    obtain ⟨modprobe, aliased, rfl⟩ := Option.map_eq_some_iff.mp (change_ok first)
    obtain ⟨settles, keeps⟩ := ih others
    constructor
    · intro other listed
      rcases List.mem_cons.mp listed with rfl | later
      · exact keeps other (aliasBond_settles aliased)
      · exact settles other later
    · intro other settled
      exact keeps other (aliasBond_keeps settled aliased)

theorem alias_again (run : names.forM (setupModel true) files = .ok (u, after)) :
    names.forM (setupModel true) after = .ok ((), after) :=
  alias_settled (alias_settles run).1

theorem setup_config (run : names.forM (setupModel true) files = .ok (u, after)) : after.config = files.config := by
  induction names generalizing files with
  | nil =>
    cases run
    rfl
  | cons name rest ih =>
    obtain ⟨_, middle, first, others⟩ := model_bind_ok run
    rw [ih others, setupModel_config first]

end Names

end Netcf.Linux
