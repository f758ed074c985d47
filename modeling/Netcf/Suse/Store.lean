import Netcf.RedHat.Replace
import Netcf.Suse.Driver
import Netcf.Suse.RoundTrip

set_option autoImplicit false

-- What drv_define does to the ifcfg files of /etc/sysconfig/network.
namespace Netcf.Suse

open Shared.Faulty Shared.Lists Linux Schema Stylesheet
open RedHat (Node Tree Forest Script Scripts assign_name labelled Addresses rootDevice memberDevices devices)

section Store

-- The directory as a function from the names of files.
def stored (files : Files Network) (name : String) : Option Script :=
  files.config.files.files.find? (·.name = name)

theorem find_remove (scripts : Scripts) (name : String) :
    (fun other => (scripts.remove (·.name = name)).files.find? (·.name = other)) =
      Function.update (fun other => scripts.files.find? (·.name = other)) name none := by
  funext other
  rw [Scripts.remove, List.find?_filter]
  by_cases same : other = name
  · rw [same, Function.update_self, List.find?_eq_none]
    intro script _
    by_cases here : script.name = name <;> simp [here]
  · rw [Function.update_of_ne same]
    congr 1
    funext script
    by_cases here : script.name = other <;> simp [here, same]

theorem find_set {scripts changed : Scripts} {name label value : String}
    (result : scripts.set name label value = some changed) :
    (fun other => changed.files.find? (·.name = other)) =
      Function.update (fun other => scripts.files.find? (·.name = other)) name
        (some (((scripts.files.find? (·.name = name)).getD ⟨name, []⟩).assign label value)) := by
  funext other
  unfold Scripts.set at result
  split at result
  next absent =>
    cases result
    have missing : scripts.files.find? (·.name = name) = none := by
      rw [List.find?_eq_none]
      intro script member same
      exact absent (of_decide_eq_true same ▸ List.mem_map_of_mem member)
    rw [List.find?_append]
    by_cases same : other = name
    · rw [same, Function.update_self, missing]
      simp [Script.assign]
    · rw [Function.update_of_ne same]
      simp [Ne.symm same]
  next present =>
    split at result
    · cases result
      rw [find_alter (assign_name label value)]
      by_cases same : other = name
      · rw [same, Function.update_self, if_pos rfl]
        obtain ⟨script, member, named⟩ := List.mem_map.mp (not_not.mp present)
        have listed : (scripts.files.find? (·.name = name)).isSome := by
          rw [List.find?_isSome]
          exact ⟨script, member, decide_eq_true named⟩
        obtain ⟨found, here⟩ := Option.isSome_iff_exists.mp listed
        rw [here]
        rfl
      · rw [Function.update_of_ne same, if_neg same]
    · cases result

end Store

section Effects

variable {D : Type} {augeas : Augeas Network D} {host : Host} {disk : D} {tables : List (Option Entries)}

theorem scriptLabel_ifcfgPath {device : String} (plain : '/' ∉ device.toList) :
    Host.scriptLabel (ifcfgPath device) = some ("ifcfg-" ++ device) := by
  have split : ifcfgPath device = networkPath ++ "/" ++ ("ifcfg-" ++ device) := by
    simp only [ifcfgPath, String.append_assoc]
    rfl
  have rest : (ifcfgPath device).toList.drop (networkPath.length + 1) = ("ifcfg-" ++ device).toList := by
    rw [split, String.toList_append]
    apply List.drop_left'
    decide
  simp only [Host.scriptLabel, rest, String.ofList_toList, ← split]
  rw [if_pos ⟨trivial, by simpa [String.toList_append] using plain, by simp [String.toList_append],
    by simp [String.toList_append], by simp [String.toList_append]⟩]

-- aug_set of one more node of a file.
def assigned (file : String) (old : Option Script) (node : Node) : Option Script :=
  some ((old.getD ⟨file, []⟩).assign node.label node.value)

def written (tree : Tree) : List Node :=
  tree.nodes.filter fun node => decide (node.label ∉ remembered)

def content (tree : Tree) : Option Script :=
  (written tree).foldl (assigned tree.file) none

def refill (tree : Tree) (store : String → Option Script) : String → Option Script :=
  Function.update store tree.file (content tree)

theorem fold_assigned (file : String) (nodes : List Node) (store : String → Option Script) (old : Option Script) :
    nodes.foldl (fun store node => Function.update store file (assigned file (store file) node))
      (Function.update store file old) = Function.update store file (nodes.foldl (assigned file) old) := by
  induction nodes generalizing old with
  | nil => rfl
  | cons node rest ih =>
    rw [List.foldl_cons, List.foldl_cons, Function.update_self, Function.update_idem]
    exact ih (assigned file old node)

theorem effect_onFiles {f : Scripts → Option Scripts} {g : (String → Option Script) → String → Option Script}
    (code : Errcode) (does : ∀ scripts changed, f scripts = some changed →
      (fun name => changed.files.find? (·.name = name)) = g fun name => scripts.files.find? (·.name = name)) :
    Effect (Viewed disk tables stored) (augUpdate code (onFiles f) : Api Network D Unit) g := by
  apply effect_augUpdate
  intro files changed result
  obtain ⟨scripts, done, rfl⟩ := Option.map_eq_some_iff.mp result
  exact does _ _ done

theorem effect_augPutTree {tree : Tree} (label : Host.scriptLabel tree.path = some tree.file) :
    Effect (Viewed disk tables stored) (augPutTree host tree : Api Network D Unit) (refill tree) := by
  have clears : Effect (Viewed disk tables stored) (augUpdate .internal (host.augRm tree.path) : Api Network D Unit)
      fun store => Function.update store tree.file none := by
    have same : host.augRm tree.path = onFiles fun scripts => some (scripts.remove (·.name = tree.file)) := by
      rw [Host.augRm, label]
    rw [same]
    apply effect_onFiles
    rintro scripts changed ⟨⟩
    exact find_remove scripts tree.file
  have sets : ∀ node ∈ written tree, Effect (Viewed disk tables stored)
      (do attempt .nomem; augUpdate .other (host.augSet tree.path node.label node.value) : Api Network D Unit)
      fun store => Function.update store tree.file (assigned tree.file (store tree.file) node) := by
    intro node _
    have same : host.augSet tree.path node.label node.value =
        onFiles fun scripts => scripts.set tree.file node.label node.value := by
      rw [Host.augSet, label]
    rw [same]
    exact (effect_attempt .nomem).skip fun _ => effect_onFiles _ fun _ _ result => find_set result
  have both := clears.bind fun _ => effect_forM sets
  intro ncf store u after shown run
  have shown := both ncf store u after shown run
  rwa [Function.comp_apply, fold_assigned] at shown

theorem onRules_stored (f : List Script → Option (List Script)) (files changed : Files Network)
    (result : onRules f files = some changed) : stored changed = stored files := by
  obtain ⟨rules, _, rfl⟩ := Option.map_eq_some_iff.mp result
  rfl

theorem onRoutes_stored (f : List Script → Option (List Script)) (files changed : Files Network)
    (result : onRoutes f files = some changed) : stored changed = stored files := by
  obtain ⟨routes, _, rfl⟩ := Option.map_eq_some_iff.mp result
  rfl

theorem ruleRemovals_rules {name : String} (plain : '/' ∉ name.toList) {files : Files Network}
    {removals : List (Files Network → Option (Files Network))} (found : host.ruleRemovals name files = some removals) :
    ∀ removal ∈ removals, ∃ f, removal = onRules f := by
  unfold Host.ruleRemovals at found
  split at found
  · cases found
  split at found
  · cases found
    intro removal member
    exact ⟨_, List.mem_singleton.mp member⟩
  cases found
  intro removal member
  obtain ⟨place, _, rfl⟩ := List.mem_map.mp member
  exact ⟨_, rfl⟩

theorem augFmtFind_asked {α : Type} {query : Files Network → Option α} {ncf after : Ncf Network D} {a : α}
    (run : augFmtFind augeas query ncf = .ok a after) : ∃ files, query files = some a := by
  obtain ⟨found, middle, matched, rest⟩ := bind_ok run
  obtain ⟨_, one, _, matched⟩ := bind_ok matched
  obtain ⟨_, two, _, matched⟩ := bind_ok matched
  obtain ⟨_, three, _, matched⟩ := bind_ok matched
  obtain ⟨files, four, _, answered⟩ := bind_ok matched
  cases answered
  refine ⟨files, ?_⟩
  cases result : query files with
  | none =>
    rw [result] at rest
    cases rest
  | some b =>
    rw [result] at rest
    cases rest
    rfl

def removed (name : String) (store : String → Option Script) : String → Option Script :=
  Function.update store ("ifcfg-" ++ name) none

theorem effect_rmInterface {name : String} (plain : '/' ∉ name.toList) :
    Effect (Viewed disk tables stored) (rmInterface augeas host name) (removed name) := by
  have clears : Effect (Viewed disk tables stored) (augUpdate .other (host.rmFile name) : Api Network D Unit)
      (removed name) := by
    rw [Host.rmFile, if_neg plain]
    apply effect_onFiles
    rintro scripts changed ⟨⟩
    exact find_remove scripts _
  -- The rules that are removed are those that the search has found.
  have rules : Effect (Viewed disk tables stored)
      (do
        let removals ← (augFmtFind augeas (host.ruleRemovals name)).adaptExcept fun _ => .internal
        removals.reverse.forM fun removal => ignoring () (augUpdate .other removal) : Api Network D Unit) id := by
    intro ncf store u after shown run
    have kept := shows_kept augeas disk tables fun files => stored files = store
    obtain ⟨removals, middle, searched, rest⟩ := bind_ok run
    have still := (kept_ruleRemovals kept name).ok searched shown
    have each : Preserves (fun ncf => Viewed disk tables stored ncf store)
        (removals.reverse.forM fun removal => ignoring () (augUpdate .other removal) : Api Network D Unit) := by
      apply preserves_forM_mem
      intro removal member
      have found : ∃ files, host.ruleRemovals name files = some removals := by
        unfold EStateM.adaptExcept at searched
        cases run : augFmtFind augeas (host.ruleRemovals name) ncf with
        | error code other =>
          rw [run] at searched
          cases searched
        | ok _ other =>
          rw [run] at searched
          cases searched
          exact augFmtFind_asked run
      obtain ⟨files, listed⟩ := found
      obtain ⟨f, rfl⟩ := ruleRemovals_rules plain listed removal (List.mem_reverse.mp member)
      exact preserves_ignoring _ (kept.augUpdate _ _ fun files changed same result =>
        (onRules_stored f files changed result).trans same)
    exact each.ok rest still
  exact (effect_getAugeas augeas).skip fun _ => (effect_attempt .nomem).skip fun _ => clears.rest fun _ => rules

theorem effect_rmAllInterfaces {document : Interface}
    (plain : ∀ name, some name ∈ elements document → '/' ∉ name.toList) :
    Effect (Viewed disk tables stored) (rmAllInterfaces augeas (backend host) document)
      fun store => (elements document).foldl (fun store name => removed (name.getD "") store) store := by
  refine (effect_attempt .nomem).skip fun _ => (effect_attempt .nomem).skip fun _ => effect_forM ?_
  intro name member
  cases name with
  | none => exact effect_throw _
  | some name => exact (effect_attempt .nomem).skip fun _ => effect_rmInterface (plain name member)

theorem noted_device {nodes : List Node} {noted : Noted} {device : String}
    (last : (nodes.foldl Noted.next noted).device = some device) :
    noted.device = some device ∨ ∃ node ∈ nodes, node.label = "DEVICE" ∧ node.value = device := by
  induction nodes generalizing noted with
  | nil => exact Or.inl last
  | cons node rest ih =>
    rcases ih last with before | ⟨later, member, found⟩
    · by_cases label : node.label = "DEVICE"
      · right
        refine ⟨node, List.mem_cons_self, label, ?_⟩
        simpa [Noted.next, label] using before
      · left
        unfold Noted.next at before
        rw [if_neg label] at before
        split at before
        · exact before
        · split at before <;> exact before
    · exact Or.inr ⟨later, List.mem_cons_of_mem node member, found⟩

structure Placed (tree : Tree) (device : String) : Prop where
  path : tree.path = ifcfgPath device
  devices : tree.values "DEVICE" = [device]

theorem Placed.device {tree : Tree} {device : String} (placed : Placed tree device) : tree.device = device := by
  simp [Tree.device, Tree.value, Tree.value?, placed.devices]

theorem effect_augPutXml {forest : Forest} (placed : ∀ tree ∈ forest, Placed tree tree.device)
    (plain : ∀ tree ∈ forest, '/' ∉ tree.device.toList) :
    Effect (Viewed disk tables stored) (augPutXml augeas host forest)
      fun store => forest.foldl (fun store tree => refill tree store) store := by
  have trees : ∀ tree ∈ forest, Effect (Viewed disk tables stored) (augPutTree host tree : Api Network D Unit)
      (refill tree) := by
    intro tree member
    apply effect_augPutTree
    rw [(placed tree member).path]
    exact scriptLabel_ifcfgPath (plain tree member)
  refine (effect_getAugeas augeas).skip fun _ => (effect_forM trees).rest fun _ => effect_kept augeas fun store kept => ?_
  refine kept_augPutNoted kept (fun label value files changed same result => ?_) fun device last key value => ?_
  · exact (onRoutes_stored _ files changed result).trans same
  · rcases noted_device last with never | ⟨node, listed, label, rfl⟩
    · cases never
    obtain ⟨tree, member, inside⟩ := List.mem_flatMap.mp listed
    have named : node.value ∈ tree.values "DEVICE" :=
      List.mem_map_of_mem (List.mem_filter.mpr ⟨inside, decide_eq_true label⟩)
    rw [(placed tree member).devices, List.mem_singleton] at named
    intro files changed same result
    rw [Host.setRule, named, if_neg (plain tree member)] at result
    exact (onRules_stored _ files changed result).trans same

theorem effect_bondSetup (name : String) (adding : Bool) :
    Effect (Viewed disk tables stored) (bondSetup augeas (backend host) name adding) id := by
  refine effect_kept augeas fun store kept => kept.bondSetup (backend_reads kept host) ?_ name adding
  intro f files changed same result
  obtain ⟨modprobe, _, rfl⟩ := Option.map_eq_some_iff.mp result
  exact same

end Effects

section Forest

variable {machine : Machine} {document : Interface}

theorem nameAttr_placed {device : String} {rest : List Node} (quiet : labelled rest "DEVICE" = []) :
    Placed (nameAttr device rest) device :=
  ⟨rfl, by simp [Tree.values, nameAttr, quiet]⟩

theorem bareEthernet_placed (common : Common) (nic : BareEthernet) {nodes : List Node}
    (quiet : labelled nodes "DEVICE" = []) : Placed (bareEthernetInterface common nic nodes) nic.name.text :=
  nameAttr_placed (by simp [labelled_shared, quiet])

theorem rootTree_placed (document : Interface) {nodes : List Node} (addresses : Addresses nodes) :
    Placed (rootTree nodes document) (rootDevice document) := by
  have quiet : labelled nodes "DEVICE" = [] := addresses.labelled (by decide)
  cases document with
  | ethernet common nic => exact bareEthernet_placed common nic quiet
  | vlan common link => exact nameAttr_placed (by simp [labelled_shared, quiet])
  | bridge common name hub => exact nameAttr_placed (by simp [labelled_shared, quiet])
  | bond common team =>
    have slaves : labelled (slaveNodes team) "DEVICE" = [] := labelled_slaveNodes team (by decide)
    exact nameAttr_placed (by simp [RedHat.bondingOptsNode, labelled_shared, quiet, slaves])

theorem memberTrees_placed {tree : Tree} (member : tree ∈ memberTrees document) :
    ∃ device ∈ memberDevices document, Placed tree device := by
  have slave : ∀ (common : Common) (nic : BareEthernet), Placed (bareEthernetInterface common nic []) nic.name.text :=
    fun common nic => bareEthernet_placed common nic rfl
  cases document with
  | ethernet common nic => cases member
  | vlan common link => cases member
  | bridge common name hub =>
    obtain ⟨port, listed, inside⟩ := List.mem_flatMap.mp member
    have among : ∀ device, device ∈ RedHat.Port.device port :: port.slaveNames.reduceOption.map (·.text) →
        device ∈ memberDevices (.bridge common name hub) :=
      fun device found => List.mem_flatMap.mpr ⟨port, listed, found⟩
    cases port with
    | ethernet nic =>
      rw [List.mem_singleton.mp inside]
      exact ⟨_, among _ List.mem_cons_self, slave common nic⟩
    | vlan link =>
      rw [List.mem_singleton.mp inside]
      exact ⟨_, among _ List.mem_cons_self, nameAttr_placed (by simp [labelled_shared])⟩
    | bond team =>
      rcases List.mem_cons.mp inside with rfl | enslaved
      · exact ⟨_, among _ List.mem_cons_self, nameAttr_placed (by simp [RedHat.bondingOptsNode, labelled_shared])⟩
      · obtain ⟨nic, below, rfl⟩ := List.mem_map.mp enslaved
        refine ⟨_, among _ (List.mem_cons_of_mem _ ?_), slave common nic⟩
        simpa [Port.slaveNames, BondElement.names, List.reduceOption_mem_iff] using ⟨nic, below, rfl⟩
  | bond common team =>
    obtain ⟨nic, below, rfl⟩ := List.mem_map.mp member
    refine ⟨_, ?_, slave common nic⟩
    simpa [memberDevices, BondElement.names, List.reduceOption_mem_iff] using ⟨nic, below, rfl⟩

theorem forestOf_placed {tree : Tree} (member : tree ∈ forestOf machine document) :
    Placed tree tree.device ∧ tree.device ∈ devices document := by
  rcases List.mem_cons.mp member with rfl | inside
  · have placed := rootTree_placed document (@addressNodes_addresses machine document.common.addressing)
    rw [placed.device]
    exact ⟨placed, List.mem_cons_self⟩
  · obtain ⟨device, listed, placed⟩ := memberTrees_placed inside
    rw [placed.device]
    exact ⟨placed, List.mem_cons_of_mem _ listed⟩

end Forest

section Content

theorem values_nil {script : Script} {label : String} :
    script.values label = [] ↔ ∀ entry ∈ script.entries, entry.label ≠ label := by
  simp [Script.values]

theorem assign_values_nil {script : Script} {label value key : String} :
    (script.assign label value).values key = [] ↔ script.values key = [] ∧ label ≠ key := by
  rw [values_nil, values_nil]
  by_cases present : script.entries.any (·.label = label)
  · obtain ⟨old, listed, here⟩ := List.any_eq_true.mp present
    have labels : (alter (·.label = label) (fun _ => ⟨label, some value⟩) script.entries).map (·.label) =
        script.entries.map (·.label) := by
      rw [alter, List.map_map]
      apply List.map_congr_left
      intro entry _
      by_cases same : entry.label = label <;> simp [same]
    have same : ∀ entries : List RedHat.Entry, (∀ entry ∈ entries, entry.label ≠ key) ↔ key ∉ entries.map (·.label) := by
      simp
    simp only [Script.assign, present, if_true]
    rw [same, same, labels, ← same]
    constructor
    · intro absent
      exact ⟨absent, of_decide_eq_true here ▸ absent old listed⟩
    · exact And.left
  · simp only [Script.assign, present, Bool.false_eq_true, if_false, List.mem_append, List.mem_singleton]
    constructor
    · intro absent
      exact ⟨fun entry listed => absent entry (Or.inl listed), absent _ (Or.inr rfl)⟩
    · rintro ⟨absent, other⟩ entry (listed | rfl)
      · exact absent entry listed
      · exact other

theorem fold_assigned_values {file key : String} {nodes : List Node} {old : Option Script} {script : Script}
    (result : nodes.foldl (assigned file) old = some script) :
    script.values key = [] ↔ (old.getD ⟨file, []⟩).values key = [] ∧ ∀ node ∈ nodes, node.label ≠ key := by
  induction nodes generalizing old with
  | nil =>
    change old = some script at result
    simp [result]
  | cons node rest ih =>
    rw [ih result, assigned, Option.getD_some, assign_values_nil]
    simp [and_assoc]

-- A file has entries of a key just when the tree has nodes of it.
theorem content_values {tree : Tree} {script : Script} {key : String} (other : key ∉ remembered)
    (result : content tree = some script) : script.values key = [] ↔ tree.values key = [] := by
  rw [fold_assigned_values result]
  simp only [Option.getD_none, values_nil, List.not_mem_nil, false_implies, implies_true, true_and, written,
    List.mem_filter, decide_eq_true_eq, Tree.values, labelled, List.map_eq_nil_iff, List.filter_eq_nil_iff]
  constructor
  · intro absent node listed same
    exact absent node ⟨listed, same ▸ other⟩ same
  · intro absent node listed
    exact absent node listed.1

theorem content_some {tree : Tree} {key : String} (other : key ∉ remembered) (present : tree.values key ≠ []) :
    ∃ script, content tree = some script := by
  have started : ∀ (nodes : List Node) (old : Script), ∃ script,
      nodes.foldl (assigned tree.file) (some old) = some script := by
    intro nodes
    induction nodes with
    | nil => exact fun old => ⟨old, rfl⟩
    | cons node rest ih => exact fun old => ih _
  unfold content
  cases nodes : written tree with
  | nil =>
    refine absurd ?_ present
    have absent : ∀ node ∈ tree.nodes, node.label ∈ remembered := by
      simpa [written, List.filter_eq_nil_iff] using nodes
    simp only [Tree.values, labelled, List.map_eq_nil_iff, List.filter_eq_nil_iff, decide_eq_true_eq]
    exact fun node listed same => other (same ▸ absent node listed)
  | cons node rest => exact started rest _

end Content

section Define

variable {D : Type} {augeas : Augeas Network D} {host : Host} {document : Interface} {forest : Forest}
  {ncf start removal ready filled saving after : Ncf Network D}

def cleared (document : Interface) (store : String → Option Script) : String → Option Script :=
  (elements document).foldl (fun store name => removed (name.getD "") store) store

def refilled (forest : Forest) (store : String → Option Script) : String → Option Script :=
  forest.foldl (fun store tree => refill tree store) store

theorem refilled_other {forest : Forest} {name : String} (apart : ∀ tree ∈ forest, tree.file ≠ name)
    (store : String → Option Script) : refilled forest store name = store name := by
  induction forest generalizing store with
  | nil => rfl
  | cons tree rest ih =>
    change refilled rest (refill tree store) name = store name
    rw [ih fun other later => apart other (List.mem_cons_of_mem tree later)]
    exact Function.update_of_ne (apart tree List.mem_cons_self).symm _ _

theorem cleared_element {name : String} (listed : some name ∈ elements document) (store : String → Option Script) :
    cleared document store ("ifcfg-" ++ name) = none := by
  have stays : ∀ (names : List (Option String)) (store : String → Option Script), store ("ifcfg-" ++ name) = none →
      names.foldl (fun store name => removed (name.getD "") store) store ("ifcfg-" ++ name) = none := by
    intro names
    induction names with
    | nil => exact fun _ gone => gone
    | cons other rest ih =>
      intro store gone
      apply ih
      change Function.update store ("ifcfg-" ++ other.getD "") none ("ifcfg-" ++ name) = none
      by_cases same : "ifcfg-" ++ name = "ifcfg-" ++ other.getD ""
      · rw [same, Function.update_self]
      · rw [Function.update_of_ne same, gone]
  obtain ⟨front, back, split⟩ := List.append_of_mem listed
  rw [cleared, split, List.foldl_append, List.foldl_cons]
  exact stays back _ (Function.update_self _ _ _)

theorem defining_store
    (defining : Defining augeas (backend host) document forest ncf start removal ready filled saving after)
    (names : ∀ name, some name ∈ elements document → '/' ∉ name.toList)
    (plain : ∀ device ∈ devices document, '/' ∉ device.toList) :
    ∃ files, Saved augeas ncf files after ∧ stored files =
      refilled (forestOf host.machine document)
        (cleared document (stored (augeas.read (entries ncf.augeasXfmTables) ncf.disk))) := by
  have trees : forest = forestOf host.machine document := (get_iff.mp defining.transforms).2
  have removing := effect_rmAllInterfaces names _ _ _ _ ⟨_, defining.loaded, rfl⟩ defining.removes
  obtain ⟨files, loaded, same⟩ := removing
  have filling := effect_augPutXml (fun tree member => (forestOf_placed (trees ▸ member)).1)
    (fun tree member => plain _ (forestOf_placed (trees ▸ member)).2) _ _ _ _ ⟨files, defining.waits.loaded loaded, same⟩
    defining.puts
  obtain ⟨final, shown, result⟩ := effect_bondSetup _ true _ _ _ _ filling defining.aliases
  refine ⟨final, defining.saves shown, ?_⟩
  rw [result, trees]
  rfl

end Define

end Netcf.Suse
