import Netcf.Linux.Programs
import Netcf.RedHat.Driver
import Netcf.RedHat.Family

set_option autoImplicit false

-- Taking the files of some devices out of the tree, and putting the files of a forest into it.
namespace Netcf.RedHat

open Shared.Faulty Shared.Lists Linux Schema

theorem Scripts.eq_of_files {left right : Scripts} (same : left.files = right.files) : left = right := by
  cases left
  cases right
  cases same
  rfl

section Removal

variable {scripts : Scripts} {script : Script} {name : String}

theorem mem_remove {p : Script → Bool} :
    script ∈ (scripts.remove p).files ↔ script ∈ scripts.files ∧ p script = false := by
  simp [Scripts.remove]

theorem has_iff {label value : String} : script.has label value = true ↔ some value ∈ script.values label := by
  simp [Script.has]

theorem belowPort_iff :
    scripts.belowPort name script = true ↔
      ∃ port ∈ scripts.files, port.has "BRIDGE" name = true ∧
        ∃ value ∈ port.values "DEVICE", value ∈ script.values "MASTER" := by
  simp only [Scripts.belowPort, Scripts.devices, List.any_eq_true, List.contains_iff_mem, List.mem_flatMap,
    List.mem_filter]
  constructor
  · rintro ⟨value, master, port, ⟨listed, enslaved⟩, device⟩
    exact ⟨port, listed, enslaved, value, device, master⟩
  · rintro ⟨port, listed, enslaved, value, device, master⟩
    exact ⟨value, master, port, ⟨listed, enslaved⟩, device⟩

theorem related_iff :
    scripts.related name script = true ↔
      script.has "DEVICE" name = true ∨ script.has "BRIDGE" name = true ∨ script.has "MASTER" name = true ∨
        scripts.belowPort name script = true := by
  simp [Scripts.related, or_assoc]

theorem related_of_has {label : String} (listed : label ∈ ["DEVICE", "BRIDGE", "MASTER"])
    (holds : script.has label name = true) : scripts.related name script = true := by
  simp only [List.mem_cons, List.not_mem_nil, or_false] at listed
  rw [related_iff]
  rcases listed with rfl | rfl | rfl
  · exact Or.inl holds
  · exact Or.inr (Or.inl holds)
  · exact Or.inr (Or.inr (Or.inl holds))

-- With fewer files around, no file is related that was not before.
theorem related_mono {fewer : Scripts} (within : fewer.files ⊆ scripts.files)
    (related : fewer.related name script = true) : scripts.related name script = true := by
  rw [related_iff, belowPort_iff] at related ⊢
  rcases related with here | here | here | ⟨port, listed, below⟩
  · exact Or.inl here
  · exact Or.inr (Or.inl here)
  · exact Or.inr (Or.inr (Or.inl here))
  · exact Or.inr (Or.inr (Or.inr ⟨port, within listed, below⟩))

def Scripts.removeRelated (scripts : Scripts) (name : String) : Scripts :=
  scripts.remove (scripts.related name)

def Scripts.removeAll (scripts : Scripts) (names : List String) : Scripts :=
  names.foldl Scripts.removeRelated scripts

theorem removeAll_subset (names : List String) : (scripts.removeAll names).files ⊆ scripts.files := by
  induction names generalizing scripts with
  | nil => exact fun _ member => member
  | cons name rest ih =>
    intro script member
    exact (mem_remove.mp (ih member)).1

theorem removeAll_free {names : List String} (member : script ∈ (scripts.removeAll names).files)
    (wanted : name ∈ names) {label : String} (listed : label ∈ ["DEVICE", "BRIDGE", "MASTER"]) :
    script.has label name = false := by
  induction names generalizing scripts with
  | nil => cases wanted
  | cons first rest ih =>
    rcases List.mem_cons.mp wanted with rfl | later
    · have kept := (mem_remove.mp (removeAll_subset rest member)).2
      by_contra holds
      rw [Bool.not_eq_false] at holds
      rw [related_of_has listed holds] at kept
      cases kept
    · exact ih member later

theorem removeAll_filter (scripts : Scripts) (names : List String) :
    ∃ p : Script → Bool, (scripts.removeAll names).files = scripts.files.filter p := by
  induction names generalizing scripts with
  | nil => exact ⟨fun _ => true, (List.filter_eq_self.mpr fun _ _ => rfl).symm⟩
  | cons name rest ih =>
    obtain ⟨p, filtered⟩ := ih (scripts.removeRelated name)
    refine ⟨fun script => p script && !scripts.related name script, ?_⟩
    change ((scripts.removeRelated name).removeAll rest).files = _
    rw [filtered, Scripts.removeRelated, Scripts.remove, List.filter_filter]

theorem removeAll_keeps {names : List String} (member : script ∈ scripts.files)
    (unrelated : ∀ name ∈ names, scripts.related name script = false) :
    script ∈ (scripts.removeAll names).files := by
  induction names generalizing scripts with
  | nil => exact member
  | cons first rest ih =>
    apply ih (mem_remove.mpr ⟨member, unrelated first List.mem_cons_self⟩)
    intro name later
    by_contra related
    rw [Bool.not_eq_false] at related
    have before := related_mono (fun _ inside => (mem_remove.mp inside).1) related
    rw [unrelated name (List.mem_cons_of_mem first later)] at before
    cases before

theorem removeAll_same {names : List String}
    (unrelated : ∀ name ∈ names, ∀ script ∈ scripts.files, scripts.related name script = false) :
    scripts.removeAll names = scripts := by
  induction names with
  | nil => rfl
  | cons first rest ih =>
    have same : scripts.removeRelated first = scripts := by
      apply Scripts.eq_of_files
      rw [Scripts.removeRelated, Scripts.remove, List.filter_eq_self]
      intro script member
      simp [unrelated first List.mem_cons_self script member]
    change (scripts.removeRelated first).removeAll rest = scripts
    rw [same]
    exact ih fun name later => unrelated name (List.mem_cons_of_mem first later)

end Removal

section Paths

theorem below_scripts (name : String) :
    (networkScriptsPath ++ "/" ++ name).toList.drop (networkScriptsPath.length + 1) = name.toList := by
  rw [String.toList_append]
  apply List.drop_left'
  decide

theorem scriptLabel_path {name : String} (plain : StepName name) :
    scriptLabel (networkScriptsPath ++ "/" ++ name) = some name := by
  simp only [scriptLabel, below_scripts, String.ofList_toList]
  rw [if_pos ⟨trivial, plain⟩]

theorem stepName_ifcfg {device : String} (plain : Ordinary device) : StepName ("ifcfg-" ++ device) where
  ordinary := by
    intro c listed
    rw [String.toList_append, List.mem_append] at listed
    have start : Ordinary "ifcfg-" := by decide
    rcases listed with front | back
    · exact start c front
    · exact plain c back
  named := by
    have head : ("ifcfg-" ++ device).toList.head? = some 'i' := by rw [String.toList_append]; rfl
    rw [head]
    decide
  axisless := by
    intro axis listed starts
    rw [String.toList_append] at starts
    have first : ∀ axis ∈ axes, (axis.toList ++ [':', ':']).head? ≠ some 'i' ∧ axis.toList ++ [':', ':'] ≠ [] := by
      decide
    obtain ⟨other, present⟩ := first axis listed
    obtain ⟨c, rest, text⟩ := List.exists_cons_of_ne_nil present
    rw [text] at starts other
    exact other (congrArg some (List.cons_prefix_cons.mp starts).1)

theorem scriptLabel_ifcfgPath {device : String} (plain : Ordinary device) :
    scriptLabel (ifcfgPath device) = some ("ifcfg-" ++ device) := by
  have split : ifcfgPath device = networkScriptsPath ++ "/" ++ ("ifcfg-" ++ device) := by
    simp only [ifcfgPath, String.append_assoc]
    rfl
  rw [split]
  exact scriptLabel_path (stepName_ifcfg plain)

-- What the schema lets stand in a name, a slash apart, is nothing special in a path expression.
theorem unreserved_lexeme {pattern : RegularExpression Char} (lexeme : Shared.Pattern.Lexeme pattern)
    (closed : Shared.Pattern.within (fun c => c = '/' ∨ c ∉ metacharacters) pattern = true) :
    ∀ c ∈ lexeme.text.toList, c = '/' ∨ c ∉ metacharacters := by
  intro c inside
  exact of_decide_eq_true (lexeme.within closed c inside)

theorem unreserved_name (name : DeviceName) : ∀ c ∈ name.text.toList, c = '/' ∨ c ∉ metacharacters :=
  unreserved_lexeme name (by decide +kernel)

theorem unreserved_vlan (link : BareVlan) : ∀ c ∈ link.deviceName.toList, c = '/' ∨ c ∉ metacharacters := by
  intro c inside
  simp only [BareVlan.deviceName, String.toList_append, List.mem_append] at inside
  rcases inside with (base | dot) | tag
  · exact unreserved_name _ c base
  · exact Or.inr (List.mem_singleton.mp dot ▸ by decide)
  · exact unreserved_lexeme link.tag.toLexeme (by decide +kernel) c tag

theorem unreserved_text {names : List (Option DeviceName)} {device : String}
    (listed : device ∈ names.reduceOption.map (·.text)) : ∀ c ∈ device.toList, c = '/' ∨ c ∉ metacharacters := by
  obtain ⟨name, _, rfl⟩ := List.mem_map.mp listed
  exact unreserved_name name

theorem unreserved_root (document : Interface) :
    ∀ c ∈ (rootDevice document).toList, c = '/' ∨ c ∉ metacharacters := by
  cases document with
  | ethernet common nic => exact unreserved_name _
  | vlan common link => exact unreserved_vlan link
  | bridge common name hub => exact unreserved_name name
  | bond common team => exact unreserved_name _

theorem unreserved_member {document : Interface} {device : String} (listed : device ∈ memberDevices document) :
    ∀ c ∈ device.toList, c = '/' ∨ c ∉ metacharacters := by
  cases document with
  | ethernet common nic => cases listed
  | vlan common link => cases listed
  | bond common team => exact unreserved_text listed
  | bridge common name hub =>
    obtain ⟨port, _, member⟩ := List.mem_flatMap.mp listed
    rcases List.mem_cons.mp member with rfl | slave
    · cases port with
      | ethernet nic => exact unreserved_name _
      | vlan link => exact unreserved_vlan link
      | bond team => exact unreserved_name _
    · exact unreserved_text slave

theorem devices_ordinary {document : Interface} {device : String} (listed : device ∈ devices document)
    (plain : '/' ∉ device.toList) : Ordinary device := by
  intro c inside
  have free : ∀ c ∈ device.toList, c = '/' ∨ c ∉ metacharacters := by
    rcases List.mem_cons.mp listed with rfl | member
    · exact unreserved_root document
    · exact unreserved_member member
  rcases free c inside with rfl | ordinary
  · exact absurd inside plain
  · exact ordinary

theorem Definable.ordinary {document : Interface} (definable : Definable document) {machine : Stylesheet.Machine}
    {tree : Tree} (member : tree ∈ forestOf machine document) : Ordinary tree.device :=
  devices_ordinary (mem_devices member) (definable.devices_plain (mem_devices member))

end Paths

section Writing

def Node.entry (node : Node) : Entry :=
  ⟨node.label, some node.value⟩

def Tree.file (tree : Tree) : String :=
  "ifcfg-" ++ tree.device

-- The file that a tree of the forest is written to.
def Tree.script (tree : Tree) : Script :=
  ⟨tree.file, tree.nodes.map Node.entry⟩

theorem set_new {scripts : Scripts} {name : String} (absent : name ∉ scripts.files.map (·.name))
    (label value : String) :
    ∃ changed, scripts.set name label value = some changed ∧
      changed.files = scripts.files ++ [⟨name, [⟨label, some value⟩]⟩] := by
  unfold Scripts.set
  rw [dif_pos absent]
  exact ⟨_, rfl, rfl⟩

theorem set_append {scripts : Scripts} {front : List Script} {name : String} {entries : List Entry}
    (files : scripts.files = front ++ [⟨name, entries⟩]) {label : String}
    (fresh : label ∉ entries.map (·.label)) (value : String) :
    ∃ changed, scripts.set name label value = some changed ∧
      changed.files = front ++ [⟨name, entries ++ [⟨label, some value⟩]⟩] := by
  have apart : ∀ script ∈ front, script.name ≠ name := by
    have distinct := scripts.distinct
    rw [files, List.map_append, List.nodup_append] at distinct
    intro script member
    exact distinct.2.2 script.name (List.mem_map_of_mem member) name (by simp)
  have unlisted : ∀ entry ∈ entries, entry.label ≠ label :=
    fun entry member same => fresh (same ▸ List.mem_map_of_mem member)
  have present : ¬ name ∉ scripts.files.map (·.name) := by simp [files]
  have once : ∀ script ∈ scripts.files, script.name = name → script.entries.countP (·.label = label) ≤ 1 := by
    intro script member here
    rw [files, List.mem_append, List.mem_singleton] at member
    rcases member with before | rfl
    · exact absurd here (apart script before)
    · have none_yet : entries.countP (·.label = label) = 0 := by
        rw [List.countP_eq_zero]
        simpa using unlisted
      simp [none_yet]
  unfold Scripts.set
  rw [dif_neg present, if_pos once]
  refine ⟨_, rfl, ?_⟩
  change alter _ _ scripts.files = _
  rw [files, alter_of_split (by simp) (by simpa using apart) (by simp)]
  have added : (entries.any fun entry => decide (entry.label = label)) = false := by simpa using unlisted
  simp [Script.assign, added]

variable (pathx : Pathx)

-- aug_put_xml while nothing fails.
def putTreeModel (tree : Tree) : StateT (Files Scripts) (Except Errcode) Unit := do
  change .internal (pathx.augRm tree.path)
  tree.nodes.forM fun node => change .other (pathx.augSet tree.path node.label node.value)

theorem implements_augPutTree {D : Type} {disk : D} {tables : List (Option Entries)} (tree : Tree) :
    Implements (Loaded disk tables) Calm (augPutTree pathx tree : Api Scripts D Unit) (putTreeModel pathx tree) := by
  unfold augPutTree putTreeModel
  refine (implements_augUpdate .internal (pathx.augRm tree.path)).bind fun _ =>
    implements_forM (fun node => ?_) tree.nodes
  exact (implements_attempt .nomem).bind fun _ =>
    implements_augUpdate .other (pathx.augSet tree.path node.label node.value)

theorem implements_augPutXml {D : Type} {augeas : Augeas Scripts D} {disk : D} {tables : List (Option Entries)}
    (forest : Forest) :
    Implements (Loaded disk tables) Calm (augPutXml augeas pathx forest) (forest.forM (putTreeModel pathx)) :=
  implements_getAugeas.bind fun _ => implements_forM (implements_augPutTree pathx) forest

variable {pathx}

theorem putNodes_ok {path name : String} (plain : scriptLabel path = some name) {nodes : List Node}
    {front : List Script} {entries : List Entry} {files : Files Scripts}
    (current : files.config.files = front ++ [⟨name, entries⟩])
    (labels : (entries.map (·.label) ++ nodes.map (·.label)).Nodup) :
    ∃ scripts, (nodes.forM fun node => change .other (pathx.augSet path node.label node.value)) files =
        .ok ((), { files with config := scripts }) ∧
      scripts.files = front ++ [⟨name, entries ++ nodes.map Node.entry⟩] := by
  induction nodes generalizing files entries with
  | nil => exact ⟨files.config, rfl, by simpa using current⟩
  | cons node rest ih =>
    have fresh : node.label ∉ entries.map (·.label) := by
      intro listed
      exact (List.nodup_append.mp labels).2.2 node.label listed node.label (by simp) rfl
    obtain ⟨changed, set, now⟩ := set_append current fresh node.value
    have step : change .other (pathx.augSet path node.label node.value) files =
        .ok ((), { files with config := changed }) := by
      apply change_some
      simp [Pathx.augSet, plain, onScripts, set]
    have others := @ih (entries ++ [⟨node.label, some node.value⟩]) { files with config := changed } now
      (by simpa using labels)
    obtain ⟨scripts, run, result⟩ := others
    refine ⟨scripts, ?_, by simpa [Node.entry] using result⟩
    exact (model_bind_of_ok _ step).trans run

theorem putTreeModel_ok {tree : Tree} (plain : scriptLabel tree.path = some tree.file)
    (filled : tree.nodes ≠ []) (labels : tree.labels.Nodup) (files : Files Scripts) :
    ∃ scripts, putTreeModel pathx tree files = .ok ((), { files with config := scripts }) ∧
      scripts.files = files.config.files.filter (fun script => !decide (script.name = tree.file)) ++ [tree.script] := by
  have cleared : change .internal (pathx.augRm tree.path) files =
      .ok ((), { files with config := files.config.remove (·.name = tree.file) }) := by
    apply change_some
    simp [Pathx.augRm, plain, onScripts]
  unfold putTreeModel
  rw [model_bind_of_ok _ cleared]
  have absent : tree.file ∉ (files.config.remove (·.name = tree.file)).files.map (·.name) := by
    simp [Scripts.remove]
  cases nodes : tree.nodes with
  | nil => exact absurd nodes filled
  | cons node rest =>
    obtain ⟨started, set, now⟩ := set_new absent node.label node.value
    have first : change .other (pathx.augSet tree.path node.label node.value)
        { files with config := files.config.remove (·.name = tree.file) } =
        .ok ((), { files with config := started }) := by
      apply change_some
      simp [Pathx.augSet, plain, onScripts, set]
    have distinct : ([node.label] ++ rest.map (·.label)).Nodup := by simpa [Tree.labels, nodes] using labels
    rcases @putNodes_ok pathx _ _ plain rest _ _ { files with config := started } now distinct with
      ⟨scripts, run, result⟩
    refine ⟨scripts, ?_, by simpa [Tree.script, nodes, Node.entry, Scripts.remove] using result⟩
    exact (model_bind_of_ok _ first).trans run

theorem file_injective : Function.Injective fun device : String => "ifcfg-" ++ device := by
  intro left right same
  have letters := congrArg String.toList same
  simp only [String.toList_append] at letters
  exact String.toList_inj.mp (List.append_cancel_left letters)

theorem ForDevice.plain {tree : Tree} (fits : tree.ForDevice tree.device) (plain : Ordinary tree.device) :
    scriptLabel tree.path = some tree.file := by
  rw [fits.path]
  exact scriptLabel_ifcfgPath plain

theorem ForDevice.filled {tree : Tree} (fits : tree.ForDevice tree.device) : tree.nodes ≠ [] := by
  intro empty
  have devices := fits.devices
  simp [Tree.values, empty] at devices

-- The forest replaces the files of the same names and goes to the end.
theorem putForest_ok {forest : Forest} (fits : ∀ tree ∈ forest, tree.ForDevice tree.device)
    (plain : ∀ tree ∈ forest, Ordinary tree.device) (distinct : (forest.map Tree.device).Nodup)
    (files : Files Scripts) :
    ∃ scripts, forest.forM (putTreeModel pathx) files = .ok ((), { files with config := scripts }) ∧
      scripts.files = files.config.files.filter (fun script => !decide (script.name ∈ forest.map Tree.file)) ++
        forest.map Tree.script := by
  induction forest generalizing files with
  | nil => exact ⟨files.config, rfl, by simp⟩
  | cons tree rest ih =>
    have here := fits tree List.mem_cons_self
    rcases @putTreeModel_ok pathx _ (ForDevice.plain here (plain tree List.mem_cons_self)) (ForDevice.filled here)
      here.labels files with ⟨started, first, now⟩
    rw [List.map_cons, List.nodup_cons] at distinct
    rcases ih (fun other later => fits other (List.mem_cons_of_mem tree later))
      (fun other later => plain other (List.mem_cons_of_mem tree later)) distinct.2
      { files with config := started } with ⟨scripts, others, result⟩
    refine ⟨scripts, (model_bind_of_ok _ first).trans others, ?_⟩
    have apart : tree.file ∉ rest.map Tree.file := by
      intro listed
      obtain ⟨other, later, same⟩ := List.mem_map.mp listed
      exact distinct.1 (file_injective same ▸ List.mem_map_of_mem later)
    have stays : ([tree.script].filter fun script => !decide (script.name ∈ rest.map Tree.file)) = [tree.script] := by
      simpa [Tree.script] using apart
    rw [result]
    simp only [now, List.filter_append, stays, List.filter_filter, List.map_cons, List.append_assoc,
      List.singleton_append]
    congr 1
    apply List.filter_congr
    intro script _
    simp [Bool.and_comm]

-- Which files stand in network-scripts after a forest has been written, also when some of its trees
-- are for the same device: the last of these stays.
structure Written (forest : Forest) (before after : Scripts) : Prop where
  origin : ∀ script ∈ after.files, script ∈ before.files ∨ ∃ tree ∈ forest, script = tree.script
  kept : ∀ script ∈ before.files, script.name ∉ forest.map Tree.file → script ∈ after.files
  last : ∀ front tree back, forest = front ++ tree :: back → tree.file ∉ back.map Tree.file →
    tree.script ∈ after.files

theorem putForest_total {forest : Forest} (fits : ∀ tree ∈ forest, tree.ForDevice tree.device)
    (plain : ∀ tree ∈ forest, Ordinary tree.device) (files : Files Scripts) :
    ∃ scripts, forest.forM (putTreeModel pathx) files = .ok ((), { files with config := scripts }) ∧
      Written forest files.config scripts := by
  induction forest generalizing files with
  | nil => exact ⟨files.config, rfl, fun _ member => Or.inl member, fun _ member _ => member, by simp⟩
  | cons tree rest ih =>
    have here := fits tree List.mem_cons_self
    rcases @putTreeModel_ok pathx _ (ForDevice.plain here (plain tree List.mem_cons_self)) (ForDevice.filled here)
      here.labels files with ⟨started, first, now⟩
    rcases ih (fun other later => fits other (List.mem_cons_of_mem tree later))
      (fun other later => plain other (List.mem_cons_of_mem tree later)) { files with config := started } with
      ⟨scripts, others, written⟩
    have between : ∀ script, script ∈ started.files ↔
        (script ∈ files.config.files ∧ script.name ≠ tree.file) ∨ script = tree.script := by
      intro script
      simp [now]
    refine ⟨scripts, (model_bind_of_ok _ first).trans others, ?_, ?_, ?_⟩
    · intro script member
      rcases written.origin script member with old | ⟨other, later, same⟩
      · rcases (between script).mp old with ⟨before, _⟩ | rfl
        · exact Or.inl before
        · exact Or.inr ⟨tree, List.mem_cons_self, rfl⟩
      · exact Or.inr ⟨other, List.mem_cons_of_mem tree later, same⟩
    · intro script member apart
      rw [List.map_cons, List.mem_cons, not_or] at apart
      exact written.kept script ((between script).mpr (Or.inl ⟨member, apart.1⟩)) apart.2
    · intro front chosen back split final
      cases front with
      | nil =>
        cases split
        exact written.kept tree.script ((between _).mpr (Or.inr rfl)) final
      | cons _ front =>
        cases split
        exact written.last front _ _ rfl final

end Writing

section Removing

variable {D : Type} {augeas : Augeas Scripts D} {disk : D} {tables : List (Option Entries)}

theorem implements_rmInterface (name : String) :
    Implements (Loaded disk tables) Calm (rmInterface augeas name) (change .other (removal name)) :=
  implements_getAugeas.bind fun _ => (implements_attempt .nomem).bind fun _ =>
    implements_augUpdate .other (removal name)

theorem implements_rmAllInterfaces (machine : Stylesheet.Machine) (pathx : Pathx) (document : Interface) :
    Implements (Loaded disk tables) Calm (rmAllInterfaces augeas (backend machine pathx) document)
      ((nameAttributes document).forM (rmModel fun name => change .other (removal name))) :=
  implements_rmAll implements_rmInterface document

theorem rmModel_ok (names : List String) (files : Files Scripts) :
    (names.map some).forM (rmModel fun name => change .other (removal name)) files =
      .ok ((), { files with config := files.config.removeAll names }) := by
  induction names generalizing files with
  | nil => rfl
  | cons name rest ih =>
    have first : rmModel (fun name => change .other (removal name)) (some name) files =
        .ok ((), { files with config := files.config.removeRelated name }) := rfl
    exact (model_bind_of_ok _ first).trans (ih _)

end Removing

end Netcf.RedHat
