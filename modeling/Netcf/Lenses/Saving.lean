import Netcf.Lenses.Ifcfg
import Netcf.Linux.Saving
import Netcf.RedHat.Define
import Netcf.Suse.Store

set_option autoImplicit false

-- The files that the drivers put together, as the lens for sysconfig files saves them.
namespace Netcf.Lenses

open Shared.Bidirectional Shared.Repeating Shared.Faulty Shared.Simulation Shared.Lists Schema Stylesheet Linux
open RedHat (Node Tree Forest Script Scripts Entry Pathx Node.entry devices forestOf)

section Written

variable {util : Remarks} {script : Script} {nodes : List Node}

def shownEntry (entry : Entry) : View Char :=
  ⟨some entry.label.toList, entry.value.map (·.toList), []⟩

def shown (script : Script) : List (View Char) :=
  script.entries.map shownEntry

-- The lens writes the file in one way, and it reads what it has written in no other.
def WrittenOnce (util : Remarks) (script : Script) : Prop :=
  ∃ text, (∀ other, other ∈ creates (lns util) (shown script) ↔ other = text) ∧
    ∀ children, children ∈ gets (lns util) text ↔ children = shown script

def Covers (nodes : List Node) (script : Script) : Prop :=
  ∀ entry ∈ script.entries, ∃ node ∈ nodes, node.entry = entry

theorem fits_node {node : Node} (legal : keyRe.accepts node.label.toList = true) (clean : Clean node.value) :
    Fits (node.label.toList, node.value.toList) where
  legal := legal
  line := (storable_clean clean).1
  stored := (storable_clean clean).2

theorem writtenOnce_of_covers (covers : Covers nodes script) (writable : Writable nodes) : WrittenOnce util script := by
  let pairs := script.entries.map fun entry => (entry.label.toList, (entry.value.getD "").toList)
  have same : shown script = pairs.map entry := by
    rw [shown, List.map_map]
    apply List.map_congr_left
    intro found listed
    obtain ⟨node, _, rfl⟩ := covers found listed
    rfl
  have fits : ∀ pair ∈ pairs, Fits pair := by
    intro pair listed
    obtain ⟨found, inside, rfl⟩ := List.mem_map.mp listed
    obtain ⟨node, member, rfl⟩ := covers found inside
    exact fits_node (writable node member).1 (writable node member).2
  obtain ⟨text, once⟩ := @created_file util pairs fits
  rw [← same] at once
  refine ⟨text, once, fun children => ?_⟩
  exact gets_of_creates (lns_lined util) (lns_settled util) ((once text).mpr rfl) children

theorem covers_script (tree : Tree) : Covers tree.nodes tree.script := by
  intro entry listed
  obtain ⟨node, member, rfl⟩ := List.mem_map.mp listed
  exact ⟨node, member, rfl⟩

theorem mem_assign {label value : String} {entry : Entry} (listed : entry ∈ (script.assign label value).entries) :
    entry = ⟨label, some value⟩ ∨ entry ∈ script.entries := by
  unfold Script.assign at listed
  split at listed
  · obtain ⟨old, inside, rfl⟩ := List.mem_map.mp listed
    dsimp only
    split
    · exact .inl rfl
    · exact .inr inside
  · rcases List.mem_append.mp listed with inside | last
    · exact .inr inside
    · exact .inl (List.mem_singleton.mp last)

theorem covers_assign {node : Node} (covers : Covers nodes script) (member : node ∈ nodes) :
    Covers nodes (script.assign node.label node.value) := by
  intro entry listed
  rcases mem_assign listed with rfl | inside
  · exact ⟨node, member, rfl⟩
  · exact covers entry inside

theorem covers_content {tree : Tree} (result : Suse.content tree = some script) : Covers tree.nodes script := by
  have fold : ∀ (nodes : List Node) (old : Option Script), nodes ⊆ tree.nodes → (∀ found ∈ old, Covers tree.nodes found) →
      ∀ found ∈ nodes.foldl (Suse.assigned tree.file) old, Covers tree.nodes found := by
    intro nodes
    induction nodes with
    | nil => exact fun _ _ covers => covers
    | cons node rest ih =>
      intro old within covers
      refine ih _ (fun _ later => within (List.mem_cons_of_mem _ later)) fun found same => ?_
      rw [← Option.some.inj same]
      refine covers_assign ?_ (within List.mem_cons_self)
      cases old with
      | none => exact List.forall_mem_nil _
      | some file => exact covers file rfl
  exact fold _ none (List.filter_subset_self _) (fun _ absent => by cases absent) script result

-- What the stylesheets make of a document is saved by the lens as it is.
theorem forests_written (util : Remarks) (machine : Machine) (document : Interface) (forest : Forest) :
    (RedHat.get machine document = .ok forest → ∀ tree ∈ forest, WrittenOnce util tree.script) ∧
      (Suse.get machine document = .ok forest → ∀ tree ∈ forest, ∀ script ∈ Suse.content tree,
        WrittenOnce util script) :=
  ⟨fun made tree member => writtenOnce_of_covers (covers_script tree) (writable_redhat made member),
    fun made _ member _ result => writtenOnce_of_covers (covers_content result) (writable_suse made member)⟩

end Written

section Typed

variable {D : Type} {util : Remarks} {augeas : Augeas Scripts D} {machine : Machine} {pathx : Pathx}

def Typable (util : Remarks) (entry : Entry) : Prop :=
  createsItem (lns util) (shownEntry entry) ≠ []

instance (entry : Entry) : Decidable (Typable util entry) :=
  inferInstanceAs (Decidable (createsItem (lns util) (shownEntry entry) ≠ []))

def TypableFiles (util : Remarks) (scripts : Scripts) : Prop :=
  ∀ script ∈ scripts.files, ∀ entry ∈ script.entries, Typable util entry

theorem typable_node {node : Node} (legal : keyRe.accepts node.label.toList = true) (clean : Clean node.value) :
    Typable util node.entry := by
  have fits := fits_node legal clean
  obtain ⟨line, created⟩ := @created_once util.toUtil _ _ ((Shared.Regex.RegExp.accepts_iff _ _).mp fits.legal)
    fits.line fits.stored
  have made : line ∈ createsItem (lns util) (entry (node.label.toList, node.value.toList)) :=
    (creates_entry fits.legal).mpr ((created line).mpr rfl)
  exact List.ne_nil_of_mem made

theorem typable_remove {scripts : Scripts} (typed : TypableFiles util scripts) (p : Script → Bool) :
    TypableFiles util (scripts.remove p) :=
  fun script member => typed script (List.mem_of_mem_filter member)

theorem typable_set {scripts changed : Scripts} {name label value : String} (typed : TypableFiles util scripts)
    (fits : Typable util ⟨label, some value⟩) (result : scripts.set name label value = some changed) :
    TypableFiles util changed := by
  unfold Scripts.set at result
  split at result
  · cases result
    refine List.forall_mem_append.mpr ⟨typed, fun script last entry listed => ?_⟩
    rw [List.mem_singleton.mp last] at listed
    rw [List.mem_singleton.mp listed]
    exact fits
  · split at result
    · cases result
      intro script member entry listed
      obtain ⟨old, inside, rfl⟩ := List.mem_map.mp member
      split at listed
      · rcases mem_assign listed with rfl | here
        · exact fits
        · exact typed old inside entry here
      · exact typed old inside entry listed
    · cases result

theorem allowed_onScripts {f : Scripts → Option Scripts}
    (keeps : ∀ scripts changed, TypableFiles util scripts → f scripts = some changed → TypableFiles util changed)
    (files changed : Files Scripts) (typed : TypableFiles util files.config)
    (result : RedHat.onScripts f files = some changed) : TypableFiles util changed.config := by
  obtain ⟨scripts, done, rfl⟩ := Option.map_eq_some_iff.mp result
  exact keeps _ _ typed done

theorem typable_augPutTree (augeas : Augeas Scripts D) {disk : D} {tables : List (Option Entries)} {tree : Tree}
    {file : String} (label : RedHat.scriptLabel tree.path = some file) (writable : Writable tree.nodes) :
    Preserves (Shows disk tables fun files => TypableFiles util files.config)
      (RedHat.augPutTree pathx tree : Api Scripts D Unit) := by
  have kept := shows_kept augeas disk tables fun files => TypableFiles util files.config
  refine (kept.augUpdate .internal (pathx.augRm tree.path) ?_).bind fun _ => preserves_forM_mem fun node member => ?_
  · rw [Pathx.augRm, label]
    refine allowed_onScripts ?_
    rintro scripts _ typed ⟨⟩
    exact typable_remove typed _
  · refine (kept.attempt _).bind fun _ => kept.augUpdate _ _ ?_
    rw [Pathx.augSet, label]
    refine allowed_onScripts fun scripts changed typed result => ?_
    exact typable_set typed (typable_node (writable node member).1 (writable node member).2) result

def Plain (document : Interface) : Prop :=
  ∀ device ∈ devices document, '/' ∉ device.toList

theorem redhat_types (augeas : Augeas Scripts D) (machine : Machine) (pathx : Pathx) :
    (RedHat.backend machine pathx).Types augeas (TypableFiles util) Plain where
  safe := RedHat.backend_safe augeas machine pathx
  reads disk tables P := RedHat.backend_reads (shows_kept augeas disk tables P) machine pathx
  rmInterface disk tables name := by
    refine RedHat.kept_rmInterface (shows_kept augeas disk tables fun files => TypableFiles util files.config) ?_
    refine allowed_onScripts ?_
    rintro scripts _ typed ⟨⟩
    exact typable_remove typed _
  augPutXml disk tables document forest plain made := by
    refine RedHat.kept_augPutXml (shows_kept augeas disk tables _) fun tree member => ?_
    have writable := writable_redhat made member
    rw [RedHat.get_forest made] at member
    have path := (RedHat.forestOf_forDevice member).path
    have label : RedHat.scriptLabel tree.path = some ("ifcfg-" ++ tree.device) := by
      rw [path]
      exact RedHat.scriptLabel_ifcfgPath
        (RedHat.devices_ordinary (RedHat.mem_devices member) (plain _ (RedHat.mem_devices member)))
    exact typable_augPutTree augeas label writable

-- A call that saves has put together a tree that the lens can write, also when the call fails after its save. Up
-- to the next save every call finds that tree.
theorem redhat_saved_in_view {libxml : Libxml} {disk : D} {history later : List Call} {call : Call}
    {before : Ncf Scripts D}
    (reachable : before = reached augeas (RedHat.backend machine pathx) libxml RedHat.augeasXfmCommon disk history)
    (lensed : Lensed (TypableFiles util) augeas (entries before.augeasXfmTables))
    (plain : ∀ text faults, call = .define text faults → ∀ document, libxml.accepts text = some document →
      Plain document)
    (writes : (serve augeas (RedHat.backend machine pathx) libxml call before).1.writes = true)
    (quiet : ∀ answer ∈ (run (serve augeas (RedHat.backend machine pathx) libxml) later
      (serve augeas (RedHat.backend machine pathx) libxml call before).2).1, answer.writes = false) :
    ∃ files, TypableFiles util files.config ∧
      (serve augeas (RedHat.backend machine pathx) libxml call before).2.disk = augeas.write before.disk files ∧
      (∀ found, .tree found ∈ (run (serve augeas (RedHat.backend machine pathx) libxml) later
        (serve augeas (RedHat.backend machine pathx) libxml call before).2).1 → found = files) ∧
      (serve augeas (RedHat.backend machine pathx) libxml (.look []) (run (serve augeas (RedHat.backend machine pathx)
        libxml) later (serve augeas (RedHat.backend machine pathx) libxml call before).2).2).1 = .tree files :=
  saved_in_view (redhat_types augeas machine pathx) reachable lensed plain writes quiet

end Typed

section Examples

theorem forests_written_officeBridge :
    ∃ forest forest', RedHat.get countModulo (officeBridge unaddressed) = .ok forest ∧
      (∀ tree ∈ forest, WrittenOnce hashes tree.script) ∧
      Suse.get countModulo (officeBridge unaddressed) = .ok forest' ∧
        ∀ tree ∈ forest', ∀ script ∈ Suse.content tree, WrittenOnce hashes script :=
  ⟨_, _, rfl, (forests_written hashes countModulo (officeBridge unaddressed) _).1 rfl, rfl,
    (forests_written hashes countModulo (officeBridge unaddressed) _).2 rfl⟩

def legible (script : Script) : Bool :=
  decide (∀ entry ∈ script.entries, Typable hashes entry)

-- A disk of trees, of which the files that the lens cannot read are left out.
def legibleFiles : Augeas Scripts (Files Scripts) where
  read _ disk := { disk with config := disk.config.remove fun script => !legible script }
  write _ files := files

theorem legibleFiles_lensed (load : Entries) : Lensed (TypableFiles hashes) legibleFiles load where
  reads disk script member entry listed := by
    have kept : legible script = true := by simpa using (RedHat.mem_remove.mp member).2
    exact of_decide_eq_true kept entry listed
  writes disk files typed := by
    have same : files.config.remove (fun script => !legible script) = files.config := by
      apply RedHat.Scripts.eq_of_files
      refine List.filter_eq_self.mpr fun script member => ?_
      rw [Bool.not_not]
      exact decide_eq_true (typed script member)
    cases files
    simp only [legibleFiles] at same ⊢
    rw [same]

def card : Interface :=
  .ethernet unaddressed ⟨eth0, none⟩

def cardText : String :=
  "<interface type='ethernet' name='eth0'><start mode='onboot'/></interface>"

def noFiles : Files Scripts :=
  ⟨∅, [], []⟩

def beforeCard : Ncf Scripts (Files Scripts) :=
  reached legibleFiles (RedHat.backend countModulo RedHat.withinScripts) (.reading cardText card)
    RedHat.augeasXfmCommon noFiles [.look []]

-- The allocation of the netcf_if fails, after the save.
def lateFailure : Call :=
  .define cardText (List.replicate 24 false ++ [true])

theorem lateFailure_plain : ∀ text faults, lateFailure = .define text faults →
    ∀ document, (Libxml.reading cardText card).accepts text = some document → Plain document := by
  rintro _ _ ⟨⟩ document accepted
  rw [accepts_reading] at accepted
  cases accepted
  intro device listed
  rw [List.mem_singleton.mp listed]
  decide

theorem redhat_saved_in_view_card :
    ∃ files, TypableFiles hashes files.config ∧
      (serve legibleFiles (RedHat.backend countModulo RedHat.withinScripts) (.reading cardText card) lateFailure
        beforeCard).2.disk = legibleFiles.write beforeCard.disk files ∧
      (∀ found, .tree found ∈ (run (serve legibleFiles (RedHat.backend countModulo RedHat.withinScripts)
        (.reading cardText card)) [.look []] (serve legibleFiles (RedHat.backend countModulo RedHat.withinScripts)
          (.reading cardText card) lateFailure beforeCard).2).1 → found = files) ∧
      (serve legibleFiles (RedHat.backend countModulo RedHat.withinScripts) (.reading cardText card) (.look [])
        (run (serve legibleFiles (RedHat.backend countModulo RedHat.withinScripts) (.reading cardText card)) [.look []]
          (serve legibleFiles (RedHat.backend countModulo RedHat.withinScripts) (.reading cardText card) lateFailure
            beforeCard).2).2).1 = .tree files :=
  @redhat_saved_in_view _ hashes legibleFiles countModulo RedHat.withinScripts (.reading cardText card) noFiles
    [.look []] [.look []] lateFailure beforeCard rfl (legibleFiles_lensed _) lateFailure_plain (by decide +kernel)
    (by decide +kernel)

end Examples

end Netcf.Lenses
