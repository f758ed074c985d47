import Netcf.Suse.Store

set_option autoImplicit false

-- Which of the interfaces that drv_define has written drv_lookup_by_name finds again.
namespace Netcf.Suse

open Shared.Faulty Shared.Lists Linux Schema Stylesheet
open RedHat (Node Tree Forest Script labelled Addresses rootDevice memberDevices devices)

section Answers

variable {D : Type} {augeas : Augeas Network D} {host : Host} {disk : D} {tables : List (Option Entries)}
  {files : Files Network} {name : String}

theorem filter_stored (files : Files Network) (name : String) :
    files.config.files.files.filter (·.name = name) = (stored files name).toList := by
  cases found : stored files name with
  | none =>
    rw [Option.toList_none, List.filter_eq_nil_iff]
    exact List.find?_eq_none.mp found
  | some script =>
    have here : script.name = name := by simpa using List.find?_some found
    rw [Option.toList_some, ← here]
    exact filter_unique files.config.files.distinct (List.mem_of_find?_eq_some found)

def topLevel (script : Script) : Bool :=
  subifPaths.all fun label => (script.values label).isEmpty

theorem answers_isSlave_counted {count : String → Nat}
    (counts : ∀ label, host.countEntries name label files = some (count label)) :
    Answers (Loaded disk tables) Calm files (isSlave augeas host name)
      (subifPaths.any fun label => decide (count label ≠ 0)) := by
  have each : ∀ label, Answers (Loaded disk tables) Calm files
      (do return (← augFmtFind augeas (host.countEntries name label)) ≠ 0 : Api Network D Bool)
      (decide (count label ≠ 0)) :=
    fun label => (answers_augFmtFind (counts label)).bind (answers_pure _)
  exact answers_anyM fun label _ => each label

theorem answers_isSlave (plain : '/' ∉ name.toList) {script : Script}
    (present : stored files ("ifcfg-" ++ name) = some script) :
    Answers (Loaded disk tables) Calm files (isSlave augeas host name) (!topLevel script) := by
  have counts : ∀ label, host.countEntries name label files = some (script.values label).length := by
    intro label
    rw [Host.countEntries, if_neg plain, filter_stored, present]
    simp
  have all := @answers_isSlave_counted _ augeas host disk tables files name _ counts
  have same : (subifPaths.any fun label => decide ((script.values label).length ≠ 0)) = !topLevel script := by
    rw [topLevel, List.not_all_eq_any_not]
    congr 1
    funext label
    cases script.values label <;> rfl
  rwa [same] at all

theorem answers_drvLookupByName (plain : '/' ∉ name.toList) :
    Answers (Loaded disk tables) Calm files (drvLookupByName augeas host name)
      (if (stored files ("ifcfg-" ++ name)).any topLevel then some ⟨name⟩ else none) := by
  have counted : host.count name files = some (stored files ("ifcfg-" ++ name)).toList.length := by
    rw [Host.count, if_neg plain, List.countP_eq_length_filter, filter_stored]
  have path : Answers (Loaded disk tables) Calm files (findIfcfgPath augeas host name)
      (if (stored files ("ifcfg-" ++ name)).toList.length = 1 then some (Host.searchPath name) else none) := by
    refine answers_getAugeas.bind ((answers_attempt .nomem).bind (((implements_augMatch _).answers rfl).bind ?_))
    rw [counted]
    exact (answers_pure _).bind (answers_pure _)
  refine answers_getAugeas.bind (path.bind ?_)
  cases present : stored files ("ifcfg-" ++ name) with
  | none => exact answers_pure none
  | some script =>
    have made : Answers (Loaded disk tables) Calm files (makeNetcfIf name : Api Network D NetcfIf) ⟨name⟩ :=
      (answers_attempt .nomem).bind (answers_pure _)
    refine (answers_isSlave plain present).bind ?_
    rw [Option.any_some]
    cases topLevel script with
    | false => exact answers_pure none
    | true => exact (answers_attempt .nomem).bind (made.bind (answers_pure _))

end Answers

section Documents

variable {document : Interface}

-- An interface that is not made of others.
def single : Interface → Bool
  | .ethernet _ _ | .vlan _ _ => true
  | .bridge _ _ _ | .bond _ _ => false

-- The keys that tell a member are written into the file of what has members.
theorem rootTree_top {nodes : List Node} (addresses : Addresses nodes) (document : Interface) :
    (∀ label ∈ subifPaths, (rootTree nodes document).values label = []) ↔ single document = true := by
  have quiet : ∀ label ∈ subifPaths, labelled nodes label = [] := by
    intro label listed
    apply addresses.labelled
    revert label
    decide
  simp only [subifPaths, List.mem_cons, List.not_mem_nil, or_false, forall_eq_or_imp, forall_eq] at quiet ⊢
  have slaves : ∀ team, labelled (slaveNodes team) "BRIDGE" = [] := fun team => labelled_slaveNodes team (by decide)
  cases document <;>
    simp [Tree.values, rootTree, bareEthernetInterface, vlanInterfaceCommon, RedHat.bondingOptsNode, nameAttr, quiet,
      slaves, labelled_shared, single]

theorem rootTree_started (nodes : List Node) (document : Interface) :
    (rootTree nodes document).values "STARTMODE" ≠ [] := by
  cases document <;>
    simp [Tree.values, rootTree, bareEthernetInterface, vlanInterfaceCommon, nameAttr, shared]

theorem content_root {nodes : List Node} (addresses : Addresses nodes) (document : Interface) :
    (content (rootTree nodes document)).any topLevel = single document := by
  obtain ⟨script, written⟩ := content_some (by decide) (rootTree_started nodes document)
  have keys : ∀ label ∈ subifPaths, label ∉ remembered := by decide
  rw [written, Option.any_some, Bool.eq_iff_iff, ← rootTree_top addresses, topLevel, List.all_eq_true]
  refine forall₂_congr fun label listed => ?_
  rw [List.isEmpty_iff, content_values (keys label listed) written]

theorem refilled_root {machine : Machine} (apart : rootDevice document ∉ memberDevices document)
    (store : String → Option Script) :
    refilled (forestOf machine document) store ("ifcfg-" ++ rootDevice document) =
      content (rootTree (addressNodes machine document.common.addressing) document) := by
  have placed := rootTree_placed document (@addressNodes_addresses machine document.common.addressing)
  have others : ∀ tree ∈ memberTrees document, tree.file ≠ "ifcfg-" ++ rootDevice document := by
    intro tree member same
    obtain ⟨device, listed, here⟩ := memberTrees_placed member
    rw [Tree.file, here.device] at same
    exact apart (RedHat.file_injective same ▸ listed)
  change refilled (memberTrees document) (refill _ store) _ = _
  rw [refilled_other others, refill, Tree.file, placed.device, Function.update_self]

theorem mem_elements {name : Option String} (listed : name ∈ nameAttributes document) : name ∈ elements document := by
  cases document with
  | ethernet common nic => exact listed
  | bond common team => exact listed
  | vlan common link =>
    rcases List.mem_cons.mp listed with root | member
    · exact List.mem_cons.mpr (Or.inl root)
    · cases member
  | bridge common name hub =>
    rcases List.mem_cons.mp listed with root | member
    · exact List.mem_cons.mpr (Or.inl root)
    · apply List.mem_cons_of_mem
      obtain ⟨found, inside, rfl⟩ := List.mem_map.mp member
      obtain ⟨port, among, here⟩ := List.mem_flatMap.mp inside
      refine List.mem_flatMap.mpr ⟨port, among, ?_⟩
      cases port with
      | ethernet nic => exact List.mem_map_of_mem here
      | bond team => exact List.mem_map_of_mem here
      | vlan link =>
        rw [List.mem_singleton.mp here]
        exact List.mem_cons_self

end Documents

section Define

variable {D : Type} {augeas : Augeas Network D} {host : Host} {document : Interface} {disk : D}

theorem lookup_after_define_iff {libxml : Libxml} {history : List Call} {text : String} {faults : List Bool}
    {nif : NetcfIf} {before after : Ncf Network D}
    (reachable : before = reached augeas (backend host) libxml augeasXfmCommon disk history)
    (accepted : libxml.accepts text = some document) (vlans : ∀ link ∈ document.vlans, link.WellNamed)
    (plain : ∀ name, some name ∈ elements document → '/' ∉ name.toList)
    (defined : drvDefine augeas (backend host) libxml text (enter faults before) = .ok nif after) :
    ∃ files, after.augeas.map (·.files) = some files ∧ after.disk = augeas.write before.disk files ∧
      ∀ ncf, Quiet after.disk after.augeasXfmTables ncf files →
        (((∃ found, drvLookupByName augeas host nif.name ncf = .ok (some nif) found) ∧
            ∀ device, some device ∈ document.memberNames →
              ∃ found, drvLookupByName augeas host device.text ncf = .ok none found) ↔
          single document = true) := by
  have registered : Registered before := by
    rw [reachable]
    exact registered_reached (backend_safe augeas host) augeasXfmCommon disk history
  rcases drvDefine_ok registered defined with
    ⟨_, same, name, forest, start, removal, ready, filled, saving, defining, _⟩
  cases accepted.symm.trans same
  have names := RedHat.nameAttributes_devices vlans
  have files : ∀ device ∈ devices document, '/' ∉ device.toList := by
    intro device listed
    apply plain
    apply mem_elements
    rw [names]
    exact List.mem_map_of_mem listed
  obtain ⟨tree, saved, store⟩ := defining_store defining plain files
  have root : nif = ⟨rootDevice document⟩ := by
    cases nif
    rw [← RedHat.deviceName_root vlans, ← name]
  have lookup := fun name listed => @answers_drvLookupByName _ augeas host after.disk after.augeasXfmTables tree name
    (files name listed)
  have here := lookup (rootDevice document) List.mem_cons_self
  rw [store] at here
  refine ⟨tree, by rw [saved.present]; rfl, saved.disk, ?_⟩
  intro ncf quiet
  rw [root]
  constructor
  · rintro ⟨⟨found, looked⟩, members⟩
    by_cases apart : rootDevice document ∈ memberDevices document
    · -- A member of the root's own name would have to be found and not to be found.
      have texts : document.memberNames.map (·.map (·.text)) = (memberDevices document).map some :=
        (List.cons.inj names).2
      have listed := List.mem_map_of_mem (f := some) apart
      rw [← texts] at listed
      obtain ⟨member, inside, text⟩ := List.mem_map.mp listed
      obtain ⟨device, rfl, named⟩ := Option.map_eq_some_iff.mp text
      obtain ⟨other, missed⟩ := members device inside
      rw [named, looked] at missed
      cases missed
    · rw [refilled_root apart, content_root (addressNodes_addresses _)] at here
      have answer := (here.ok quiet.1 looked).1
      cases alone : single document with
      | true => rfl
      | false =>
        rw [alone] at answer
        cases answer
  · intro alone
    have none_inside : document.memberNames = [] ∧ memberDevices document = [] := by
      cases document with
      | ethernet common nic => exact ⟨rfl, rfl⟩
      | vlan common link => exact ⟨rfl, rfl⟩
      | bridge common name hub => cases alone
      | bond common team => cases alone
    rw [refilled_root (by simp [none_inside.2]), content_root (addressNodes_addresses _), alone] at here
    obtain ⟨found, looked, _⟩ := here.runs quiet.1 quiet.2
    exact ⟨⟨found, looked⟩, by simp [none_inside.1]⟩

end Define

section Examples

-- A disk that keeps the tree as it is, and a host without devices.
def direct : Augeas Network (Files Network) := ⟨fun _ disk => disk, fun _ files => files⟩

def bareHost : Host := ⟨countModulo, fun _ files => some files, fun _ _ _ => none, fun _ _ => some [], fun _ => none, false⟩

-- A card with a file of its own, and a rule for it.
def cabled : Files Network :=
  ⟨⟨⟨[⟨"ifcfg-eth2", [⟨"STARTMODE", some "auto"⟩, ⟨"BOOTPROTO", some "dhcp"⟩]⟩], by decide⟩,
    [⟨"eth2", [⟨"SUBSYSTEM", some "net"⟩]⟩], []⟩, [], []⟩

def vlanText : String :=
  "<interface type='vlan' name='eth2.5'><start mode='onboot'/><vlan tag='5'><interface name='eth2'/></vlan></interface>"

def beforeVlan : Ncf Network (Files Network) :=
  reached direct (backend bareHost) (.reading vlanText (.vlan unaddressed tagged)) augeasXfmCommon cabled []

theorem vlan_defined :
    ∃ nif after, drvDefine direct (backend bareHost) (.reading vlanText (.vlan unaddressed tagged)) vlanText
      (enter [] beforeVlan) = .ok nif after :=
  succeeds_ok (by decide +kernel)

theorem vlan_elements_plain (name : String) (listed : some name ∈ elements (.vlan unaddressed tagged)) :
    '/' ∉ name.toList := by
  have names : some name ∈ [some "eth2.5", some "eth2"] := listed
  have plain : ∀ name ∈ ["eth2.5", "eth2"], '/' ∉ name.toList := by decide
  exact plain name (by simpa using names)

theorem vlan_found_again :
    ∃ nif after, drvDefine direct (backend bareHost) (.reading vlanText (.vlan unaddressed tagged)) vlanText
        (enter [] beforeVlan) = .ok nif after ∧
      ∃ files, after.disk = files ∧ ∀ ncf, Quiet after.disk after.augeasXfmTables ncf files →
        ∃ found, drvLookupByName direct bareHost nif.name ncf = .ok (some nif) found := by
  obtain ⟨nif, after, defined⟩ := vlan_defined
  have vlans : ∀ link ∈ (Interface.vlan unaddressed tagged).vlans, link.WellNamed := by
    intro link listed
    rw [List.mem_singleton.mp listed]
    decide
  rcases lookup_after_define_iff rfl (accepts_reading _ _) vlans vlan_elements_plain defined with
    ⟨files, _, saved, lookup⟩
  exact ⟨nif, after, defined, files, saved, fun ncf quiet => ((lookup ncf quiet).mpr rfl).1⟩

-- Whether the interface that drv_define returns is found by its name, and which of its members are.
def foundAgain (text : String) (document : Interface) : Option (Bool × List Bool) :=
  match drvDefine direct (backend bareHost) (.reading text document) text (enter [] (fresh augeasXfmCommon cabled)) with
  | .error _ _ => none
  | .ok nif after =>
    let looked := fun name => match drvLookupByName direct bareHost name (enter [] after) with
      | .ok found _ => found.isSome
      | .error _ _ => false
    some (looked nif.name, document.memberNames.reduceOption.map fun device => looked device.text)

def portText : String :=
  "<interface type='bridge' name='br0'><start mode='onboot'/><bridge><interface type='ethernet' name='eth0'/>" ++
  "</bridge></interface>"

def portBridge : Interface := .bridge unaddressed br0 ⟨none, none, [.ethernet ⟨eth0, none⟩]⟩

-- The bridge is taken for a member, and its port for an interface of its own.
theorem bridge_not_found : foundAgain portText portBridge = some (false, [true]) := by
  decide +kernel

end Examples

end Netcf.Suse
