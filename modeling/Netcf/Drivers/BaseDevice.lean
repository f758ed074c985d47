import Netcf.RedHat.Listing
import Netcf.RedHat.Untouched
import Netcf.Drivers.Redefine
import Netcf.Suse.Lookup

set_option autoImplicit false

-- What becomes of the settings of a device when a vlan over it is defined.
namespace Netcf.RedHat

open Shared.Lists Linux Schema Stylesheet

section Files

variable {scripts : Scripts} {base : String} {script : Script}

-- The file of a device, which is at most one.
def ownFiles (scripts : Scripts) (base : String) : List Script :=
  scripts.files.filter (·.name = "ifcfg-" ++ base)

theorem ownFiles_listed (own : script.name = "ifcfg-" ++ base) :
    ownFiles scripts base = [script] ↔ script ∈ scripts.files := by
  constructor
  · intro same
    have member : script ∈ ownFiles scripts base := same ▸ List.mem_singleton_self script
    exact List.mem_of_mem_filter member
  · intro member
    rw [ownFiles, ← own]
    exact filter_unique scripts.distinct member

theorem ownFiles_single (present : ownFiles scripts base ≠ []) :
    ∃ script, ownFiles scripts base = [script] ∧ script ∈ scripts.files ∧ script.name = "ifcfg-" ++ base := by
  obtain ⟨script, member⟩ := List.exists_mem_of_ne_nil _ present
  obtain ⟨listed, own⟩ := List.mem_filter.mp member
  exact ⟨script, (ownFiles_listed (of_decide_eq_true own)).mpr listed, listed, of_decide_eq_true own⟩

end Files

section Define

variable {D : Type} {augeas : Augeas Scripts D} {machine : Machine} {pathx : Pathx} {document : Interface}
  {forest : Forest} {ncf start removed ready written saving after : Ncf Scripts D} {script : Script} {base : String}

theorem nameAttributes_unnamed (unnamed : document.rootName = none) : nameAttributes document = [some ""] := by
  cases document with
  | vlan common link =>
    change link.name = none at unnamed
    simp [nameAttributes, Interface.memberNames, Interface.rootName, unnamed]
  | ethernet common nic => cases unnamed
  | bridge common name hub => cases unnamed
  | bond common team => cases unnamed

-- For a root without a name the files are removed that are related to the empty name.
theorem removeAll_unrelated_iff {scripts : Scripts} (member : script ∈ scripts.files)
    (unrelated : ∀ device, some device ∈ document.names → scripts.related device.text script = false) :
    script ∈ (scripts.removeAll (nameAttributes document).reduceOption).files ↔
      (document.rootName = none → scripts.related "" script = false) := by
  cases root : document.rootName with
  | none =>
    rw [nameAttributes_unnamed root]
    change script ∈ (scripts.removeRelated "").files ↔ _
    rw [Scripts.removeRelated, mem_remove]
    simp [member]
  | some device =>
    simp only [reduceCtorEq, false_implies, iff_true]
    refine removeAll_keeps member fun name listed => ?_
    rcases mem_nameAttributes (List.reduceOption_mem_iff.mp listed) with ⟨device, inside, rfl⟩ | ⟨unnamed, _⟩
    · exact unrelated device inside
    · rw [root] at unnamed
      cases unnamed

theorem defining_keeps_iff
    (defining : Defining augeas (backend machine pathx) document forest ncf start removed ready written saving after)
    (member : script ∈ (loadedTree augeas ncf).config.files) (own : script.name = "ifcfg-" ++ base)
    (apart : base ∉ devices document) (plain : ∀ device ∈ devices document, '/' ∉ device.toList)
    (unrelated : ∀ device, some device ∈ document.names →
      (loadedTree augeas ncf).config.related device.text script = false) :
    ∃ files, Saved augeas ncf files after ∧ (script ∈ files.config.files ↔
      (document.rootName = none → (loadedTree augeas ncf).config.related "" script = false)) := by
  have other : ∀ tree ∈ forestOf machine document, tree.file ≠ script.name := by
    intro tree inside same
    rw [own] at same
    exact apart (file_injective same ▸ mem_devices inside)
  obtain ⟨files, saved, final⟩ := defining_written defining plain
  refine ⟨files, saved, ?_⟩
  rw [← removeAll_unrelated_iff member unrelated]
  constructor
  · intro still
    rcases final.origin script still with old | ⟨tree, inside, rfl⟩
    · exact old
    · exact absurd rfl (other tree inside)
  · intro old
    apply final.kept script old
    intro listed
    obtain ⟨tree, inside, same⟩ := List.mem_map.mp listed
    exact other tree inside same

end Define

end Netcf.RedHat

namespace Netcf.Debian

open Shared.Faulty Linux Schema Stylesheet

section Define

variable {D : Type} {augeas : Augeas Interfaces D} {machine : Machine} {document : Interface} {names : List String}
  {base : String}

theorem owned_configures {stanza : Stanza} (own : configures base stanza = true) :
    owned names stanza = true ↔ base ∈ names := by
  simp only [configures, Bool.and_eq_true, decide_eq_true_eq] at own
  constructor
  · intro taken
    obtain ⟨name, listed, holds⟩ := List.any_eq_true.mp taken
    have same : base = name := by simpa [leads, configures, own.1, own.2] using holds
    exact same ▸ listed
  · intro listed
    exact owned_of_configures listed (by simp [configures, own.1, own.2])

theorem configured_unowned (other : base ∉ names) (interfaces : Interfaces) :
    configured (without (owned names) interfaces) base = configured interfaces base := by
  rw [configured, configured, without, List.filter_filter]
  apply List.filter_congr
  intro stanza _
  cases own : configures base stanza with
  | false => rfl
  | true =>
    have free : owned names stanza = false := by
      rw [← Bool.not_eq_true, owned_configures own]
      exact other
    rw [free]
    rfl

theorem configured_stanzas (named : nameAttributes document = names.map some) (other : base ∉ names) :
    configured (treeOf machine document).stanzas base = [] := by
  rw [configured, List.filter_eq_nil_iff]
  intro stanza member own
  exact other ((owned_configures own).mp (owned_stanzas named member))

theorem defining_configured {forest : Forest} {ncf start removed ready written saving after : Ncf Interfaces D}
    (defining : Defining augeas (backend machine) document forest ncf start removed ready written saving after)
    (other : some base ∉ nameAttributes document) :
    ∃ files, Saved augeas ncf files after ∧
      configured files.config base = configured (loadedTree augeas ncf).config base := by
  have trees : forest = [treeOf machine document] := get_forest defining.transforms
  subst trees
  rcases (implements_rmAll implements_rmInterface document).ok defining.loaded defining.removes with
    ⟨cleared, clearing, shown⟩
  have named := rmModel_named clearing
  rw [named, rmModel_ok] at clearing
  cases clearing
  rcases (implements_augPutXml treeOf_filled).ok (defining.waits.loaded shown) defining.puts with
    ⟨filled, filling, shown⟩
  cases filling
  rcases bondSetup_config (backend_reads (shows_kept augeas _ _ _) machine) shown defining.aliases with
    ⟨aliased, shown, same⟩
  refine ⟨aliased, defining.saves shown, ?_⟩
  have apart : base ∉ (nameAttributes document).reduceOption :=
    fun listed => other (List.reduceOption_mem_iff.mp listed)
  rw [same, List.flatMap_singleton, configured, List.filter_append]
  change configured _ base ++ configured _ base = _
  rw [configured_stanzas named apart, List.append_nil]
  exact configured_unowned apart _

end Define

end Netcf.Debian

namespace Netcf.Suse

open Shared.Faulty Linux Schema Stylesheet
open RedHat (Script devices ownFiles)

section Elements

variable {document : Interface} {link : BareVlan}

theorem base_mem_elements (member : link ∈ document.vlans) : some link.base.text ∈ elements document := by
  apply List.mem_cons_of_mem
  cases document with
  | ethernet common nic => cases member
  | bond common team => cases member
  | vlan common other =>
    rw [List.mem_singleton.mp member]
    exact List.mem_singleton_self _
  | bridge common name hub =>
    obtain ⟨port, among, inside⟩ := List.mem_flatMap.mp member
    refine List.mem_flatMap.mpr ⟨port, among, ?_⟩
    cases port with
    | ethernet nic => cases inside
    | bond team => cases inside
    | vlan other =>
      rw [List.mem_singleton.mp inside]
      exact List.mem_cons_of_mem _ (List.mem_singleton_self _)

theorem elements_cases {name : String} (listed : some name ∈ elements document) :
    some name ∈ nameAttributes document ∨ ∃ link ∈ document.vlans, link.base.text = name := by
  rcases List.mem_cons.mp listed with root | member
  · exact Or.inl (List.mem_cons.mpr (Or.inl root))
  cases document with
  | ethernet common nic => exact Or.inl (List.mem_cons_of_mem _ member)
  | bond common team => exact Or.inl (List.mem_cons_of_mem _ member)
  | vlan common link => exact Or.inr ⟨link, List.mem_singleton_self link, by simpa [memberElements, eq_comm] using member⟩
  | bridge common root hub =>
    obtain ⟨port, among, inside⟩ := List.mem_flatMap.mp member
    have own : ∀ other ∈ port.names, other.map (·.text) = some name →
        some name ∈ nameAttributes (.bridge common root hub) := by
      intro other here same
      rw [← same]
      exact List.mem_cons_of_mem _ (List.mem_map_of_mem (List.mem_flatMap.mpr ⟨port, among, here⟩))
    cases port with
    | ethernet nic =>
      obtain ⟨other, here, same⟩ := List.mem_map.mp inside
      exact Or.inl (own other here same)
    | bond team =>
      obtain ⟨other, here, same⟩ := List.mem_map.mp inside
      exact Or.inl (own other here same)
    | vlan link =>
      rcases List.mem_cons.mp inside with same | base
      · exact Or.inl (own link.name (List.mem_singleton_self _) same.symm)
      · refine Or.inr ⟨link, List.mem_flatMap.mpr ⟨.vlan link, among, List.mem_singleton_self link⟩, ?_⟩
        simpa [eq_comm] using base

theorem deviceName_mem_devices (member : link ∈ document.vlans) : link.deviceName ∈ devices document := by
  cases document with
  | ethernet common nic => cases member
  | bond common team => cases member
  | vlan common other =>
    rw [List.mem_singleton.mp member]
    exact List.mem_cons_self
  | bridge common name hub =>
    obtain ⟨port, among, inside⟩ := List.mem_flatMap.mp member
    refine List.mem_cons_of_mem _ (List.mem_flatMap.mpr ⟨port, among, ?_⟩)
    cases port with
    | ethernet nic => cases inside
    | bond team => cases inside
    | vlan other =>
      rw [List.mem_singleton.mp inside]
      exact List.mem_cons_self

theorem elements_plain (names : ∀ device, some device ∈ document.names → '/' ∉ device.text.toList)
    (plain : ∀ device ∈ devices document, '/' ∉ device.toList) {name : String} (listed : some name ∈ elements document) :
    '/' ∉ name.toList := by
  rcases elements_cases listed with attr | ⟨link, member, rfl⟩
  · rcases RedHat.mem_nameAttributes attr with ⟨device, inside, rfl⟩ | ⟨_, rfl⟩
    · exact names device inside
    · decide
  · have whole := plain _ (deviceName_mem_devices member)
    intro slash
    apply whole
    rw [BareVlan.deviceName, String.toList_append, String.toList_append]
    exact List.mem_append_left _ (List.mem_append_left _ slash)

end Elements

-- rm_all_interfaces removes the file of the base too, since the element below vlan is an interface
-- element like the others, and nothing writes it again.
theorem defining_removes_base {D : Type} {augeas : Augeas Network D} {host : Host} {document : Interface}
    {forest : RedHat.Forest} {ncf start removal ready filled saving after : Ncf Network D} {link : BareVlan}
    (defining : Defining augeas (backend host) document forest ncf start removal ready filled saving after)
    (names : ∀ device, some device ∈ document.names → '/' ∉ device.text.toList)
    (plain : ∀ device ∈ devices document, '/' ∉ device.toList)
    (member : link ∈ document.vlans) (apart : link.base.text ∉ devices document) :
    ∃ files, Saved augeas ncf files after ∧ ownFiles files.config.files link.base.text = [] := by
  obtain ⟨files, saved, store⟩ := defining_store defining (fun _ listed => elements_plain names plain listed) plain
  refine ⟨files, saved, ?_⟩
  have others : ∀ tree ∈ forestOf host.machine document, tree.file ≠ "ifcfg-" ++ link.base.text := by
    intro tree inside same
    exact apart (RedHat.file_injective same ▸ (forestOf_placed inside).2)
  rw [ownFiles, filter_stored, store, refilled_other others, cleared_element (base_mem_elements member)]
  rfl

end Netcf.Suse

namespace Netcf.Drivers

open Shared.Faulty Linux Schema Stylesheet

section BaseDevice

variable {C D F S : Type} [EmptyCollection C]

-- When a document with a vlan over a device that the document does not configure has been defined, the settings of
-- that device are what they were just if the condition holds, provided that it had any and that they are free of
-- the document's interfaces.
def LeavesBaseIff (augeas : Augeas C D) (backend : Backend C D F) (table : Entries) (settings : C → String → List S)
    (free condition : C → Interface → String → Prop) : Prop :=
  ∀ (libxml : Libxml) (disk : D) (history : List Call) (text : String) (faults : List Bool) (document : Interface)
    (link : BareVlan) (nif : NetcfIf) (before after : Ncf C D),
    before = reached augeas backend libxml table disk history →
    libxml.accepts text = some document → link ∈ document.vlans →
    (∀ device, some device ∈ document.names → device.text ≠ link.base.text) →
    link.base.text ∉ RedHat.devices document →
    settings (treeOnDisk augeas before).config link.base.text ≠ [] →
    free (treeOnDisk augeas before).config document link.base.text →
    drvDefine augeas backend libxml text (enter faults before) = .ok nif after →
    ∃ files, after.augeas.map (·.files) = some files ∧ after.disk = augeas.write before.disk files ∧
      (settings files.config link.base.text = settings (treeOnDisk augeas before).config link.base.text ↔
        condition (treeOnDisk augeas before).config document link.base.text)

-- It is enough to look at the steps of drv_define that change the tree.
theorem leavesBaseIff_of_defining {augeas : Augeas C D} {backend : Backend C D F} {table : Entries}
    {settings : C → String → List S} {free condition : C → Interface → String → Prop} (safe : backend.Safe augeas)
    (steps : ∀ {document : Interface} {link : BareVlan} {forest : F}
      {before start removed ready written saving after : Ncf C D},
      Defining augeas backend document forest before start removed ready written saving after →
      link ∈ document.vlans → (∀ device, some device ∈ document.names → device.text ≠ link.base.text) →
      link.base.text ∉ RedHat.devices document →
      settings (treeOnDisk augeas before).config link.base.text ≠ [] →
      free (treeOnDisk augeas before).config document link.base.text →
      ∃ files, Saved augeas before files after ∧
        (settings files.config link.base.text = settings (treeOnDisk augeas before).config link.base.text ↔
          condition (treeOnDisk augeas before).config document link.base.text)) :
    LeavesBaseIff augeas backend table settings free condition := by
  intro libxml disk history text faults document link nif before after reachable accepted member names apart present
    isFree defined
  have registered : Registered before := by
    rw [reachable]
    exact registered_reached safe table disk history
  obtain ⟨_, same, _, _, _, _, _, _, _, defining, _⟩ := drvDefine_ok registered defined
  cases accepted.symm.trans same
  obtain ⟨files, saved, kept⟩ := steps defining member names apart present isFree
  exact ⟨files, by rw [saved.present]; rfl, saved.disk, kept⟩

end BaseDevice

-- The file of the device is about none of the document's interfaces, and is no slave of one of them,
-- nor of a bond that one of them has as a port.
structure Unenslaved (scripts : RedHat.Scripts) (document : Interface) (base : String) : Prop where
  plain : ∀ device ∈ RedHat.devices document, '/' ∉ device.toList
  unrelated : ∀ script ∈ RedHat.ownFiles scripts base, ∀ device, some device ∈ document.names →
    scripts.related device.text script = false

-- A root without a name is given the empty one, which a file may have as its master or bridge.
def FreeOfEmptyName (scripts : RedHat.Scripts) (document : Interface) (base : String) : Prop :=
  document.rootName = none → ∀ script ∈ RedHat.ownFiles scripts base, scripts.related "" script = false

def PlainNames (document : Interface) : Prop :=
  (∀ device, some device ∈ document.names → '/' ∉ device.text.toList) ∧
    ∀ device ∈ RedHat.devices document, '/' ∉ device.toList

theorem vlan_leaves_base_iff {D E G : Type} (scripts : Augeas RedHat.Scripts D) (interfaces : Augeas Debian.Interfaces E)
    (network : Augeas Suse.Network G) (machine : Machine) (pathx : RedHat.Pathx) (host : Suse.Host) :
    LeavesBaseIff scripts (RedHat.backend machine pathx) RedHat.augeasXfmCommon RedHat.ownFiles Unenslaved FreeOfEmptyName ∧
      LeavesBaseIff interfaces (Debian.backend machine) Debian.augeasXfmCommon Debian.configured
        (fun _ _ _ => True) (fun _ _ _ => True) ∧
      LeavesBaseIff network (Suse.backend host) Suse.augeasXfmCommon (fun config => RedHat.ownFiles config.files)
        (fun _ document _ => PlainNames document) (fun _ _ _ => False) := by
  refine ⟨leavesBaseIff_of_defining (RedHat.backend_safe scripts machine pathx) ?_,
    leavesBaseIff_of_defining (Debian.backend_safe interfaces machine) ?_,
    leavesBaseIff_of_defining (Suse.backend_safe network host) ?_⟩
  · rintro document link forest before start removed ready written saving after defining member names apart present
      ⟨plain, free⟩
    obtain ⟨script, only, listed, own⟩ := RedHat.ownFiles_single present
    rw [only] at free
    rcases RedHat.defining_keeps_iff defining listed own apart plain (free script (List.mem_singleton_self script)) with
      ⟨files, saved, kept⟩
    refine ⟨files, saved, ?_⟩
    rw [only, RedHat.ownFiles_listed own, kept, FreeOfEmptyName, only]
    simp only [List.mem_singleton, forall_eq]
    rfl
  · intro document link forest before start removed ready written saving after defining member names apart present _
    have other : some link.base.text ∉ nameAttributes document := by
      intro listed
      rcases RedHat.mem_nameAttributes listed with ⟨device, inside, same⟩ | ⟨_, empty⟩
      · exact names device inside same
      · exact (Debian.name_word link.base).2 empty
    obtain ⟨files, saved, same⟩ := Debian.defining_configured defining other
    exact ⟨files, saved, iff_true_intro same⟩
  · rintro document link forest before start removed ready written saving after defining member names apart present
      ⟨texts, plain⟩
    obtain ⟨files, saved, gone⟩ := Suse.defining_removes_base defining texts plain member apart
    refine ⟨files, saved, ?_⟩
    simp only [iff_false]
    intro same
    exact present (same.symm.trans gone)

section Examples

def cardScript : RedHat.Script := ⟨"ifcfg-eth2", [⟨"DEVICE", some "eth2"⟩, ⟨"BOOTPROTO", some "dhcp"⟩]⟩

def cardTree : Files RedHat.Scripts := ⟨⟨[cardScript], by decide⟩, [], []⟩

def taggedVlan : Interface := .vlan unaddressed tagged

theorem vlan_defined_redhat :
    ∃ nif after, drvDefine RedHat.direct (RedHat.backend countModulo RedHat.withinScripts)
      (.reading Suse.vlanText taggedVlan) Suse.vlanText (enter [] (reached RedHat.direct
        (RedHat.backend countModulo RedHat.withinScripts) (.reading Suse.vlanText taggedVlan) RedHat.augeasXfmCommon
        cardTree [])) = .ok nif after :=
  succeeds_ok (by decide +kernel)

theorem card_unenslaved : Unenslaved cardTree.config taggedVlan "eth2" where
  plain := by decide
  unrelated := by
    have names : ∀ name ∈ taggedVlan.names, ∀ device ∈ name, cardTree.config.related device.text cardScript = false := by
      decide +kernel
    intro script listed device inside
    have own : script ∈ [cardScript] := listed
    rw [List.mem_singleton.mp own]
    exact names (some device) inside device rfl

-- The Red Hat driver leaves the card as it was.
theorem vlan_leaves_card :
    ∃ nif after, drvDefine RedHat.direct (RedHat.backend countModulo RedHat.withinScripts)
        (.reading Suse.vlanText taggedVlan) Suse.vlanText (enter [] (reached RedHat.direct
          (RedHat.backend countModulo RedHat.withinScripts) (.reading Suse.vlanText taggedVlan) RedHat.augeasXfmCommon
          cardTree [])) = .ok nif after ∧ RedHat.ownFiles after.disk.config "eth2" = [cardScript] := by
  obtain ⟨nif, after, defined⟩ := vlan_defined_redhat
  have leaves := (vlan_leaves_base_iff RedHat.direct (⟨fun _ disk => disk, fun _ files => files⟩) Suse.direct countModulo
    RedHat.withinScripts Suse.bareHost).1
  have apart : ∀ device, some device ∈ taggedVlan.names → device.text ≠ "eth2" := by
    intro device listed
    have only : some device ∈ [some eth2Tagged] := listed
    cases List.mem_singleton.mp only
    decide
  rcases leaves _ cardTree [] Suse.vlanText [] taggedVlan tagged nif _ after rfl (accepts_reading _ _)
    (List.mem_singleton_self _) apart (by decide) (by decide +kernel) card_unenslaved defined with
    ⟨files, _, saved, kept⟩
  refine ⟨nif, after, defined, ?_⟩
  rw [show after.disk = files from saved]
  exact kept.mpr nofun

-- The SUSE driver removes its file.
theorem vlan_takes_card :
    RedHat.ownFiles Suse.cabled.config.files "eth2" ≠ [] ∧
      (match drvDefine Suse.direct (Suse.backend Suse.bareHost) (.reading Suse.vlanText taggedVlan) Suse.vlanText
          (enter [] (fresh Suse.augeasXfmCommon Suse.cabled)) with
        | .ok _ after => some (RedHat.ownFiles after.disk.config.files "eth2")
        | .error _ _ => none) = some [] := by
  decide +kernel

end Examples

end Netcf.Drivers
