import Netcf.Linux.Naming
import Netcf.Debian.Undefine
import Netcf.Suse.Driver

set_option autoImplicit false

-- Under which name the drivers remove, write and report the interface that a document defines.
namespace Netcf.Suse

open Linux Schema

theorem elements_eq (document : Interface) :
    Dom.interfaceNames Dom.anywhere none (Dom.deviceNameFromXml document.toXml).2 = elements document := by
  have base : ∀ link, Dom.baseNames Dom.anywhere link = [some link.base.text] := fun _ => rfl
  have slaves : ∀ bond : BondElement, Dom.slaveNames bond = bond.names.map (·.map (·.text)) := by
    intro bond
    simp [Dom.slaveNames, BondElement.names]
  have ports : ∀ port : Port, Dom.portNames Dom.anywhere port = portElements port := by
    intro port
    cases port <;> simp [Dom.portNames, portElements, base, slaves, Port.names, Port.name, Port.slaveNames]
  rw [@Dom.interfaceNames_document Dom.anywhere fun _ _ => rfl, elements]
  congr 1
  cases document with
  | ethernet _ _ => rfl
  | vlan _ link => exact base link
  | bridge _ _ hub => exact List.flatMap_congr fun port _ => ports port
  | bond _ team => exact slaves team.bond

end Netcf.Suse

namespace Netcf.Debian

open Shared.Faulty Linux Schema Stylesheet

-- The entries for the root of a document, with those of the stylesheet's elements that are not for its ports.
def rootStanzas (document : Interface) (elements : List Element) : Interfaces :=
  autoStanzas document ++ ifaceStanzas elements

def Stanza.Carries (name : String) (stanza : Stanza) : Prop :=
  if stanza.label = "auto" then stanza.names = [name] else stanza.value = some name

section Root

variable {machine : Machine} {document : Interface} {elements : List Element}

theorem rootElements_eq {forest : Forest} (transforms : get machine document = .ok forest) :
    rootElements machine document = .ok (firstStanza machine document :: otherStanzas machine document) := by
  have shape := get_forest transforms
  cases result : rootElements machine document with
  | error e =>
    simp only [get, result] at transforms
    cases transforms
  | ok elements =>
    simp only [get, result] at transforms
    have same := (Except.ok.inj transforms).trans shape
    have arrays := List.append_cancel_left (Tree.mk.inj (List.cons.inj same).1).2
    have all : elements ++ portElements document = stanzas machine document :=
      (StanzaArray.mk.inj (List.cons.inj arrays).1).2
    rw [stanzas, ← List.cons_append] at all
    rw [List.append_cancel_right all]

theorem autoStanzas_carry : ∀ stanza ∈ autoStanzas document, stanza.Carries (nameText document.rootName) := by
  intro stanza member
  unfold autoStanzas autoArray at member
  split at member
  · rw [List.mem_singleton.mp member]
    simp [Stanza.Carries, Element.stanza, Stanza.names, Node.entry]
  · cases member

theorem rootStanzas_carry {name : String} :
    (∀ stanza ∈ rootStanzas document (firstStanza machine document :: otherStanzas machine document),
      stanza.Carries name) ↔ nameText document.rootName = name := by
  constructor
  · intro carry
    have first := carry ((firstStanza machine document).stanza "iface")
      (List.mem_append_right _ (List.mem_map_of_mem List.mem_cons_self))
    exact Option.some.inj first
  · rintro rfl stanza member
    rcases List.mem_append.mp member with auto | iface
    · exact autoStanzas_carry stanza auto
    · obtain ⟨element, inside, rfl⟩ := List.mem_map.mp iface
      exact root_keys inside

end Root

section Define

variable {D : Type} {augeas : Augeas Interfaces D} {machine : Machine} {document : Interface} {forest : Forest}
  {ncf start removed ready written saving after : Ncf Interfaces D}

-- What drv_define has put into the tree, whatever else happens outside.
theorem defining_config
    (defining : Defining augeas (backend machine) document forest ncf start removed ready written saving after) :
    ∃ kept files, Saved augeas ncf files after ∧ files.config = kept ++ (treeOf machine document).stanzas := by
  have trees : forest = [treeOf machine document] := get_forest defining.transforms
  subst trees
  obtain ⟨cleared, _, shown⟩ :=
    (implements_rmAll implements_rmInterface document).ok defining.loaded defining.removes
  obtain ⟨filled, filling, shown⟩ := (implements_augPutXml treeOf_filled).ok (defining.waits.loaded shown) defining.puts
  have reads := backend_reads (shows_kept augeas ncf.disk ncf.augeasXfmTables fun other => other.config = filled.config)
    machine
  obtain ⟨files, loaded, config⟩ := bondSetup_config reads shown defining.aliases
  cases filling
  rw [List.flatMap_singleton] at config
  exact ⟨cleared.config, files, defining.saves loaded, config⟩

end Define

end Netcf.Debian

namespace Netcf.Drivers

open Shared.Faulty Linux Schema Stylesheet

-- After every drv_define of the document on a Debian system that succeeds.
def WrittenAs (document : Interface) (name : String) : Prop :=
  ∀ {D : Type} (augeas : Augeas Debian.Interfaces D) (machine : Machine) (libxml : Libxml) (disk : D)
    (history : List Call) (text : String) (faults : List Bool) (nif : NetcfIf) (before after : Ncf Debian.Interfaces D),
    before = reached augeas (Debian.backend machine) libxml Debian.augeasXfmCommon disk history →
    libxml.accepts text = some document →
    drvDefine augeas (Debian.backend machine) libxml text (enter faults before) = .ok nif after →
    nif.name = name ∧ ∃ elements kept files, Debian.rootElements machine document = .ok elements ∧
      after.augeas = some ⟨entries before.augeasXfmTables, files⟩ ∧ after.disk = augeas.write before.disk files ∧
      files.config = kept ++ (Debian.rootStanzas document elements ++
        Debian.ifaceStanzas (Debian.portElements document)) ∧
      ∀ stanza ∈ Debian.rootStanzas document elements, stanza.Carries name

structure NameShared (document : Interface) (name : String) : Prop where
  returned : (Dom.deviceNameFromXml document.toXml).1 = some name
  filled : name ≠ ""
  set : Dom.xmlGetProp (Dom.deviceNameFromXml document.toXml).2 "name" = some name
  removed : ∀ wanted ∈ [Dom.outsideVlan, Dom.anywhere],
    (Dom.interfaceNames wanted none (Dom.deviceNameFromXml document.toXml).2).head? = some (some name)
  written : WrittenAs document name

theorem writtenAs_deviceName {document : Interface} {name : DeviceName} (named : document.rootName = some name) :
    WrittenAs document (deviceName document) := by
  intro D augeas machine libxml disk history text faults nif before after start accepted defined
  have registered : Registered before :=
    start ▸ registered_reached (Debian.backend_safe augeas machine) _ disk history
  obtain ⟨_, same, called, forest, _, _, _, _, _, defining, _⟩ := drvDefine_ok registered defined
  cases accepted.symm.trans same
  obtain ⟨kept, files, saved, config⟩ := Debian.defining_config defining
  have root : Debian.nameText document.rootName = deviceName document := by
    rw [deviceName_named named, named]
    rfl
  refine ⟨called, _, kept, files, Debian.rootElements_eq defining.transforms, saved.present, saved.disk, ?_,
    Debian.rootStanzas_carry.mpr root⟩
  rw [config, Debian.stanzas_treeOf, Debian.rootStanzas, Debian.stanzas, ← List.cons_append, List.append_assoc,
    Debian.ifaceStanzas, Debian.ifaceStanzas, List.map_append]
  rfl

-- C text: "set /interface/@name in NCF_XML to it. This way, other code can assume we always have a name".
theorem name_shared_iff (document : Interface) :
    (∃ name, NameShared document name) ↔ document.rootName.isSome = true := by
  constructor
  · rintro ⟨name, shared⟩
    cases named : document.rootName with
    | some root => rfl
    | none =>
      have set := shared.set
      rw [name_afterwards, named] at set
      exact absurd (Option.some.inj set).symm shared.filled
  · intro present
    obtain ⟨root, named⟩ := Option.isSome_iff_exists.mp present
    have known : (document.rootName.map (·.text)).getD "" = deviceName document := by
      rw [deviceName_named named, named]
      rfl
    refine ⟨deviceName document, ?_, deviceName_ne_empty document, ?_, ?_, writtenAs_deviceName named⟩
    · rw [deviceNameFromXml_eq]
    · rw [name_afterwards, known]
    · intro wanted listed
      have wide : ∀ parent, parent ≠ some "vlan" → wanted parent = true := by
        intro parent outside
        simp only [List.mem_cons, List.not_mem_nil, or_false] at listed
        rcases listed with rfl | rfl
        · simpa [Dom.outsideVlan] using outside
        · rfl
      rw [Dom.interfaceNames_document wide, known, List.head?_cons]

def namelessVlan : Interface := .vlan unaddressed { tagged with name := none }

def namelessText : String :=
  "<interface type='vlan'><start mode='onboot'/><vlan tag='5'><interface name='eth2'/></vlan></interface>"

def beforeNameless : Ncf Debian.Interfaces (Files Debian.Interfaces) :=
  reached Debian.direct (Debian.backend countModulo) (.reading namelessText namelessVlan) Debian.augeasXfmCommon
    Debian.home []

theorem nameless_vlan_misnamed :
    (Dom.deviceNameFromXml namelessVlan.toXml).1 = some "eth2.5" ∧
      Dom.xmlGetProp (Dom.deviceNameFromXml namelessVlan.toXml).2 "name" = some "" ∧
      ∃ nif after, drvDefine Debian.direct (Debian.backend countModulo) (.reading namelessText namelessVlan)
          namelessText (enter [] beforeNameless) = .ok nif after ∧ nif.name = "eth2.5" ∧
        after.disk.config = Debian.home.config ++
          [⟨"auto", none, [⟨"1", ""⟩]⟩,
            ⟨"iface", some "", [⟨"family", "inet"⟩, ⟨"method", "manual"⟩, ⟨"vlan_raw_device", "eth2"⟩]⟩] := by
  have called : answer (drvDefine Debian.direct (Debian.backend countModulo) (.reading namelessText namelessVlan)
      namelessText (enter [] beforeNameless)) = some ⟨"eth2.5"⟩ := by
    decide +kernel
  have config : (final (drvDefine Debian.direct (Debian.backend countModulo) (.reading namelessText namelessVlan)
      namelessText (enter [] beforeNameless))).disk.config = Debian.home.config ++
        [⟨"auto", none, [⟨"1", ""⟩]⟩,
          ⟨"iface", some "", [⟨"family", "inet"⟩, ⟨"method", "manual"⟩, ⟨"vlan_raw_device", "eth2"⟩]⟩] := by
    decide +kernel
  refine ⟨by decide +kernel, by decide +kernel, ?_⟩
  cases run : drvDefine Debian.direct (Debian.backend countModulo) (.reading namelessText namelessVlan) namelessText
      (enter [] beforeNameless) with
  | error e after =>
    rw [run] at called
    cases called
  | ok nif after =>
    rw [run] at called config
    exact ⟨nif, after, rfl, congrArg NetcfIf.name (Option.some.inj called), config⟩

end Netcf.Drivers
