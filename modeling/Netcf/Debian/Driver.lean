import Netcf.Linux.Frame
import Netcf.Linux.Atomicity
import Netcf.Debian.Interfaces

set_option autoImplicit false

-- drv_debian.c.
namespace Netcf.Debian

open Shared.Faulty Linux Schema Stylesheet

def augeasXfmCommon : Entries :=
  [("/augeas/load/Interfaces/lens", "Interfaces.lns"),
    ("/augeas/load/Interfaces/incl", "/etc/network/interfaces"),
    ("/augeas/load/Interfaces/excl[1]", "*~"),
    ("/augeas/load/Interfaces/excl[2]", "*.bak"),
    ("/augeas/load/Interfaces/excl[3]", "*.orig"),
    ("/augeas/load/Interfaces/excl[4]", "*.rpmnew"),
    ("/augeas/load/Interfaces/excl[5]", "*.rpmorig"),
    ("/augeas/load/Interfaces/excl[6]", "*.rpmsave"),
    ("/augeas/load/Interfaces/excl[7]", "*.augnew"),
    ("/augeas/load/Interfaces/excl[8]", "*.augsave"),
    ("/augeas/load/Interfaces/excl[9]", "*.dpkg-dist"),
    ("/augeas/load/Interfaces/excl[10]", "*.dpkg-new"),
    ("/augeas/load/Interfaces/excl[11]", "*.dpkg-old"),
    ("/augeas/load/Modprobe/lens", "Modprobe.lns"),
    ("/augeas/load/Modprobe/incl[1]", "/etc/modprobe.d/*"),
    ("/augeas/load/Modprobe/incl[2]", "/etc/modprobe.conf"),
    ("/augeas/load/Modprobe/excl[1]", "*.augnew"),
    ("/augeas/load/Modprobe/excl[2]", "*.augsave"),
    ("/augeas/load/Modprobe/excl[3]", "*.rpmsave"),
    ("/augeas/load/Modprobe/excl[4]", "*.rpmnew"),
    ("/augeas/load/Modprobe/excl[5]", "*~"),
    ("/augeas/load/Modprobe/excl[6]", "*.dpkg-dist"),
    ("/augeas/load/Modprobe/excl[7]", "*.dpkg-new"),
    ("/augeas/load/Modprobe/excl[8]", "*.dpkg-old"),
    ("/augeas/load/Sysfs/lens", "Netcf.id"),
    ("/augeas/load/Sysfs/incl", "/sys/class/net/*/address")]

variable {D : Type}

section Queries

variable (augeas : Augeas Interfaces D)

def isBond (name : String) : Api Interfaces D Bool :=
  augFmtMatch augeas fun files => bonded files.config name

def isBridge (name : String) : Api Interfaces D Bool :=
  augFmtMatch augeas fun files => bridging files.config name

def copyDependents (devs : String) : Api Interfaces D (List String) := do
  attempt .other
  (dependents devs).mapM fun dev => do
    attempt .nomem
    attempt .nomem
    return dev

def interfaceDeps (label name : String) : Api Interfaces D (List String) := do
  getAugeas augeas
  attempt .nomem
  let found ← augMatch fun files => listed files.config name label
  return (← found.mapM copyDependents).flatten

-- interface_deps for any path expression.
def matchedDeps (query : Interfaces → List String) : Api Interfaces D (List String) := do
  getAugeas augeas
  attempt .nomem
  let found ← augMatch fun files => query files.config
  return (← found.mapM copyDependents).flatten

def bridgePorts (name : String) : Api Interfaces D (List String) :=
  interfaceDeps augeas "bridge_ports" name

def bondSlaves (name : String) : Api Interfaces D (List String) :=
  interfaceDeps augeas "bond_slaves" name

end Queries

section Description

variable (augeas : Augeas Interfaces D)

def augGetStanza (name : String) (stanza : Stanza) : Api Interfaces D Element := do
  let _ ← flaky
  let found ← augFmtMatch augeas fun _ => shown stanza
  let nodes ← found.mapM fun node => do
    attempt .other
    return node
  return ⟨some name, nodes⟩

def augGetXmlForIntf (name : String) : Api Interfaces D (List Element) := do
  getAugeas augeas
  let intf ← augFmtMatch augeas fun files => configured files.config name
  intf.mapM (augGetStanza augeas name)

def augGetXmlForAll (names : List String) : Api Interfaces D (List Element) := do
  return (← names.mapM (augGetXmlForIntf augeas)).flatten

def augGetXmlForPort (port : String) : Api Interfaces D (List Element) := do
  let own ← augGetXmlForIntf augeas port
  let slaves ← bondSlaves augeas port
  return own ++ (← augGetXmlForAll augeas slaves)

def augGetXmlForMembers (name : String) : Api Interfaces D (List Element) := do
  if ← isBond augeas name then
    augGetXmlForAll augeas (← bondSlaves augeas name)
  else if ← isBridge augeas name then
    return (← (← bridgePorts augeas name).mapM (augGetXmlForPort augeas)).flatten
  else
    return []

-- One auto stanza of anybody is enough for an array with the name of this interface.
def augGetXml (nif : NetcfIf) : Api Interfaces D Forest := do
  let auto ← augFmtMatch augeas fun files => hasAuto files.config
  let own ← augGetXmlForIntf augeas nif.name
  let members ← augGetXmlForMembers augeas nif.name
  return [⟨networkInterfacesPath,
    (if auto then [⟨"auto", [⟨none, [⟨none, nif.name⟩]⟩]⟩] else []) ++ [⟨"iface", own ++ members⟩]⟩]

def drvXmlDesc (machine : Machine) (nif : NetcfIf) : Api Interfaces D (List Shared.Xml) := do
  let forest ← augGetXml augeas nif
  attempt .nomem
  attempt .nomem
  attempt .nomem
  return put machine forest

end Description

section Changes

variable (augeas : Augeas Interfaces D)

def rmInterface (name : String) : Api Interfaces D Unit := do
  augFmtUpdate augeas (onInterfaces (without (leads name)))
  augFmtUpdate augeas (onInterfaces (without (configures name)))

def augPutElement (label : String) (n : Nat) (element : Element) : Api Interfaces D Unit := do
  element.key.toList.forM fun key => augFmtUpdate augeas (onInterfaces (setKey label n key))
  element.nodes.forM fun node => augFmtUpdate augeas (onInterfaces (addNode label n node))

-- The position of the last element is read off its path.
def augPutArray (array : StanzaArray) : Api Interfaces D Unit := do
  let last ← augFmtMatch augeas fun files => files.config.countP (·.label = array.label)
  (array.elements.zipIdx (last + 1)).forM fun place => augPutElement augeas array.label place.2 place.1

def augPutXml (forest : Forest) : Api Interfaces D Unit :=
  forest.forM fun tree => tree.arrays.forM (augPutArray augeas)

end Changes

def backend (machine : Machine) : Backend Interfaces D Forest where
  get := get machine
  rmInterface := rmInterface
  augPutXml := augPutXml
  isBond := isBond
  isBridge := isBridge
  bridgeSlaves := bridgePorts

section Kept

variable {augeas : Augeas Interfaces D} {good : Ncf Interfaces D → Prop}
  {allowed : (Files Interfaces → Option (Files Interfaces)) → Prop} (kept : Kept augeas good allowed)
include kept

theorem kept_interfaceDeps (label name : String) : Preserves good (interfaceDeps augeas label name) := by
  have each : ∀ devs, Preserves good (copyDependents devs : Api Interfaces D (List String)) :=
    fun devs => (kept.attempt _).bind fun _ => preserves_mapM (fun _ =>
      (kept.attempt _).bind fun _ => (kept.attempt _).bind fun _ => preserves_pure _) _
  exact kept.getAugeas.bind fun _ => (kept.attempt _).bind fun _ => (kept.augMatch _).bind fun found =>
    (preserves_mapM each found).bind fun _ => preserves_pure _

theorem kept_augFmtUpdate {change : Files Interfaces → Option (Files Interfaces)} (allows : allowed change) :
    Preserves good (augFmtUpdate augeas change) :=
  kept.getAugeas.bind fun _ => (kept.attempt _).bind fun _ => kept.augUpdate _ _ allows

theorem backend_reads (machine : Machine) : (backend machine).Reads augeas good where
  isBond _ := kept.augFmtMatch _
  isBridge _ := kept.augFmtMatch _
  bridgeSlaves name := kept_interfaceDeps kept _ name

theorem backend_respects (machine : Machine) (allows : ∀ f, allowed (onInterfaces f)) :
    (backend machine).Respects augeas good where
  toReads := backend_reads kept machine
  rmInterface _ := (kept_augFmtUpdate kept (allows _)).bind fun _ => kept_augFmtUpdate kept (allows _)
  augPutXml forest := by
    have element : ∀ label n element, Preserves good (augPutElement augeas label n element) :=
      fun label n element =>
        (preserves_forM (fun key => kept_augFmtUpdate kept (allows _)) _).bind fun _ =>
          preserves_forM (fun node => kept_augFmtUpdate kept (allows _)) _
    exact preserves_forM (fun tree => preserves_forM (fun array => (kept.augFmtMatch _).bind fun last =>
      preserves_forM (fun place => element _ _ _) _) _) forest

end Kept

theorem backend_safe (augeas : Augeas Interfaces D) (machine : Machine) : (backend machine).Safe augeas :=
  fun disk tables => backend_respects (sound_kept augeas disk tables) machine fun _ => trivial

end Netcf.Debian
