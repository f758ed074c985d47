import Mathlib.Data.List.Sort
import Mathlib.Data.String.Basic
import Netcf.Linux.Frame
import Netcf.RedHat.Scripts

set_option autoImplicit false

-- drv_redhat.c.
namespace Netcf.RedHat

open Shared.Faulty Linux Schema Stylesheet

def augeasXfmCommon : Entries :=
  [("/augeas/load/Ifcfg/lens", "Sysconfig.lns"),
    ("/augeas/load/Ifcfg/incl", "/etc/sysconfig/network-scripts/ifcfg-*"),
    ("/augeas/load/Ifcfg/excl[1]", "*~"),
    ("/augeas/load/Ifcfg/excl[2]", "*.bak"),
    ("/augeas/load/Ifcfg/excl[3]", "*.orig"),
    ("/augeas/load/Ifcfg/excl[4]", "*.rpmnew"),
    ("/augeas/load/Ifcfg/excl[5]", "*.rpmorig"),
    ("/augeas/load/Ifcfg/excl[6]", "*.rpmsave"),
    ("/augeas/load/Ifcfg/excl[7]", "*.augnew"),
    ("/augeas/load/Ifcfg/excl[8]", "*.augsave"),
    ("/augeas/load/Modprobe/lens", "Modprobe.lns"),
    ("/augeas/load/Modprobe/incl[1]", "/etc/modprobe.d/*"),
    ("/augeas/load/Modprobe/incl[2]", "/etc/modprobe.conf"),
    ("/augeas/load/Modprobe/excl[1]", "*.augnew"),
    ("/augeas/load/Modprobe/excl[2]", "*.augsave"),
    ("/augeas/load/Modprobe/excl[3]", "*.rpmsave"),
    ("/augeas/load/Modprobe/excl[4]", "*.rpmnew"),
    ("/augeas/load/Modprobe/excl[5]", "*~"),
    ("/augeas/load/Sysfs/lens", "Netcf.id"),
    ("/augeas/load/Sysfs/incl", "/sys/class/net/*/address")]

variable {D : Type}

section Queries

variable (augeas : Augeas Scripts D)

def isBond (name : String) : Api Scripts D Bool :=
  augFmtMatch augeas fun files => files.config.files.any (·.has "MASTER" name)

def isBridge (name : String) : Api Scripts D Bool :=
  augFmtMatch augeas fun files =>
    files.config.files.any fun script => script.has "DEVICE" name && script.has "TYPE" "Bridge"

def bridgeSlaves (machine : Machine) (name : String) : Api Scripts D (List String) :=
  copySlaves machine augeas fun files => files.config.devices (·.has "BRIDGE" name)

end Queries

section Lookup

variable (augeas : Augeas Scripts D) (pathx : Pathx)

def strcaseeq (left right : String) : Bool :=
  left.toList.map Char.toLower = right.toList.map Char.toLower

def strcmpSort {α : Type} (key : α → String) (list : List α) : List α :=
  list.insertionSort fun left right => key left ≤ key right

def hwaddrs (scripts : Scripts) : List (String × Option String) :=
  scripts.files.flatMap fun script =>
    (script.shown.filter (·.2.label = "HWADDR")).map fun node =>
      (script.path ++ "/" ++ node.1, node.2.value)

-- The last match wins, and its path is cut by the length of /HWADDR.
def findIfcfgPathByHwaddr (mac : String) : Api Scripts D (Option String) := do
  getAugeas augeas
  let found ← augFmtMatch augeas fun files => hwaddrs files.config
  let addresses ← (strcmpSort (·.1) found).mapM fun node => return (node.1, ← augGet node.2)
  return (addresses.filter fun node => strcaseeq node.2 mac).getLast?.map fun node =>
    String.ofList (node.1.toList.take (node.1.length - "/HWADDR".length))

-- The files that match *[DEVICE = 'NAME'].
def devicePaths (name : String) (files : Files Scripts) : Option (List String) :=
  if '\'' ∈ name.toList then
    (pathx.find (networkScriptsPath ++ "/*[DEVICE = '" ++ name ++ "']") files).map fun found => found.map (·.1)
  else some ((files.config.files.filter (·.has "DEVICE" name)).map Script.path)

def findIfcfgPathByDevice (name : String) : Api Scripts D (Option String) := do
  getAugeas augeas
  let found ← augFmtFind augeas (devicePaths pathx name)
  return (strcmpSort id found).getLast?

-- The nodes of /files/sys/class/net/NAME/address/content.
def addressContents (name : String) (files : Files Scripts) : Option (List (Option String)) :=
  if StepName name then some ((files.sysfs.filter (·.1 = name)).map fun node => some node.2)
  else (pathx.find ("/files/sys/class/net/" ++ name ++ "/address/content") files).map fun found => found.map (·.2)

-- aug_get_mac behind its get_augeas, which has nothing to do in find_ifcfg_path.  aug_get fails on a path
-- with several matches.
def augGetMac (name : String) : Api Scripts D (Option (Option String)) := do
  attempt .nomem
  match ← augMatch (addressContents pathx name) with
  | some [] => pure none
  | some [content] => pure (some content)
  | _ => throw .other

def findIfcfgPath (name : String) : Api Scripts D (Option String) := do
  getAugeas augeas
  attempt .nomem
  let matched ← refusable (← augMatch (pathx.count (ifcfgPath name)))
  if matched = 1 then pure (some (ifcfgPath name))
  else
    match ← augGetMac pathx name with
    | none => findIfcfgPathByDevice augeas pathx name
    | some content =>
      match ← findIfcfgPathByHwaddr augeas (content.getD "") with
      | some path => pure (some path)
      | none => findIfcfgPathByDevice augeas pathx name

def uniqIfcfgPaths (devices : List (Option String)) : Api Scripts D (List (Option String)) := do
  getAugeas augeas
  attempt .nomem
  let names ← devices.mapM augGet
  let unique := strcmpSort id names.eraseDups
  attempt .nomem
  unique.mapM (findIfcfgPath augeas pathx)

-- Without a path the expression that aug_match is given is (null)/*, which it refuses.
def augGetTree (path : Option String) : Api Scripts D Tree := do
  match path with
  | none => throw .other
  | some path =>
    let found ← augFmtFind augeas (pathx.children path)
    let nodes ← found.mapM fun node => do
      attempt .other
      return (⟨node.1, node.2.getD ""⟩ : Node)
    return ⟨path, nodes⟩

def augGetXml (paths : List (Option String)) : Api Scripts D Forest := do
  getAugeas augeas
  paths.mapM (augGetTree augeas pathx)

def augGetXmlForNif (nif : NetcfIf) : Api Scripts D Forest := do
  let devices ← augFmtMatch augeas fun files => files.config.devices (files.config.related nif.name)
  let paths ← uniqIfcfgPaths augeas pathx devices
  augGetXml augeas pathx paths

end Lookup

section Changes

variable (augeas : Augeas Scripts D) (pathx : Pathx)

def removal (name : String) : Files Scripts → Option (Files Scripts) :=
  onScripts fun scripts => some (scripts.remove (scripts.related name))

def rmInterface (name : String) : Api Scripts D Unit := do
  getAugeas augeas
  attempt .nomem
  augUpdate .other (removal name)

def augPutTree (tree : Tree) : Api Scripts D Unit := do
  augUpdate .internal (pathx.augRm tree.path)
  tree.nodes.forM fun node => do
    attempt .nomem
    augUpdate .other (pathx.augSet tree.path node.label node.value)

def augPutXml (forest : Forest) : Api Scripts D Unit := do
  getAugeas augeas
  forest.forM (augPutTree pathx)

end Changes

def backend (machine : Machine) (pathx : Pathx) : Backend Scripts D Forest where
  get := get machine
  rmInterface := rmInterface
  augPutXml augeas := augPutXml augeas pathx
  isBond := isBond
  isBridge := isBridge
  bridgeSlaves augeas := bridgeSlaves augeas machine

section Kept

variable {augeas : Augeas Scripts D} {pathx : Pathx} {good : Ncf Scripts D → Prop}
  {allowed : (Files Scripts → Option (Files Scripts)) → Prop} (kept : Kept augeas good allowed)
include kept

theorem kept_rmInterface {name : String} (removes : allowed (removal name)) :
    Preserves good (rmInterface augeas name) :=
  kept.getAugeas.bind fun _ => (kept.attempt _).bind fun _ => kept.augUpdate _ _ removes

theorem kept_augPutTree {tree : Tree} (clears : allowed (pathx.augRm tree.path))
    (sets : ∀ label value, allowed (pathx.augSet tree.path label value)) :
    Preserves good (augPutTree pathx tree : Api Scripts D Unit) := by
  unfold augPutTree
  refine (kept.augUpdate .internal (pathx.augRm tree.path) clears).bind fun _ => preserves_forM (fun node => ?_) _
  exact (kept.attempt _).bind fun _ => kept.augUpdate _ _ (sets node.label node.value)

theorem kept_augPutXml {forest : Forest}
    (puts : ∀ tree ∈ forest, Preserves good (augPutTree pathx tree : Api Scripts D Unit)) :
    Preserves good (augPutXml augeas pathx forest) :=
  kept.getAugeas.bind fun _ => preserves_forM_mem puts

theorem backend_reads (machine : Machine) (pathx : Pathx) : (backend machine pathx).Reads augeas good where
  isBond _ := kept.augFmtMatch _
  isBridge _ := kept.augFmtMatch _
  bridgeSlaves _ := kept.copySlaves machine _

theorem backend_respects (machine : Machine) (pathx : Pathx) (allows : ∀ change, allowed change) :
    (backend machine pathx).Respects augeas good where
  toReads := backend_reads kept machine pathx
  rmInterface _ := kept_rmInterface kept (allows _)
  augPutXml _ := kept_augPutXml kept fun _ _ => kept_augPutTree kept (allows _) fun _ _ => allows _

end Kept

end Netcf.RedHat
