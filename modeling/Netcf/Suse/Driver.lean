import Netcf.Linux.Atomicity
import Netcf.RedHat.Scripts
import Netcf.Suse.Stylesheets

set_option autoImplicit false

-- drv_suse.c: its changes of the configuration, and its look-up of a name.
namespace Netcf.Suse

open Shared.Faulty Shared.Lists Linux Schema Stylesheet
open RedHat (Script Scripts)

def augeasXfmCommon : Entries :=
  [("/augeas/load/Persist_Net_Rules/lens", "Persist_Net_Rules.lns"),
    ("/augeas/load/Persist_Net_Rules/incl", "/etc/udev/rules.d/70-persistent-net.rules"),
    ("/augeas/load/Persist_Net_Rules/excl[1]", "*.augnew"),
    ("/augeas/load/Persist_Net_Rules/excl[2]", "*.augsave"),
    ("/augeas/load/Persist_Net_Rules/excl[3]", "*.rpmsave"),
    ("/augeas/load/Persist_Net_Rules/excl[4]", "*.rpmnew"),
    ("/augeas/load/Persist_Net_Rules/excl[5]", "*~"),
    ("/augeas/load/Routes/lens", "Routes.lns"),
    ("/augeas/load/Routes/incl", "/etc/sysconfig/network/routes"),
    ("/augeas/load/Routes/excl[1]", "*.augnew"),
    ("/augeas/load/Routes/excl[2]", "*.augsave"),
    ("/augeas/load/Routes/excl[3]", "*.rpmsave"),
    ("/augeas/load/Routes/excl[4]", "*.rpmnew"),
    ("/augeas/load/Routes/excl[5]", "*~"),
    ("/augeas/load/Ifcfg/lens", "Sysconfig.lns"),
    ("/augeas/load/Ifcfg/incl", "/etc/sysconfig/network/ifcfg-*"),
    ("/augeas/load/Ifcfg/excl[1]", "*~"),
    ("/augeas/load/Ifcfg/excl[2]", "*.bak"),
    ("/augeas/load/Ifcfg/excl[3]", "*.orig"),
    ("/augeas/load/Ifcfg/excl[4]", "*.rpmnew"),
    ("/augeas/load/Ifcfg/excl[5]", "*.rpmorig"),
    ("/augeas/load/Ifcfg/excl[6]", "*.rpmsave"),
    ("/augeas/load/Ifcfg/excl[7]", "*.augnew"),
    ("/augeas/load/Ifcfg/excl[8]", "*.augsave"),
    ("/augeas/load/Modprobe/lens", "Modprobe.lns"),
    ("/augeas/load/Modprobe/incl[1]", "/etc/modprobe.d/*"),
    ("/augeas/load/Modprobe/incl[2]", "/etc/modprobe.conf"),
    ("/augeas/load/Modprobe/excl[1]", "*.augnew"),
    ("/augeas/load/Modprobe/excl[2]", "*.augsave"),
    ("/augeas/load/Modprobe/excl[3]", "*.rpmsave"),
    ("/augeas/load/Modprobe/excl[4]", "*.rpmnew"),
    ("/augeas/load/Modprobe/excl[5]", "*~"),
    ("/augeas/load/Sysfs/lens", "Netcf.id"),
    ("/augeas/load/Sysfs/incl", "/sys/class/net/*/address")]

-- The ifcfg files of /etc/sysconfig/network, the udev rules and the routes.  A rule or a route is
-- here the label of its node with what stands below it.
structure Network where
  files : Scripts
  rules : List Script
  routes : List Script
  deriving DecidableEq

instance : EmptyCollection Network := ⟨⟨∅, [], []⟩⟩

-- What the driver finds around it: Augeas on paths that do not lead to a node of the above (where a path that is
-- no expression is refused), the answers of SIOCGIFHWADDR, and the macro OS113.
structure Host where
  machine : Machine
  rm : String → Files Network → Option (Files Network)
  set : String → String → Files Network → Option (Files Network)
  find : String → Files Network → Option (List String)
  hwaddr : String → Option String
  os113 : Bool

def onFiles (f : Scripts → Option Scripts) (files : Files Network) : Option (Files Network) :=
  (f files.config.files).map fun scripts => { files with config := { files.config with files := scripts } }

def onRules (f : List Script → Option (List Script)) (files : Files Network) : Option (Files Network) :=
  (f files.config.rules).map fun rules => { files with config := { files.config with rules := rules } }

def onRoutes (f : List Script → Option (List Script)) (files : Files Network) : Option (Files Network) :=
  (f files.config.routes).map fun routes => { files with config := { files.config with routes := routes } }

-- aug_set of NAME/LABEL, where nodes of one name may occur several times.
def setBelow (name label value : String) (nodes : List Script) : Option (List Script) :=
  let set := (nodes.filter (·.name = name)).flatMap (·.values label)
  if set.length = 1 ∨ set = [] ∧ nodes.countP (·.name = name) = 1 then
    some (alter (fun node => node.name = name ∧ (set = [] ∨ node.values label ≠ [])) (·.assign label value) nodes)
  else if nodes.countP (·.name = name) = 0 then some (nodes ++ [⟨name, [⟨label, some value⟩]⟩])
  else none

-- aug_rm of NAME[PLACE + 1].
def removeNth (name : String) : Nat → List Script → List Script
  | _, [] => []
  | place, node :: rest =>
    if node.name = name then
      match place with
      | 0 => rest
      | place + 1 => node :: removeNth name place rest
    else node :: removeNth name place rest

namespace Host

variable (host : Host)

-- The label below network that a path leads to.
def scriptLabel (path : String) : Option String :=
  let label := path.toList.drop (networkPath.length + 1)
  if path = networkPath ++ "/" ++ String.ofList label ∧ '/' ∉ label ∧
      label ≠ [] ∧ label ≠ ['.'] ∧ label ≠ ['.', '.'] then some (String.ofList label)
  else none

def augRm (path : String) : Files Network → Option (Files Network) :=
  match scriptLabel path with
  | some name => onFiles fun scripts => some (scripts.remove (·.name = name))
  | none => host.rm path

def augSet (path label value : String) : Files Network → Option (Files Network) :=
  match scriptLabel path with
  | some name => onFiles fun scripts => scripts.set name label value
  | none => host.set (path ++ "/" ++ label) value

-- The two slashes search all levels below /files, of which only one goes on like this.
def searchPath (name : String) : String :=
  "/files//etc/sysconfig/network/ifcfg-" ++ name

def rmFile (name : String) : Files Network → Option (Files Network) :=
  if '/' ∈ name.toList then host.rm (searchPath name)
  else onFiles fun scripts => some (scripts.remove (·.name = "ifcfg-" ++ name))

def count (name : String) (files : Files Network) : Option Nat :=
  if '/' ∈ name.toList then (host.find (searchPath name) files).map List.length
  else some (files.config.files.files.countP (·.name = "ifcfg-" ++ name))

def countEntries (name label : String) (files : Files Network) : Option Nat :=
  if '/' ∈ name.toList then (host.find (ifcfgPath name ++ "/" ++ label) files).map List.length
  else some ((files.config.files.files.filter (·.name = "ifcfg-" ++ name)).flatMap (·.values label)).length

def bridging (name : String) (files : Files Network) : Option Bool :=
  if '/' ∈ name.toList then
    (host.find (ifcfgPath name ++ "[ BRIDGE = 'yes' ]") files).map fun paths => !paths.isEmpty
  else some (files.config.files.files.any fun script =>
    decide (script.name = "ifcfg-" ++ name) && script.has "BRIDGE" "yes")

-- The removals of the rules NAME, in the order of the rules.  A path must not end in a slash, and the
-- steps . and .. lead to the file of the rules and to its directory.
def ruleRemovals (name : String) (files : Files Network) : Option (List (Files Network → Option (Files Network))) :=
  if name = "" then none
  else if name = "." ∨ name = ".." then some [onRules fun _ => some []]
  else if '/' ∈ name.toList then
    (host.find ("/files//etc/udev/rules.d/70-persistent-net.rules/" ++ name) files).map (·.map host.rm)
  else some ((List.range (files.config.rules.countP (·.name = name))).map fun place =>
    onRules fun rules => some (removeNth name place rules))

def setRule (device key value : String) : Files Network → Option (Files Network) :=
  if '/' ∈ device.toList then
    host.set ("/files/etc/udev/rules.d/70-persistent-net.rules/" ++ device ++ "/" ++ key) value
  else onRules (setBelow device key value)

end Host

variable {D : Type}

-- The interface elements of the document, those below vlan included.
def portElements : Port → List (Option String)
  | .vlan link => [link.name.map (·.text), some link.base.text]
  | .ethernet nic => (Port.ethernet nic).names.map (·.map (·.text))
  | .bond team => (Port.bond team).names.map (·.map (·.text))

def memberElements : Interface → List (Option String)
  | .vlan _ link => [some link.base.text]
  | .bridge _ _ hub => hub.ports.flatMap portElements
  | .ethernet common nic => (Interface.ethernet common nic).memberNames.map (·.map (·.text))
  | .bond common team => (Interface.bond common team).memberNames.map (·.map (·.text))

def elements (document : Interface) : List (Option String) :=
  some ((document.rootName.map (·.text)).getD "") :: memberElements document

section Queries

variable (augeas : Augeas Network D) (host : Host)

def isBond (name : String) : Api Network D Bool :=
  augFmtMatch augeas fun files => files.config.files.files.any (·.has "BONDING_MASTER" name)

def isBridge (name : String) : Api Network D Bool :=
  augFmtFind augeas (host.bridging name)

-- As in the Red Hat driver, from which this function is copied.
def bridgeSlaves (machine : Machine) (name : String) : Api Network D (List String) :=
  copySlaves machine augeas fun files => files.config.files.devices (·.has "BRIDGE" name)

def subifPaths : List String := ["BONDING_MASTER", "BRIDGE"]

def isSlave (name : String) : Api Network D Bool :=
  subifPaths.anyM fun label => return (← augFmtFind augeas (host.countEntries name label)) ≠ 0

def findIfcfgPath (name : String) : Api Network D (Option String) := do
  getAugeas augeas
  attempt .nomem
  let matched ← refusable (← augMatch (host.count name))
  return if matched = 1 then some (Host.searchPath name) else none

def drvLookupByName (name : String) : Api Network D (Option NetcfIf) := do
  getAugeas augeas
  match ← findIfcfgPath augeas host name with
  | none => return none
  | some _ =>
    if ← isSlave augeas host name then return none
    else
      attempt .nomem
      return some (← makeNetcfIf name)

end Queries

section Changes

variable (augeas : Augeas Network D) (host : Host)

-- The results of the second aug_rm are not checked.
def rmInterface (name : String) : Api Network D Unit := do
  getAugeas augeas
  attempt .nomem
  augUpdate .other (host.rmFile name)
  let removals ← (augFmtFind augeas (host.ruleRemovals name)).adaptExcept fun _ => .internal
  removals.reverse.forM fun removal => ignoring () (augUpdate .other removal)

def remembered : List String := ["DEVICE", "HWADDR", "GATEWAY"]

def augPutTree (tree : RedHat.Tree) : Api Network D Unit := do
  augUpdate .internal (host.augRm tree.path)
  (tree.nodes.filter fun node => decide (node.label ∉ remembered)).forM fun node => do
    attempt .nomem
    augUpdate .other (host.augSet tree.path node.label node.value)

-- What the loop over the nodes remembers.
structure Noted where
  device : Option String
  mac : Option String
  gateway : Option String
  ethphysical : Bool
  toplevel : Bool

def Noted.initial : Noted := ⟨none, none, none, false, true⟩

def Noted.next (noted : Noted) (node : RedHat.Node) : Noted :=
  let noted := { noted with toplevel := noted.toplevel && node.label ≠ "BRIDGE" && node.label ≠ "BONDING_MASTER" }
  if node.label = "DEVICE" then
    { noted with
      device := some node.value
      ethphysical := noted.ethphysical || ('.' ∉ node.value.toList && "eth".toList.isPrefixOf node.value.toList) }
  else if node.label = "HWADDR" then { noted with mac := some node.value }
  else if node.label = "GATEWAY" then { noted with gateway := some node.value }
  else noted

def augPutRoute (device gateway : String) : Api Network D Unit :=
  [("gateway", gateway), ("netmask", "-"), ("device", device)].forM fun entry => do
    attempt .nomem
    augUpdate .other (onRoutes (setBelow "default" entry.1 entry.2))

def ruleEntries (mac : String) : List (String × String) :=
  [("SUBSYSTEM", "net"), ("ACTION", "add"), ("DRIVERS", "?*"), ("ATTR\x7baddress\x7d", mac)] ++
    (if host.os113 then [("ATTR\x7bdev_id\x7d", "0x0")] else []) ++ [("ATTR\x7btype\x7d", "1"), ("KERNEL", "eth*")]

def augPutRule (device mac : String) : Api Network D Unit :=
  (ruleEntries host mac).forM fun entry => do
    attempt .nomem
    augUpdate .other (host.setRule device entry.1 entry.2)

def augPutNoted (noted : Noted) : Api Network D Unit :=
  match noted.device with
  | none => pure ()
  | some device => do
    onlyIf (noted.ethphysical && noted.toplevel) do
      noted.gateway.toList.forM (augPutRoute device)
      (noted.mac.or (host.hwaddr device)).toList.forM (augPutRule host device)

def augPutXml (forest : RedHat.Forest) : Api Network D Unit := do
  getAugeas augeas
  forest.forM (augPutTree host)
  augPutNoted host ((forest.flatMap (·.nodes)).foldl Noted.next Noted.initial)

end Changes

def backend (host : Host) : Backend Network D RedHat.Forest where
  get := get host.machine
  rmInterface augeas := rmInterface augeas host
  augPutXml augeas := augPutXml augeas host
  isBond := isBond
  isBridge augeas := isBridge augeas host
  bridgeSlaves augeas := bridgeSlaves augeas host.machine
  mentioned := elements

section Kept

variable {augeas : Augeas Network D} {host : Host} {good : Ncf Network D → Prop}
  {allowed : (Files Network → Option (Files Network)) → Prop} (kept : Kept augeas good allowed)
include kept

theorem kept_ruleRemovals (name : String) :
    Preserves good ((augFmtFind augeas (host.ruleRemovals name)).adaptExcept fun _ => Errcode.internal) := by
  intro ncf before
  have after := kept.augFmtFind (host.ruleRemovals name) ncf before
  unfold EStateM.adaptExcept
  cases run : augFmtFind augeas (host.ruleRemovals name) ncf <;> rw [run] at after <;> exact after

theorem backend_reads (host : Host) : (backend host).Reads augeas good where
  isBond _ := kept.augFmtMatch _
  isBridge _ := kept.augFmtFind _
  bridgeSlaves _ := kept.copySlaves host.machine _

theorem kept_entries {change : String → String → Files Network → Option (Files Network)}
    (allows : ∀ label value, allowed (change label value)) (entries : List (String × String)) :
    Preserves good (entries.forM fun entry => do
      attempt .nomem
      augUpdate .other (change entry.1 entry.2) : Api Network D Unit) :=
  preserves_forM (fun _ => (kept.attempt _).bind fun _ => kept.augUpdate _ _ (allows _ _)) entries

theorem kept_augPutNoted {noted : Noted} (routes : ∀ label value, allowed (onRoutes (setBelow "default" label value)))
    (rules : ∀ device ∈ noted.device, ∀ key value, allowed (host.setRule device key value)) :
    Preserves good (augPutNoted host noted : Api Network D Unit) := by
  unfold augPutNoted
  cases present : noted.device with
  | none => exact preserves_pure _
  | some device =>
    refine preserves_onlyIf _ ((preserves_forM (fun gateway => ?_) _).bind fun _ => preserves_forM (fun mac => ?_) _)
    · exact kept_entries kept routes _
    · exact kept_entries kept (rules device present) _

theorem backend_respects (host : Host) (allows : ∀ change, allowed change) :
    (backend host).Respects augeas good where
  toReads := backend_reads kept host
  rmInterface name := kept.getAugeas.bind fun _ => (kept.attempt _).bind fun _ =>
    (kept.augUpdate _ _ (allows _)).bind fun _ => (kept_ruleRemovals kept name).bind fun _ =>
      preserves_forM (fun _ => preserves_ignoring _ (kept.augUpdate _ _ (allows _))) _
  augPutXml _ := by
    refine kept.getAugeas.bind fun _ => (preserves_forM (fun tree => ?_) _).bind fun _ =>
      kept_augPutNoted kept (fun _ _ => allows _) fun _ _ _ _ => allows _
    exact (kept.augUpdate _ _ (allows _)).bind fun _ => preserves_forM (fun _ =>
      (kept.attempt _).bind fun _ => kept.augUpdate _ _ (allows _)) _

end Kept

theorem backend_safe (augeas : Augeas Network D) (host : Host) : (backend host).Safe augeas :=
  fun disk tables => backend_respects (sound_kept augeas disk tables) host fun _ => trivial

end Netcf.Suse
