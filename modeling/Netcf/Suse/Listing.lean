import Mathlib.Data.List.Sort
import Mathlib.Data.String.Basic
import Netcf.Shared.Loops
import Netcf.Linux.Listing
import Netcf.Suse.Lookup

set_option autoImplicit false

-- drv_list_interfaces and drv_num_of_interfaces of drv_suse.c, which look into the directory itself.
namespace Netcf.Suse

open Shared.Faulty Shared.Loops Linux
open RedHat (Script)

structure Dirent where
  name : String
  regular : Bool
  plain : '/' ∉ name.toList

def Dirent.isIfcfg (ent : Dirent) : Bool :=
  ent.regular && "ifcfg-".toList.isPrefixOf ent.name.toList

def Dirent.interface (ent : Dirent) : String :=
  String.ofList (ent.name.toList.drop "ifcfg-".length)

section Driver

variable {D : Type} (augeas : Augeas Network D) (host : Host) (dir : List Dirent) (isActive : String → Bool)

-- The directory is read once to count and once more for the names.
def findIfcfgFiles : Api Network D (List String) := do
  attempt .other
  attempt .other
  attempt .nomem
  let intf ← (dir.filter Dirent.isIfcfg).mapM fun ent => do
    attempt .nomem
    return ent.interface
  return intf.insertionSort (· ≤ ·)

def listInterfaces : Api Network D (List String) := do
  getAugeas augeas
  let intf ← findIfcfgFiles dir
  sieve (isSlave augeas host) 0 intf

def listInterfaceIds (maxnames : Option Nat) (flags : BitVec 32) : Api Network D (Nat × List String) := do
  getAugeas augeas
  Linux.listInterfaceIds isActive (fun name => pure (some name)) flags (listInterfaces augeas host dir) maxnames

def drvListInterfaces (maxnames : Nat) (flags : BitVec 32) : Api Network D (List String) := do
  return (← listInterfaceIds augeas host dir isActive (some maxnames) flags).2

def drvNumOfInterfaces (flags : BitVec 32) : Api Network D Nat := do
  return (← listInterfaceIds augeas host dir isActive none flags).1

end Driver

section Answers

variable {D : Type} {augeas : Augeas Network D} {host : Host} {disk : D} {tables : List (Option Entries)}
  {files : Files Network} {dir : List Dirent}

-- A file that Augeas has not loaded is no slave's.
def enslaved (files : Files Network) (name : String) : Bool :=
  (stored files ("ifcfg-" ++ name)).any fun script => !topLevel script

theorem answers_enslaved {name : String} (plain : '/' ∉ name.toList) :
    Answers (Loaded disk tables) Calm files (isSlave augeas host name) (enslaved files name) := by
  unfold enslaved
  cases present : stored files ("ifcfg-" ++ name) with
  | some script => exact answers_isSlave plain present
  | none =>
    have counts : ∀ label, host.countEntries name label files = some 0 := by
      intro label
      rw [Host.countEntries, if_neg plain, filter_stored, present]
      rfl
    exact answers_isSlave_counted counts

def dirNames (dir : List Dirent) : List String :=
  ((dir.filter Dirent.isIfcfg).map Dirent.interface).insertionSort (· ≤ ·)

theorem dirNames_plain {name : String} (member : name ∈ dirNames dir) : '/' ∉ name.toList := by
  obtain ⟨ent, _, rfl⟩ := List.mem_map.mp ((List.mem_insertionSort _).mp member)
  intro inside
  rw [Dirent.interface, String.toList_ofList] at inside
  exact ent.plain (List.mem_of_mem_drop inside)

def topIds (dir : List Dirent) (files : Files Network) : List String :=
  (dirNames dir).filter fun name => !enslaved files name

theorem answers_listInterfaces :
    Answers (Loaded disk tables) Calm files (listInterfaces augeas host dir) (topIds dir files) := by
  have found : Answers (Loaded disk tables) Calm files (findIfcfgFiles dir : Api Network D (List String))
      (dirNames dir) :=
    (answers_attempt .other).bind ((answers_attempt .other).bind ((answers_attempt .nomem).bind
      ((answers_mapM fun ent _ => (answers_attempt .nomem).bind (answers_pure ent.interface)).bind (answers_pure _))))
  exact answers_getAugeas.bind (found.bind (answers_sieve fun name member => answers_enslaved (dirNames_plain member)))

theorem suse_delivers (isActive : String → Bool) {ncf : Ncf Network D} (quiet : Quiet disk tables ncf files) :
    FilterThenTruncate (listInterfaceIds augeas host dir isActive) (drvNumOfInterfaces augeas host dir isActive)
      (drvListInterfaces augeas host dir isActive) isActive (topIds dir files) ncf := by
  have listing := @answers_listInterfaces _ augeas host disk tables files dir
  exact filterThenTruncate quiet
    (fun flags maxnames => answers_getAugeas.bind (answers_listNames listing flags maxnames))
    (fun flags => answers_getAugeas.bind (answers_countNames listing flags)) (fun _ => rfl) (fun _ _ => rfl)

end Answers

end Netcf.Suse
