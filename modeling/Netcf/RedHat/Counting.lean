import Netcf.Linux.Listing
import Netcf.RedHat.Listing

set_option autoImplicit false

-- list_interface_ids of drv_redhat.c with and without an array.
namespace Netcf.RedHat

open Shared.Faulty Linux

def Flags.ofBits (flags : BitVec 32) : Flags :=
  ⟨flags &&& ifaceActive != 0, flags &&& ifaceInactive != 0⟩

theorem qualified_ofBits (isActive : String → Bool) (flags : BitVec 32) :
    qualified isActive (.ofBits flags) = isQualified isActive flags := by
  funext name
  unfold qualified isQualified Flags.ofBits
  dsimp only
  rw [active_bit, inactive_bit, both_bits]

section Driver

variable {D : Type} (augeas : Augeas Scripts D) (pathx : Pathx) (isActive : String → Bool)

-- The value of the last DEVICE of a file, if it has one.
def deviceId (path : Option String) : Api Scripts D (Option String) := do
  let found ← augFmtFind augeas (labelledAt pathx (path.getD "(null)") "DEVICE")
  match found.getLast? with
  | none => pure none
  | some value => return some (← augGet value)

def listInterfaceIds (maxnames : Option Nat) (flags : BitVec 32) : Api Scripts D (Nat × List String) := do
  getAugeas augeas
  Linux.listInterfaceIds isActive (deviceId augeas pathx) flags (listInterfaces augeas pathx) maxnames

def drvNumOfInterfaces (flags : BitVec 32) : Api Scripts D Nat := do
  return (← listInterfaceIds augeas pathx isActive none flags).1

theorem collectIds_eq (flags : BitVec 32) (room : Nat) (paths : List (Option String)) :
    collectIds augeas pathx isActive (.ofBits flags) room paths = do
      return (← collectNames isActive (deviceId augeas pathx) true flags room paths).2 := by
  induction paths generalizing room with
  | nil => cases room <;> rfl
  | cons path rest ih =>
    cases room with
    | zero => rfl
    | succ room =>
      unfold collectIds collectNames
      rw [deviceId, bind_assoc, bind_assoc]
      congr 1
      funext found
      cases found.getLast? with
      | none => exact ih (room + 1)
      | some value =>
        dsimp only
        rw [bind_assoc]
        congr 1
        funext name
        rw [qualified_ofBits, pure_bind]
        dsimp only
        cases isQualified isActive flags name with
        | false => exact ih (room + 1)
        | true =>
          rw [if_pos rfl, ih]
          simp [onlyIf]

theorem drvListInterfaces_eq (maxnames : Nat) (flags : BitVec 32) :
    drvListInterfaces augeas pathx isActive maxnames (.ofBits flags) = do
      return (← listInterfaceIds augeas pathx isActive (some maxnames) flags).2 := by
  unfold drvListInterfaces listInterfaceIds Linux.listInterfaceIds
  simp [collectIds_eq]

end Driver

section Answers

variable {D : Type} {augeas : Augeas Scripts D} {pathx : Pathx} {disk : D} {tables : List (Option Entries)}
  {files : Files Scripts}

theorem answers_deviceId {path : Option String} (answered : AnsweredAt pathx files (path.getD "(null)")) :
    Answers (Loaded disk tables) Calm files (deviceId augeas pathx path) (reportedName pathx files path) := by
  obtain ⟨values, found⟩ := Option.isSome_iff_exists.mp (answered.labels "DEVICE" List.mem_cons_self)
  have valued := answered.valued
  rw [found, Option.getD_some] at valued
  refine (answers_augFmtFind found).bind ?_
  rw [reportedName, found, Option.getD_some]
  cases last : values.getLast? with
  | none => exact answers_pure _
  | some value =>
    cases value with
    | none => exact absurd (List.mem_of_getLast? last) valued
    | some name => exact (answers_augGet name).bind (answers_pure _)

-- The names of the top-level interfaces, in the order of their device names.
def topIds (pathx : Pathx) (files : Files Scripts) : List String :=
  (topPaths pathx files).filterMap (reportedName pathx files)

theorem redhat_delivers (intact : Intact pathx files) (isActive : String → Bool) {ncf : Ncf Scripts D}
    (quiet : Quiet disk tables ncf files) :
    FilterThenTruncate (listInterfaceIds augeas pathx isActive) (drvNumOfInterfaces augeas pathx isActive)
      (fun maxnames flags => drvListInterfaces augeas pathx isActive maxnames (.ofBits flags)) isActive
      (topIds pathx files) ncf := by
  have listing := @answers_listInterfaces _ augeas _ disk tables _ intact
  have each := fun path (listed : path ∈ topPaths pathx files) =>
    @answers_deviceId _ augeas pathx disk tables files path (intact.answered listed)
  exact filterThenTruncate quiet
    (fun flags maxnames => answers_getAugeas.bind (answers_listInterfaceIds listing each flags maxnames))
    (fun flags => answers_getAugeas.bind (answers_count listing each flags)) (fun _ => rfl)
    (drvListInterfaces_eq augeas pathx isActive)

end Answers

end Netcf.RedHat
