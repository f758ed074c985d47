import Netcf.RedHat.Replace

set_option autoImplicit false

-- bond_setup while nothing fails: the aliases of one list of names come or go, and the list depends
-- on the ifcfg files only.
namespace Netcf.RedHat

open Shared.Faulty Linux Stylesheet

def bonded (scripts : Scripts) (name : String) : Bool :=
  scripts.files.any (·.has "MASTER" name)

def bridging (scripts : Scripts) (name : String) : Bool :=
  scripts.files.any fun script => script.has "DEVICE" name && script.has "TYPE" "Bridge"

def ports (scripts : Scripts) (name : String) : List (Option String) :=
  scripts.devices (·.has "BRIDGE" name)

def targets (scripts : Scripts) (name : String) : List String :=
  (name :: if bridging scripts name then (ports scripts name).reduceOption else []).filter (bonded scripts)

def slavesModel (machine : Machine) (name : String) : StateT (Files Scripts) (Except Errcode) (List String) :=
  copiesModel machine fun files => ports files.config name

section Implements

variable {D : Type} {augeas : Augeas Scripts D} {machine : Machine} {disk : D} {tables : List (Option Entries)}

theorem implements_bridgeSlaves (name : String) :
    Implements (Quiet disk tables) Calm (bridgeSlaves augeas machine name) (slavesModel machine name) :=
  implements_copySlaves _

theorem implements_bondSetup (machine : Machine) (pathx : Pathx) (name : String) (adding : Bool) :
    Implements (Quiet disk tables) Calm (bondSetup augeas (backend machine pathx) name adding)
      (bondSetupModel bonded bridging (slavesModel machine name) name adding) :=
  Linux.implements_bondSetup (fun _ => implements_augFmtMatch _) (implements_augFmtMatch _)
    (implements_bridgeSlaves name) adding

end Implements

section Targets

variable {machine : Machine} {adding : Bool} {name : String} {files : Files Scripts}

theorem slavesModel_eq (valued : none ∉ ports files.config name) :
    slavesModel machine name files =
      if Clear machine.nullBehind (ports files.config name).length then .ok ((ports files.config name).reduceOption, files)
      else .error .nomem :=
  copiesModel_eq valued

-- The ports of the bridge must have a DEVICE with a value.
theorem bondSetupModel_eq (valued : bridging files.config name = true → none ∉ ports files.config name)
    (clear : bridging files.config name = true → Clear machine.nullBehind (ports files.config name).length) :
    bondSetupModel bonded bridging (slavesModel machine name) name adding files =
      (targets files.config name).forM (setupModel adding) files := by
  apply bondSetup_targets
  intro bridge after same
  rw [← same] at valued clear bridge ⊢
  rw [slavesModel_eq (valued bridge), if_pos (clear bridge)]

theorem bondSetupModel_clear {after : Files Scripts} {u : Unit}
    (run : bondSetupModel bonded bridging (slavesModel machine name) name adding files = .ok (u, after))
    (valued : none ∉ ports files.config name) (bridge : bridging files.config name = true) :
    Clear machine.nullBehind (ports files.config name).length := by
  obtain ⟨middle, found, later, same, listed⟩ := bondSetup_asked run bridge
  rw [← same] at valued ⊢
  by_contra null
  rw [slavesModel_eq valued, if_neg null] at listed
  cases listed

theorem bondSetupModel_ok {after : Files Scripts} {u : Unit}
    (run : bondSetupModel bonded bridging (slavesModel machine name) name adding files = .ok (u, after))
    (valued : none ∉ ports files.config name) :
    (targets files.config name).forM (setupModel adding) files = .ok (u, after) := by
  rwa [← bondSetupModel_eq (fun _ => valued) (bondSetupModel_clear run valued)]

end Targets

end Netcf.RedHat
