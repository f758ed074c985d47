import Netcf.RedHat.Counting
import Netcf.RedHat.Agreement
import Netcf.Debian.Listing
import Netcf.Suse.Listing

set_option autoImplicit false

-- drv_list_interfaces and drv_num_of_interfaces of the three Linux drivers.
namespace Netcf.Drivers

open Linux

theorem listing_filters_then_truncates (isActive : String → Bool) {D : Type} (disk : D)
    (tables : List (Option Entries)) :
    (∀ (augeas : Augeas RedHat.Scripts D) (pathx : RedHat.Pathx) (files : Files RedHat.Scripts) ncf,
      RedHat.Intact pathx files → Quiet disk tables ncf files →
      FilterThenTruncate (RedHat.listInterfaceIds augeas pathx isActive)
        (RedHat.drvNumOfInterfaces augeas pathx isActive)
        (fun maxnames flags => RedHat.drvListInterfaces augeas pathx isActive maxnames (.ofBits flags)) isActive
        (RedHat.topIds pathx files) ncf) ∧
    (∀ (augeas : Augeas Debian.Interfaces D) (files : Files Debian.Interfaces) ncf,
      Debian.Named files.config → Quiet disk tables ncf files →
      FilterThenTruncate (Debian.listInterfaceIds augeas isActive) (Debian.drvNumOfInterfaces augeas isActive)
        (Debian.drvListInterfaces augeas isActive) isActive (Debian.topNames files.config) ncf) ∧
    ∀ (augeas : Augeas Suse.Network D) (host : Suse.Host) (dir : List Suse.Dirent) (files : Files Suse.Network) ncf,
      Quiet disk tables ncf files →
      FilterThenTruncate (Suse.listInterfaceIds augeas host dir isActive)
        (Suse.drvNumOfInterfaces augeas host dir isActive) (Suse.drvListInterfaces augeas host dir isActive) isActive
        (Suse.topIds dir files) ncf := by
  refine ⟨?_, ?_, ?_⟩
  · intro augeas pathx files ncf intact quiet
    exact RedHat.redhat_delivers intact isActive quiet
  · intro augeas files ncf named quiet
    exact Debian.debian_delivers named quiet
  · intro augeas host dir files ncf quiet
    exact Suse.suse_delivers isActive quiet

def cabledDir : List Suse.Dirent := [⟨"ifcfg-eth2", true, by decide⟩, ⟨"ifcfg-eth2~", false, by decide⟩]

-- What is delivered of a tree of each kind, with eth7 up.
theorem listing_of_examples :
    FilterThenTruncate (RedHat.listInterfaceIds RedHat.direct RedHat.withinScripts (· = "eth7"))
        (RedHat.drvNumOfInterfaces RedHat.direct RedHat.withinScripts (· = "eth7"))
        (fun maxnames flags =>
          RedHat.drvListInterfaces RedHat.direct RedHat.withinScripts (· = "eth7") maxnames (.ofBits flags))
        (· = "eth7") ["lo"] (RedHat.loadedWith RedHat.stale) ∧
      FilterThenTruncate (Debian.listInterfaceIds Debian.direct (· = "eth7"))
        (Debian.drvNumOfInterfaces Debian.direct (· = "eth7")) (Debian.drvListInterfaces Debian.direct (· = "eth7"))
        (· = "eth7") ["br0", "eth7", "lo"] (settled Debian.augeasXfmCommon Debian.office Debian.office) ∧
      FilterThenTruncate (Suse.listInterfaceIds Suse.direct Suse.bareHost cabledDir (· = "eth7"))
        (Suse.drvNumOfInterfaces Suse.direct Suse.bareHost cabledDir (· = "eth7"))
        (Suse.drvListInterfaces Suse.direct Suse.bareHost cabledDir (· = "eth7"))
        (· = "eth7") ["eth2"] (settled Suse.augeasXfmCommon Suse.cabled Suse.cabled) := by
  have scripts : RedHat.topIds RedHat.withinScripts RedHat.stale = ["lo"] := by decide +kernel
  have stanzas : Debian.topNames Debian.office.config = ["br0", "eth7", "lo"] := by decide +kernel
  have entries : Suse.topIds cabledDir Suse.cabled = ["eth2"] := by decide +kernel
  have regular : RedHat.Regular RedHat.stale := ⟨by decide, by decide, by decide, by decide⟩
  have legible : RedHat.Legible RedHat.stale := RedHat.legible_of_named (by decide +kernel) (by decide +kernel)
  refine ⟨?_, ?_, ?_⟩
  · rw [← scripts]
    exact (listing_filters_then_truncates (· = "eth7") _ _).1 _ _ _ _ (legible.intact regular)
      (RedHat.quiet_loadedWith RedHat.stale)
  · rw [← stanzas]
    exact (listing_filters_then_truncates (· = "eth7") _ _).2.1 _ _ _ (by unfold Debian.Named; decide) (quiet_settled _ _ _)
  · rw [← entries]
    exact (listing_filters_then_truncates (· = "eth7") _ _).2.2 _ _ _ _ _ (quiet_settled _ _ _)

end Netcf.Drivers
