import Netcf.RedHat.Complete
import Netcf.Debian.Undefine

set_option autoImplicit false

-- A define that fails before its save leaves no trace, whichever driver runs it.
namespace Netcf.Drivers

open Shared.Simulation Linux Schema Stylesheet

section Invisible

variable {C D F : Type} [EmptyCollection C]

-- make_netcf_if comes after the save, so its failure is not among those that the tree forgets.
def FailedDefineInvisible (augeas : Augeas C D) (backend : Backend C D F) (table : Entries) : Prop :=
  ∀ (libxml : Libxml) (disk : D) (history later : List Call) (text : String) (faults : List Bool)
    (failure : Failure) (before after : Ncf C D),
    before = reached augeas backend libxml table disk history →
    serve augeas backend libxml (.define text faults) before = (.failed failure, after) →
    failure.step ≠ .makeNetcfIf →
    (∀ answer ∈ (run (serve augeas backend libxml) later after).1, answer.writes = false) →
    ∃ files, (serve augeas backend libxml (.look []) before).1 = .tree files ∧
      (serve augeas backend libxml (.look []) (run (serve augeas backend libxml) later after).2).1 = .tree files ∧
      ∀ found, .tree found ∈ (run (serve augeas backend libxml) later after).1 → found = files

theorem invisible_of_safe {augeas : Augeas C D} {backend : Backend C D F} (safe : backend.Safe augeas)
    (table : Entries) : FailedDefineInvisible augeas backend table := by
  intro libxml disk history later text faults failure before after start failed listed quiet
  exact failed_define_leaves_tree safe start failed listed quiet

end Invisible

theorem failed_define_invisible {D E : Type} (scripts : Augeas RedHat.Scripts D)
    (interfaces : Augeas Debian.Interfaces E) (machine : Machine) (pathx : RedHat.Pathx) :
    FailedDefineInvisible scripts (RedHat.backend machine pathx) RedHat.augeasXfmCommon ∧
      FailedDefineInvisible interfaces (Debian.backend machine) Debian.augeasXfmCommon :=
  ⟨invisible_of_safe (RedHat.backend_safe scripts machine pathx) _,
    invisible_of_safe (Debian.backend_safe interfaces machine) _⟩

section Examples

-- The prefix length 0 passes validation, and fails in the stylesheet after the old eth0 is gone from the tree.
def zeroCard : Interface := .ethernet (static RedHat.zeroPrefix) ⟨eth0, none⟩

def zeroReader : Libxml := .reading RedHat.zeroText zeroCard

def oldScripts : Files RedHat.Scripts := ⟨⟨[⟨"ifcfg-eth0", [⟨"DEVICE", some "eth0"⟩]⟩], by decide⟩, [], []⟩

def oldStanzas : Files Debian.Interfaces := ⟨[Debian.auto ["eth0"], Debian.dhcp "eth0"], [], []⟩

def redhatBefore : Ncf RedHat.Scripts (Files RedHat.Scripts) :=
  reached RedHat.direct (RedHat.backend countModulo RedHat.withinScripts) zeroReader RedHat.augeasXfmCommon
    oldScripts []

def debianBefore : Ncf Debian.Interfaces (Files Debian.Interfaces) :=
  reached Debian.direct (Debian.backend countModulo) zeroReader Debian.augeasXfmCommon oldStanzas []

def failureOf {C : Type} : Answer C → Option Failure
  | .failed failure => some failure
  | _ => none

theorem failureOf_eq {C S : Type} {served : Answer C × S} {failure : Failure}
    (failed : failureOf served.1 = some failure) : served = (.failed failure, served.2) := by
  obtain ⟨answer, after⟩ := served
  cases answer <;> cases failed
  rfl

theorem failed_define_invisible_zeroCard :
    (∃ after files, serve RedHat.direct (RedHat.backend countModulo RedHat.withinScripts) zeroReader
        (.define RedHat.zeroText []) redhatBefore = (.failed ⟨.applyStylesheet, .xsltFailed⟩, after) ∧
      (serve RedHat.direct (RedHat.backend countModulo RedHat.withinScripts) zeroReader (.look []) redhatBefore).1 =
        .tree files ∧
      (serve RedHat.direct (RedHat.backend countModulo RedHat.withinScripts) zeroReader (.look []) after).1 =
        .tree files) ∧
    ∃ after files, serve Debian.direct (Debian.backend countModulo) zeroReader
        (.define RedHat.zeroText []) debianBefore = (.failed ⟨.applyStylesheet, .xsltFailed⟩, after) ∧
      (serve Debian.direct (Debian.backend countModulo) zeroReader (.look []) debianBefore).1 = .tree files ∧
      (serve Debian.direct (Debian.backend countModulo) zeroReader (.look []) after).1 = .tree files := by
  have both := failed_define_invisible RedHat.direct Debian.direct countModulo RedHat.withinScripts
  constructor
  · have failed : failureOf (serve RedHat.direct (RedHat.backend countModulo RedHat.withinScripts) zeroReader
        (.define RedHat.zeroText []) redhatBefore).1 = some ⟨.applyStylesheet, .xsltFailed⟩ := by
      decide +kernel
    rcases both.1 zeroReader oldScripts [] [] RedHat.zeroText [] _ redhatBefore _ rfl (failureOf_eq failed)
      (by decide) (by simp [run]) with ⟨files, old, new, _⟩
    simp only [run] at new
    exact ⟨_, files, failureOf_eq failed, old, new⟩
  · have failed : failureOf (serve Debian.direct (Debian.backend countModulo) zeroReader
        (.define RedHat.zeroText []) debianBefore).1 = some ⟨.applyStylesheet, .xsltFailed⟩ := by
      decide +kernel
    rcases both.2 zeroReader oldStanzas [] [] RedHat.zeroText [] _ debianBefore _ rfl (failureOf_eq failed)
      (by decide) (by simp [run]) with ⟨files, old, new, _⟩
    simp only [run] at new
    exact ⟨_, files, failureOf_eq failed, old, new⟩

end Examples

end Netcf.Drivers
