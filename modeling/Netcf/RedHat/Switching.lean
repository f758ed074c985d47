import Netcf.Linux.Switching
import Netcf.RedHat.Store

set_option autoImplicit false

-- ncf_if_up and ncf_if_down for the items on the shelf.
namespace Netcf.RedHat

open Shared.Faulty Shared.Simulation Shared.Shelf Shared.Attempts Schema Stylesheet Linux
open Linux.Switching (Answered Switched Unlisted Unrecognised caller ncfIfUp ncfIfDown switched unlisted unrecognised)
open Lenses (TypableFiles)

section Runs

variable {D : Type} {augeas : Augeas Scripts D} {machine later : Machine} {pathx : Pathx} {libxml : Libxml} {item : Item}

-- What is_bridge and bridge_slaves come to for the root of an item.
theorem asked_item {s : Stock D} (keeping : Keeping augeas machine s) (member : item ∈ s.shelf) :
    ∃ bridge one, isBridge augeas item.root (enter [] s.ncf) = .ok bridge one ∧
      (bridge = false → item.ports = []) ∧
      if Clear later.nullBehind item.ports.length then
        ∃ two, bridgeSlaves augeas later item.root one = .ok item.ports two
      else ∃ two, bridgeSlaves augeas later item.root one = .error .nomem two := by
  have query := @answers_augFmtMatch _ _ s.ncf.disk s.ncf.augeasXfmTables (loadedTree augeas s.ncf) _ augeas _
    fun files => bridging files.config item.root
  obtain ⟨one, recognised, loaded, calm⟩ := opened_calm keeping.registered ⟨_, rfl⟩ query
  refine ⟨bridging (loadedTree augeas s.ncf).config item.root, one, recognised, keeping.stocked.bridging member, ?_⟩
  have listed := keeping.stocked.ports member
  have slaves := @slavesModel_eq later item.root (loadedTree augeas s.ncf) (by rw [listed]; simp)
  have same : (ports (loadedTree augeas s.ncf).config item.root).reduceOption = item.ports := by
    rw [listed, List.reduceOption, List.filterMap_map]
    exact List.filterMap_some
  rw [same, listed, List.length_map] at slaves
  have implements := @implements_bridgeSlaves _ augeas later s.ncf.disk s.ncf.augeasXfmTables item.root
  split_ifs with clear
  · rw [if_pos clear] at slaves
    obtain ⟨two, answered, _⟩ := implements.runs ⟨loaded, calm⟩ calm slaves
    exact ⟨two, answered⟩
  · rw [if_neg clear] at slaves
    exact implements.fails ⟨loaded, calm⟩ calm slaves

theorem answered_item {s : Stock D} (keeping : Keeping augeas machine s) (member : item ∈ s.shelf)
    (clear : Clear later.nullBehind item.ports.length) :
    Answered augeas (backend later pathx) item.root (enter [] s.ncf) item.ports := by
  obtain ⟨bridge, one, recognised, portless, slaves⟩ := @asked_item _ augeas machine later _ _ keeping member
  rw [if_pos clear] at slaves
  refine ⟨bridge, one, recognised, ?_⟩
  cases bridge with
  | true => exact slaves
  | false => exact portless rfl

-- In every state of a run about whole items, each item is switched as a whole, unless a null word lies behind the
-- variable of the caller of bridge_slaves. LATER is the machine as it is found then.
theorem items_switched {util : Lenses.Remarks} {disk : D} {shelf : List Item} {calls : List Call}
    (lensed : Lensed (TypableFiles util) augeas augeasXfmCommon)
    (stocked : Stocked machine shelf (augeas.read augeasXfmCommon disk).config)
    (tidy : TidyRun augeas machine pathx libxml calls ⟨fresh augeasXfmCommon disk, shelf⟩)
    (member : item ∈ (run (serveStock augeas machine pathx libxml) calls ⟨fresh augeasXfmCommon disk, shelf⟩).2.shelf)
    (env : Nat → Posix.Environment) (process : Posix.Process) (active : Bool) (later : Machine) :
    (Clear later.nullBehind item.ports.length → Switched env active item.root item.ports
      (ncfIfUp env augeas (backend later pathx) active ⟨item.root⟩ [] (caller
        (run (serveStock augeas machine pathx libxml) calls ⟨fresh augeasXfmCommon disk, shelf⟩).2.ncf process))
      (ncfIfDown env augeas (backend later pathx) ⟨item.root⟩ [] (caller
        (run (serveStock augeas machine pathx libxml) calls ⟨fresh augeasXfmCommon disk, shelf⟩).2.ncf process))) ∧
    (¬ Clear later.nullBehind item.ports.length → Unlisted env item.root .nomem
      (ncfIfUp env augeas (backend later pathx) active ⟨item.root⟩ [] (caller
        (run (serveStock augeas machine pathx libxml) calls ⟨fresh augeasXfmCommon disk, shelf⟩).2.ncf process))
      (ncfIfDown env augeas (backend later pathx) ⟨item.root⟩ [] (caller
        (run (serveStock augeas machine pathx libxml) calls ⟨fresh augeasXfmCommon disk, shelf⟩).2.ncf process))) := by
  have registered : Registered (fresh augeasXfmCommon disk : Ncf Scripts D) := by
    intro copied
    simp [fresh] at copied
  have keeping := keeping_run lensed tidy ⟨registered, rfl, stocked⟩
  constructor
  · exact fun clear => switched (answered_item keeping member clear)
  · intro null
    obtain ⟨bridge, one, recognised, portless, slaves⟩ := @asked_item _ augeas machine later _ _ keeping member
    rw [if_neg null] at slaves
    obtain ⟨two, failed⟩ := slaves
    cases bridge with
    | true => exact unlisted recognised failed
    | false =>
      rw [portless rfl] at null
      exact absurd (fun i impossible => absurd impossible (Nat.not_lt_zero i)) null

end Runs

section Examples

-- The third command fails: the vlan and the bond stay where they are, and so does the bridge.
def thirdFails (n : Nat) : Posix.Environment :=
  Posix.endingWith (.ok (if n = 2 then 0x100 else 0))

theorem office_on_shelf :
    .document (officeBridge unaddressed) ∈ (run (serveStock Lenses.legibleFiles countModulo withinScripts
      (.reading officeText (officeBridge unaddressed))) officeCalls ⟨fresh augeasXfmCommon cardDisk, cardShelf⟩).2.shelf := by
  let first := (serveStock Lenses.legibleFiles countModulo withinScripts (.reading officeText (officeBridge unaddressed))
    (.define officeText (List.replicate 55 false ++ [true])) ⟨fresh augeasXfmCommon cardDisk, cardShelf⟩).2
  have saves : (serve Lenses.legibleFiles (backend countModulo withinScripts)
      (.reading officeText (officeBridge unaddressed)) (.define officeText []) first.ncf).1.writes = true := by
    decide +kernel
  have placed : (serveStock Lenses.legibleFiles countModulo withinScripts (.reading officeText (officeBridge unaddressed))
      (.define officeText []) first).2.shelf =
        shelve Item.root Item.devices (.document (officeBridge unaddressed)) first.shelf := by
    rw [serveStock, saves, if_pos rfl, rearranged, accepts_reading]
  have looked (s : Stock (Files Scripts)) : (serveStock Lenses.legibleFiles countModulo withinScripts
      (.reading officeText (officeBridge unaddressed)) (.look []) s).2.shelf = s.shelf := ite_self _
  refine (looked _).symm ▸ placed.symm ▸ ?_
  exact List.mem_append_right _ (List.mem_singleton_self _)

theorem items_switched_office :
    Switched thirdFails true "br0" ["eth0", "eth2.5", "bond0"]
      (ncfIfUp thirdFails Lenses.legibleFiles (backend countModulo withinScripts) true ⟨"br0"⟩ [] (caller
        (run (serveStock Lenses.legibleFiles countModulo withinScripts (.reading officeText (officeBridge unaddressed)))
          officeCalls ⟨fresh augeasXfmCommon cardDisk, cardShelf⟩).2.ncf Posix.caller))
      (ncfIfDown thirdFails Lenses.legibleFiles (backend countModulo withinScripts) ⟨"br0"⟩ [] (caller
        (run (serveStock Lenses.legibleFiles countModulo withinScripts (.reading officeText (officeBridge unaddressed)))
          officeCalls ⟨fresh augeasXfmCommon cardDisk, cardShelf⟩).2.ncf Posix.caller)) :=
  (@items_switched _ Lenses.legibleFiles countModulo withinScripts _ (.document (officeBridge unaddressed)) _ cardDisk
    cardShelf officeCalls (Lenses.legibleFiles_lensed _) stocked_card officeCalls_tidy office_on_shelf thirdFails
    Posix.caller true countModulo).1 fun _ _ _ => rfl

-- The instance of Augeas cannot be created.
theorem unrecognised_office :
    Unrecognised thirdFails "br0" .nomem Posix.caller
      (ncfIfUp thirdFails Lenses.legibleFiles (backend countModulo withinScripts) true ⟨"br0"⟩ [true] (caller
        (fresh augeasXfmCommon cardDisk) Posix.caller))
      (ncfIfDown thirdFails Lenses.legibleFiles (backend countModulo withinScripts) ⟨"br0"⟩ [true] (caller
        (fresh augeasXfmCommon cardDisk) Posix.caller)) :=
  @unrecognised _ _ _ thirdFails Lenses.legibleFiles (backend countModulo withinScripts) true [true] ⟨"br0"⟩ .nomem _
    (fresh augeasXfmCommon cardDisk) Posix.caller rfl

end Examples

end Netcf.RedHat
