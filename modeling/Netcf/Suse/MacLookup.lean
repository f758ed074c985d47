import Netcf.RedHat.MacLookup
import Netcf.Suse.Lookup

set_option autoImplicit false

-- drv_lookup_by_mac_string of drv_suse.c.
namespace Netcf.Suse

open Shared.Faulty Linux
open RedHat (Script toLower baseName strcaseeq lowerMac)

section Driver

variable {D : Type} (augeas : Augeas Network D) (host : Host)

-- The expression that is given to is_slave in the place of a name.
def ifcfgExpression (name : String) : String :=
  "/files/etc/sysconfig/network/*[DEVICE = '" ++ name ++ "']"

def hasIfcfgFile (name : String) : Api Network D Bool := do
  getAugeas augeas
  attempt .nomem
  return (← refusable (← augMatch (host.count name))) > 0

-- A quote in the address makes another expression of the test.
def Host.macMatches (mac : String) (files : Files Network) : Option (List String) :=
  if '\'' ∈ mac.toList then
    (host.find ("/files/sys/class/net/*[address/content = '" ++ toLower mac ++ "']") files).map (·.map baseName)
  else some ((files.sysfs.filter (·.2 = toLower mac)).map (·.1))

def augMatchMac (mac : String) : Api Network D (List String) := do
  attempt .nomem
  let found ← augFmtFind augeas (host.macMatches mac)
  found.forM fun _ => attempt .nomem
  return found

-- Once a query has failed the error code is set, and has_ifcfg_file gets no further than get_augeas.
def skipRest (names : List String) : Api Network D (Bool × List String) := do
  names.forM fun _ => ignoring () (getAugeas augeas)
  return (true, [])

-- The names to return, and whether a query has failed on the way.
def macNames : List String → Api Network D (Bool × List String)
  | [] => pure (false, [])
  | name :: rest => do
    match ← ignoring none (some <$> hasIfcfgFile augeas host name) with
    | none => skipRest augeas rest
    | some false => macNames rest
    | some true =>
      attempt .nomem
      match ← ignoring none (some <$> isSlave augeas host (ifcfgExpression name)) with
      | none => skipRest augeas rest
      | some true => macNames rest
      | some false =>
        let later ← macNames rest
        return (later.1, name :: later.2)

def drvLookupByMacString (mac : String) (maxifaces : Nat) : Api Network D (Nat × List (Option NetcfIf)) := do
  getAugeas augeas
  match ← augMatchMac augeas host mac with
  | [] => return (0, List.replicate maxifaces none)
  | first :: others =>
    attempt .nomem
    let found ← macNames augeas host (first :: others)
    let slots ← (found.2.take maxifaces).mapM fun name => do
      attempt .nomem
      let nif ← makeNetcfIf name
      if found.1 then throw .other
      return some nif
    return (found.2.length, slots ++ List.replicate (maxifaces - slots.length) none)

end Driver

section Answers

variable {D : Type} {augeas : Augeas Network D} {host : Host} {disk : D} {tables : List (Option Entries)}
  {files : Files Network} {name mac : String}

def configured (files : Files Network) (name : String) : Bool :=
  (stored files ("ifcfg-" ++ name)).isSome

theorem answers_hasIfcfgFile (plain : '/' ∉ name.toList) :
    Answers (Loaded disk tables) Calm files (hasIfcfgFile augeas host name) (configured files name) := by
  have counted : host.count name files = some (stored files ("ifcfg-" ++ name)).toList.length := by
    rw [Host.count, if_neg plain, List.countP_eq_length_filter, filter_stored]
  have same : decide ((stored files ("ifcfg-" ++ name)).toList.length > 0) = configured files name := by
    unfold configured
    cases stored files ("ifcfg-" ++ name) <;> rfl
  refine answers_getAugeas.bind ((answers_attempt .nomem).bind (((implements_augMatch _).answers rfl).bind ?_))
  rw [counted, ← same]
  exact (answers_pure _).bind (answers_pure _)

-- No node lies where the expression leads: a file called ifcfg- would have to have the steps of the whole path
-- below it.
def NothingBelow (host : Host) (files : Files Network) (name : String) : Prop :=
  ∀ label, host.find (ifcfgPath (ifcfgExpression name) ++ "/" ++ label) files = some []

theorem answers_isSlave_expression (nothing : NothingBelow host files name) :
    Answers (Loaded disk tables) Calm files (isSlave augeas host (ifcfgExpression name)) false := by
  have slash : '/' ∈ (ifcfgExpression name).toList := by
    unfold ifcfgExpression
    simp
  have counts : ∀ label, host.countEntries (ifcfgExpression name) label files = some 0 := by
    intro label
    rw [Host.countEntries, if_pos slash, nothing label]
    rfl
  exact answers_isSlave_counted counts

theorem answers_augMatchMac {names : List String} (found : host.macMatches mac files = some names) :
    Answers (Loaded disk tables) Calm files (augMatchMac augeas host mac) names :=
  (answers_attempt .nomem).bind ((answers_augFmtFind found).bind
    ((answers_forM (fun _ => answers_attempt .nomem) _).bind (answers_pure _)))

-- While nothing fails every name with a file is taken.
theorem answers_macNames {names : List String} (plain : ∀ name ∈ names, '/' ∉ name.toList)
    (nothing : ∀ name ∈ names, NothingBelow host files name) :
    Answers (fun ncf files => Loaded disk tables ncf files ∧ Calm ncf) (fun _ => True) files
      (macNames augeas host names) (false, names.filter (configured files)) := by
  induction names with
  | nil => exact answers_pure _
  | cons name rest ih =>
    have later := ih (fun other member => plain other (List.mem_cons_of_mem name member))
      fun other member => nothing other (List.mem_cons_of_mem name member)
    have file := (@answers_hasIfcfgFile _ augeas host disk tables files _ (plain name List.mem_cons_self)).quiet
    have slave := (@answers_isSlave_expression _ augeas host disk tables files _
      (nothing name List.mem_cons_self)).quiet
    refine (answers_ignoring none (file.bind (answers_pure _))).bind ?_
    cases here : configured files name with
    | false =>
      rw [List.filter_cons_of_neg (by simp [here])]
      exact later
    | true =>
      rw [List.filter_cons_of_pos here]
      refine (answers_attempt .nomem).quiet.bind ?_
      refine (answers_ignoring none (slave.bind (answers_pure _))).bind ?_
      exact later.bind (answers_pure _)

theorem answers_drvLookupByMacString {names : List String} (found : host.macMatches mac files = some names)
    (plain : ∀ name ∈ names, '/' ∉ name.toList) (nothing : ∀ name ∈ names, NothingBelow host files name)
    (maxifaces : Nat) :
    Answers (fun ncf files => Loaded disk tables ncf files ∧ Calm ncf) (fun _ => True) files
      (drvLookupByMacString augeas host mac maxifaces)
      ((names.filter (configured files)).length,
        ((names.filter (configured files)).take maxifaces).map (fun name => some ⟨name⟩) ++
          List.replicate (maxifaces - (names.filter (configured files)).length) none) := by
  refine (@answers_getAugeas _ _ disk tables files _ augeas).quiet.bind ((answers_augMatchMac found).quiet.bind ?_)
  cases names with
  | nil =>
    simp only [List.filter_nil, List.take_nil, List.map_nil, List.nil_append, List.length_nil, Nat.sub_zero]
    exact answers_pure _
  | cons first others =>
    have made : ∀ name : String, Answers (Loaded disk tables) Calm files (makeNetcfIf name : Api Network D NetcfIf)
        ⟨name⟩ := fun name => (answers_attempt .nomem).bind (answers_pure _)
    refine (answers_attempt .nomem).quiet.bind ((answers_macNames plain nothing).bind ?_)
    have each := @answers_mapM _ _ _ _ _ (fun ncf files => Loaded disk tables ncf files ∧ Calm ncf) (fun _ => True) files
      (fun name : String => (do
        attempt .nomem
        let nif ← makeNetcfIf name
        if false then throw .other
        return some nif : Api Network D (Option NetcfIf)))
      (fun name => some ⟨name⟩) (((first :: others).filter (configured files)).take maxifaces)
      fun name _ => (answers_attempt .nomem).quiet.bind ((made name).quiet.bind (answers_pure _))
    refine each.bind ?_
    have length : maxifaces - ((((first :: others).filter (configured files)).take maxifaces).map
        fun name => some (⟨name⟩ : NetcfIf)).length =
        maxifaces - ((first :: others).filter (configured files)).length := by
      rw [List.length_map, List.length_take]
      omega
    rw [length]
    exact answers_pure _

end Answers

section Theorem

variable {D : Type} (augeas : Augeas Network D) (host : Host) (files : Files Network) (mac : String)

-- Whether drv_lookup_by_name returns an interface.
def accepts (ncf : Ncf Network D) (name : String) : Bool :=
  (answer (drvLookupByName augeas host name ncf)).join.isSome

def devicesWith : List String :=
  (files.sysfs.filter fun node => strcaseeq node.2 mac).map (·.1)

-- All that is stored is accepted, and an array that holds all that is counted has every device with the address
-- that is accepted. A call that fails counts nothing.
def CountsAccepted (ncf : Ncf Network D) (maxifaces : Nat) : Prop :=
  match drvLookupByMacString augeas host mac maxifaces ncf with
  | .error _ _ => ∀ name ∈ devicesWith files mac, accepts augeas host ncf name = false
  | .ok (count, slots) _ =>
    slots.length = maxifaces ∧ slots.reduceOption.length = min count maxifaces ∧
      (∀ nif ∈ slots.reduceOption, accepts augeas host ncf nif.name = true) ∧
      (count ≤ maxifaces → ∀ name ∈ devicesWith files mac, accepts augeas host ncf name = true →
        ⟨name⟩ ∈ slots.reduceOption)

variable {augeas host files mac} {disk : D} {tables : List (Option Entries)} {ncf : Ncf Network D}

theorem accepts_eq {name : String} (plain : '/' ∉ name.toList) (quiet : Quiet disk tables ncf files) :
    accepts augeas host ncf name = (stored files ("ifcfg-" ++ name)).any topLevel := by
  obtain ⟨after, run, _⟩ := (@answers_drvLookupByName _ augeas host disk tables files _ plain).runs quiet.1 quiet.2
  rw [accepts, run]
  cases (stored files ("ifcfg-" ++ name)).any topLevel <;> rfl

theorem baseName_plain (path : String) : '/' ∉ (baseName path).toList := by
  intro inside
  rw [baseName, String.toList_ofList, List.mem_reverse] at inside
  have passed := List.all_eq_true.mp List.all_takeWhile _ inside
  simp at passed

theorem macMatches_plain (plain : ∀ node ∈ files.sysfs, '/' ∉ node.1.toList) {names : List String}
    (found : host.macMatches mac files = some names) : ∀ name ∈ names, '/' ∉ name.toList := by
  unfold Host.macMatches at found
  by_cases quoted : '\'' ∈ mac.toList
  · rw [if_pos quoted] at found
    obtain ⟨paths, _, rfl⟩ := Option.map_eq_some_iff.mp found
    intro name member
    obtain ⟨path, _, rfl⟩ := List.mem_map.mp member
    exact baseName_plain path
  · rw [if_neg quoted] at found
    cases found
    intro name member
    obtain ⟨node, listed, rfl⟩ := List.mem_map.mp member
    exact plain node (List.mem_of_mem_filter listed)

theorem devicesWith_matched (lower : ∀ node ∈ files.sysfs, lowerMac node.2 = true) {names : List String}
    (found : host.macMatches mac files = some names) : devicesWith files mac ⊆ names := by
  unfold Host.macMatches at found
  by_cases quoted : '\'' ∈ mac.toList
  · rw [devicesWith, RedHat.filter_quoted lower quoted]
    exact List.nil_subset _
  · rw [if_neg quoted] at found
    cases found
    rw [devicesWith, RedHat.filter_strcaseeq lower]
    exact List.Subset.refl _

theorem drvLookupByMacString_refused (quiet : Quiet disk tables ncf files) (refused : host.macMatches mac files = none)
    (maxifaces : Nat) : ∃ e after, drvLookupByMacString augeas host mac maxifaces ncf = .error e after := by
  obtain ⟨one, loaded, shown, calm⟩ := (@answers_getAugeas _ _ disk tables files _ augeas).runs quiet.1 quiet.2
  have asked : Answers (Loaded disk tables) Calm files
      (do
        attempt .nomem
        augFmtMatch augeas (host.macMatches mac) : Api Network D (Option (List String))) none := by
    rw [← refused]
    exact (answers_attempt .nomem).bind (answers_augFmtMatch _)
  obtain ⟨two, run, _⟩ := asked.runs shown calm
  obtain ⟨_, middle, room, matched⟩ := bind_ok run
  have failed : augMatchMac augeas host mac one = .error .other two := by
    rw [augMatchMac, bind_of_ok _ room]
    apply bind_of_error
    rw [augFmtFind, bind_of_ok _ matched]
    rfl
  refine ⟨.other, two, ?_⟩
  rw [drvLookupByMacString, bind_of_ok _ loaded, bind_of_error _ failed]

theorem reduceOption_slots (names : List String) (empty : Nat) :
    (names.map (fun name => some (⟨name⟩ : NetcfIf)) ++ List.replicate empty none).reduceOption =
      names.map NetcfIf.mk := by
  rw [List.reduceOption_append, List.reduceOption_replicate_none, List.append_nil]
  induction names with
  | nil => rfl
  | cons name rest ih => rw [List.map_cons, List.reduceOption_cons_of_some, ih, List.map_cons]

theorem mem_netcfIfs {names : List String} {name : String} : (⟨name⟩ : NetcfIf) ∈ names.map NetcfIf.mk ↔ name ∈ names := by
  rw [List.mem_map]
  constructor
  · rintro ⟨other, member, same⟩
    cases same
    exact member
  · exact fun member => ⟨name, member, rfl⟩

theorem countsAccepted_iff (quiet : Quiet disk tables ncf files) {names : List String}
    (found : host.macMatches mac files = some names) (plain : ∀ name ∈ names, '/' ∉ name.toList)
    (nothing : ∀ name ∈ names, NothingBelow host files name) (maxifaces : Nat) :
    CountsAccepted augeas host files mac ncf maxifaces ↔
      (∀ name ∈ (names.filter (configured files)).take maxifaces, accepts augeas host ncf name = true) ∧
        ((names.filter (configured files)).length ≤ maxifaces → ∀ name ∈ devicesWith files mac,
          accepts augeas host ncf name = true → name ∈ (names.filter (configured files)).take maxifaces) := by
  rcases (@answers_drvLookupByMacString _ augeas _ disk tables _ _ _ found plain nothing maxifaces).runs quiet trivial
    with ⟨after, run, _⟩
  have full : (((names.filter (configured files)).take maxifaces).map (fun name => some (⟨name⟩ : NetcfIf)) ++
      List.replicate (maxifaces - (names.filter (configured files)).length) none).length = maxifaces := by
    rw [List.length_append, List.length_map, List.length_take, List.length_replicate]
    omega
  have few : (((names.filter (configured files)).take maxifaces).map NetcfIf.mk).length =
      min (names.filter (configured files)).length maxifaces := by
    rw [List.length_map, List.length_take, Nat.min_comm]
  rw [CountsAccepted, run]
  dsimp only
  rw [reduceOption_slots, and_iff_right full, and_iff_right few, List.forall_mem_map]
  simp only [mem_netcfIfs]

-- A device with the address is returned because it has a file, whatever the file says: the test for slaves is made
-- on a path that leads nowhere.
theorem mac_lookup_counts_accepted_iff (quiet : Quiet disk tables ncf files)
    (plain : ∀ node ∈ files.sysfs, '/' ∉ node.1.toList) (lower : ∀ node ∈ files.sysfs, lowerMac node.2 = true)
    (nothing : ∀ names, host.macMatches mac files = some names → ∀ name ∈ names, NothingBelow host files name) :
    (∀ maxifaces, CountsAccepted augeas host files mac ncf maxifaces) ↔
      ∀ names, host.macMatches mac files = some names → ∀ name ∈ names,
        ∀ script ∈ stored files ("ifcfg-" ++ name), topLevel script = true := by
  cases found : host.macMatches mac files with
  | none =>
    constructor
    · intro _ names other
      cases other
    · intro _ maxifaces
      obtain ⟨e, after, failed⟩ := @drvLookupByMacString_refused _ augeas _ _ _ _ _ _ quiet found maxifaces
      have quoted : '\'' ∈ mac.toList := by
        by_contra unquoted
        rw [Host.macMatches, if_neg unquoted] at found
        cases found
      rw [CountsAccepted, failed]
      dsimp only
      rw [devicesWith, RedHat.filter_quoted lower quoted]
      intro name member
      cases member
  | some names =>
    have single : ∀ name ∈ names, '/' ∉ name.toList := macMatches_plain plain found
    have counts : ∀ maxifaces, CountsAccepted augeas host files mac ncf maxifaces ↔ _ :=
      countsAccepted_iff quiet found single (nothing names found)
    constructor
    · intro all other same name member script present
      cases same
      have here : configured files name = true := by rw [configured, present, Option.isSome_some]
      have taken := ((counts (names.filter (configured files)).length).mp (all _)).1
      rw [List.take_length] at taken
      have accepted := taken name (List.mem_filter.mpr ⟨member, here⟩)
      rwa [accepts_eq (single name member) quiet, present, Option.any_some] at accepted
    · intro top maxifaces
      rw [counts]
      constructor
      · intro name member
        have picked := List.mem_filter.mp (List.mem_of_mem_take member)
        obtain ⟨script, present⟩ := Option.isSome_iff_exists.mp picked.2
        rw [accepts_eq (single name picked.1) quiet, present, Option.any_some]
        exact top names rfl name picked.1 script present
      · intro room name member accepted
        have matched := devicesWith_matched lower found member
        rw [accepts_eq (single name matched) quiet] at accepted
        rw [List.take_of_length_le room, List.mem_filter]
        refine ⟨matched, ?_⟩
        cases present : stored files ("ifcfg-" ++ name) with
        | none =>
          rw [present] at accepted
          cases accepted
        | some script => rw [configured, present, Option.isSome_some]

end Theorem

section Examples

-- One card with the file of an interface of its own, or of a port.
def cardWith (entries : List RedHat.Entry) : Files Network :=
  ⟨⟨⟨[⟨"ifcfg-eth0", entries⟩], List.nodup_singleton _⟩, [], []⟩, [], [("eth0", "aa:bb:cc:dd:ee:ff")]⟩

theorem card_counted :
    CountsAccepted direct bareHost (cardWith [⟨"BOOTPROTO", some "dhcp"⟩]) "AA:bb:cc:DD:Ee:ff"
      (settled augeasXfmCommon (cardWith [⟨"BOOTPROTO", some "dhcp"⟩]) (cardWith [⟨"BOOTPROTO", some "dhcp"⟩])) 1 := by
  refine (mac_lookup_counts_accepted_iff (quiet_settled _ _ _) (by decide) (by decide) ?_).mpr ?_ 1
  · intro names _ name _ label
    rfl
  · intro names found name member script present
    have only : bareHost.macMatches "AA:bb:cc:DD:Ee:ff" (cardWith [⟨"BOOTPROTO", some "dhcp"⟩]) = some ["eth0"] := by
      decide
    cases only.symm.trans found
    cases List.mem_singleton.mp member
    have file : stored (cardWith [⟨"BOOTPROTO", some "dhcp"⟩]) ("ifcfg-" ++ "eth0") =
        some ⟨"ifcfg-eth0", [⟨"BOOTPROTO", some "dhcp"⟩]⟩ := by
      decide
    cases file.symm.trans present
    decide

-- The file of a port of a bridge.
theorem port_counted :
    ¬ ∀ maxifaces, CountsAccepted direct bareHost (cardWith [⟨"BRIDGE", some "br0"⟩]) "aa:bb:cc:dd:ee:ff"
      (settled augeasXfmCommon (cardWith [⟨"BRIDGE", some "br0"⟩]) (cardWith [⟨"BRIDGE", some "br0"⟩])) maxifaces := by
  intro all
  have one := all 1
  have stores : answer (drvLookupByMacString direct bareHost "aa:bb:cc:dd:ee:ff" 1
      (settled augeasXfmCommon (cardWith [⟨"BRIDGE", some "br0"⟩]) (cardWith [⟨"BRIDGE", some "br0"⟩]))) =
      some (1, [some ⟨"eth0"⟩]) := by
    decide +kernel
  have refused : accepts direct bareHost
      (settled augeasXfmCommon (cardWith [⟨"BRIDGE", some "br0"⟩]) (cardWith [⟨"BRIDGE", some "br0"⟩])) "eth0" = false := by
    decide +kernel
  obtain ⟨after, run⟩ := answer_some stores
  rw [CountsAccepted, run] at one
  have accepted := one.2.2.1 ⟨"eth0"⟩ List.mem_cons_self
  rw [refused] at accepted
  cases accepted

end Examples

end Netcf.Suse
