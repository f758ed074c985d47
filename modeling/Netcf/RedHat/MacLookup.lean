import Netcf.RedHat.Agreement
import Netcf.RedHat.Sessions

set_option autoImplicit false

-- Whether drv_lookup_by_mac_string finds the devices with the address that drv_lookup_by_name finds.
namespace Netcf.RedHat

open Shared.Faulty Shared.Lists Linux Linux.References

variable {D : Type} {augeas : Augeas Scripts D} {pathx : Pathx} {disk : D} {tables : List (Option Entries)}
  {files : Files Scripts}

section Addresses

variable (files : Files Scripts)

def owned (name : String) : List Script :=
  files.config.files.filter (·.has "DEVICE" name)

def slaveScript (script : Script) : Bool :=
  subifPaths.any fun label => !(script.values label).isEmpty

-- What drv_lookup_by_mac_string tests.
def macPicks (name : String) : Bool :=
  !(files.config.devices (files.config.related name)).isEmpty &&
    !subifPaths.any fun label => !(ownValues name label files).isEmpty

def devicesWith (mac : String) : List String :=
  (files.sysfs.filter fun node => strcaseeq node.2 mac).map (·.1)

def lowerMac (address : String) : Bool :=
  address.toList.all fun c => "0123456789abcdef:".toList.contains c

-- Some file speaks of the device, and none of its own files is a slave's.
def Mentioned (device : String) : Prop :=
  files.config.files.any (files.config.related device) = true ∧ ∀ script ∈ owned files device, slaveScript script = false

instance (device : String) : Decidable (Mentioned files device) :=
  inferInstanceAs (Decidable (_ ∧ _))

-- The place is a file of the device.
def Place.owns (device : String) : Place → Bool
  | .file script => script.has "DEVICE" device
  | .entry _ _ => false

-- What the name of the device leads to, and what the files say about the device:
-- no file speaks of a device whose name leads nowhere; where the name leads to a file of the device that
-- is no slave's, no other one is a slave's; where it leads to another place that is no slave's, some file
-- speaks of the device and none of its own is a slave's; and where it leads to the file of another slave,
-- no file speaks of the device, or one of its own is a slave's.
structure Agrees (device : String) : Prop where
  readable : ∀ place ∈ leadsTo files device, place.Readable
  nowhere : leadsTo files device = none → files.config.files.any (files.config.related device) = false
  own : ∀ place ∈ leadsTo files device, place.owns device = true → place.Free →
    ∀ script ∈ owned files device, slaveScript script = false
  free : ∀ place ∈ leadsTo files device, place.owns device = false → place.Free → Mentioned files device
  slave : ∀ place ∈ leadsTo files device, place.owns device = false → ¬ place.Free → ¬ Mentioned files device

end Addresses

section Found

variable {s : Session Scripts D}

def nameAt (s : Session Scripts D) (address : Nat) : Option String :=
  (s.objects.find? (·.1 = address)).map (·.2.name)

structure Still (disk : D) (tables : List (Option Entries)) (files : Files Scripts) (s : Session Scripts D) : Prop where
  driver : Quiet disk tables s.driver files
  errcode : s.errcode = none
  kept : s.freed = false

theorem calling_answers {α : Type} {program : Api Scripts D α} {a : α}
    (answers : Answers (Loaded disk tables) Calm files program a) (still : Still disk tables files s) :
    ∃ driver, calling id program s = .ok (some a) { s with driver := driver } ∧
      Still disk tables files { s with driver := driver } := by
  obtain ⟨driver, run, shown, calm⟩ := answers.runs still.driver.1 still.driver.2
  refine ⟨driver, ?_, ⟨shown, calm⟩, still.errcode, still.kept⟩
  unfold calling
  rw [run]

theorem calling_failed {α : Type} {program : Api Scripts D α} {s : Session Scripts D} {code : Errcode}
    {after : Ncf Scripts D} (failed : program s.driver = .error code after) :
    ∃ last, calling id program s = .ok none last := by
  unfold calling
  rw [failed]
  exact ⟨_, rfl⟩

theorem answers_hasIfcfgFile (name : String) :
    Answers (Loaded disk tables) Calm files (hasIfcfgFile augeas name)
      (!(files.config.devices (files.config.related name)).isEmpty) :=
  answers_present _

theorem answers_isSlaveDevice (name : String) :
    Answers (Loaded disk tables) Calm files (isSlaveDevice augeas name)
      (subifPaths.any fun label => !(ownValues name label files).isEmpty) :=
  answers_anyM fun label _ => answers_present (ownValues name label)

theorem answers_augMatchMac {mac : String} {names : List String} (found : macMatches pathx mac files = some names) :
    Answers (Loaded disk tables) Calm files (augMatchMac augeas pathx mac) names :=
  (answers_attempt .nomem).bind ((answers_augFmtFind found).bind
    ((answers_forM (fun _ => answers_attempt .nomem) _).bind (answers_pure _)))

theorem macNames_still (names : List String) (still : Still disk tables files s) :
    ∃ driver, macNames augeas names s = .ok (some (names.filter (macPicks files))) { s with driver := driver } ∧
      Still disk tables files { s with driver := driver } := by
  induction names generalizing s with
  | nil => exact ⟨s.driver, rfl, still⟩
  | cons name rest ih =>
    obtain ⟨one, listed, still⟩ := calling_answers (answers_hasIfcfgFile name) still
    unfold macNames
    rw [bind_of_ok _ listed]
    cases related : !(files.config.devices (files.config.related name)).isEmpty with
    | false =>
      rw [List.filter_cons_of_neg (by simp [macPicks, related])]
      exact ih still
    | true =>
      obtain ⟨two, room, still⟩ := calling_answers (answers_attempt .nomem) still
      obtain ⟨three, tested, still⟩ := calling_answers (answers_isSlaveDevice name) still
      obtain ⟨driver, later, still⟩ := ih still
      refine ⟨driver, ?_, still⟩
      dsimp only
      rw [bind_of_ok _ room]
      dsimp only
      rw [bind_of_ok _ tested]
      cases slave : subifPaths.any fun label => !(ownValues name label files).isEmpty with
      | true =>
        rw [List.filter_cons_of_neg (by simp [macPicks, slave])]
        exact later
      | false =>
        rw [List.filter_cons_of_pos (by simp only [macPicks, related, slave]; rfl)]
        dsimp only
        rw [bind_of_ok _ later]
        rfl

theorem makeNetcfIf_still (name : String) (still : Still disk tables files s) :
    ∃ after, References.makeNetcfIf name s = .ok (some s.next) after ∧ Still disk tables files after ∧
      after.next = s.next + 1 ∧ after.objects = (s.next, ⟨1, name⟩) :: s.objects := by
  obtain ⟨driver, room, quiet⟩ := calling_answers (answers_attempt .nomem) still
  have made := makeNetcfIf_made name room quiet.kept
  exact ⟨_, made, ⟨quiet.driver, quiet.errcode, quiet.kept⟩, rfl, rfl⟩

-- What is stored in the array: new interfaces in the order of the names.
theorem fillSlots_still (names : List String) (still : Still disk tables files s) :
    ∃ slots after, fillSlots names s = .ok (true, slots) after ∧ Still disk tables files after ∧
      s.next ≤ after.next ∧ (∀ address, address < s.next → nameAt after address = nameAt s address) ∧
      slots.map (fun slot => slot.bind (nameAt after)) = names.map some := by
  induction names generalizing s with
  | nil => exact ⟨[], s, rfl, still, Nat.le_refl _, fun _ _ => rfl, rfl⟩
  | cons name rest ih =>
    obtain ⟨one, copied, still⟩ := calling_answers (answers_attempt .nomem) still
    obtain ⟨middle, made, between, next, objects⟩ := makeNetcfIf_still name still
    obtain ⟨slots, after, later, still, grown, kept, named⟩ := ih between
    rw [next] at grown kept
    have here : nameAt after s.next = some name := by
      rw [kept s.next (Nat.lt_succ_self _), nameAt, objects, List.find?_cons_of_pos (by simp)]
      rfl
    refine ⟨some s.next :: slots, after, ?_, still, Nat.le_of_succ_le grown, ?_, ?_⟩
    · unfold fillSlots
      rw [bind_of_ok _ copied]
      dsimp only
      rw [bind_of_ok _ made, bind_of_ok _ (failed_run middle), between.errcode]
      change (fillSlots rest >>= fun later => _) middle = _
      rw [bind_of_ok _ later]
      rfl
    · intro address earlier
      rw [kept address (Nat.lt_succ_of_lt earlier), nameAt, objects,
        List.find?_cons_of_neg (by simpa using Nat.ne_of_gt earlier)]
      rfl
    · rw [List.map_cons, List.map_cons, named, Option.bind_some, here]

-- A successful run of drv_lookup_by_mac_string, and the interfaces in its array.
theorem drvLookupByMacString_still {mac : String} {names : List String}
    (matching : macMatches pathx mac files = some names) (maxifaces : Nat) (still : Still disk tables files s) :
    ∃ slots after, drvLookupByMacString augeas pathx mac maxifaces s =
        .ok ((names.filter (macPicks files)).length, slots) after ∧
      slots.map (fun slot => slot.bind (nameAt after)) =
        ((names.filter (macPicks files)).take maxifaces).map some ++
          List.replicate (maxifaces - (names.filter (macPicks files)).length) none := by
  have loads : Answers (Loaded disk tables) Calm files (getAugeas augeas) () := answers_getAugeas
  obtain ⟨one, started, still⟩ := calling_answers loads still
  obtain ⟨two, matched, still⟩ := calling_answers (@answers_augMatchMac _ augeas _ _ _ _ _ _ matching) still
  unfold drvLookupByMacString
  rw [bind_of_ok _ started]
  dsimp only
  rw [bind_of_ok _ matched]
  cases names with
  | nil => exact ⟨nulls maxifaces, _, rfl, by simp [nulls]⟩
  | cons first others =>
    obtain ⟨three, room, still⟩ := calling_answers (answers_attempt .nomem) still
    obtain ⟨four, picked, still⟩ := @macNames_still _ augeas _ _ _ _ (first :: others) still
    rcases fillSlots_still (((first :: others).filter (macPicks files)).take maxifaces) still with
      ⟨slots, after, filled, still, _, _, named⟩
    refine ⟨slots ++ nulls (maxifaces - slots.length), after, ?_, ?_⟩
    · dsimp only
      rw [bind_of_ok _ room]
      dsimp only
      rw [bind_of_ok _ picked]
      dsimp only
      rw [bind_of_ok _ filled]
      rfl
    · have length := congrArg List.length named
      rw [List.length_map, List.length_map, List.length_take] at length
      rw [List.map_append, named, nulls, List.map_replicate, length]
      congr 2
      omega

end Found

section Query

-- Whether drv_lookup_by_name returns an interface.
def finds (augeas : Augeas Scripts D) (pathx : Pathx) (ncf : Ncf Scripts D) (name : String) : Bool :=
  (answer (drvLookupByName augeas pathx name ncf)).join.isSome

theorem finds_eq {name : String} (regular : Regular files) (askable : Askable files name)
    (readable : ∀ place ∈ leadsTo files name, place.Readable) {ncf : Ncf Scripts D}
    (quiet : Quiet disk tables ncf files) :
    finds augeas pathx ncf name = true ↔ Configured files name := by
  obtain ⟨found, run, _⟩ :=
    (@answers_lookup _ augeas pathx disk tables _ name regular askable readable).runs quiet.1 quiet.2
  rw [← @topLevel_iff pathx _ _ regular askable readable]
  unfold finds
  rw [run]
  cases topLevel pathx files name <;> simp [answer]

theorem not_isEmpty_flatMap {α β : Type} (f : α → List β) (list : List α) :
    (!(list.flatMap f).isEmpty) = list.any fun a => !(f a).isEmpty := by
  induction list with
  | nil => rfl
  | cons a rest ih =>
    rw [List.flatMap_cons, List.any_cons, ← ih]
    cases f a <;> simp

theorem macPicks_eq (single : ∀ script ∈ files.config.files, (script.values "DEVICE").length = 1) (name : String) :
    macPicks files name =
      (files.config.files.any (files.config.related name) && !(owned files name).any slaveScript) := by
  have related : (!(files.config.devices (files.config.related name)).isEmpty) =
      files.config.files.any (files.config.related name) := by
    rw [Scripts.devices, not_isEmpty_flatMap, List.any_filter]
    rw [Bool.eq_iff_iff, List.any_eq_true, List.any_eq_true]
    apply exists_congr
    intro script
    apply and_congr_right
    intro member
    have present : (script.values "DEVICE").isEmpty = false := by
      rw [List.isEmpty_eq_false_iff]
      intro none
      have one := single script member
      rw [none] at one
      cases one
    simp [present]
  have slaves : (subifPaths.any fun label => !(ownValues name label files).isEmpty) =
      (owned files name).any slaveScript := by
    unfold ownValues slaveScript owned
    simp only [not_isEmpty_flatMap]
    rw [Bool.eq_iff_iff]
    simp only [List.any_eq_true]
    constructor
    · rintro ⟨label, listed, script, member, there⟩
      exact ⟨script, member, label, listed, there⟩
    · rintro ⟨script, member, label, listed, there⟩
      exact ⟨label, listed, script, member, there⟩
  unfold macPicks
  rw [related, slaves]

theorem macPicks_iff (single : ∀ script ∈ files.config.files, (script.values "DEVICE").length = 1) (name : String) :
    macPicks files name = true ↔ Mentioned files name := by
  rw [macPicks_eq single, Bool.and_eq_true, Mentioned, Bool.not_eq_true', List.any_eq_false]
  simp only [Bool.not_eq_true]

theorem slaveScript_free {script : Script} : slaveScript script = false ↔ (Place.file script).Free := by
  simp [slaveScript, Place.Free, subifPaths, Place.values]

-- The two look-ups see the same devices where the files agree about them.
theorem agrees_iff (name : String) (readable : ∀ place ∈ leadsTo files name, place.Readable) :
    (Mentioned files name ↔ Configured files name) ↔ Agrees files name := by
  have speaks : ∀ script ∈ owned files name, files.config.files.any (files.config.related name) = true := by
    intro script member
    obtain ⟨listed, holds⟩ := List.mem_filter.mp member
    exact List.any_eq_true.mpr ⟨script, listed, by simp [Scripts.related, holds]⟩
  cases leads : leadsTo files name with
  | none =>
    have unowned : owned files name = [] := by
      rw [owned, List.filter_eq_nil_iff]
      intro script member holds
      have some_place := leadsTo_isSome ⟨script, member, holds⟩
      rw [leads] at some_place
      cases some_place
    have mentioned : Mentioned files name ↔ files.config.files.any (files.config.related name) = true := by
      simp [Mentioned, unowned]
    have unconfigured : ¬ Configured files name := by simp [Configured, leads]
    rw [mentioned, iff_false_right unconfigured, Bool.not_eq_true]
    constructor
    · intro unrelated
      exact ⟨readable, fun _ => unrelated, by simp [leads], by simp [leads], by simp [leads]⟩
    · exact fun agrees => agrees.nowhere leads
  | some place =>
    have configured : Configured files name ↔ place.Free := by simp [Configured, leads]
    rw [configured]
    constructor
    · intro same
      refine ⟨readable, fun nowhere => ?_, ?_, ?_, ?_⟩
      · cases leads.symm.trans nowhere
      · intro other found _ free
        cases leads.symm.trans found
        exact (same.mpr free).2
      · intro other found _ free
        cases leads.symm.trans found
        exact same.mpr free
      · intro other found _ taken
        cases leads.symm.trans found
        exact fun mentioned => taken (same.mp mentioned)
    · intro agrees
      cases owns : place.owns name with
      | false =>
        exact ⟨fun mentioned => by_contra fun taken => agrees.slave place leads owns taken mentioned,
          fun free => agrees.free place leads owns free⟩
      | true =>
        cases place with
        | entry script node => cases owns
        | file script =>
          have member : script ∈ owned files name := List.mem_filter.mpr ⟨(leadsTo_within leads).listed, owns⟩
          exact ⟨fun mentioned => slaveScript_free.mp (mentioned.2 script member),
            fun free => ⟨speaks script member, agrees.own _ leads owns free⟩⟩

theorem lowerMac_chars {address : String} (lower : lowerMac address = true) :
    address.toList.map Char.toLower = address.toList := by
  have each : "0123456789abcdef:".toList.all (fun c => c.toLower == c) = true := by decide
  conv_rhs => rw [← List.map_id address.toList]
  apply List.map_congr_left
  intro c member
  have listed := List.contains_iff_mem.mp (List.all_eq_true.mp lower c member)
  exact beq_iff_eq.mp (List.all_eq_true.mp each c listed)

theorem filter_strcaseeq {sysfs : List (String × String)} (lower : ∀ node ∈ sysfs, lowerMac node.2 = true)
    (mac : String) :
    sysfs.filter (fun node => strcaseeq node.2 mac) = sysfs.filter (·.2 = toLower mac) := by
  apply List.filter_congr
  intro node member
  unfold strcaseeq toLower
  rw [lowerMac_chars (lower node member)]
  apply decide_eq_decide.mpr
  constructor
  · intro same
    rw [← same, String.ofList_toList]
  · intro same
    rw [same, String.toList_ofList]

-- No address has a quote in it.
theorem filter_quoted {sysfs : List (String × String)} (lower : ∀ node ∈ sysfs, lowerMac node.2 = true) {mac : String}
    (quoted : '\'' ∈ mac.toList) : sysfs.filter (fun node => strcaseeq node.2 mac) = [] := by
  rw [filter_strcaseeq lower, List.filter_eq_nil_iff]
  intro node member same
  have inside : '\'' ∈ node.2.toList := by
    rw [of_decide_eq_true same, toLower, String.toList_ofList]
    exact List.mem_map.mpr ⟨'\'', quoted, rfl⟩
  have allowed := List.all_eq_true.mp (lower node member) _ inside
  revert allowed
  decide

theorem macMatches_unquoted (lower : ∀ node ∈ files.sysfs, lowerMac node.2 = true)
    {mac : String} (unquoted : '\'' ∉ mac.toList) : macMatches pathx mac files = some (devicesWith files mac) := by
  rw [devicesWith, filter_strcaseeq lower, macMatches, if_neg unquoted]

-- An expression with a quote in it may be refused.
theorem drvLookupByMacString_refused {mac : String} (quoted : '\'' ∈ mac.toList) (maxifaces : Nat)
    {s : Session Scripts D} (still : Still disk tables files s) :
    ∃ slots after, drvLookupByMacString augeas refusing mac maxifaces s = .ok (-1, slots) after := by
  have loads : Answers (Loaded disk tables) Calm files (getAugeas augeas) () := answers_getAugeas
  obtain ⟨one, started, still⟩ := calling_answers loads still
  have room : Answers (Loaded disk tables) Calm files (attempt .nomem : Api Scripts D Unit) () := answers_attempt _
  obtain ⟨two, copied, loaded, calm⟩ := room.runs still.driver.1 still.driver.2
  obtain ⟨three, refused⟩ :=
    @augFmtFind_refused _ _ disk tables files _ augeas _ (macMatches refusing mac) _ (if_pos quoted) loaded calm
  have failed : augMatchMac augeas refusing mac one = .error .other three :=
    (bind_of_ok _ copied).trans (bind_of_error _ refused)
  obtain ⟨last, given⟩ := calling_failed (s := { s with driver := one }) failed
  refine ⟨nulls maxifaces, last, ?_⟩
  unfold drvLookupByMacString
  rw [bind_of_ok _ started]
  dsimp only
  rw [bind_of_ok _ given]
  rfl

variable (regular : Regular files) (single : ∀ script ∈ files.config.files, (script.values "DEVICE").length = 1)
  (lower : ∀ node ∈ files.sysfs, lowerMac node.2 = true)

include lower in
-- An array of the right size shows all names.
theorem filtered_iff {mac : String} (unquoted : '\'' ∉ mac.toList) {s : Session Scripts D}
    (still : Still disk tables files s) (names : List String) :
    (∀ maxifaces, ∃ slots after, drvLookupByMacString augeas pathx mac maxifaces s = .ok (names.length, slots) after ∧
        slots.map (fun slot => slot.bind (nameAt after)) =
          (names.take maxifaces).map some ++ List.replicate (maxifaces - names.length) none) ↔
      (devicesWith files mac).filter (macPicks files) = names := by
  have matching := @macMatches_unquoted pathx _ lower _ unquoted
  constructor
  · intro shows
    obtain ⟨slots, after, run, stored⟩ := shows names.length
    rcases @drvLookupByMacString_still _ augeas pathx _ _ _ _ _ _ matching names.length still with
      ⟨others, last, ran, named⟩
    obtain ⟨pair, states⟩ := EStateM.Result.ok.inj (ran.symm.trans run)
    obtain ⟨count, arrays⟩ := Prod.mk.inj pair
    rw [arrays, states, Int.ofNat.inj count, stored, Nat.sub_self, List.replicate_zero, List.append_nil, List.append_nil,
      List.take_length, List.take_of_length_le (Int.ofNat.inj count).le] at named
    exact (List.map_injective_iff.mpr (Option.some_injective String) named).symm
  · rintro rfl maxifaces
    exact drvLookupByMacString_still matching maxifaces still

theorem labelledAt_allowed {path label : String} : (labelledAt withinScripts path label files).isSome = true := by
  unfold labelledAt
  cases scriptLabel path with
  | some name => rfl
  | none => dsimp only; split <;> rfl

-- A path that is not answered for certain is one without such nodes for the Augeas that finds nothing.
theorem labelledAt_refused {path label : String} (refused : labelledAt refusing path label files = none) :
    labelledAt withinScripts path label files = some [] := by
  unfold labelledAt at refused ⊢
  cases found : scriptLabel path with
  | some name =>
    rw [found] at refused
    cases refused
  | none => dsimp only; split <;> rfl

include regular in
theorem found_readable {name : String} (askable : Askable files name) {ncf : Ncf Scripts D}
    (loaded : Loaded disk tables ncf files) (found : finds augeas refusing ncf name = true) :
    ∀ place ∈ leadsTo files name, place.Readable := by
  intro place leads
  cases run : drvLookupByName augeas refusing name ncf with
  | error code after =>
    rw [finds, run] at found
    cases found
  | ok nif after =>
    obtain ⟨_, one, opening, rest⟩ := bind_ok run
    have still := (answers_getAugeas.ok loaded opening).2
    obtain ⟨path, two, searching, rest⟩ := bind_ok rest
    obtain ⟨_, same, still⟩ := found_ok regular still searching
    rw [foundPath_place regular askable, leads, Option.map_some] at same
    subst same
    obtain ⟨slave, three, asked, _⟩ := bind_ok rest
    exact readable_of_asked regular (leadsTo_within leads) ((isSlave_ok still asked).1 place.path rfl)

include regular in
-- What is refused to one driver and not to another makes a difference.
theorem readable_of_finds {name : String} (askable : Askable files name) {ncf : Ncf Scripts D}
    (quiet : Quiet disk tables ncf files)
    (same : finds augeas refusing ncf name = finds augeas withinScripts ncf name) :
    ∀ place ∈ leadsTo files name, place.Readable := by
  intro place leads
  by_contra unreadable
  have answer := @answers_lookup_asked _ augeas withinScripts disk tables files name regular askable
    fun _ _ _ _ => labelledAt_allowed
  have free : topLevel withinScripts files name = true := by
    have empty : ∀ label, labelledAt withinScripts place.path label files = some [] := by
      intro label
      refine labelledAt_refused (Option.not_isSome_iff_eq_none.mp fun asked => unreadable ?_)
      exact readable_of_asked regular (leadsTo_within leads) asked
    rw [topLevel, foundPath_place regular askable, leads, Option.map_some, Option.any_some, slavePath]
    simp [empty]
  obtain ⟨after, run, _⟩ := answer.runs quiet.1 quiet.2
  rw [free, if_pos rfl] at run
  have found : finds augeas withinScripts ncf name = true := by
    rw [finds, run]
    rfl
  exact unreadable (found_readable regular askable quiet.1 (same.trans found) place leads)

end Query

section Examples

def sessionWith (files : Files Scripts) : Session Scripts (Files Scripts) :=
  ⟨loadedWith files, none, 1, false, [], 0, 0⟩

theorem still_sessionWith (files : Files Scripts) :
    Still files [some augeasXfmCommon] files (sessionWith files) :=
  ⟨quiet_loadedWith files, rfl, rfl⟩

def oneCard : Files Scripts :=
  ⟨⟨[⟨"ifcfg-eth0", [⟨"DEVICE", some "eth0"⟩, ⟨"ONBOOT", some "yes"⟩]⟩], by decide⟩, [],
    [("eth0", "aa:bb:cc:dd:ee:ff")]⟩

-- The slave of a bond that has no file itself.
def looseSlave : Files Scripts :=
  ⟨⟨[⟨"ifcfg-eth0", [⟨"DEVICE", some "eth0"⟩, ⟨"MASTER", some "bond0"⟩]⟩], by decide⟩, [],
    [("bond0", "aa:bb:cc:dd:ee:ff")]⟩

end Examples

end Netcf.RedHat
