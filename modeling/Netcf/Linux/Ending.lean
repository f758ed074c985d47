import Netcf.Linux.Topology

set_option autoImplicit false

-- The recursion of add_type_specific_info ends, whatever fails on the way.
namespace Netcf.Linux.Live

open Shared.Faulty

section Sound

variable {δ ε α β : Type}

-- A program that ends, at its label at the latest.
def Sound (program : Fill δ α) : Prop :=
  ∀ s e after, program s = .error e after → e = .failed

def Settles (program : Fill δ α) : Prop :=
  ∀ s, ∃ a after, program s = .ok a after

theorem Settles.sound {program : Fill δ α} (settles : Settles program) : Sound program := by
  intro s e after run
  obtain ⟨a, last, ran⟩ := settles s
  cases ran.symm.trans run

theorem sound_pure (a : α) : Sound (pure a : Fill δ α) := fun _ _ _ run => by cases run

theorem Sound.bind {first : Fill δ α} {next : α → Fill δ β} (before : Sound first) (after : ∀ a, Sound (next a)) :
    Sound (first >>= next) := by
  intro s e last run
  rcases bind_error run with failed | ⟨a, middle, _, later⟩
  · exact before s e last failed
  · exact after a middle e last later

theorem sound_ite {test : Prop} [Decidable test] {left right : Fill δ α} (yes : Sound left) (no : Sound right) :
    Sound (if test then left else right) := by
  split_ifs
  · exact yes
  · exact no

theorem sound_forM {f : α → Fill δ Unit} {list : List α} (each : ∀ a ∈ list, Sound (f a)) :
    Sound (list.forM f) := by
  induction list with
  | nil => exact sound_pure _
  | cons a rest ih =>
    exact (each a List.mem_cons_self).bind fun _ => ih fun b member => each b (List.mem_cons_of_mem _ member)

theorem sound_get : Sound (get : Fill δ (Filling δ)) := fun _ _ _ run => by cases run

theorem sound_nomem : Sound (nomem : Fill δ α) := fun _ _ _ run => by
  cases run
  rfl

theorem settles_allocFails : Settles (allocFails : Fill δ Bool) := by
  intro s
  unfold allocFails
  split
  · exact ⟨_, _, rfl⟩
  · exact ⟨_, _, rfl⟩

theorem sound_allocFails : Sound (allocFails : Fill δ Bool) :=
  settles_allocFails.sound

theorem sound_errBail : Sound (errBail : Fill δ Unit) := by
  refine sound_get.bind fun s => sound_ite ?_ (sound_pure _)
  intro _ _ _ run
  cases run
  rfl

theorem sound_errNomem {program : Fill δ (Option α)} (sound : Sound program) : Sound (errNomem program) := by
  refine sound.bind fun a => ?_
  cases a with
  | some a => exact sound_pure a
  | none => exact sound_nomem

theorem sound_xmlNewNode (name : String) : Sound (xmlNewNode name : Fill δ (Option Nat)) :=
  sound_allocFails.bind fun _ => sound_ite (sound_pure _) (sound_get.bind fun _ _ _ _ run => by cases run)

theorem sound_xmlNode (name : String) : Sound (xmlNode name : Fill δ (Option Nat)) := by
  refine sound_get.bind fun s => ?_
  split
  · exact sound_pure _
  · exact sound_xmlNewNode name

theorem sound_xmlSetProp (name value : String) : Sound (xmlSetProp name value : Fill δ (Option Unit)) :=
  sound_allocFails.bind fun _ => sound_ite (sound_pure _) fun _ _ _ run => by cases run

theorem sound_xmlNewProp (name value : String) : Sound (xmlNewProp name value : Fill δ (Option Unit)) :=
  sound_allocFails.bind fun _ => sound_ite (sound_pure _) fun _ _ _ run => by cases run

theorem settles_untilError {program : Fill δ α} (sound : Sound program) (ret : α) :
    Settles (untilError ret program) := by
  intro s
  unfold untilError
  cases run : program s with
  | ok a after => exact ⟨a, after, rfl⟩
  | error e after =>
    rw [sound s e after run]
    exact ⟨ret, after, rfl⟩

theorem sound_foreach {objects : List β} (start : ε) {callback : β → Fill ε Unit}
    (each : ∀ object ∈ objects, Sound (callback object)) : Sound (foreach objects start callback : Fill δ Unit) := by
  intro s e after run
  unfold foreach at run
  split at run
  · cases run
  · cases run
    exact sound_forM each _ _ _ (by assumption)

def Points (place : Nat) (s : Filling δ) : Prop :=
  ∃ name attributes children, s.children[place]? = some (.element name attributes children)

-- A pointer is used only where it has just been obtained.
theorem sound_within {find : Fill δ Nat} (sound : Sound find)
    (points : ∀ s place after, find s = .ok place after → Points place after) {program : Fill Unit α}
    (inner : Sound program) : Sound (find >>= fun place => within place program) := by
  intro s e after run
  rcases bind_error run with failed | ⟨place, middle, found, later⟩
  · exact sound s e after failed
  · obtain ⟨name, attributes, children, there⟩ := points s place middle found
    unfold within at later
    rw [there] at later
    dsimp only at later
    cases result : program (middle.enter attributes children) with
    | ok a last =>
      rw [result] at later
      cases later
    | error stop last =>
      rw [result] at later
      cases later
      exact inner _ _ _ result

theorem points_errNomem {find : Fill δ (Option Nat)}
    (points : ∀ s place after, find s = .ok (some place) after → Points place after) (s : Filling δ) (place : Nat)
    (after : Filling δ) (run : errNomem find s = .ok place after) : Points place after := by
  obtain ⟨result, middle, found, rest⟩ := bind_ok run
  cases result with
  | none => cases rest
  | some there =>
    cases rest
    exact points s place _ found

theorem points_xmlNewNode (name : String) (s : Filling δ) (place : Nat) (after : Filling δ)
    (run : xmlNewNode name s = .ok (some place) after) : Points place after := by
  obtain ⟨fails, middle, _, rest⟩ := bind_ok run
  cases fails with
  | true => cases rest
  | false =>
    cases rest
    exact ⟨name, [], [], List.getElem?_concat_length⟩

theorem points_xmlNode (name : String) (s : Filling δ) (place : Nat) (after : Filling δ)
    (run : xmlNode name s = .ok (some place) after) : Points place after := by
  obtain ⟨seen, middle, same, rest⟩ := bind_ok run
  cases same
  cases search : s.children.findIdx? (Node.hasName name) with
  | none =>
    rw [search] at rest
    exact points_xmlNewNode name s place after rest
  | some there =>
    rw [search] at rest
    cases rest
    obtain ⟨bound, holds, _⟩ := List.findIdx?_eq_some_iff_getElem.mp search
    cases node : s.children[place] with
    | other text =>
      rw [node] at holds
      cases holds
    | element own attributes children => exact ⟨own, attributes, children, by rw [List.getElem?_eq_getElem bound, node]⟩

end Sound

section Ending

variable {δ α : Type} (topology : Topology) {iflink : RtnlLink} {recur : String → Nat → Fill Unit Unit}

-- Behind an allocation with its ERR_NOMEM.
theorem sound_checked {next : Fill δ α} (sound : Sound next) :
    Sound (allocFails >>= fun fails => if fails = true then nomem >>= fun _ : Unit => next else next) :=
  sound_allocFails.bind fun _ => sound_ite (sound_nomem.bind fun _ => sound) sound

theorem sound_ifType (system : System) (intf : String) : Sound (ifType system intf : Fill δ IfType) := by
  refine (settles_untilError ?_ _).sound
  refine sound_checked (sound_ite (sound_pure _) ?_)
  refine sound_checked (sound_ite (sound_pure _) ?_)
  exact sound_checked (sound_ite (sound_pure _) (sound_pure _))

theorem sound_copyNames (names : List String) : Sound (copyNames names : Fill δ (List String)) := by
  induction names with
  | nil => exact sound_pure _
  | cons name rest ih =>
    have later : Sound (copyNames rest >>= fun names => pure (name :: names) : Fill δ (List String)) :=
      ih.bind fun _ => sound_pure _
    exact sound_ite (sound_checked (sound_checked later)) ih

theorem copyNames_names (names : List String) {s after : Filling δ} {result : List String}
    (run : copyNames names s = .ok result after) :
    result = names.filter fun entry => entry ≠ "." ∧ entry ≠ ".." := by
  induction names generalizing s result with
  | nil =>
    cases run
    rfl
  | cons name rest ih =>
    rw [copyNames] at run
    by_cases kept : name ≠ "." ∧ name ≠ ".."
    · rw [if_pos kept] at run
      obtain ⟨first, one, _, run⟩ := bind_ok run
      cases first with
      | true => cases run
      | false =>
        obtain ⟨second, two, _, run⟩ := bind_ok run
        cases second with
        | true => cases run
        | false =>
          obtain ⟨later, three, copied, run⟩ := bind_ok run
          cases run
          rw [List.filter_cons_of_pos (by simpa using kept), ih copied]
    · rw [if_neg kept] at run
      rw [List.filter_cons_of_neg (by simpa using kept)]
      exact ih run

theorem physName_names (system : System) (intf : String) {s after : Filling δ} {names : List String}
    (run : ifBridgePhysName system intf s = .ok (some names) after) : names = system.portsOf intf := by
  unfold ifBridgePhysName untilError at run
  split at run
  · cases run
  · obtain ⟨fails, middle, _, rest⟩ := bind_ok run
    unfold System.portsOf
    cases fails with
    | true => cases rest
    | false =>
      cases opened : system.readdir ("/sys/class/net/" ++ intf ++ "/brif") with
      | none =>
        rw [opened] at rest
        cases rest
        rfl
      | some entries =>
        rw [opened] at rest
        obtain ⟨copied, last, ran, rest⟩ := bind_ok rest
        cases rest
        exact copyNames_names entries ran

theorem settles_ifBridgePhysName (system : System) (intf : String) :
    Settles (ifBridgePhysName system intf : Fill δ (Option (List String))) := by
  refine settles_untilError (sound_checked ?_) _
  split
  · exact sound_pure _
  · exact (sound_copyNames _).bind fun _ => sound_pure _

theorem sound_remember {find : Fill (Option Nat) Nat} (sound : Sound find) : Sound (remember find) :=
  sound.bind fun _ _ _ _ run => by cases run

theorem points_remember {find : Fill (Option Nat) Nat}
    (points : ∀ s place after, find s = .ok place after → Points place after) (s : Filling (Option Nat)) (place : Nat)
    (after : Filling (Option Nat)) (run : remember find s = .ok place after) : Points place after := by
  obtain ⟨there, middle, found, rest⟩ := bind_ok run
  cases rest
  exact points s _ middle found

theorem sound_inNew (name : String) {program : Fill Unit α} (inner : Sound program) :
    Sound (errNomem (xmlNewNode name) >>= fun place => within place program : Fill δ α) :=
  sound_within (sound_errNomem (sound_xmlNewNode name)) (points_errNomem (points_xmlNewNode name)) inner

theorem sound_inNode (name : String) {program : Fill Unit α} (inner : Sound program) :
    Sound (errNomem (xmlNode name) >>= fun place => within place program : Fill δ α) :=
  sound_within (sound_errNomem (sound_xmlNode name)) (points_errNomem (points_xmlNode name)) inner

theorem sound_inRemembered (name : String) {program : Fill Unit α} (inner : Sound program) :
    Sound (remember (errNomem (xmlNode name)) >>= fun place => within place program) :=
  sound_within (sound_remember (sound_errNomem (sound_xmlNode name)))
    (points_remember (points_errNomem (points_xmlNode name))) inner

theorem settles_addEthernetInfo (system : System) (ifindex : Nat) : Settles (addEthernetInfo system ifindex) := by
  have callback : ∀ iflink, Sound (addEthernetInfoCb system iflink) := by
    intro iflink
    refine (settles_untilError (sound_get.bind fun s => sound_ite ?_ (sound_pure _)) _).sound
    split
    · exact sound_pure _
    · exact sound_ite (sound_pure _) (sound_inRemembered "mac" (sound_errNomem (sound_xmlSetProp _ _)))
  have each := @sound_foreach Unit (Option Nat) _ (system.linkCache.filter (·.ifindex = ifindex)) none _
    fun iflink _ => callback iflink
  exact settles_untilError (sound_ite (sound_pure _) (sound_checked each)) _

theorem settles_addVlanInfo (member : iflink ∈ topology.linkCache) (kind : topology.kindOf iflink.name = .vlan)
    (below : ∀ link ∈ topology.below iflink, Sound (recur link.name link.ifindex)) :
    Settles (addVlanInfo topology.toSystem recur iflink.ifindex) := by
  have callback : Sound (addVlanInfoCb topology.toSystem recur iflink) := by
    refine (settles_untilError (sound_get.bind fun s => sound_ite (sound_pure _) (sound_ite (sound_pure _)
      (sound_ite (sound_pure _) ?_))) _).sound
    cases found : topology.rtnlLinkGet iflink.link with
    | none => exact sound_pure _
    | some master =>
      have under := master_below topology kind found
      have cached := below_cached _ _ _ under
      dsimp only
      simp only [name2i_cached topology cached, if_neg (topology.indexed master cached)]
      exact sound_inRemembered "vlan" ((sound_errNomem (sound_xmlSetProp _ _)).bind fun _ =>
        sound_inNew "interface" (below master under))
  have each := @sound_foreach Unit (Option Nat) _ (topology.linkCache.filter (·.ifindex = iflink.ifindex)) none _
    fun other there => by
      rw [filter_cached topology member, List.mem_singleton] at there
      exact there ▸ callback
  exact settles_untilError (sound_ite (sound_pure _) (sound_checked (each.bind fun _ => sound_errBail))) _

theorem settles_addBridgeInfo (member : iflink ∈ topology.linkCache) (kind : topology.kindOf iflink.name = .bridge)
    (below : ∀ link ∈ topology.below iflink, Sound (recur link.name link.ifindex)) :
    Settles (addBridgeInfo topology.toSystem recur iflink.name) := by
  refine settles_untilError (sound_inNode "bridge" ?_) _
  intro s e after run
  rcases bind_error run with failed | ⟨names, middle, found, later⟩
  · exact (settles_ifBridgePhysName _ _).sound s e after failed
  · cases names with
    | none => cases later
    | some names =>
      have listed := physName_names topology.toSystem iflink.name found
      refine sound_forM (fun port there => ?_) middle e after later
      obtain ⟨link, under, named, rfl⟩ := port_below topology member kind (listed ▸ there)
      unfold addPort
      rw [name2i_cached topology (below_cached _ _ _ under)]
      exact sound_inNew "interface" (below link under)

theorem sound_addBondInfo (kind : topology.kindOf iflink.name = .bond)
    (below : ∀ link ∈ topology.below iflink, Sound (recur link.name link.ifindex)) :
    Sound (addBondInfo topology.toSystem recur iflink.ifindex) := by
  refine sound_ite (sound_pure _) (sound_foreach () fun slave cached => ?_)
  refine (settles_untilError ?_ _).sound
  rw [not_isSlaveOf]
  cases enslaved : isSlaveOf iflink.ifindex slave with
  | false => exact sound_pure _
  | true => exact sound_inNode "bond" (sound_inNew "interface" (below slave (slave_below topology kind cached enslaved)))

theorem checked_ok {next : Fill δ α} {s after : Filling δ} {a : α}
    (run : (allocFails >>= fun fails => if fails = true then nomem >>= fun _ : Unit => next else next) s = .ok a after) :
    ∃ middle, next middle = .ok a after := by
  obtain ⟨fails, middle, _, rest⟩ := bind_ok run
  cases fails with
  | true => cases rest
  | false => exact ⟨middle, rest⟩

theorem ifType_kind (system : System) (intf : String) {s after : Filling δ} {iftype : IfType}
    (run : ifType system intf s = .ok iftype after) : iftype = system.kindOf intf ∨ iftype = .none := by
  unfold ifType untilError at run
  unfold System.kindOf
  split at run
  · cases run
    exact Or.inr rfl
  · obtain ⟨first, rest⟩ := checked_ok run
    by_cases vlan : system.isReg ("/proc/net/vlan/" ++ intf) = true
    · rw [if_pos vlan] at rest ⊢
      cases rest
      exact Or.inl rfl
    · rw [if_neg vlan] at rest ⊢
      obtain ⟨second, rest⟩ := checked_ok rest
      by_cases bridge : system.isDir ("/sys/class/net/" ++ intf ++ "/bridge") = true
      · rw [if_pos bridge] at rest ⊢
        cases rest
        exact Or.inl rfl
      · rw [if_neg bridge] at rest ⊢
        obtain ⟨third, rest⟩ := checked_ok rest
        by_cases bond : system.isDir ("/sys/class/net/" ++ intf ++ "/bonding") = true
        · rw [if_pos bond] at rest ⊢
          cases rest
          exact Or.inl rfl
        · rw [if_neg bond] at rest ⊢
          cases rest
          exact Or.inl rfl

-- It comes to an end whatever fails, when the calls for the links below do.
theorem settles_addTypeSpecificInfo (member : iflink ∈ topology.linkCache) {fuel : Nat}
    (below : ∀ link ∈ topology.below iflink,
      Settles (addTypeSpecificInfo topology.toSystem fuel link.name link.ifindex)) :
    Settles (addTypeSpecificInfo topology.toSystem (fuel + 1) iflink.name iflink.ifindex) := by
  have deeper : ∀ link ∈ topology.below iflink,
      Sound (addTypeSpecificInfo topology.toSystem fuel link.name link.ifindex) := fun link under =>
    (below link under).sound
  refine settles_untilError ((sound_errNomem (sound_xmlNewProp _ _)).bind fun _ => ?_) _
  intro s e after run
  rcases bind_error run with failed | ⟨iftype, middle, found, later⟩
  · exact sound_ifType _ _ s e after failed
  · refine (sound_errBail.bind fun _ => ?_ : Sound _) middle e after later
    have typed : ∀ (iftypeStr : String) {act : Fill Unit Unit}, Sound act →
        Sound (errNomem (xmlSetProp "type" iftypeStr) >>= fun _ => act) := fun iftypeStr _ filled =>
      (sound_errNomem (sound_xmlSetProp "type" iftypeStr)).bind fun _ => filled
    rcases ifType_kind _ _ found with kind | none_known
    · cases iftype with
      | none => exact sound_pure _
      | ethernet => exact typed "ethernet" (settles_addEthernetInfo _ _).sound
      | bond => exact typed "bond" (sound_addBondInfo topology kind.symm deeper)
      | bridge => exact typed "bridge" (settles_addBridgeInfo topology member kind.symm deeper).sound
      | vlan => exact typed "vlan" (settles_addVlanInfo topology member kind.symm deeper).sound
    · rw [none_known]
      exact sound_pure _

end Ending

end Netcf.Linux.Live
