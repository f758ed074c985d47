import Netcf.Linux.Define

set_option autoImplicit false

-- Reference counts (ref.h, dutil.c): a netcf object, the interfaces that refer to it, and the error
-- code that stays set until the next API entry.
namespace Netcf.Linux.References

open Shared.Faulty

-- REF_MAX: a count that has got there stays.
def refMax : Nat := 2 ^ 32 - 1

structure Object where
  ref : Nat
  name : String

-- The ways in which a run ends at once: an assertion that fails, the use of freed memory, or the free of a
-- pointer that nothing has been put into.
inductive Abort
  | assertion
  | freed
  | wild
  deriving DecidableEq

-- Interfaces are kept by address; `peak` remembers how many have been alive at once.
structure Session (C D : Type) where
  driver : Ncf C D
  errcode : Option Errcode
  ref : Nat
  freed : Bool
  objects : List (Nat × Object)
  next : Nat
  peak : Nat

abbrev Program (C D : Type) := EStateM Abort (Session C D)

variable {C D ε α : Type}

-- A call that reports its error in errcode.
def calling (code : ε → Errcode) (program : EStateM ε (Ncf C D) α) : Program C D (Option α) := fun s =>
  match program s.driver with
  | .ok a after => .ok (some a) { s with driver := after }
  | .error e after => .ok none { s with driver := after, errcode := some (code e) }

-- The condition of ERR_BAIL.
def failed : Program C D Bool := return (← get).errcode.isSome

def apiEntry : Program C D Unit :=
  modify fun s => { s with driver := Linux.apiEntry s.driver, errcode := none }

def assert (condition : Bool) : Program C D Unit :=
  if condition then pure () else throw .assertion

def object (address : Nat) : Program C D Object := do
  match (← get).objects.find? (·.1 = address) with
  | some found => pure found.2
  | none => throw .freed

-- ref(ncf)
def refNetcf : Program C D Unit := do
  if (← get).freed then throw .freed
  modify fun s => { s with ref := if s.ref = refMax then s.ref else s.ref + 1 }

def freeNetcf : Program C D Unit := do
  assert ((← get).ref = 0)
  modify fun s => { s with freed := true }

-- unref(ncf, netcf)
def unrefNetcf : Program C D Unit := do
  if (← get).freed then throw .freed
  if (← get).ref ≠ refMax then
    assert (0 < (← get).ref)
    modify fun s => { s with ref := s.ref - 1 }
    if (← get).ref = 0 then freeNetcf

def freeNetcfIf (address : Nat) : Program C D Unit := do
  assert ((← object address).ref = 0)
  unrefNetcf
  modify fun s => { s with objects := s.objects.filter (·.1 ≠ address) }

def withRef (address count : Nat) (objects : List (Nat × Object)) : List (Nat × Object) :=
  objects.map fun entry => if entry.1 = address then (address, { entry.2 with ref := count }) else entry

def setRef (address count : Nat) : Program C D Unit :=
  modify fun s => { s with objects := withRef address count s.objects }

def unrefObject (address : Nat) : Program C D Unit := do
  let found ← object address
  if found.ref ≠ refMax then
    assert (0 < found.ref)
    setRef address (found.ref - 1)
    if found.ref - 1 = 0 then freeNetcfIf address

-- unref(nif, netcf_if)
def unref : Option Nat → Program C D Unit
  | none => pure ()
  | some address => unrefObject address

def makeNetcfIf (name : String) : Program C D (Option Nat) := do
  match ← calling id (attempt .nomem) with
  | none => pure none
  | some () =>
    let address := (← get).next
    refNetcf
    modify fun s => { s with
      objects := (address, ⟨1, name⟩) :: s.objects, next := address + 1
      peak := max s.peak (s.objects.length + 1) }
    return some address

-- The end of drv_define and drv_lookup_by_name: an error on the way drops the new interface.
def returnNetcfIf (name : String) : Program C D (Option Nat) := do
  let nif ← makeNetcfIf name
  if ← failed then
    unref nif
    return none
  else return nif

def ncfIfFree (nif : Option Nat) : Program C D Unit :=
  unref nif

-- drv_close gives back what the driver holds, and no count depends on it.
def ncfClose : Program C D Int := do
  apiEntry
  if 1 < (← get).ref then
    modify fun s => { s with errcode := some .inUse }
    return -1
  else
    unrefNetcf
    return 0

-- The interfaces that are alive are those at LIVE, each with one reference, and the netcf object has one reference
-- more than there are interfaces unless its count has got stuck.
structure Counted (live : List Nat) (s : Session C D) : Prop where
  kept : s.freed = false
  alive : (s.objects.map (·.1)).Perm live
  distinct : live.Nodup
  earlier : ∀ address ∈ live, address < s.next
  single : ∀ entry ∈ s.objects, entry.2.ref = 1
  bounded : live.length ≤ s.peak
  exact : s.peak < refMax - 1 → s.ref = 1 + live.length
  stuck : s.ref = 1 + live.length ∨ s.ref = refMax

variable {live : List Nat} {s : Session C D}

theorem Counted.frame (counted : Counted live s) (driver : Ncf C D) (errcode : Option Errcode) :
    Counted live { s with driver := driver, errcode := errcode } :=
  ⟨counted.kept, counted.alive, counted.distinct, counted.earlier, counted.single, counted.bounded, counted.exact,
    counted.stuck⟩

theorem Counted.perm (counted : Counted live s) {other : List Nat} (same : live.Perm other) : Counted other s :=
  ⟨counted.kept, counted.alive.trans same, same.nodup_iff.mp counted.distinct,
    fun address member => counted.earlier address (same.mem_iff.mpr member), counted.single,
    same.length_eq ▸ counted.bounded, same.length_eq ▸ counted.exact, same.length_eq ▸ counted.stuck⟩

theorem calling_cases (code : ε → Errcode) (program : EStateM ε (Ncf C D) α) (s : Session C D) :
    ∃ answer driver errcode, calling code program s = .ok answer { s with driver := driver, errcode := errcode } ∧
      (answer.isSome = true → errcode = s.errcode) ∧ (answer = none → errcode.isSome = true) := by
  unfold calling
  cases program s.driver with
  | ok a after => exact ⟨some a, after, s.errcode, rfl, fun _ => rfl, nofun⟩
  | error e after => exact ⟨none, after, some (code e), rfl, nofun, fun _ => rfl⟩

theorem refNetcf_run (kept : s.freed = false) :
    refNetcf s = .ok () { s with ref := if s.ref = refMax then s.ref else s.ref + 1 } := by
  unfold refNetcf
  rw [bind_of_ok _ (get_run s), if_neg (Bool.eq_false_iff.mp kept)]
  rfl

def withObject (name : String) (s : Session C D) : Session C D :=
  { s with
    ref := if s.ref = refMax then s.ref else s.ref + 1
    objects := (s.next, ⟨1, name⟩) :: s.objects, next := s.next + 1
    peak := max s.peak (s.objects.length + 1) }

theorem Counted.added (counted : Counted live s) (name : String) :
    Counted (s.next :: live) (withObject name s) := by
  have same : s.objects.length = live.length := by
    rw [← counted.alive.length_eq, List.length_map]
  refine ⟨counted.kept, counted.alive.cons s.next, ?_, ?_, ?_, ?_, ?_, ?_⟩
  · exact List.nodup_cons.mpr ⟨fun old => Nat.lt_irrefl _ (counted.earlier _ old), counted.distinct⟩
  · intro address member
    rcases List.mem_cons.mp member with rfl | old
    · exact Nat.lt_succ_self _
    · exact Nat.lt_succ_of_lt (counted.earlier address old)
  · intro entry member
    rcases List.mem_cons.mp member with rfl | old
    · rfl
    · exact counted.single entry old
  · rw [List.length_cons, withObject, same]
    exact Nat.le_max_right _ _
  · intro below
    unfold withObject at below ⊢
    dsimp only at below
    have before := counted.exact (by omega)
    have room : s.ref ≠ refMax := by omega
    dsimp only
    rw [if_neg room, before, List.length_cons]
    omega
  · unfold withObject
    dsimp only
    split
    · exact Or.inr (by assumption)
    · rcases counted.stuck with exact' | stuck
      · left
        rw [exact', List.length_cons]
        omega
      · contradiction

theorem makeNetcfIf_made (name : String) {middle : Session C D}
    (room : calling id (attempt .nomem : Api C D Unit) s = .ok (some ()) middle) (kept : middle.freed = false) :
    makeNetcfIf name s = .ok (some middle.next) (withObject name middle) := by
  unfold makeNetcfIf
  rw [bind_of_ok _ room]
  change ((get : Program C D (Session C D)) >>= fun found => _) _ = _
  rw [bind_of_ok _ (get_run _), bind_of_ok _ (refNetcf_run kept)]
  rfl

theorem makeNetcfIf_counted (counted : Counted live s) (name : String) :
    ∃ answer after, makeNetcfIf name s = .ok answer after ∧
      (answer = none ∧ after.errcode.isSome = true ∧ Counted live after ∨
        answer = some s.next ∧ after.errcode = s.errcode ∧ after.objects = (s.next, ⟨1, name⟩) :: s.objects ∧
          Counted (s.next :: live) after) := by
  obtain ⟨answer, driver, errcode, called, same, set⟩ := calling_cases id (attempt .nomem : Api C D Unit) s
  have framed := counted.frame driver errcode
  cases answer with
  | none =>
    unfold makeNetcfIf
    rw [bind_of_ok _ called]
    exact ⟨none, _, rfl, Or.inl ⟨rfl, set rfl, framed⟩⟩
  | some _ =>
    have made := makeNetcfIf_made name called framed.kept
    exact ⟨_, _, made, Or.inr ⟨rfl, same rfl, rfl, framed.added name⟩⟩

theorem assert_run {condition : Bool} (holds : condition = true) : assert condition s = .ok () s := by
  unfold assert
  rw [if_pos holds]
  rfl

theorem object_run {address : Nat} {entry : Nat × Object} (found : s.objects.find? (·.1 = address) = some entry) :
    object address s = .ok entry.2 s := by
  unfold object
  rw [bind_of_ok _ (get_run s), found]
  rfl

theorem unrefNetcf_run (kept : s.freed = false) (more : 1 < s.ref) :
    unrefNetcf s = .ok () { s with ref := if s.ref = refMax then s.ref else s.ref - 1 } := by
  unfold unrefNetcf
  rw [bind_of_ok _ (get_run s), if_neg (Bool.eq_false_iff.mp kept)]
  change ((get : Program C D (Session C D)) >>= fun found => _) s = _
  rw [bind_of_ok _ (get_run s)]
  by_cases top : s.ref = refMax
  · rw [if_neg (not_not.mpr top), if_pos top]
    rfl
  · rw [if_pos top, if_neg top, bind_of_ok _ (get_run s), bind_of_ok _ (assert_run (by simp; omega))]
    have last : (if s.ref - 1 = 0 then freeNetcf else pure () : Program C D Unit) { s with ref := s.ref - 1 } =
        .ok () { s with ref := s.ref - 1 } := by
      rw [if_neg (Nat.sub_ne_zero_of_lt more)]
      rfl
    exact last

theorem Counted.removed (counted : Counted live s) {address : Nat} (member : address ∈ live) :
    Counted (live.erase address) { s with
      ref := if s.ref = refMax then s.ref else s.ref - 1
      objects := s.objects.filter (·.1 ≠ address) } := by
  have shorter := List.length_erase_of_mem member
  have positive := List.length_pos_of_mem member
  refine ⟨counted.kept, ?_, counted.distinct.erase address, ?_, ?_, ?_, ?_, ?_⟩
  · have filtered := counted.alive.filter (· != address)
    rw [List.filter_map] at filtered
    rw [counted.distinct.erase_eq_filter]
    convert filtered using 3
    funext entry
    rw [Function.comp_apply, decide_not]
    rfl
  · exact fun other old => counted.earlier other (List.mem_of_mem_erase old)
  · exact fun entry old => counted.single entry (List.mem_of_mem_filter old)
  · exact (by omega : (live.erase address).length ≤ live.length).trans counted.bounded
  · intro below
    have before := counted.exact below
    have bounded := counted.bounded
    dsimp only at below ⊢
    rw [if_neg (by omega), before]
    omega
  · dsimp only
    split
    · exact Or.inr (by assumption)
    · rcases counted.stuck with exact' | stuck
      · left
        rw [exact']
        omega
      · contradiction

theorem find_withRef {address : Nat} {objects : List (Nat × Object)} {found : Nat × Object}
    (first : objects.find? (·.1 = address) = some found) (count : Nat) :
    (withRef address count objects).find? (·.1 = address) = some (address, { found.2 with ref := count }) := by
  induction objects with
  | nil => cases first
  | cons entry rest ih =>
    unfold withRef
    rw [List.map_cons]
    rw [List.find?_cons] at first ⊢
    by_cases here : entry.1 = address
    · simp only [here, decide_true] at first
      cases first
      simp [here]
    · simp only [here, decide_false] at first
      simp only [here, if_false, decide_false]
      exact ih first

theorem filter_withRef (address count : Nat) (objects : List (Nat × Object)) :
    (withRef address count objects).filter (·.1 ≠ address) = objects.filter (·.1 ≠ address) := by
  induction objects with
  | nil => rfl
  | cons entry rest ih =>
    unfold withRef at ih ⊢
    rw [List.map_cons, List.filter_cons, List.filter_cons, ih]
    by_cases here : entry.1 = address <;> simp [here]

theorem Counted.object_ok (counted : Counted live s) {address : Nat} (member : address ∈ live) :
    ∃ found, object address s = .ok found s ∧ found.ref = 1 ∧
      ∃ entry, s.objects.find? (·.1 = address) = some entry ∧ entry.2 = found := by
  have listed : address ∈ s.objects.map (·.1) := counted.alive.mem_iff.mpr member
  obtain ⟨entry, held, same⟩ := List.mem_map.mp listed
  have some : (s.objects.find? (·.1 = address)).isSome = true :=
    List.find?_isSome.mpr ⟨entry, held, decide_eq_true same⟩
  obtain ⟨found, first⟩ := Option.isSome_iff_exists.mp some
  exact ⟨found.2, object_run first, counted.single found (List.mem_of_find?_eq_some first), found, first, rfl⟩

theorem unref_run (counted : Counted live s) {address : Nat} (member : address ∈ live) :
    unref (some address) s = .ok () { s with
      ref := if s.ref = refMax then s.ref else s.ref - 1
      objects := s.objects.filter (·.1 ≠ address) } := by
  obtain ⟨_, looked, one, found, first, rfl⟩ := counted.object_ok member
  have more : 1 < s.ref := by
    have positive := List.length_pos_of_mem member
    rcases counted.stuck with exact' | stuck
    · omega
    · rw [stuck]
      decide
  let marked := withRef address 0 s.objects
  have unrefed : unrefNetcf { s with objects := marked } = .ok ()
      { s with ref := if s.ref = refMax then s.ref else s.ref - 1, objects := marked } :=
    unrefNetcf_run counted.kept more
  have freeing : freeNetcfIf address { s with objects := marked } = .ok ()
      { s with ref := if s.ref = refMax then s.ref else s.ref - 1, objects := marked.filter (·.1 ≠ address) } := by
    unfold freeNetcfIf
    rw [bind_of_ok _ (object_run (find_withRef first 0)), bind_of_ok _ (assert_run (decide_eq_true rfl)),
      bind_of_ok _ unrefed]
    rfl
  rw [filter_withRef] at freeing
  change unrefObject address s = _
  unfold unrefObject
  rw [bind_of_ok _ looked, one, if_pos (by decide), bind_of_ok _ (assert_run (decide_eq_true Nat.one_pos))]
  exact freeing

theorem unref_counted (counted : Counted live s) {address : Nat} (member : address ∈ live) :
    ∃ after, unref (some address) s = .ok () after ∧ Counted (live.erase address) after :=
  ⟨_, unref_run counted member, counted.removed member⟩

theorem failed_run (s : Session C D) : failed s = .ok s.errcode.isSome s := rfl

theorem returnNetcfIf_counted (counted : Counted live s) (name : String) :
    ∃ answer after, returnNetcfIf name s = .ok answer after ∧ Counted (answer.toList ++ live) after := by
  obtain ⟨answer, middle, made, outcome⟩ := makeNetcfIf_counted counted name
  unfold returnNetcfIf
  rw [bind_of_ok _ made, bind_of_ok _ (failed_run middle)]
  rcases outcome with ⟨rfl, set, still⟩ | ⟨rfl, _, _, still⟩
  · rw [if_pos set]
    exact ⟨none, middle, rfl, still⟩
  · cases bail : middle.errcode.isSome with
    | false => exact ⟨some s.next, middle, rfl, still⟩
    | true =>
      obtain ⟨after, dropped, left⟩ := unref_counted still List.mem_cons_self
      rw [List.erase_cons_head] at left
      rw [if_pos rfl, bind_of_ok _ dropped]
      exact ⟨none, after, rfl, left⟩

theorem unref_all_counted {slots : List (Option Nat)} (counted : Counted (slots.reduceOption ++ live) s) :
    ∃ after, slots.forM unref s = .ok () after ∧ Counted live after := by
  induction slots generalizing s with
  | nil => exact ⟨s, rfl, counted⟩
  | cons slot rest ih =>
    cases slot with
    | none => exact ih counted
    | some address =>
      obtain ⟨middle, dropped, left⟩ := unref_counted counted List.mem_cons_self
      rw [List.reduceOption_cons_of_some, List.cons_append, List.erase_cons_head] at left
      obtain ⟨after, others, done⟩ := ih left
      refine ⟨after, ?_, done⟩
      change (unref (some address) >>= fun _ => rest.forM unref) s = _
      rw [bind_of_ok _ dropped, others]

theorem unrefNetcf_last (kept : s.freed = false) (last : s.ref = 1) :
    unrefNetcf s = .ok () { s with ref := 0, freed := true } := by
  have freeing : freeNetcf { s with ref := 0 } = .ok () { s with ref := 0, freed := true } := by
    unfold freeNetcf
    rw [bind_of_ok _ (get_run _), bind_of_ok _ (assert_run (decide_eq_true rfl))]
    rfl
  have counting : (if s.ref - 1 = 0 then freeNetcf else pure () : Program C D Unit) { s with ref := s.ref - 1 } =
      .ok () { s with ref := 0, freed := true } := by
    rw [last, if_pos rfl, ← freeing]
  have down : (0 : Nat) < s.ref := by rw [last]; exact Nat.one_pos
  unfold unrefNetcf
  rw [bind_of_ok _ (get_run s), if_neg (Bool.eq_false_iff.mp kept)]
  change ((get : Program C D (Session C D)) >>= fun found => _) s = _
  rw [bind_of_ok _ (get_run s), if_pos (by rw [last]; decide), bind_of_ok _ (get_run s),
    bind_of_ok _ (assert_run (decide_eq_true down))]
  exact counting

-- The count says whether an interface is left, as long as it has not got stuck.
theorem ncfClose_counted (counted : Counted live s) (room : s.peak < refMax - 1) :
    ∃ answer after, ncfClose s = .ok answer after ∧
      (answer = -1 ∧ after.errcode = some .inUse ∧ live ≠ [] ∨ answer = 0 ∧ after.freed = true ∧ live = []) := by
  have entered := counted.frame (Linux.apiEntry s.driver) none
  have ref := entered.exact room
  have start : apiEntry s = .ok () { s with driver := Linux.apiEntry s.driver, errcode := none } := rfl
  unfold ncfClose
  rw [bind_of_ok _ start, bind_of_ok _ (get_run _)]
  cases live with
  | nil =>
    rw [if_neg (by rw [ref]; decide), bind_of_ok _ (unrefNetcf_last entered.kept ref)]
    exact ⟨0, _, rfl, Or.inr ⟨rfl, rfl, rfl⟩⟩
  | cons address rest =>
    rw [if_pos (by rw [ref, List.length_cons]; omega)]
    exact ⟨-1, _, rfl, Or.inl ⟨rfl, rfl, List.cons_ne_nil _ _⟩⟩

section Hands

variable {β : Type}

-- The program never aborts, and the interfaces that it has made and not dropped are those it returns.
def Hands (new : α → List Nat) (program : Program C D α) : Prop :=
  ∀ live s, Counted live s → ∃ a after, program s = .ok a after ∧ Counted (new a ++ live) after

def silent : α → List Nat :=
  fun _ => []

theorem hands_pure {new : α → List Nat} {a : α} (nothing : new a = []) : Hands new (pure a : Program C D α) := by
  intro live s counted
  refine ⟨a, s, rfl, ?_⟩
  rwa [nothing]

theorem Hands.bind {first : Program C D α} {next : α → Program C D β} {new : β → List Nat}
    (before : Hands silent first) (after : ∀ a, Hands new (next a)) : Hands new (first >>= next) := by
  intro live s counted
  obtain ⟨a, middle, ran, still⟩ := before live s counted
  rw [bind_of_ok next ran]
  exact after a live middle still

theorem hands_calling (code : ε → Errcode) (program : EStateM ε (Ncf C D) α) :
    Hands silent (calling code program) := by
  intro live s counted
  obtain ⟨answer, driver, errcode, called, _⟩ := calling_cases code program s
  exact ⟨answer, _, called, counted.frame driver errcode⟩

theorem hands_apiEntry : Hands silent (apiEntry : Program C D Unit) :=
  fun _ _ counted => ⟨(), _, rfl, counted.frame _ _⟩

theorem hands_returnNetcfIf (name : String) : Hands Option.toList (returnNetcfIf name : Program C D (Option Nat)) :=
  fun _ _ counted => returnNetcfIf_counted counted name

end Hands

end Netcf.Linux.References
