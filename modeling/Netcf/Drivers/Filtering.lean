import Mathlib.Data.List.Count
import Netcf.Shared.Blocks
import Netcf.Shared.Loops

set_option autoImplicit false

-- How list_interfaces (drv_redhat.c, drv_suse.c) takes the slaves out of the array of paths that it has
-- found, and what its callers free afterwards (free_matches in dutil_linux.c).
namespace Netcf.Drivers

open Shared.Blocks Shared.Faulty Shared.Loops

section Program

variable {A α : Type} (slave : α → Bool)

def isSlave (intf : Option A) : Act A α Bool := do
  return slave (← read intf)

variable [DecidableEq A]

-- FREE((*intf)[i])
def freeSlot (i : Nat) : Act A α Unit := do
  free (← load i)
  store i none

-- The number of pointers that is shifted comes from NINT, not from RESULT.
def filterSlaves (nint i result : Nat) : Act A α Nat :=
  if i < result then do
    if ← isSlave slave (← load i) then
      freeSlot i
      memmove i (i + 1) ((nint : Int) - (i + 1))
      filterSlaves nint i (result - 1)
    else filterSlaves nint (i + 1) result
  else return result
termination_by result - i

def freeMatches (nint : Nat) : Act A α Unit :=
  (List.range nint).forM freeSlot

end Program

section Array

variable {A α : Type}

-- The array that has been found: every path is a block of its own. OTHERS are the other blocks.
structure Paths (A α : Type) where
  addresses : List A
  distinct : addresses.Nodup
  text : A → α
  others : A → Option α

variable [DecidableEq A] (slave : α → Bool)

def Paths.found (paths : Paths A α) : Memory A α :=
  ⟨paths.addresses.map some, fun a => if a ∈ paths.addresses then some (paths.text a) else paths.others a, []⟩

end Array

section Loop

variable {A α : Type} (slave : α → Bool) (text : A → α)

def remaining (pending : List A) : List A :=
  pending.filter fun a => !slave (text a)

def accesses (pending : List A) : List (Access A) :=
  pending.flatMap fun a => if slave (text a) then [.read a, .freed a] else [.read a]

-- In front are the paths that stay, then come those that have not been looked at, and behind them pointers that
-- the shifts have left over, which are never looked at.
structure Partly (kept pending : List A) (m : Memory A α) : Prop where
  slots : ∃ stale, m.slots = kept.map some ++ (pending.map some ++ stale)
  allocated : ∀ a ∈ pending, m.blocks a = some (text a)
  distinct : pending.Nodup

variable {slave text} {kept pending : List A} {a : A} {m : Memory A α}

theorem isSlave_run (allocated : m.blocks a = some (text a)) :
    isSlave slave (some a) m = .ok (slave (text a)) { m with log := m.log ++ [.read a] } :=
  bind_of_ok _ (read_run allocated)

theorem Partly.loads (partly : Partly text kept (a :: pending) m) : load kept.length m = .ok (some a) m := by
  obtain ⟨stale, slots⟩ := partly.slots
  have loaded := load_run slots
  rwa [List.length_map] at loaded

variable [DecidableEq A]

-- What is left of the blocks when those of the slaves are gone.
def withoutSlaves (slave : α → Bool) (text : A → α) (pending : List A) (blocks : A → Option α) : A → Option α :=
  fun a => if a ∈ pending ∧ slave (text a) = true then none else blocks a

theorem filterSlaves_stays {nint : Nat} (whole : m.slots.length = nint)
    (partly : Partly text kept (a :: pending) m) (stays : slave (text a) = false) :
    ∃ next, filterSlaves slave nint kept.length (kept.length + (a :: pending).length) m =
        filterSlaves slave nint (kept ++ [a]).length ((kept ++ [a]).length + pending.length) next ∧
      next.slots.length = nint ∧ Partly text (kept ++ [a]) pending next ∧
      next.blocks = m.blocks ∧ next.log = m.log ++ [.read a] := by
  refine ⟨{ m with log := m.log ++ [.read a] }, ?_, whole, ?_, rfl, rfl⟩
  · have asked := @isSlave_run A α slave text a m (partly.allocated a List.mem_cons_self)
    rw [stays] at asked
    rw [filterSlaves, if_pos (by rw [List.length_cons]; omega)]
    refine (bind_of_ok _ partly.loads).trans ((bind_of_ok _ asked).trans ?_)
    rw [if_neg Bool.false_ne_true, List.length_append, List.length_singleton, List.length_cons, Nat.add_assoc,
      Nat.add_comm 1]
  · obtain ⟨stale, slots⟩ := partly.slots
    refine ⟨⟨stale, ?_⟩, fun b member => partly.allocated b (List.mem_cons_of_mem a member), partly.distinct.of_cons⟩
    rw [List.map_append, List.append_assoc]
    exact slots

theorem freeSlot_run {front back : List (Option A)} {content : α} (slots : m.slots = front ++ some a :: back)
    (allocated : m.blocks a = some content) :
    freeSlot front.length m =
      .ok () ⟨front ++ none :: back, fun b => if b = a then none else m.blocks b, m.log ++ [.freed a]⟩ := by
  have stored := @store_run A α
    ⟨m.slots, fun b => if b = a then none else m.blocks b, m.log ++ [.freed a]⟩ front back (some a) slots none
  exact (bind_of_ok _ (load_run slots)).trans ((bind_of_ok _ (free_run allocated)).trans stored)

theorem filterSlaves_goes {nint : Nat} (whole : m.slots.length = nint)
    (partly : Partly text kept (a :: pending) m) (goes : slave (text a) = true) :
    ∃ next, filterSlaves slave nint kept.length (kept.length + (a :: pending).length) m =
        filterSlaves slave nint kept.length (kept.length + pending.length) next ∧
      next.slots.length = nint ∧ Partly text kept pending next ∧
      next.blocks = (fun b => if b = a then none else m.blocks b) ∧ next.log = m.log ++ [.read a, .freed a] := by
  obtain ⟨stale, slots⟩ := partly.slots
  rw [List.map_cons, List.cons_append] at slots
  have allocated := partly.allocated a List.mem_cons_self
  have asked := @isSlave_run A α slave text a m allocated
  rw [goes] at asked
  have freed := @freeSlot_run A α a { m with log := m.log ++ [.read a] } _ _ _ _ slots allocated
  have same : (kept.map some ++ none :: (pending.map some ++ stale)).length = nint := by
    rw [← whole, slots, List.length_append, List.length_append, List.length_cons, List.length_cons]
  obtain ⟨last, shifted⟩ := @memmove_run A α
    ⟨kept.map some ++ none :: (pending.map some ++ stale), fun b => if b = a then none else m.blocks b,
      m.log ++ [.read a] ++ [.freed a]⟩ (kept.map some) (pending.map some ++ stale) none rfl
  rw [List.length_map] at freed
  rw [List.length_map, same] at shifted
  refine ⟨⟨kept.map some ++ (pending.map some ++ stale ++ [last]), fun b => if b = a then none else m.blocks b,
    m.log ++ [.read a] ++ [.freed a]⟩, ?_, ?_, ⟨⟨stale ++ [last], ?_⟩, ?_, partly.distinct.of_cons⟩, rfl, ?_⟩
  · rw [filterSlaves, if_pos (by rw [List.length_cons]; omega)]
    refine (bind_of_ok _ partly.loads).trans ((bind_of_ok _ asked).trans ?_)
    rw [if_pos rfl]
    refine (bind_of_ok _ freed).trans ((bind_of_ok _ shifted).trans ?_)
    rw [List.length_cons, ← Nat.add_assoc, Nat.add_sub_cancel]
  · rw [← same]
    simp only [List.length_append, List.length_cons, List.length_nil]
  · rw [List.append_assoc]
  · intro b member
    have apart : b ≠ a := fun equal => (List.nodup_cons.mp partly.distinct).1 (equal ▸ member)
    exact (if_neg apart).trans (partly.allocated b (List.mem_cons_of_mem a member))
  · exact List.append_assoc _ _ _

theorem withoutSlaves_stays (stays : slave (text a) = false) (blocks : A → Option α) :
    withoutSlaves slave text (a :: pending) blocks = withoutSlaves slave text pending blocks := by
  funext b
  unfold withoutSlaves
  by_cases same : b = a
  · rw [same, stays]
    simp
  · simp [same]

theorem withoutSlaves_goes (goes : slave (text a) = true) (blocks : A → Option α) :
    withoutSlaves slave text (a :: pending) blocks =
      withoutSlaves slave text pending fun b => if b = a then none else blocks b := by
  funext b
  unfold withoutSlaves
  by_cases same : b = a
  · simp [same, goes]
  · simp [same]

theorem filterSlaves_run {nint : Nat} (whole : m.slots.length = nint) (partly : Partly text kept pending m) :
    ∃ after, filterSlaves slave nint kept.length (kept.length + pending.length) m =
        .ok (kept.length + (remaining slave text pending).length) after ∧
      after.slots.length = nint ∧
      (∃ stale, after.slots = (kept ++ remaining slave text pending).map some ++ stale) ∧
      after.blocks = withoutSlaves slave text pending m.blocks ∧
      after.log = m.log ++ accesses slave text pending := by
  induction pending generalizing kept m with
  | nil =>
    obtain ⟨stale, slots⟩ := partly.slots
    refine ⟨m, ?_, whole, ⟨stale, ?_⟩, ?_, (List.append_nil _).symm⟩
    · rw [filterSlaves, if_neg (by rw [List.length_nil]; omega)]
      rfl
    · rw [slots, remaining, List.filter_nil, List.append_nil]
      rfl
    · funext b
      simp [withoutSlaves]
  | cons a pending ih =>
    cases test : slave (text a) with
    | false =>
      obtain ⟨next, step, same, later, blocks, log⟩ := filterSlaves_stays whole partly test
      obtain ⟨after, run, length, ⟨stale, slots⟩, left, logged⟩ := ih same later
      have kept_ : remaining slave text (a :: pending) = a :: remaining slave text pending :=
        List.filter_cons_of_pos (by rw [test]; rfl)
      refine ⟨after, ?_, length, ⟨stale, ?_⟩, ?_, ?_⟩
      · rw [step, run, kept_, List.length_append, List.length_singleton, List.length_cons, Nat.add_assoc, Nat.add_comm 1]
      · rw [slots, kept_, List.append_assoc, List.singleton_append]
      · rw [left, blocks, withoutSlaves_stays test]
      · rw [logged, log, List.append_assoc, accesses, accesses, List.flatMap_cons, test]
        rfl
    | true =>
      obtain ⟨next, step, same, later, blocks, log⟩ := filterSlaves_goes whole partly test
      obtain ⟨after, run, length, ⟨stale, slots⟩, left, logged⟩ := ih same later
      have gone : remaining slave text (a :: pending) = remaining slave text pending :=
        List.filter_cons_of_neg (by rw [test]; decide)
      refine ⟨after, ?_, length, ⟨stale, ?_⟩, ?_, ?_⟩
      · rw [step, run, gone]
      · rw [slots, gone]
      · rw [left, blocks, withoutSlaves_goes test]
      · rw [logged, log, List.append_assoc, accesses, accesses, List.flatMap_cons, test]
        rfl

end Loop

section Counts

variable {A α : Type} [DecidableEq A] (slave : α → Bool) (text : A → α)

theorem count_read (a : A) (list : List A) : (accesses slave text list).count (.read a) = list.count a := by
  induction list with
  | nil => rfl
  | cons b rest ih =>
    have here : (if slave (text b) = true then [Access.read b, .freed b] else [.read b]).count (.read a) =
        [b].count a := by
      split_ifs <;> simp [List.count_cons]
    have split : (b :: rest).count a = [b].count a + rest.count a := @List.count_append A _ a [b] rest
    rw [accesses, List.flatMap_cons, List.count_append, here, split, ← ih]
    rfl

theorem count_freed (a : A) (list : List A) :
    (accesses slave text list).count (.freed a) = if slave (text a) = true then list.count a else 0 := by
  induction list with
  | nil => simp [accesses]
  | cons b rest ih =>
    have here : (if slave (text b) = true then [Access.read b, .freed b] else [.read b]).count (.freed a) =
        if slave (text a) = true then [b].count a else 0 := by
      by_cases same : b = a
      · subst same
        split_ifs <;> simp
      · split_ifs <;> simp [same]
    have split : (b :: rest).count a = [b].count a + rest.count a := @List.count_append A _ a [b] rest
    rw [accesses, List.flatMap_cons, List.count_append, here, split]
    change _ + (accesses slave text rest).count (.freed a) = _
    rw [ih]
    split_ifs <;> rfl

end Counts

section Callers

variable {A α : Type} [DecidableEq A] {m : Memory A α}

-- The entries from one place on are freed one after the other.
theorem freeMatches_from (live : List A) {freed stale : List (Option A)}
    (slots : m.slots = freed ++ (live.map some ++ stale)) (allocated : ∀ a ∈ live, ∃ content, m.blocks a = some content)
    (distinct : live.Nodup) :
    ∃ after, (List.range' freed.length live.length).forM freeSlot m = .ok () after ∧
      after.blocks = (fun a => if a ∈ live then none else m.blocks a) ∧
      after.log = m.log ++ live.map .freed := by
  induction live generalizing freed m with
  | nil => exact ⟨m, rfl, by simp, (List.append_nil _).symm⟩
  | cons a live ih =>
    obtain ⟨fresh, distinct⟩ := List.nodup_cons.mp distinct
    obtain ⟨content, here⟩ := allocated a List.mem_cons_self
    have first := freeSlot_run slots here
    obtain ⟨after, run, blocks, log⟩ := @ih
      ⟨freed ++ none :: (live.map some ++ stale), fun b => if b = a then none else m.blocks b, m.log ++ [.freed a]⟩
      (freed ++ [none]) (by rw [List.append_assoc]; rfl) (fun b member => by
        obtain ⟨content, there⟩ := allocated b (List.mem_cons_of_mem a member)
        exact ⟨content, (if_neg fun same : b = a => fresh (same ▸ member)).trans there⟩) distinct
    rw [List.length_append, List.length_singleton] at run
    refine ⟨after, (bind_of_ok _ first).trans run, ?_, ?_⟩
    · rw [blocks]
      funext b
      by_cases same : b = a
      · simp [same]
      · simp [same]
    · rw [log, List.append_assoc]
      rfl

theorem freeMatches_run (live : List A) {stale : List (Option A)} (slots : m.slots = live.map some ++ stale)
    (allocated : ∀ a ∈ live, ∃ content, m.blocks a = some content) (distinct : live.Nodup) :
    ∃ after, freeMatches live.length m = .ok () after ∧
      after.blocks = (fun a => if a ∈ live then none else m.blocks a) ∧
      after.log = m.log ++ live.map .freed := by
  rw [freeMatches, List.range_eq_range']
  exact @freeMatches_from A α _ m live [] stale slots allocated distinct

end Callers

section Filtering

variable {A α : Type} [DecidableEq A] (paths : Paths A α) (slave : α → Bool)

def Paths.subordinate (a : A) : Prop :=
  a ∈ paths.addresses ∧ slave (paths.text a) = true

structure Filtered (result : Nat) (after : Memory A α) : Prop where
  size : after.slots.length = paths.addresses.length
  count : result = (remaining slave paths.text paths.addresses).length
  live : after.slots.take result = (remaining slave paths.text paths.addresses).map some
  tested : ∀ a ∈ paths.addresses, after.log.count (.read a) = 1
  freed : ∀ a, paths.subordinate slave a → after.log.count (.freed a) = 1 ∧ after.blocks a = none
  untouched : ∀ a, ¬ paths.subordinate slave a → after.log.count (.freed a) = 0 ∧ after.blocks a = paths.found.blocks a

theorem Paths.partly : Partly paths.text [] paths.addresses paths.found where
  slots := ⟨[], by rw [List.map_nil, List.nil_append, List.append_nil]; rfl⟩
  allocated := fun _ member => if_pos member
  distinct := paths.distinct

theorem filterSlaves_filtered :
    ∃ result after, filterSlaves slave paths.addresses.length 0 paths.addresses.length paths.found =
      .ok result after ∧ Filtered paths slave result after := by
  have size : paths.found.slots.length = paths.addresses.length := List.length_map _
  obtain ⟨after, run, length, ⟨stale, slots⟩, blocks, log⟩ :=
    @filterSlaves_run A α slave paths.text [] paths.addresses paths.found _ _ size paths.partly
  rw [List.length_nil, Nat.zero_add, Nat.zero_add] at run
  have logged : after.log = accesses slave paths.text paths.addresses := log
  have once : ∀ a ∈ paths.addresses, paths.addresses.count a = 1 := fun a member =>
    List.count_eq_one_of_mem paths.distinct member
  refine ⟨_, after, run, length, rfl, ?_, ?_, ?_, ?_⟩
  · rw [slots, List.nil_append, List.take_left' (List.length_map _)]
  · intro a member
    rw [logged, count_read, once a member]
  · rintro a ⟨member, test⟩
    rw [logged, count_freed, if_pos test, once a member, blocks]
    exact ⟨rfl, if_pos ⟨member, test⟩⟩
  · intro a other
    rw [logged, count_freed, blocks]
    refine ⟨?_, if_neg other⟩
    by_cases test : slave (paths.text a) = true
    · rw [if_pos test]
      exact List.count_eq_zero.mpr fun member => other ⟨member, test⟩
    · rw [if_neg test]

variable {paths slave} {result : Nat} {after : Memory A α}

theorem Filtered.freeMatches (filtered : Filtered paths slave result after) :
    ∃ done, Drivers.freeMatches result after = .ok () done ∧
      ∀ a ∈ paths.addresses, done.blocks a = none ∧ done.log.count (.freed a) = 1 := by
  have slots : after.slots = (remaining slave paths.text paths.addresses).map some ++ after.slots.drop result := by
    rw [← filtered.live, List.take_append_drop]
  have stays : ∀ a ∈ remaining slave paths.text paths.addresses, a ∈ paths.addresses ∧ ¬ paths.subordinate slave a := by
    intro a member
    obtain ⟨inside, test⟩ := List.mem_filter.mp member
    exact ⟨inside, fun both => by simp [both.2] at test⟩
  have distinct : (remaining slave paths.text paths.addresses).Nodup := paths.distinct.filter _
  have allocated : ∀ a ∈ remaining slave paths.text paths.addresses, ∃ content, after.blocks a = some content := by
    intro a member
    obtain ⟨inside, other⟩ := stays a member
    exact ⟨paths.text a, ((filtered.untouched a other).2).trans (if_pos inside)⟩
  obtain ⟨done, freed, blocks, log⟩ := freeMatches_run _ slots allocated distinct
  rw [← filtered.count] at freed
  refine ⟨done, freed, ?_⟩
  intro a member
  rw [blocks, log, List.count_append, List.count_map_of_injective _ _ fun _ _ same => Access.freed.inj same]
  by_cases test : slave (paths.text a) = true
  · have gone : a ∉ remaining slave paths.text paths.addresses := fun kept => (stays a kept).2 ⟨member, test⟩
    obtain ⟨once, absent⟩ := filtered.freed a ⟨member, test⟩
    exact ⟨(if_neg gone).trans absent, by rw [once, List.count_eq_zero.mpr gone]⟩
  · have kept : a ∈ remaining slave paths.text paths.addresses :=
      List.mem_filter.mpr ⟨member, by simpa using test⟩
    obtain ⟨never, _⟩ := filtered.untouched a fun both => test both.2
    exact ⟨if_pos kept, by rw [never, List.count_eq_one_of_mem distinct kept]⟩

-- The pointers in front lead to the texts that a sieve makes of the texts of all paths.
theorem Filtered.sieve {ε σ : Type} (filtered : Filtered paths slave result after) (s : σ) :
    sieve (fun text => (pure (slave text) : EStateM ε σ Bool)) 0 (paths.addresses.map paths.text) s =
      .ok (((after.slots.take result).filterMap id).map paths.text) s := by
  have answers := @answers_sieve ε σ σ α Eq (fun _ => True) s (fun text => pure (slave text)) slave
    (paths.addresses.map paths.text) fun text _ => answers_pure (slave text)
  have texts : (paths.addresses.map paths.text).filter (fun text => !slave text) =
      (remaining slave paths.text paths.addresses).map paths.text := List.filter_map
  have pointers : ((remaining slave paths.text paths.addresses).map some).filterMap id =
      remaining slave paths.text paths.addresses := by
    rw [List.filterMap_map]
    exact List.filterMap_some
  rw [filtered.live, pointers, ← texts]
  rcases answers s rfl with failed | ⟨s', run, same, _⟩
  · exact absurd trivial failed.1
  · rw [run, same]

-- No access of the loop goes outside of the array or to a string that has been freed. When a caller then frees the
-- entries in front, and nothing else, every string has been freed once.
theorem slaves_filtered (paths : Paths A α) (slave : α → Bool) :
    ∃ result after, filterSlaves slave paths.addresses.length 0 paths.addresses.length paths.found =
        .ok result after ∧ Filtered paths slave result after ∧
      ∃ done, Drivers.freeMatches result after = .ok () done ∧
        ∀ a ∈ paths.addresses, done.blocks a = none ∧ done.log.count (.freed a) = 1 := by
  obtain ⟨result, after, run, filtered⟩ := filterSlaves_filtered paths slave
  exact ⟨result, after, run, filtered, filtered.freeMatches⟩

end Filtering

end Netcf.Drivers
