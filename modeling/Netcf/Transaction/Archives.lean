import Mathlib.Data.List.DropRight
import Mathlib.Data.List.ReduceOption
import Netcf.Shared.Ordering
import Netcf.Transaction.Refinement

set_option autoImplicit false

-- The directories of old rollbacks: their names, and which of them are there after a run of the script.
namespace Netcf.Transaction

open Shared.Ordering Shared.Simulation

-- What `date` reads off the clock. The clock of the kernel ends long before the year 10000.
structure Timestamp where
  year : Nat
  month : Nat
  day : Nat
  hour : Nat
  minute : Nat
  second : Nat
  fourDigits : year < 10000
  isMonth : month ≤ 12
  isDay : day ≤ 31
  isHour : hour < 24
  isMinute : minute < 60
  isSecond : second ≤ 60

def Timestamp.fields (t : Timestamp) : List Nat := [t.year, t.month, t.day, t.hour, t.minute, t.second]

def Timestamp.Before (t u : Timestamp) : Prop := t.fields < u.fields

instance (t u : Timestamp) : Decidable (t.Before u) := inferInstanceAs (Decidable (t.fields < u.fields))

-- `date +%Y.%m.%d-%H:%M:%S`
def Timestamp.stamp (t : Timestamp) : String :=
  String.ofList (padded 4 t.year ++ '.' :: (padded 2 t.month ++ '.' :: (padded 2 t.day ++ '-' ::
    (padded 2 t.hour ++ ':' :: (padded 2 t.minute ++ ':' :: padded 2 t.second)))))

theorem field_lt {width m n : Nat} {sep : Char} {rest other : List Char} (room : n < 10 ^ width)
    (below : m < n ∨ m = n ∧ rest < other) : padded width m ++ sep :: rest < padded width n ++ sep :: other := by
  rcases below with less | ⟨same, later⟩
  · exact append_lt_of_lt ((length_padded _ _).trans (length_padded _ _).symm) (padded_lt less room) _ _
  · rw [same, append_lt_append_iff]
    exact List.cons_lt_cons_iff.mpr (Or.inr ⟨rfl, later⟩)

theorem Timestamp.stamp_lt {t u : Timestamp} (before : t.Before u) : t.stamp < u.stamp := by
  rw [String.lt_iff_toList_lt]
  unfold stamp
  rw [String.toList_ofList, String.toList_ofList]
  simp only [Timestamp.Before, fields, List.cons_lt_cons_iff, List.lt_irrefl, and_false, or_false] at before
  have two {n : Nat} (few : n ≤ 60) : n < 10 ^ 2 := lt_of_le_of_lt few (by decide)
  refine field_lt (lt_of_lt_of_le u.fourDigits (by decide)) (before.imp_right (And.imp_right fun month => ?_))
  refine field_lt (two (u.isMonth.trans (by decide))) (month.imp_right (And.imp_right fun day => ?_))
  refine field_lt (two (u.isDay.trans (by decide))) (day.imp_right (And.imp_right fun hour => ?_))
  refine field_lt (two (u.isHour.le.trans (by decide))) (hour.imp_right (And.imp_right fun minute => ?_))
  refine field_lt (two u.isMinute.le) (minute.imp_right (And.imp_right fun second => ?_))
  exact padded_lt second (two u.isSecond)

variable {Content : Type}

structure Archive (Content : Type) where
  taken : Timestamp
  files : FileName → Option Content

def Archive.name (archive : Archive Content) : String := archive.taken.stamp

def Archive.Before (a b : Archive Content) : Prop := a.taken.Before b.taken

instance (a b : Archive Content) : Decidable (a.Before b) := inferInstanceAs (Decidable (a.taken.Before b.taken))

-- The directories of old rollbacks as maps, by their names.
def archives (w : World Content) : String → Option (FileName → Option Content) :=
  fun name => (w.rollbacks.lookup name).map files

def stored (history : List (Archive Content)) : String → Option (FileName → Option Content) :=
  fun name => (history.find? fun archive => archive.name = name).map (·.files)

theorem names_sorted {history : List (Archive Content)} (clock : history.Pairwise Archive.Before) :
    (history.map Archive.name).Pairwise (· < ·) :=
  List.pairwise_map.mpr (clock.imp fun before => Timestamp.stamp_lt before)

theorem names_nodup {history : List (Archive Content)} (clock : history.Pairwise Archive.Before) :
    (history.map Archive.name).Nodup :=
  (names_sorted clock).imp fun below => ne_of_lt below

theorem stored_isSome (history : List (Archive Content)) (name : String) :
    (stored history name).isSome = true ↔ name ∈ history.map Archive.name := by
  rw [stored, Option.isSome_map, List.find?_isSome, List.mem_map]
  simp only [decide_eq_true_eq]

theorem stored_eq_none {history : List (Archive Content)} {name : String} :
    stored history name = none ↔ name ∉ history.map Archive.name := by
  rw [← stored_isSome, Bool.not_eq_true, Option.isSome_eq_false_iff, Option.isNone_iff_eq_none]

theorem stored_append (front back : List (Archive Content)) (name : String) :
    stored (front ++ back) name = (stored front name).or (stored back name) := by
  rw [stored, List.find?_append, stored, stored]
  cases front.find? fun archive => archive.name = name <;> rfl

-- Without the first ones, the others are still stored.
theorem stored_drop {history : List (Archive Content)} (distinct : (history.map Archive.name).Nodup) (n : Nat)
    (name : String) :
    stored (history.drop n) name = if name ∈ (history.take n).map Archive.name then none else stored history name := by
  have whole := stored_append (history.take n) (history.drop n) name
  rw [List.take_append_drop] at whole
  by_cases old : name ∈ (history.take n).map Archive.name
  · rw [if_pos old]
    rw [← List.take_append_drop n history, List.map_append] at distinct
    exact stored_eq_none.mpr fun later => (List.nodup_append.mp distinct).2.2 name old name later rfl
  · rw [if_neg old, whole, stored_eq_none.mpr old, Option.none_or]

section World

variable {w : World Content} {recent : List (Archive Content)}

theorem keys_perm (distinct : (recent.map Archive.name).Nodup) (same : archives w = stored recent) :
    w.rollbacks.keys.Perm (recent.map Archive.name) := by
  refine (List.perm_ext_iff_of_nodup w.rollbacks.nodupKeys distinct).mpr fun name => ?_
  rw [← stored_isSome, ← same, archives, Option.isSome_map, AList.lookup_isSome]
  exact AList.mem_keys.symm

theorem obsolete_eq (clock : recent.Pairwise Archive.Before) (same : archives w = stored recent) :
    obsolete w = (recent.take (recent.length - 20)).map Archive.name := by
  have perm := keys_perm (names_nodup clock) same
  have sorted : w.rollbacks.keys.insertionSort (· ≤ ·) = recent.map Archive.name := by
    have ordered : (recent.map Archive.name).Pairwise (· ≤ ·) := (names_sorted clock).imp le_of_lt
    exact List.Perm.eq_of_pairwise' (List.pairwise_insertionSort (· ≤ ·) _) ordered
      ((List.perm_insertionSort _ _).trans perm)
  rw [obsolete, sorted, List.length_map, List.map_take]

theorem pruneLoop_lookup (stamps : List String) (ret : Nat) (rollbacks : AList (fun _ : String => Dir Content))
    (name : String) :
    (pruneLoop Faults.none stamps ret rollbacks).rollbacks.lookup name =
      if name ∈ stamps then none else rollbacks.lookup name := by
  induction stamps generalizing ret rollbacks with
  | nil => rfl
  | cons stamp rest ih =>
      have kept : (Faults.none : Faults Content).prune stamp = none := rfl
      simp only [pruneLoop, kept, ih, List.mem_cons]
      by_cases same : name = stamp
      · subst same
        simp
      · simp [same, AList.lookup_erase_ne]

-- The pruning keeps the 20 newest archives.
theorem pruned_archives (clock : recent.Pairwise Archive.Before) (same : archives w = stored recent) :
    archives { w with rollbacks := (pruneLoop Faults.none (obsolete w) 0 w.rollbacks).rollbacks } =
      stored (recent.rtake 20) := by
  funext name
  have here := congrFun same name
  rw [archives, pruneLoop_lookup, obsolete_eq clock same, List.rtake, stored_drop (names_nodup clock), ← here, archives]
  split_ifs <;> rfl

variable [DecidableEq Content]

theorem changeRollback_rollbacks (stamp : String) {saved : Dir Content} (opened : w.snapshot = some saved) :
    ∃ copy, files copy = (fun name => (files w.config name).or (files
        (((pruneLoop Faults.none (obsolete w) 0 w.rollbacks).rollbacks.lookup stamp).getD ∅) name)) ∧
      (changeRollback Faults.none stamp w).world.rollbacks =
        (pruneLoop Faults.none (obsolete w) 0 w.rollbacks).rollbacks.insert stamp copy := by
  obtain ⟨archived, copy⟩ := copyLoop_glob (Faults.none : Faults Content).save w.config
    (((pruneLoop Faults.none (obsolete w) 0 w.rollbacks).rollbacks.lookup stamp).getD ∅)
    (fun _ _ => rfl)
  obtain ⟨done, -⟩ := restoreLoop_succeeds (glob w.config) w.config saved 0
    (nodup_glob w.config) (fun name => (mem_glob w.config name).mp)
  obtain ⟨copied, -⟩ := copyLoop_glob (Faults.none : Faults Content).restoreLeft
    (restoreLoop Faults.none (glob w.config) w.config saved 0).snapshot
    (restoreLoop Faults.none (glob w.config) w.config saved 0).config (fun _ _ => rfl)
  have mkdir : (Faults.none : Faults Content).mkdir = false := rfl
  have rmSnapshot : (Faults.none : Faults Content).rmSnapshot = none := rfl
  refine ⟨_, copy, ?_⟩
  simp only [changeRollback, opened, mkdir, archived, done, copied, if_true, removeSnapshot, rmSnapshot]
  rfl

structure Archived (history : List (Archive Content)) (archive : Archive Content) (before after : World Content) :
    Prop where
  current : archive.files = files before.config
  fresh : archives before archive.name = none
  recent : archives after = stored ((history ++ [archive]).rtake 21)
  unmodified : ∀ name ≠ archive.name, archives after name = none ∨ archives after name = archives before name
  few : after.rollbacks.keys.length ≤ 21

def World.archiveAt (w : World Content) (t : Timestamp) : Archive Content := ⟨t, files w.config⟩

-- The directories are the newest ones of the history, either all of it or at least 21.
def Kept (history : List (Archive Content)) (w : World Content) : Prop :=
  ∃ older recent, history = older ++ recent ∧ (older = [] ∨ 21 ≤ recent.length) ∧ archives w = stored recent

omit [DecidableEq Content] in
theorem rtake_of_newest {history older : List (Archive Content)} (split : history = older ++ recent) {n : Nat}
    (enough : older = [] ∨ n ≤ recent.length) : recent.rtake n = history.rtake n := by
  rcases enough with none | many
  · rw [split, none, List.nil_append]
  · have later : older.length ≤ older.length + recent.length - n := by omega
    rw [List.rtake, List.rtake, split, List.length_append, List.drop_append, List.drop_of_length_le later,
      List.nil_append]
    congr 1
    omega

theorem changeRollback_archived {history : List (Archive Content)} (kept : Kept history w) {t : Timestamp}
    (clock : (history ++ [w.archiveAt t]).Pairwise Archive.Before) {saved : Dir Content}
    (opened : w.snapshot = some saved) :
    Archived history (w.archiveAt t) w (changeRollback Faults.none t.stamp w).world := by
  obtain ⟨older, recent, split, enough, same⟩ := kept
  have sorted : recent.Pairwise Archive.Before := by
    rw [split] at clock
    exact (List.pairwise_append.mp (List.pairwise_append.mp clock).1).2.1
  have new : t.stamp ∉ recent.map Archive.name := by
    intro member
    have distinct := names_nodup clock
    rw [List.map_append, split, List.map_append] at distinct
    exact (List.nodup_append.mp distinct).2.2 _ (List.mem_append_right _ member) _ (List.mem_singleton_self _) rfl
  have fresh : archives w t.stamp = none := by
    rw [same]
    exact stored_eq_none.mpr new
  obtain ⟨copy, content, rollbacks⟩ := changeRollback_rollbacks t.stamp opened
  have pruned := pruned_archives sorted same
  have absent : (pruneLoop Faults.none (obsolete w) 0 w.rollbacks).rollbacks.lookup t.stamp = none := by
    rw [pruneLoop_lookup]
    split_ifs
    · rfl
    · exact Option.map_eq_none_iff.mp fresh
  have copied : files copy = files w.config := by
    rw [content, absent]
    funext name
    exact Option.or_none
  have after (name : String) : archives (changeRollback Faults.none t.stamp w).world name =
      if name = t.stamp then some (files w.config) else stored (recent.rtake 20) name := by
    rw [← pruned, archives, rollbacks]
    split_ifs with here
    · rw [here, AList.lookup_insert, Option.map_some, copied]
    · rw [AList.lookup_insert_ne here]
      rfl
  have all : archives (changeRollback Faults.none t.stamp w).world = stored ((history ++ [w.archiveAt t]).rtake 21) := by
    funext name
    rw [List.rtake_concat_succ, stored_append, after, ← rtake_of_newest split (enough.imp_right (by omega))]
    by_cases here : name = t.stamp
    · have older : t.stamp ∉ (recent.rtake 20).map Archive.name := fun member =>
        new (((List.drop_sublist _ _).map _).mem member)
      rw [if_pos here, here, stored_eq_none.mpr older, Option.none_or]
      simp [stored, World.archiveAt, Archive.name]
    · have other : t.stamp ≠ name := fun equal => here equal.symm
      rw [if_neg here]
      simp [stored, World.archiveAt, Archive.name, other]
  refine ⟨rfl, fresh, all, ?_, ?_⟩
  · intro name other
    have apart : name ≠ t.stamp := other
    rw [after, if_neg apart, List.rtake, stored_drop (names_nodup sorted), ← same]
    split_ifs
    · exact Or.inl rfl
    · exact Or.inr rfl
  · have newest : ((history ++ [w.archiveAt t]).rtake 21).Pairwise Archive.Before := clock.sublist (List.drop_sublist _ _)
    rw [(keys_perm (names_nodup newest) all).length_eq, List.length_map, List.rtake, List.length_drop]
    omega

omit [DecidableEq Content] in
theorem Archived.kept {history : List (Archive Content)} {archive : Archive Content} {before after : World Content}
    (archived : Archived history archive before after) : Kept (history ++ [archive]) after := by
  have size : ((history ++ [archive]).rtake 21).length = (history ++ [archive]).length -
      ((history ++ [archive]).length - 21) := List.length_drop
  refine ⟨(history ++ [archive]).take ((history ++ [archive]).length - 21), (history ++ [archive]).rtake 21,
    (List.take_append_drop _ _).symm, ?_, archived.recent⟩
  rcases Nat.le_total (history ++ [archive]).length 21 with few | many
  · left
    rw [Nat.sub_eq_zero_of_le few]
    rfl
  · right
    omega

end World

section Runs

-- `start` stands for the words of an init script that run change_rollback at boot. The other commands
-- may fail. The words stop, status and snapshot-dir only print something. An edit is anybody's, and
-- leaves the archives alone.
inductive Change (Content : Type) where
  | changeBegin (faults : Faults Content)
  | changeCommit (faults : Faults Content)
  | changeRollback (t : Timestamp)
  | start (t : Timestamp)
  | edit (config : Dir Content) (snapshot : Option (Dir Content))

variable [DecidableEq Content]

-- An invocation is successful when change_rollback returns 0.
def invocation (t : Timestamp) (w : World Content) : Option (Archive Content) :=
  if (changeRollback Faults.none t.stamp w).status = 0 then some (w.archiveAt t) else none

def act : Change Content → World Content → Option (Archive Content) × World Content
  | .changeBegin faults, w => (none, (main .changeBegin faults "" w).world)
  | .changeCommit faults, w => (none, (main .changeCommit faults "" w).world)
  | .changeRollback t, w => (invocation t w, (main .changeRollback Faults.none t.stamp w).world)
  | .start t, w => (invocation t w, (main .start Faults.none t.stamp w).world)
  | .edit config snapshot, w => (none, { w with config := config, snapshot := snapshot })

def made (changes : List (Change Content)) (w : World Content) : List (Archive Content) :=
  (run act changes w).1.reduceOption

variable {w : World Content} {history : List (Archive Content)}

theorem invocation_some {t : Timestamp} {archive : Archive Content} (made : invocation t w = some archive) :
    archive = w.archiveAt t ∧ ∃ saved, w.snapshot = some saved := by
  unfold invocation at made
  split_ifs at made with succeeded
  refine ⟨(Option.some.inj made).symm, ?_⟩
  cases opened : w.snapshot with
  | none => simp [changeRollback, opened, einvalidInThisState] at succeeded
  | some saved => exact ⟨saved, rfl⟩

theorem invocation_none {t : Timestamp} (refused : invocation t w = none) :
    (changeRollback Faults.none t.stamp w).world = w := by
  unfold invocation at refused
  split_ifs at refused with failed
  cases opened : w.snapshot with
  | none => simp [changeRollback, opened]
  | some saved => exact absurd (changeRollback_succeeds t.stamp w saved opened).1 failed

theorem act_archived (kept : Kept history w) {change : Change Content} {archive : Archive Content}
    (clock : (history ++ [archive]).Pairwise Archive.Before) (made : (act change w).1 = some archive) :
    Archived history archive w (act change w).2 := by
  cases change with
  | changeBegin faults => cases made
  | changeCommit faults => cases made
  | edit config snapshot => cases made
  | changeRollback t =>
      obtain ⟨rfl, saved, opened⟩ := invocation_some made
      exact changeRollback_archived kept clock opened
  | start t =>
      obtain ⟨rfl, saved, opened⟩ := invocation_some made
      exact changeRollback_archived kept clock opened

-- Whatever makes no archive leaves the others as they are.
theorem act_rollbacks {change : Change Content} (made : (act change w).1 = none) :
    (act change w).2.rollbacks = w.rollbacks := by
  cases change with
  | changeBegin faults =>
      change (changeBegin faults w).world.rollbacks = w.rollbacks
      unfold changeBegin
      split <;> [rfl; (dsimp only; split_ifs <;> rfl)]
  | changeCommit faults =>
      change (changeCommit faults w).world.rollbacks = w.rollbacks
      unfold changeCommit
      split <;> [rfl; (split <;> rfl)]
  | edit config snapshot => rfl
  | changeRollback t => exact congrArg World.rollbacks (invocation_none made)
  | start t => exact congrArg World.rollbacks (invocation_none made)

theorem act_kept (kept : Kept history w) (change : Change Content)
    (clock : (history ++ (act change w).1.toList).Pairwise Archive.Before) :
    Kept (history ++ (act change w).1.toList) (act change w).2 := by
  cases outcome : (act change w).1 with
  | none =>
      obtain ⟨older, recent, split, enough, same⟩ := kept
      have untouched : archives (act change w).2 = archives w := by
        funext name
        rw [archives, act_rollbacks outcome, archives]
      exact ⟨older, recent, by rw [Option.toList_none, List.append_nil, split], enough, untouched.trans same⟩
  | some archive =>
      rw [outcome] at clock
      exact (act_archived kept clock outcome).kept

theorem made_cons (change : Change Content) (rest : List (Change Content)) :
    made (change :: rest) w = (act change w).1.toList ++ made rest (act change w).2 := by
  cases outcome : (act change w).1 with
  | none =>
      rw [made, run, outcome, List.reduceOption_cons_of_none]
      rfl
  | some archive =>
      rw [made, run, outcome, List.reduceOption_cons_of_some]
      rfl

theorem made_append (front back : List (Change Content)) :
    made (front ++ back) w = made front w ++ made back (run act front w).2 := by
  rw [made, run_append, List.reduceOption_append]
  rfl

theorem run_kept (changes : List (Change Content)) (kept : Kept history w)
    (clock : (history ++ made changes w).Pairwise Archive.Before) :
    Kept (history ++ made changes w) (run act changes w).2 := by
  induction changes generalizing history w with
  | nil =>
      have none_made : made ([] : List (Change Content)) w = [] := rfl
      rwa [none_made, List.append_nil]
  | cons change rest ih =>
      rw [made_cons, ← List.append_assoc] at clock ⊢
      exact ih (act_kept kept change (List.pairwise_append.mp clock).1) clock

end Runs

section Retention

variable [DecidableEq Content]

-- `old` are the archives that are there at the start.
theorem archives_most_recent (start : World Content) (old : List (Archive Content)) (present : archives start = stored old)
    (changes : List (Change Content)) (clock : (old ++ made changes start).Pairwise Archive.Before) :
    ∀ front change back archive, changes = front ++ change :: back →
      (act change (run act front start).2).1 = some archive →
      Archived (old ++ made front start) archive (run act front start).2 (act change (run act front start).2).2 := by
  rintro front change back archive rfl succeeded
  rw [made_append, made_cons, succeeded, Option.toList_some, List.singleton_append, ← List.append_assoc,
    ← List.singleton_append, ← List.append_assoc] at clock
  have until_now := (List.pairwise_append.mp clock).1
  have kept := run_kept front ⟨[], old, rfl, Or.inl rfl, present⟩ (List.pairwise_append.mp until_now).1
  exact act_archived kept until_now succeeded

def noon : Timestamp := ⟨2011, 10, 30, 12, 0, 0, by decide, by decide, by decide, by decide, by decide, by decide⟩

def evening : Timestamp := ⟨2011, 10, 30, 18, 5, 0, by decide, by decide, by decide, by decide, by decide, by decide⟩

def idle : World Nat := ⟨∅, none, ∅⟩

-- Two transactions, and the first has been rolled back.
def untilEvening : List (Change Nat) :=
  [.changeBegin Faults.none, .edit ((∅ : Dir Nat).insert ⟨.ifcfg, "eth0"⟩ 1) (some ∅), .changeRollback noon,
    .edit ((∅ : Dir Nat).insert ⟨.ifcfg, "eth1"⟩ 2) none, .changeBegin Faults.none]

theorem archives_most_recent_evening :
    Archived ([] ++ made untilEvening idle) ((run act untilEvening idle).2.archiveAt evening)
      (run act untilEvening idle).2 (act (.changeRollback evening) (run act untilEvening idle).2).2 := by
  have succeeded : (changeRollback Faults.none evening.stamp (run act untilEvening idle).2).status = 0 := by decide
  exact archives_most_recent idle [] rfl (untilEvening ++ [.changeRollback evening]) (by decide) untilEvening
    (.changeRollback evening) [] _ rfl (by rw [act, invocation, if_pos succeeded])

end Retention

end Netcf.Transaction
