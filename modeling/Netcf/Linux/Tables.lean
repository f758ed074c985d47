import Netcf.Shared.Simulation
import Netcf.Linux.Lifecycle

set_option autoImplicit false

-- Tables of Augeas transforms, and when get_augeas loads the files again.  The record lists what has
-- happened so far, the latest event first.
namespace Netcf.Linux

open Shared.Faulty Shared.Simulation

inductive Event
  | entry
  | registration (table : Entries)
  | load
  | loaded
  deriving DecidableEq

structure Recorded (C D : Type) where
  ncf : Ncf C D
  record : List Event

abbrev Recording (C D : Type) := EStateM Errcode (Recorded C D)

variable {C D : Type}

def silently {α : Type} (program : Api C D α) : Recording C D α := fun s =>
  match program s.ncf with
  | .ok a after => .ok a ⟨after, s.record⟩
  | .error code after => .error code ⟨after, s.record⟩

def happens (event : Event) : Recording C D Unit :=
  modify fun s => { s with record := event :: s.record }

def addAugeasXfmTable (table : Entries) : Api C D Unit := do
  let tables := (← get).augeasXfmTables
  match tables.findIdx? Option.isNone with
  | some slot =>
    modify fun ncf => { ncf with augeasXfmTables := tables.set slot (some table), copyAugeasXfm := true }
  | none =>
    attempt .nomem
    modify fun ncf => { ncf with augeasXfmTables := tables ++ [some table], copyAugeasXfm := true }

-- aug_load is called, and later both it and the look for errors have come out well.
def recordingLoadFiles (augeas : Augeas C D) : Recording C D Unit := do
  if (← get).ncf.loadAugeas then
    happens .load
    silently (loadFiles augeas)
    happens .loaded

def recordingGetAugeas [EmptyCollection C] (augeas : Augeas C D) : Recording C D Unit := fun s =>
  match (do silently createInstance; silently copyTables; recordingLoadFiles augeas : Recording C D Unit) s with
  | .ok result after => .ok result after
  | .error code after => .error code { after with ncf := { after.ncf with augeas := none } }

def forget {α : Type} : EStateM.Result Errcode (Recorded C D) α → EStateM.Result Errcode (Ncf C D) α
  | .ok a after => .ok a after.ncf
  | .error code after => .error code after.ncf

def Erases {α : Type} (recording : Recording C D α) (program : Api C D α) : Prop :=
  ∀ s, forget (recording s) = program s.ncf

theorem erases_silently {α : Type} (program : Api C D α) : Erases (silently program) program := by
  intro s
  unfold silently
  cases program s.ncf <;> rfl

theorem Erases.bind {α β : Type} {first : Recording C D α} {next : α → Recording C D β} {program : Api C D α}
    {rest : α → Api C D β} (before : Erases first program) (after : ∀ a, Erases (next a) (rest a)) :
    Erases (first >>= next) (program >>= rest) := by
  intro s
  have same := before s
  cases run : first s with
  | ok a middle =>
    rw [run] at same
    rw [bind_of_ok next run, bind_of_ok rest same.symm]
    exact after a middle
  | error code middle =>
    rw [run] at same
    rw [bind_of_error next run, bind_of_error rest same.symm]
    rfl

theorem erases_recordingLoadFiles (augeas : Augeas C D) : Erases (recordingLoadFiles augeas) (loadFiles augeas) := by
  intro s
  unfold recordingLoadFiles
  rw [bind_of_ok _ (get_run s)]
  cases flag : s.ncf.loadAugeas with
  | false =>
    rw [loadFiles_loaded flag]
    rfl
  | true =>
    have rest : Erases (do silently (loadFiles augeas); happens .loaded) (loadFiles augeas) := by
      intro s
      have same := erases_silently (loadFiles augeas) s
      cases run : silently (loadFiles augeas) s with
      | ok a middle =>
        rw [run] at same
        rw [bind_of_ok _ run]
        exact same
      | error code middle =>
        rw [run] at same
        rw [bind_of_error _ run]
        exact same
    exact rest ⟨s.ncf, .load :: s.record⟩

-- The record is a bystander: with it get_augeas does what it does without.
theorem erases_recordingGetAugeas [EmptyCollection C] (augeas : Augeas C D) :
    Erases (recordingGetAugeas augeas) (getAugeas augeas) := by
  intro s
  have body : Erases (do silently createInstance; silently copyTables; recordingLoadFiles augeas)
      (do createInstance; copyTables; loadFiles augeas) :=
    (erases_silently _).bind fun _ => (erases_silently _).bind fun _ => erases_recordingLoadFiles augeas
  have same := body s
  unfold recordingGetAugeas getAugeas closingOnError
  rw [← same]
  cases (do silently createInstance; silently copyTables; recordingLoadFiles augeas : Recording C D Unit) s <;> rfl

theorem silently_of_ok {α : Type} {program : Api C D α} {s : Recorded C D} {a : α} {after : Ncf C D}
    (run : program s.ncf = .ok a after) : silently program s = .ok a ⟨after, s.record⟩ := by
  unfold silently
  rw [run]

theorem silently_of_error {α : Type} {program : Api C D α} {s : Recorded C D} {code : Errcode} {after : Ncf C D}
    (run : program s.ncf = .error code after) : silently program s = .error code ⟨after, s.record⟩ := by
  unfold silently
  rw [run]

theorem silently_ok {α : Type} {program : Api C D α} {s after : Recorded C D} {a : α}
    (run : silently program s = .ok a after) : program s.ncf = .ok a after.ncf ∧ after.record = s.record := by
  unfold silently at run
  cases inner : program s.ncf with
  | ok b middle =>
    rw [inner] at run
    cases run
    exact ⟨rfl, rfl⟩
  | error code middle =>
    rw [inner] at run
    cases run

theorem silently_error {α : Type} {program : Api C D α} {s after : Recorded C D} {code : Errcode}
    (run : silently program s = .error code after) : after.record = s.record := by
  unfold silently at run
  cases inner : program s.ncf with
  | ok b middle =>
    rw [inner] at run
    cases run
  | error code middle =>
    rw [inner] at run
    cases run
    rfl

theorem createInstance_idle [EmptyCollection C] {ncf after : Ncf C D} (run : createInstance ncf = .ok () after)
    (idle : after.copyAugeasXfm = false) : ncf.augeas.isSome = true ∧ after = ncf := by
  rcases createInstance_cases run with ⟨aug, present, same⟩ | ⟨later, rfl⟩
  · exact ⟨by rw [present]; rfl, same⟩
  · cases idle

theorem copyTables_idle {ncf after : Ncf C D} (run : copyTables ncf = .ok () after)
    (idle : after.loadAugeas = false) : ncf.copyAugeasXfm = false ∧ after = ncf := by
  obtain ⟨_, start, found, rest⟩ := bind_ok run
  cases found
  cases copy : ncf.copyAugeasXfm with
  | false =>
    simp only [copy, Bool.false_eq_true, if_false] at rest
    cases rest
    exact ⟨rfl, rfl⟩
  | true =>
    simp only [copy, if_true] at rest
    obtain ⟨_, one, first, rest⟩ := bind_ok rest
    obtain ⟨_, two, cleared, rest⟩ := bind_ok rest
    obtain ⟨_, three, state, rest⟩ := bind_ok rest
    obtain ⟨_, four, loop, rest⟩ := bind_ok rest
    cases rest
    cases idle

theorem recordingLoadFiles_ok {augeas : Augeas C D} {s after : Recorded C D}
    (run : recordingLoadFiles augeas s = .ok () after) :
    after.record = .loaded :: .load :: s.record ∨ s.ncf.loadAugeas = false ∧ after = s := by
  obtain ⟨_, start, found, rest⟩ := bind_ok run
  cases found
  cases flag : s.ncf.loadAugeas with
  | false =>
    simp only [flag, Bool.false_eq_true, if_false] at rest
    cases rest
    exact Or.inr ⟨rfl, rfl⟩
  | true =>
    simp only [flag, if_true] at rest
    obtain ⟨_, one, called, others⟩ := bind_ok rest
    obtain ⟨_, two, loading, last⟩ := bind_ok others
    cases called
    cases last
    exact Or.inl (congrArg _ (silently_ok loading).2)

theorem recordingLoadFiles_error {augeas : Augeas C D} {s after : Recorded C D} {code : Errcode}
    (run : recordingLoadFiles augeas s = .error code after) : after.record = .load :: s.record := by
  rcases bind_error run with failed | ⟨_, start, found, rest⟩
  · cases failed
  cases found
  cases flag : s.ncf.loadAugeas with
  | false =>
    simp only [flag, Bool.false_eq_true, if_false] at rest
    cases rest
  | true =>
    simp only [flag, if_true] at rest
    rcases bind_error rest with failed | ⟨_, one, called, rest⟩
    · cases failed
    cases called
    rcases bind_error rest with failed | ⟨_, two, loading, rest⟩
    · exact silently_error failed
    · cases rest

section Record

variable [EmptyCollection C] {augeas : Augeas C D}

-- A successful get_augeas has just loaded the files, or had nothing at all to do.
theorem recordingGetAugeas_ok {s after : Recorded C D} (run : recordingGetAugeas augeas s = .ok () after) :
    after.record = .loaded :: .load :: s.record ∨
      s.ncf.augeas.isSome = true ∧ s.ncf.copyAugeasXfm = false ∧ s.ncf.loadAugeas = false ∧
        after.record = s.record := by
  unfold recordingGetAugeas at run
  split at run
  · rename_i body
    cases run
    obtain ⟨_, one, created, rest⟩ := bind_ok body
    obtain ⟨_, two, copied, loading⟩ := bind_ok rest
    obtain ⟨created, sameCreated⟩ := silently_ok created
    obtain ⟨copied, sameCopied⟩ := silently_ok copied
    rcases recordingLoadFiles_ok loading with loaded | ⟨flag, rfl⟩
    · left
      rw [loaded, sameCopied, sameCreated]
    · obtain ⟨copy, unchanged⟩ := copyTables_idle copied flag
      obtain ⟨present, same⟩ := createInstance_idle created copy
      rw [unchanged, same] at flag
      rw [same] at copy
      exact Or.inr ⟨present, copy, flag, sameCopied.trans sameCreated⟩
  · cases run

theorem recordingGetAugeas_error {s after : Recorded C D} {code : Errcode}
    (run : recordingGetAugeas augeas s = .error code after) :
    after.record = s.record ∨ after.record = .load :: s.record := by
  unfold recordingGetAugeas at run
  split at run
  · cases run
  · rename_i middle body
    have same : after.record = middle.record := by
      cases run
      rfl
    rw [same]
    rcases bind_error body with failed | ⟨_, one, created, rest⟩
    · exact Or.inl (silently_error failed)
    rcases bind_error rest with failed | ⟨_, two, copied, loading⟩
    · exact Or.inl ((silently_error failed).trans (silently_ok created).2)
    · right
      rw [recordingLoadFiles_error loading, (silently_ok copied).2, (silently_ok created).2]

end Record

section Paths

-- What a table sets on its own: a later value for a path replaces an earlier one.
def ownEntries (table : Entries) : Entries :=
  table.foldl setEntry []

def Apart (left right : Entries) : Prop :=
  ∀ entry ∈ left, ∀ other ∈ right, entry.1 ≠ other.1

theorem setEntry_append {front : Entries} {entry : String × String} (fresh : ∀ old ∈ front, old.1 ≠ entry.1)
    (back : Entries) : setEntry (front ++ back) entry = front ++ setEntry back entry := by
  have absent : front.any (·.1 = entry.1) = false := by simpa using fresh
  have kept : front.map (fun old => if old.1 = entry.1 then entry else old) = front := by
    conv_rhs => rw [← List.map_id front]
    apply List.map_congr_left
    intro old member
    rw [if_neg (fresh old member)]
    rfl
  unfold setEntry
  rw [List.any_append, absent, Bool.false_or]
  split
  · rw [List.map_append, kept]
  · rw [List.append_assoc]

theorem foldl_setEntry {front : Entries} {table : Entries} (fresh : Apart front table) (back : Entries) :
    table.foldl setEntry (front ++ back) = front ++ table.foldl setEntry back := by
  induction table generalizing back with
  | nil => rfl
  | cons entry rest ih =>
    rw [List.foldl_cons, List.foldl_cons,
      setEntry_append (fun old member => fresh old member entry List.mem_cons_self),
      ih fun old member other later => fresh old member other (List.mem_cons_of_mem entry later)]

theorem mem_setEntry {entries : Entries} {entry found : String × String} (member : found ∈ setEntry entries entry) :
    found ∈ entries ∨ found = entry := by
  unfold setEntry at member
  split at member
  · obtain ⟨old, present, rfl⟩ := List.mem_map.mp member
    split
    · exact Or.inr rfl
    · exact Or.inl present
  · simpa using member

theorem mem_ownEntries {table : Entries} {found : String × String} (member : found ∈ ownEntries table) :
    found ∈ table := by
  suffices mem : ∀ start : Entries, found ∈ table.foldl setEntry start → found ∈ start ∨ found ∈ table by
    exact (mem [] member).resolve_left List.not_mem_nil
  clear member
  induction table with
  | nil => exact fun start member => Or.inl member
  | cons entry rest ih =>
    intro start member
    rcases ih _ member with earlier | later
    · rcases mem_setEntry earlier with old | rfl
      · exact Or.inl old
      · exact Or.inr List.mem_cons_self
    · exact Or.inr (List.mem_cons_of_mem entry later)

-- Tables with disjoint paths do not get in each other's way under /augeas/load.
theorem entries_of_apart {tables : List Entries} (apart : tables.Pairwise Apart) :
    entries (tables.map some) = tables.flatMap ownEntries := by
  suffices general : ∀ front : Entries, (∀ table ∈ tables, Apart front table) →
      tables.flatten.foldl setEntry front = front ++ tables.flatMap ownEntries by
    have all : (tables.map some).reduceOption = tables := by simp [List.reduceOption, List.filterMap_map]
    unfold entries
    rw [all]
    exact general [] fun _ _ => by simp [Apart]
  induction tables with
  | nil => simp
  | cons table rest ih =>
    intro front clear
    obtain ⟨first, others⟩ := List.pairwise_cons.mp apart
    have alone := foldl_setEntry (clear table List.mem_cons_self) []
    rw [List.append_nil] at alone
    rw [List.flatten_cons, List.foldl_append, alone, List.flatMap_cons, ← List.append_assoc]
    apply ih others
    intro other later entry member
    rcases List.mem_append.mp member with old | own
    · exact clear other (List.mem_cons_of_mem table later) entry old
    · exact first other later entry (mem_ownEntries own)

end Paths

section Run

inductive Operation (C D : Type)
  | entry
  | register (table : Entries)
  | getAugeas
  -- the driver changes the loaded tree
  | edit (change : Files C → Files C)
  -- another program writes the files
  | elsewhere (disk : D)

def register (table : Entries) : Recording C D Unit := do
  silently (addAugeasXfmTable table)
  happens (.registration table)

def answered {α : Type} : EStateM.Result Errcode (Recorded C D) α → Except Errcode α × Recorded C D
  | .ok a after => (.ok a, after)
  | .error code after => (.error code, after)

variable [EmptyCollection C] (augeas : Augeas C D)

def operate : Operation C D → Recorded C D → Except Errcode Unit × Recorded C D
  | .entry, s => (.ok (), ⟨apiEntry s.ncf, .entry :: s.record⟩)
  | .register table, s => answered (register table s)
  | .getAugeas, s => answered (recordingGetAugeas augeas s)
  | .edit change, s =>
      answered (silently (updateInstance fun aug => { aug with files := change aug.files }) s)
  | .elsewhere disk, s => (.ok (), { s with ncf := { s.ncf with disk := disk } })

def allocated (disk : D) (faults : List Bool) : Recorded C D :=
  ⟨⟨disk, none, [], false, false, faults⟩, []⟩

def registered : List Event → List Entries
  | [] => []
  | .registration table :: earlier => registered earlier ++ [table]
  | _ :: earlier => registered earlier

def loadedSince : List Event → Bool
  | [] => false
  | .loaded :: _ => true
  | .load :: earlier => loadedSince earlier
  | .entry :: _ => false
  | .registration _ :: _ => false

def Event.quiet : Event → Bool
  | .entry => false
  | .registration _ => false
  | .load => true
  | .loaded => true

structure Consistent (s : Recorded C D) : Prop where
  tables : s.ncf.augeasXfmTables = (registered s.record).map some
  copied : Registered s.ncf
  fresh : s.ncf.augeas.isSome = true → s.ncf.copyAugeasXfm = false → s.ncf.loadAugeas = false →
    loadedSince s.record = true

structure Ready (s : Recorded C D) : Prop where
  present : ∃ files, s.ncf.augeas = some ⟨entries ((registered s.record).map some), files⟩
  copied : s.ncf.copyAugeasXfm = false
  unflagged : s.ncf.loadAugeas = false
  loaded : loadedSince s.record = true

omit [EmptyCollection C] in
theorem consistent_allocated (disk : D) (faults : List Bool) :
    Consistent (allocated disk faults : Recorded C D) where
  tables := rfl
  copied _ _ found := by cases found
  fresh present := by cases present

variable {augeas}

theorem recordingGetAugeas_ready {s after : Recorded C D} (consistent : Consistent s)
    (run : recordingGetAugeas augeas s = .ok () after) : Consistent after ∧ Ready after := by
  have ran : getAugeas augeas s.ncf = .ok () after.ncf := by
    rw [← erases_recordingGetAugeas augeas s, run]
    rfl
  obtain ⟨same, copy, flag, files, present, _⟩ := getAugeas_ok consistent.copied ran
  rcases recordingGetAugeas_ok run with happened | ⟨stayed, copied, unflagged, happened⟩
  · have tables : registered after.record = registered s.record := by rw [happened]; rfl
    have loaded : loadedSince after.record = true := by rw [happened]; rfl
    refine ⟨⟨?_, getAugeas_registered consistent.copied ran, fun _ _ _ => loaded⟩, ⟨files, ?_⟩, copy, flag, loaded⟩
    · rw [same.tables, tables, consistent.tables]
    · rw [present, tables, consistent.tables]
  · have loaded := consistent.fresh stayed copied unflagged
    rw [← happened] at loaded
    refine ⟨⟨?_, getAugeas_registered consistent.copied ran, fun _ _ _ => loaded⟩, ⟨files, ?_⟩, copy, flag, loaded⟩
    · rw [same.tables, happened, consistent.tables]
    · rw [present, happened, consistent.tables]

theorem recordingGetAugeas_dropped {s after : Recorded C D} {code : Errcode} (consistent : Consistent s)
    (run : recordingGetAugeas augeas s = .error code after) : Consistent after ∧ after.ncf.augeas = none := by
  have ran : getAugeas augeas s.ncf = .error code after.ncf := by
    rw [← erases_recordingGetAugeas augeas s, run]
    rfl
  obtain ⟨same, dropped⟩ := getAugeas_error ran
  have tables : registered after.record = registered s.record := by
    rcases recordingGetAugeas_error run with happened | happened
    · rw [happened]
    · rw [happened]
      rfl
  refine ⟨⟨?_, ?_, ?_⟩, dropped⟩
  · rw [same.tables, tables, consistent.tables]
  · intro _ aug found
    rw [dropped] at found
    cases found
  · intro present
    rw [dropped] at present
    cases present

omit [EmptyCollection C] in
theorem addAugeasXfmTable_cases {tables : List Entries} (table : Entries) {ncf : Ncf C D}
    (full : ncf.augeasXfmTables = tables.map some) :
    ∃ later,
      addAugeasXfmTable table ncf = .ok () { ncf with
        augeasXfmTables := (tables ++ [table]).map some, copyAugeasXfm := true, faults := later } ∨
      addAugeasXfmTable table ncf = .error .nomem { ncf with faults := later } := by
  have noSlot : ncf.augeasXfmTables.findIdx? Option.isNone = none := by
    rw [full, List.findIdx?_eq_none_iff]
    intro slot member
    obtain ⟨_, _, rfl⟩ := List.mem_map.mp member
    rfl
  unfold addAugeasXfmTable
  rw [bind_of_ok _ (get_run ncf)]
  simp only [noSlot]
  rcases attempt_cases .nomem ncf with ⟨later, allocated | failed⟩
  · refine ⟨later, Or.inl ?_⟩
    rw [bind_of_ok _ allocated, full, List.map_append]
    rfl
  · exact ⟨later, Or.inr (bind_of_error _ failed)⟩

-- A registration either leaves a new table to copy, or only the fault that stopped it.
omit [EmptyCollection C] in
theorem register_cases {s : Recorded C D} (consistent : Consistent s) (table : Entries) :
    ∃ later,
      register table s = .ok () ⟨{ s.ncf with
        augeasXfmTables := (registered s.record ++ [table]).map some, copyAugeasXfm := true, faults := later },
        .registration table :: s.record⟩ ∨
      register table s = .error .nomem { s with ncf := { s.ncf with faults := later } } := by
  unfold register
  rcases addAugeasXfmTable_cases table consistent.tables with ⟨later, added | failed⟩
  · refine ⟨later, Or.inl ?_⟩
    rw [bind_of_ok _ (silently_of_ok added)]
    rfl
  · exact ⟨later, Or.inr (bind_of_error _ (silently_of_error failed))⟩

variable (augeas) in
theorem operate_consistent (operation : Operation C D) {s : Recorded C D} (consistent : Consistent s) :
    Consistent (operate augeas operation s).2 := by
  cases operation with
  | entry => exact ⟨consistent.tables, consistent.copied, fun _ _ flag => by cases flag⟩
  | register table =>
    change Consistent (answered (register table s)).2
    rcases register_cases consistent table with ⟨later, run | run⟩ <;> rw [run]
    · exact ⟨rfl, fun copy => (Bool.noConfusion copy), fun _ copy => (Bool.noConfusion copy)⟩
    · exact ⟨consistent.tables, consistent.copied, consistent.fresh⟩
  | getAugeas =>
    change Consistent (answered (recordingGetAugeas augeas s)).2
    cases run : recordingGetAugeas augeas s with
    | ok _ after => exact (recordingGetAugeas_ready consistent run).1
    | error code after => exact (recordingGetAugeas_dropped consistent run).1
  | edit change =>
    refine ⟨consistent.tables, ?_, ?_⟩
    · intro copy aug found
      obtain ⟨old, present, rfl⟩ := Option.map_eq_some_iff.mp found
      exact consistent.copied copy old present
    · intro present copy flag
      exact consistent.fresh (Option.isSome_map.symm.trans present) copy flag
  | elsewhere disk => exact ⟨consistent.tables, consistent.copied, consistent.fresh⟩

variable (augeas) in
theorem reached_consistent (operations : List (Operation C D)) {s : Recorded C D} (consistent : Consistent s) :
    Consistent (run (operate augeas) operations s).2 :=
  run_invariant (operate augeas) Consistent (fun _ => True)
    (fun operation _ _ before => operate_consistent augeas operation before) operations (fun _ _ => trivial) s consistent

theorem Ready.getAugeas {s : Recorded C D} (ready : Ready s) : recordingGetAugeas augeas s = .ok () s := by
  obtain ⟨files, present⟩ := ready.present
  have some : s.ncf.augeas.isSome = true := by
    rw [present]
    rfl
  have idle : recordingLoadFiles augeas s = .ok () s := by
    unfold recordingLoadFiles
    rw [bind_of_ok _ (get_run s), ready.unflagged]
    rfl
  unfold recordingGetAugeas
  rw [bind_of_ok _ (silently_of_ok (createInstance_present some)),
    bind_of_ok _ (silently_of_ok (copyTables_copied ready.copied)), idle]

-- Between two calls: whatever happens without an API entry or a registration leaves the tables copied
-- and the files loaded.
theorem Ready.operate {s : Recorded C D} (consistent : Consistent s) (ready : Ready s) (operation : Operation C D)
    {events : List Event} (happened : (operate augeas operation s).2.record = events ++ s.record)
    (quiet : events.all Event.quiet = true) : Ready (Linux.operate augeas operation s).2 := by
  cases operation with
  | entry =>
    cases List.append_cancel_right (show [.entry] ++ s.record = events ++ s.record from happened)
    cases quiet
  | register table =>
    change (answered (register table s)).2.record = _ at happened
    change Ready (answered (register table s)).2
    rcases register_cases consistent table with ⟨later, run | run⟩ <;> rw [run] at happened ⊢
    · cases List.append_cancel_right (show [.registration table] ++ s.record = events ++ s.record from happened)
      cases quiet
    · exact ⟨ready.present, ready.copied, ready.unflagged, ready.loaded⟩
  | getAugeas =>
    change Ready (answered (recordingGetAugeas augeas s)).2
    rw [ready.getAugeas]
    exact ready
  | edit change =>
    obtain ⟨files, present⟩ := ready.present
    refine ⟨⟨change files, ?_⟩, ready.copied, ready.unflagged, ready.loaded⟩
    change s.ncf.augeas.map _ = _
    rw [present]
    rfl
  | elsewhere disk => exact ⟨ready.present, ready.copied, ready.unflagged, ready.loaded⟩

variable (augeas) in
-- The record only grows, so a run without an API entry or a registration is one without them at
-- every step.
theorem operate_record (operation : Operation C D) {s : Recorded C D} (consistent : Consistent s) :
    ∃ events, (operate augeas operation s).2.record = events ++ s.record := by
  cases operation with
  | entry => exact ⟨[.entry], rfl⟩
  | register table =>
    change ∃ events, (answered (register table s)).2.record = events ++ s.record
    rcases register_cases consistent table with ⟨later, run | run⟩ <;> rw [run]
    · exact ⟨[.registration table], rfl⟩
    · exact ⟨[], rfl⟩
  | getAugeas =>
    change ∃ events, (answered (recordingGetAugeas augeas s)).2.record = events ++ s.record
    cases run : recordingGetAugeas augeas s with
    | ok _ after =>
      rcases recordingGetAugeas_ok run with happened | ⟨_, _, _, happened⟩
      · exact ⟨[.loaded, .load], happened⟩
      · exact ⟨[], happened⟩
    | error code after =>
      rcases recordingGetAugeas_error run with happened | happened
      · exact ⟨[], happened⟩
      · exact ⟨[.load], happened⟩
  | edit change => exact ⟨[], rfl⟩
  | elsewhere disk => exact ⟨[], rfl⟩

variable (augeas) in
theorem run_record (operations : List (Operation C D)) {s : Recorded C D} (consistent : Consistent s) :
    ∃ events, (run (operate augeas) operations s).2.record = events ++ s.record := by
  induction operations generalizing s with
  | nil => exact ⟨[], rfl⟩
  | cons operation rest ih =>
    obtain ⟨first, happened⟩ := operate_record augeas operation consistent
    obtain ⟨later, grown⟩ := ih (operate_consistent augeas operation consistent)
    refine ⟨later ++ first, ?_⟩
    rw [List.append_assoc, ← happened]
    exact grown

theorem Ready.stays {s : Recorded C D} (consistent : Consistent s) (ready : Ready s)
    (operations : List (Operation C D)) {events : List Event}
    (happened : (run (Linux.operate augeas) operations s).2.record = events ++ s.record)
    (quiet : events.all Event.quiet = true) : Ready (run (Linux.operate augeas) operations s).2 := by
  induction operations generalizing s events with
  | nil => exact ready
  | cons operation rest ih =>
    have still := operate_consistent augeas operation consistent
    obtain ⟨first, step⟩ := operate_record augeas operation consistent
    obtain ⟨later, grown⟩ := run_record augeas rest still
    have split : later ++ first = events := by
      apply List.append_cancel_right
      rw [← happened, List.append_assoc, ← step]
      exact grown.symm
    rw [← split, List.all_append, Bool.and_eq_true] at quiet
    exact ih still (ready.operate consistent operation step quiet.2) grown quiet.1

-- The instance has the entries of all registered tables, and has loaded under them.
structure Current (s : Recorded C D) : Prop where
  load : (registered s.record).Pairwise Apart →
    ∃ aug, s.ncf.augeas = some aug ∧ aug.load = (registered s.record).flatMap ownEntries
  loaded : loadedSince s.record = true

omit [EmptyCollection C] in
theorem Ready.current {s : Recorded C D} (ready : Ready s) : Current s := by
  refine ⟨fun apart => ?_, ready.loaded⟩
  obtain ⟨files, present⟩ := ready.present
  exact ⟨_, present, entries_of_apart apart⟩

theorem getAugeas_current {s after : Recorded C D} (consistent : Consistent s)
    (run : operate augeas .getAugeas s = (.ok (), after)) : Consistent after ∧ Ready after := by
  change answered (recordingGetAugeas augeas s) = _ at run
  cases inner : recordingGetAugeas augeas s with
  | ok _ middle =>
    rw [inner] at run
    cases run
    exact recordingGetAugeas_ready consistent inner
  | error code middle =>
    rw [inner] at run
    cases run

theorem getAugeas_dropped {s after : Recorded C D} {code : Errcode} (consistent : Consistent s)
    (run : operate augeas .getAugeas s = (.error code, after)) : Consistent after ∧ after.ncf.augeas = none := by
  change answered (recordingGetAugeas augeas s) = _ at run
  cases inner : recordingGetAugeas augeas s with
  | ok _ middle =>
    rw [inner] at run
    cases run
  | error code middle =>
    rw [inner] at run
    cases run
    exact recordingGetAugeas_dropped consistent inner

-- After any run a get_augeas that succeeds gives an instance that is current, and the next ones do nothing until
-- an API call or a registration comes; one that fails leaves no instance, and the first that succeeds later gives
-- a current one again.
theorem instance_lifecycle (augeas : Augeas C D) (disk : D) (faults : List Bool)
    (operations : List (Operation C D)) :
    match operate augeas .getAugeas (run (operate augeas) operations (allocated disk faults)).2 with
    | (.ok (), after) => Current after ∧
        ∀ between events, (run (operate augeas) between after).2.record = events ++ after.record →
          events.all Event.quiet = true →
            operate augeas .getAugeas (run (operate augeas) between after).2 =
              (.ok (), (run (operate augeas) between after).2)
    | (.error _, after) => after.ncf.augeas = none ∧
        ∀ more again, operate augeas .getAugeas (run (operate augeas) more after).2 = (.ok (), again) →
          Current again := by
  have reached : Consistent (run (operate augeas) operations (allocated disk faults)).2 :=
    reached_consistent augeas operations (consistent_allocated disk faults)
  cases asked : operate augeas .getAugeas (run (operate augeas) operations (allocated disk faults)).2 with
  | mk answer after =>
    cases answer with
    | ok _ =>
      obtain ⟨consistent, ready⟩ := getAugeas_current reached asked
      refine ⟨ready.current, ?_⟩
      intro between events happened quiet
      change answered (recordingGetAugeas augeas _) = _
      rw [(ready.stays consistent between happened quiet).getAugeas]
      rfl
    | error code =>
      obtain ⟨consistent, dropped⟩ := getAugeas_dropped reached asked
      refine ⟨dropped, ?_⟩
      intro more again ran
      exact (getAugeas_current (reached_consistent augeas more consistent) ran).2.current

end Run

end Netcf.Linux
