import Netcf.Linux.Outcome

set_option autoImplicit false

-- Trees that the lenses of Augeas can write.  Where a driver puts only such trees together, what a
-- call has saved is what the later calls find.
namespace Netcf.Linux

open Shared.Faulty Shared.Simulation Schema

variable {C D F : Type}

-- Augeas loads trees that it can write, and a tree that it can write is read back as it is.
structure Lensed (typed : C → Prop) (augeas : Augeas C D) (load : Entries) : Prop where
  reads : ∀ disk, typed (augeas.read load disk).config
  writes : ∀ disk files, typed files.config → augeas.read load (augeas.write disk files) = files

-- What is asked of a driver: it makes only trees of this kind out of the documents in question.
structure Backend.Types (backend : Backend C D F) [EmptyCollection C] (augeas : Augeas C D) (typed : C → Prop)
    (allowed : Interface → Prop) : Prop where
  safe : backend.Safe augeas
  reads : ∀ disk tables P, backend.Reads augeas (Shows disk tables P)
  rmInterface : ∀ disk tables name,
    Preserves (Shows disk tables fun files => typed files.config) (backend.rmInterface augeas name)
  augPutXml : ∀ disk tables document forest, allowed document → backend.get document = .ok forest →
    Preserves (Shows disk tables fun files => typed files.config) (backend.augPutXml augeas forest)

section Failures

variable [EmptyCollection C] {augeas : Augeas C D} {backend : Backend C D F} {libxml : Libxml}

-- Whatever makes the program fail, it is not make_netcf_if.
def Earlier {α : Type} (program : EStateM Failure (Ncf C D) α) : Prop :=
  ∀ ncf failure after, program ncf = .error failure after → failure.step ≠ .makeNetcfIf

omit [EmptyCollection C] in
theorem earlier_stage {α : Type} {step : Step} (other : step ≠ .makeNetcfIf) (program : Api C D α) :
    Earlier (stage step program) := by
  intro ncf failure after run same
  exact other ((stage_error run).1.symm.trans same)

omit [EmptyCollection C] in
theorem Earlier.bind {α β : Type} {first : EStateM Failure (Ncf C D) α} {next : α → EStateM Failure (Ncf C D) β}
    (before : Earlier first) (after : ∀ a, Earlier (next a)) : Earlier (first >>= next) := by
  intro ncf failure final run
  rcases bind_error run with failed | ⟨a, middle, _, rest⟩
  · exact before ncf failure final failed
  · exact after a middle failure final rest

omit [EmptyCollection C] in
theorem earlier_pure {α : Type} (a : α) : Earlier (pure a : EStateM Failure (Ncf C D) α) := by
  intro ncf failure after run
  cases run

theorem earlier_defineInTree (text : String) : Earlier (defineInTree augeas backend libxml text) :=
  (earlier_stage (by decide) _).bind fun _ => (earlier_stage (by decide) _).bind fun _ =>
    (earlier_stage (by decide) _).bind fun _ => (earlier_stage (by decide) _).bind fun _ =>
    (earlier_stage (by decide) _).bind fun _ => (earlier_stage (by decide) _).bind fun _ =>
    (earlier_stage (by decide) _).bind fun _ => (earlier_stage (by decide) _).bind fun _ => earlier_pure _

end Failures

section Calls

variable [EmptyCollection C] {augeas : Augeas C D} {backend : Backend C D F} {libxml : Libxml}
  {typed : C → Prop} {allowed : Interface → Prop} {ncf after : Ncf C D} {faults : List Bool}

-- The loaded tree is one that the lenses can write.
abbrev Typed (typed : C → Prop) (ncf start : Ncf C D) : Prop :=
  Shows ncf.disk ncf.augeasXfmTables (fun files => typed files.config) start

theorem typed_bondSetup (types : backend.Types augeas typed allowed) {start : Ncf C D} (shown : Typed typed ncf start)
    {name : String} {adding : Bool} (run : bondSetup augeas backend name adding start = .ok () after) :
    Typed typed ncf after := by
  obtain ⟨files, loaded, holds⟩ := shown
  obtain ⟨aliased, still, same⟩ := bondSetup_config (types.reads _ _ _) loaded run
  refine ⟨aliased, still, ?_⟩
  dsimp only
  rwa [same]

theorem typed_rmAllInterfaces (types : backend.Types augeas typed allowed) (document : Interface)
    {disk : D} {tables : List (Option Entries)} :
    Preserves (Shows disk tables fun files => typed files.config) (rmAllInterfaces augeas backend document) := by
  have kept := shows_kept augeas disk tables fun files => typed files.config
  refine (kept.attempt _).bind fun _ => (kept.attempt _).bind fun _ => preserves_forM (fun name => ?_) _
  cases name with
  | none => exact preserves_throw _
  | some name => exact (kept.attempt _).bind fun _ => types.rmInterface _ _ name

-- The steps of drv_define up to its save, whether or not make_netcf_if succeeds after it.
theorem defineInTree_ok (registered : Registered ncf) {text name : String}
    (run : defineInTree augeas backend libxml text (enter faults ncf) = .ok name after) :
    ∃ document forest start removed ready written, libxml.accepts text = some document ∧
      ∀ {saved}, (∀ {files}, Loaded ncf.disk ncf.augeasXfmTables after files → Saved augeas ncf files saved) →
        Defining augeas backend document forest ncf start removed ready written after saved := by
  obtain ⟨_, opened, loading, run⟩ := bind_ok run
  obtain ⟨doc, parsed, parsing, run⟩ := bind_ok run
  obtain ⟨document, valid, validating, run⟩ := bind_ok run
  obtain ⟨_, start, naming, run⟩ := bind_ok run
  obtain ⟨_, removed, removing, run⟩ := bind_ok run
  obtain ⟨forest, ready, transforming, run⟩ := bind_ok run
  obtain ⟨_, written, putting, run⟩ := bind_ok run
  obtain ⟨_, _, aliasing, done⟩ := bind_ok run
  cases done
  have loaded := @getAugeas_loads _ _ _ _ { ncf with faults := faults } _ registered (stage_ok loading)
  obtain ⟨text_parsed, toParsed⟩ := parseXml_ok (stage_ok parsing)
  obtain ⟨doc_valid, toValid⟩ := rngValidate_ok (stage_ok validating)
  obtain ⟨rfl, toStart⟩ := deviceNameFromXml_ok (stage_ok naming)
  obtain ⟨transforms, waits⟩ := applyStylesheet_ok (stage_ok transforming)
  refine ⟨document, forest, start, removed, ready, written, ?_, fun saves => ?_⟩
  · simp [Libxml.accepts, text_parsed, doc_valid]
  · exact ⟨(toParsed.trans (toValid.trans toStart)).loaded loaded, transforms, stage_ok removing, waits,
      stage_ok putting, stage_ok aliasing, saves⟩

theorem typed_defining (types : backend.Types augeas typed allowed)
    (lensed : Lensed typed augeas (entries ncf.augeasXfmTables)) {document : Interface} {forest : F}
    {start removed ready written saving : Ncf C D} (fine : allowed document)
    (defining : Defining augeas backend document forest ncf start removed ready written saving after) :
    Typed typed ncf saving := by
  have shown : Typed typed ncf start := ⟨_, defining.loaded, lensed.reads ncf.disk⟩
  obtain ⟨files, cleared, holds⟩ := (typed_rmAllInterfaces types document).ok defining.removes shown
  have filled : Typed typed ncf written :=
    (types.augPutXml _ _ document forest fine defining.transforms).ok defining.puts
      ⟨files, defining.waits.loaded cleared, holds⟩
  exact typed_bondSetup types filled defining.aliases

omit [EmptyCollection C] in
theorem Saved.withFaults {files : Files C} (saved : Saved augeas ncf files after) (later : List Bool) :
    Saved augeas ncf files { after with faults := later } :=
  ⟨saved.disk, saved.present, saved.tables, saved.registered⟩

omit [EmptyCollection C] in
theorem Saved.unique {files other : Files C} (saved : Saved augeas ncf files after)
    (again : Saved augeas ncf other after) : files = other := by
  have same := saved.present.symm.trans again.present
  simpa using same

omit [EmptyCollection C] in
theorem Saved.makeNetcfIf {files : Files C} (saved : Saved augeas ncf files after) (name : String) :
    Saved augeas ncf files (final (makeNetcfIf name after)) := by
  unfold Linux.makeNetcfIf
  rcases attempt_cases .nomem after with ⟨later, run | run⟩
  · rw [bind_of_ok _ run]
    exact saved.withFaults later
  · rw [bind_of_error _ run]
    exact saved.withFaults later

theorem defining_saved {document : Interface} {forest : F} {start removed ready written saving : Ncf C D}
    (types : backend.Types augeas typed allowed) (lensed : Lensed typed augeas (entries ncf.augeasXfmTables))
    (fine : allowed document)
    (defining : Defining augeas backend document forest ncf start removed ready written saving after) :
    ∃ files, typed files.config ∧ Saved augeas ncf files after := by
  obtain ⟨files, loaded, holds⟩ := typed_defining types lensed fine defining
  exact ⟨files, holds, defining.saves loaded⟩

-- A define that has saved has gone through all of its steps, even where it failed in the end.
theorem serve_defining (registered : Registered ncf) {text : String}
    (writes : (serve augeas backend libxml (.define text faults) ncf).1.writes = true) :
    ∃ document forest start removed ready written saving, libxml.accepts text = some document ∧
      Defining augeas backend document forest ncf start removed ready written saving
        (serve augeas backend libxml (.define text faults) ncf).2 := by
  cases run : drvDefine augeas backend libxml text (enter faults ncf) with
  | ok nif after =>
    simp only [serve, run]
    obtain ⟨name, saving, inTree, rest⟩ := bind_ok run
    obtain ⟨_, saved, save, making⟩ := bind_ok rest
    obtain ⟨document, forest, start, removed, ready, written, accepted, steps⟩ := defineInTree_ok registered inTree
    refine ⟨document, forest, start, removed, ready, written, saving, accepted, steps fun loaded => ?_⟩
    have last := ((augSave_ok loaded (stage_ok save)).saved loaded).makeNetcfIf name
    rwa [stage_ok making] at last
  | error failure after =>
    simp only [serve, run]
    have last : failure.step = .makeNetcfIf := by simpa [serve, run, Answer.writes] using writes
    rcases bind_error run with failed | ⟨name, saving, inTree, rest⟩
    · exact absurd last (earlier_defineInTree text _ _ _ failed)
    rcases bind_error rest with failed | ⟨_, saved, save, making⟩
    · exact absurd last (earlier_stage (by decide) _ _ _ _ failed)
    obtain ⟨document, forest, start, removed, ready, written, accepted, steps⟩ := defineInTree_ok registered inTree
    refine ⟨document, forest, start, removed, ready, written, saving, accepted, steps fun loaded => ?_⟩
    have final := ((augSave_ok loaded (stage_ok save)).saved loaded).makeNetcfIf name
    rwa [(stage_error making).2] at final

theorem drvUndefine_ok (registered : Registered ncf) {nif : NetcfIf}
    (run : drvUndefine augeas backend nif (enter faults ncf) = .ok () after) :
    ∃ opened unaliased removed, Loaded ncf.disk ncf.augeasXfmTables opened (augeas.read (entries ncf.augeasXfmTables) ncf.disk) ∧
      bondSetup augeas backend nif.name false opened = .ok () unaliased ∧
      backend.rmInterface augeas nif.name unaliased = .ok () removed ∧
      ∀ {files}, Loaded ncf.disk ncf.augeasXfmTables removed files → Saved augeas ncf files after := by
  obtain ⟨_, opened, loading, run⟩ := bind_ok run
  obtain ⟨_, unaliased, aliasing, run⟩ := bind_ok run
  obtain ⟨_, removed, removing, saving⟩ := bind_ok run
  have loaded := @getAugeas_loads _ _ _ _ { ncf with faults := faults } _ registered loading
  exact ⟨opened, unaliased, removed, loaded, aliasing, removing, fun shown => (augSave_ok shown saving).saved shown⟩

theorem typed_undefine (types : backend.Types augeas typed allowed) (registered : Registered ncf)
    (lensed : Lensed typed augeas (entries ncf.augeasXfmTables)) {nif : NetcfIf}
    (run : drvUndefine augeas backend nif (enter faults ncf) = .ok () after) :
    ∃ files, typed files.config ∧ Saved augeas ncf files after := by
  obtain ⟨opened, unaliased, removed, loaded, aliasing, removing, saves⟩ := drvUndefine_ok registered run
  have shown : Typed typed ncf unaliased := typed_bondSetup types ⟨_, loaded, lensed.reads ncf.disk⟩ aliasing
  obtain ⟨files, still, holds⟩ := (types.rmInterface _ _ nif.name).ok removing shown
  exact ⟨files, holds, saves still⟩

theorem serve_saved (types : backend.Types augeas typed allowed) (registered : Registered ncf)
    (lensed : Lensed typed augeas (entries ncf.augeasXfmTables)) {call : Call}
    (fine : ∀ text faults, call = .define text faults → ∀ document, libxml.accepts text = some document →
      allowed document)
    (writes : (serve augeas backend libxml call ncf).1.writes = true) :
    ∃ files, typed files.config ∧ Saved augeas ncf files (serve augeas backend libxml call ncf).2 := by
  cases call with
  | look faults =>
    simp only [serve, obtained] at writes
    split at writes
    · cases writes
    · split at writes <;> cases writes
  | define text faults =>
    obtain ⟨document, _, _, _, _, _, _, accepted, defining⟩ := serve_defining registered writes
    exact defining_saved types lensed (fine text faults rfl document accepted) defining
  | undefine nif faults =>
    cases run : drvUndefine augeas backend nif (enter faults ncf) with
    | ok _ after =>
      simp only [serve, run]
      exact typed_undefine types registered lensed run
    | error code after => simp [serve, run, Answer.writes] at writes

variable {table : Entries} {disk : D} {history later : List Call} {call : Call}

-- Later calls that save nothing leave what has been saved in view.
theorem saved_in_view (types : backend.Types augeas typed allowed) {before : Ncf C D}
    (reachable : before = reached augeas backend libxml table disk history)
    (lensed : Lensed typed augeas (entries before.augeasXfmTables))
    (fine : ∀ text faults, call = .define text faults → ∀ document, libxml.accepts text = some document →
      allowed document)
    (writes : (serve augeas backend libxml call before).1.writes = true)
    (quiet : ∀ answer ∈ (run (serve augeas backend libxml) later (serve augeas backend libxml call before).2).1,
      answer.writes = false) :
    ∃ files, typed files.config ∧ (serve augeas backend libxml call before).2.disk = augeas.write before.disk files ∧
      (∀ found, .tree found ∈ (run (serve augeas backend libxml) later
        (serve augeas backend libxml call before).2).1 → found = files) ∧
      (serve augeas backend libxml (.look []) (run (serve augeas backend libxml) later
        (serve augeas backend libxml call before).2).2).1 = .tree files := by
  have registered : Registered before := by
    rw [reachable]
    exact registered_reached types.safe table disk history
  obtain ⟨files, holds, saved⟩ := serve_saved types registered lensed fine writes
  have sound : Sound (augeas.write before.disk files) before.augeasXfmTables
      (serve augeas backend libxml call before).2 := ⟨⟨saved.disk, saved.tables⟩, saved.registered⟩
  have kept := lensed.writes before.disk files holds
  obtain ⟨still, trees⟩ := run_sound types.safe sound quiet
  refine ⟨files, holds, saved.disk, fun found listed => ?_, ?_⟩
  · rw [trees found listed, kept]
  · change obtained (getAugeas augeas (enter [] _)) = _
    rw [obtained_calm still, kept]

end Calls

end Netcf.Linux
