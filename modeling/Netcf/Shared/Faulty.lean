import Mathlib.Data.List.Basic

set_option autoImplicit false

-- Programs whose steps can fail for reasons of their own.  A failed program keeps the state it had
-- reached.
namespace Shared.Faulty

variable {ε σ α β : Type}

theorem bind_ok {first : EStateM ε σ α} {next : α → EStateM ε σ β} {s s' : σ} {b : β}
    (run : (first >>= next) s = .ok b s') :
    ∃ a middle, first s = .ok a middle ∧ next a middle = .ok b s' := by
  change EStateM.bind first next s = .ok b s' at run
  unfold EStateM.bind at run
  split at run
  · exact ⟨_, _, by assumption, run⟩
  · contradiction

theorem bind_error {first : EStateM ε σ α} {next : α → EStateM ε σ β} {s s' : σ} {e : ε}
    (run : (first >>= next) s = .error e s') :
    first s = .error e s' ∨ ∃ a middle, first s = .ok a middle ∧ next a middle = .error e s' := by
  change EStateM.bind first next s = .error e s' at run
  unfold EStateM.bind at run
  split at run
  · exact Or.inr ⟨_, _, by assumption, run⟩
  · cases run
    exact Or.inl (by assumption)

theorem bind_of_ok {first : EStateM ε σ α} (next : α → EStateM ε σ β) {s middle : σ} {a : α}
    (run : first s = .ok a middle) : (first >>= next) s = next a middle := by
  change EStateM.bind first next s = _
  unfold EStateM.bind
  rw [run]

theorem bind_of_error {first : EStateM ε σ α} (next : α → EStateM ε σ β) {s s' : σ} {e : ε}
    (run : first s = .error e s') : (first >>= next) s = .error e s' := by
  change EStateM.bind first next s = _
  unfold EStateM.bind
  rw [run]

theorem get_run (s : σ) : (get : EStateM ε σ σ) s = .ok s s := rfl

theorem modify_run (f : σ → σ) (s : σ) : (modify f : EStateM ε σ PUnit) s = .ok ⟨⟩ (f s) := rfl

theorem bind_same {first other : EStateM ε σ α} (next : α → EStateM ε σ β) {s s' : σ} (same : first s = other s') :
    (first >>= next) s = (other >>= next) s' := by
  change EStateM.bind first next s = EStateM.bind other next s'
  unfold EStateM.bind
  rw [same]

def succeeds : EStateM.Result ε σ α → Bool
  | .ok _ _ => true
  | .error _ _ => false

def answer : EStateM.Result ε σ α → Option α
  | .ok a _ => some a
  | .error _ _ => none

theorem answer_ok {result : EStateM.Result ε σ α} {a b : α} {s : σ} (known : answer result = some a)
    (run : result = .ok b s) : b = a := by
  rw [run] at known
  exact Option.some.inj known

theorem answer_some {result : EStateM.Result ε σ α} {a : α} (known : answer result = some a) :
    ∃ s, result = .ok a s := by
  cases result with
  | ok b s => exact ⟨s, by rw [Option.some.inj known]⟩
  | error e s => cases known

theorem succeeds_ok {result : EStateM.Result ε σ α} (success : succeeds result = true) :
    ∃ a s, result = .ok a s := by
  cases result with
  | ok a s => exact ⟨a, s, rfl⟩
  | error e s => cases success

-- A call whose failure the program does not look at.
def ignoring (fallback : α) (program : EStateM ε σ α) : EStateM ε σ α := fun s =>
  match program s with
  | .ok a s' => .ok a s'
  | .error _ s' => .ok fallback s'

def onlyIf (test : Bool) (program : EStateM ε σ PUnit) : EStateM ε σ PUnit :=
  if test then program else pure ⟨⟩

section Preserves

def final : EStateM.Result ε σ α → σ
  | .ok _ s => s
  | .error _ s => s

-- Whether the program succeeds or fails, the state it ends in is still a good one.
def Preserves (good : σ → Prop) (program : EStateM ε σ α) : Prop :=
  ∀ s, good s → good (final (program s))

variable {good : σ → Prop}

theorem Preserves.ok {program : EStateM ε σ α} (preserves : Preserves good program) {s s' : σ} {a : α}
    (run : program s = .ok a s') (before : good s) : good s' := by
  simpa only [run, final] using preserves s before

theorem Preserves.error {program : EStateM ε σ α} (preserves : Preserves good program) {s s' : σ} {e : ε}
    (run : program s = .error e s') (before : good s) : good s' := by
  simpa only [run, final] using preserves s before

theorem preserves_pure (a : α) : Preserves good (pure a : EStateM ε σ α) :=
  fun _ before => before

theorem preserves_throw (e : ε) : Preserves good (throw e : EStateM ε σ α) :=
  fun _ before => before

theorem preserves_get : Preserves good (get : EStateM ε σ σ) :=
  fun _ before => before

theorem preserves_modify {f : σ → σ} (stays : ∀ s, good s → good (f s)) :
    Preserves good (modify f : EStateM ε σ PUnit) :=
  fun s before => stays s before

theorem Preserves.bind {first : EStateM ε σ α} {next : α → EStateM ε σ β} (before : Preserves good first)
    (after : ∀ a, Preserves good (next a)) : Preserves good (first >>= next) := by
  intro s start
  cases run : first s with
  | ok a middle =>
    rw [bind_of_ok next run]
    exact after a middle (before.ok run start)
  | error e s' =>
    rw [bind_of_error next run]
    exact before.error run start

theorem preserves_ite {test : Prop} [Decidable test] {left right : EStateM ε σ α}
    (yes : Preserves good left) (no : Preserves good right) :
    Preserves good (if test then left else right) := by
  by_cases holds : test
  · rwa [if_pos holds]
  · rwa [if_neg holds]

theorem preserves_onlyIf (test : Bool) {program : EStateM ε σ PUnit} (inner : Preserves good program) :
    Preserves good (onlyIf test program) :=
  preserves_ite inner (preserves_pure _)

theorem preserves_forM_mem {f : α → EStateM ε σ PUnit} {list : List α}
    (each : ∀ a ∈ list, Preserves good (f a)) : Preserves good (list.forM f) := by
  induction list with
  | nil => exact preserves_pure _
  | cons a rest ih =>
    exact (each a List.mem_cons_self).bind fun _ => ih fun b later => each b (List.mem_cons_of_mem a later)

theorem preserves_forM {f : α → EStateM ε σ PUnit} (each : ∀ a, Preserves good (f a)) (list : List α) :
    Preserves good (list.forM f) :=
  preserves_forM_mem fun a _ => each a

theorem preserves_mapM {f : α → EStateM ε σ β} (each : ∀ a, Preserves good (f a)) (list : List α) :
    Preserves good (list.mapM f) := by
  induction list with
  | nil => exact preserves_pure _
  | cons a rest ih =>
    rw [List.mapM_cons]
    exact (each a).bind fun _ => ih.bind fun _ => preserves_pure _

theorem preserves_ignoring (fallback : α) {program : EStateM ε σ α} (inner : Preserves good program) :
    Preserves good (ignoring fallback program) := by
  intro s before
  unfold ignoring
  split
  · exact inner.ok (by assumption) before
  · exact inner.error (by assumption) before

end Preserves

section Runs

-- Nothing but a fault can stop the program.
def Runs (calm : σ → Prop) (program : EStateM ε σ α) : Prop :=
  ∀ s, calm s → ∃ a s', program s = .ok a s' ∧ calm s'

variable {calm : σ → Prop}

theorem runs_pure (a : α) : Runs calm (pure a : EStateM ε σ α) :=
  fun s quiet => ⟨a, s, rfl, quiet⟩

theorem runs_get : Runs calm (get : EStateM ε σ σ) :=
  fun s quiet => ⟨s, s, rfl, quiet⟩

theorem runs_modify {f : σ → σ} (stays : ∀ s, calm s → calm (f s)) :
    Runs calm (modify f : EStateM ε σ PUnit) :=
  fun s quiet => ⟨⟨⟩, f s, rfl, stays s quiet⟩

theorem Runs.bind {first : EStateM ε σ α} {next : α → EStateM ε σ β} (before : Runs calm first)
    (after : ∀ a, Runs calm (next a)) : Runs calm (first >>= next) := by
  intro s quiet
  obtain ⟨a, middle, run, still⟩ := before s quiet
  rw [bind_of_ok next run]
  exact after a middle still

theorem runs_ite {test : Prop} [Decidable test] {left right : EStateM ε σ α} (yes : Runs calm left)
    (no : Runs calm right) : Runs calm (if test then left else right) := by
  by_cases holds : test
  · rwa [if_pos holds]
  · rwa [if_neg holds]

theorem runs_forM {f : α → EStateM ε σ PUnit} (each : ∀ a, Runs calm (f a)) (list : List α) :
    Runs calm (list.forM f) := by
  induction list with
  | nil => exact runs_pure _
  | cons a rest ih => exact (each a).bind fun _ => ih

end Runs

section Model

variable {τ : Type}

theorem model_bind_ok {first : StateT τ (Except ε) α} {next : α → StateT τ (Except ε) β} {t t' : τ} {b : β}
    (run : (first >>= next) t = .ok (b, t')) :
    ∃ a middle, first t = .ok (a, middle) ∧ next a middle = .ok (b, t') := by
  change StateT.bind first next t = _ at run
  unfold StateT.bind at run
  cases result : first t with
  | error e =>
    rw [result] at run
    cases run
  | ok pair =>
    rw [result] at run
    exact ⟨pair.1, pair.2, rfl, run⟩

theorem model_bind_of_ok {first : StateT τ (Except ε) α} (next : α → StateT τ (Except ε) β) {t t' : τ} {a : α}
    (run : first t = .ok (a, t')) : (first >>= next) t = next a t' := by
  change StateT.bind first next t = _
  unfold StateT.bind
  rw [run]
  rfl

theorem model_bind_of_error {first : StateT τ (Except ε) α} (next : α → StateT τ (Except ε) β) {t : τ} {e : ε}
    (run : first t = .error e) : (first >>= next) t = .error e := by
  change StateT.bind first next t = _
  unfold StateT.bind
  rw [run]
  rfl

theorem model_bind_congr {first : StateT τ (Except ε) α} {next other : α → StateT τ (Except ε) β} {t : τ}
    (same : ∀ a t', first t = .ok (a, t') → next a t' = other a t') : (first >>= next) t = (first >>= other) t := by
  cases result : first t with
  | error e => rw [model_bind_of_error next result, model_bind_of_error other result]
  | ok pair => rw [model_bind_of_ok next result, model_bind_of_ok other result, same pair.1 pair.2 result]

theorem model_forM_cons (f : α → StateT τ (Except ε) PUnit) (a : α) (rest : List α) (t : τ) :
    (a :: rest).forM f t = (f a >>= fun _ => rest.forM f) t := rfl

end Model

section Implements

variable {τ : Type} (shows : σ → τ → Prop) (calm : σ → Prop)

-- Either something outside fails, or the program does on what the state shows what the model does.
def Implements (program : EStateM ε σ α) (model : StateT τ (Except ε) α) : Prop :=
  ∀ s t, shows s t →
    (¬ calm s ∧ ∃ e s', program s = .error e s') ∨
      match model t with
      | .ok (a, t') => ∃ s', program s = .ok a s' ∧ shows s' t' ∧ (calm s → calm s')
      | .error e => ∃ s', program s = .error e s'

variable {shows calm}

theorem Implements.ok {program : EStateM ε σ α} {model : StateT τ (Except ε) α}
    (implements : Implements shows calm program model) {s s' : σ} {t : τ} {a : α} (shown : shows s t)
    (run : program s = .ok a s') : ∃ t', model t = .ok (a, t') ∧ shows s' t' := by
  rcases implements s t shown with ⟨_, e, other, failed⟩ | outcome
  · rw [run] at failed
    cases failed
  · cases result : model t with
    | ok pair =>
      simp only [result] at outcome
      obtain ⟨other, ran, still, _⟩ := outcome
      rw [run] at ran
      cases ran
      exact ⟨pair.2, rfl, still⟩
    | error e =>
      simp only [result] at outcome
      obtain ⟨other, failed⟩ := outcome
      rw [run] at failed
      cases failed

theorem Implements.runs {program : EStateM ε σ α} {model : StateT τ (Except ε) α}
    (implements : Implements shows calm program model) {s : σ} {t t' : τ} {a : α} (shown : shows s t)
    (quiet : calm s) (result : model t = .ok (a, t')) :
    ∃ s', program s = .ok a s' ∧ shows s' t' ∧ calm s' := by
  rcases implements s t shown with ⟨loud, _⟩ | outcome
  · exact absurd quiet loud
  · simp only [result] at outcome
    obtain ⟨s', ran, still, stays⟩ := outcome
    exact ⟨s', ran, still, stays quiet⟩

theorem Implements.fails {program : EStateM ε σ α} {model : StateT τ (Except ε) α}
    (implements : Implements shows calm program model) {s : σ} {t : τ} {e : ε} (shown : shows s t) (quiet : calm s)
    (result : model t = .error e) : ∃ s', program s = .error e s' := by
  rcases implements s t shown with ⟨loud, _⟩ | outcome
  · exact absurd quiet loud
  · simp only [result] at outcome
    exact outcome

theorem Implements.congr {program : EStateM ε σ α} {model other : StateT τ (Except ε) α}
    (implements : Implements shows calm program model) (same : ∀ t, other t = model t) :
    Implements shows calm program other := by
  rwa [show other = model from funext same]

theorem implements_pure (a : α) :
    Implements shows calm (pure a : EStateM ε σ α) (pure a : StateT τ (Except ε) α) := by
  intro s t shown
  exact Or.inr ⟨s, rfl, shown, id⟩

theorem implements_throw (e : ε) :
    Implements shows calm (throw e : EStateM ε σ α) (throw e : StateT τ (Except ε) α) := by
  intro s t shown
  exact Or.inr ⟨s, rfl⟩

theorem Implements.bind {first : EStateM ε σ α} {next : α → EStateM ε σ β}
    {model : StateT τ (Except ε) α} {rest : α → StateT τ (Except ε) β}
    (before : Implements shows calm first model) (after : ∀ a, Implements shows calm (next a) (rest a)) :
    Implements shows calm (first >>= next) (model >>= rest) := by
  intro s t shown
  rcases before s t shown with ⟨loud, e, s', failed⟩ | outcome
  · exact Or.inl ⟨loud, e, s', bind_of_error next failed⟩
  · cases result : model t with
    | error e =>
      simp only [result] at outcome
      obtain ⟨s', failed⟩ := outcome
      rw [model_bind_of_error rest result]
      exact Or.inr ⟨s', bind_of_error next failed⟩
    | ok pair =>
      simp only [result] at outcome
      obtain ⟨middle, ran, still, stays⟩ := outcome
      rw [model_bind_of_ok rest result, bind_of_ok next ran]
      rcases after pair.1 middle pair.2 still with ⟨loud, e, s', failed⟩ | later
      · exact Or.inl ⟨fun quiet => loud (stays quiet), e, s', failed⟩
      · right
        cases final : rest pair.1 pair.2 with
        | error e => simpa only [final] using later
        | ok answer =>
          simp only [final] at later
          obtain ⟨s', ran', still', stays'⟩ := later
          exact ⟨s', ran', still', fun quiet => stays' (stays quiet)⟩

theorem implements_ite (test : Bool) {left right : EStateM ε σ α} {model other : StateT τ (Except ε) α}
    (yes : Implements shows calm left model) (no : Implements shows calm right other) :
    Implements shows calm (if test then left else right) (if test then model else other) := by
  cases test with
  | true => exact yes
  | false => exact no

theorem implements_onlyIf (test : Bool) {program : EStateM ε σ PUnit} {model : StateT τ (Except ε) PUnit}
    (inner : Implements shows calm program model) :
    Implements shows calm (onlyIf test program) (if test then model else pure ⟨⟩) :=
  implements_ite test inner (implements_pure _)

theorem implements_forM {f : α → EStateM ε σ PUnit} {g : α → StateT τ (Except ε) PUnit}
    (each : ∀ a, Implements shows calm (f a) (g a)) (list : List α) :
    Implements shows calm (list.forM f) (list.forM g) := by
  induction list with
  | nil => exact implements_pure _
  | cons a rest ih => exact (each a).bind fun _ => ih

theorem implements_mapM {f : α → EStateM ε σ β} {g : α → StateT τ (Except ε) β}
    (each : ∀ a, Implements shows calm (f a) (g a)) (list : List α) :
    Implements shows calm (list.mapM f) (list.mapM g) := by
  induction list with
  | nil => exact implements_pure _
  | cons a rest ih =>
    rw [List.mapM_cons, List.mapM_cons]
    exact (each a).bind fun _ => ih.bind fun _ => implements_pure _

-- Programs that ignore a failure implement their model only while nothing fails.
theorem Implements.quiet {program : EStateM ε σ α} {model : StateT τ (Except ε) α}
    (implements : Implements shows calm program model) :
    Implements (fun s t => shows s t ∧ calm s) calm program model := by
  intro s t shown
  right
  rcases implements s t shown.1 with ⟨loud, _⟩ | outcome
  · exact absurd shown.2 loud
  · cases result : model t with
    | error e => simpa only [result] using outcome
    | ok pair =>
      simp only [result] at outcome
      obtain ⟨s', ran, still, stays⟩ := outcome
      exact ⟨s', ran, ⟨still, stays shown.2⟩, stays⟩

end Implements

section Answers

variable {τ : Type} (shows : σ → τ → Prop) (calm : σ → Prop)

-- Where the state shows T the program only answers A, unless something outside fails.
def Answers (t : τ) (program : EStateM ε σ α) (a : α) : Prop :=
  ∀ s, shows s t →
    (¬ calm s ∧ ∃ e s', program s = .error e s') ∨
      ∃ s', program s = .ok a s' ∧ shows s' t ∧ (calm s → calm s')

variable {shows calm} {t : τ}

theorem Implements.answers {program : EStateM ε σ α} {model : StateT τ (Except ε) α}
    (implements : Implements shows calm program model) {a : α} (result : model t = .ok (a, t)) :
    Answers shows calm t program a := by
  intro s shown
  rcases implements s t shown with failed | outcome
  · exact Or.inl failed
  · rw [result] at outcome
    exact Or.inr outcome

theorem implements_of_answers {program : EStateM ε σ α} {query : τ → α}
    (answers : ∀ t, Answers shows calm t program (query t)) :
    Implements shows calm program fun t => .ok (query t, t) :=
  fun s t shown => answers t s shown

theorem answers_pure (a : α) : Answers shows calm t (pure a : EStateM ε σ α) a :=
  fun s shown => Or.inr ⟨s, rfl, shown, id⟩

theorem Answers.bind {first : EStateM ε σ α} {next : α → EStateM ε σ β} {a : α} {b : β}
    (before : Answers shows calm t first a) (after : Answers shows calm t (next a) b) :
    Answers shows calm t (first >>= next) b := by
  intro s shown
  rcases before s shown with ⟨loud, e, s', failed⟩ | ⟨middle, ran, still, stays⟩
  · exact Or.inl ⟨loud, e, s', bind_of_error next failed⟩
  · rw [bind_of_ok next ran]
    rcases after middle still with ⟨loud, failed⟩ | ⟨s', ran', still', stays'⟩
    · exact Or.inl ⟨fun quiet => loud (stays quiet), failed⟩
    · exact Or.inr ⟨s', ran', still', fun quiet => stays' (stays quiet)⟩

theorem answers_mapM {f : α → EStateM ε σ β} {g : α → β} {list : List α}
    (each : ∀ a ∈ list, Answers shows calm t (f a) (g a)) :
    Answers shows calm t (list.mapM f) (list.map g) := by
  induction list with
  | nil => exact answers_pure _
  | cons a rest ih =>
    rw [List.mapM_cons]
    exact (each a List.mem_cons_self).bind
      ((ih fun b later => each b (List.mem_cons_of_mem a later)).bind (answers_pure _))

theorem answers_anyM {f : α → EStateM ε σ Bool} {g : α → Bool} {list : List α}
    (each : ∀ a ∈ list, Answers shows calm t (f a) (g a)) : Answers shows calm t (list.anyM f) (list.any g) := by
  induction list with
  | nil => exact answers_pure _
  | cons a rest ih =>
    rw [List.anyM, List.any_cons]
    refine (each a List.mem_cons_self).bind ?_
    cases g a with
    | true => exact answers_pure _
    | false => exact ih fun b later => each b (List.mem_cons_of_mem a later)

-- Each of the programs has succeeded from a state of its own.
theorem mapM_ok {shows : σ → Prop} {f : α → EStateM ε σ β}
    (keeps : ∀ a s b s', shows s → f a s = .ok b s' → shows s') {list : List α} {s s' : σ} {results : List β}
    (shown : shows s) (run : list.mapM f s = .ok results s') :
    shows s' ∧ ∀ a ∈ list, ∃ before b after, shows before ∧ f a before = .ok b after := by
  induction list generalizing s results with
  | nil =>
    cases run
    exact ⟨shown, fun a member => absurd member List.not_mem_nil⟩
  | cons a rest ih =>
    rw [List.mapM_cons] at run
    obtain ⟨b, middle, first, later⟩ := bind_ok run
    obtain ⟨others, last, remaining, ending⟩ := bind_ok later
    cases ending
    obtain ⟨still, each⟩ := ih (keeps a s b middle shown first) remaining
    refine ⟨still, fun c member => ?_⟩
    rcases List.mem_cons.mp member with rfl | inside
    · exact ⟨s, b, middle, shown, first⟩
    · exact each c inside

theorem answers_forM {f : α → EStateM ε σ PUnit} (each : ∀ a, Answers shows calm t (f a) ⟨⟩) (list : List α) :
    Answers shows calm t (list.forM f) ⟨⟩ := by
  induction list with
  | nil => exact answers_pure _
  | cons a rest ih => exact (each a).bind ih

-- While nothing fails a failure that would be ignored does not come.
theorem Answers.quiet {program : EStateM ε σ α} {a : α} (answers : Answers shows calm t program a) :
    Answers (fun s t => shows s t ∧ calm s) (fun _ => True) t program a := by
  intro s shown
  right
  rcases answers s shown.1 with ⟨loud, _⟩ | ⟨s', ran, still, stays⟩
  · exact absurd shown.2 loud
  · exact ⟨s', ran, ⟨still, stays shown.2⟩, fun _ => trivial⟩

theorem answers_ignoring (fallback : α) {program : EStateM ε σ α} {a : α}
    (answers : Answers shows (fun _ => True) t program a) :
    Answers shows (fun _ => True) t (ignoring fallback program) a := by
  intro s shown
  right
  rcases answers s shown with ⟨loud, _⟩ | ⟨s', ran, still, stays⟩
  · exact absurd trivial loud
  · exact ⟨s', by rw [ignoring, ran], still, stays⟩

theorem Answers.ok {program : EStateM ε σ α} {a b : α} (answers : Answers shows calm t program a) {s s' : σ}
    (shown : shows s t) (run : program s = .ok b s') : b = a ∧ shows s' t := by
  rcases answers s shown with ⟨_, e, other, failed⟩ | ⟨other, ran, still, _⟩
  · rw [run] at failed
    cases failed
  · rw [run] at ran
    cases ran
    exact ⟨rfl, still⟩

theorem Answers.runs {program : EStateM ε σ α} {a : α} (answers : Answers shows calm t program a) {s : σ}
    (shown : shows s t) (quiet : calm s) : ∃ s', program s = .ok a s' ∧ shows s' t ∧ calm s' := by
  rcases answers s shown with ⟨loud, _⟩ | ⟨s', ran, still, stays⟩
  · exact absurd quiet loud
  · exact ⟨s', ran, still, stays quiet⟩

theorem Answers.ok_iff {program : EStateM ε σ α} {a b : α} (answers : Answers shows calm t program a) {s : σ}
    (shown : shows s t) (quiet : calm s) : (∃ s', program s = .ok b s') ↔ a = b := by
  constructor
  · rintro ⟨s', run⟩
    exact (answers.ok shown run).1.symm
  · rintro rfl
    obtain ⟨s', run, _⟩ := answers.runs shown quiet
    exact ⟨s', run⟩

end Answers

section Effect

variable {τ : Type} (shows : σ → τ → Prop)

-- A program that succeeds has changed what the state shows by F.
def Effect (program : EStateM ε σ α) (f : τ → τ) : Prop :=
  ∀ s t a s', shows s t → program s = .ok a s' → shows s' (f t)

variable {shows} {f g : τ → τ}

theorem effect_of_preserves {program : EStateM ε σ α} (keeps : ∀ t, Preserves (fun s => shows s t) program) :
    Effect shows program id :=
  fun _ t _ _ shown run => (keeps t).ok run shown

theorem effect_throw (e : ε) : Effect shows (throw e : EStateM ε σ α) f := by
  intro s t a s' shown run
  cases run

theorem Effect.bind {first : EStateM ε σ α} {next : α → EStateM ε σ β} (before : Effect shows first f)
    (after : ∀ a, Effect shows (next a) g) : Effect shows (first >>= next) (g ∘ f) := by
  intro s t b s' shown run
  obtain ⟨a, middle, ran, rest⟩ := bind_ok run
  exact after a middle (f t) b s' (before s t a middle shown ran) rest

theorem Effect.skip {first : EStateM ε σ α} {next : α → EStateM ε σ β} (idle : Effect shows first id)
    (after : ∀ a, Effect shows (next a) g) : Effect shows (first >>= next) g :=
  idle.bind after

theorem Effect.rest {first : EStateM ε σ α} {next : α → EStateM ε σ β} (before : Effect shows first f)
    (idle : ∀ a, Effect shows (next a) id) : Effect shows (first >>= next) f :=
  before.bind idle

theorem effect_forM {program : α → EStateM ε σ PUnit} {change : α → τ → τ} {list : List α}
    (each : ∀ a ∈ list, Effect shows (program a) (change a)) :
    Effect shows (list.forM program) fun t => list.foldl (fun t a => change a t) t := by
  induction list with
  | nil => exact effect_of_preserves fun _ => preserves_pure _
  | cons a rest ih =>
    exact (each a List.mem_cons_self).bind fun _ => ih fun b later => each b (List.mem_cons_of_mem a later)

end Effect

end Shared.Faulty
