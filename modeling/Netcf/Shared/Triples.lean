import Netcf.Shared.Faulty

set_option autoImplicit false

-- Pre- and postconditions of programs that can fail, with a condition for each way to end.
namespace Shared.Triples

open Shared.Faulty

variable {ε δ σ τ α β : Type}

def Ends (post : α → σ → Prop) (thrown : ε → σ → Prop) : EStateM.Result ε σ α → Prop
  | .ok a s => post a s
  | .error e s => thrown e s

def Triple (pre : σ → Prop) (program : EStateM ε σ α) (post : α → σ → Prop) (thrown : ε → σ → Prop) : Prop :=
  ∀ s, pre s → Ends post thrown (program s)

-- For a program that always answers.
def never : ε → σ → Prop :=
  fun _ _ => False

section Rules

variable {pre : σ → Prop} {post : α → σ → Prop} {thrown : ε → σ → Prop} {program : EStateM ε σ α}

theorem Ends.weaken {other : α → σ → Prop} {raised : ε → σ → Prop} {result : EStateM.Result ε σ α}
    (ends : Ends post thrown result) (answered : ∀ a s, post a s → other a s)
    (failed : ∀ e s, thrown e s → raised e s) : Ends other raised result := by
  cases result with
  | ok a s => exact answered a s ends
  | error e s => exact failed e s ends

theorem Triple.weaken (triple : Triple pre program post thrown) {before : σ → Prop} {after : α → σ → Prop}
    {raised : ε → σ → Prop} (start : ∀ s, before s → pre s) (answered : ∀ a s, post a s → after a s)
    (failed : ∀ e s, thrown e s → raised e s) : Triple before program after raised :=
  fun s given => (triple s (start s given)).weaken answered failed

theorem Triple.strengthen (triple : Triple pre program post thrown) {before : σ → Prop} (start : ∀ s, before s → pre s) :
    Triple before program post thrown :=
  fun s given => triple s (start s given)

theorem Triple.conclude (triple : Triple pre program post thrown) {after : α → σ → Prop}
    (answered : ∀ a s, post a s → after a s) : Triple pre program after thrown :=
  triple.weaken (fun _ => id) answered fun _ _ => id

theorem Triple.safely (triple : Triple pre program post never) {raised : ε → σ → Prop} :
    Triple pre program post raised :=
  triple.weaken (fun _ => id) (fun _ _ => id) fun _ _ impossible => impossible.elim

theorem triple_pure {a : α} (given : ∀ s, pre s → post a s) : Triple pre (pure a) post thrown :=
  given

theorem triple_throw {e : ε} (given : ∀ s, pre s → thrown e s) : Triple pre (throw e) post thrown :=
  given

theorem triple_modify {f : σ → σ} {after : PUnit → σ → Prop} (given : ∀ s, pre s → after ⟨⟩ (f s)) :
    Triple pre (modify f) after thrown :=
  given

theorem Triple.bind {first : EStateM ε σ β} {next : β → EStateM ε σ α} {middle : β → σ → Prop}
    (before : Triple pre first middle thrown) (after : ∀ b, Triple (middle b) (next b) post thrown) :
    Triple pre (first >>= next) post thrown := by
  intro s given
  have half := before s given
  cases run : first s with
  | ok b s' =>
    rw [run] at half
    rw [bind_of_ok next run]
    exact after b s' half
  | error e s' =>
    rw [run] at half
    rw [bind_of_error next run]
    exact half

theorem triple_ite {test : Prop} [Decidable test] {left right : EStateM ε σ α}
    (yes : test → Triple pre left post thrown) (no : ¬test → Triple pre right post thrown) :
    Triple pre (if test then left else right) post thrown := by
  by_cases holds : test
  · rw [if_pos holds]
    exact yes holds
  · rw [if_neg holds]
    exact no holds

-- A loop keeps what each of its rounds keeps.
theorem triple_forM {list : List β} {body : β → EStateM ε σ PUnit}
    (each : ∀ b ∈ list, Triple pre (body b) (fun _ => pre) thrown) :
    Triple pre (list.forM body) (fun _ => pre) thrown := by
  induction list with
  | nil => exact triple_pure fun _ => id
  | cons b rest ih =>
    exact (each b List.mem_cons_self).bind fun _ => ih fun other member => each other (List.mem_cons_of_mem b member)

-- The postconditions of two triples hold together.
theorem Triple.both (triple : Triple pre program post thrown) {before : σ → Prop} {after : α → σ → Prop}
    {raised : ε → σ → Prop} (also : Triple before program after raised) :
    Triple (fun s => pre s ∧ before s) program (fun a s => post a s ∧ after a s) fun e s => thrown e s ∧ raised e s := by
  intro s given
  have one := triple s given.1
  have two := also s given.2
  cases run : program s with
  | ok a s' =>
    rw [run] at one two
    exact ⟨one, two⟩
  | error e s' =>
    rw [run] at one two
    exact ⟨one, two⟩

-- The strongest postcondition.
theorem triple_run (pre : σ → Prop) (program : EStateM ε σ α) :
    Triple pre program (fun a s => ∃ start, pre start ∧ program start = .ok a s)
      fun e s => ∃ start, pre start ∧ program start = .error e s := by
  intro start given
  cases run : program start with
  | ok a s => exact ⟨start, given, run⟩
  | error e s => exact ⟨start, given, run⟩

theorem Triple.answers (triple : Triple pre program post never) {s : σ} (given : pre s) :
    ∃ a after, program s = .ok a after ∧ post a after := by
  have ends := triple s given
  cases run : program s with
  | ok a after =>
    rw [run] at ends
    exact ⟨a, after, rfl, ends⟩
  | error e after =>
    rw [run] at ends
    exact ends.elim

end Rules

section Parts

structure Part (σ τ : Type) where
  get : τ → σ
  set : σ → τ → τ
  get_set : ∀ s t, get (set s t) = s

variable (part : Part σ τ)

def within (code : ε → δ) (program : EStateM ε σ α) : EStateM δ τ α := fun t =>
  match program (part.get t) with
  | .ok a s => .ok a (part.set s t)
  | .error e s => .error (code e) (part.set s t)

variable {part}

theorem within_ok {code : ε → δ} {program : EStateM ε σ α} {t : τ} {a : α} {s : σ}
    (run : program (part.get t) = .ok a s) : within part code program t = .ok a (part.set s t) := by
  unfold within
  rw [run]

theorem within_error {code : ε → δ} {program : EStateM ε σ α} {t : τ} {e : ε} {s : σ}
    (run : program (part.get t) = .error e s) : within part code program t = .error (code e) (part.set s t) := by
  unfold within
  rw [run]

-- What is said of the rest of the state stays true.
theorem Triple.within {code : ε → δ} {program : EStateM ε σ α} {pre : σ → Prop} {post : α → σ → Prop}
    {thrown : ε → σ → Prop} (triple : Triple pre program post thrown) (part : Part σ τ) (rest : τ → Prop)
    (frame : ∀ s t, rest t → rest (part.set s t)) {raised : δ → τ → Prop}
    (failed : ∀ e s t, thrown e s → rest t → raised (code e) (part.set s t)) :
    Triple (fun t => pre (part.get t) ∧ rest t) (within part code program)
      (fun a t => post a (part.get t) ∧ rest t) raised := by
  rintro t ⟨given, other⟩
  have inner := triple (part.get t) given
  cases run : program (part.get t) with
  | ok a s =>
    rw [run] at inner
    rw [within_ok run]
    exact ⟨by rw [part.get_set]; exact inner, frame s t other⟩
  | error e s =>
    rw [run] at inner
    rw [within_error run]
    exact failed e s t inner other

end Parts

end Shared.Triples
