import Netcf.Linux.References
import Netcf.Shared.Triples

set_option autoImplicit false

-- Callers that have one interface at a time: what the parts of the API calls do to it, as triples.
namespace Netcf.Linux.References

open Shared.Faulty Shared.Triples

variable {C D ε α : Type}

-- The interfaces that are alive are those at LIVE, and there have never been two at once.
structure Held (live : List Nat) (s : Session C D) : Prop where
  counted : Counted live s
  single : s.peak ≤ 1

variable {live : List Nat} {s : Session C D}

theorem Held.frame (held : Held live s) (driver : Ncf C D) (errcode : Option Errcode) :
    Held live { s with driver := driver, errcode := errcode } :=
  ⟨held.counted.frame driver errcode, held.single⟩

theorem Held.ref (held : Held live s) : s.ref = 1 + live.length :=
  held.counted.exact (Nat.lt_of_le_of_lt held.single (by decide))

theorem Held.objects (held : Held [] s) : s.objects = [] :=
  List.map_eq_nil_iff.mp held.counted.alive.eq_nil

theorem held_opened (driver : Ncf C D) : Held [] (⟨driver, none, 1, false, [], 0, 0⟩ : Session C D) :=
  ⟨⟨rfl, List.Perm.refl _, List.nodup_nil, nofun, nofun, Nat.zero_le _, fun _ => rfl, Or.inl rfl⟩, Nat.zero_le 1⟩

-- What a call that answers nothing has to report.
def Reported (answer : Option α) (s : Session C D) : Prop :=
  answer = none → s.errcode.isSome = true

theorem triple_apiEntry (live : List Nat) :
    Triple (Held live) (apiEntry : Program C D Unit) (fun _ => Held live) never :=
  fun s held => held.frame (Linux.apiEntry s.driver) none

theorem triple_calling (live : List Nat) (code : ε → Errcode) (program : EStateM ε (Ncf C D) α) :
    Triple (Held live) (calling code program) (fun answer s => Held live s ∧ Reported answer s) never := by
  intro s held
  obtain ⟨answer, driver, errcode, run, _, reported⟩ := calling_cases code program s
  rw [run]
  exact ⟨held.frame driver errcode, reported⟩

theorem triple_object {address : Nat} (member : address ∈ live) :
    Triple (Held live) (object address : Program C D Object) (fun _ => Held live) never := by
  intro s held
  obtain ⟨found, run, _⟩ := held.counted.object_ok member
  rw [run]
  exact held

-- The error code is left to whoever looks for it afterwards.
theorem triple_ncfIfFree (nif : Nat) (said : Option Errcode → Prop) :
    Triple (fun s : Session C D => Held [nif] s ∧ said s.errcode) (ncfIfFree (some nif))
      (fun _ s => Held [] s ∧ said s.errcode) never := by
  rintro s ⟨held, code⟩
  have left := held.counted.removed (List.mem_singleton_self nif)
  rw [List.erase_cons_head] at left
  change Ends _ _ (unref (some nif) s)
  rw [unref_run held.counted (List.mem_singleton_self nif)]
  exact ⟨⟨left, held.single⟩, code⟩

theorem triple_makeNetcfIf (name : String) :
    Triple (Held []) (makeNetcfIf name : Program C D (Option Nat)) (fun nif s => Held nif.toList s ∧ Reported nif s)
      never := by
  intro s held
  obtain ⟨answer, driver, errcode, called, _, reported⟩ := calling_cases id (attempt .nomem : Api C D Unit) s
  have framed := held.frame driver errcode
  cases answer with
  | none =>
    unfold makeNetcfIf
    rw [bind_of_ok _ called]
    exact ⟨framed, fun _ => reported rfl⟩
  | some _ =>
    rw [makeNetcfIf_made name called framed.counted.kept]
    refine ⟨⟨framed.counted.added name, ?_⟩, nofun⟩
    have none_yet := framed.objects
    have before := framed.single
    unfold withObject
    dsimp only at none_yet before ⊢
    rw [none_yet]
    exact Nat.max_le.mpr ⟨before, Nat.le_refl _⟩

theorem triple_returnNetcfIf (name : String) :
    Triple (Held []) (returnNetcfIf name : Program C D (Option Nat)) (fun nif s => Held nif.toList s ∧ Reported nif s)
      never := by
  refine (triple_makeNetcfIf name).bind fun nif s given => ?_
  rw [bind_of_ok _ (failed_run s)]
  cases bail : s.errcode.isSome with
  | false => exact ⟨given.1, fun nothing => absurd (given.2 nothing) (by simp [bail])⟩
  | true =>
    rw [if_pos rfl]
    cases nif with
    | none => exact ⟨given.1, fun _ => bail⟩
    | some nif =>
      have dropped := @triple_ncfIfFree C D nif fun code => code.isSome = true
      exact (dropped.bind fun _ => triple_pure fun _ left => ⟨left.1, fun _ => left.2⟩) s ⟨given.1, bail⟩

end Netcf.Linux.References
