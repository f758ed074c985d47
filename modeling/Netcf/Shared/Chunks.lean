import Mathlib.Data.List.Basic

set_option autoImplicit false

-- A sequence read in chunks of bounded size that never go past a stop.
namespace Shared.Chunks

variable {α : Type} [DecidableEq α] (stop : α)

-- At most so many elements, up to the first stop and with it, and what is left to read.
def cut : Nat → List α → List α × List α
  | 0, rest => ([], rest)
  | _ + 1, [] => ([], [])
  | room + 1, a :: rest =>
      if a = stop then ([a], rest)
      else (a :: (cut room rest).1, (cut room rest).2)

theorem cut_append (room : Nat) (list : List α) : (cut stop room list).1 ++ (cut stop room list).2 = list := by
  induction room generalizing list with
  | zero => rfl
  | succ room ih =>
    cases list with
    | nil => rfl
    | cons a rest =>
      unfold cut
      split
      · rfl
      · exact congrArg (a :: ·) (ih rest)

theorem cut_shorter (room : Nat) (a : α) (rest : List α) : (cut stop (room + 1) (a :: rest)).2.length ≤ rest.length := by
  unfold cut
  split
  · exact Nat.le_refl _
  · have whole := congrArg List.length (cut_append stop room rest)
    rw [List.length_append] at whole
    exact Nat.le.intro ((Nat.add_comm _ _).trans whole)

def chunks (room : Nat) : List α → List (List α)
  | [] => []
  | a :: rest => (cut stop (room + 1) (a :: rest)).1 :: chunks room (cut stop (room + 1) (a :: rest)).2
termination_by list => list.length
decreasing_by exact Nat.lt_succ_of_le (cut_shorter stop room a rest)

def lines : List α → List (List α)
  | [] => []
  | a :: rest =>
      if a = stop then [a] :: lines rest
      else
        match lines rest with
        | [] => [[a]]
        | line :: others => (a :: line) :: others

theorem chunks_cons (room : Nat) (a : α) (rest : List α) :
    chunks stop room (a :: rest) =
      (cut stop (room + 1) (a :: rest)).1 :: chunks stop room (cut stop (room + 1) (a :: rest)).2 := by
  rw [chunks]

theorem chunks_flatten (room : Nat) (list : List α) : (chunks stop room list).flatten = list := by
  induction list using chunks.induct stop room with
  | case1 => rw [chunks]; rfl
  | case2 a rest ih => rw [chunks_cons, List.flatten_cons, ih, cut_append]

-- What one reading brings: something, not too much, and a stop only at its end.
structure Chunk (room : Nat) (list : List α) : Prop where
  some : list ≠ []
  bounded : list.length ≤ room + 1
  last : stop ∉ list.dropLast

-- A chunk that more can follow.
structure Full (room : Nat) (list : List α) : Prop extends Chunk stop room list where
  complete : list.length = room + 1 ∨ list.getLast? = Option.some stop

-- Chunks as they are read: only the last one can have been cut short by the end.
structure Chunked (room : Nat) (parts : List (List α)) : Prop where
  each : ∀ part ∈ parts, Chunk stop room part
  full : parts.Pairwise fun part _ => Full stop room part

omit [DecidableEq α] in
theorem Chunked.sublist {room : Nat} {parts others : List (List α)} (chunked : Chunked stop room parts)
    (sub : others.Sublist parts) : Chunked stop room others :=
  ⟨fun part member => chunked.each part (sub.subset member), chunked.full.sublist sub⟩

theorem cut_spec (room : Nat) (list : List α) :
    (cut stop room list).1.length ≤ room ∧ stop ∉ (cut stop room list).1.dropLast ∧
      ((cut stop room list).2 = [] ∨ (cut stop room list).1.length = room ∨
        (cut stop room list).1.getLast? = some stop) := by
  induction room generalizing list with
  | zero => exact ⟨Nat.le_refl 0, List.not_mem_nil, Or.inr (Or.inl rfl)⟩
  | succ room ih =>
    cases list with
    | nil => exact ⟨Nat.zero_le _, List.not_mem_nil, Or.inl rfl⟩
    | cons a rest =>
      obtain ⟨bounded, last, complete⟩ := ih rest
      unfold cut
      split
      · rename_i here
        exact ⟨Nat.succ_le_succ (Nat.zero_le _), List.not_mem_nil, Or.inr (Or.inr (congrArg some here))⟩
      · rename_i other
        generalize cut stop room rest = result at bounded last complete
        refine ⟨Nat.succ_le_succ bounded, ?_, ?_⟩
        · cases front : result.1 with
          | nil => exact List.not_mem_nil
          | cons b more =>
            rw [front] at last
            rw [List.dropLast_cons_cons, List.mem_cons, not_or]
            exact ⟨Ne.symm other, last⟩
        · rcases complete with empty | long | ended
          · exact Or.inl empty
          · exact Or.inr (Or.inl (congrArg Nat.succ long))
          · right
            right
            cases front : result.1 with
            | nil =>
              rw [front] at ended
              cases ended
            | cons b more =>
              rw [front] at ended
              exact ended

theorem cut_of_chunk {room : Nat} {front back : List α} (bounded : front.length ≤ room)
    (last : stop ∉ front.dropLast)
    (complete : back = [] ∨ front.length = room ∨ front.getLast? = some stop) :
    cut stop room (front ++ back) = (front, back) := by
  induction front generalizing room with
  | nil =>
    rcases complete with rfl | rfl | ended
    · cases room <;> rfl
    · rfl
    · cases ended
  | cons a rest ih =>
    cases room with
    | zero => cases bounded
    | succ room =>
      rw [List.cons_append, cut]
      cases rest with
      | nil =>
        split
        · rfl
        · rename_i other
          rcases complete with rfl | long | ended
          · rw [ih (Nat.le_of_succ_le_succ bounded) List.not_mem_nil (Or.inl rfl)]
          · rw [ih (Nat.le_of_succ_le_succ bounded) List.not_mem_nil (Or.inr (Or.inl (Nat.succ.inj long)))]
          · exact absurd (Option.some.inj ended) other
      | cons b more =>
        rw [List.dropLast_cons_cons, List.mem_cons, not_or] at last
        rw [if_neg (Ne.symm last.1), ih (Nat.le_of_succ_le_succ bounded) last.2]
        rcases complete with empty | long | ended
        · exact Or.inl empty
        · exact Or.inr (Or.inl (Nat.succ.inj long))
        · exact Or.inr (Or.inr ended)

theorem chunked_chunks (room : Nat) (list : List α) : Chunked stop room (chunks stop room list) := by
  induction list using chunks.induct stop room with
  | case1 =>
    rw [chunks]
    exact ⟨fun _ member => absurd member List.not_mem_nil, List.Pairwise.nil⟩
  | case2 a rest ih =>
    obtain ⟨bounded, last, complete⟩ := cut_spec stop (room + 1) (a :: rest)
    have nonempty : (cut stop (room + 1) (a :: rest)).1 ≠ [] := by
      unfold cut
      split
      · exact List.cons_ne_nil _ _
      · exact List.cons_ne_nil _ _
    have chunk : Chunk stop room (cut stop (room + 1) (a :: rest)).1 := ⟨nonempty, bounded, last⟩
    rw [chunks_cons]
    refine ⟨?_, List.pairwise_cons.mpr ⟨?_, ih.full⟩⟩
    · intro part member
      rcases List.mem_cons.mp member with rfl | later
      · exact chunk
      · exact ih.each part later
    · intro part later
      refine ⟨chunk, complete.resolve_left ?_⟩
      intro nothing
      rw [nothing, chunks] at later
      exact List.not_mem_nil later

-- Chunks can be told from what they make up together.
theorem chunks_of_chunked {room : Nat} {parts : List (List α)} (chunked : Chunked stop room parts) :
    chunks stop room parts.flatten = parts := by
  induction parts with
  | nil =>
    rw [List.flatten_nil, chunks]
  | cons part rest ih =>
    have chunk := chunked.each part List.mem_cons_self
    obtain ⟨first, others⟩ := List.pairwise_cons.mp chunked.full
    have complete : rest.flatten = [] ∨ part.length = room + 1 ∨ part.getLast? = some stop := by
      cases rest with
      | nil => exact Or.inl rfl
      | cons next more => exact Or.inr (first next List.mem_cons_self).complete
    have read := cut_of_chunk stop chunk.bounded chunk.last complete
    have later := ih ⟨fun other member => chunked.each other (List.mem_cons_of_mem part member), others⟩
    rw [List.flatten_cons]
    cases joined : part ++ rest.flatten with
    | nil => exact absurd (List.append_eq_nil_iff.mp joined).1 chunk.some
    | cons a tail => rw [chunks_cons, ← joined, read, later]

theorem flatten_eq_iff {room : Nat} {left right : List (List α)} (leftChunked : Chunked stop room left)
    (rightChunked : Chunked stop room right) : left.flatten = right.flatten ↔ left = right := by
  constructor
  · intro same
    rw [← chunks_of_chunked stop leftChunked, ← chunks_of_chunked stop rightChunked, same]
  · exact congrArg List.flatten

omit [DecidableEq α] in
theorem Chunked.all_full {room : Nat} {parts : List (List α)} (chunked : Chunked stop room parts)
    (ended : parts.flatten.getLast? = some stop) : ∀ part ∈ parts, Full stop room part := by
  induction parts with
  | nil => exact fun _ member => absurd member List.not_mem_nil
  | cons part rest ih =>
    obtain ⟨first, others⟩ := List.pairwise_cons.mp chunked.full
    have chunk := chunked.each part List.mem_cons_self
    cases rest with
    | nil =>
      intro other member
      rw [List.mem_singleton.mp member]
      rw [List.flatten_cons, List.flatten_nil, List.append_nil] at ended
      exact ⟨chunk, Or.inr ended⟩
    | cons next more =>
      have later : ∀ other ∈ next :: more, Chunk stop room other :=
        fun other member => chunked.each other (List.mem_cons_of_mem part member)
      have something : (next :: more).flatten ≠ [] := by
        rw [List.flatten_cons]
        exact fun nothing => (later next List.mem_cons_self).some (List.append_eq_nil_iff.mp nothing).1
      rw [List.flatten_cons, List.getLast?_append_of_ne_nil _ something] at ended
      intro other member
      rcases List.mem_cons.mp member with rfl | behind
      · exact first next List.mem_cons_self
      · exact ih ⟨later, others⟩ ended other behind

theorem chunks_append {room : Nat} {front : List α} (ended : front.getLast? = some stop) (back : List α) :
    chunks stop room (front ++ back) = chunks stop room front ++ chunks stop room back := by
  have left := chunked_chunks stop room front
  have right := chunked_chunks stop room back
  have both : Chunked stop room (chunks stop room front ++ chunks stop room back) := by
    refine ⟨?_, List.pairwise_append.mpr ⟨left.full, right.full, ?_⟩⟩
    · intro part member
      rcases List.mem_append.mp member with here | there
      · exact left.each part here
      · exact right.each part there
    · intro part member _ _
      refine left.all_full stop ?_ part member
      rw [chunks_flatten, ended]
  have whole := chunks_of_chunked stop both
  rwa [List.flatten_append, chunks_flatten, chunks_flatten] at whole

theorem lines_flatten (list : List α) : (lines stop list).flatten = list := by
  induction list with
  | nil => rfl
  | cons a rest ih =>
    unfold lines
    split
    · rw [List.flatten_cons, ih]
      rfl
    · split
      · rename_i nothing
        rw [nothing] at ih
        rw [← ih]
        rfl
      · rename_i line others found
        rw [found] at ih
        rw [List.flatten_cons] at ih ⊢
        rw [← ih]
        rfl

def Ended (line : List α) : Prop :=
  line.getLast? = some stop

theorem lines_ended (list : List α) : (lines stop list).Pairwise fun line _ => Ended stop line := by
  suffices both : ((lines stop list).Pairwise fun line _ => Ended stop line) ∧ [] ∉ lines stop list from both.1
  induction list with
  | nil => exact ⟨List.Pairwise.nil, List.not_mem_nil⟩
  | cons a rest ih =>
    unfold lines
    split
    · rename_i here
      refine ⟨List.pairwise_cons.mpr ⟨fun _ _ => congrArg some here, ih.1⟩, ?_⟩
      simpa using ih.2
    · split
      · exact ⟨List.pairwise_singleton _ _, by simp⟩
      · rename_i line others found
        rw [found] at ih
        obtain ⟨first, later⟩ := List.pairwise_cons.mp ih.1
        refine ⟨List.pairwise_cons.mpr ⟨?_, later⟩, ?_⟩
        · intro other member
          cases line with
          | nil => exact absurd List.mem_cons_self ih.2
          | cons b more => exact first other member
        · simpa using fun empty => ih.2 (List.mem_cons_of_mem line empty)

-- No chunk reaches over the end of a line.
theorem chunks_of_lines {room : Nat} {list : List (List α)} (ended : list.Pairwise fun line _ => Ended stop line) :
    chunks stop room list.flatten = list.flatMap (chunks stop room) := by
  induction list with
  | nil =>
    rw [List.flatten_nil, chunks]
    rfl
  | cons line rest ih =>
    obtain ⟨first, others⟩ := List.pairwise_cons.mp ended
    rw [List.flatten_cons, List.flatMap_cons]
    cases rest with
    | nil => rw [List.flatten_nil, List.flatMap_nil, List.append_nil, List.append_nil]
    | cons next more => rw [chunks_append stop (first next List.mem_cons_self), ih others]

theorem lines_inside (list : List α) : ∀ line ∈ lines stop list, line ≠ [] ∧ stop ∉ line.dropLast := by
  induction list with
  | nil => exact fun _ member => absurd member List.not_mem_nil
  | cons a rest ih =>
    unfold lines
    split
    · exact List.forall_mem_cons.mpr ⟨⟨List.cons_ne_nil _ _, List.not_mem_nil⟩, ih⟩
    · rename_i apart
      split
      · simp
      · rename_i line others found
        rw [found] at ih
        obtain ⟨⟨some, free⟩, later⟩ := List.forall_mem_cons.mp ih
        refine List.forall_mem_cons.mpr ⟨⟨List.cons_ne_nil _ _, ?_⟩, later⟩
        rw [List.dropLast_cons_of_ne_nil some, List.mem_cons, not_or]
        exact ⟨Ne.symm apart, free⟩

-- Short lines are read one by one.
theorem chunks_eq_lines {room : Nat} {list : List α} (short : ∀ line ∈ lines stop list, line.length ≤ room + 1) :
    chunks stop room list = lines stop list := by
  have each : ∀ line ∈ lines stop list, Chunk stop room line := fun line member =>
    ⟨(lines_inside stop list line member).1, short line member, (lines_inside stop list line member).2⟩
  have full := (lines_ended stop list).imp_of_mem fun {line _} member _ ended =>
    (⟨each line member, .inr ended⟩ : Full stop room line)
  have read := chunks_of_chunked stop ⟨each, full⟩
  rwa [lines_flatten] at read

end Shared.Chunks
