import Netcf.Debian.Undefine

set_option autoImplicit false

-- How interface_deps splits a list of ports or slaves, next to str:tokenize in debian-put.xsl.
namespace Netcf.Debian

open Shared.Faulty Linux Stylesheet

-- The loop of interface_deps: strchr finds the next space, and the loop ends with the text.
def copyWords (devs : List Char) : List (List Char) :=
  let skip := devs.idxOf ' '
  if skip + 1 < devs.length then devs.take skip :: copyWords (devs.drop (skip + 1))
  else [devs.take skip]
termination_by devs.length
decreasing_by
  rw [List.length_drop]
  omega

section Words

variable {word next devs : List Char}

theorem copyWords_last (lone : ' ' ∉ devs) : copyWords devs = [devs] := by
  rw [copyWords, List.idxOf_eq_length lone]
  simp

theorem copyWords_more (lone : ' ' ∉ word) :
    copyWords (word ++ ' ' :: next) = word :: if next = [] then [] else copyWords next := by
  have skip : (word ++ ' ' :: next).idxOf ' ' = word.length := by
    rw [List.idxOf_append_of_notMem lone, List.idxOf_cons_self, Nat.add_zero]
  rw [copyWords, skip, List.take_left, List.drop_length_add_append, List.drop_one, List.tail_cons]
  cases next with
  | nil => simp
  | cons c tail => simp

-- A text has no space, or it has a first one.
theorem words_induction {motive : List Char → Prop} (last : ∀ devs, ' ' ∉ devs → motive devs)
    (more : ∀ word next, ' ' ∉ word → motive next → motive (word ++ ' ' :: next)) (devs : List Char) : motive devs := by
  induction long : devs.length using Nat.strongRecOn generalizing devs with
  | ind size ih =>
    by_cases member : ' ' ∈ devs
    · obtain ⟨word, next, rfl, lone⟩ := List.eq_append_cons_of_mem member
      refine more word next lone (ih next.length ?_ next rfl)
      rw [← long, List.length_append, List.length_cons]
      omega
    · exact last devs member

def trimmed (words : List (List Char)) : List (List Char) :=
  if 1 < words.length ∧ words.getLast? = some [] then words.dropLast else words

theorem trimmed_cons {words : List (List Char)} (some : words ≠ []) (more : words ≠ [[]]) :
    trimmed (word :: words) = word :: trimmed words := by
  unfold trimmed
  have ends : (word :: words).getLast? = words.getLast? := List.getLast?_cons_of_ne_nil some
  have several : words.getLast? = Option.some [] → 1 < words.length := by
    intro empty
    rcases words with _ | ⟨first, _ | ⟨second, rest⟩⟩
    · contradiction
    · simp at empty
      exact absurd (by rw [empty]) more
    · simp
  by_cases empty : words.getLast? = Option.some []
  · rw [if_pos ⟨by simpa using List.length_pos_iff.mpr some, ends.trans empty⟩, if_pos ⟨several empty, empty⟩,
      List.dropLast_cons_of_ne_nil some]
  · rw [if_neg fun both => empty (ends.symm.trans both.2), if_neg fun both => empty both.2]

theorem copyWords_eq (devs : List Char) : copyWords devs = trimmed (devs.splitOn ' ') := by
  induction devs using words_induction with
  | last devs lone =>
    rw [copyWords_last lone, List.splitOn_eq_singleton lone]
    rfl
  | more word next lone ih =>
    rw [copyWords_more lone, List.splitOn_append_cons_self_of_not_mem lone]
    cases next with
    | nil => rfl
    | cons c tail =>
      have more : (c :: tail).splitOn ' ' ≠ [[]] := by
        intro empty
        have joined := @List.intercalate_splitOn _ (c :: tail) _ _ ' '
        rw [empty] at joined
        cases joined
      rw [if_neg (List.cons_ne_nil _ _), trimmed_cons (List.splitOn_ne_nil _ _) more, ih]

theorem splitDevs_eq (devs : String) : splitDevs devs = (copyWords devs.toList).map String.ofList := by
  rw [copyWords_eq]
  rfl

theorem filter_copyWords (devs : List Char) :
    (copyWords devs).filter (· ≠ []) = (devs.splitOn ' ').filter (· ≠ []) := by
  induction devs using words_induction with
  | last devs lone => rw [copyWords_last lone, List.splitOn_eq_singleton lone]
  | more word next lone ih =>
    rw [copyWords_more lone, List.splitOn_append_cons_self_of_not_mem lone, List.filter_cons, List.filter_cons]
    cases next with
    | nil => rfl
    | cons c tail => rw [if_neg (List.cons_ne_nil _ _), ih]

end Words

section Tidy

-- One word after the other with one space between them, and perhaps one at the end.
structure Tidy (devs : List Char) : Prop where
  filled : devs ≠ []
  started : devs.head? ≠ some ' '
  single : ¬ [' ', ' '] <:+: devs

variable {word next : List Char}

theorem spaces_inside (lone : ' ' ∉ word) :
    [' ', ' '] <:+: word ++ ' ' :: next ↔ next.head? = some ' ' ∨ [' ', ' '] <:+: next := by
  induction word with
  | nil =>
    rw [List.nil_append, List.infix_cons_iff, List.cons_prefix_cons]
    cases next with
    | nil => simp
    | cons c tail => simp [eq_comm]
  | cons c rest ih =>
    have apart : ' ' ≠ c := fun same => lone (same ▸ List.mem_cons_self)
    rw [List.cons_append, List.infix_cons_iff, List.cons_prefix_cons,
      ih fun later => lone (List.mem_cons_of_mem c later)]
    simp [apart]

theorem no_space_infix {devs : List Char} (lone : ' ' ∉ devs) : ¬ [' ', ' '] <:+: devs :=
  fun inside => lone (inside.subset List.mem_cons_self)

theorem head_append (lone : ' ' ∉ word) : (word ++ ' ' :: next).head? ≠ some ' ' ↔ word ≠ [] := by
  cases word with
  | nil => simp
  | cons c rest =>
    have apart : c ≠ ' ' := fun same => lone (same ▸ List.mem_cons_self)
    simp [apart]

theorem copyWords_filled_iff (devs : List Char) : (∀ word ∈ copyWords devs, word ≠ []) ↔ Tidy devs := by
  induction devs using words_induction with
  | last devs lone =>
    rw [copyWords_last lone]
    constructor
    · intro all
      refine ⟨all devs (List.mem_singleton_self devs), ?_, no_space_infix lone⟩
      intro first
      exact lone (List.mem_of_mem_head? first)
    · intro tidy word member
      rw [List.mem_singleton.mp member]
      exact tidy.filled
  | more word next lone ih =>
    rw [copyWords_more lone, List.forall_mem_cons]
    by_cases ended : next = []
    · subst ended
      constructor
      · rintro ⟨filled, _⟩
        refine ⟨by simp, (head_append lone).mpr filled, ?_⟩
        rw [spaces_inside lone]
        simp
      · intro tidy
        exact ⟨(head_append lone).mp tidy.started, by simp⟩
    · rw [if_neg ended, ih]
      constructor
      · rintro ⟨filled, tidy⟩
        refine ⟨by simp, (head_append lone).mpr filled, ?_⟩
        rw [spaces_inside lone, not_or]
        exact ⟨tidy.started, tidy.single⟩
      · intro tidy
        have inner := tidy.single
        rw [spaces_inside lone, not_or] at inner
        exact ⟨(head_append lone).mp tidy.started, ended, inner.1, inner.2⟩

theorem splitDevs_tokenizes_iff (devs : String) : splitDevs devs = strSplit devs ↔ Tidy devs.toList := by
  rw [splitDevs_eq, strSplit, ← filter_copyWords, ← copyWords_filled_iff]
  constructor
  · intro same
    have lists := List.map_injective_iff.mpr (fun _ _ => String.ofList_inj.mp) same
    intro word member
    rw [lists] at member
    simpa using (List.mem_filter.mp member).2
  · intro filled
    rw [List.filter_eq_self.mpr fun word member => by simpa using filled word member]

variable {D : Type} {augeas : Augeas Interfaces D} {disk : D} {tables : List (Option Entries)}
  {files : Files Interfaces} {ncf : Ncf Interfaces D}

-- Where a stanza has one such entry, interface_deps sees the names that debian-put.xsl writes.
theorem dependents_tokenized_iff {label name devs : String} (entry : listed files.config name label = [devs])
    (proper : devs ≠ "none") (quiet : Quiet disk tables ncf files) :
    (∃ after, interfaceDeps augeas label name ncf = .ok (strSplit devs) after) ↔ Tidy devs.toList := by
  have answer := @answers_interfaceDeps _ augeas disk tables files label name
  have split : members files.config label name = splitDevs devs := by
    rw [members, entry, List.flatMap_singleton, dependents, if_neg proper]
  rw [split] at answer
  rw [← splitDevs_tokenizes_iff]
  constructor
  · rintro ⟨after, run⟩
    exact (answer.ok quiet.1 run).1.symm
  · intro same
    obtain ⟨after, run, _⟩ := answer.runs quiet.1 quiet.2
    exact ⟨after, same ▸ run⟩

end Tidy

section Examples

def bridgeOver (ports : String) : Files Interfaces :=
  ⟨[⟨"iface", some "br0", [⟨"family", "inet"⟩, ⟨"method", "manual"⟩, ⟨"bridge_ports", ports⟩]⟩], [], []⟩

theorem two_ports_tokenized :
    ∃ after, interfaceDeps direct "bridge_ports" "br0"
      (settled augeasXfmCommon (bridgeOver "eth0 eth1") (bridgeOver "eth0 eth1")) = .ok (strSplit "eth0 eth1") after :=
  (dependents_tokenized_iff rfl (by decide) (quiet_settled _ _ _)).mpr ⟨by decide, by decide, by decide⟩

-- Two spaces in a row make a port without a name.
theorem doubled_space_counts :
    ¬ ∃ after, interfaceDeps direct "bridge_ports" "br0"
      (settled augeasXfmCommon (bridgeOver "eth0  eth1") (bridgeOver "eth0  eth1")) =
        .ok (strSplit "eth0  eth1") after := by
  rintro ⟨after, run⟩
  have read : answer (interfaceDeps direct "bridge_ports" "br0"
      (settled augeasXfmCommon (bridgeOver "eth0  eth1") (bridgeOver "eth0  eth1"))) = some ["eth0", "", "eth1"] := by
    decide +kernel
  exact absurd (answer_ok read run) (by decide +kernel)

end Examples

end Netcf.Debian
