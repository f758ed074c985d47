import Mathlib.Data.List.AList
import Mathlib.Data.List.Sort

set_option autoImplicit false

-- netcf-transaction.init.sh: its directories, its commands, of which every one may fail, and its functions.
namespace Netcf.Transaction

inductive Kind where
  | ifcfg
  | route
  | rule
  deriving DecidableEq, Repr

structure FileName where
  kind : Kind
  suffix : String
  deriving DecidableEq, Repr

abbrev Dir (Content : Type) := AList (fun _ : FileName => Content)

variable {Content : Type}

-- The words of `DIR/ifcfg-* DIR/route-* DIR/rule-*`, in the order the shell expands them.
def glob (d : Dir Content) : List FileName :=
  [Kind.ifcfg, Kind.route, Kind.rule].flatMap fun kind =>
    (d.keys.filter (fun name => name.kind = kind)).insertionSort
      (fun a b => a.suffix ≤ b.suffix)

theorem mem_glob (d : Dir Content) (name : FileName) : name ∈ glob d ↔ name ∈ d := by
  cases h : name.kind <;> simp [glob, h, AList.mem_keys]

theorem nodup_glob (d : Dir Content) : (glob d).Nodup := by
  have each (kind : Kind) : ((d.keys.filter (fun name => name.kind = kind)).insertionSort
      (fun a b => a.suffix ≤ b.suffix)).Nodup :=
    (List.perm_insertionSort _ _).nodup_iff.mpr (d.keys_nodup.filter _)
  simp only [glob, List.flatMap_cons, List.flatMap_nil, List.append_nil]
  refine List.nodup_append.mpr ⟨each _, List.nodup_append.mpr ⟨each _, each _, ?_⟩, ?_⟩ <;>
    simp only [List.mem_append, List.mem_insertionSort, List.mem_filter, decide_eq_true_eq]
  · rintro a ⟨-, route⟩ b ⟨-, rule⟩ rfl
    simp [route] at rule
  · rintro a ⟨-, ifcfg⟩ b (⟨-, other⟩ | ⟨-, other⟩) rfl <;> simp [ifcfg] at other

def leave (d : Dir Content) (name : FileName) (left : Option Content) : Dir Content :=
  match left with
  | none => d.erase name
  | some c => d.insert name c

def restrict (d : Dir Content) (kept : FileName → Bool) : Dir Content :=
  (d.keys.filter (fun name => !kept name)).foldl (fun rest name => rest.erase name) d

theorem lookup_foldl_erase (names : List FileName) (d : Dir Content) (name : FileName) :
    (names.foldl (fun rest gone => rest.erase gone) d).lookup name =
      if name ∈ names then none else d.lookup name := by
  induction names generalizing d with
  | nil => simp
  | cons first rest ih =>
      by_cases same : name = first
      · subst same
        simp [ih]
      · simp [ih, same, AList.lookup_erase_ne]

theorem lookup_restrict (d : Dir Content) (kept : FileName → Bool) (name : FileName) :
    (restrict d kept).lookup name = if kept name then d.lookup name else none := by
  rw [restrict, lookup_foldl_erase]
  by_cases keep : kept name
  · simp [keep]
  · have missing : name ∉ d.keys → d.lookup name = none := fun absent =>
      AList.lookup_eq_none.mpr (fun present => absent (AList.mem_keys.mp present))
    by_cases present : name ∈ d.keys <;> simp [keep, present, missing]

-- The directories under `sysconfdir` and `localstatedir`. The file `date` in the snapshot is left
-- out: it is only shown to the user, and none of the three patterns matches it.
structure World (Content : Type) where
  config : Dir Content
  snapshot : Option (Dir Content)
  rollbacks : AList (fun _ : String => Dir Content)

inductive Command where
  | mkdir
  | cp (name : FileName)
  | cmp (name : FileName)
  | date
  | rm (name : FileName)
  | rmRollback (stamp : String)
  | rmSnapshot
  deriving DecidableEq, Repr

structure Event where
  command : Command
  failed : Bool
  deriving DecidableEq, Repr

def Command.copies : Command → Bool
  | .cp _ => true
  | _ => false

def Command.removes : Command → Bool
  | .rm _ | .rmRollback _ | .rmSnapshot => true
  | _ => false

-- Which commands of one invocation fail. A failed `cp` leaves any contents, or none, at its destination; a failed
-- `rm -rf` has removed some of the files; the other commands change nothing.
structure Faults (Content : Type) where
  mkdir : Bool
  -- `cp -p "$f" "$snapshotdir"` and `cp -p "$f" "$rollbackdir"`
  save : FileName → Option (Option Content)
  date : Bool
  -- `rm -rf "$r"`
  prune : String → Option (FileName → Bool)
  cmp : FileName → Bool
  -- `cp -pf "$snapshotf" "$f"`
  restore : FileName → Option (Option Content)
  -- `rm -f "$snapshotf"`
  rmCopy : FileName → Bool
  -- `rm -f "$f"`
  rmConfig : FileName → Bool
  -- `cp -pf "$f" "$netconfdir"`
  restoreLeft : FileName → Option (Option Content)
  -- `rm -rf "$snapshotdir"`
  rmSnapshot : Option (FileName → Bool)

def Faults.none : Faults Content where
  mkdir := false
  save _ := .none
  date := false
  prune _ := .none
  cmp _ := false
  restore _ := .none
  rmCopy _ := false
  rmConfig _ := false
  restoreLeft _ := .none
  rmSnapshot := .none

structure Outcome (Content : Type) where
  status : Nat
  world : World Content
  log : List Event

def einvalidInThisState : Nat := 199

structure Copied (Content : Type) where
  finished : Bool
  dir : Dir Content
  log : List Event

def copyLoop (cp : FileName → Option (Option Content)) (source : Dir Content) :
    List FileName → Dir Content → Copied Content
  | [], target => ⟨true, target, []⟩
  | name :: rest, target =>
      match source.lookup name with
      -- test ! -f "$f" && continue
      | none => copyLoop cp source rest target
      | some c =>
          match cp name with
          | none =>
              let later := copyLoop cp source rest (target.insert name c)
              { later with log := ⟨.cp name, false⟩ :: later.log }
          | some left => ⟨false, leave target name left, [⟨.cp name, true⟩]⟩

def changeBegin (faults : Faults Content) (w : World Content) : Outcome Content :=
  match w.snapshot with
  | some _ => ⟨einvalidInThisState, w, []⟩
  | none =>
      if faults.mkdir then ⟨1, w, [⟨.mkdir, true⟩]⟩
      else
        let copied := copyLoop faults.save w.config (glob w.config) ∅
        let world := { w with snapshot := some copied.dir }
        if copied.finished then
          -- the status of the function is that of its last command, date
          ⟨if faults.date then 1 else 0, world,
            ⟨.mkdir, false⟩ :: copied.log ++ [⟨.date, faults.date⟩]⟩
        else ⟨1, world, ⟨.mkdir, false⟩ :: copied.log⟩

def changeCommit (faults : Faults Content) (w : World Content) : Outcome Content :=
  match w.snapshot with
  | none => ⟨einvalidInThisState, w, []⟩
  | some saved =>
      match faults.rmSnapshot with
      | none => ⟨0, { w with snapshot := none }, [⟨.rmSnapshot, false⟩]⟩
      -- the last command of the branch is echo, so the function still returns 0
      | some kept => ⟨0, { w with snapshot := some (restrict saved kept) }, [⟨.rmSnapshot, true⟩]⟩

structure Pruned (Content : Type) where
  rollbackRet : Nat
  rollbacks : AList (fun _ : String => Dir Content)
  log : List Event

-- `while read r`, the loop that removes old rollback directories.
def pruneLoop (faults : Faults Content) :
    List String → Nat → AList (fun _ : String => Dir Content) → Pruned Content
  | [], ret, rollbacks => ⟨ret, rollbacks, []⟩
  | r :: rest, ret, rollbacks =>
      match faults.prune r with
      | none =>
          let later := pruneLoop faults rest ret (rollbacks.erase r)
          { later with log := ⟨.rmRollback r, false⟩ :: later.log }
      | some kept =>
          let left := match rollbacks.lookup r with
            | none => rollbacks
            | some d => rollbacks.insert r (restrict d kept)
          let later := pruneLoop faults rest 1 left
          { later with log := ⟨.rmRollback r, true⟩ :: later.log }

-- `ls -d "$rollbackdirbase"-* | head -n -20` in the C locale.
def obsolete (w : World Content) : List String :=
  let names := w.rollbacks.keys.insertionSort (· ≤ ·)
  names.take (names.length - 20)

structure Restored (Content : Type) where
  finished : Bool
  config : Dir Content
  snapshot : Dir Content
  rollbackRet : Nat
  log : List Event

variable [DecidableEq Content]

-- `cmp -s "$snapshotf" "$f"` is false: the files differ, or `cmp` itself failed.
def differs (faults : Faults Content) (name : FileName) (saved current : Content) : Bool :=
  faults.cmp name || decide (saved ≠ current)

def restoreFile (faults : Faults Content) (name : FileName)
    (config snapshot : Dir Content) (ret : Nat) : Restored Content :=
  match config.lookup name with
  | none => ⟨true, config, snapshot, ret, []⟩
  | some current =>
      match snapshot.lookup name with
      | some saved =>
          let compared : Event := ⟨.cmp name, faults.cmp name⟩
          let erased : Event := ⟨.rm name, faults.rmCopy name⟩
          let left := if faults.rmCopy name then snapshot else snapshot.erase name
          let ret' := if faults.rmCopy name then 1 else ret
          if differs faults name saved current then
            match faults.restore name with
            | some partly => ⟨false, leave config name partly, snapshot, ret, [compared, ⟨.cp name, true⟩]⟩
            | none => ⟨true, config.insert name saved, left, ret', [compared, ⟨.cp name, false⟩, erased]⟩
          else ⟨true, config, left, ret', [compared, erased]⟩
      | none =>
          if faults.rmConfig name then ⟨true, config, snapshot, 1, [⟨.rm name, true⟩]⟩
          else ⟨true, config.erase name, snapshot, ret, [⟨.rm name, false⟩]⟩

def restoreLoop (faults : Faults Content) :
    List FileName → Dir Content → Dir Content → Nat → Restored Content
  | [], config, snapshot, ret => ⟨true, config, snapshot, ret, []⟩
  | name :: rest, config, snapshot, ret =>
      let first := restoreFile faults name config snapshot ret
      if first.finished then
        let later := restoreLoop faults rest first.config first.snapshot first.rollbackRet
        { later with log := first.log ++ later.log }
      else first

-- The end of `change_rollback`: drop the snapshot directory and return `rollback_ret`.
def removeSnapshot (faults : Faults Content) (w : World Content) (saved : Dir Content)
    (ret : Nat) (log : List Event) : Outcome Content :=
  match faults.rmSnapshot with
  | none => ⟨ret, { w with snapshot := none }, log ++ [⟨.rmSnapshot, false⟩]⟩
  | some kept => ⟨1, { w with snapshot := some (restrict saved kept) }, log ++ [⟨.rmSnapshot, true⟩]⟩

def changeRollback (faults : Faults Content) (stamp : String) (w : World Content) :
    Outcome Content :=
  match w.snapshot with
  | none => ⟨einvalidInThisState, w, []⟩
  | some saved =>
      -- The loop is the last part of a pipeline and runs in a subshell: the rollback_ret it sets
      -- is not the one below.
      let pruned := pruneLoop faults (obsolete w) 0 w.rollbacks
      let w := { w with rollbacks := pruned.rollbacks }
      if faults.mkdir then ⟨1, w, pruned.log ++ [⟨.mkdir, true⟩]⟩
      else
        let archived := copyLoop faults.save w.config (glob w.config)
          ((w.rollbacks.lookup stamp).getD ∅)
        let w := { w with rollbacks := w.rollbacks.insert stamp archived.dir }
        let log := pruned.log ++ ⟨.mkdir, false⟩ :: archived.log
        if archived.finished then
          let restored := restoreLoop faults (glob w.config) w.config saved 0
          let log := log ++ restored.log
          if restored.finished then
            let left := copyLoop faults.restoreLeft restored.snapshot
              (glob restored.snapshot) restored.config
            let w := { w with config := left.dir, snapshot := some restored.snapshot }
            let log := log ++ left.log
            if left.finished then
              removeSnapshot faults w restored.snapshot restored.rollbackRet log
            else ⟨1, w, log⟩
          else ⟨1, { w with config := restored.config, snapshot := some restored.snapshot }, log⟩
        else ⟨1, w, log⟩

inductive Argument where
  | start
  | changeBegin
  | changeCommit
  | changeRollback
  deriving DecidableEq, Repr

-- The `case "$1"` at the end of the script; `start` stands for all six words of its pattern.
def main (argument : Argument) (faults : Faults Content) (stamp : String) (w : World Content) :
    Outcome Content :=
  let retval := 0
  match argument with
  | .start =>
      let rolled := changeRollback faults stamp w
      -- test "$retval" != "$EINVALID_IN_THIS_STATE" && retval=$?
      let test := if retval ≠ einvalidInThisState then 0 else 1
      { rolled with status := if test = 0 then test else retval }
  | .changeBegin => changeBegin faults w
  | .changeCommit => changeCommit faults w
  | .changeRollback => changeRollback faults stamp w

end Netcf.Transaction
