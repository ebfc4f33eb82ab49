/-
This file adds the memory of a repository to worlds that are alike. Where its
parts answer in the same way, it also keeps the same structured records up to
times, as every write that succeeds changes them in the same way at any time. So
worlds that were alike with the same records are so again after each call, and
what a session asks of its memory can be compared call by call, answers and
records at once. Answers are compared only as far as a session takes them: whether
a run was recorded, the verdicts on the latest runs, the number of the drifts. A
drift may be told to be known under another time, and a run may get another
identity, without any difference to the session.
-/

import MigrationGuard.Proofs.Memory.Changes
import MigrationGuard.Proofs.Session.Agreement

namespace MigrationGuard

variable {World : Type}

/-- The worlds are alike, and so are the records in their stores, up to times. -/
def withRecords (like : World → World → Prop) (store : World → Store) (first second : World) :
    Prop :=
  like first second ∧ recordsIn store first = recordsIn store second

/-- Actions that answer alike and change the records in the same way agree about the records. -/
theorem Agrees.with_changes {like : World → World → Prop} {store : World → Store}
    {Failure Answer Taken : Type} {left right : StateM World (Except Failure Answer)}
    {taken : Except Failure Answer → Taken} {change : Store → Store}
    (agrees : Agrees like taken left right)
    (tells : ∀ one other, taken one = taken other → one.toBool = other.toBool)
    (changes : Changes store left change) (changesToo : Changes store right change) :
    Agrees (withRecords like store) taken left right := by
  intro first second alike
  obtain ⟨same, left⟩ := agrees first second alike.1
  refine ⟨same, left, ?_⟩
  rw [changes, changesToo, tells _ _ same, alike.2]

/-- The calls of a session to the memory of a repository are answered in the same way in all worlds
that are alike, whatever the clock shows. -/
structure RepositoryMemory.Steady (memory : RepositoryMemory (StateM World))
    (clock : StateM World Int) (like : World → World → Prop) : Prop where
  /-- The lock is taken. -/
  lock : Agrees like Except.toBool memory.lock memory.lock
  /-- The store is opened. -/
  look : Agrees like Except.toBool (memory.look fun _ => ()) (memory.look fun _ => ())
  /-- A function is recorded, at any time. -/
  recordFunction : ∀ node now later, Agrees like Except.toOption
    (memory.recordFunction node now) (memory.recordFunction node later)
  /-- Texts are remembered as far as that can be done. -/
  remember : ∀ collection entries, Agrees like (fun _ => ())
    (memory.remember collection entries) (memory.remember collection entries)
  /-- Memory is asked for warnings. -/
  warnings : ∀ changes, Agrees like Except.toOption
    (memory.proactiveWarnings changes) (memory.proactiveWarnings changes)
  /-- Memory is asked for the verdicts on the latest runs. -/
  pastRuns : ∀ limit, Agrees like
    (fun answer => answer.toOption.map (List.map RunRecord.verdict))
    (memory.pastRuns limit) (memory.pastRuns limit)
  /-- Memory is asked for the number of the drifts that it knows. -/
  knownDrifts : Agrees like (fun answer => answer.toOption.map List.length)
    memory.knownDrifts memory.knownDrifts
  /-- A run is recorded at the time that the clock shows. -/
  recordRun : ∀ request, Agrees like Except.toBool
    (do memory.recordRun request (← clock)) (do memory.recordRun request (← clock))
  /-- A drift is recorded at the time that the clock shows. -/
  recordDrift : ∀ request, Agrees like Except.toBool
    (do memory.recordDrift request (← clock)) (do memory.recordDrift request (← clock))

section
variable {memory : RepositoryMemory (StateM World)} {clock : StateM World Int}
  {like : World → World → Prop} {store : World → Store}
  (steady : memory.Steady clock like) (keeps : memory.Keeps store)
include steady keeps

theorem agrees_recordFunction (node : CallNode) (now later : Int) :
    Agrees (withRecords like store) Except.toOption (memory.recordFunction node now)
      (memory.recordFunction node later) :=
  (steady.recordFunction node now later).with_changes
    (fun _ _ same => by
      obtain ⟨_, _, rfl, rfl⟩ | ⟨_, rfl, rfl⟩ := toOption_cases same <;> rfl)
    (RepositoryMemory.changes_recordFunction keeps node now)
    (RepositoryMemory.changes_recordFunction keeps node later)

theorem agrees_recordEach (nodes : List CallNode) (now later : Int) :
    Agrees (withRecords like store) Except.toOption (memory.recordEach now nodes)
      (memory.recordEach later nodes) := by
  induction nodes with
  | nil => exact Agrees.pure rfl
  | cons node nodes inductionHypothesis =>
    refine Agrees.bind (agrees_recordFunction steady keeps node now later) fun _ _ recorded => ?_
    obtain ⟨failure, other, rfl, rfl⟩ | ⟨change, rfl, rfl⟩ := toOption_cases recorded
    · exact Agrees.pure rfl
    refine Agrees.bind inductionHypothesis fun _ _ others => ?_
    obtain ⟨failure, other, rfl, rfl⟩ | ⟨changes, rfl, rfl⟩ := toOption_cases others <;>
      exact Agrees.pure rfl

theorem agrees_recordFunctions (nodes : List CallNode) (now later : Int) :
    Agrees (withRecords like store) Except.toOption (memory.recordFunctions nodes now)
      (memory.recordFunctions nodes later) := by
  refine Agrees.bind (steady.lock.with_leaves keeps.lock keeps.lock) fun _ _ locked => ?_
  obtain ⟨failure, other, rfl, rfl⟩ | ⟨_, _, rfl, rfl⟩ := toBool_cases locked
  · exact Agrees.pure rfl
  have looks := RepositoryMemory.leaves_look keeps fun _ => ()
  refine Agrees.bind (steady.look.with_leaves looks looks) fun _ _ looked => ?_
  obtain ⟨failure, other, rfl, rfl⟩ | ⟨_, _, rfl, rfl⟩ := toBool_cases looked
  · exact Agrees.pure rfl
  refine Agrees.bind (agrees_recordEach steady keeps nodes now later) fun _ _ recorded => ?_
  obtain ⟨failure, other, rfl, rfl⟩ | ⟨changes, rfl, rfl⟩ := toOption_cases recorded
  · exact Agrees.pure rfl
  have remembers := RepositoryMemory.leaves_remember keeps .functions
    (nodes.map (functionEntry memory.id))
  exact Agrees.bind ((steady.remember _ _).with_leaves remembers remembers)
    fun _ _ _ => Agrees.pure rfl

/-- All calls of a session to the memory of a repository agree about the records too. -/
theorem agrees_memoryCall (ticks : Agrees like (fun _ => ()) clock clock)
    (timeless : Leaves (recordsIn store) clock) {Answer Taken : Type}
    {action : StateM World Answer} {taken : Answer → Taken}
    (call : MemoryCall (.ofRepository memory clock) action taken) :
    Agrees (withRecords like store) taken action action := by
  cases call with
  | recordFunctions nodes =>
    exact Agrees.bind (ticks.with_leaves timeless timeless) fun now later _ =>
      agrees_recordFunctions steady keeps nodes now later
  | warnings changes =>
    have leaves := RepositoryMemory.leaves_proactiveWarnings keeps changes
    exact (steady.warnings changes).with_leaves leaves leaves
  | pastRuns limit =>
    exact (steady.pastRuns limit).with_leaves (RepositoryMemory.leaves_look keeps _)
      (RepositoryMemory.leaves_look keeps _)
  | knownDrifts =>
    exact steady.knownDrifts.with_leaves (RepositoryMemory.leaves_look keeps _)
      (RepositoryMemory.leaves_look keeps _)
  | recordRun request =>
    have changes := Changes.bind_timeless timeless
      fun now => RepositoryMemory.changes_recordRun keeps request now
    exact (steady.recordRun request).with_changes (fun _ _ same => same) changes changes
  | recordDrift request =>
    have changes := Changes.bind_timeless timeless
      fun now => RepositoryMemory.changes_recordDrift keeps request now
    exact (steady.recordDrift request).with_changes (fun _ _ same => same) changes changes

end

end MigrationGuard
