/-
This file cuts a store into the parts of its repositories. A repository sees its
own part only: every lookup gives the same in the part as in the whole store,
because it first takes the rows of the repository and then does the rest with
these. A write about one repository leaves the parts of all others as they are, as
it changes or adds rows of its own repository. A review is the exception. It names
a session and no repository, so it reaches the documents of every repository that
has this session, and only the parts without documents can be said to stay. Both
facts are about stores alone and are stated for each lookup and each write; what
calls do with them follows in a later file.
-/

import MigrationGuard.Proofs.Memory.Tables

namespace MigrationGuard.Store

/-! ### Parts -/

/-- What a store holds of one repository: its rows in every table, in their order. -/
def partOf (store : Store) (id : String) : Store where
  repositories := store.repositories.filter fun row => row.id == id
  runs := store.runs.filter fun row => row.repository == id
  drifts := store.drifts.filter fun row => row.repository == id
  signatures := store.signatures.filter fun row => row.repository == id
  documents := store.documents.filter fun row => row.repository == id
  texts := store.texts.filter fun row => row.repository == id

/-- What a store holds of one repository, apart from documents. Reviews of others do not reach it.
-/
def plainPartOf (store : Store) (id : String) : Store :=
  { store.partOf id with documents := [] }

section
variable (store : Store) (id : String)

theorem repository?_plainPartOf : (store.plainPartOf id).repository? id = store.repository? id := by
  simp only [repository?, plainPartOf, partOf, List.find?_filter, and_self, Bool.decide_eq_true]

theorem runsOf_plainPartOf : (store.plainPartOf id).runsOf id = store.runsOf id := by
  simp only [runsOf, plainPartOf, partOf, List.filter_filter, Bool.and_self]

theorem driftsOf_plainPartOf : (store.plainPartOf id).driftsOf id = store.driftsOf id := by
  simp only [driftsOf, plainPartOf, partOf, List.filter_filter, Bool.and_self]

theorem signaturesOf_plainPartOf :
    (store.plainPartOf id).signaturesOf id = store.signaturesOf id := by
  simp only [signaturesOf, plainPartOf, partOf, List.filter_filter, Bool.and_self]

theorem textsOf_plainPartOf (collection : TextCollection) :
    (store.plainPartOf id).textsOf id collection = store.textsOf id collection := by
  simp only [textsOf, plainPartOf, partOf, List.filter_filter, Bool.and_right_comm, Bool.and_self]

theorem search_plainPartOf (collection : TextCollection) (query : Embedding) (limit : Nat) :
    (store.plainPartOf id).search id collection query limit =
      store.search id collection query limit := by
  simp only [search, textsOf_plainPartOf]

theorem documentsOf_partOf : (store.partOf id).documentsOf id = store.documentsOf id := by
  simp only [documentsOf, partOf, List.filter_filter, Bool.and_self]

theorem latestApproved?_partOf :
    (store.partOf id).latestApproved? id = store.latestApproved? id := by
  simp only [latestApproved?, partOf, List.filter_filter, Bool.and_right_comm, Bool.and_self]

end

/-! ### Writes about another repository -/

/-- A change of rows that do not pass a test leaves those that do. -/
theorem filter_map_of_kept {Row : Type} {passes : Row → Bool} {change : Row → Row}
    {rows : List Row} (told : ∀ row, passes (change row) = passes row)
    (kept : ∀ row ∈ rows, passes row → change row = row) :
    (rows.map change).filter passes = rows.filter passes := by
  have tests : passes ∘ change = passes := funext told
  rw [List.filter_map, tests]
  refine (List.map_congr_left fun row member => ?_).trans (List.map_id _)
  obtain ⟨among, passing⟩ := List.mem_filter.mp member
  exact kept row among passing

section
variable (store : Store) {other : String}

theorem partOf_touch {id : String} (apart : id ≠ other) (path : String) (now : Int) :
    (store.touch id path now).partOf other = store.partOf other := by
  have rows : (store.touch id path now).repositories.filter (fun row => row.id == other) =
      store.repositories.filter fun row => row.id == other := by
    have stopped : ((RepositoryRecord.once id path now).id == other) = false :=
      beq_false_of_ne apart
    rw [repositories_touch]
    exact Keyed.filter_merge_of_not RepositoryRecord.id_refresh
      (fun _ _ same => congrArg (· == other) same) stopped _
  exact congrArg (fun rows => { store.partOf other with repositories := rows }) rows

theorem partOf_withRun {run : RunRecord} (apart : run.repository ≠ other) (path : String) :
    (store.withRun path run).partOf other = store.partOf other := by
  have counted : (store.withRun path run).repositories.filter (fun row => row.id == other) =
      (store.touch run.repository path run.ranAt).repositories.filter
        fun row => row.id == other := by
    refine filter_map_of_kept (fun row => ?_) fun row _ passes => if_neg fun same => ?_
    · split <;> rfl
    · exact apart (same.symm.trans (eq_of_beq passes))
  have touched := congrArg repositories (store.partOf_touch apart path run.ranAt)
  have runs : (store.withRun path run).runs.filter (fun row => row.repository == other) =
      store.runs.filter fun row => row.repository == other := by
    have stopped : (run.repository == other) = false := beq_false_of_ne apart
    unfold withRun
    simp only [List.filter_append, List.filter_cons, stopped, Bool.false_eq_true, if_false,
      List.filter_nil, List.append_nil]
  exact congrArg₂ (fun rows runs => { store.partOf other with repositories := rows, runs := runs })
    (counted.trans touched) runs

theorem partOf_recordDrift {drift : DriftRecord} (apart : drift.repository ≠ other)
    (path : String) : (store.recordDrift path drift).partOf other = store.partOf other := by
  have touched := congrArg repositories (store.partOf_touch apart path drift.lastSeen)
  have drifts : (store.recordDrift path drift).drifts.filter (fun row => row.repository == other) =
      store.drifts.filter fun row => row.repository == other := by
    have stopped : (drift.once.key.1 == other) = false := beq_false_of_ne apart
    rw [drifts_recordDrift]
    exact Keyed.filter_merge_of_not DriftRecord.key_recur
      (fun _ _ same => congrArg (· == other) (congrArg Prod.fst same)) stopped _
  exact congrArg₂
    (fun rows drifts => { store.partOf other with repositories := rows, drifts := drifts })
    touched drifts

theorem partOf_recordSignature {signature : SignatureRecord} (apart : signature.repository ≠ other)
    (path : String) :
    (store.recordSignature path signature).partOf other = store.partOf other := by
  have touched := congrArg repositories (store.partOf_touch apart path signature.lastSeen)
  have signatures : (store.recordSignature path signature).signatures.filter
      (fun row => row.repository == other) =
      store.signatures.filter fun row => row.repository == other := by
    have stopped : (signature.key.1 == other) = false := beq_false_of_ne apart
    rw [signatures_recordSignature]
    exact Keyed.filter_merge_of_not SignatureRecord.key_renew
      (fun _ _ same => congrArg (· == other) (congrArg Prod.fst same)) stopped _
  exact congrArg₂
    (fun rows signatures =>
      { store.partOf other with repositories := rows, signatures := signatures })
    touched signatures

theorem partOf_withDocument {document : DocumentRecord} (apart : document.repository ≠ other)
    (path : String) : (store.withDocument path document).partOf other = store.partOf other := by
  have touched := congrArg repositories (store.partOf_touch apart path document.ranAt)
  have documents : (store.withDocument path document).documents.filter
      (fun row => row.repository == other) =
      store.documents.filter fun row => row.repository == other := by
    have stopped : (document.repository == other) = false := beq_false_of_ne apart
    unfold withDocument
    simp only [List.filter_append, List.filter_cons, stopped, Bool.false_eq_true, if_false,
      List.filter_nil, List.append_nil]
  exact congrArg₂
    (fun rows documents => { store.partOf other with repositories := rows, documents := documents })
    touched documents

theorem partOf_putTexts {id : String} (apart : id ≠ other) (collection : TextCollection)
    (entries : List TextEntry) :
    (store.putTexts id collection entries).partOf other = store.partOf other := by
  induction entries generalizing store with
  | nil => rfl
  | cons entry entries inductionHypothesis =>
    refine (inductionHypothesis (store.putText id collection entry)).trans ?_
    have texts : (store.putText id collection entry).texts.filter
        (fun row => row.repository == other) =
        store.texts.filter fun row => row.repository == other := by
      have stopped : ((StoredText.mk id collection entry).key.1 == other) = false :=
        beq_false_of_ne apart
      rw [texts_putText]
      exact Keyed.filter_merge_of_not StoredText.key_renew
        (fun _ _ same => congrArg (· == other) (congrArg Prod.fst same)) stopped _
    exact congrArg (fun texts => { store.partOf other with texts := texts }) texts

/-! ### Reviews -/

variable (session status : String) (comment : Option String) (now : Int)

/-- A review notes something on documents only, so the rest of every part stays as it is. -/
theorem plainPartOf_reviewSession :
    (store.reviewSession session status comment now).plainPartOf other = store.plainPartOf other :=
  rfl

/-- A repository without a document of the session does not see the review, as there is nothing for
it to be noted on. -/
theorem partOf_reviewSession
    (none : ∀ document ∈ store.documents,
      document.repository = other → document.session ≠ session) :
    (store.reviewSession session status comment now).partOf other = store.partOf other := by
  have documents : (store.reviewSession session status comment now).documents.filter
      (fun row => row.repository == other) =
      store.documents.filter fun row => row.repository == other := by
    refine filter_map_of_kept (fun row => ?_) fun row among passes => if_neg ?_
    · split <;> rfl
    · exact none row among (eq_of_beq passes)
  exact congrArg (fun documents => { store.partOf other with documents := documents }) documents

end

end MigrationGuard.Store
