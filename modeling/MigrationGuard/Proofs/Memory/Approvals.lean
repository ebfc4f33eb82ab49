/-
This file follows approvals of documents and says what is kept of their texts. An
approval cuts the text into parts, each with an identity that tells the session
and the place, and puts them into the collection of approved texts. Nothing is
ever taken out of it. So after any approvals that were remembered as a whole, a
session has the parts of the text approved last and, behind them, those parts of
earlier texts that reach further: what is kept of a session is its latest text
just if no earlier one had more parts. An approval counts as remembered if its
review succeeds, all of its parts can be embedded and the index stores them, which
is always so where texts are embedded by hashing. The proof sees the collection as
gathered from all parts ever written. At the end a guide is made shorter and keeps
its old last character.
-/

import MigrationGuard.Proofs.Memory.Fragments

namespace MigrationGuard

variable {World : Type}

/-! ### What is kept of versions -/

/-- The entries of a session among the texts of approved documents, in the order in which they came.
-/
def Store.fragmentsOf (store : Store) (repository session : String) : List TextEntry :=
  (store.textsOf repository .documents).filter fun entry => entry.session? = some session

/-- The texts of approved documents are what is left of the versions that were approved. -/
structure Store.KeepsVersions (store : Store) (repository : String)
    (approvals : List (String × String)) : Prop where
  /-- Every text belongs to a session of which a text was approved. -/
  told : ∀ entry ∈ store.textsOf repository .documents,
    ∃ approval ∈ approvals, entry ∈ store.fragmentsOf repository approval.1
  /-- A session has the parts of its versions, each version put over those before. -/
  layered : ∀ session, (store.fragmentsOf repository session).map TextEntry.plain =
    fragments repository session (remainingParts (versionsOf session approvals))
  /-- They are the consecutive parts of its latest version just if no version before has more. -/
  latest : ∀ session earlier markdown, versionsOf session approvals = earlier ++ [markdown] →
    (IsCut documentChunkLength markdown.toList
        ((store.fragmentsOf repository session).map fun entry => entry.text.toList) ↔
      ∀ version ∈ earlier, (documentParts version).length ≤ (documentParts markdown).length)

/-- The texts of the collection are gathered from all parts of the texts that were approved. -/
def Store.GathersVersions (store : Store) (repository : String)
    (approvals : List (String × String)) : Prop :=
  ∃ written, store.textsOf repository .documents =
      Keyed.gather TextEntry.id TextEntry.renew written ∧
    written.map TextEntry.plain = approvals.flatMap fun approval =>
      documentEntries repository approval.1 approval.2

namespace Store.GathersVersions

variable {store : Store} {repository : String} {approvals : List (String × String)}
  (gathers : store.GathersVersions repository approvals)
include gathers

open scoped Classical in
/-- The entries with an identity of a session are what is left of its versions. -/
theorem layered (session : String) :
    ((store.textsOf repository .documents).filter
        fun entry => IsFragmentId repository session entry.id).map TextEntry.plain =
      fragments repository session (remainingParts (versionsOf session approvals)) := by
  obtain ⟨written, gathered, are⟩ := gathers
  have told (first later : TextEntry) (same : first.id = later.id) :
      decide (IsFragmentId repository session first.id) =
        decide (IsFragmentId repository session later.id) := by
    rw [same]
  rw [gathered, Keyed.filter_gather TextEntry.id_renew told]
  exact plain_gather_versions (plain_filter_approvals are session)

/-- Every entry is a part of the text of a session that was approved, so none belongs to no session.
-/
theorem exists_fragment {entry : TextEntry}
    (member : entry ∈ store.textsOf repository .documents) :
    ∃ approval ∈ approvals, ∃ part place,
      entry.plain = fragment repository approval.1 part place := by
  classical
  have ⟨written, gathered, are⟩ := gathers
  have identity : entry.id ∈ written.map TextEntry.id := by
    rw [← Keyed.mem_keys_gather TextEntry.id_renew, ← gathered]
    exact List.mem_map_of_mem member
  obtain ⟨source, among, same⟩ := List.mem_map.mp identity
  obtain ⟨approval, approved, isPart⟩ :=
    List.mem_flatMap.mp (are ▸ List.mem_map_of_mem among : source.plain ∈ _)
  have belongs : IsFragmentId repository approval.1 entry.id :=
    same ▸ isFragmentId_of_mem isPart
  have left : entry.plain ∈ fragments repository approval.1
      (remainingParts (versionsOf approval.1 approvals)) := by
    rw [← gathers.layered]
    exact List.mem_map_of_mem (List.mem_filter.mpr ⟨member, decide_eq_true belongs⟩)
  obtain ⟨⟨part, place⟩, -, isFragment⟩ := List.mem_map.mp left
  exact ⟨approval, approved, part, place, isFragment.symm⟩

/-- The entries that tell of a session are those with an identity of it. -/
theorem plain_fragmentsOf (session : String) :
    (store.fragmentsOf repository session).map TextEntry.plain =
      fragments repository session (remainingParts (versionsOf session approvals)) := by
  classical
  rw [← gathers.layered, fragmentsOf]
  refine congrArg _ (List.filter_congr fun entry member => decide_eq_decide.mpr ?_)
  obtain ⟨approval, -, part, place, isPart⟩ := gathers.exists_fragment member
  have belongs : IsFragmentId repository approval.1 entry.id :=
    ⟨place, congrArg (fun entry : PlainEntry => entry.1) isPart⟩
  rw [TextEntry.session?_of_plain isPart, Option.some_inj]
  exact ⟨fun same => same ▸ belongs, belongs.session_unique⟩

theorem keeps : store.KeepsVersions repository approvals := by
  refine ⟨fun entry member => ?_, gathers.plain_fragmentsOf, ?_⟩
  · obtain ⟨approval, approved, part, place, isPart⟩ := gathers.exists_fragment member
    exact ⟨approval, approved, List.mem_filter.mpr
      ⟨member, decide_eq_true (TextEntry.session?_of_plain isPart)⟩⟩
  · intro session earlier markdown versions
    have texts : (store.fragmentsOf repository session).map (fun entry => entry.text.toList) =
        overlaid (remainingParts earlier) (documentParts markdown) := by
      rw [← remainingParts_append_singleton, ← versions,
        ← texts_fragments (remainingParts (versionsOf session approvals)),
        ← gathers.plain_fragmentsOf, List.map_map]
      rfl
    rw [texts, isCut_iff (by decide), ← length_remainingParts_le_iff, ← documentParts, overlaid,
      List.append_right_eq_self, List.drop_eq_nil_iff]

end Store.GathersVersions

/-! ### One approval -/

/-- What the index of a database has stored is in its store, put over what was there. -/
theorem TextIndex.store_of_put {database : Database (StateM World)} {store : World → Store}
    (holds : database.Holds store) {repository : String} {collection : TextCollection}
    {entries : List TextEntry} {world later : World}
    (done : (ofDatabase database).put repository collection entries world = (.ok (), later)) :
    store later = (store world).putTexts repository collection entries := by
  cases entries with
  | nil =>
    obtain rfl : world = later := congrArg Prod.snd done
    rfl
  | cons entry entries =>
    have updated : database.update (fun found =>
        .ok (found.putTexts repository collection (entry :: entries), ())) world =
      (.ok (), later) := done
    have accepted := holds.accepted_of_done updated
    exact (congrArg Prod.fst (Except.ok.inj accepted)).symm

namespace RepositoryMemory

/-- What is embedded are some of the entries, in their order. Those that cannot be embedded are left
out. -/
theorem plain_embedAll_sublist (memory : RepositoryMemory (StateM World))
    (entries : List PlainEntry) (world : World) :
    List.Sublist ((memory.embedAll entries world).1.map TextEntry.plain) entries := by
  induction entries generalizing world with
  | nil => exact List.Sublist.slnil
  | cons entry entries inductionHypothesis =>
    rw [embedAll, bind_apply, bind_apply, pure_apply]
    split
    · exact (inductionHypothesis _).cons_cons entry
    · exact (inductionHypothesis _).cons entry

/-- Where there is something to remember, it is embedded and then put into the index. -/
theorem snd_remember (memory : RepositoryMemory (StateM World)) (collection : TextCollection)
    (entries : List PlainEntry) (world : World) :
    (memory.remember collection entries world).2 =
      if entries = [] then world
      else (memory.index.put memory.id collection (memory.embedAll entries world).1
        (memory.embedAll entries world).2).2 := by
  cases entries with
  | nil => rfl
  | cons entry entries => rfl

/-- The parts of an approved text as they are embedded after the review. -/
def embedParts (memory : RepositoryMemory (StateM World)) (session markdown : String) (now : Int)
    (world : World) : List TextEntry × World :=
  memory.embedAll (documentEntries memory.id session markdown)
    (memory.reviewDocuments session Store.approvedStatus none now world).2

/-- A text is approved for a session, every part of it is embedded, and the index stores them. -/
structure Approves (memory : RepositoryMemory (StateM World)) (session markdown : String)
    (now : Int) (world later : World) : Prop where
  /-- The approval succeeds. -/
  approved : ∃ count, memory.recordApproved session markdown now world = (.ok count, later)
  /-- No part is left out. -/
  embedded : (memory.embedParts session markdown now world).1.length =
    (documentEntries memory.id session markdown).length
  /-- The index stores what it is given. -/
  stored : (memory.index.put memory.id .documents (memory.embedParts session markdown now world).1
    (memory.embedParts session markdown now world).2).1 = .ok ()

variable {memory : RepositoryMemory (StateM World)} {store : World → Store}
  (shares : memory.Shares store) (index : memory.index = .ofDatabase memory.database)
include shares index

/-- An approval puts the parts of the text into the collection and does nothing else to it. -/
theorem Approves.textsOf {session markdown : String} {now : Int} {world later : World}
    (approves : memory.Approves session markdown now world later) :
    ∃ entries : List TextEntry,
      entries.map TextEntry.plain = documentEntries memory.id session markdown ∧
      (store later).textsOf memory.id .documents =
        entries.foldl (Keyed.merge TextEntry.id TextEntry.renew)
          ((store world).textsOf memory.id .documents) := by
  obtain ⟨⟨count, approved⟩, embedded, stored⟩ := approves
  obtain ⟨reviewed, between, review, remembered⟩ := done_of_bind (fun _ _ => rfl) approved
  unfold embedParts at embedded stored
  rw [review] at embedded stored
  let parts := documentEntries memory.id session markdown
  have textsBetween : (store between).textsOf memory.id .documents =
      (store world).textsOf memory.id .documents := by
    refine Leaves.same (leaves_write shares (fun found => found.textsOf memory.id .documents)
      fun found next result accepted => ?_) review
    obtain ⟨rfl, -⟩ := Prod.mk.inj (Except.ok.inj accepted)
    rfl
  have textsEmbedded : store (memory.embedAll parts between).2 = store between :=
    composes_embedAll (Leaves.composes store) shares.embed parts between
  have plain := (memory.plain_embedAll_sublist parts between).eq_of_length
    ((List.length_map _).trans embedded)
  have isLater : later = (memory.remember .documents parts between).2 :=
    (congrArg Prod.snd remembered).symm
  refine ⟨_, plain, ?_⟩
  rw [isLater, snd_remember]
  split
  case isTrue none =>
    rw [none]
    exact textsBetween
  case isFalse =>
    rw [index] at stored ⊢
    rw [TextIndex.store_of_put shares.database (Prod.ext stored rfl), textsEmbedded,
      Store.textsOf_putTexts, StoreWrite.entriesIn, if_pos ⟨rfl, rfl⟩, textsBetween]

end RepositoryMemory

/-! ### Histories -/

/-- Texts are approved for sessions one after the other. In between all may happen that leaves the
texts of approved documents alone. -/
inductive ApprovalHistory (memory : RepositoryMemory (StateM World)) (store : World → Store) :
    World → List (String × String) → Prop where
  /-- There are no texts of approved documents at first. -/
  | begins {world : World} (none : (store world).textsOf memory.id .documents = []) :
    ApprovalHistory memory store world []
  /-- Something else happens. -/
  | passes {world later : World} {approvals : List (String × String)}
    (history : ApprovalHistory memory store world approvals)
    (same : (store later).textsOf memory.id .documents =
      (store world).textsOf memory.id .documents) :
    ApprovalHistory memory store later approvals
  /-- A text is approved for a session. -/
  | approves {world later : World} {approvals : List (String × String)} {session markdown : String}
    {now : Int} (history : ApprovalHistory memory store world approvals)
    (approves : memory.Approves session markdown now world later) :
    ApprovalHistory memory store later (approvals ++ [(session, markdown)])

namespace ApprovalHistory

variable {memory : RepositoryMemory (StateM World)} {store : World → Store}
  (shares : memory.Shares store) (index : memory.index = .ofDatabase memory.database)
  {world : World} {approvals : List (String × String)}
include shares index

theorem gathers (history : ApprovalHistory memory store world approvals) :
    (store world).GathersVersions memory.id approvals := by
  induction history with
  | begins none => exact ⟨[], none, rfl⟩
  | passes _ same inductionHypothesis =>
    obtain ⟨written, gathered, are⟩ := inductionHypothesis
    exact ⟨written, same.trans gathered, are⟩
  | approves _ approves inductionHypothesis =>
    obtain ⟨written, gathered, are⟩ := inductionHypothesis
    obtain ⟨entries, plain, texts⟩ := approves.textsOf shares index
    refine ⟨written ++ entries, ?_, ?_⟩
    · rw [texts, gathered, Keyed.gather, Keyed.gather, List.foldl_append]
    · rw [List.map_append, are, plain, List.flatMap_append, List.flatMap_singleton]

/-- After any approvals a session has what is left of the texts that were approved for it: the parts
of the latest one, and those of earlier ones that reach further. -/
theorem keepsVersions (history : ApprovalHistory memory store world approvals) :
    (store world).KeepsVersions memory.id approvals :=
  (history.gathers shares index).keeps

end ApprovalHistory

/-! ### A text that becomes shorter -/

/-- Where texts are embedded by hashing, none is left out, as nothing can go wrong. -/
theorem RepositoryMemory.length_embedAll_ofStore (id : String) (entries : List PlainEntry)
    (store : Store) : ((ofStore id).embedAll entries store).1.length = entries.length := by
  induction entries generalizing store with
  | nil => rfl
  | cons entry entries inductionHypothesis =>
    exact congrArg Nat.succ (inductionHypothesis store)

theorem RepositoryMemory.approves_ofStore (id session markdown : String) (now : Int)
    (store : Store) :
    (ofStore id).Approves session markdown now store
      ((ofStore id).recordApproved session markdown now store).2 where
  approved := ⟨_, rfl⟩
  embedded := length_embedAll_ofStore id _ _
  stored := by
    show ((TextIndex.ofDatabase Database.here).put _ _ _ _).1 = _
    unfold TextIndex.ofDatabase
    dsimp only
    split <;> rfl

/-- A guide that has one character more than a part can have, so it is kept in two parts. -/
def longGuide : String :=
  String.ofList (List.replicate 501 'a')

/-- The guide as it was approved next, short enough for one part. -/
def shortGuide : String := "See the wiki."

/-- The store after both texts were approved for one session, the long one first. -/
def guideStore : Store :=
  let memory := RepositoryMemory.ofStore "shop"
  let published := (memory.recordApproved "guide" longGuide 1 .empty).2
  (memory.recordApproved "guide" shortGuide 2 published).2

theorem guideStore_history : ApprovalHistory (.ofStore "shop") (fun store => store) guideStore
    [("guide", longGuide), ("guide", shortGuide)] :=
  (ApprovalHistory.begins rfl).approves (RepositoryMemory.approves_ofStore "shop" _ _ 1 _)
    |>.approves (RepositoryMemory.approves_ofStore "shop" _ _ 2 _)

theorem guideStore_keepsVersions :
    guideStore.KeepsVersions "shop" [("guide", longGuide), ("guide", shortGuide)] :=
  ApprovalHistory.keepsVersions (RepositoryMemory.shares_ofStore "shop") rfl guideStore_history

/-- The last character of the long guide is still there after the short one was approved. -/
theorem guideStore_not_latest :
    ApprovalHistory (.ofStore "shop") (fun store => store) guideStore
        [("guide", longGuide), ("guide", shortGuide)] ∧
      ¬ IsCut documentChunkLength shortGuide.toList
        ((guideStore.fragmentsOf "shop" "guide").map fun entry => entry.text.toList) := by
  refine ⟨guideStore_history, fun cut => ?_⟩
  have gathers := guideStore_history.gathers (RepositoryMemory.shares_ofStore "shop") rfl
  have fewer := (gathers.keeps.latest "guide" [longGuide] shortGuide rfl).mp cut longGuide
    List.mem_cons_self
  have long : longGuide.toList.length = 501 :=
    (congrArg List.length String.toList_ofList).trans List.length_replicate
  rw [documentParts, documentParts, length_chunksOfLength (by decide),
    length_chunksOfLength (by decide), long] at fewer
  exact absurd fewer (by decide)

end MigrationGuard
