/-
This file says how documents are kept in parts. A text is cut into consecutive
parts of one length, of which only the last may be shorter, in the one way in
which that can be done. A part is kept under an identity that tells the session
and the place, as the place is what stands behind the last underscore. So the
parts of a later text of a session take the places of those before, and where the
later text has fewer parts, the earlier ones that reach further stay. What is left
of all versions of a text is computed by putting each over those before; entries
that are gathered by their identities are shown to be just that, also where the
entries of several sessions come in turn.
-/

import MigrationGuard.Memory.Repository
import MigrationGuard.Proofs.Json.Number
import MigrationGuard.Proofs.Memory.LastTexts

namespace MigrationGuard

open Data

/-! ### Cutting texts -/

/-- The parts are the consecutive parts of a text. None is empty or too long, and all but the last
have the full length. -/
structure IsCut (length : Nat) (text : List Char) (parts : List (List Char)) : Prop where
  /-- Together they are the text. -/
  joined : parts.flatten = text
  /-- None is empty. -/
  nonempty : ∀ part ∈ parts, part ≠ []
  /-- None is too long. -/
  within : ∀ part ∈ parts, part.length ≤ length
  /-- All but the last are as long as they can be. -/
  full : ∀ part ∈ parts.dropLast, part.length = length

section
variable {length : Nat} {text : List Char} {parts : List (List Char)}

theorem chunksOfLength_nil (length : Nat) : chunksOfLength length [] = [] := by
  rw [chunksOfLength, if_pos rfl]

theorem chunksOfLength_of_ne_nil (positive : 0 < length) (some : text ≠ []) :
    chunksOfLength length text = text.take length :: chunksOfLength length (text.drop length) := by
  rw [chunksOfLength, if_neg some, Nat.max_eq_left positive]

theorem isCut_chunksOfLength (positive : 0 < length) (text : List Char) :
    IsCut length text (chunksOfLength length text) := by
  induction text using chunksOfLength.induct length with
  | case1 =>
    rw [chunksOfLength_nil]
    exact ⟨rfl, nofun, nofun, nofun⟩
  | case2 text some inductionHypothesis =>
    rw [Nat.max_eq_left positive] at inductionHypothesis
    obtain ⟨joined, nonempty, within, full⟩ := inductionHypothesis
    rw [chunksOfLength_of_ne_nil positive some]
    have begins : text.take length ≠ [] := by
      rw [Ne, List.take_eq_nil_iff]
      exact fun none => none.elim (Nat.pos_iff_ne_zero.mp positive) some
    refine ⟨?_, ?_, ?_, ?_⟩
    · rw [List.flatten_cons, joined, List.take_append_drop]
    · exact List.forall_mem_cons.mpr ⟨begins, nonempty⟩
    · exact List.forall_mem_cons.mpr ⟨List.length_take_le _ _, within⟩
    · rcases rest : text.drop length with _ | ⟨next, others⟩
      · rw [chunksOfLength_nil]
        exact nofun
      · -- Where something is left behind the first part, that part is full.
        have long : length ≤ text.length := by
          have left := congrArg List.length rest
          rw [List.length_drop, List.length_cons] at left
          omega
        rw [← rest, List.dropLast_cons_of_ne_nil]
        · exact List.forall_mem_cons.mpr ⟨List.length_take_of_le long, full⟩
        · rw [rest, chunksOfLength_of_ne_nil positive (List.cons_ne_nil _ _)]
          exact List.cons_ne_nil _ _

theorem IsCut.eq_chunksOfLength (positive : 0 < length) (cut : IsCut length text parts) :
    parts = chunksOfLength length text := by
  induction parts generalizing text with
  | nil => rw [← cut.joined, List.flatten_nil, chunksOfLength_nil]
  | cons part parts inductionHypothesis =>
    obtain ⟨joined, nonempty, within, full⟩ := cut
    obtain ⟨begins, others⟩ := List.forall_mem_cons.mp nonempty
    obtain ⟨short, shortOthers⟩ := List.forall_mem_cons.mp within
    have some : text ≠ [] := by
      rw [← joined, List.flatten_cons]
      exact List.append_ne_nil_of_left_ne_nil begins _
    -- A part that is not full is the last one.
    have ends : part.length = length ∨ parts = [] := by
      cases parts with
      | nil => exact Or.inr rfl
      | cons next parts => exact Or.inl (full part List.mem_cons_self)
    have rest : IsCut length parts.flatten parts := by
      refine ⟨rfl, others, shortOthers, fun other among => full other ?_⟩
      rw [List.dropLast_cons_of_ne_nil (List.ne_nil_of_mem (List.mem_of_mem_dropLast among))]
      exact List.mem_cons_of_mem _ among
    have taken : text.take length = part ∧ text.drop length = parts.flatten := by
      rw [← joined, List.flatten_cons]
      obtain exact_length | rfl := ends
      · exact ⟨List.take_left' exact_length, List.drop_left' exact_length⟩
      · rw [List.flatten_nil, List.append_nil]
        exact ⟨List.take_of_length_le short, List.drop_of_length_le short⟩
    rw [chunksOfLength_of_ne_nil positive some, taken.1, taken.2, ← inductionHypothesis rest]

/-- There are as many parts as are needed for the length of the text, and none for an empty one. -/
theorem length_chunksOfLength (positive : 0 < length) (text : List Char) :
    (chunksOfLength length text).length = (text.length + (length - 1)) / length := by
  induction text using chunksOfLength.induct length with
  | case1 =>
    rw [chunksOfLength_nil, List.length_nil, List.length_nil, Nat.div_eq_of_lt (by omega)]
  | case2 text some inductionHypothesis =>
    have characters : 0 < text.length := List.length_pos_iff.mpr some
    rw [Nat.max_eq_left positive, List.length_drop] at inductionHypothesis
    rw [chunksOfLength_of_ne_nil positive some, List.length_cons, inductionHypothesis]
    obtain rest | last := Nat.lt_or_ge length text.length
    · have whole : text.length + (length - 1) = text.length - length + (length - 1) + length := by
        omega
      rw [whole, Nat.add_div_right _ positive]
    · have once : text.length + (length - 1) = text.length - 1 + length := by omega
      rw [Nat.sub_eq_zero_of_le last, Nat.zero_add, once, Nat.add_div_right _ positive,
        Nat.div_eq_of_lt (by omega), Nat.div_eq_of_lt (by omega)]

/-- There is one way to cut a text, so the parts can be told without saying how they are made. -/
theorem isCut_iff (positive : 0 < length) :
    IsCut length text parts ↔ parts = chunksOfLength length text :=
  ⟨IsCut.eq_chunksOfLength positive, fun same => same ▸ isCut_chunksOfLength positive text⟩

end

/-! ### Identities -/

/-- The identity of a part of a document. Sessions may have underscores in their names, places have
none. -/
def fragmentId (repository session : String) (place : Nat) : String :=
  "doc_" ++ repository ++ "_" ++ session ++ "_" ++ toString place

/-- Where a mark does not occur behind it, what stands before and behind it is told from the
whole. -/
theorem append_lastMark_inj {Item : Type} {mark : Item} {before after other rest : List Item}
    (last : mark ∉ after) (lastToo : mark ∉ rest)
    (same : before ++ mark :: after = other ++ mark :: rest) : before = other ∧ after = rest := by
  obtain ⟨between, longer, split⟩ | ⟨between, longer, split⟩ := List.append_eq_append_iff.mp same
  · cases between with
    | nil => exact ⟨(longer.trans (List.append_nil _)).symm, (List.cons.inj split).2⟩
    | cons => exact absurd ((List.cons.inj split).2 ▸ List.mem_append_cons_self) last
  · cases between with
    | nil => exact ⟨longer.trans (List.append_nil _), (List.cons.inj split).2.symm⟩
    | cons => exact absurd ((List.cons.inj split).2 ▸ List.mem_append_cons_self) lastToo

theorem fragmentId_inj {repository session other : String} {place otherPlace : Nat} :
    fragmentId repository session place = fragmentId repository other otherPlace ↔
      session = other ∧ place = otherPlace := by
  refine ⟨fun same => ?_, fun ⟨same, here⟩ => same ▸ here ▸ rfl⟩
  have noMark : ∀ place, '_' ∉ Nat.toDigits 10 place := fun place member =>
    absurd (Json.allDigits_toDigits place _ member) (by decide)
  rw [← String.toList_inj] at same
  simp only [fragmentId, String.toList_append, List.append_assoc, List.append_cancel_left_eq,
    Nat.toString_eq_repr, Nat.toList_repr] at same
  obtain ⟨sessions, places⟩ := append_lastMark_inj (noMark place) (noMark otherPlace) same
  refine ⟨String.toList_inj.mp sessions, ?_⟩
  rw [← Json.digitsValue_toDigits place, places, Json.digitsValue_toDigits]

/-! ### Parts as entries -/

/-- The parts of a document, each short enough to be embedded. -/
def documentParts (markdown : String) : List (List Char) :=
  chunksOfLength documentChunkLength markdown.toList

/-- A part of a document of a session as an entry, with the session and the place in its metadata.
-/
def fragment (repository session : String) (part : List Char) (place : Nat) : PlainEntry :=
  (fragmentId repository session place, String.ofList part,
    .record [("session_id", .text session), ("chunk", toValue place)])

/-- The parts as entries, each with its place, which tells them apart. -/
def fragments (repository session : String) (parts : List (List Char)) : List PlainEntry :=
  parts.zipIdx.map fun (part, place) => fragment repository session part place

theorem documentEntries_eq (repository session markdown : String) :
    documentEntries repository session markdown =
      fragments repository session (documentParts markdown) :=
  rfl

/-- Later parts in the places of earlier ones. Those that reach further stay, as nothing takes their
place. -/
def overlaid (earlier later : List (List Char)) : List (List Char) :=
  later ++ earlier.drop later.length

/-- What is left of versions of a text, each one put over those before. -/
def remainingParts (versions : List String) : List (List Char) :=
  versions.foldl (fun parts markdown => overlaid parts (documentParts markdown)) []

/-- The entry as it was before it was embedded, so versions can be compared whatever the embedder
was. -/
def TextEntry.plain (entry : TextEntry) : PlainEntry :=
  (entry.id, entry.text, entry.metadata)

/-- The session that the entry tells of, if it tells of one. -/
def TextEntry.session? (entry : TextEntry) : Option String :=
  (entry.metadata.get? "session_id").bind Value.toText?

section
variable {repository session : String}

theorem ids_fragments (parts : List (List Char)) :
    (fragments repository session parts).map Prod.fst =
      (List.range parts.length).map (fragmentId repository session) := by
  rw [fragments, List.map_map, List.range_eq_range', ← List.zipIdx_map_snd 0 parts, List.map_map]
  rfl

theorem texts_fragments (parts : List (List Char)) :
    (fragments repository session parts).map (fun entry => entry.2.1.toList) = parts := by
  have texts : (fun entry : PlainEntry => entry.2.1.toList) ∘
        (fun (part, place) => fragment repository session part place) =
      (Prod.fst : List Char × Nat → List Char) :=
    funext fun _ => String.toList_ofList
  rw [fragments, List.map_map, texts, List.zipIdx_map_fst]

theorem fragments_overlaid (earlier later : List (List Char)) :
    fragments repository session (overlaid earlier later) =
      fragments repository session later ++
        (fragments repository session earlier).drop later.length := by
  refine List.ext_getElem? fun place => ?_
  simp only [fragments, overlaid, List.getElem?_map, List.getElem?_zipIdx, List.getElem?_append,
    List.getElem?_drop, List.length_map, List.length_zipIdx, Nat.zero_add]
  split_ifs with inLater
  · rfl
  · rw [Nat.add_sub_cancel' (Nat.le_of_not_lt inLater)]

theorem remainingParts_append_singleton (versions : List String) (markdown : String) :
    remainingParts (versions ++ [markdown]) =
      overlaid (remainingParts versions) (documentParts markdown) := by
  rw [remainingParts, List.foldl_append, List.foldl_cons, List.foldl_nil, remainingParts]

/-- There are as many parts left as the longest version has, so versions never make them fewer. -/
theorem length_remainingParts_le_iff {versions : List String} {bound : Nat} :
    (remainingParts versions).length ≤ bound ↔
      ∀ version ∈ versions, (documentParts version).length ≤ bound := by
  induction versions using List.reverseRecOn with
  | nil => simp [remainingParts]
  | append_singleton versions markdown inductionHypothesis =>
    rw [List.forall_mem_append, List.forall_mem_singleton, ← inductionHypothesis,
      remainingParts_append_singleton, overlaid, List.length_append, List.length_drop]
    omega

theorem TextEntry.session?_of_plain {entry : TextEntry} {part : List Char} {place : Nat}
    (same : entry.plain = fragment repository session part place) :
    entry.session? = some session := by
  have told : entry.metadata = .record [("session_id", .text session), ("chunk", toValue place)] :=
    congrArg (fun entry : PlainEntry => entry.2.2) same
  rw [TextEntry.session?, told]
  rfl

/-! ### Versions of one session -/

/-- The parts of a later text of a session are put over those of an earlier one. -/
theorem plain_foldl_merge {earlier later : List TextEntry} {parts others : List (List Char)}
    (are : earlier.map TextEntry.plain = fragments repository session parts)
    (areLater : later.map TextEntry.plain = fragments repository session others) :
    (later.foldl (Keyed.merge TextEntry.id TextEntry.renew) earlier).map TextEntry.plain =
      fragments repository session (overlaid parts others) := by
  -- The identities of both begin the enumeration of all identities of the session.
  have distinct : ((List.range (max parts.length others.length)).map
      (fragmentId repository session)).Nodup :=
    List.nodup_range.map fun _ _ same => (fragmentId_inj.mp same).2
  have begins {entries : List TextEntry} {parts : List (List Char)} {bound : Nat}
      (are : entries.map TextEntry.plain = fragments repository session parts)
      (fewer : parts.length ≤ bound) :
      entries.map TextEntry.id <+: (List.range bound).map (fragmentId repository session) := by
    have ids : entries.map TextEntry.id = (entries.map TextEntry.plain).map Prod.fst := by
      rw [List.map_map]
      rfl
    rw [ids, are, ids_fragments, ← Nat.min_eq_left fewer, ← List.take_range]
    exact (List.take_prefix _ _).map _
  have count : later.length = others.length := by
    rw [← List.length_map TextEntry.plain, areLater, fragments, List.length_map,
      List.length_zipIdx]
  rw [Keyed.foldl_merge_of_prefix distinct (fun _ _ => TextEntry.renew_eq)
    (begins are (Nat.le_max_left _ _)) (begins areLater (Nat.le_max_right _ _)), List.map_append,
    List.map_drop, are, areLater, count, fragments_overlaid]

/-- Gathered entries that are versions of the text of a session are what is left of these. -/
theorem plain_gather_versions {versions : List String} {written : List TextEntry}
    (are : written.map TextEntry.plain = versions.flatMap (documentEntries repository session)) :
    (Keyed.gather TextEntry.id TextEntry.renew written).map TextEntry.plain =
      fragments repository session (remainingParts versions) := by
  induction versions using List.reverseRecOn generalizing written with
  | nil => rw [List.map_eq_nil_iff.mp are]; rfl
  | append_singleton versions markdown inductionHypothesis =>
    rw [List.flatMap_append, List.flatMap_singleton, documentEntries_eq] at are
    obtain ⟨before, latest, rfl, arePast, areLatest⟩ := List.map_eq_append_iff.mp are
    rw [Keyed.gather, List.foldl_append, remainingParts_append_singleton]
    exact plain_foldl_merge (inductionHypothesis arePast) areLatest

/-! ### Versions of all sessions -/

/-- The texts that were approved for a session, in their order, without those of other sessions. -/
def versionsOf (session : String) (approvals : List (String × String)) : List String :=
  (approvals.filter fun approval => approval.1 = session).map Prod.snd

theorem versionsOf_cons (session : String) (approval : String × String)
    (approvals : List (String × String)) :
    versionsOf session (approval :: approvals) =
      if approval.1 = session then approval.2 :: versionsOf session approvals
      else versionsOf session approvals := by
  simp only [versionsOf, List.filter_cons, decide_eq_true_eq]
  split <;> rfl

/-- The identity is one of a part of a document of the session, at whatever place. -/
def IsFragmentId (repository session id : String) : Prop :=
  ∃ place, id = fragmentId repository session place

theorem IsFragmentId.session_unique {other id : String} (is : IsFragmentId repository session id)
    (isOther : IsFragmentId repository other id) : session = other := by
  obtain ⟨place, rfl⟩ := is
  obtain ⟨otherPlace, same⟩ := isOther
  exact (fragmentId_inj.mp same).1

theorem isFragmentId_of_mem {parts : List (List Char)} {entry : PlainEntry}
    (member : entry ∈ fragments repository session parts) :
    IsFragmentId repository session entry.1 := by
  obtain ⟨⟨part, place⟩, -, rfl⟩ := List.mem_map.mp member
  exact ⟨place, rfl⟩

open scoped Classical in
/-- The entries of all sessions that belong to one are the versions of its text. -/
theorem plain_filter_approvals {approvals : List (String × String)} {written : List TextEntry}
    (are : written.map TextEntry.plain = approvals.flatMap fun approval =>
      documentEntries repository approval.1 approval.2) (session : String) :
    (written.filter fun entry => IsFragmentId repository session entry.id).map TextEntry.plain =
      (versionsOf session approvals).flatMap (documentEntries repository session) := by
  have tests : (fun entry : TextEntry => decide (IsFragmentId repository session entry.id)) =
      (fun entry : PlainEntry => decide (IsFragmentId repository session entry.1)) ∘
        TextEntry.plain :=
    rfl
  rw [tests, ← List.filter_map, are, List.filter_flatMap]
  clear are
  induction approvals with
  | nil => rfl
  | cons approval approvals inductionHypothesis =>
    obtain ⟨owner, markdown⟩ := approval
    rw [List.flatMap_cons, inductionHypothesis, versionsOf_cons]
    split_ifs with own
    · rw [List.flatMap_cons, ← own, List.filter_eq_self.mpr]
      exact fun entry member => decide_eq_true (isFragmentId_of_mem member)
    · rw [List.filter_eq_nil_iff.mpr, List.nil_append]
      exact fun entry member is =>
        own ((isFragmentId_of_mem member).session_unique (of_decide_eq_true is))

end

end MigrationGuard
