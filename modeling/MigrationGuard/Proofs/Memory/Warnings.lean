/-
This file says what the warnings about changes are, whatever the similar texts are
that the index finds. There is a warning from memory for each stored drift that
matches a change, and for nothing else. A warning from a similar text is the only
one about its function. What is left out as a repetition is the delicate part: it
is told by the function and the message in one text, and the warnings of drifts
about two functions might give the same one. They never do, because the fixed
beginning of their messages holds no low line and is as long as what can follow
it. Matching is described by the texts that stand in one another and not by the
search that is made for it. The searches for similar texts may find anything or
fail, so the theorem needs nothing of them, only that the drifts can be loaded.
-/

import Mathlib.Data.List.Pairwise
import MigrationGuard.Proofs.Memory.Updates
import MigrationGuard.Proofs.Text.Search

namespace MigrationGuard

/-! ### Drifts that match -/

/-- A stored drift matches a change: its function is named in the description, or the name of what
is changed stands in the name of its function. -/
def DriftRecord.Matches (drift : DriftRecord) (change : PatchChange) : Prop :=
  (drift.function ≠ "" ∧ drift.function.toList <:+: change.description.toList) ∨
    change.subject.toList <:+: drift.function.toList

theorem DriftRecord.concerns_iff {drift : DriftRecord} {change : PatchChange} :
    drift.concerns change ↔ drift.Matches change := by
  rw [concerns, Bool.or_eq_true, Bool.and_eq_true, bne_iff_ne, Text.contains, Text.contains,
    Text.occursIn_iff, Text.occursIn_iff]
  rfl

theorem mem_memoryWarnings {changes : List PatchChange} {known : List DriftRecord}
    {warning : RiskWarning} :
    warning ∈ memoryWarnings changes known ↔
      ∃ change ∈ changes, change.subject ≠ "" ∧
        ∃ drift ∈ known, drift.Matches change ∧ warning = drift.warning := by
  unfold memoryWarnings
  rw [List.mem_flatMap]
  refine exists_congr fun change => and_congr_right fun _ => ?_
  split
  case isTrue unnamed => simp [unnamed]
  case isFalse named =>
    rw [List.mem_map, and_iff_right named]
    refine exists_congr fun drift => ?_
    rw [List.mem_filter, DriftRecord.concerns_iff, and_assoc, eq_comm]

theorem source_of_mem_memoryWarnings {changes : List PatchChange} {known : List DriftRecord}
    {warning : RiskWarning} (member : warning ∈ memoryWarnings changes known) :
    warning.source = .memory := by
  obtain ⟨_, _, _, _, _, _, rfl⟩ := mem_memoryWarnings.mp member
  rfl

/-! ### Warnings from similar texts -/

/-- A warning from a similar text is the only one about its function. -/
def Apart (warnings : List RiskWarning) : Prop :=
  warnings.Pairwise fun one other =>
    one.source = .semantic ∨ other.source = .semantic → one.function ≠ other.function

theorem similarityWarnings_new {usual : String} {warned : List String} {hits : List TextHit}
    {warning : RiskWarning} (member : warning ∈ similarityWarnings usual warned hits) :
    warning.source = .semantic ∧ warning.function ∉ warned := by
  induction hits generalizing warned with
  | nil => exact nomatch member
  | cons hit hits inductionHypothesis =>
    rw [similarityWarnings] at member
    split at member
    case isTrue => exact inductionHypothesis member
    case isFalse new =>
      obtain rfl | later := List.mem_cons.mp member
      · exact ⟨rfl, fun known => new (List.contains_iff_mem.mpr known)⟩
      · obtain ⟨source, other⟩ := inductionHypothesis later
        exact ⟨source, fun known => other (List.mem_cons_of_mem _ known)⟩

theorem similarityWarnings_pairwise (usual : String) (warned : List String)
    (hits : List TextHit) :
    (similarityWarnings usual warned hits).Pairwise fun one other =>
      one.function ≠ other.function := by
  induction hits generalizing warned with
  | nil => exact List.Pairwise.nil
  | cons hit hits inductionHypothesis =>
    rw [similarityWarnings]
    split
    · exact inductionHypothesis warned
    · refine List.pairwise_cons.mpr ⟨fun later member same => ?_, inductionHypothesis _⟩
      exact (similarityWarnings_new member).2 (same ▸ List.mem_cons_self)

/-- What similar texts add to warnings is about functions that carry none. -/
theorem Apart.append_similarityWarnings {warnings : List RiskWarning} (apart : Apart warnings)
    (usual : String) (hits : List TextHit) :
    Apart (warnings ++
      similarityWarnings usual (warnings.map RiskWarning.function) hits) := by
  refine List.pairwise_append.mpr ⟨apart, ?_, ?_⟩
  · refine List.Pairwise.imp ?_ (similarityWarnings_pairwise _ _ _)
    exact fun differ _ => differ
  · intro one member other found _ same
    exact (similarityWarnings_new found).2 (same ▸ List.mem_map_of_mem member)

theorem apart_memoryWarnings (changes : List PatchChange) (known : List DriftRecord) :
    Apart (memoryWarnings changes known) := by
  refine List.pairwise_of_forall_mem_list fun one member other found semantic => ?_
  rw [source_of_mem_memoryWarnings member, source_of_mem_memoryWarnings found] at semantic
  exact semantic.elim nofun nofun

/-- Whatever the searches find, they add warnings from similar texts behind those that are there. -/
theorem ensures_addSimilar {World : Type} (memory : RepositoryMemory (StateM World))
    {warnings : List RiskWarning} (apart : Apart warnings) (changes : List PatchChange) :
    Ensures (memory.addSimilar warnings changes) fun found =>
      ∃ further, found = warnings ++ further ∧
        (∀ warning ∈ further, warning.source = .semantic) ∧ Apart found := by
  induction changes generalizing warnings with
  | nil => exact Ensures.pure ⟨[], (List.append_nil _).symm, nofun, apart⟩
  | cons change changes inductionHypothesis =>
    rw [RepositoryMemory.addSimilar]
    split
    · exact inductionHypothesis apart
    · refine Ensures.bind fun hits world => ?_
      have longer := apart.append_similarityWarnings change.subject (hits.toOption.getD [])
      obtain ⟨further, found, semantic, apart⟩ := inductionHypothesis longer world
      refine ⟨_, found.trans (List.append_assoc _ _ _), fun warning member => ?_, apart⟩
      obtain new | later := List.mem_append.mp member
      · exact (similarityWarnings_new new).1
      · exact semantic warning later

/-! ### Repeated warnings -/

theorem dedupeAfter_append (seen : List String) (front back : List RiskWarning) :
    ∃ known, dedupeAfter seen (front ++ back) =
      dedupeAfter seen front ++ dedupeAfter known back := by
  induction front generalizing seen with
  | nil => exact ⟨seen, rfl⟩
  | cons warning front inductionHypothesis =>
    rw [List.cons_append, dedupeAfter, dedupeAfter]
    split
    · exact inductionHypothesis seen
    · obtain ⟨known, split⟩ := inductionHypothesis (warning.dedupeKey :: seen)
      exact ⟨known, by rw [split, List.cons_append]⟩

theorem dedupeAfter_sublist (seen : List String) (warnings : List RiskWarning) :
    (dedupeAfter seen warnings).Sublist warnings := by
  induction warnings generalizing seen with
  | nil => exact List.Sublist.slnil
  | cons warning warnings inductionHypothesis =>
    rw [dedupeAfter]
    split
    · exact (inductionHypothesis seen).cons warning
    · exact (inductionHypothesis _).cons_cons warning

/-- Of the warnings with a new key one is kept, so a repetition is left out but never its first
occurrence. -/
theorem exists_mem_dedupeAfter {seen : List String} {warnings : List RiskWarning}
    {warning : RiskWarning} (member : warning ∈ warnings) (new : warning.dedupeKey ∉ seen) :
    ∃ kept ∈ dedupeAfter seen warnings, kept.dedupeKey = warning.dedupeKey := by
  induction warnings generalizing seen with
  | nil => exact nomatch member
  | cons first rest inductionHypothesis =>
    rw [dedupeAfter]
    by_cases same : first.dedupeKey = warning.dedupeKey
    · rw [same, if_neg fun known => new (List.contains_iff_mem.mp known)]
      exact ⟨first, List.mem_cons_self, same⟩
    have later : warning ∈ rest :=
      (List.mem_cons.mp member).resolve_left fun equal => same (equal ▸ rfl)
    split
    · exact inductionHypothesis later new
    · have fresh : warning.dedupeKey ∉ first.dedupeKey :: seen := fun known =>
        (List.mem_cons.mp known).elim (fun equal => same equal.symm) new
      obtain ⟨kept, among, equal⟩ := inductionHypothesis later fresh
      exact ⟨kept, List.mem_cons_of_mem _ among, equal⟩

/-- What is kept of warnings is kept in front of what is kept of later ones. -/
theorem dedupeWarnings_begins (front back : List RiskWarning) :
    dedupeWarnings front <+: dedupeWarnings (front ++ back) := by
  obtain ⟨known, split⟩ := dedupeAfter_append [] front back
  exact ⟨_, split.symm⟩

/-! ### Keys of warnings from memory -/

/-- A mark and a text without it do not stand again behind a mark where what follows is no longer
than the text: the second mark would have to stand in the text. -/
theorem eq_nil_of_append_mark {mark : Char} {start extra back otherBack : List Char}
    (unmarked : mark ∉ start) (short : back.length ≤ start.length)
    (same : mark :: (start ++ back) = extra ++ mark :: (start ++ otherBack)) : extra = [] := by
  cases extra with
  | nil => rfl
  | cons first extra =>
    rw [List.cons_append, List.cons.injEq] at same
    have lengths := congrArg List.length same.2
    simp only [List.length_append, List.length_cons] at lengths
    have inside : extra.length < start.length := by omega
    obtain ⟨more, longer, -⟩ | ⟨more, longer, rest⟩ := List.append_eq_append_iff.mp same.2
    · rw [longer, List.length_append] at inside
      omega
    · cases more with
      | nil =>
        rw [longer, List.append_nil] at inside
        exact absurd inside (Nat.lt_irrefl _)
      | cons head more =>
        rw [List.cons_append, List.cons.injEq] at rest
        exact absurd (longer ▸ rest.1 ▸ List.mem_append_right _ List.mem_cons_self) unmarked

/-- Texts that are joined by a mark and a text without it are told apart where those behind it are no
longer than the text between. -/
theorem append_mark_inj {mark : Char} {start front otherFront back otherBack : List Char}
    (unmarked : mark ∉ start) (short : back.length ≤ start.length)
    (otherShort : otherBack.length ≤ start.length)
    (same : front ++ mark :: (start ++ back) = otherFront ++ mark :: (start ++ otherBack)) :
    front = otherFront ∧ back = otherBack := by
  obtain rfl : front = otherFront := by
    obtain ⟨extra, rfl, rest⟩ | ⟨extra, rfl, rest⟩ := List.append_eq_append_iff.mp same
    · rw [eq_nil_of_append_mark unmarked short rest, List.append_nil]
    · rw [eq_nil_of_append_mark unmarked otherShort rest, List.append_nil]
  have rest := List.append_cancel_left same
  rw [List.cons.injEq] at rest
  exact ⟨rfl, List.append_cancel_left rest.2⟩

/-- Two drifts whose warnings count as repetitions are about one function, and their messages begin
alike. -/
theorem eq_of_dedupeKey {drift other : DriftRecord}
    (same : drift.warning.dedupeKey = other.warning.dedupeKey) :
    drift.function = other.function ∧
      drift.warning.message.toList.take dedupeLength =
        other.warning.message.toList.take dedupeLength := by
  have key : ∀ drift : DriftRecord, drift.warning.dedupeKey.toList =
      drift.function.toList ++
        '_' :: ("Previously caused drift: ".toList ++ drift.description.toList.take 25) := by
    intro drift
    simp only [RiskWarning.dedupeKey, DriftRecord.warning, Text.truncate, String.toList_append,
      String.toList_ofList, List.append_assoc]
    rfl
  have marked := congrArg String.toList same
  rw [key, key] at marked
  obtain ⟨function, rest⟩ := append_mark_inj (by decide)
    (List.length_take_le _ _) (List.length_take_le _ _) marked
  refine ⟨String.toList_inj.mp function, ?_⟩
  simp only [DriftRecord.warning, String.toList_append, dedupeLength]
  exact congrArg ("Previously caused drift: ".toList ++ ·) rest

/-! ### Warnings about changes -/

/-- The warnings are those that known drifts give on changes, and further ones about other
functions. -/
structure Warns (changes : List PatchChange) (known : List DriftRecord)
    (warnings : List RiskWarning) : Prop where
  /-- Each drift that matches a change that has a name is warned of. -/
  complete : ∀ change ∈ changes, change.subject ≠ "" → ∀ drift ∈ known, drift.Matches change →
    ∃ warning ∈ warnings, warning.source = .memory ∧ warning.function = drift.function ∧
      warning.message.toList.take 50 = drift.warning.message.toList.take 50
  /-- Each warning from memory is that of a drift that matches a change. -/
  sound : ∀ warning ∈ warnings, warning.source = .memory →
    ∃ change ∈ changes, change.subject ≠ "" ∧
      ∃ drift ∈ known, drift.Matches change ∧ warning = drift.warning
  /-- A warning from a similar text is the only one about its function. -/
  apart : Apart warnings

namespace RepositoryMemory

variable {World : Type}

/-- Where the drifts are known, there are warnings: those from memory and then those from similar
texts, without the repetitions. -/
theorem exists_proactiveWarnings (memory : RepositoryMemory (StateM World))
    (changes : List PatchChange) {known : List DriftRecord} {world : World}
    (knows : (memory.knownDrifts world).1 = .ok known) :
    ∃ further, (memory.proactiveWarnings changes world).1 =
        .ok (dedupeWarnings (memoryWarnings changes known ++ further)) ∧
      (∀ warning ∈ further, warning.source = .semantic) ∧
        Apart (memoryWarnings changes known ++ further) := by
  rw [proactiveWarnings, bind_apply, knows]
  obtain ⟨further, found, semantic, apart⟩ := ensures_addSimilar memory
    (apart_memoryWarnings changes known) changes (memory.knownDrifts world).2
  exact ⟨further, congrArg (fun warnings => Except.ok (dedupeWarnings warnings)) found, semantic,
    found ▸ apart⟩

/-- Whatever the searches for similar texts find, the warnings about changes are those of the known
drifts that match, and further ones about other functions. -/
theorem proactiveWarnings_warns (memory : RepositoryMemory (StateM World))
    (changes : List PatchChange) (known : List DriftRecord) (world : World)
    (knows : (memory.knownDrifts world).1 = .ok known) :
    ∃ warnings, (memory.proactiveWarnings changes world).1 = .ok warnings ∧
      Warns changes known warnings := by
  obtain ⟨further, found, semantic, apart⟩ := memory.exists_proactiveWarnings changes knows
  have sublist := dedupeAfter_sublist [] (memoryWarnings changes known ++ further)
  refine ⟨_, found, ⟨?complete, ?sound, apart.sublist sublist⟩⟩
  case complete =>
    intro change member named drift isKnown isMatch
    have warned := mem_memoryWarnings.mpr ⟨change, member, named, drift, isKnown, isMatch, rfl⟩
    obtain ⟨kept, among, same⟩ :=
      exists_mem_dedupeAfter warned (List.not_mem_nil : _ ∉ ([] : List String))
    -- What is kept in place of the warning is itself from memory, so the key tells its function.
    have inMemory := (dedupeAfter_sublist _ _).subset among
    obtain ⟨_, _, _, other, _, _, rfl⟩ := mem_memoryWarnings.mp inMemory
    exact ⟨other.warning, (dedupeWarnings_begins _ further).subset among, rfl, eq_of_dedupeKey same⟩
  case sound =>
    intro warning member source
    obtain inMemory | similar := List.mem_append.mp (sublist.subset member)
    · exact mem_memoryWarnings.mp inMemory
    · exact nomatch source.symm.trans (semantic warning similar)

/-- A drift of the shop, which has been seen three times. -/
def roundingDrift : DriftRecord :=
  ⟨"shop", "settle", "critical", "rounds down", "19.5", "19", 100, 200, 3⟩

/-- A change of the shop that names the function of the drift. -/
def settlementChange : PatchChange :=
  ⟨"billing/invoice.py", .semantic, "settle later", 12⟩

/-- The store that holds the drift and nothing else. -/
def roundingStore : Store :=
  { Store.empty with drifts := [roundingDrift] }

/-- The change is warned of where the drift is stored. -/
theorem proactiveWarnings_warns_settlement :
    ((ofStore "shop").knownDrifts roundingStore).1 = .ok [roundingDrift] ∧
      ∃ warnings,
        ((ofStore "shop").proactiveWarnings [settlementChange] roundingStore).1 = .ok warnings ∧
          Warns [settlementChange] [roundingDrift] warnings := by
  have found : roundingStore.driftsOf "shop" = [roundingDrift] :=
    List.mergeSort_singleton roundingDrift
  have knows : ((ofStore "shop").knownDrifts roundingStore).1 = .ok [roundingDrift] :=
    congrArg Except.ok found
  exact ⟨knows, proactiveWarnings_warns _ _ _ _ knows⟩

end RepositoryMemory

end MigrationGuard
