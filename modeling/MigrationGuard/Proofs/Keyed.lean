/-
This file treats lists whose rows are told apart by a key. A further row with a
known key is absorbed by the row that has it, any other one goes to the end. A
list of rows is so gathered into one row for each key, and the keys stand in the
order in which they appear first. The tables of a store, the functions of a
module, the nodes of a workflow and the edges of a caller are all made in this
way, so what holds of them is stated here once: which row a key leads to, which
keys there are, in which order they stand, and what a filter or a sum over the
rows makes of it. Each fact is proved for one more row and then, by induction over
the rows, for all of them.
-/

import Mathlib.Algebra.Ring.Int.Defs
import Mathlib.Data.List.Induction

namespace MigrationGuard.Keyed

variable {Row Key : Type} [DecidableEq Key] (key : Row → Key) (absorb : Row → Row → Row)

/-! ### Gathering -/

/-- The rows with one more, which is absorbed by the row with its key if there is one. -/
def merge : List Row → Row → List Row
  | [], row => [row]
  | first :: rest, row =>
    if key first = key row then absorb first row :: rest else first :: merge rest row

/-- The rows gathered by their keys, one row after the other. -/
def gather (rows : List Row) : List Row :=
  rows.foldl (merge key absorb) []

/-- The rows absorbed by the first of them, as they are when all of them have one key. -/
def absorbed? : List Row → Option Row
  | [] => none
  | first :: rest => some (rest.foldl absorb first)

/-- The rows with a key, in the order in which they came. -/
def withKey (wanted : Key) (rows : List Row) : List Row :=
  rows.filter fun row => key row = wanted

/-- A row with the first key stands before all rows with the second one. The gathered keys stand in
this order. -/
def Precedes (rows : List Row) (first second : Key) : Prop :=
  ∃ before row after, rows = before ++ row :: after ∧ key row = first ∧
    ∀ earlier ∈ before ++ [row], key earlier ≠ second

theorem gather_append_singleton (rows : List Row) (row : Row) :
    gather key absorb (rows ++ [row]) = merge key absorb (gather key absorb rows) row := by
  simp only [gather, List.foldl_append, List.foldl_cons, List.foldl_nil]

theorem absorbed?_append_singleton (rows : List Row) (row : Row) :
    absorbed? absorb (rows ++ [row]) =
      some (((absorbed? absorb rows).map fun first => absorb first row).getD row) := by
  cases rows with
  | nil => rfl
  | cons first rest =>
    simp only [absorbed?, List.cons_append, List.foldl_append, List.foldl_cons, List.foldl_nil,
      Option.map_some, Option.getD_some]

/-- Where a later row takes the place of an earlier one, the last row is left. -/
theorem absorbed?_eq_getLast? {rows : List Row}
    (replaces : ∀ first ∈ rows, ∀ later ∈ rows, absorb first later = later) :
    absorbed? absorb rows = rows.getLast? := by
  induction rows using List.reverseRecOn with
  | nil => rfl
  | append_singleton rows row inductionHypothesis =>
    have before := inductionHypothesis fun first among later amongToo =>
      replaces first (List.mem_append_left _ among) later (List.mem_append_left _ amongToo)
    rw [absorbed?_append_singleton, before, List.getLast?_append, List.getLast?_singleton,
      Option.some_or]
    cases last : rows.getLast? with
    | none => rfl
    | some first =>
      exact congrArg some (replaces first (List.mem_append_left _ (List.mem_of_getLast? last)) row
        (List.mem_append_right _ List.mem_cons_self))

omit [DecidableEq Key] in
/-- Where rows come from items, what stands first among the rows does so among the items. -/
theorem precedes_filterMap {Item : Type} {make : Item → Option Row} {items : List Item}
    {first second : Key} (precedes : Precedes key (items.filterMap make) first second) :
    ∃ before item after, items = before ++ item :: after ∧
      (∃ row, make item = some row ∧ key row = first) ∧
      ∀ earlier ∈ before, ∀ row, make earlier = some row → key row ≠ second := by
  obtain ⟨early, row, late, split, isFirst, none⟩ := precedes
  obtain ⟨front, back, rfl, frontMade, backMade⟩ := List.filterMap_eq_append_iff.mp split
  obtain ⟨skipped, item, after, rfl, nothing, made, -⟩ := List.filterMap_eq_cons_iff.mp backMade
  refine ⟨front ++ skipped, item, after, by rw [List.append_assoc], ⟨row, made, isFirst⟩, ?_⟩
  intro earlier among other madeOther
  rcases List.mem_append.mp among with inFront | inSkipped
  · refine none other (List.mem_append_left _ ?_)
    rw [← frontMade]
    exact List.mem_filterMap.mpr ⟨earlier, inFront, madeOther⟩
  · rw [nothing earlier inSkipped] at madeOther
    exact nomatch madeOther

omit [DecidableEq Key] in
variable {key} in
/-- Where each row is made of an item, the items stand in the same order. -/
theorem Precedes.of_map {Item : Type} {make : Item → Row} {items : List Item} {first second : Key}
    (precedes : Precedes key (items.map make) first second) :
    Precedes (fun item => key (make item)) items first second := by
  obtain ⟨before, row, after, split, isFirst, none⟩ := precedes
  obtain ⟨early, rest, rfl, rfl, restMade⟩ := List.map_eq_append_iff.mp split
  obtain ⟨item, late, rfl, rfl, rfl⟩ := List.map_eq_cons_iff.mp restMade
  refine ⟨early, item, late, rfl, isFirst, fun earlier among => none (make earlier) ?_⟩
  rw [← List.map_singleton, ← List.map_append]
  exact List.mem_map_of_mem among

/-! ### One row more -/

section
variable {key absorb} (keeps : ∀ first later, key (absorb first later) = key first)
include keeps

theorem keys_merge (rows : List Row) (row : Row) :
    (merge key absorb rows row).map key =
      if key row ∈ rows.map key then rows.map key else rows.map key ++ [key row] := by
  induction rows with
  | nil => rfl
  | cons first rest inductionHypothesis =>
    unfold merge
    by_cases same : key first = key row
    · rw [if_pos same, List.map_cons, keeps, if_pos]
      · rfl
      · rw [List.map_cons, same]
        exact List.mem_cons_self
    · have other : key row ≠ key first := Ne.symm same
      rw [if_neg same, List.map_cons, inductionHypothesis]
      simp only [List.map_cons, List.mem_cons, other, false_or]
      split <;> rfl

theorem find_merge (rows : List Row) (row : Row) (wanted : Key) :
    (merge key absorb rows row).find? (fun row => key row = wanted) =
      if key row = wanted then
        some (((rows.find? fun row => key row = wanted).map fun first => absorb first row).getD row)
      else rows.find? fun row => key row = wanted := by
  induction rows with
  | nil =>
    simp only [merge, List.find?_cons, List.find?_nil, Option.map_none, Option.getD_none]
    split <;> simp_all
  | cons first rest inductionHypothesis =>
    unfold merge
    by_cases same : key first = key row
    · rw [if_pos same, List.find?_cons, List.find?_cons, keeps, same]
      by_cases isWanted : key row = wanted
      · simp [isWanted]
      · simp [isWanted]
    · rw [if_neg same, List.find?_cons, List.find?_cons, inductionHypothesis]
      by_cases isWanted : key first = wanted
      · have other : key row ≠ wanted := fun found => same (isWanted.trans found.symm)
        simp [isWanted, other]
      · simp [isWanted]

omit keeps in
/-- A row of the merged ones is one of the rows before, with or without the further row, or it is
the further row, whose key is new. -/
theorem mem_merge_cases {rows : List Row} {row found : Row}
    (member : found ∈ merge key absorb rows row) :
    (∃ first ∈ rows, found = first ∨ found = absorb first row) ∨
      found = row ∧ key row ∉ rows.map key := by
  induction rows with
  | nil => exact Or.inr ⟨List.mem_singleton.mp member, List.not_mem_nil⟩
  | cons first rest inductionHypothesis =>
    unfold merge at member
    by_cases same : key first = key row
    · rw [if_pos same] at member
      obtain rfl | later := List.mem_cons.mp member
      · exact Or.inl ⟨first, List.mem_cons_self, Or.inr rfl⟩
      · exact Or.inl ⟨found, List.mem_cons_of_mem _ later, Or.inl rfl⟩
    · rw [if_neg same] at member
      obtain rfl | later := List.mem_cons.mp member
      · exact Or.inl ⟨found, List.mem_cons_self, Or.inl rfl⟩
      obtain ⟨earlier, among, origin⟩ | ⟨isRow, fresh⟩ := inductionHypothesis later
      · exact Or.inl ⟨earlier, List.mem_cons_of_mem _ among, origin⟩
      · refine Or.inr ⟨isRow, fun known => ?_⟩
        rw [List.map_cons, List.mem_cons] at known
        exact known.elim (fun other => same other.symm) fresh

/-- What is told from the key is told of the rows before or of the further row. -/
theorem mem_map_merge {Value : Type} {field : Row → Value} {rows : List Row} {row : Row}
    {value : Value} (told : ∀ first later, key first = key later → field first = field later)
    (member : value ∈ (merge key absorb rows row).map field) :
    value ∈ rows.map field ∨ value = field row := by
  obtain ⟨found, among, rfl⟩ := List.mem_map.mp member
  obtain ⟨first, before, rfl | rfl⟩ | ⟨rfl, -⟩ := mem_merge_cases among
  · exact Or.inl (List.mem_map_of_mem before)
  · exact Or.inl (told _ _ (keeps first row) ▸ List.mem_map_of_mem before)
  · exact Or.inr rfl

theorem mem_keys_merge (rows : List Row) (row : Row) (wanted : Key) :
    wanted ∈ (merge key absorb rows row).map key ↔ wanted ∈ rows.map key ∨ wanted = key row := by
  rw [keys_merge keeps]
  split
  · rename_i known
    exact ⟨Or.inl, fun found => found.elim (fun among => among) fun same => same ▸ known⟩
  · rw [List.mem_append, List.mem_singleton]

omit keeps in
/-- What is forgotten of the rows makes no difference to where a row goes, if it makes none to keys
and to how rows are absorbed. -/
theorem map_merge (forget : Row → Row) (same : ∀ row, key (forget row) = key row)
    (forgets : ∀ first later, forget (absorb first later) = absorb (forget first) (forget later))
    (rows : List Row) (row : Row) :
    (merge key absorb rows row).map forget =
      merge key absorb (rows.map forget) (forget row) := by
  induction rows with
  | nil => rfl
  | cons first rest inductionHypothesis =>
    rw [List.map_cons, merge, merge, same, same]
    split
    · rw [List.map_cons, forgets]
    · rw [List.map_cons, inductionHypothesis]

/-- A row that does not pass a test on keys leaves the rows that do. -/
theorem filter_merge_of_not {passes : Row → Bool} {row : Row}
    (told : ∀ first later, key first = key later → passes first = passes later)
    (stopped : passes row = false) (rows : List Row) :
    (merge key absorb rows row).filter passes = rows.filter passes := by
  induction rows with
  | nil => rw [merge, List.filter_cons, stopped, if_neg Bool.false_ne_true]
  | cons first rest inductionHypothesis =>
    unfold merge
    by_cases same : key first = key row
    · have before : passes first = false := (told first row same).trans stopped
      have after : passes (absorb first row) = false := (told _ _ (keeps first row)).trans before
      rw [if_pos same, List.filter_cons, List.filter_cons, before, after]
      rfl
    · rw [if_neg same, List.filter_cons, List.filter_cons, inductionHypothesis]

/-- A row that passes a test on keys goes among the rows that do. -/
theorem filter_merge {passes : Row → Bool} {row : Row}
    (told : ∀ first later, key first = key later → passes first = passes later)
    (goes : passes row = true) (rows : List Row) :
    (merge key absorb rows row).filter passes = merge key absorb (rows.filter passes) row := by
  induction rows with
  | nil => rw [merge, List.filter_cons, if_pos goes]; rfl
  | cons first rest inductionHypothesis =>
    rw [merge]
    by_cases same : key first = key row
    · have before : passes first = true := (told first row same).trans goes
      have after : passes (absorb first row) = true := (told _ _ (keeps first row)).trans before
      rw [if_pos same, List.filter_cons, List.filter_cons, if_pos before, if_pos after, merge,
        if_pos same]
    · rw [if_neg same, List.filter_cons, List.filter_cons, inductionHypothesis]
      split
      · rw [merge, if_neg same]
      · rfl

omit keeps in
/-- Where a row that is absorbed adds what it measures, the sum grows by that, whichever row it
is that absorbs. -/
theorem sum_merge {measure : Row → Int} {row : Row}
    (adds : ∀ first, measure (absorb first row) = measure first + measure row)
    (rows : List Row) :
    ((merge key absorb rows row).map measure).sum = (rows.map measure).sum + measure row := by
  induction rows with
  | nil => exact Int.add_comm _ _
  | cons first rest inductionHypothesis =>
    rw [merge, List.map_cons, List.sum_cons]
    split
    · rw [List.map_cons, List.sum_cons, adds, Int.add_right_comm]
    · rw [List.map_cons, List.sum_cons, inductionHypothesis, Int.add_assoc]

/-! ### All rows -/

theorem nodup_keys_gather (rows : List Row) : ((gather key absorb rows).map key).Nodup := by
  induction rows using List.reverseRecOn with
  | nil => exact List.nodup_nil
  | append_singleton rows row inductionHypothesis =>
    rw [gather_append_singleton, keys_merge keeps]
    split
    · exact inductionHypothesis
    · rename_i fresh
      exact List.nodup_append.mpr ⟨inductionHypothesis, List.pairwise_singleton _ _,
        fun known member other single same =>
          fresh (List.mem_singleton.mp single ▸ same ▸ member)⟩

omit keeps in
/-- Where keys are distinct, a row is the one that is found by its key. -/
theorem find_of_mem {rows : List Row} {row : Row} (distinct : (rows.map key).Nodup)
    (member : row ∈ rows) : rows.find? (fun other => key other = key row) = some row := by
  obtain ⟨before, after, rfl⟩ := List.append_of_mem member
  rw [List.map_append, List.map_cons, List.nodup_append] at distinct
  have others : ∀ earlier ∈ before, ¬ key earlier = key row := fun earlier among =>
    distinct.2.2 _ (List.mem_map_of_mem among) _ List.mem_cons_self
  rw [List.find?_append, List.find?_eq_none.mpr (by simpa using others), Option.none_or,
    List.find?_cons, decide_eq_true rfl]

omit keeps in
/-- Where keys are distinct, there is no row with a key besides the one that is found. -/
theorem withKey_of_nodup {rows : List Row} (distinct : (rows.map key).Nodup) (wanted : Key) :
    withKey key wanted rows = (rows.find? fun row => key row = wanted).toList := by
  induction rows with
  | nil => rfl
  | cons first rest inductionHypothesis =>
    rw [List.map_cons, List.nodup_cons] at distinct
    unfold withKey
    rw [List.filter_cons, List.find?_cons]
    by_cases isWanted : key first = wanted
    · have none : withKey key wanted rest = [] :=
        List.filter_eq_nil_iff.mpr fun row among same =>
          distinct.1 (isWanted.trans (of_decide_eq_true same).symm ▸ List.mem_map_of_mem among)
      rw [decide_eq_true isWanted]
      exact congrArg (first :: ·) none
    · rw [decide_eq_false isWanted]
      exact inductionHypothesis distinct.2

/-- The row of a key is made of all rows with that key, and of no others. -/
theorem find_gather (rows : List Row) (wanted : Key) :
    (gather key absorb rows).find? (fun row => key row = wanted) =
      absorbed? absorb (withKey key wanted rows) := by
  induction rows using List.reverseRecOn with
  | nil => rfl
  | append_singleton rows row inductionHypothesis =>
    have split : withKey key wanted (rows ++ [row]) =
        withKey key wanted rows ++ if key row = wanted then [row] else [] := by
      simp only [withKey, List.filter_append, List.filter_cons, List.filter_nil, decide_eq_true_eq]
    rw [gather_append_singleton, find_merge keeps, inductionHypothesis, split]
    by_cases isWanted : key row = wanted
    · rw [if_pos isWanted, if_pos isWanted, absorbed?_append_singleton]
    · rw [if_neg isWanted, if_neg isWanted, List.append_nil]

theorem mem_gather (rows : List Row) (row : Row) :
    row ∈ gather key absorb rows ↔ absorbed? absorb (withKey key (key row) rows) = some row := by
  rw [← find_gather keeps]
  exact ⟨find_of_mem (nodup_keys_gather keeps rows), List.mem_of_find?_eq_some⟩

theorem mem_keys_gather (rows : List Row) (wanted : Key) :
    wanted ∈ (gather key absorb rows).map key ↔ wanted ∈ rows.map key := by
  induction rows using List.reverseRecOn with
  | nil => rfl
  | append_singleton rows row inductionHypothesis =>
    rw [gather_append_singleton, keys_merge keeps, List.map_append, List.mem_append,
      ← inductionHypothesis]
    split
    · rename_i known
      simp only [List.map_cons, List.map_nil, List.mem_singleton]
      exact ⟨Or.inl, fun found => found.elim id fun same => same ▸ known⟩
    · exact List.mem_append

/-- The gathered rows that pass a test on keys are gathered from the rows that pass it. -/
theorem filter_gather {passes : Row → Bool}
    (told : ∀ first later, key first = key later → passes first = passes later)
    (rows : List Row) :
    (gather key absorb rows).filter passes = gather key absorb (rows.filter passes) := by
  induction rows using List.reverseRecOn with
  | nil => rfl
  | append_singleton rows row inductionHypothesis =>
    rw [gather_append_singleton, List.filter_append]
    by_cases goes : passes row = true
    · rw [filter_merge keeps told goes, inductionHypothesis, List.filter_cons_of_pos goes,
        List.filter_nil, gather_append_singleton]
    · rw [filter_merge_of_not keeps told (Bool.eq_false_iff.mpr goes), inductionHypothesis,
        List.filter_cons_of_neg goes, List.filter_nil, List.append_nil]

/-- The keys stand in the order in which they appear first, so nothing that is absorbed later
changes the order. -/
theorem pairwise_gather (rows : List Row) :
    ((gather key absorb rows).map key).Pairwise (Precedes key rows) := by
  induction rows using List.reverseRecOn with
  | nil => exact List.Pairwise.nil
  | append_singleton rows row inductionHypothesis =>
    have kept : ((gather key absorb rows).map key).Pairwise (Precedes key (rows ++ [row])) := by
      refine inductionHypothesis.imp ?_
      rintro first second ⟨before, found, after, split, isFirst, none⟩
      exact ⟨before, found, after ++ [row], by rw [split, List.append_assoc, List.cons_append],
        isFirst, none⟩
    rw [gather_append_singleton, keys_merge keeps]
    split
    · exact kept
    · rename_i fresh
      rw [mem_keys_gather keeps] at fresh
      refine List.pairwise_append.mpr ⟨kept, List.pairwise_singleton _ _, ?_⟩
      intro first known second single
      rw [List.mem_singleton.mp single]
      obtain ⟨found, member, isFirst⟩ :=
        List.mem_map.mp ((mem_keys_gather keeps rows first).mp known)
      obtain ⟨before, after, split⟩ := List.append_of_mem member
      refine ⟨before, found, after ++ [row], by rw [split, List.append_assoc, List.cons_append],
        isFirst, ?_⟩
      intro earlier among same
      refine fresh (same ▸ List.mem_map_of_mem ?_)
      rw [split, List.append_cons]
      exact List.mem_append_left _ among

end

/-! ### Rows in place of others -/

section
variable {key absorb}

/-- Rows with other keys go past the first row and leave it as it is. -/
theorem foldl_merge_cons {first : Row} {rows : List Row}
    (other : ∀ row ∈ rows, key first ≠ key row) (rest : List Row) :
    rows.foldl (merge key absorb) (first :: rest) =
      first :: rows.foldl (merge key absorb) rest := by
  induction rows generalizing rest with
  | nil => rfl
  | cons row rows inductionHypothesis =>
    rw [List.foldl_cons, List.foldl_cons, merge, if_neg (other row List.mem_cons_self)]
    exact inductionHypothesis (fun later among => other later (List.mem_cons_of_mem _ among)) _

/-- Where the keys of earlier and of later rows begin one enumeration, the later rows take the
places of as many earlier ones, and the earlier rows that reach further stay. -/
theorem foldl_merge_of_prefix {keys : List Key} (distinct : keys.Nodup)
    (replaces : ∀ first later, key first = key later → absorb first later = later)
    {earlier later : List Row} (begins : earlier.map key <+: keys)
    (beginsToo : later.map key <+: keys) :
    later.foldl (merge key absorb) earlier = later ++ earlier.drop later.length := by
  induction later generalizing keys earlier with
  | nil => rfl
  | cons row later inductionHypothesis =>
    obtain ⟨others, rfl⟩ := beginsToo
    rw [List.map_cons, List.cons_append, List.nodup_cons] at distinct
    have apart : ∀ next ∈ later, key row ≠ key next := fun next among same =>
      distinct.1 (List.mem_append_left _ (same ▸ List.mem_map_of_mem among))
    have prefixToo := List.prefix_append (later.map key) others
    rw [List.foldl_cons]
    cases earlier with
    | nil =>
      have none : ([] : List Row).map key <+: later.map key ++ others := List.nil_prefix
      rw [merge, foldl_merge_cons apart, inductionHypothesis distinct.2 none prefixToo,
        List.drop_nil, List.drop_nil, List.cons_append]
    | cons first earlier =>
      obtain ⟨same, shorter⟩ := List.cons_prefix_cons.mp begins
      rw [merge, if_pos same, replaces first row same, foldl_merge_cons apart,
        inductionHypothesis distinct.2 shorter prefixToo, List.length_cons, List.drop_succ_cons,
        List.cons_append]

end

end MigrationGuard.Keyed
