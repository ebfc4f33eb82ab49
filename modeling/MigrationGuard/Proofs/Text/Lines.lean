/-
This file shows that a part of a text stands in one of its lines. A part that
holds no line feed is not torn apart where the text is cut, and one that holds no
carriage return loses nothing where the end of a line is taken away. So what a
text says in words without line ends it says on a line, and a search through the
lines finds just what a search through the text would find. Outputs of runners are
read line by line, while what they speak of is told of the whole text; this
connects the two.
-/

import MigrationGuard.Proofs.Text.Search

namespace MigrationGuard.Text

/-! ### Parts and pieces -/

section
variable {separates : Char → Bool} {part : List Char}
  (plain : ∀ character ∈ part, ¬ separates character)
include plain

theorem prefix_iff_of_cutAtEach {text piece : List Char} {pieces : List (List Char)}
    (cut : cutAtEach separates text = piece :: pieces) : part <+: text ↔ part <+: piece := by
  induction text generalizing part piece pieces with
  | nil =>
    obtain ⟨rfl, -⟩ := List.cons.inj cut
    rfl
  | cons character rest inductionHypothesis =>
    obtain ⟨next, others, later⟩ :=
      List.exists_cons_of_ne_nil (cutAtEach_ne_nil rest : cutAtEach separates rest ≠ [])
    cases part with
    | nil => exact iff_of_true List.nil_prefix List.nil_prefix
    | cons first part =>
      obtain ⟨firstPlain, plain⟩ := List.forall_mem_cons.mp plain
      rw [cutAtEach, later] at cut
      split_ifs at cut with separated
      · obtain ⟨rfl, -⟩ := List.cons.inj cut
        refine iff_of_false (fun begins => ?_) (by simp)
        exact firstPlain ((List.cons_prefix_cons.mp begins).1 ▸ separated)
      · obtain ⟨rfl, -⟩ := List.cons.inj cut
        rw [List.cons_prefix_cons, List.cons_prefix_cons, inductionHypothesis plain later]

/-- A part without separators stands in one of the pieces between them, and each piece stands in the
text. -/
theorem infix_iff_of_cutAtEach (text : List Char) :
    part <:+: text ↔ ∃ piece ∈ cutAtEach separates text, part <:+: piece := by
  induction text with
  | nil => simp [cutAtEach]
  | cons character rest inductionHypothesis =>
    obtain ⟨next, others, later⟩ :=
      List.exists_cons_of_ne_nil (cutAtEach_ne_nil rest : cutAtEach separates rest ≠ [])
    have begins : ∀ {piece pieces}, cutAtEach separates (character :: rest) = piece :: pieces →
        (part <+: character :: rest ↔ part <+: piece) := prefix_iff_of_cutAtEach plain
    rw [cutAtEach, later] at begins ⊢
    rw [List.infix_cons_iff, inductionHypothesis, later]
    split_ifs at begins ⊢ with separated
    · rw [begins rfl, List.prefix_nil, List.exists_mem_cons_iff _ [], List.infix_nil]
    · dsimp only
      rw [begins rfl, List.exists_mem_cons_iff, List.exists_mem_cons_iff, List.infix_cons_iff,
        or_assoc]

end

/-! ### Lines -/

theorem cutAtLineFeeds_eq (text : List Char) :
    cutAtLineFeeds text = cutAtEach (· == '\n') text := by
  induction text using cutAtLineFeeds.induct <;> simp_all [cutAtLineFeeds, cutAtEach]

section
variable {part : List Char} (present : part ≠ []) (noReturn : '\r' ∉ part)
include present noReturn

theorem infix_dropCarriageReturn_iff (line : List Char) :
    part <:+: dropCarriageReturn line ↔ part <:+: line := by
  rw [dropCarriageReturn]
  split_ifs with returns
  · obtain ⟨front, rfl⟩ := List.getLast?_eq_some_iff.mp returns
    have notLast : ¬ part <:+ front ++ ['\r'] := by
      rw [List.suffix_concat_iff, not_or]
      refine ⟨present, ?_⟩
      rintro ⟨before, rfl, -⟩
      exact noReturn List.mem_concat_self
    rw [List.dropLast_concat, List.infix_concat_iff, or_iff_right notLast]
  · rfl

theorem infix_closeLines_iff (pieces : List (List Char)) :
    (∃ line ∈ closeLines pieces, part <:+: line) ↔ ∃ piece ∈ pieces, part <:+: piece := by
  induction pieces using closeLines.induct with
  | case1 => rfl
  | case2 last empty =>
    obtain rfl := List.isEmpty_iff.mp empty
    rw [closeLines, if_pos empty, List.exists_mem_cons_iff, List.infix_nil]
    simp [present]
  | case3 last some => rw [closeLines, if_neg some]
  | case4 line lines more inductionHypothesis =>
    rw [closeLines, List.exists_mem_cons_iff, List.exists_mem_cons_iff,
      infix_dropCarriageReturn_iff present noReturn, inductionHypothesis]
    exact more

/-- A part without line ends stands in a text just if it stands in one of its lines. -/
theorem infix_iff_of_lines (noFeed : '\n' ∉ part) (text : List Char) :
    part <:+: text ↔ ∃ line ∈ lines text, part <:+: line := by
  have plain : ∀ character ∈ part, ¬ (character == '\n') := by
    intro character member feed
    exact noFeed (eq_of_beq feed ▸ member)
  rw [lines, infix_closeLines_iff present noReturn, cutAtLineFeeds_eq,
    infix_iff_of_cutAtEach plain]

end

end MigrationGuard.Text
