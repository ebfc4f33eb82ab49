/-
This file says what a search in a text finds: whether a part occurs and what
stands behind its last occurrence, where a longest beginning of one kind ends,
what a known start or finish leaves over, and what stands around a separator. It
also says what trimming leaves of a text and when joined texts can be told apart.
The searches are recursions over the characters of a text, and each is described
here once by how the text is put together around what is found, in terms of
prefixes, parts and appended texts. The later files need nothing else: identities
that are cut at a separator, names that are read back from paths, signatures with
an arrow in them and messages with a word in them are all decided by these
descriptions. Where a text could be put together in two ways, a mark that occurs
in only one of the pieces tells them apart.
-/

import Mathlib.Data.List.Infix
import MigrationGuard.Text.Search

namespace MigrationGuard.Text

/-! ### Occurrence -/

theorem occursIn_iff {needle text : List Char} :
    occursIn needle text ↔ needle <:+: text := by
  induction text with
  | nil => rw [occursIn, List.isEmpty_iff, List.infix_nil]
  | cons character rest inductionHypothesis =>
    rw [occursIn, Bool.or_eq_true, inductionHypothesis, List.isPrefixOf_iff_prefix,
      List.infix_cons_iff]

theorem occursIn_singleton (character : Char) (text : List Char) :
    occursIn [character] text ↔ character ∈ text := by
  rw [occursIn_iff, List.singleton_infix_iff]

/-! ### Longest runs -/

section
variable {Item : Type} {isKind : Item → Bool} {items run rest : List Item}

/-- Characters, or lines, are cut behind their longest beginning of one kind: only such ones stand
before the cut, and the next one is of another kind. -/
theorem cut_iff : items.takeWhile isKind = run ∧ items.dropWhile isKind = rest ↔
    items = run ++ rest ∧ (∀ item ∈ run, isKind item) ∧ ∀ next ∈ rest.head?, ¬isKind next := by
  constructor
  · rintro ⟨rfl, rfl⟩
    refine ⟨List.takeWhile_append_dropWhile.symm, fun item among => ?_, fun next isNext => ?_⟩
    · exact List.all_eq_true.mp List.all_takeWhile item among
    · have stopped := List.head?_dropWhile_not isKind items
      rw [Option.mem_def.mp isNext] at stopped
      rw [stopped]
      exact Bool.false_ne_true
  · rintro ⟨rfl, kind, ends⟩
    rw [List.takeWhile_append_of_pos kind, List.dropWhile_append_of_pos kind]
    cases rest with
    | nil => exact ⟨List.append_nil _, rfl⟩
    | cons next others =>
      rw [List.takeWhile_cons_of_neg (ends next rfl), List.dropWhile_cons_of_neg (ends next rfl),
        List.append_nil]
      exact ⟨rfl, rfl⟩

theorem cut_spec (isKind : Item → Bool) (items : List Item) :
    items = items.takeWhile isKind ++ items.dropWhile isKind ∧
      (∀ item ∈ items.takeWhile isKind, isKind item) ∧
      ∀ next ∈ (items.dropWhile isKind).head?, ¬isKind next :=
  cut_iff.mp ⟨rfl, rfl⟩

end

/-! ### Starts and finishes -/

theorem dropStart_eq_some_iff (start text rest : String) :
    dropStart start text = some rest ↔ text = start ++ rest := by
  unfold dropStart
  constructor
  · intro dropped
    split at dropped
    · rename_i begins
      obtain ⟨behind, split⟩ := List.isPrefixOf_iff_prefix.mp begins
      rw [← Option.some.inj dropped, ← String.toList_inj, String.toList_append,
        String.toList_ofList, ← split, ← String.length_toList, List.drop_left]
    · exact nomatch dropped
  · intro split
    have begins : start.toList.isPrefixOf text.toList :=
      List.isPrefixOf_iff_prefix.mpr ⟨rest.toList, by rw [split, String.toList_append]⟩
    rw [if_pos begins, split, String.toList_append, ← String.length_toList, List.drop_left,
      String.ofList_toList]

theorem dropStart_append (start rest : String) : dropStart start (start ++ rest) = some rest :=
  (dropStart_eq_some_iff _ _ _).mpr rfl

theorem dropFinish_append (text finish : String) :
    dropFinish finish (text ++ finish) = some text := by
  have ends : endsWith (text ++ finish) finish := by
    rw [endsWith, List.isPrefixOf_iff_prefix, String.toList_append, List.reverse_append]
    exact List.prefix_append _ _
  rw [dropFinish, if_pos ends, String.length_append, Nat.add_sub_cancel, String.toList_append,
    ← String.length_toList, List.take_left, String.ofList_toList]

/-! ### Separators -/

theorem cutAtLast_of_not_mem {separator : Char} {text : List Char} (absent : separator ∉ text) :
    cutAtLast separator text = none := by
  induction text with
  | nil => rfl
  | cons first rest inductionHypothesis =>
    rw [List.mem_cons, not_or] at absent
    rw [cutAtLast, inductionHypothesis absent.2]
    exact if_neg (Ne.symm absent.1)

theorem cutAtLast_append {separator : Char} {back : List Char} (absent : separator ∉ back)
    (front : List Char) :
    cutAtLast separator (front ++ separator :: back) = some (front, back) := by
  induction front with
  | nil =>
    rw [List.nil_append, cutAtLast, cutAtLast_of_not_mem absent]
    exact if_pos rfl
  | cons first front inductionHypothesis => rw [List.cons_append, cutAtLast, inductionHypothesis]

theorem eq_of_cutAtLast {separator : Char} {text front back : List Char}
    (cut : cutAtLast separator text = some (front, back)) :
    text = front ++ separator :: back ∧ separator ∉ back := by
  by_cases occurs : separator ∈ text
  · obtain ⟨behind, before, reversed, absent⟩ :=
      List.eq_append_cons_of_mem (List.mem_reverse.mpr occurs)
    have whole : text = before.reverse ++ separator :: behind.reverse := by
      rw [← List.reverse_reverse text, reversed]
      simp
    have plain : separator ∉ behind.reverse := by rwa [List.mem_reverse]
    rw [whole, cutAtLast_append plain, Option.some.injEq, Prod.mk.injEq] at cut
    obtain ⟨rfl, rfl⟩ := cut
    exact ⟨whole, plain⟩
  · rw [cutAtLast_of_not_mem occurs] at cut
    cases cut

/-! ### The last occurrence -/

section
variable {needle text behind more : List Char} {mark : Char}

theorem behindLastText_eq_none_iff :
    behindLastText needle text = none ↔ ¬ needle <:+: text := by
  induction text with
  | nil =>
    rw [behindLastText, List.infix_nil, ← List.isEmpty_iff]
    cases needle.isEmpty <;> simp
  | cons character rest inductionHypothesis =>
    rw [behindLastText, List.infix_cons_iff, ← List.isPrefixOf_iff_prefix]
    cases found : behindLastText needle rest with
    | some behind =>
      have occurs : needle <:+: rest := by
        by_contra absent
        rw [inductionHypothesis.mpr absent] at found
        exact nomatch found
      simp [occurs]
    | none =>
      have absent := inductionHypothesis.mp found
      simp [absent]

/-- Behind its last occurrence a text does not occur again, not even in part of what was found. -/
theorem not_infix_of_behindLastText (present : needle ≠ [])
    (found : behindLastText needle text = some behind) : ¬ needle <:+: behind := by
  induction text with
  | nil =>
    rw [behindLastText, if_neg (mt List.isEmpty_iff.mp present)] at found
    exact nomatch found
  | cons character rest inductionHypothesis =>
    rw [behindLastText] at found
    split at found
    · rename_i foundLater
      exact inductionHypothesis (Option.some.inj found ▸ foundLater)
    · rename_i absent
      split at found
      · -- What stands behind the front is a part of the rest, in which the text does not occur.
        obtain ⟨first, others, rfl⟩ := List.exists_cons_of_ne_nil present
        obtain rfl := Option.some.inj found
        rw [List.length_cons, List.drop_succ_cons]
        exact fun occurs => behindLastText_eq_none_iff.mp absent
          (occurs.trans (List.drop_suffix _ _).isInfix)
      · exact nomatch found

theorem prefix_append_mark_iff (foreign : mark ∉ needle) :
    needle <+: text ++ mark :: more ↔ needle <+: text := by
  refine ⟨fun begins => ?_, fun begins => begins.trans (List.prefix_append _ _)⟩
  have marked : text ++ [mark] <+: text ++ mark :: more :=
    (List.prefix_append_right_inj text).mpr ⟨more, rfl⟩
  -- Either the needle is over before the mark, or it reaches the mark and holds it.
  obtain within | beyond := List.prefix_or_prefix_of_prefix begins marked
  · refine (List.prefix_concat_iff.mp within).resolve_left ?_
    rintro rfl
    exact foreign (List.mem_append_right _ List.mem_cons_self)
  · exact absurd (beyond.subset (List.mem_append_right _ List.mem_cons_self)) foreign

/-- What is added behind a mark does not change the last occurrence if it has none itself. -/
theorem behindLastText_append_mark (present : needle ≠ []) (foreign : mark ∉ needle)
    (free : ¬ needle <:+: more) (text : List Char) :
    behindLastText needle (text ++ mark :: more) =
      (behindLastText needle text).map (· ++ mark :: more) := by
  have begins : ∀ text, needle.isPrefixOf (text ++ mark :: more) = needle.isPrefixOf text := by
    intro text
    rw [Bool.eq_iff_iff, List.isPrefixOf_iff_prefix, List.isPrefixOf_iff_prefix,
      prefix_append_mark_iff foreign]
  induction text with
  | nil =>
    rw [behindLastText, if_neg (mt List.isEmpty_iff.mp present), List.nil_append, Option.map_none,
      behindLastText_eq_none_iff, List.infix_cons_iff, not_or, ← List.nil_append (mark :: more),
      prefix_append_mark_iff foreign]
    exact ⟨mt List.prefix_nil.mp present, free⟩
  | cons character rest inductionHypothesis =>
    rw [List.cons_append, behindLastText, behindLastText, inductionHypothesis,
      ← List.cons_append, begins]
    cases behindLastText needle rest with
    | some behind => rfl
    | none =>
      by_cases found : needle.isPrefixOf (character :: rest)
      · have short := (List.isPrefixOf_iff_prefix.mp found).length_le
        simp only [Option.map_none, if_pos found, Option.map_some,
          List.drop_append_of_le_length short]
      · simp only [Option.map_none, if_neg found]

end

/-! ### Doubled characters -/

section
variable {character : Char} {text rest : List Char}

/-- A doubled character that the front has not does not begin there either, unless its halves stand
on both sides of the cut. -/
theorem no_pair_begins {first : Char} (free : ¬ [character, character] <:+: first :: text)
    (apart : (first :: text).getLast? ≠ some character ∨ rest.head? ≠ some character) :
    ¬ [character, character] <+: first :: (text ++ rest) := by
  intro found
  obtain ⟨isFirst, found⟩ := List.cons_prefix_cons.mp found
  cases text with
  | nil =>
    refine apart.elim (fun other => other (congrArg some isFirst.symm)) fun other => other ?_
    obtain ⟨behind, rfl⟩ := found
    rfl
  | cons second others =>
    obtain ⟨isSecond, -⟩ := List.cons_prefix_cons.mp found
    exact free (isFirst ▸ isSecond ▸ (List.prefix_append _ _).isInfix)

theorem no_pair_in_append (free : ¬ [character, character] <:+: text)
    (freeToo : ¬ [character, character] <:+: rest)
    (apart : text.getLast? ≠ some character ∨ rest.head? ≠ some character) :
    ¬ [character, character] <:+: text ++ rest := by
  induction text with
  | nil => exact freeToo
  | cons first others inductionHypothesis =>
    rw [List.cons_append, List.infix_cons_iff, not_or]
    refine ⟨no_pair_begins free apart, ?_⟩
    cases others with
    | nil => exact freeToo
    | cons second more =>
      rw [List.getLast?_cons_cons] at apart
      exact inductionHypothesis (fun found => free (List.infix_cons found)) apart

/-- A doubled character is first found where a text ends that has none in it. The text must not end
with the character, for that would be taken together with what follows. -/
theorem beforeText_append (free : ¬ [character, character] <:+: text)
    (apart : text.getLast? ≠ some character)
    (stops : rest = [] ∨ [character, character] <+: rest) :
    beforeText [character, character] (text ++ rest) = text := by
  induction text with
  | nil =>
    rcases stops with rfl | ⟨behind, rfl⟩
    · rfl
    · exact if_pos (List.isPrefixOf_iff_prefix.mpr (List.prefix_append _ _))
  | cons first others inductionHypothesis =>
    have later : ¬ [character, character] <+: first :: (others ++ rest) :=
      no_pair_begins free (.inl apart)
    have apartToo : others.getLast? ≠ some character := by
      cases others with
      | nil => exact nofun
      | cons second more => rwa [List.getLast?_cons_cons] at apart
    rw [List.cons_append, beforeText, if_neg (mt List.isPrefixOf_iff_prefix.mp later),
      inductionHypothesis (fun found => free (List.infix_cons found)) apartToo]

end

/-! ### Pieces -/

section
variable {separates : Char → Bool}

theorem cutAtEach_ne_nil (text : List Char) : cutAtEach separates text ≠ [] := by
  cases text with
  | nil => exact List.cons_ne_nil _ _
  | cons character rest =>
    rw [cutAtEach]
    split
    · exact List.cons_ne_nil _ _
    · split <;> exact List.cons_ne_nil _ _

theorem cutAtEach_append {separator : Char} (separated : separates separator)
    (front back : List Char) :
    cutAtEach separates (front ++ separator :: back) =
      cutAtEach separates front ++ cutAtEach separates back := by
  induction front with
  | nil =>
    rw [List.nil_append, cutAtEach.eq_2, if_pos separated]
    rfl
  | cons character front inductionHypothesis =>
    rw [List.cons_append, cutAtEach, cutAtEach]
    split
    · rw [inductionHypothesis, List.cons_append]
    · obtain ⟨piece, pieces, cut⟩ :=
        List.exists_cons_of_ne_nil (cutAtEach_ne_nil front : cutAtEach separates front ≠ [])
      rw [inductionHypothesis, cut]
      rfl

theorem cutAtEach_of_none {text : List Char} (none : ∀ character ∈ text, ¬ separates character) :
    cutAtEach separates text = [text] := by
  induction text with
  | nil => rfl
  | cons character rest inductionHypothesis =>
    rw [cutAtEach, if_neg (none character List.mem_cons_self),
      inductionHypothesis fun other member => none other (List.mem_cons_of_mem _ member)]

theorem sublist_of_mem_cutAtEach {text piece : List Char}
    (member : piece ∈ cutAtEach separates text) : piece.Sublist text := by
  induction text generalizing piece with
  | nil =>
    obtain rfl := List.mem_singleton.mp member
    exact List.Sublist.slnil
  | cons character rest inductionHypothesis =>
    obtain ⟨first, others, cut⟩ :=
      List.exists_cons_of_ne_nil (cutAtEach_ne_nil rest : cutAtEach separates rest ≠ [])
    rw [cut] at inductionHypothesis
    rw [cutAtEach, cut] at member
    split at member
    · rcases List.mem_cons.mp member with rfl | member
      · exact List.nil_sublist _
      · exact (inductionHypothesis member).cons _
    · rcases List.mem_cons.mp member with rfl | member
      · exact (inductionHypothesis List.mem_cons_self).cons_cons _
      · exact (inductionHypothesis (List.mem_cons_of_mem _ member)).cons _

theorem not_separates_of_mem_cutAtEach {text piece : List Char} {character : Char}
    (member : piece ∈ cutAtEach separates text) (inside : character ∈ piece) :
    ¬ separates character := by
  induction text generalizing piece with
  | nil =>
    rw [List.mem_singleton.mp member] at inside
    exact nomatch inside
  | cons first rest inductionHypothesis =>
    obtain ⟨next, others, cut⟩ :=
      List.exists_cons_of_ne_nil (cutAtEach_ne_nil rest : cutAtEach separates rest ≠ [])
    rw [cut] at inductionHypothesis
    rw [cutAtEach, cut] at member
    split at member
    · rcases List.mem_cons.mp member with rfl | member
      · exact nomatch inside
      · exact inductionHypothesis member inside
    · rename_i plain
      rcases List.mem_cons.mp member with rfl | member
      · rcases List.mem_cons.mp inside with rfl | inside
        · exact plain
        · exact inductionHypothesis List.mem_cons_self inside
      · exact inductionHypothesis (List.mem_cons_of_mem _ member) inside

/-- Behind its last separator a text has its last piece, which holds no separator. -/
theorem getLast?_cutAtEach {folder file : List Char}
    (closed : folder = [] ∨ ∃ front separator, separates separator ∧ folder = front ++ [separator])
    (whole : ∀ character ∈ file, ¬ separates character) :
    (cutAtEach separates (folder ++ file)).getLast? = some file := by
  rcases closed with rfl | ⟨front, separator, separated, rfl⟩
  · rw [List.nil_append, cutAtEach_of_none whole, List.getLast?_singleton]
  · rw [List.append_assoc, List.singleton_append, cutAtEach_append separated,
      cutAtEach_of_none whole, List.getLast?_concat]

end

/-! ### Trimmed texts -/

section
variable {mark : Char} (plain : isBlank mark = false) (front behind : List Char)
include plain

theorem trimStart_append_mark :
    trimStart (front ++ mark :: behind) = trimStart front ++ mark :: behind := by
  rw [trimStart, trimStart, List.dropWhile_append]
  split
  · rename_i none
    rw [List.dropWhile_cons_of_neg (by simp [plain]), List.isEmpty_iff.mp none, List.nil_append]
  · rfl

theorem trimEnd_append_mark :
    trimEnd (front ++ mark :: behind) = front ++ mark :: trimEnd behind := by
  have back := trimStart_append_mark plain behind.reverse front.reverse
  rw [trimStart, trimStart] at back
  rw [trimEnd, trimEnd, List.reverse_append, List.reverse_cons, List.append_assoc,
    List.singleton_append, back, List.reverse_append, List.reverse_cons, List.reverse_reverse,
    List.append_assoc, List.singleton_append]

/-- Blanks are dropped on both sides of a mark alone, as the mark is no blank. -/
theorem trim_append_mark :
    trim (front ++ mark :: behind) = trimStart front ++ mark :: trimEnd behind := by
  rw [trim, trimStart_append_mark plain, trimEnd_append_mark plain]

end

theorem trimEnd_prefix_self (text : List Char) : trimEnd text <+: text := by
  rw [← List.reverse_suffix, trimEnd, List.reverse_reverse]
  exact List.dropWhile_suffix _

theorem trim_infix_self (text : List Char) : trim text <:+: text :=
  (trimEnd_prefix_self _).isInfix.trans (List.dropWhile_suffix _).isInfix

/-! ### Joined texts -/

theorem not_mem_joined {separator : String} {character : Char} {texts : List String}
    (foreign : character ∉ separator.toList) (free : ∀ text ∈ texts, character ∉ text.toList) :
    character ∉ (joined separator texts).toList := by
  induction texts with
  | nil => exact List.not_mem_nil
  | cons text others inductionHypothesis =>
    have first := free text List.mem_cons_self
    have later := inductionHypothesis fun other among => free other (List.mem_cons_of_mem _ among)
    rw [joined] at later ⊢
    cases others with
    | nil => rwa [String.intercalate_singleton]
    | cons next rest =>
      rw [String.intercalate_cons_cons, String.toList_append, String.toList_append,
        List.mem_append, List.mem_append]
      exact fun member => member.elim (·.elim first foreign) later

/-- Texts without the separator are told apart when they are joined, if none of them is empty. -/
theorem joined_inj {separator : Char} {texts others : List String}
    (free : ∀ text ∈ texts, separator ∉ text.toList)
    (freeToo : ∀ text ∈ others, separator ∉ text.toList) (present : "" ∉ texts)
    (presentToo : "" ∉ others)
    (same : joined (String.singleton separator) texts =
      joined (String.singleton separator) others) : texts = others := by
  have cut := String.toList_split_intercalate free
  rw [← joined, same, joined, String.toList_split_intercalate freeToo] at cut
  split_ifs at cut with none noneToo
  · rw [none, noneToo]
  · exact absurd (cut ▸ List.mem_singleton_self "") present
  · exact absurd (cut ▸ List.mem_singleton_self "") presentToo
  · exact cut.symm

end MigrationGuard.Text
