/-
This file says where the code of a line ends. Literals are read off a text from
the left: a quote opens one, and the next quote of the same kind closes it unless
a backslash takes that quote with it. A literal that is not closed goes on to the
end. The code of a line is its longest beginning in which every number sign stands
within a literal, so it depends on nothing behind the first number sign that does
not. Where a character stands is told by what is before it, as all literals there
are closed or the last one is open, and never both. The scan keeps this in three
states, and reading a text from one of them leads to the state that tells how it
ends; this connects the states with the grammar of literals. All that is said
about cutting then follows from where the first number sign stands that is read
outside of literals.
-/

import Mathlib.Data.List.Induction
import MigrationGuard.Source.LineScanner

namespace MigrationGuard.LineScanner

/-! ### Literals -/

/-- A character that opens a literal, of either of the two kinds. -/
def OpensLiteral (character : Char) : Prop :=
  character = '"' ∨ character = '\''

instance (character : Char) : Decidable (OpensLiteral character) :=
  inferInstanceAs (Decidable (_ ∨ _))

/-- A text can stand within a literal up to its closing quote: a backslash takes the next character
with it, and no other character is the quote. -/
inductive LiteralBody (quote : Char) : List Char → Prop where
  /-- Nothing stands there. -/
  | nil : LiteralBody quote []
  /-- A character stands for itself. -/
  | character {character : Char} {rest : List Char} (noQuote : character ≠ quote)
    (noBackslash : character ≠ '\\') (body : LiteralBody quote rest) :
    LiteralBody quote (character :: rest)
  /-- A backslash takes the next character with it. -/
  | escape {character : Char} {rest : List Char} (body : LiteralBody quote rest) :
    LiteralBody quote ('\\' :: character :: rest)

/-- The literals of a text are all closed, so that the next character stands outside of them. -/
inductive IsClosed : List Char → Prop where
  /-- There is none. -/
  | nil : IsClosed []
  /-- A character that opens no literal. -/
  | character {character : Char} {rest : List Char} (plain : ¬ OpensLiteral character)
    (closed : IsClosed rest) : IsClosed (character :: rest)
  /-- A literal between its quotes. -/
  | literal {quote : Char} {body rest : List Char} (opens : OpensLiteral quote)
    (isBody : LiteralBody quote body) (closed : IsClosed rest) :
    IsClosed (quote :: (body ++ quote :: rest))

/-- The last literal of a text is not closed, so that the next character stands within it. -/
inductive IsOpen : List Char → Prop where
  /-- The quote closes it, if it comes next. -/
  | body {before body : List Char} {quote : Char} (closed : IsClosed before)
    (opens : OpensLiteral quote) (isBody : LiteralBody quote body) :
    IsOpen (before ++ quote :: body)
  /-- A backslash takes the next character with it. -/
  | escape {before body : List Char} {quote : Char} (closed : IsClosed before)
    (opens : OpensLiteral quote) (isBody : LiteralBody quote body) :
    IsOpen (before ++ quote :: (body ++ ['\\']))

/-- No number sign of a text stands outside a literal, so all of it is code. -/
def HasNoComment (text : List Char) : Prop :=
  ∀ before behind, text = before ++ '#' :: behind → ¬ IsClosed before

/-- Every number sign of a text stands within a literal that is open there. -/
def AllQuoted (text : List Char) : Prop :=
  ∀ before behind, text = before ++ '#' :: behind → IsOpen before

/-- A text is the code of a line: the longest beginning without a comment, which there is just one
of. -/
structure IsCodeOf (line code : List Char) : Prop where
  /-- The line begins with it. -/
  begins : code <+: line
  /-- There is no comment in it. -/
  plain : HasNoComment code
  /-- It goes on as far as any beginning without a comment. -/
  longest : ∀ other, other <+: line → HasNoComment other → other <+: code

theorem OpensLiteral.ne_backslash {quote : Char} (opens : OpensLiteral quote) : quote ≠ '\\' := by
  rcases opens with rfl | rfl <;> decide

theorem LiteralBody.append {quote : Char} {body rest : List Char} (isBody : LiteralBody quote body)
    (isBodyToo : LiteralBody quote rest) : LiteralBody quote (body ++ rest) := by
  induction isBody with
  | nil => exact isBodyToo
  | character noQuote noBackslash _ inductionHypothesis =>
    exact .character noQuote noBackslash inductionHypothesis
  | escape _ inductionHypothesis => exact .escape inductionHypothesis

theorem IsClosed.append {text rest : List Char} (closed : IsClosed text)
    (closedToo : IsClosed rest) : IsClosed (text ++ rest) := by
  induction closed with
  | nil => exact closedToo
  | character plain _ inductionHypothesis => exact .character plain inductionHypothesis
  | literal opens isBody _ inductionHypothesis =>
    rw [List.cons_append, List.append_assoc, List.cons_append]
    exact .literal opens isBody inductionHypothesis

/-- Behind a text whose literals are closed comes a character. -/
theorem IsClosed.concat {text : List Char} (closed : IsClosed text) (character : Char) :
    IsClosed (text ++ [character]) ∨ IsOpen (text ++ [character]) := by
  by_cases opens : OpensLiteral character
  · exact .inr (.body closed opens .nil)
  · exact .inl (closed.append (.character opens .nil))

/-- Behind a text whose last literal is not closed comes a character. -/
theorem IsOpen.concat {text : List Char} (isOpen : IsOpen text) (character : Char) :
    IsClosed (text ++ [character]) ∨ IsOpen (text ++ [character]) := by
  cases isOpen with
  | @body before body quote closed opens isBody =>
    rw [List.append_assoc, List.cons_append]
    -- The character takes the next one with it, closes the literal or stands for itself.
    by_cases backslash : character = '\\'
    · subst backslash
      exact .inr (.escape closed opens isBody)
    · by_cases closes : character = quote
      · subst closes
        exact .inl (closed.append (.literal opens isBody .nil))
      · exact .inr (.body closed opens (isBody.append (.character closes backslash .nil)))
  | @escape before body quote closed opens isBody =>
    rw [List.append_assoc, List.cons_append, List.append_assoc]
    exact .inr (.body closed opens (isBody.append (.escape .nil)))

/-- The literals of a text are all closed, or the last one is not. -/
theorem isClosed_or_isOpen (text : List Char) : IsClosed text ∨ IsOpen text := by
  induction text using List.reverseRecOn with
  | nil => exact .inl .nil
  | append_singleton text character inductionHypothesis =>
    exact inductionHypothesis.elim (·.concat character) (·.concat character)

/-! ### Reading from the left -/

/-- Where the next character of a text stands, which is all that the scan remembers. -/
inductive Standing where
  /-- It stands outside of literals. -/
  | outside
  /-- It stands within a literal that is open. -/
  | inside (quote : Char)
  /-- It stands within a literal, behind a backslash. -/
  | escaped (quote : Char)
  deriving DecidableEq

namespace Standing

/-- A character is read, and the next one may stand elsewhere. -/
def next : Standing → Char → Standing
  | outside, character => if OpensLiteral character then inside character else outside
  | inside quote, character =>
    if character = '\\' then escaped quote else if character = quote then outside else inside quote
  | escaped quote, _ => inside quote

/-- The part of a text before its comment, where its first character stands as given. -/
def code : Standing → List Char → List Char
  | outside => codeFrom none false
  | inside quote => codeFrom (some quote) false
  | escaped quote => codeFrom (some quote) true

theorem code_nil (standing : Standing) : standing.code [] = [] := by
  cases standing <;> rw [code, codeFrom]

/-- A number sign outside of literals ends the code, and any other character belongs to it. -/
theorem code_cons (standing : Standing) (character : Char) (rest : List Char) :
    standing.code (character :: rest) =
      if standing = outside ∧ character = '#' then []
      else character :: (standing.next character).code rest := by
  cases standing with
  | outside =>
    by_cases opens : OpensLiteral character
    · have noSign : character ≠ '#' := by rcases opens with rfl | rfl <;> decide
      rw [if_neg fun ends => noSign ends.2, next, if_pos opens]
      exact if_pos opens
    · rw [next, if_neg opens]
      simp only [true_and]
      exact if_neg opens
  | inside quote =>
    simp only [code, codeFrom, next, reduceCtorEq, false_and, if_false]
    split_ifs <;> rfl
  | escaped quote => simp [code, codeFrom, next]

/-- No number sign of a text is read outside of literals, where reading begins as given. -/
def Quotes (standing : Standing) (text : List Char) : Prop :=
  ∀ before behind, text = before ++ '#' :: behind → before.foldl next standing ≠ outside

theorem quotes_nil (standing : Standing) : standing.Quotes [] := by
  intro before behind split
  exact absurd split (by simp)

theorem quotes_cons_iff {standing : Standing} {character : Char} {rest : List Char} :
    standing.Quotes (character :: rest) ↔
      ¬ (standing = outside ∧ character = '#') ∧ (standing.next character).Quotes rest := by
  constructor
  · intro quotes
    refine ⟨?_, fun before behind split => ?_⟩
    · rintro ⟨isOutside, rfl⟩
      exact quotes [] rest rfl isOutside
    · exact quotes (character :: before) behind (congrArg (character :: ·) split)
  · rintro ⟨first, others⟩ before behind split
    cases before with
    | nil =>
      obtain ⟨rfl, rfl⟩ := List.cons.inj split
      exact fun isOutside => first ⟨isOutside, rfl⟩
    | cons head before =>
      obtain ⟨rfl, rfl⟩ := List.cons.inj split
      exact others before behind rfl

instance decidableQuotes : (standing : Standing) → (text : List Char) →
    Decidable (standing.Quotes text)
  | standing, [] => isTrue (quotes_nil standing)
  | standing, character :: rest =>
    have := decidableQuotes (standing.next character) rest
    decidable_of_iff _ quotes_cons_iff.symm

theorem code_prefix_self (standing : Standing) (text : List Char) :
    standing.code text <+: text := by
  induction text generalizing standing with
  | nil => simp only [code_nil, List.nil_prefix]
  | cons character rest inductionHypothesis =>
    rw [code_cons]
    split
    · exact List.nil_prefix
    · exact (List.prefix_cons_inj character).mpr (inductionHypothesis _)

theorem quotes_code (standing : Standing) (text : List Char) :
    standing.Quotes (standing.code text) := by
  induction text generalizing standing with
  | nil =>
    rw [code_nil]
    exact quotes_nil standing
  | cons character rest inductionHypothesis =>
    rw [code_cons]
    split
    · exact quotes_nil standing
    · rename_i goesOn
      exact quotes_cons_iff.mpr ⟨goesOn, inductionHypothesis _⟩

/-- A text without a number sign outside of literals is code, and what is read behind it depends on
where it ends. -/
theorem code_append {standing : Standing} {front : List Char} (quotes : standing.Quotes front)
    (rest : List Char) :
    standing.code (front ++ rest) = front ++ (front.foldl next standing).code rest := by
  induction front generalizing standing with
  | nil => rfl
  | cons character front inductionHypothesis =>
    obtain ⟨first, others⟩ := quotes_cons_iff.mp quotes
    rw [List.cons_append, code_cons, if_neg first, inductionHypothesis others]
    rfl

theorem code_of_quotes {standing : Standing} {text : List Char} (quotes : standing.Quotes text) :
    standing.code text = text := by
  have whole := code_append quotes []
  rwa [code_nil, List.append_nil] at whole

/-- There is no code just where the text is over or a number sign stands outside of literals. -/
theorem code_eq_nil_iff {standing : Standing} {text : List Char} :
    standing.code text = [] ↔ text = [] ∨ standing = outside ∧ ∃ behind, text = '#' :: behind := by
  cases text with
  | nil => exact iff_of_true (code_nil standing) (.inl rfl)
  | cons character rest =>
    rw [code_cons]
    split
    · rename_i ends
      exact iff_of_true rfl (.inr ⟨ends.1, rest, congrArg (· :: rest) ends.2⟩)
    · rename_i goesOn
      refine iff_of_false (List.cons_ne_nil _ _) ?_
      rintro (none | ⟨isOutside, behind, sign⟩)
      · exact List.cons_ne_nil _ _ none
      · exact goesOn ⟨isOutside, (List.cons.inj sign).1⟩

/-! ### What was read -/

theorem foldl_next_of_literalBody {quote : Char} {body : List Char}
    (isBody : LiteralBody quote body) : body.foldl next (inside quote) = inside quote := by
  induction isBody with
  | nil => rfl
  | character noQuote noBackslash _ inductionHypothesis =>
    rwa [List.foldl_cons, next, if_neg noBackslash, if_neg noQuote]
  | escape _ inductionHypothesis => exact inductionHypothesis

theorem foldl_next_of_isClosed {text : List Char} (closed : IsClosed text) :
    text.foldl next outside = outside := by
  induction closed with
  | nil => rfl
  | character plain _ inductionHypothesis => rwa [List.foldl_cons, next, if_neg plain]
  | literal opens isBody _ inductionHypothesis =>
    rwa [List.foldl_cons, next, if_pos opens, List.foldl_append, foldl_next_of_literalBody isBody,
      List.foldl_cons, next, if_neg opens.ne_backslash, if_pos rfl]

theorem foldl_next_of_opened {before body : List Char} {quote : Char} (closed : IsClosed before)
    (opens : OpensLiteral quote) (isBody : LiteralBody quote body) :
    (before ++ quote :: body).foldl next outside = inside quote := by
  rw [List.foldl_append, foldl_next_of_isClosed closed, List.foldl_cons, next, if_pos opens,
    foldl_next_of_literalBody isBody]

theorem foldl_next_of_isOpen {text : List Char} (isOpen : IsOpen text) :
    text.foldl next outside ≠ outside := by
  cases isOpen with
  | body closed opens isBody =>
    rw [foldl_next_of_opened closed opens isBody]
    exact nofun
  | escape closed opens isBody =>
    rw [← List.cons_append, ← List.append_assoc, List.foldl_append,
      foldl_next_of_opened closed opens isBody]
    exact nofun

end Standing

/-- The next character stands outside of literals just if all literals are closed. -/
theorem isClosed_iff {text : List Char} :
    IsClosed text ↔ text.foldl Standing.next .outside = .outside :=
  ⟨Standing.foldl_next_of_isClosed, fun isOutside => (isClosed_or_isOpen text).resolve_right
    fun isOpen => Standing.foldl_next_of_isOpen isOpen isOutside⟩

instance (text : List Char) : Decidable (IsClosed text) :=
  decidable_of_iff _ isClosed_iff.symm

/-- No text is read in two ways: its literals are all closed, or its last one is open. -/
theorem isOpen_iff_not_isClosed {text : List Char} : IsOpen text ↔ ¬ IsClosed text := by
  refine ⟨fun isOpen closed => ?_, (isClosed_or_isOpen text).resolve_left⟩
  exact Standing.foldl_next_of_isOpen isOpen (isClosed_iff.mp closed)

instance (text : List Char) : Decidable (IsOpen text) :=
  decidable_of_iff _ isOpen_iff_not_isClosed.symm

/-- Behind a backslash a quote closes nothing. -/
example : IsClosed "'it's".toList ∧ IsOpen "'it\\'s".toList := by
  decide

theorem quotes_outside_iff {text : List Char} :
    Standing.outside.Quotes text ↔ HasNoComment text := by
  simp only [Standing.Quotes, HasNoComment, ne_eq, isClosed_iff]

/-- A number sign that does not stand outside a literal stands within one. -/
theorem allQuoted_iff {text : List Char} : AllQuoted text ↔ HasNoComment text := by
  simp only [AllQuoted, HasNoComment, isOpen_iff_not_isClosed]

instance (text : List Char) : Decidable (AllQuoted text) :=
  decidable_of_iff _ (quotes_outside_iff.trans allQuoted_iff.symm)

/-! ### The code of a line -/

theorem quotes_stripComment (line : List Char) : Standing.outside.Quotes (stripComment line) :=
  Standing.quotes_code .outside line

theorem isCodeOf_stripComment (line : List Char) : IsCodeOf line (stripComment line) where
  begins := Standing.code_prefix_self .outside line
  plain := quotes_outside_iff.mp (quotes_stripComment line)
  longest other begins plain := by
    obtain ⟨rest, rfl⟩ := begins
    exact ⟨_, (Standing.code_append (quotes_outside_iff.mpr plain) rest).symm⟩

/-- What is cut off begins with a number sign, behind which any text might stand. -/
theorem stripComment_eq_self_or_cuts (line : List Char) :
    stripComment line = line ∨ ∃ behind, line = stripComment line ++ '#' :: behind ∧
      ∀ others, stripComment (stripComment line ++ '#' :: others) = stripComment line := by
  obtain ⟨rest, whole⟩ : ∃ rest, stripComment line ++ rest = line :=
    Standing.code_prefix_self .outside line
  have behindCode : ∀ rest, stripComment (stripComment line ++ rest) = stripComment line ++ _ :=
    Standing.code_append (quotes_stripComment line)
  have ends : ((stripComment line).foldl Standing.next .outside).code rest = [] := by
    refine List.self_eq_append_right.mp (Eq.trans ?_ (behindCode rest))
    rw [whole]
  obtain rfl | ⟨isOutside, behind, rfl⟩ := Standing.code_eq_nil_iff.mp ends
  · exact .inl ((List.append_nil _).symm.trans whole)
  · refine .inr ⟨behind, whole.symm, fun others => ?_⟩
    rw [behindCode, Standing.code_eq_nil_iff.mpr (.inr ⟨isOutside, others, rfl⟩), List.append_nil]

/-- Without its comment a line is its longest beginning in which no number sign stands outside a
literal. Nothing more is cut off from what is left, and nothing at all where the number signs are
all quoted. The comment has no influence on what stands before it. -/
theorem stripComment_keepsCode (line : List Char) :
    IsCodeOf line (stripComment line) ∧
    stripComment (stripComment line) = stripComment line ∧
    (AllQuoted line → stripComment line = line) ∧
    (stripComment line = line ∨ ∃ behind, line = stripComment line ++ '#' :: behind ∧
      ∀ others, stripComment (stripComment line ++ '#' :: others) = stripComment line) ∧
    ∀ others, stripComment line <+: stripComment (stripComment line ++ others) := by
  refine ⟨isCodeOf_stripComment line, Standing.code_of_quotes (quotes_stripComment line),
    fun quoted => ?_, stripComment_eq_self_or_cuts line, fun others => ?_⟩
  · exact Standing.code_of_quotes (quotes_outside_iff.mpr (allQuoted_iff.mp quoted))
  · exact ⟨_, (Standing.code_append (quotes_stripComment line) others).symm⟩

/-- A line with number signs in literals of both kinds, the last of which is not closed. -/
def quotedLine : List Char :=
  "say('it\\'s #1', \"#2 'b'".toList

theorem quotedLine_keepsCode : AllQuoted quotedLine ∧ stripComment quotedLine = quotedLine := by
  have quoted : AllQuoted quotedLine := by decide
  exact ⟨quoted, (stripComment_keepsCode quotedLine).2.2.1 quoted⟩

/-- The number sign in the literal is kept, and the one behind it begins the comment. -/
example : stripComment "s = 'it\\'s #1'  # tail".toList = "s = 'it\\'s #1'  ".toList := by
  decide

end MigrationGuard.LineScanner
