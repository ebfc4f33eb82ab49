/-
This file says which numbers of an embedding are finite once it has been brought
to length one: those that were finite before. If the square of the length is
finite, all numbers are, and they are so small that quotients by the length stay
finite. If it is infinite, quotients of finite numbers vanish, and those of
infinite ones are no numbers. So a vector from an answer has numbers that are not
finite just where the answer has numbers that do not fit into singles, and a
hashed embedding has none. Only the range of each step is followed, from the
squares to their sum, the root and the quotients; which single a result is rounded
to does not matter here. Vectors that are too short are not brought to length one
at all, which is what keeps the root away from zero.
-/

import MigrationGuard.Memory.Database
import MigrationGuard.Proofs.Decimal.SingleArithmetic
import MigrationGuard.Proofs.Decimal.Singles
import MigrationGuard.Proofs.Json.Stored

namespace MigrationGuard

open Data Decimal

/-! ### Sums of squares -/

/-- A sum of squares is not negative. If it is finite, each number is below the root of the
limit. -/
theorem sum_of_squares {numbers : Embedding} (areNumbers : ∀ number ∈ numbers, number.isNaN = false)
    {start : Float32} (sign : IsNotNegative start) :
    IsNotNegative (numbers.foldl (fun sum number => sum + number * number) start) ∧
      ((numbers.foldl (fun sum number => sum + number * number) start).isFinite →
        start.isFinite ∧ ∀ number ∈ numbers,
          number.isFinite ∧ magnitude number.toModel.unpack ^ 2 < singleLimit) := by
  induction numbers generalizing start with
  | nil => exact ⟨sign, fun finite => ⟨finite, nofun⟩⟩
  | cons number numbers inductionHypothesis =>
    obtain ⟨squareSign, squareFinite⟩ := isNotNegative_square (areNumbers number List.mem_cons_self)
    obtain ⟨sumSign, sumFinite⟩ := sign.add squareSign
    obtain ⟨wholeSign, wholeFinite⟩ := inductionHypothesis
      (fun other among => areNumbers other (List.mem_cons_of_mem _ among)) sumSign
    refine ⟨wholeSign, fun finite => ?_⟩
    obtain ⟨finiteSum, others⟩ := wholeFinite finite
    obtain ⟨finiteStart, finiteSquare⟩ := sumFinite finiteSum
    exact ⟨finiteStart, List.forall_mem_cons.mpr ⟨squareFinite finiteSquare, others⟩⟩

theorem dotProduct_self (vector : Embedding) : dotProduct vector vector =
    vector.foldl (fun sum number => sum + number * number) 0.0 := by
  rw [dotProduct, List.zip, List.zipWith_self, List.foldl_map]

/-- A square that counts is not too small, so its root may be divided by. -/
theorem le_of_shortestSquare_lt {square : Float32} (sign : IsNotNegative square)
    (long : ¬square ≤ shortestSquare) (finite : square.isFinite) :
    2 ^ (-24 : ℤ) ≤ magnitude square.toModel.unpack := by
  have isNumber : shortestSquare.isNaN = false := by decide +kernel
  have place : rank shortestSquare = toLex (1, toLex (-46, 2 ^ 23)) := by decide +kernel
  rw [le_iff_rank_le sign.isNaN isNumber, place, not_le] at long
  have single := isSettled_unpack square
  unfold rank at long
  unfold IsNotNegative at sign
  change square.toModel.unpack.isFinite = true at finite
  generalize square.toModel.unpack = unpacked at sign long finite single ⊢
  cases unpacked with
  | notANumber => exact sign.elim
  | infinity => exact nomatch finite
  | zero =>
    change toLex ((1 : ℤ), toLex ((-46 : ℤ), (2 ^ 23 : ℤ))) < toLex (0, toLex (0, 0)) at long
    exact absurd long (by decide)
  | finite _ significand exponent pos =>
    obtain rfl := sign
    change toLex ((1 : ℤ), toLex ((-46 : ℤ), (2 ^ 23 : ℤ))) <
      toLex (1, toLex (exponent, (significand : ℤ))) at long
    rw [Prod.Lex.toLex_lt_toLex, Prod.Lex.toLex_lt_toLex] at long
    obtain ⟨higher, full⟩ : -46 ≤ exponent ∧ 2 ^ 23 ≤ significand := by
      have full := single.1.full
      omega
    calc (2 : ℚ) ^ (-24 : ℤ) ≤ 2 ^ 23 * 2 ^ (-46 : ℤ) := by norm_num
      _ ≤ significand * 2 ^ exponent :=
          mul_le_mul (by exact_mod_cast full) (zpow_le_zpow_right₀ (by norm_num) higher)
            (by positivity) (by positivity)

/-! ### Vectors of length one -/

/-- Bringing a vector to length one leaves its numbers finite where they were, and nowhere else. -/
theorem map_isFinite_unit {vector unit : Embedding}
    (areNumbers : ∀ number ∈ vector, number.isNaN = false) (made : unit? vector = some unit) :
    unit.map Float32.isFinite = vector.map Float32.isFinite := by
  have zero : IsNotNegative 0.0 := rfl
  obtain ⟨sign, finiteSquare⟩ := sum_of_squares areNumbers zero
  rw [← dotProduct_self] at sign finiteSquare
  unfold unit? at made
  dsimp only at made
  generalize dotProduct vector vector = square at sign finiteSquare made
  split_ifs at made with short
  obtain rfl := Option.some.inj made
  obtain ⟨rootSign, finiteRoot⟩ := sign.sqrt
  -- A finite length comes from a finite square, which counts as a length.
  have least : square.sqrt.isFinite → 2 ^ (-12 : ℤ) ≤ magnitude square.sqrt.toModel.unpack :=
    fun finite => (finiteRoot finite).2 (le_of_shortestSquare_lt sign short (finiteRoot finite).1)
  rw [List.map_map]
  refine List.map_congr_left fun number among => ?_
  change (number / square.sqrt).toModel.unpack.isFinite = number.toModel.unpack.isFinite
  rw [unpack_div]
  refine isFinite_div_iff (areNumbers number among) rootSign (fun finite => ?_) fun _ finite => ?_
  · exact lt_of_lt_of_le (by positivity) (least finite)
  · exact div_lt_singleLimit ((finiteSquare (finiteRoot finite).1).2 number among).2 (least finite)

/-! ### Hashed embeddings -/

/-- A word counts once, in one direction or the other, so no step adds more than one. -/
theorem wordWeight_cases (word : List Char) :
    (wordWeight word).2.isFinite ∧ magnitude (wordWeight word).2.toModel.unpack ≤ 1 := by
  unfold wordWeight
  dsimp only
  split_ifs <;> decide +kernel

theorem all_isFinite_modify {vector : Embedding} (finite : vector.all Float32.isFinite = true)
    {weight : Float32} (weightFinite : weight.isFinite)
    (small : magnitude weight.toModel.unpack ≤ 1) (place : Nat) :
    (vector.modify place (· + weight)).all Float32.isFinite = true := by
  rw [List.all_eq_true] at finite ⊢
  intro number among
  obtain ⟨index, below, rfl⟩ := List.mem_iff_getElem.mp among
  rw [List.length_modify] at below
  have before := finite _ (List.getElem_mem below)
  rw [List.getElem_modify]
  split_ifs
  · exact isFinite_add_small before weightFinite small
  · exact before

theorem all_isFinite_counted (words : List (List Char)) {vector : Embedding}
    (finite : vector.all Float32.isFinite = true) :
    (words.foldl (fun vector word => vector.modify (wordWeight word).1 (· + (wordWeight word).2))
      vector).all Float32.isFinite = true := by
  induction words generalizing vector with
  | nil => exact finite
  | cons word words inductionHypothesis =>
    obtain ⟨weightFinite, small⟩ := wordWeight_cases word
    exact inductionHypothesis (all_isFinite_modify finite weightFinite small _)

/-- The numbers of a hashed embedding are finite, whatever the text is. -/
theorem all_isFinite_hashedEmbedding (text : String) :
    (hashedEmbedding text).all Float32.isFinite = true := by
  have blank : blankEmbedding.all Float32.isFinite = true := by decide +kernel
  have counts := all_isFinite_counted (embeddedWords text) blank
  unfold hashedEmbedding
  dsimp only
  generalize (embeddedWords text).foldl _ blankEmbedding = vector at counts ⊢
  cases made : unit? vector with
  | none => exact blank
  | some unit =>
    have areNumbers : ∀ number ∈ vector, number.isNaN = false := fun number among =>
      isNaN_of_isFinite (List.all_eq_true.mp counts number among)
    have same := congrArg (List.all · id) (map_isFinite_unit areNumbers made)
    rw [List.all_map, List.all_map] at same
    exact same.trans counts

/-! ### Answers -/

/-- An answer gives a vector that is made of some numbers: they stand at a place for vectors, are
finite there, are narrowed and brought to length one. -/
structure ReadFrom (answer : String) (numbers : List Float) (vector : Embedding) : Prop where
  /-- The vector is accepted. -/
  accepted : Embedder.readAnswer answer = .ok vector
  /-- The numbers stand at a place for vectors. -/
  place : ∃ value items, Json.parseWhole? answer = some value ∧
    some (.list items) ∈ (vectorPlaces value).map Prod.snd ∧ finiteNumbers? items = some numbers
  /-- The vector has the direction of the numbers. -/
  unit : unit? (numbers.map narrowed) = some vector

theorem isFinite_of_finiteNumbers? {items : List Value} {numbers : List Float}
    (spelled : finiteNumbers? items = some numbers) : ∀ number ∈ numbers, number.isFinite := by
  have each := (mapM_eq_some_iff _ _).mp spelled
  clear spelled
  induction each with
  | nil => exact nofun
  | cons first _ inductionHypothesis =>
    exact List.forall_mem_cons.mpr ⟨(Option.filter_eq_some_iff.mp first).2, inductionHypothesis⟩

/-- A vector that is accepted is made of finite numbers at one of the places. -/
theorem exists_numbers_of_vectorAmong {places : List (String × Option Value)} {vector : Embedding}
    (accepted : vectorAmong places = .ok vector) :
    ∃ items numbers, some (.list items) ∈ places.map Prod.snd ∧
      finiteNumbers? items = some numbers ∧ unit? (numbers.map narrowed) = some vector := by
  induction places with
  | nil => exact nomatch accepted
  | cons first places inductionHypothesis =>
    obtain ⟨place, found⟩ := first
    have later : vectorAmong places = .ok vector → ∃ items numbers,
        some (.list items) ∈ ((place, found) :: places).map Prod.snd ∧
          finiteNumbers? items = some numbers ∧ unit? (numbers.map narrowed) = some vector := by
      intro accepted
      obtain ⟨items, numbers, among, made⟩ := inductionHypothesis accepted
      exact ⟨items, numbers, List.mem_cons_of_mem _ among, made⟩
    rw [vectorAmong] at accepted
    cases held : found.bind Value.toList? with
    | none =>
      rw [held] at accepted
      exact later accepted
    | some items =>
      rw [held] at accepted
      dsimp only at accepted
      obtain ⟨value, rfl, isList⟩ := Option.bind_eq_some_iff.mp held
      rw [numbersAt] at accepted
      cases spelled : finiteNumbers? items with
      | none =>
        rw [spelled] at accepted
        exact nomatch accepted
      | some numbers =>
        rw [spelled] at accepted
        dsimp only at accepted
        cases made : unit? (numbers.map narrowed) with
        | none =>
          rw [made] at accepted
          exact later accepted
        | some unit =>
          rw [made] at accepted
          obtain rfl := Except.ok.inj accepted
          refine ⟨items, numbers, ?_, spelled, made⟩
          cases value with
          | list others =>
            obtain rfl := Option.some.inj isList
            exact List.mem_cons_self
          | _ => exact nomatch isList

/-- An accepted vector is made of numbers in the answer. There is no other way for it to come about.
-/
theorem exists_readFrom {answer : String} {vector : Embedding}
    (accepted : Embedder.readAnswer answer = .ok vector) :
    ∃ numbers, ReadFrom answer numbers vector := by
  have whole := accepted
  unfold Embedder.readAnswer at whole
  cases known : Json.parseWhole? answer with
  | none =>
    rw [known] at whole
    exact nomatch whole
  | some value =>
    rw [known] at whole
    dsimp only at whole
    cases given : embeddingOfAnswer value with
    | error fault =>
      rw [given] at whole
      exact nomatch whole
    | ok unit =>
      rw [given] at whole
      obtain rfl := Except.ok.inj whole
      obtain ⟨items, numbers, among, spelled, made⟩ := exists_numbers_of_vectorAmong given
      exact ⟨numbers, accepted, ⟨value, items, known, among, spelled⟩, made⟩

/-- A vector from an answer has numbers that are not finite just where the answer has numbers that
do not fit into singles. -/
theorem ReadFrom.map_isFinite {answer : String} {numbers : List Float} {vector : Embedding}
    (read : ReadFrom answer numbers vector) :
    vector.map Float32.isFinite = numbers.map fun number => decide (FitsSingle number) := by
  obtain ⟨-, ⟨-, items, -, -, spelled⟩, made⟩ := read
  have finite := isFinite_of_finiteNumbers? spelled
  have areNumbers : ∀ number ∈ numbers.map narrowed, number.isNaN = false := by
    intro number among
    obtain ⟨double, member, rfl⟩ := List.mem_map.mp among
    exact (narrowed_cases (finite double member)).1
  rw [map_isFinite_unit areNumbers made, List.map_map]
  exact List.map_congr_left fun number among => (narrowed_cases (finite number among)).2

end MigrationGuard
