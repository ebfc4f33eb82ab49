/-
This file compares the gate with the labels of scores. A score is a number of
ten-thousandths, so there are finitely many of them and each can be told by a
whole number. Settings warn about a threshold that is not the one of the label
`blocked`, but not within a rounding error and not about what is no number. Up to
the usual threshold gate and label agree; of the others two let exactly the first
score of the label pass, and what is no number lets every score pass. The doubles
without a warning are found by following the difference from the usual threshold
through its rounding: it leaves five of them. That every score is a number of
ten-thousandths needs no bound on the coverage that a suite declares, as no part
of a score carries a minus and the sum is capped. A file can give a threshold that
is no number, and no warning tells of it.
-/

import MigrationGuard.Proofs.Decimal.Differences
import MigrationGuard.Proofs.Settings.NormalForm
import MigrationGuard.Risk.Assessment

namespace MigrationGuard

open Decimal

/-! ### Scores -/

/-- A number of ten-thousandths, as the double that is next to it. -/
def tenThousandths (whole : ℕ) : Float :=
  Float.ofNat whole / Float.ofNat 10000

theorem roundTo_one : Arithmetic.roundTo 4 (Arithmetic.count 1) = tenThousandths 10000 := by
  have one := holds_ofNat Nat.one_pos (by norm_num)
  have all := holds_ofNat (show 0 < 10000 by norm_num) (by norm_num)
  have product : Float.ofNat 1 * Float.ofNat 10000 = Float.ofNat 10000 :=
    one.mul_eq all (by simpa using all)
  have nearest : ⌊((10000 : ℕ) : ℚ) + 1 / 2⌋₊ = 10000 :=
    (Nat.floor_eq_iff (by norm_num)).mpr (by norm_num)
  show nearestDouble (Float.ofNat 1 * Float.ofNat 10000) / Float.ofNat 10000 = _
  rw [product, all.nearestDouble_eq (by norm_num), nearest, tenThousandths]

theorem isUnsigned_one_sub_coverageFraction (percentage : Float) :
    IsUnsigned (Arithmetic.count 1 - coverageFraction percentage) := by
  have one := holds_ofNat Nat.one_pos (by norm_num)
  unfold coverageFraction Arithmetic.clamp
  split
  · show IsUnsigned (Float.ofNat 1 - Float.ofNat 0)
    rw [ofNat_zero, one.sub_zero_eq]
    exact isUnsigned_count 1
  · split
    · exact isUnsigned_one_sub ((one.lt_iff one).not.mpr (lt_irrefl _))
    · rename_i notMore
      exact isUnsigned_one_sub fun more => notMore (decide_eq_true more)

namespace RiskInputs

variable (inputs : RiskInputs Float)

theorem isUnsigned_density : IsUnsigned inputs.density := by
  unfold density WorkflowGraph.effectDensity?
  cases inputs.graph with
  | none => exact isUnsigned_count 1
  | some graph =>
    rw [Option.bind_some]
    split
    · exact isUnsigned_count 1
    · exact (isUnsigned_count _).div (isUnsigned_count _)

theorem isUnsigned_coverageGap : IsUnsigned inputs.coverageGap := by
  unfold coverageGap
  cases inputs.coveragePct with
  | none => exact isUnsigned_count 1
  | some percentage => exact isUnsigned_one_sub_coverageFraction percentage

/-- No part of a score carries a minus, and so neither does their sum. -/
theorem isUnsigned_total : IsUnsigned (inputs.driftFactor + inputs.historyFactor +
    inputs.sideEffectFactor + inputs.coverageFactor) := by
  have weighted (count digits places : ℕ) :
      IsUnsigned (Arithmetic.count count * Arithmetic.decimal digits places : Float) :=
    (isUnsigned_count _).mul (isUnsigned_decimal _ _)
  have drift : IsUnsigned inputs.driftFactor :=
    ((weighted _ _ _).add (weighted _ _ _)).smaller (isUnsigned_decimal _ _)
  have history : IsUnsigned inputs.historyFactor :=
    ((weighted _ _ _).add (weighted _ _ _)).smaller (isUnsigned_decimal _ _)
  have sideEffect : IsUnsigned inputs.sideEffectFactor :=
    (inputs.isUnsigned_density.mul (isUnsigned_decimal _ _)).smaller (isUnsigned_decimal _ _)
  have coverage : IsUnsigned inputs.coverageFactor :=
    (inputs.isUnsigned_coverageGap.mul (isUnsigned_decimal _ _)).smaller (isUnsigned_decimal _ _)
  exact ((drift.add history).add sideEffect).add coverage

/-- Every score is a number of ten-thousandths between zero and one, whatever coverage a suite
declares. -/
theorem exists_score_eq : ∃ whole ≤ 10000, inputs.score = tenThousandths whole := by
  unfold score Arithmetic.smaller
  split
  · rename_i less
    obtain ⟨whole, most, nearest⟩ :=
      exists_tenThousandths inputs.isUnsigned_total (of_decide_eq_true less)
    exact ⟨whole, most, congrArg (· / Float.ofNat 10000) nearest⟩
  · exact ⟨10000, le_rfl, roundTo_one⟩

end RiskInputs

/-! ### Thresholds without a warning -/

/-- The doubles within a rounding error of the usual threshold, from the lowest one to the highest.
-/
def usualThresholds : List Float :=
  [0.7999999999999998, 0.7999999999999999, 0.8, 0.8000000000000002, 0.8000000000000003]

theorem isFull_usual (step : Fin 5) : IsFull (7205759403792792 + step) (-53) :=
  ⟨by omega, by omega, by norm_num, by norm_num⟩

theorem usualThresholds_eq :
    usualThresholds = (List.finRange 5).map fun step => (isFull_usual step).toFloat := by
  decide +kernel

theorem mem_usualThresholds_iff {threshold : Float} :
    threshold ∈ usualThresholds ↔ ∃ step, threshold = (isFull_usual step).toFloat := by
  rw [usualThresholds_eq, List.mem_map]
  exact ⟨fun ⟨step, _, same⟩ => ⟨step, same.symm⟩,
    fun ⟨step, same⟩ => ⟨step, List.mem_finRange step, same.symm⟩⟩

theorem usual_eq : (0.8 : Float) = (isFull_usual 2).toFloat :=
  Option.some.inj (congrArg (·[2]?) usualThresholds_eq)

/-- The size of a rounding error: the distance from one to the next double. -/
theorem holds_tolerance : Holds (Float.ofNat 1 / Float.ofNat (Nat.pow 2 52)) (2 ^ (-52 : ℤ)) := by
  have full : IsFull (2 ^ 52) (-104) := ⟨le_rfl, by norm_num, by norm_num, by norm_num⟩
  have exact : Holds full.toFloat ((1 : ℕ) / (2 ^ 52 : ℕ)) := ⟨_, _, full, rfl, by norm_num⟩
  have quotient := (holds_ofNat Nat.one_pos (by norm_num)).div_eq
    (holds_ofNat (show 0 < 2 ^ 52 by norm_num) (by norm_num)) exact
  exact ⟨_, _, full, quotient, by norm_num⟩

namespace Settings

theorem isCustomThreshold_eq_false_iff_sub {threshold : Float} :
    isCustomThreshold threshold = false ↔
    ¬ Float.ofNat 1 / Float.ofNat (Nat.pow 2 52) < threshold - 0.8 ∧
      ¬ Float.ofNat 1 / Float.ofNat (Nat.pow 2 52) < 0.8 - threshold :=
  Bool.or_eq_false_iff.trans (and_congr decide_eq_false_iff_not decide_eq_false_iff_not)

theorem unpack_usual : (0.8 : Float).toModel.unpack =
    .finite .positive 7205759403792794 (-53) (isFull_usual 2).isDouble.pos := by
  rw [usual_eq]
  exact (isFull_usual 2).unpack_toFloat

section
variable {threshold : Float} (close : isCustomThreshold threshold = false)
include close

/-- A positive threshold without a warning has the exponent of the usual one, and nearly its
significand. -/
theorem mem_usualThresholds_of_unpack {significand : ℕ} {exponent : ℤ} {pos : 0 < significand}
    (unpacked : threshold.toModel.unpack = .finite .positive significand exponent pos) :
    threshold ∈ usualThresholds := by
  obtain ⟨notAbove, notBelow⟩ := isCustomThreshold_eq_false_iff_sub.mp close
  have above := not_le.mp (mt (holds_tolerance.lt_sub unpacked unpack_usual) notAbove)
  have below := not_le.mp (mt (holds_tolerance.lt_sub unpack_usual unpacked) notBelow)
  change (significand : ℚ) * 2 ^ exponent - (7205759403792794 : ℕ) * 2 ^ (-53 : ℤ) < _ at above
  change ((7205759403792794 : ℕ) : ℚ) * 2 ^ (-53 : ℤ) - significand * 2 ^ exponent < _ at below
  obtain ⟨double, -, same⟩ := isDouble_unpack unpacked
  obtain rfl : exponent = -53 := by
    refine double.exponent_eq (by norm_num) ?_ ?_
    · norm_num at below ⊢
      linarith
    · norm_num at above ⊢
      linarith
  have most : significand < 7205759403792797 := by
    have : (significand : ℚ) < 7205759403792797 := by
      norm_num at above
      linarith
    exact_mod_cast this
  have least : 7205759403792791 < significand := by
    have : (7205759403792791 : ℚ) < significand := by
      norm_num at below
      linarith
    exact_mod_cast this
  obtain ⟨step, rfl⟩ : ∃ step : Fin 5, significand = 7205759403792792 + step :=
    ⟨⟨significand - 7205759403792792, by omega⟩, by dsimp only; omega⟩
  exact mem_usualThresholds_iff.mpr ⟨step, same⟩

theorem isNaN_or_mem_usualThresholds : threshold.isNaN ∨ threshold ∈ usualThresholds := by
  obtain ⟨notAbove, notBelow⟩ := isCustomThreshold_eq_false_iff_sub.mp close
  cases unpacked : threshold.toModel.unpack with
  | notANumber =>
    refine .inl ?_
    show threshold.toModel.unpack.isNaN = true
    rw [unpacked]
    rfl
  | infinity sign =>
    cases sign with
    | positive =>
      rw [sub_unpacked, unpacked, unpack_usual] at notAbove
      exact absurd holds_tolerance.lt_infinity notAbove
    | negative =>
      rw [sub_unpacked, unpacked, unpack_usual] at notBelow
      exact absurd holds_tolerance.lt_infinity notBelow
  | zero sign =>
    rw [sub_unpacked, unpacked, unpack_usual] at notBelow
    refine absurd (holds_tolerance.lt_pack (isFull_usual 2).isDouble ?_) notBelow
    norm_num
  | finite sign significand exponent pos =>
    cases sign with
    | positive => exact .inr (mem_usualThresholds_of_unpack close unpacked)
    | negative =>
      refine absurd (holds_tolerance.lt_sub unpack_usual unpacked ?_) notBelow
      show 3 / 2 * (2 : ℚ) ^ (-52 : ℤ) ≤ (7205759403792794 : ℕ) * 2 ^ (-53 : ℤ) -
        ((-(significand : ℤ) : ℤ) : ℚ) * 2 ^ exponent
      have size : (0 : ℚ) ≤ significand * 2 ^ exponent := by positivity
      rw [Int.cast_neg, Int.cast_natCast, neg_mul, sub_neg_eq_add]
      norm_num at size ⊢
      linarith

end

theorem isCustomThreshold_of_isNaN {threshold : Float} (none : threshold.isNaN) :
    isCustomThreshold threshold = false := by
  rw [isCustomThreshold_eq_false_iff_sub, sub_unpacked, sub_unpacked, unpack_of_isNaN none,
    unpack_usual]
  exact ⟨(not_ordered_of_isNaN rfl _).2, (not_ordered_of_isNaN rfl _).2⟩

/-- No warning is given about what is no number and about the doubles next to the usual
threshold. Everything else is warned about. -/
theorem isCustomThreshold_eq_false_iff {threshold : Float} :
    isCustomThreshold threshold = false ↔ threshold.isNaN ∨ threshold ∈ usualThresholds := by
  refine ⟨isNaN_or_mem_usualThresholds, ?_⟩
  rintro (none | listed)
  · exact isCustomThreshold_of_isNaN none
  · have all : ∀ threshold ∈ usualThresholds, isCustomThreshold threshold = false := by
      decide +kernel
    exact all threshold listed

theorem isCustomThreshold_of_unwarned {settings : Settings}
    (unwarned : ∀ message, ("risk_threshold_custom", message) ∉ settings.warnings) :
    isCustomThreshold settings.risk.blockThreshold = false := by
  refine Bool.eq_false_of_not_eq_true fun custom => ?_
  apply unwarned
  unfold warnings
  iterate 4 refine List.mem_append_left _ ?_
  refine List.mem_append_right _ ?_
  dsimp only
  rw [if_pos custom]
  exact List.mem_singleton_self _

end Settings

/-! ### Scores and thresholds -/

section
variable {whole : ℕ} (some : 0 < whole) (most : whole ≤ 10000)
include some most

theorem exists_holds_tenThousandths :
    ∃ number, Holds (tenThousandths whole) number ∧ IsNear ((whole : ℚ) / (10000 : ℕ)) number := by
  have one : (1 : ℚ) ≤ whole := by exact_mod_cast some
  have top : (whole : ℚ) ≤ 10000 := by exact_mod_cast most
  have moderate : IsModerate ((whole : ℚ) / (10000 : ℕ)) := by
    apply isModerate_of_bounds <;> norm_num <;> linarith
  exact (holds_ofNat some (by omega)).div (holds_ofNat (by norm_num) (by norm_num)) moderate

end

section
variable {threshold : Float} (listed : threshold ∈ usualThresholds)
include listed

theorem exists_holds_usual :
    ∃ number, Holds threshold number ∧ 79999 / 100000 < number ∧ number < 80001 / 100000 := by
  obtain ⟨step, rfl⟩ := mem_usualThresholds_iff.mp listed
  refine ⟨_, ⟨_, _, isFull_usual step, rfl, rfl⟩, ?_⟩
  have least : (0 : ℚ) ≤ (step : ℕ) := by positivity
  have most : ((step : ℕ) : ℚ) < 5 := by exact_mod_cast step.isLt
  push_cast
  constructor <;> norm_num <;> linarith

/-- The usual thresholds are in order with each other, as none of them is anything but a number. -/
theorem usual_le_or_lt {other : Float} (otherListed : other ∈ usualThresholds) :
    threshold ≤ other ∨ other < threshold := by
  obtain ⟨limit, isLimit, -⟩ := exists_holds_usual listed
  obtain ⟨otherLimit, isOther, -⟩ := exists_holds_usual otherListed
  rw [isLimit.le_iff isOther, isOther.lt_iff isLimit]
  exact le_or_gt _ _

variable {whole : ℕ}

/-- Up to 7999 ten-thousandths a score is below every such threshold, and the gate stays open. -/
theorem tenThousandths_lt (less : whole < 8000) :
    tenThousandths whole < threshold ∧ ¬ threshold ≤ tenThousandths whole := by
  obtain rfl | some := Nat.eq_zero_or_pos whole
  · obtain ⟨limit, isLimit, -⟩ := exists_holds_usual listed
    rw [tenThousandths, ofNat_zero, (holds_ofNat (by norm_num) (by norm_num)).zero_div]
    exact ⟨isLimit.zero_lt, isLimit.not_le_zero⟩
  · obtain ⟨score, holds, near⟩ := exists_holds_tenThousandths some (by omega)
    obtain ⟨limit, isLimit, least, -⟩ := exists_holds_usual listed
    rw [holds.lt_iff isLimit, isLimit.le_iff holds, not_le, and_self]
    have top : (whole : ℚ) ≤ 7999 := by exact_mod_cast Nat.lt_succ_iff.mp less
    have above := near.above
    push_cast at above
    linarith

/-- From 8001 ten-thousandths a score is above every such threshold, and the gate is closed. -/
theorem lt_tenThousandths (more : 8000 < whole) (most : whole ≤ 10000) :
    threshold < tenThousandths whole ∧ threshold ≤ tenThousandths whole ∧
      ¬ tenThousandths whole < threshold := by
  obtain ⟨score, holds, near⟩ := exists_holds_tenThousandths (by omega) most
  obtain ⟨limit, isLimit, -, top⟩ := exists_holds_usual listed
  have less : limit < score := by
    have bottom : (8001 : ℚ) ≤ whole := by exact_mod_cast more
    have below := near.below
    push_cast at below
    linarith
  rw [isLimit.lt_iff holds, isLimit.le_iff holds, holds.lt_iff isLimit]
  exact ⟨less, less.le, less.not_gt⟩

end

/-! ### The gate and the label -/

theorem tenThousandths_usual : tenThousandths 8000 = 0.8 := by
  have rounds : RoundsTo ((8000 : ℕ) / (10000 : ℕ)) 7205759403792794 (-53) := by
    constructor <;> norm_num
  rw [usual_eq]
  exact (holds_ofNat (by norm_num) (by norm_num)).div_of_roundsTo
    (holds_ofNat (by norm_num) (by norm_num)) (isFull_usual 2) rounds

theorem usual_mem_usualThresholds : (0.8 : Float) ∈ usualThresholds :=
  .tail _ (.tail _ (.head _))

theorem holds_three_tenths : ∃ number, Holds 0.3 number ∧ number < 1 / 2 := by
  have full : IsFull 5404319552844595 (-54) := ⟨by norm_num, by norm_num, by norm_num, by norm_num⟩
  have rounds : RoundsTo ((3 : ℕ) / 10 ^ 1) 5404319552844595 (-54) := by
    constructor <;> norm_num
  have read := ofScientific_places (by norm_num) full.isDouble Nat.one_pos (by omega) rounds
  exact ⟨_, ⟨_, _, full, read, rfl⟩, by norm_num⟩

/-- The label `blocked` starts at 8000 ten-thousandths, whatever the threshold of the gate is. -/
theorem ofScore_eq_blocked_iff {whole : ℕ} (most : whole ≤ 10000) :
    RiskLevel.ofScore (tenThousandths whole) = .blocked ↔ 8000 ≤ whole := by
  constructor
  · intro blocked
    by_contra less
    have below := (tenThousandths_lt usual_mem_usualThresholds (not_le.mp less)).1
    unfold RiskLevel.ofScore at blocked
    split_ifs at blocked with low medium high
    exact high (decide_eq_true below)
  · intro reaches
    obtain ⟨score, holds, near⟩ := exists_holds_tenThousandths (by omega) most
    have half : 1 / 2 < score := by
      have bottom : (8000 : ℚ) ≤ whole := by exact_mod_cast reaches
      have below := near.below
      push_cast at below
      linarith
    obtain ⟨lowest, isLowest, low⟩ := holds_three_tenths
    have notLow : ¬ tenThousandths whole < 0.3 :=
      (holds.lt_iff isLowest).not.mpr (low.trans half).not_gt
    have notMedium : ¬ tenThousandths whole < 0.5 := (holds.lt_iff holds_half).not.mpr half.not_gt
    have notHigh : ¬ tenThousandths whole < 0.8 := by
      obtain rfl | more := reaches.eq_or_lt
      · rw [tenThousandths_usual] at holds ⊢
        exact (holds.lt_iff holds).not.mpr (lt_irrefl _)
      · exact (lt_tenThousandths usual_mem_usualThresholds more most).2.2
    exact (if_neg (decide_eq_true_iff.not.mpr notLow)).trans
      ((if_neg (decide_eq_true_iff.not.mpr notMedium)).trans
        (if_neg (decide_eq_true_iff.not.mpr notHigh)))

section
variable {threshold : Float}

theorem gateDecision_eq_block_iff {score : Float} :
    gateDecision score threshold = .block ↔ threshold ≤ score := by
  unfold gateDecision
  split <;> rename_i reaches
  · exact iff_of_true rfl (of_decide_eq_true reaches)
  · exact iff_of_false GateDecision.noConfusion fun atMost => reaches (decide_eq_true atMost)

/-- A threshold without a warning blocks what the label blocks, except that one above the usual
threshold lets the first score of the label pass and what is no number lets every score pass. -/
theorem gateDecision_tenThousandths
    (close : threshold.isNaN ∨ threshold ∈ usualThresholds) {whole : ℕ} (most : whole ≤ 10000) :
    gateDecision (tenThousandths whole) threshold = .block ↔
      RiskLevel.ofScore (tenThousandths whole) = .blocked ∧
        (threshold ≤ 0.8 ∨ 0.8 < threshold ∧ tenThousandths whole ≠ 0.8) := by
  rw [gateDecision_eq_block_iff, ofScore_eq_blocked_iff most]
  obtain none | listed := close
  · have outside := not_ordered_of_isNaN none
    exact iff_of_false (outside _).1 fun ⟨_, either⟩ =>
      either.elim (outside _).1 fun above => (outside _).2 above.1
  rcases lt_trichotomy whole 8000 with less | rfl | more
  · exact iff_of_false (tenThousandths_lt listed less).2 fun blocked => by omega
  · rw [tenThousandths_usual]
    simp
  · have reaches := (lt_tenThousandths listed more most).2.1
    have other : tenThousandths whole ≠ 0.8 := by
      obtain ⟨above, -, notBelow⟩ := lt_tenThousandths usual_mem_usualThresholds more most
      intro same
      rw [same] at above notBelow
      exact notBelow above
    have either := (usual_le_or_lt listed usual_mem_usualThresholds).imp_right
      fun above => And.intro above other
    exact iff_of_true reaches ⟨more.le, either⟩

theorem gateDecision_assessRisk (close : threshold.isNaN ∨ threshold ∈ usualThresholds)
    (inputs : RiskInputs Float) (computedAt : String) :
    gateDecision (assessRisk inputs computedAt).score threshold = .block ↔
      (assessRisk inputs computedAt).level = .blocked ∧
        (threshold ≤ 0.8 ∨ 0.8 < threshold ∧ (assessRisk inputs computedAt).score ≠ 0.8) := by
  obtain ⟨whole, most, score⟩ := inputs.exists_score_eq
  show gateDecision inputs.score threshold = .block ↔ RiskLevel.ofScore inputs.score = .blocked ∧
    (threshold ≤ 0.8 ∨ 0.8 < threshold ∧ inputs.score ≠ 0.8)
  rw [score]
  exact gateDecision_tenThousandths close most

end

/-- Three remembered failures, three blocked runs, a workflow that is not known and code that is
all covered. -/
def edgeInputs : RiskInputs Float :=
  ⟨List.replicate 3 ⟨.memory, "total", .critical, "total failed", 1⟩,
    List.replicate 3 (some .blocked), 10, 3, none, some 100⟩

/-- Their score is the first one of the label, where the thresholds begin to differ. -/
theorem score_edgeInputs : edgeInputs.score = 0.8 := by
  decide +kernel

theorem level_edgeInputs (computedAt : String) :
    (assessRisk edgeInputs computedAt).level = .blocked := by
  have starts : RiskLevel.ofScore (tenThousandths 8000) = .blocked :=
    (ofScore_eq_blocked_iff (by norm_num)).mpr le_rfl
  have level (inputs : RiskInputs Float) :
    (assessRisk inputs computedAt).level = .ofScore inputs.score := rfl
  rw [level, score_edgeInputs, ← tenThousandths_usual]
  exact starts

/-- Where settings give no warning about the threshold of the gate, it is no number or one of five
doubles. The gate blocks only what the label blocks: all of it up to the usual threshold, all but
the first score of the label above it, and nothing where the threshold is no number. So gate and
label agree on every assessment just if the threshold is at most the usual one. -/
theorem gateDecision_of_unwarned {settings : Settings}
    (unwarned : ∀ message, ("risk_threshold_custom", message) ∉ settings.warnings) :
    (settings.risk.blockThreshold.isNaN ∨ settings.risk.blockThreshold ∈ usualThresholds) ∧
    (∀ (inputs : RiskInputs Float) (computedAt : String),
      gateDecision (assessRisk inputs computedAt).score settings.risk.blockThreshold = .block ↔
        (assessRisk inputs computedAt).level = .blocked ∧
          (settings.risk.blockThreshold ≤ 0.8 ∨
            0.8 < settings.risk.blockThreshold ∧ (assessRisk inputs computedAt).score ≠ 0.8)) ∧
    ((∀ (inputs : RiskInputs Float) (computedAt : String),
      gateDecision (assessRisk inputs computedAt).score settings.risk.blockThreshold = .block ↔
        (assessRisk inputs computedAt).level = .blocked) ↔
      settings.risk.blockThreshold ≤ 0.8) := by
  have close := Settings.isCustomThreshold_eq_false_iff.mp
    (Settings.isCustomThreshold_of_unwarned unwarned)
  have decides := gateDecision_assessRisk close
  refine ⟨close, decides, fun agree => ?_, fun usual inputs computedAt => ?_⟩
  · have blocks := (agree edgeInputs "").mpr (level_edgeInputs "")
    obtain ⟨-, usual | ⟨-, other⟩⟩ := (decides edgeInputs "").mp blocks
    · exact usual
    · exact absurd score_edgeInputs other
  · rw [decides, and_iff_left (.inl usual)]

/-- The usual settings give no warning, and the gate blocks from the first score of the label on. -/
theorem usualSettings_block :
    (∀ message, ("risk_threshold_custom", message) ∉ ({} : Settings).warnings) ∧
      ∀ (inputs : RiskInputs Float) (computedAt : String),
        gateDecision (assessRisk inputs computedAt).score ({} : Settings).risk.blockThreshold =
            .block ↔ (assessRisk inputs computedAt).level = .blocked := by
  have none : ({} : Settings).warnings = [] := by decide +kernel
  have unwarned : ∀ message, ("risk_threshold_custom", message) ∉ ({} : Settings).warnings := by
    intro message
    rw [none]
    exact List.not_mem_nil
  exact ⟨unwarned, (gateDecision_of_unwarned unwarned).2.2.mpr (by decide +kernel)⟩

/-- A disk with a workspace whose file gives a threshold that is no number. -/
def unnumberedDisk : Disk :=
  ⟨.directory [("w", .directory [(".bloc", .directory
    [("config.toml", .file (Text.encode "[risk]\nblock_threshold = nan\n"))])])], []⟩

/-- A file can give a threshold that is no number, and an operator one that is next above the usual
one. Nothing warns about them, and the gate lets a score pass that the label blocks. -/
theorem unwarned_proceeds :
    ∃ unnumbered raised : Settings,
      (Settings.load Disk.access "/w" none : StateM Disk _) unnumberedDisk =
          (.ok unnumbered, unnumberedDisk) ∧
        (Settings.load Disk.access "/v" (some "0.8000000000000002") : StateM Disk _)
          unnumberedDisk = (.ok raised, unnumberedDisk) ∧
        unnumbered.warnings = [] ∧ raised.warnings = [] ∧
        (assessRisk edgeInputs "").level = .blocked ∧
        gateDecision (assessRisk edgeInputs "").score unnumbered.risk.blockThreshold = .proceed ∧
        gateDecision (assessRisk edgeInputs "").score raised.risk.blockThreshold = .proceed := by
  have given :
      Settings.GivenBy unnumberedDisk "/w" { risk := { blockThreshold := 0.0 / 0.0 } } := by
    have held : unnumberedDisk.read (WorkspacePlaces.of "/w").settings =
      .ok (Text.encode "[risk]\nblock_threshold = nan\n") := rfl
    exact .file held (Text.decodeStrict_encode _) (by decide +kernel)
  refine ⟨{ risk := { blockThreshold := 0.0 / 0.0 } },
    { risk := { blockThreshold := 0.8000000000000002 } }, ?_, ?_, ?_⟩
  · exact (Settings.load_iff none).mpr ⟨_, given, by decide +kernel⟩
  · exact (Settings.load_iff _).mpr ⟨_, .usual rfl, by decide +kernel⟩
  · decide +kernel

end MigrationGuard
