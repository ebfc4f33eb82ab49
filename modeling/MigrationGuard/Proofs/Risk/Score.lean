/-
This file follows a risk score over the rational numbers. Warnings and verdicts
have weights, and a factor is the sum of the weights that count, up to its cap. So
a score is a sum of capped sums, and whatever makes one of them larger does not
make the score smaller. The order in which weights are added up does not matter.
What speaks for more risk is listed: one warning more or a worse one, a worse
verdict or a new blocked run, a function more with side effects, less coverage,
and a workflow or a suite that is no longer known. Each of these is one comparison
of sums. A new run can push a verdict out of the window, and then it takes the
place of one that weighs no more. Caps, the minimum with one and the rounding to
four places all keep the order, so it is enough to compare the factors one by one.
-/

import Mathlib.Algebra.BigOperators.Group.List.Basic
import Mathlib.Algebra.Order.BigOperators.Group.List
import MigrationGuard.Proofs.Behavior.Comparison
import MigrationGuard.Risk.Assessment

namespace MigrationGuard

/-! ### What makes the risk larger -/

/-- How bad a verdict on a past run is. A run without a verdict counts like a safe one. -/
def historyRank : Option Verdict → Nat
  | some .blocked => 2
  | some .risky => 1
  | _ => 0

namespace RiskInputs

/-- Something happens that speaks for more risk, and nothing else changes. -/
inductive Worsens (inputs : RiskInputs ℚ) : RiskInputs ℚ → Prop where
  /-- There is one warning more. -/
  | addsWarning {before after : List RiskWarning} (warning : RiskWarning)
    (split : inputs.warnings = before ++ after) :
    Worsens inputs { inputs with warnings := before ++ warning :: after }
  /-- A warning becomes critical. -/
  | makesCritical {before after : List RiskWarning} {warning : RiskWarning}
    (split : inputs.warnings = before ++ warning :: after) :
    Worsens inputs
      { inputs with warnings := before ++ { warning with severity := .critical } :: after }
  /-- A verdict that counts gives way to one that is at least as bad. -/
  | worsensVerdict {before after : List (Option Verdict)} {verdict : Option Verdict}
    (worse : Option Verdict) (split : inputs.history = before ++ verdict :: after)
    (counts : before.length < inputs.historyWindow)
    (rank : historyRank verdict ≤ historyRank worse) :
    Worsens inputs { inputs with history := before ++ worse :: after }
  /-- One more run is blocked, and the oldest verdict that counted may no longer do so. -/
  | blocksRun : Worsens inputs { inputs with history := some .blocked :: inputs.history }
  /-- A function without side effects gives way to one that has some. -/
  | addsEffect {graph : WorkflowGraph} {before after : List CallNode} {node : CallNode}
    (effective : CallNode) (known : inputs.graph = some graph)
    (split : graph.nodes = before ++ node :: after) (without : node.hasEffects = false)
    (gained : effective.hasEffects = true) :
    Worsens inputs
      { inputs with graph := some { graph with nodes := before ++ effective :: after } }
  /-- The declared coverage drops. -/
  | dropsCoverage {percentage : ℚ} (lower : ℚ) (known : inputs.coveragePct = some percentage)
    (drop : lower ≤ percentage) : Worsens inputs { inputs with coveragePct := some lower }
  /-- The workflow is no longer known. -/
  | losesGraph : Worsens inputs { inputs with graph := none }
  /-- There is no longer a suite. -/
  | losesSuite : Worsens inputs { inputs with coveragePct := none }

/-- The inputs hold the same warnings and the same verdicts that count, in whatever order. Verdicts
that do not count may be others. -/
structure Rearranges (inputs other : RiskInputs ℚ) : Prop where
  /-- The warnings are the same. -/
  warnings : other.warnings.Perm inputs.warnings
  /-- The verdicts that count are the same. -/
  recent : other.recent.Perm inputs.recent
  /-- The workflow is the same. -/
  graph : other.graph = inputs.graph
  /-- The declared coverage is the same. -/
  coveragePct : other.coveragePct = inputs.coveragePct

end RiskInputs

/-- No factor is negative, and none exceeds its cap. The caps add up to one. -/
structure RiskFactors.WithinCaps (factors : RiskFactors ℚ) : Prop where
  /-- The part of remembered drifts. -/
  drift : 0 ≤ factors.drift ∧ factors.drift ≤ 35 / 100
  /-- The part of recent verdicts. -/
  history : 0 ≤ factors.history ∧ factors.history ≤ 25 / 100
  /-- The part of side effects. -/
  sideEffect : 0 ≤ factors.sideEffect ∧ factors.sideEffect ≤ 20 / 100
  /-- The part of uncovered code. -/
  coverage : 0 ≤ factors.coverage ∧ factors.coverage ≤ 20 / 100

/-! ### Arithmetic of rational numbers -/

theorem decimal_rat (digits places : Nat) :
    (Arithmetic.decimal digits places : ℚ) = digits / 10 ^ places := by
  show (digits : ℚ) / (Nat.pow 10 places : Nat) = digits / 10 ^ places
  rw [Nat.pow_eq, Nat.cast_pow, Nat.cast_ofNat]

theorem smaller_rat (left right : ℚ) : Arithmetic.smaller left right = min left right := by
  show (if decide (left < right) = true then left else right) = min left right
  simp only [decide_eq_true_eq, min_def]
  split_ifs <;> linarith

theorem coverageFraction_rat (percentage : ℚ) :
    coverageFraction percentage = max 0 (min (percentage / 100) 1) := by
  show (if decide (percentage / (100 : Nat) < (0 : Nat)) = true then ((0 : Nat) : ℚ)
    else if decide ((1 : Nat) < percentage / (100 : Nat)) = true then ((1 : Nat) : ℚ)
    else percentage / (100 : Nat)) = _
  simp only [decide_eq_true_eq, Nat.cast_ofNat, Nat.cast_zero, Nat.cast_one]
  split_ifs with negative large
  · rw [max_eq_left ((min_le_left _ _).trans negative.le)]
  · rw [min_eq_right large.le, max_eq_right zero_le_one]
  · rw [min_eq_left (not_lt.mp large), max_eq_right (not_lt.mp negative)]

/-! ### Weights -/

/-- The weight of a warning, which depends on its severity only. -/
def RiskWarning.weight (warning : RiskWarning) : ℚ :=
  if warning.severity = .critical then 15 / 100 else 5 / 100

/-- The weight of a verdict on a past run, which goes by how bad it is. -/
def historyWeight (verdict : Option Verdict) : ℚ :=
  historyRank verdict / 20

theorem RiskWarning.weight_nonneg (warning : RiskWarning) : 0 ≤ warning.weight := by
  unfold weight
  split_ifs <;> norm_num

theorem RiskWarning.weight_le_critical (warning : RiskWarning) :
    warning.weight ≤ { warning with severity := .critical : RiskWarning }.weight := by
  rw [weight, weight, if_pos rfl]
  split_ifs <;> norm_num

theorem historyWeight_nonneg (verdict : Option Verdict) : 0 ≤ historyWeight verdict := by
  unfold historyWeight
  positivity

theorem historyWeight_le (verdict : Option Verdict) :
    historyWeight verdict ≤ historyWeight (some .blocked) := by
  have rank : historyRank verdict ≤ 2 := by
    rcases verdict with _ | _ | _ | _ <;> decide
  exact div_le_div_of_nonneg_right (by exact_mod_cast rank) (by norm_num)

theorem sum_weight (warnings : List RiskWarning) :
    (warnings.map RiskWarning.weight).sum =
      (warnings.countP fun warning => warning.severity == .critical : Nat) * (15 / 100) +
        (warnings.length - warnings.countP fun warning => warning.severity == .critical : Nat) *
          (5 / 100) := by
  induction warnings with
  | nil => norm_num
  | cons warning warnings inductionHypothesis =>
    have most := warnings.countP_le_length (p := fun warning => warning.severity == .critical)
    rw [List.map_cons, List.sum_cons, inductionHypothesis, List.countP_cons, List.length_cons,
      Nat.cast_sub most, RiskWarning.weight]
    by_cases critical : warning.severity = .critical
    · rw [if_pos critical, if_pos (beq_iff_eq.mpr critical), Nat.add_sub_add_right,
        Nat.cast_sub most]
      push_cast
      ring
    · rw [if_neg critical, if_neg (mt beq_iff_eq.mp critical), Nat.add_zero,
        Nat.cast_sub (most.trans (Nat.le_succ _))]
      push_cast
      ring

theorem sum_historyWeight (verdicts : List (Option Verdict)) :
    (verdicts.map historyWeight).sum =
      (verdicts.count (some .blocked) : Nat) * (10 / 100) +
        (verdicts.count (some .risky) : Nat) * (5 / 100) := by
  induction verdicts with
  | nil => norm_num
  | cons verdict verdicts inductionHypothesis =>
    rw [List.map_cons, List.sum_cons, inductionHypothesis, List.count_cons, List.count_cons]
    rcases verdict with _ | _ | _ | _ <;> simp [historyWeight, historyRank] <;> ring

/-- A list with one of its items exchanged for one that has at least its weight. -/
theorem sum_exchange_le {Item : Type} (weight : Item → ℚ) {item other : Item}
    (heavier : weight item ≤ weight other) (before after : List Item) :
    ((before ++ item :: after).map weight).sum ≤ ((before ++ other :: after).map weight).sum := by
  simp only [List.map_append, List.map_cons, List.sum_append, List.sum_cons]
  linarith

namespace RiskInputs

/-! ### Factors -/

section
variable (inputs : RiskInputs ℚ)

theorem driftFactor_eq :
    inputs.driftFactor = min (inputs.warnings.map RiskWarning.weight).sum (35 / 100) := by
  rw [sum_weight, driftFactor, smaller_rat, decimal_rat, decimal_rat, decimal_rat]
  norm_num [Arithmetic.count]

theorem historyFactor_eq :
    inputs.historyFactor = min (inputs.recent.map historyWeight).sum (25 / 100) := by
  rw [sum_historyWeight, historyFactor, smaller_rat, decimal_rat, decimal_rat, decimal_rat]
  norm_num [Arithmetic.count]

theorem sideEffectFactor_eq :
    inputs.sideEffectFactor = min (inputs.density * (4 / 10)) (20 / 100) := by
  rw [sideEffectFactor, smaller_rat, decimal_rat, decimal_rat]
  norm_num

theorem coverageFactor_eq :
    inputs.coverageFactor = min (inputs.coverageGap * (2 / 10)) (20 / 100) := by
  rw [coverageFactor, smaller_rat, decimal_rat, decimal_rat]
  norm_num

theorem density_eq {graph : WorkflowGraph} (known : inputs.graph = some graph)
    (some : graph.nodes ≠ []) : inputs.density = graph.effectNodeCount / graph.nodes.length := by
  rw [density, known, Option.bind_some, WorkflowGraph.effectDensity?,
    if_neg (mt List.isEmpty_iff.mp some)]
  rfl

theorem density_nonneg : 0 ≤ inputs.density := by
  unfold density
  cases inputs.graph with
  | none => exact zero_le_one
  | some graph =>
    rw [Option.bind_some, WorkflowGraph.effectDensity?]
    split
    · exact zero_le_one
    · exact div_nonneg (Nat.cast_nonneg _) (Nat.cast_nonneg _)

theorem coverageGap_eq {percentage : ℚ} (known : inputs.coveragePct = some percentage) :
    inputs.coverageGap = 1 - max 0 (min (percentage / 100) 1) := by
  rw [coverageGap, known, ← coverageFraction_rat]
  rfl

theorem coverageGap_nonneg : 0 ≤ inputs.coverageGap := by
  cases declared : inputs.coveragePct with
  | none =>
    rw [coverageGap, declared]
    exact zero_le_one
  | some percentage =>
    rw [inputs.coverageGap_eq declared, sub_nonneg]
    exact max_le zero_le_one (min_le_right _ _)

theorem withinCaps : inputs.factors.WithinCaps where
  drift := by
    have weights : 0 ≤ (inputs.warnings.map RiskWarning.weight).sum :=
      List.sum_nonneg (List.forall_mem_map.mpr fun warning _ => warning.weight_nonneg)
    show 0 ≤ inputs.driftFactor ∧ inputs.driftFactor ≤ _
    rw [driftFactor_eq]
    exact ⟨le_min weights (by norm_num), min_le_right _ _⟩
  history := by
    have weights : 0 ≤ (inputs.recent.map historyWeight).sum :=
      List.sum_nonneg (List.forall_mem_map.mpr fun verdict _ => historyWeight_nonneg verdict)
    show 0 ≤ inputs.historyFactor ∧ inputs.historyFactor ≤ _
    rw [historyFactor_eq]
    exact ⟨le_min weights (by norm_num), min_le_right _ _⟩
  sideEffect := by
    have share := inputs.density_nonneg
    show 0 ≤ inputs.sideEffectFactor ∧ inputs.sideEffectFactor ≤ _
    rw [sideEffectFactor_eq]
    exact ⟨le_min (by positivity) (by norm_num), min_le_right _ _⟩
  coverage := by
    have gap := inputs.coverageGap_nonneg
    show 0 ≤ inputs.coverageFactor ∧ inputs.coverageFactor ≤ _
    rw [coverageFactor_eq]
    exact ⟨le_min (by positivity) (by norm_num), min_le_right _ _⟩

/-! ### Scores -/

/-- The sum of the factors, at most one, before it is rounded. -/
def cappedSum : ℚ :=
  min (inputs.driftFactor + inputs.historyFactor + inputs.sideEffectFactor + inputs.coverageFactor)
    1

theorem cappedSum_nonneg : 0 ≤ inputs.cappedSum := by
  obtain ⟨drift, history, sideEffect, coverage⟩ := inputs.withinCaps
  have sum := add_nonneg (add_nonneg (add_nonneg drift.1 history.1) sideEffect.1) coverage.1
  exact le_min sum zero_le_one

/-- The score is the capped sum, rounded to four places, halves upwards. -/
theorem score_eq : inputs.score = (⌊inputs.cappedSum * 10 ^ 4 + 1 / 2⌋ : ℚ) / 10 ^ 4 := by
  rw [← roundTo_rat 4 inputs.cappedSum_nonneg, score, smaller_rat]
  exact congrArg (fun one : ℚ => Arithmetic.roundTo 4 (min _ one)) Nat.cast_one

theorem score_bounds : 0 ≤ inputs.score ∧ inputs.score ≤ 1 := by
  have least := inputs.cappedSum_nonneg
  have most : inputs.cappedSum ≤ 1 := min_le_right _ _
  have floorLeast : (0 : ℤ) ≤ ⌊inputs.cappedSum * 10 ^ 4 + 1 / 2⌋ :=
    Int.floor_nonneg.mpr (by positivity)
  have floorMost : ⌊inputs.cappedSum * 10 ^ 4 + 1 / 2⌋ ≤ 10 ^ 4 := by
    refine Int.floor_le_iff.mpr ?_
    push_cast
    linarith
  rw [score_eq]
  refine ⟨div_nonneg (by exact_mod_cast floorLeast) (by norm_num), ?_⟩
  exact (div_le_one (by norm_num)).mpr (by exact_mod_cast floorMost)

end

variable {inputs other : RiskInputs ℚ}

/-- Where no factor gets smaller, the score does not, as rounding keeps the order. -/
theorem score_le_of_factors (drift : inputs.driftFactor ≤ other.driftFactor)
    (history : inputs.historyFactor ≤ other.historyFactor)
    (sideEffect : inputs.sideEffectFactor ≤ other.sideEffectFactor)
    (coverage : inputs.coverageFactor ≤ other.coverageFactor) : inputs.score ≤ other.score := by
  have sum : inputs.cappedSum ≤ other.cappedSum :=
    min_le_min_right 1 (add_le_add (add_le_add (add_le_add drift history) sideEffect) coverage)
  rw [score_eq, score_eq]
  gcongr

/-! ### More risk -/

/-- A verdict that comes in front has at least the weight of the one that no longer counts. -/
theorem sum_take_le_sum_take_cons (window : Nat) (verdicts : List (Option Verdict)) :
    ((verdicts.take window).map historyWeight).sum ≤
      (((some .blocked :: verdicts).take window).map historyWeight).sum := by
  cases window with
  | zero => exact le_rfl
  | succ window =>
    have last : (((verdicts.drop window).take 1).map historyWeight).sum ≤
        historyWeight (some .blocked) := by
      cases verdicts.drop window with
      | nil => exact historyWeight_nonneg _
      | cons verdict _ => simpa using historyWeight_le verdict
    rw [List.take_succ_cons, List.map_cons, List.sum_cons, List.take_add, List.map_append,
      List.sum_append]
    linarith

theorem sum_warnings_le {before after : List RiskWarning} (warning : RiskWarning) :
    ((before ++ after).map RiskWarning.weight).sum ≤
      ((before ++ warning :: after).map RiskWarning.weight).sum := by
  have weight := warning.weight_nonneg
  simp only [List.map_append, List.map_cons, List.sum_append, List.sum_cons]
  linarith

theorem driftFactor_le_of_sum (weights : (inputs.warnings.map RiskWarning.weight).sum ≤
    (other.warnings.map RiskWarning.weight).sum) : inputs.driftFactor ≤ other.driftFactor := by
  rw [driftFactor_eq, driftFactor_eq]
  exact min_le_min_right _ weights

theorem historyFactor_le_of_sum (weights : (inputs.recent.map historyWeight).sum ≤
    (other.recent.map historyWeight).sum) : inputs.historyFactor ≤ other.historyFactor := by
  rw [historyFactor_eq, historyFactor_eq]
  exact min_le_min_right _ weights

theorem sideEffectFactor_le_of_density (shares : inputs.density ≤ other.density) :
    inputs.sideEffectFactor ≤ other.sideEffectFactor := by
  rw [sideEffectFactor_eq, sideEffectFactor_eq]
  gcongr

theorem coverageFactor_le_of_gap (gaps : inputs.coverageGap ≤ other.coverageGap) :
    inputs.coverageFactor ≤ other.coverageFactor := by
  rw [coverageFactor_eq, coverageFactor_eq]
  gcongr

/-- The share of functions with side effects grows when one more of them has some. -/
theorem share_le_of_gained {graph : WorkflowGraph} {before after : List CallNode}
    {node effective : CallNode} (split : graph.nodes = before ++ node :: after)
    (without : node.hasEffects = false) (gained : effective.hasEffects = true) :
    let more := { graph with nodes := before ++ effective :: after }
    (graph.effectNodeCount / graph.nodes.length : ℚ) ≤
      more.effectNodeCount / more.nodes.length := by
  intro more
  have size : graph.nodes.length = more.nodes.length := by
    simp only [more, split, List.length_append, List.length_cons]
  have fewer : graph.effectNodeCount ≤ more.effectNodeCount := by
    simp only [more, WorkflowGraph.effectNodeCount, split, List.countP_append, List.countP_cons,
      without, gained, Bool.false_eq_true, if_true, if_false]
    omega
  rw [size]
  gcongr

theorem Worsens.score_le (worsens : inputs.Worsens other) : inputs.score ≤ other.score := by
  cases worsens with
  | addsWarning warning split =>
    refine score_le_of_factors (driftFactor_le_of_sum ?_) le_rfl le_rfl le_rfl
    rw [split]
    exact sum_warnings_le warning
  | makesCritical split =>
    refine score_le_of_factors (driftFactor_le_of_sum ?_) le_rfl le_rfl le_rfl
    rw [split]
    exact sum_exchange_le _ (RiskWarning.weight_le_critical _) _ _
  | @worsensVerdict before after verdict worse split counts rank =>
    refine score_le_of_factors le_rfl (historyFactor_le_of_sum ?_) le_rfl le_rfl
    have heavier : historyWeight verdict ≤ historyWeight worse :=
      div_le_div_of_nonneg_right (by exact_mod_cast rank) (by norm_num)
    -- The verdict counts, so it stands in what is taken of the history.
    obtain ⟨more, window⟩ := Nat.exists_eq_add_of_lt counts
    rw [Nat.add_assoc] at window
    have taken : ∀ verdict, (before ++ verdict :: after).take inputs.historyWindow =
        before ++ verdict :: after.take more := fun verdict => by
      rw [window, List.take_length_add_append, List.take_succ_cons]
    unfold recent
    rw [split, taken, taken]
    exact sum_exchange_le _ heavier _ _
  | blocksRun =>
    exact score_le_of_factors le_rfl (historyFactor_le_of_sum (sum_take_le_sum_take_cons _ _))
      le_rfl le_rfl
  | @addsEffect graph before after node effective known split without gained =>
    refine score_le_of_factors le_rfl le_rfl (sideEffectFactor_le_of_density ?_) le_rfl
    have some : before ++ node :: after ≠ [] ∧ before ++ effective :: after ≠ [] := by simp
    rw [density_eq _ known (split ▸ some.1), density_eq _ rfl some.2]
    exact share_le_of_gained split without gained
  | @dropsCoverage percentage lower known drop =>
    refine score_le_of_factors le_rfl le_rfl le_rfl (coverageFactor_le_of_gap ?_)
    rw [coverageGap_eq _ known, coverageGap_eq _ rfl]
    gcongr
  | losesGraph =>
    refine score_le_of_factors le_rfl le_rfl ?_ le_rfl
    have worst : ({ inputs with graph := none } : RiskInputs ℚ).density = 1 := Nat.cast_one
    rw [sideEffectFactor_eq { inputs with graph := none }, worst]
    exact inputs.withinCaps.sideEffect.2.trans (by norm_num)
  | losesSuite =>
    refine score_le_of_factors le_rfl le_rfl le_rfl ?_
    have worst : ({ inputs with coveragePct := none } : RiskInputs ℚ).coverageGap = 1 :=
      Nat.cast_one
    rw [coverageFactor_eq { inputs with coveragePct := none }, worst]
    exact inputs.withinCaps.coverage.2.trans (by norm_num)

/-- The order of warnings and of verdicts that count makes no difference, as their weights are
summed up. -/
theorem Rearranges.score_eq (rearranges : inputs.Rearranges other) :
    other.score = inputs.score := by
  have drift : other.driftFactor = inputs.driftFactor := by
    rw [driftFactor_eq, driftFactor_eq, (rearranges.warnings.map _).sum_eq]
  have history : other.historyFactor = inputs.historyFactor := by
    rw [historyFactor_eq, historyFactor_eq, (rearranges.recent.map _).sum_eq]
  have sideEffect : other.sideEffectFactor = inputs.sideEffectFactor := by
    rw [sideEffectFactor, sideEffectFactor, density, density, rearranges.graph]
  have coverage : other.coverageFactor = inputs.coverageFactor := by
    rw [coverageFactor, coverageFactor, coverageGap, coverageGap, rearranges.coveragePct]
  rw [score, score, drift, history, sideEffect, coverage]

/-! ### Assessments -/

/-- Over the rational numbers a score lies between zero and one and no factor exceeds its cap.
Whatever speaks for more risk does not make the score smaller, and neither the order of warnings and
verdicts nor the verdicts that do not count make a difference. -/
theorem assessRisk_monotone (inputs : RiskInputs ℚ) (computedAt : String) :
    (0 ≤ (assessRisk inputs computedAt).score ∧ (assessRisk inputs computedAt).score ≤ 1) ∧
      (assessRisk inputs computedAt).factors.WithinCaps ∧
      (∀ worse later, inputs.Worsens worse →
        (assessRisk inputs computedAt).score ≤ (assessRisk worse later).score) ∧
      ∀ other later, inputs.Rearranges other →
        (assessRisk other later).score = (assessRisk inputs computedAt).score :=
  ⟨inputs.score_bounds, inputs.withinCaps, fun _ _ worsens => worsens.score_le,
    fun _ _ rearranges => rearranges.score_eq⟩

/-- A migration of a shop with two warnings. Two of the past runs count. -/
def shopRisk (warnings : List RiskWarning) (history : List (Option Verdict)) : RiskInputs ℚ :=
  ⟨warnings, history, 2, 1, none, some 60⟩

/-- One more blocked run takes the place of a safe one, and the score goes up. Warnings and verdicts
in another order leave it as it is, with another verdict where none counts any more. -/
theorem shopRisk_monotone :
    let rounding := RiskWarning.mk .memory "total" .critical "rounds down" 3
    let printing := RiskWarning.mk .semantic "print" .nonCritical "prints twice" 1
    let inputs := shopRisk [rounding, printing] [some .risky, some .safe, some .blocked]
    let worse := { inputs with history := some .blocked :: inputs.history }
    let other := shopRisk [printing, rounding] [some .safe, some .risky, none]
    (inputs.Worsens worse ∧ inputs.Rearranges other) ∧
      (assessRisk inputs "").score = 53 / 100 ∧ (assessRisk worse "").score = 63 / 100 ∧
      (assessRisk inputs "").score ≤ (assessRisk worse "").score ∧
      (assessRisk other "").score = (assessRisk inputs "").score := by
  intro rounding printing inputs worse other
  have worsens : inputs.Worsens worse := .blocksRun
  have rearranges : inputs.Rearranges other := ⟨.swap _ _ _, .swap _ _ _, rfl, rfl⟩
  obtain ⟨-, -, larger, same⟩ := assessRisk_monotone inputs ""
  exact ⟨⟨worsens, rearranges⟩, by decide +kernel, by decide +kernel, larger worse "" worsens,
    same other "" rearranges⟩

end RiskInputs

end MigrationGuard
