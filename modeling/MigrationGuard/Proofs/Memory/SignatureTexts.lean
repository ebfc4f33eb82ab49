/-
This file says what the fingerprint of a function tells. The text under it is the
same for two functions just if they have the same signature and the same side
effects. It is made of the signature, what the signature returns and the names of
the effects, with bars between them. The names hold no bar, so the last bar tells
the effects. The two parts before it are harder to tell apart, as a signature may
hold bars and arrows itself: what it returns stands behind its last arrow, so a
signature that went on behind a bar would return more than the text has room for.
The fingerprint is a short hash of the text, and it tells functions apart as far
as their texts do not collide, which is assumed only of the two texts that are
compared.
-/

import MigrationGuard.Memory.Repository
import MigrationGuard.Proofs.Text.Search

namespace MigrationGuard

/-! ### Looking alike -/

/-- The text that the fingerprint of a function is taken of: its signature, what that returns, and
its effects. -/
def CallNode.payload (node : CallNode) : String :=
  signaturePayload node.signature (returnTypeOf node.signature) node.effects.names

/-- Two functions look alike: memory keeps the same of them but for where they stand. -/
structure CallNode.LooksLike (node other : CallNode) : Prop where
  /-- They have the same signature. -/
  signature : node.signature = other.signature
  /-- They have the same side effects. -/
  effects : ∀ effect, node.effects.contains effect = other.effects.contains effect

theorem CallNode.looksLike_iff {node other : CallNode} :
    node.LooksLike other ↔
      node.signature = other.signature ∧ node.effects = other.effects := by
  refine ⟨fun alike => ⟨alike.signature, EffectSet.ext_contains alike.effects⟩, ?_⟩
  rintro ⟨signature, effects⟩
  exact ⟨signature, fun effect => by rw [effects]⟩

theorem CallNode.not_looksLike_iff {node other : CallNode} :
    ¬ node.LooksLike other ↔
      node.signature ≠ other.signature ∨
        ∃ effect, node.effects.contains effect ≠ other.effects.contains effect := by
  rw [← not_forall, ← not_and_or]
  exact not_congr ⟨fun ⟨signature, effects⟩ => ⟨signature, effects⟩,
    fun ⟨signature, effects⟩ => ⟨signature, effects⟩⟩

/-! ### Signatures -/

/-- The text that stands before what a signature returns, with a blank on either side. -/
def returnArrow : List Char := " -> ".toList

theorem toList_returnTypeOf (signature : String) :
    (returnTypeOf signature).toList =
      ((Text.behindLastText returnArrow signature.toList).map Text.trim).getD [] := by
  rw [returnTypeOf, ← returnArrow]
  cases Text.behindLastText returnArrow signature.toList with
  | none => rfl
  | some behind => exact String.toList_ofList

/-- What a signature returns holds no arrow, as it stands behind the last one. -/
theorem not_infix_returnTypeOf (signature : String) :
    ¬ returnArrow <:+: (returnTypeOf signature).toList := by
  rw [toList_returnTypeOf]
  cases found : Text.behindLastText returnArrow signature.toList with
  | none => decide
  | some behind =>
    intro occurs
    refine Text.not_infix_of_behindLastText (by decide) found ?_
    exact occurs.trans (Text.trim_infix_self behind)

/-- A signature that returns something and goes on behind a bar, without a further arrow, returns
more than it did. -/
theorem length_returnTypeOf_lt {signature longer : String} {more : List Char}
    (goesOn : longer.toList = signature.toList ++ '|' :: more) (free : ¬ returnArrow <:+: more)
    (returns : (returnTypeOf signature).toList ≠ []) :
    (returnTypeOf signature).toList.length < (returnTypeOf longer).toList.length := by
  rw [toList_returnTypeOf] at returns
  rw [toList_returnTypeOf, toList_returnTypeOf, goesOn,
    Text.behindLastText_append_mark (by decide) (by decide) free]
  cases found : Text.behindLastText returnArrow signature.toList with
  | none =>
    rw [found] at returns
    exact absurd rfl returns
  | some behind =>
    have kept : (Text.trim behind).length ≤ (Text.trimStart behind).length :=
      (Text.trimEnd_prefix_self _).length_le
    simp only [Option.map_some, Option.getD_some]
    rw [Text.trim_append_mark (by decide), List.length_append, List.length_cons]
    omega

/-- No signature goes on so that what the shorter one returns is read as the rest of it. -/
theorem eq_nil_of_append_bar {signature other : String} {extra : List Char}
    (longer : other.toList = signature.toList ++ extra)
    (rest : '|' :: (returnTypeOf signature).toList =
      extra ++ '|' :: (returnTypeOf other).toList) : extra = [] := by
  cases extra with
  | nil => rfl
  | cons bar more =>
    rw [List.cons_append, List.cons.injEq] at rest
    obtain ⟨rfl, returned⟩ := rest
    have free : ¬ returnArrow <:+: more := by
      intro occurs
      refine not_infix_returnTypeOf signature (occurs.trans ?_)
      exact returned ▸ (List.prefix_append _ _).isInfix
    -- What is returned would be longer and shorter at once.
    have shorter := length_returnTypeOf_lt longer free (by simp [returned])
    have lengths := congrArg List.length returned
    rw [List.length_append, List.length_cons] at lengths
    omega

/-- A signature that is followed by what it returns is told apart from every other one. -/
theorem append_bar_inj {signature other : String}
    (same : signature.toList ++ '|' :: (returnTypeOf signature).toList =
      other.toList ++ '|' :: (returnTypeOf other).toList) : signature = other := by
  obtain ⟨extra, longer, rest⟩ | ⟨extra, longer, rest⟩ := List.append_eq_append_iff.mp same
  · obtain rfl := eq_nil_of_append_bar longer rest
    exact String.toList_inj.mp (longer.trans (List.append_nil _)).symm
  · obtain rfl := eq_nil_of_append_bar longer rest
    exact String.toList_inj.mp (longer.trans (List.append_nil _))

/-! ### Side effects -/

theorem SideEffect.find?_name (effect : SideEffect) :
    Data.Named.find? (Data.Named.name effect) = some effect := by
  cases effect <;> decide

theorem SideEffect.name_injective :
    Function.Injective (Data.Named.name : SideEffect → String) := by
  intro effect other same
  refine Option.some.inj ?_
  rw [← find?_name effect, same, find?_name]

namespace EffectSet

theorem names_injective : Function.Injective names := by
  intro effects others same
  have members := SideEffect.name_injective.list_map same
  rw [← ofList_toList effects, members, ofList_toList]

/-- The name of a side effect is a word in which no separator stands. -/
theorem plain_of_mem_names {effects : EffectSet} {name : String} (member : name ∈ effects.names) :
    name ≠ "" ∧ ',' ∉ name.toList ∧ '|' ∉ name.toList := by
  obtain ⟨effect, -, rfl⟩ := List.mem_map.mp member
  cases effect <;> decide

theorem joined_names_inj {effects others : EffectSet}
    (same : Text.joined "," effects.names = Text.joined "," others.names) : effects = others := by
  have free : ∀ (effects : EffectSet), ∀ name ∈ effects.names, ',' ∉ name.toList :=
    fun _ _ member => (plain_of_mem_names member).2.1
  have present : ∀ effects : EffectSet, "" ∉ effects.names :=
    fun _ member => (plain_of_mem_names member).1 rfl
  exact names_injective (Text.joined_inj (free effects) (free others) (present effects)
    (present others) same)

theorem bar_not_mem_joined_names (effects : EffectSet) :
    '|' ∉ (Text.joined "," effects.names).toList :=
  Text.not_mem_joined (by decide) fun _ member => (plain_of_mem_names member).2.2

end EffectSet

/-! ### Fingerprints -/

/-- The last bar of the text stands before the side effects, as no name of an effect holds one. -/
theorem CallNode.cutAtLast_payload (node : CallNode) :
    Text.cutAtLast '|' node.payload.toList =
      some (node.signature.toList ++ '|' :: (returnTypeOf node.signature).toList,
        (Text.joined "," node.effects.names).toList) := by
  rw [← Text.cutAtLast_append node.effects.bar_not_mem_joined_names, payload, signaturePayload]
  simp only [String.toList_append, List.append_assoc]
  rfl

theorem CallNode.payload_eq_iff {node other : CallNode} :
    node.payload = other.payload ↔ node.LooksLike other := by
  rw [looksLike_iff]
  constructor
  · intro same
    have cut := node.cutAtLast_payload
    rw [same, other.cutAtLast_payload, Option.some.injEq, Prod.mk.injEq] at cut
    exact ⟨(append_bar_inj cut.1).symm,
      (EffectSet.joined_names_inj (String.toList_inj.mp cut.2)).symm⟩
  · rintro ⟨signature, effects⟩
    rw [payload, payload, signature, effects]

/-- Where the texts of two functions do not collide, functions that look alike have the same
fingerprint and no others. -/
theorem CallNode.shortHash_payload_eq_iff {node other : CallNode}
    (apart : shortHash node.payload = shortHash other.payload → node.payload = other.payload) :
    shortHash node.payload = shortHash other.payload ↔ node.LooksLike other := by
  rw [← payload_eq_iff]
  exact ⟨apart, congrArg shortHash⟩

/-- The text under the fingerprint of a function tells its signature and its side effects and
nothing else. Where the texts of two functions do not collide, the fingerprint changes just if the
signature or a side effect does. -/
theorem SignatureRecord.distinguishes_ofNode (repository otherRepository : String)
    (node other : CallNode) (now later : Int) :
    let record := ofNode repository node now
    let otherRecord := ofNode otherRepository other later
    record.snapshotHash = shortHash node.payload ∧
      otherRecord.snapshotHash = shortHash other.payload ∧
      (node.payload = other.payload ↔ node.LooksLike other) ∧
      ((shortHash node.payload = shortHash other.payload → node.payload = other.payload) →
        (record.snapshotHash ≠ otherRecord.snapshotHash ↔
          node.signature ≠ other.signature ∨
            ∃ effect, node.effects.contains effect ≠ other.effects.contains effect)) := by
  intro record otherRecord
  have hash : record.snapshotHash = shortHash node.payload := rfl
  have otherHash : otherRecord.snapshotHash = shortHash other.payload := rfl
  refine ⟨hash, otherHash, CallNode.payload_eq_iff, fun apart => ?_⟩
  rw [hash, otherHash, ne_eq, CallNode.shortHash_payload_eq_iff apart, CallNode.not_looksLike_iff]

/-- A function whose signature holds the bar, in what it returns. -/
def pickNode : CallNode :=
  .make "shop" "pick" 3 .empty "def pick(key) -> int|str"

/-- The function stands elsewhere, in another module and on another line. -/
def movedNode : CallNode :=
  .make "store" "pick" 40 .empty "def pick(key) -> int|str"

/-- The function returns more, behind a further bar, so its text goes on as the other one might. -/
def longerNode : CallNode :=
  .make "shop" "pick" 3 .empty "def pick(key) -> int|str|int"

/-- A function that is moved keeps its fingerprint, and one that returns more does not. -/
theorem SignatureRecord.distinguishes_pickNode :
    (ofNode "shop" pickNode 1).snapshotHash = (ofNode "store" movedNode 2).snapshotHash ∧
      (ofNode "shop" pickNode 1).snapshotHash ≠ (ofNode "shop" longerNode 2).snapshotHash := by
  constructor
  · have alike : pickNode.LooksLike movedNode := ⟨rfl, fun _ => rfl⟩
    have changes := (distinguishes_ofNode "shop" "store" pickNode movedNode 1 2).2.2.2 fun _ =>
      CallNode.payload_eq_iff.mpr alike
    by_contra changed
    exact CallNode.not_looksLike_iff.mpr (changes.mp changed) alike
  · have apart : shortHash pickNode.payload ≠ shortHash longerNode.payload := by decide +kernel
    have changes := (distinguishes_ofNode "shop" "shop" pickNode longerNode 1 2).2.2.2 fun same =>
      absurd same apart
    exact changes.mpr (.inl (by decide))

end MigrationGuard
