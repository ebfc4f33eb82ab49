/-
This file follows passes that fail and are made again. A pass that fails has
written the snapshots of a first part of its functions for good, and what changed
in them is told to nobody: the next pass that succeeds finds them as they are now.
It reports what changed in the functions behind that part. However many passes
fail, and wherever each of them does, what has been recorded in the end is the
longest of their first parts, so it is one part again and never the whole. This is
kept by each pass that fails, with the other functions having the snapshots that
they had before the first attempt, and from it the answer of the next pass that
succeeds can be told. At the end a store with a constraint of its own refuses the
second function of a pass.
-/

import Mathlib.Data.List.Infix
import Mathlib.Data.List.Nodup
import Mathlib.Data.Prod.Basic
import MigrationGuard.Proofs.Memory.Snapshots

namespace MigrationGuard

variable {World : Type}

/-! ### Records of distinct functions -/

section
variable {rows records : List SignatureRecord}

/-- Records leave the snapshots of other functions as they are, in whichever order they come. -/
theorem find_passOver_of_not_mem {key : String × String}
    (absent : key ∉ records.map SignatureRecord.key) :
    (passOver rows records).2.find? (fun row => row.key = key) =
      rows.find? fun row => row.key = key := by
  induction records generalizing rows with
  | nil => rfl
  | cons record records inductionHypothesis =>
    rw [List.map_cons, List.mem_cons, not_or] at absent
    rw [passOver, inductionHypothesis absent.2, find_renewed, if_neg (Ne.symm absent.1)]

/-- Records of distinct functions become their snapshots, whatever was there before. -/
theorem find_passOver_of_mem (distinct : (records.map SignatureRecord.key).Nodup)
    {record : SignatureRecord} (among : record ∈ records) :
    (passOver rows records).2.find? (fun row => row.key = record.key) = some record := by
  induction records generalizing rows with
  | nil => exact nomatch among
  | cons first records inductionHypothesis =>
    rw [List.map_cons, List.nodup_cons] at distinct
    rw [passOver]
    obtain rfl | later := List.mem_cons.mp among
    · rw [find_passOver_of_not_mem distinct.1, find_renewed, if_pos rfl]
    · exact inductionHypothesis distinct.2 later

/-- Records of distinct functions are all compared with the snapshots before all of them. -/
theorem changes_passOver (rows : List SignatureRecord)
    (distinct : (records.map SignatureRecord.key).Nodup) :
    (passOver rows records).1 = records.filterMap (changeOver? rows) := by
  induction records generalizing rows with
  | nil => rfl
  | cons first records inductionHypothesis =>
    rw [List.map_cons, List.nodup_cons] at distinct
    have others : records.filterMap (changeOver? (renewed rows first)) =
        records.filterMap (changeOver? rows) := by
      refine List.filterMap_congr fun record among => changeOver_congr ?_
      rw [find_renewed, if_neg]
      exact fun same => distinct.1 (same ▸ List.mem_map_of_mem among)
    rw [passOver, inductionHypothesis _ distinct.2, others, List.filterMap_cons]
    cases changeOver? rows first <;> rfl

end

/-! ### Attempts that fail -/

/-- Passes over some functions of a repository fail one after the other. In between all may happen
that leaves the snapshots as they are. -/
inductive FailedAttempts (store : World → Store) (id : String) (nodes : List CallNode)
    (start : World) : World → Prop where
  /-- Nothing has happened yet. -/
  | begins : FailedAttempts store id nodes start start
  /-- Something else happens. -/
  | elsewhere {world later : World} (attempts : FailedAttempts store id nodes start world)
    (same : (store later).snapshots id = (store world).snapshots id) :
    FailedAttempts store id nodes start later
  /-- A pass fails. -/
  | fails {world later : World} {failure : MemoryFailure}
    (attempts : FailedAttempts store id nodes start world) (pass : FunctionPass World)
    (shares : pass.memory.Shares store) (sameId : pass.memory.id = id)
    (sameNodes : pass.nodes = nodes) (failed : pass.run world = (.error failure, later)) :
    FailedAttempts store id nodes start later

/-- A first part of some functions has the snapshots that they have now, and the others have those
that they had before. -/
structure RecordedUpTo (reached : Nat) (id : String) (nodes : List CallNode)
    (before rows : List SignatureRecord) : Prop where
  /-- The part is not the whole. -/
  early : reached = 0 ∨ reached < nodes.length
  /-- The part has been recorded, at whatever time. -/
  new : ∀ node ∈ nodes, node.id ∈ (nodes.map CallNode.id).take reached →
    ∃ now, rows.find? (fun row => row.key = (id, node.id)) = some (.ofNode id node now)
  /-- The others have not. -/
  old : ∀ node ∈ nodes, node.id ∉ (nodes.map CallNode.id).take reached →
    rows.find? (fun row => row.key = (id, node.id)) =
      before.find? fun row => row.key = (id, node.id)

section
variable {id : String} {nodes : List CallNode} {before rows later : List SignatureRecord}

theorem key_mem_take (id : String) (nodes : List CallNode) (now : Int) (reached : Nat)
    (name : String) :
    (id, name) ∈ ((nodes.map fun node => SignatureRecord.ofNode id node now).take reached).map
      SignatureRecord.key ↔ name ∈ (nodes.map CallNode.id).take reached := by
  have keys : (nodes.map fun node => SignatureRecord.ofNode id node now).map SignatureRecord.key =
      (nodes.map CallNode.id).map (Prod.mk id) := by
    rw [List.map_map, List.map_map]
    rfl
  rw [List.map_take, keys, ← List.map_take]
  exact List.mem_map_of_injective (Prod.mk_right_injective id)

theorem nodup_keys (id : String) (now : Int) (distinct : (nodes.map CallNode.id).Nodup) :
    ((nodes.map fun node => SignatureRecord.ofNode id node now).map SignatureRecord.key).Nodup := by
  refine List.Nodup.of_map Prod.snd ?_
  rw [List.map_map, List.map_map]
  exact distinct

theorem mem_take_max {Item : Type} {items : List Item} {item : Item} {one other : Nat} :
    item ∈ items.take (max one other) ↔ item ∈ items.take one ∨ item ∈ items.take other := by
  rcases Nat.le_total one other with le | le
  · rw [Nat.max_eq_right le, or_iff_right_of_imp]
    exact fun among => (List.take_prefix_take_left le).subset among
  · rw [Nat.max_eq_left le, or_iff_left_of_imp]
    exact fun among => (List.take_prefix_take_left le).subset among

/-- A pass that fails records a first part of its functions, besides those that are recorded. -/
theorem RecordedUpTo.again {reached : Nat} (recorded : RecordedUpTo reached id nodes before rows)
    (distinct : (nodes.map CallNode.id).Nodup) {now : Int} {failure : MemoryFailure}
    (ends : PassEnds rows (nodes.map fun node => SignatureRecord.ofNode id node now)
      (.error failure) later) :
    ∃ further, RecordedUpTo further id nodes before later := by
  cases ends with
  | fails farther early failure =>
    rw [List.length_map] at early
    refine ⟨max reached farther, ?_, fun node among taken => ?_, fun node among left => ?_⟩
    · rcases Nat.le_total reached farther with le | le
      · rwa [Nat.max_eq_right le]
      · rw [Nat.max_eq_left le]
        exact recorded.early
    · by_cases again : node.id ∈ (nodes.map CallNode.id).take farther
      · obtain ⟨record, inTake, sameKey⟩ :=
          List.mem_map.mp ((key_mem_take id nodes now farther node.id).mpr again)
        obtain ⟨other, amongToo, rfl⟩ := List.mem_map.mp (List.mem_of_mem_take inTake)
        obtain rfl : other = node :=
          List.inj_on_of_nodup_map distinct amongToo among (congrArg Prod.snd sameKey :)
        have kept := (nodup_keys id now distinct).sublist ((List.take_sublist farther _).map _)
        exact ⟨now, find_passOver_of_mem kept inTake⟩
      · rw [find_passOver_of_not_mem fun known => again ((key_mem_take _ _ _ _ _).mp known)]
        exact recorded.new node among ((mem_take_max.mp taken).resolve_right again)
    · rw [mem_take_max, not_or] at left
      rw [find_passOver_of_not_mem fun known => left.2 ((key_mem_take _ _ _ _ _).mp known)]
      exact recorded.old node among left.1

/-- What is told of functions of which a first part has been recorded is what changed in the others
since before. -/
theorem RecordedUpTo.changes {reached : Nat} (recorded : RecordedUpTo reached id nodes before rows)
    (distinct : (nodes.map CallNode.id).Nodup) (now : Int) :
    (nodes.map fun node => SignatureRecord.ofNode id node now).filterMap (changeOver? rows) =
      (nodes.drop reached).filterMap fun node => changeOver? before (.ofNode id node now) := by
  rw [List.filterMap_map]
  conv_lhs => rw [← List.take_append_drop reached nodes, List.filterMap_append]
  have first : (nodes.take reached).filterMap
      (changeOver? rows ∘ fun node => SignatureRecord.ofNode id node now) = [] := by
    refine List.filterMap_eq_nil_iff.mpr fun node among => ?_
    have taken : node.id ∈ (nodes.map CallNode.id).take reached :=
      List.map_take ▸ List.mem_map_of_mem among
    obtain ⟨earlier, found⟩ := recorded.new node (List.mem_of_mem_take among) taken
    exact changeOver_of_same found (SignatureRecord.snapshotHash_ofNode id node earlier now)
  have others : (nodes.drop reached).filterMap
      (changeOver? rows ∘ fun node => SignatureRecord.ofNode id node now) =
      (nodes.drop reached).filterMap fun node => changeOver? before (.ofNode id node now) := by
    refine List.filterMap_congr fun node among => changeOver_congr ?_
    refine recorded.old node (List.mem_of_mem_drop among) fun taken => ?_
    exact List.disjoint_take_drop distinct (Nat.le_refl reached) taken
      (List.map_drop ▸ List.mem_map_of_mem among)
  rw [first, others, List.nil_append]

end

/-- Attempts that fail record a first part of their functions, however many they are. -/
theorem FailedAttempts.recorded {store : World → Store} {id : String} {nodes : List CallNode}
    {start world : World} (attempts : FailedAttempts store id nodes start world)
    (distinct : (nodes.map CallNode.id).Nodup) :
    ∃ reached,
      RecordedUpTo reached id nodes ((store start).snapshots id) ((store world).snapshots id) := by
  induction attempts with
  | begins => exact ⟨0, Or.inl rfl, fun _ _ none => (nomatch none), fun _ _ _ => rfl⟩
  | elsewhere _ same inductionHypothesis => exact same ▸ inductionHypothesis
  | @fails before _ _ _ pass shares sameId sameNodes failed inductionHypothesis =>
    obtain ⟨reached, recorded⟩ := inductionHypothesis
    subst sameId sameNodes
    have ends := pass.run_ends shares before
    rw [failed] at ends
    exact recorded.again distinct ends

/-- However many passes over some functions fail, the next one that succeeds reports all changes in
the functions behind a first part. The functions of that part have been recorded by passes that
failed, and their changes are lost. The part is never the whole. -/
theorem FailedAttempts.reports_rest {store : World → Store} {id : String} {nodes : List CallNode}
    {start world later : World} (attempts : FailedAttempts store id nodes start world)
    (distinct : (nodes.map CallNode.id).Nodup) (pass : FunctionPass World)
    (shares : pass.memory.Shares store) (sameId : pass.memory.id = id)
    (sameNodes : pass.nodes = nodes) {changes : List ChangedFunction}
    (done : pass.run world = (.ok changes, later)) :
    ∃ reached, (reached = 0 ∨ reached < nodes.length) ∧
      (∀ node ∈ nodes.take reached, ∃ now, ((store world).snapshots id).find?
        (fun row => row.key = (id, node.id)) = some (.ofNode id node now)) ∧
      changes = (nodes.drop reached).filterMap fun node =>
        changeOver? ((store start).snapshots id) (.ofNode id node pass.now) := by
  obtain ⟨reached, recorded⟩ := attempts.recorded distinct
  refine ⟨reached, recorded.early, fun node among => ?_, ?_⟩
  · exact recorded.new node (List.mem_of_mem_take among)
      (List.map_take ▸ List.mem_map_of_mem among)
  · subst sameId sameNodes
    have ends := pass.run_ends shares world
    rw [done] at ends
    have all := changes_passOver (pass.memory.snapshotsIn store world)
      (nodup_keys pass.memory.id pass.now distinct)
    exact ends.eq_of_ok.trans (all.trans (recorded.changes distinct pass.now))

/-! ### A pass of a shop that fails -/

/-- A database in a world that is nothing but what it keeps. It refuses what breaks its constraints.
-/
def Database.kept : Database (StateM KeptStore) where
  load kept := (.ok kept.store, kept)
  save next kept := match kept.replace next with
    | .ok later => (.ok (), later)
    | .error failure => (.error failure, kept)

theorem KeptStore.store_of_replace {kept later : KeptStore} {next : Store}
    (replaced : kept.replace next = .ok later) : later.store = next := by
  unfold replace at replaced
  split at replaced
  · exact nomatch replaced
  · exact Except.ok.inj replaced ▸ rfl

theorem Database.holds_kept : Database.kept.Holds KeptStore.store where
  load _ := rfl
  loaded _ _ found := (Except.ok.inj found).symm
  saved next kept done := by
    unfold Database.kept at done ⊢
    dsimp only at done ⊢
    split
    next replaced => exact KeptStore.store_of_replace replaced
    next failed =>
      rw [failed] at done
      exact nomatch done
  unsaved next kept failure failed := by
    unfold Database.kept at failed ⊢
    dsimp only at failed ⊢
    split
    next replaced =>
      rw [replaced] at failed
      exact nomatch failed
    next => rfl

/-- The store of a shop that knows three functions. No two functions may have the same signature at
the same time. -/
def strictShop : KeptStore where
  store := { Store.empty with
    signatures := [⟨"shop", "total", "def total()", "", [], "first", 1⟩,
      ⟨"shop", "print", "def print()", "", [], "second", 1⟩,
      ⟨"shop", "show", "def show(to)", "", [], "third", 2⟩] }
  indices := [⟨"function_sigs", "signatures", ["signature", "last_seen"]⟩]

/-- A pass that finds two functions changed. The second one now has the signature of another one. -/
def strictShopPass (now : Int) : FunctionPass KeptStore where
  memory := .alone "shop" "shop" .kept
  nodes := [⟨"total", "total", "", 1, .function, .empty, "def total(rate)"⟩,
    ⟨"print", "print", "", 2, .function, .empty, "def show(to)"⟩]
  now

/-- The first function was recorded before the pass failed, so the next pass, which comes later,
reports the second one alone. -/
theorem strictShop_reports :
    let failed := ((strictShopPass 2).run strictShop).2
    ((strictShopPass 2).run strictShop).1.toBool = false ∧
      ∃ reached, (reached = 0 ∨ reached < 2) ∧
        (∀ node ∈ (strictShopPass 3).nodes.take reached, ∃ now,
          (failed.store.snapshots "shop").find? (fun row => row.key = ("shop", node.id)) =
            some (.ofNode "shop" node now)) ∧
        [⟨"print", "def print()", "def show(to)"⟩] =
          ((strictShopPass 3).nodes.drop reached).filterMap fun node =>
            changeOver? (strictShop.store.snapshots "shop") (.ofNode "shop" node 3) := by
  intro failed
  have shares := RepositoryMemory.shares_alone "shop" "shop" Database.holds_kept
  have fails : ((strictShopPass 2).run strictShop).1 =
      .error (.store (.duplicate "function_sigs.signature, function_sigs.last_seen")) := by
    decide +kernel
  have done : ((strictShopPass 3).run failed).1 =
      .ok [⟨"print", "def print()", "def show(to)"⟩] := by
    decide +kernel
  have attempts :
      FailedAttempts KeptStore.store "shop" (strictShopPass 3).nodes strictShop failed :=
    .fails .begins (strictShopPass 2) shares rfl rfl (Prod.ext fails rfl)
  refine ⟨by rw [fails]; rfl, ?_⟩
  exact attempts.reports_rest (by decide) (strictShopPass 3) shares rfl rfl (Prod.ext done rfl)

/-- Both functions changed, but the change of the first one is reported neither by the pass that
fails nor by the next one, which succeeds. -/
theorem strictShop_loses :
    let failed := (strictShopPass 2).run strictShop
    ((strictShopPass 3).nodes.map CallNode.id).Nodup ∧
      ((strictShopPass 3).nodes.filterMap fun node =>
        changeOver? (strictShop.store.snapshots "shop") (.ofNode "shop" node 3)) =
          [⟨"total", "def total()", "def total(rate)"⟩,
            ⟨"print", "def print()", "def show(to)"⟩] ∧
      failed.1 =
        .error (.store (.duplicate "function_sigs.signature, function_sigs.last_seen")) ∧
      ((strictShopPass 3).run failed.2).1 = .ok [⟨"print", "def print()", "def show(to)"⟩] := by
  decide +kernel

end MigrationGuard
