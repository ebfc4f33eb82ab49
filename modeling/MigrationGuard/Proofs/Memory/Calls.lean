/-
This file shows that memories are clients of the store that they share. Whatever a
memory records or reviews is a sequence of writes of one client, each accepted by
the store or refused without a trace, and so the records of the repositories agree
with them, however the calls of several memories follow each other. Writes of
clients are described before, together with what they make of the records; here
calls are brought down to writes. It is enough to show that every way in which a
memory changes its store continues a history of clients, as calls are put together
from these. The main theorem states both: what holds of any history of clients,
and that a call of a memory leads to a further one. Its witness has two clients
that write to a shop, one of them late and twice, and then a memory that records a
run.
-/

import MigrationGuard.Proofs.Memory.Registry

namespace MigrationGuard

variable {World Client : Type}

/-- Wherever a history of clients stands, the action continues it with further writes, of which
there may be none. -/
def Continues {Answer : Type} (client : Client → Database (StateM World)) (store : World → Store)
    (action : StateM World Answer) : Prop :=
  ∀ world accepted, ClientHistory client store world accepted →
    ∃ further, ClientHistory client store (action world).2 (accepted ++ further)

/-- What a write leaves depends on the stores that it makes, not on what it answers. -/
theorem Database.update_congr {Result Answer : Type} {database : Database (StateM World)}
    {write : Store → Except StoreFailure (Store × Result)}
    {other : Store → Except StoreFailure (Store × Answer)} {found : Store} {world after : World}
    (loaded : database.load world = (.ok found, after))
    (same : (write found).map Prod.fst = (other found).map Prod.fst) :
    (database.update write world).2 = (database.update other world).2 := by
  rcases written : write found with failure | ⟨next, result⟩ <;>
    rcases writtenToo : other found with failureToo | ⟨nextToo, answer⟩ <;>
    rw [written, writtenToo] at same
  · rw [update_of_refused loaded written, update_of_refused loaded writtenToo]
  · exact nomatch same
  · exact nomatch same
  · obtain rfl : next = nextToo := Except.ok.inj same
    rcases saved : database.save next after with ⟨failure | _, left⟩
    · rw [update_of_unsaved loaded written saved, update_of_unsaved loaded writtenToo saved]
    · rw [update_of_saved loaded written saved, update_of_saved loaded writtenToo saved]

namespace Continues

variable {client : Client → Database (StateM World)} {store : World → Store} {Answer Result : Type}

theorem of_leaves {action : StateM World Answer} (leaves : Leaves store action) :
    Continues client store action :=
  fun world accepted history => ⟨[], by
    rw [List.append_nil]
    exact history.passes (leaves world)⟩

theorem pure (answer : Answer) : Continues client store (pure answer : StateM World Answer) :=
  of_leaves (Leaves.pure answer)

theorem bind {action : StateM World Answer} {next : Answer → StateM World Result}
    (continues : Continues client store action)
    (each : ∀ answer, Continues client store (next answer)) :
    Continues client store (action >>= next) := by
  intro world accepted history
  obtain ⟨further, extended⟩ := continues world accepted history
  obtain ⟨last, complete⟩ := each _ _ _ extended
  exact ⟨further ++ last, List.append_assoc .. ▸ complete⟩

theorem composes : Composes fun _ => Continues client store :=
  ⟨pure, bind⟩

theorem query (one : Client) (look : Store → Except StoreFailure Result) :
    Continues client store ((client one).query look) :=
  fun world accepted history => ⟨[], by
    rw [List.append_nil]
    exact history.looks one look⟩

theorem perform (one : Client) (write : StoreWrite) :
    Continues client store (write.perform (client one)) := by
  intro world accepted history
  rcases outcome : write.perform (client one) world with ⟨failure | answer, later⟩
  · exact ⟨[], (List.append_nil accepted).symm ▸ history.fails one write outcome⟩
  · exact ⟨[write], history.succeeds one write outcome⟩

/-- What makes the same stores as a write continues a history as the write does. -/
theorem update (one : Client) (write : StoreWrite)
    {make : Store → Except StoreFailure (Store × Result)}
    (makes : write.Makes make) : Continues client store ((client one).update make) := by
  intro world accepted history
  have later : ((client one).update make world).2 = (write.perform (client one) world).2 := by
    rcases loaded : (client one).load world with ⟨failure | found, after⟩
    · rw [StoreWrite.perform, Database.update_of_unloaded loaded,
        Database.update_of_unloaded loaded]
    · exact Database.update_congr loaded (makes found)
  rw [later]
  exact perform one write world accepted history

end Continues

/-! ### Calls of memories -/

namespace RepositoryMemory

/-- The memory is a client: its records and its texts go into the store by way of the database of
the client. -/
structure IsClient (memory : RepositoryMemory (StateM World))
    (client : Client → Database (StateM World)) (store : World → Store) (one : Client) : Prop where
  /-- The records go into the database of the client. -/
  database : memory.database = client one
  /-- The texts do so too. -/
  index : memory.index = .ofDatabase (client one)
  /-- Taking the lock leaves the store alone. -/
  lock : Leaves store memory.lock
  /-- Embedding a text leaves the store alone. -/
  embed : ∀ text, Leaves store (memory.embedder.embed text)

variable {memory : RepositoryMemory (StateM World)} {client : Client → Database (StateM World)}
  {store : World → Store} {one : Client} (isClient : memory.IsClient client store one)
include isClient

/-- Whatever the memory does continues a history with writes of the client. Calls are made of such
things. -/
theorem does_continue : memory.Does (fun _ => True) fun _ => Continues client store where
  toComposes := Continues.composes
  lock := Continues.of_leaves isClient.lock
  look look := by
    unfold RepositoryMemory.look
    rw [isClient.database]
    exact Continues.bind (Continues.query one _) fun _ => Continues.pure _
  embed text := Continues.of_leaves (isClient.embed text)
  put collection texts := by
    rw [isClient.index]
    unfold TextIndex.ofDatabase
    dsimp only
    split
    · exact Continues.pure _
    · exact Continues.update one (.texts memory.id collection texts) fun _ => rfl
  write write _ makes := by
    unfold RepositoryMemory.write
    rw [isClient.database]
    exact Continues.bind (Continues.update one write makes) fun _ => Continues.pure _

/-- What a memory records or reviews is a sequence of writes of the client, also where it fails on
the way. -/
theorem continues_call {Answer : Type} {action : StateM World (Except MemoryFailure Answer)}
    (call : memory.Recording action ∨
      ∃ session status comment now, memory.Reviewing session status comment now action) :
    Continues client store action := by
  obtain recording | ⟨session, status, comment, now, reviewing⟩ := call
  · exact (does_continue isClient).recording (fun _ _ => trivial) recording
  · exact (does_continue isClient).reviewing trivial reviewing

/-- A call continues a history, and the records of the repositories agree with all writes after it. -/
theorem accounts_after_call (holds : ∀ one, (client one).Holds store) {world : World}
    {accepted : List StoreWrite} (history : ClientHistory client store world accepted)
    {Answer : Type} {action : StateM World (Except MemoryFailure Answer)}
    (call : memory.Recording action ∨
      ∃ session status comment now, memory.Reviewing session status comment now action) :
    ∃ further, ClientHistory client store (action world).2 (accepted ++ further) ∧
      (store (action world).2).Accounts (accepted ++ further) := by
  obtain ⟨further, extended⟩ := continues_call isClient call world accepted history
  exact ⟨further, extended, (ClientHistory.registers holds extended).accounts⟩

end RepositoryMemory

/-- Whatever clients write to a store that they share and in which order, the records of the
repositories agree with the other records and with the writes that were accepted. What fails
changes nothing, and neither does looking. A memory that is a client goes on so with every call: it
adds accepted writes, and the records agree again, be it that the call failed half way. -/
theorem ClientHistory.accounted {client : Client → Database (StateM World)}
    {store : World → Store} (holds : ∀ one, (client one).Holds store) {world : World}
    {accepted : List StoreWrite} (history : ClientHistory client store world accepted) :
    (store world).Accounts accepted ∧
      (∀ one (write : StoreWrite) failure later,
        write.perform (client one) world = (.error failure, later) → store later = store world) ∧
      (∀ {Result : Type} one (look : Store → Except StoreFailure Result),
        store ((client one).query look world).2 = store world) ∧
      ∀ {memory : RepositoryMemory (StateM World)} {one : Client},
        memory.IsClient client store one →
        ∀ {Answer : Type} {action : StateM World (Except MemoryFailure Answer)},
          (memory.Recording action ∨
            ∃ session status comment now, memory.Reviewing session status comment now action) →
          ∃ further, ClientHistory client store (action world).2 (accepted ++ further) ∧
            (store (action world).2).Accounts (accepted ++ further) := by
  refine ⟨(registers holds history).accounts, ?_, ?_, ?_⟩
  · exact fun one _ _ _ failed => (holds one).store_of_failed failed
  · exact fun one look => store_of_query holds one look world
  · exact fun isClient _ _ call =>
      RepositoryMemory.accounts_after_call isClient holds history call

/-! ### Two clients of a shop -/

/-- A run of the shop, which has the same identity at whatever time it is recorded. -/
def shopRun (ranAt : Int) : StoreWrite :=
  .run "/shop" ⟨"run-1", "shop", "nightly", ranAt, none, none, none, none, "[]"⟩

/-- A drift of the shop, seen for the first time. -/
def shopDrift (seen : Int) : StoreWrite :=
  .drift "/shop" ⟨"shop", "total", "critical", "rounds down", "2", "1", seen, seen, 1⟩

/-- The store after one client recorded the run at the time 20 and another one, late, the drift at
the time 10. -/
def shopStore : Store :=
  ((shopDrift 10).perform .here ((shopRun 20).perform .here .empty).2).2

/-- The other client first tries to record the run once more, which is refused. The repository was
first seen when the run was recorded, and the run counts once. When a memory of the shop records a
further run at the time 30, the records agree with that too. -/
theorem shopStore_accounted :
    let clients := fun _ : Bool => Database.here
    let recording := (RepositoryMemory.ofStore "shop").recordRun
      ⟨"weekly", none, none, none, none, []⟩ 30
    let later := (recording shopStore).2
    ClientHistory clients id shopStore [shopRun 20, shopDrift 10] ∧
      shopStore.Accounts [shopRun 20, shopDrift 10] ∧
      (shopStore.repository? "shop").map (fun record => (record.firstSeen, record.lastSeen)) =
        some (20, 20) ∧
      (∃ further, later.Accounts ([shopRun 20, shopDrift 10] ++ further)) ∧
      (later.repository? "shop").map
        (fun record => (record.firstSeen, record.lastSeen, record.runCount)) = some (20, 30, 2) := by
  intro clients recording later
  have holds : ∀ one, (clients one).Holds id := fun _ => Database.holds_here
  have begins : ClientHistory clients id .empty [] := .begins rfl
  have ran : ClientHistory clients id _ [shopRun 20] := begins.succeeds false (shopRun 20) rfl
  have refused : ClientHistory clients id _ [shopRun 20] := ran.fails true (shopRun 30) rfl
  have history : ClientHistory clients id shopStore [shopRun 20, shopDrift 10] :=
    refused.succeeds true (shopDrift 10) rfl
  have isClient : (RepositoryMemory.ofStore "shop").IsClient clients id false :=
    ⟨rfl, rfl, Leaves.pure _, fun _ => Leaves.pure _⟩
  obtain ⟨accounts, -, -, calls⟩ := ClientHistory.accounted holds history
  obtain ⟨further, -, accountsToo⟩ := calls isClient (Or.inl (.run _ 30))
  exact ⟨history, accounts, by decide +kernel, ⟨further, accountsToo⟩, by decide +kernel⟩

end MigrationGuard
