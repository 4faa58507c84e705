import VaultSync.Async.Connection
import VaultSync.Async.Interleaving
import VaultSync.Coordinator.SqliteTables
import VaultSync.Log.Slots

/-! The Postgres coordinator: server processes that push through connections of their own, a
transaction for each push, and a reader that pulls or subscribes. -/

namespace VaultSync

open Async SQLiteCoordinator List

variable {B : Type}

/-! ## The server -/

/-- The `mutations` table with its sequence: position `k` is what became of the value `k`. It is
held by the transaction that drew it, and its row shows once that has committed. -/
structure Postgres (B : Type) where
  slots : List (Slots.Slot String (EncryptedMutation B))
  length_lt : slots.length < 2 ^ 63

namespace Postgres

def new : Postgres B := ⟨[], Nat.two_pow_pos 63⟩

def pending (ns : String) (seq : ℕ) (m : EncryptedMutation B) : PendingMutation B where
  id := m.id
  «namespace» := ns
  sequence := seq
  docId := m.docId
  recordId := m.recordId
  encryptedBlob := m.encryptedBlob
  timestamp := asU64 (asI64 m.timestamp)
  keyVersion := asU64 (asI64 m.keyVersion)
  replicaId := m.replicaId

variable (db : Postgres B)

def mutations (ns : String) : List (PendingMutation B) :=
  Slots.shown (pending ns) ns db.slots

variable (n : ℕ)

def find (id : String) : Option ℕ :=
  ((db.slots.zipIdx 1).find? fun p => (p.1.owner = none ∨ p.1.owner = some n) ∧
    p.1.item.map EncryptedMutation.id = some id).map Prod.snd

def Locked (id : String) : Prop :=
  ∃ s ∈ db.slots, s.owner ≠ none ∧ s.owner ≠ some n ∧ s.item.map EncryptedMutation.id = some id

instance (n : ℕ) (id : String) : Decidable (db.Locked n id) :=
  inferInstanceAs (Decidable (∃ s ∈ db.slots, _))

def nextval (n : ℕ) (ns : String) : Except String ℕ × Postgres B :=
  if h : db.slots.length + 1 < 2 ^ 63 then
    (.ok (db.slots.length + 1), ⟨Slots.draw db.slots n ns, by
      rw [Slots.draw, length_append]
      exact h⟩)
  else (.error "nextval: reached maximum value of sequence \"mutations_sequence_seq\"", db)

def fill (n seq : ℕ) (m : EncryptedMutation B) : Postgres B :=
  ⟨Slots.fill db.slots n seq m, by
    rw [Slots.fill, length_modify]
    exact db.length_lt⟩

def commit : Postgres B :=
  ⟨Slots.close db.slots n, by
    rw [Slots.close, length_map]
    exact db.length_lt⟩

def topics : List String :=
  (db.slots.filter fun s => s.owner = some n).map Slots.Slot.topic

def rollback : Postgres B :=
  ⟨Slots.discard db.slots n, by
    rw [Slots.discard, length_map]
    exact db.length_lt⟩

/-- `INSERT … ON CONFLICT (id) DO NOTHING RETURNING sequence`, once the value is drawn. -/
def insert (n seq : ℕ) (m : EncryptedMutation B) : Option ℕ × Postgres B :=
  if (db.find n m.id).isSome then (none, db) else (some seq, db.fill n seq m)

/-- The query of `pull` and of the subscription. Its arguments are cast to `i64`, which makes a
limit above `i64::MAX` negative. -/
def query (ns : String) (after limit : ℕ) : Except String (List (PendingMutation B)) :=
  if 2 ^ 63 ≤ limit then .error "LIMIT must not be negative"
  else .ok (((db.mutations ns).filter fun m => asI64 after < m.sequence).take limit)

end Postgres

/-! ## Pushes -/

/-- An `INSERT` draws its sequence before it can wait for another transaction, so it is two
statements here. -/
inductive PgStatement (B : Type) where
  | nextval (ns : String)
  | insert (seq : ℕ) (m : EncryptedMutation B)
  | selectSequence (id : String)
  | commit
  | rollback
  | notify (ns : String)

def PgStatement.Ans : PgStatement B → Type
  | .nextval _ => Except String ℕ
  | .insert _ _ => Except String (Option ℕ)
  | .selectSequence _ => Except String ℕ
  | .commit => Except String Unit
  | .rollback => Unit
  | .notify _ => Except String Unit

abbrev PgFn (B : Type) := Prog ⟨PgStatement B, PgStatement.Ans⟩ Unit CoordinatorError

namespace PostgresCoordinator

def nextval (ns : String) : PgFn B ℕ := .call (.nextval ns) (Prog.ofReply .internal)

def insert (seq : ℕ) (m : EncryptedMutation B) : PgFn B (Option ℕ) :=
  .call (.insert seq m) (Prog.ofReply .internal)

def selectSequence (id : String) : PgFn B ℕ :=
  .call (.selectSequence id) (Prog.ofReply .internal)

def commit : PgFn B Unit := .call .commit (Prog.ofReply .internal)

def rollback : PgFn B Unit := .call .rollback .ret

def notify (ns : String) : PgFn B Unit := .call (.notify ns) (Prog.ofReply .internal)

def insertAll (ns : String) : List (EncryptedMutation B) → PgFn B (List ℕ)
  | [] => return []
  | m :: ms => do
    let value ← nextval ns
    let seq ← match ← insert value m with
      | some seq => pure seq
      | none => selectSequence m.id
    let seqs ← insertAll ns ms
    return seq :: seqs

/-- Beginning the transaction has no effect of its own. A transaction that is dropped before its
commit is rolled back. -/
def push (ns : String) (ms : List (EncryptedMutation B)) : PgFn B (List ℕ) := do
  match ← (insertAll ns ms).attempt with
  | .ok seqs =>
    commit
    notify ns
    return seqs
  | .error err =>
    rollback
    .fail err

end PostgresCoordinator

/-! ## A reader -/

inductive PgTask where
  | pulling
  | listening
  deriving DecidableEq

/-- The server with one reader. `queue` holds the namespaces notified and not yet received by the
subscription, `missed` counts those that found the channel full. For statements only: `answered`
counts the reader's pulls that could return a row, and `unnotified` has the namespaces in which a
value of a transaction was committed since they were last notified. -/
structure PgWorld (B : Type) where
  db : Postgres B
  received : List (PendingMutation B)
  queue : List String
  missed : ℕ
  task : PgTask
  answered : ℕ
  unnotified : List String

namespace PgWorld

def new (db : Postgres B) : PgWorld B := ⟨db, [], [], 0, .pulling, 0, []⟩

def cursor (w : PgWorld B) (start : ℕ) : ℕ :=
  PagedLog.cursor PendingMutation.sequence start w.received

def pull (w : PgWorld B) (ns : String) (start limit : ℕ) : PgWorld B :=
  match w.db.query ns (w.cursor start) limit with
  | .ok ms => { w with
      received := w.received ++ ms
      answered := if limit = 0 then w.answered else w.answered + 1 }
  | .error _ => w

def notify (w : PgWorld B) (ns : String) : PgWorld B :=
  let w' := { w with unnotified := w.unnotified.filter (· ≠ ns) }
  if w.queue.length < 1024 then { w' with queue := w.queue ++ [ns] }
  else { w' with queue := w.queue.tail ++ [ns], missed := w.missed + 1 }

def pullLimit : ℕ := 1000

/-- A round of one of the loops of the subscription's task. After a failed query, a page that is
not full, or an empty one it waits for a notification; after it has lagged it just goes on. -/
def resume (w : PgWorld B) (ns : String) (start : ℕ) (fault : Option String) : PgWorld B :=
  match w.task with
  | .pulling =>
    match fault, w.db.query ns (w.cursor start) pullLimit with
    | none, .ok ms => { w.pull ns start pullLimit with
        task := if ms.length < pullLimit then .listening else .pulling }
    | _, _ => { w with task := .listening }
  | .listening =>
    if w.missed = 0 then
      match w.queue with
      | [] => w
      | notified :: queue => { w with
          queue := queue
          task := if notified = ns then .pulling else .listening }
    else { w with missed := 0 }

/-- A statement of push `n`. A commit that fails without effect leaves nothing behind. -/
def handle (n : ℕ) (op : PgStatement B) (e : Connection String) (w : PgWorld B) :
    op.Ans × PgWorld B :=
  match op with
  | .nextval ns =>
    let (r, db) := e.reply w.db (w.db.nextval n ns)
    (r, { w with db := db })
  | .insert seq m =>
    let (r, db) := e.reply w.db (.ok (w.db.insert n seq m).1, (w.db.insert n seq m).2)
    (r, { w with db := db })
  | .selectSequence id =>
    e.reply w (match w.db.find n id with
      | some seq => (.ok seq, w)
      | none => (.error "query returned an unexpected number of rows", w))
  | .commit =>
    e.reply { w with db := w.db.rollback n }
      (.ok (), { w with db := w.db.commit n, unnotified := w.db.topics n ++ w.unnotified })
  | .rollback => ((), { w with db := w.db.rollback n })
  | .notify ns => e.reply w (.ok (), w.notify ns)

def Unblocked (n : ℕ) (op : PgStatement B) (e : Connection String) (w : PgWorld B) : Prop :=
  match op with
  | .insert _ m => e.fault ≠ none ∨ ¬ w.db.Locked n m.id
  | _ => True

end PgWorld

namespace PostgresCoordinator

/-- Pushes through any number of connections, beside what `reader` does; `room` restricts the
statements further. -/
def pushes (room : PgStatement B → PgWorld B → Prop) (reader : PgWorld B → PgWorld B → Prop) :
    System ⟨PgStatement B, PgStatement.Ans⟩ Unit CoordinatorError (Connection String) (PgWorld B)
      (ℕ × String × List (EncryptedMutation B)) (List ℕ) where
  machine c := {
    handle := PgWorld.handle c.1
    allow := fun op e w => PgWorld.Unblocked c.1 op e w ∧ room op w
    memory := fun _ => ()
    setMemory := fun _ w => w }
  prog c := push c.2.1 c.2.2
  mayStart c ds _ := c.1 ∉ ds.map Prod.fst
  env := reader

def Pulls (ns : String) (start : ℕ) (ok : PgWorld B → Prop) (w w' : PgWorld B) : Prop :=
  ok w ∧ ∃ limit, w' = w.pull ns start limit

def Subscribes (ns : String) (start : ℕ) (ok : Option String → PgWorld B → Prop)
    (w w' : PgWorld B) : Prop :=
  ∃ fault, (w.task = .pulling → ok fault w) ∧ w' = w.resume ns start fault

end PostgresCoordinator

end VaultSync
