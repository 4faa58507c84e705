import Mathlib.Data.List.Nodup
import VaultSync.Async.Connection
import VaultSync.Coordinator.Sqlite

/-! The Cloudflare coordinator: requests that each send one statement after another to a D1
database they all share. -/

namespace VaultSync

open Async SQLiteCoordinator List

variable {B : Type}

/-! ## D1 -/

/-- The `mutations` table, whose ids are unique, and the value of `last_insert_rowid()`, which is
shared by all requests. `insertedBy` is the number of the request that set it, for statements only. -/
structure D1 (B : Type) where
  table : SQLiteCoordinator B
  lastInsertRowid : ℕ
  insertedBy : Option ℕ
  unique : (table.rows.map Row.id).Nodup

inductive D1Statement (B : Type) where
  | insert (ns : String) (m : EncryptedMutation B)
  | selectLastInsertRowid

def D1Statement.Ans : D1Statement B → Type
  | .insert _ _ => Except String Unit
  | .selectLastInsertRowid => Except String (Option ℕ)

namespace D1

def new : D1 B where
  table := .new
  lastInsertRowid := 0
  insertedBy := none
  unique := List.nodup_nil

def ids (db : D1 B) : List String := db.table.rows.map Row.id

def append (db : D1 B) (n : ℕ) (ns : String) (m : EncryptedMutation B) (hid : m.id ∉ db.ids)
    (hmax : db.table.lastSequence + 1 < 2 ^ 63) : D1 B where
  table := db.table.append ns (db.table.lastSequence + 1) m (Nat.lt_succ_self _) hmax
  lastInsertRowid := db.table.lastSequence + 1
  insertedBy := some n
  unique := by
    have hids : (db.table.rows ++ [row ns (db.table.lastSequence + 1) m]).map Row.id =
        db.ids ++ [m.id] := by
      rw [map_append]
      exact congrArg _ rfl
    exact hids ▸ nodup_append.2 ⟨db.unique, nodup_singleton _, by
      intro a ha b hb
      rw [mem_singleton.1 hb]
      exact fun hab => hid (hab ▸ ha)⟩

def insert (db : D1 B) (n : ℕ) (ns : String) (m : EncryptedMutation B) :
    Except String Unit × D1 B :=
  if hid : m.id ∈ db.ids then (.error "D1_ERROR: UNIQUE constraint failed: mutations.id", db)
  else if hmax : db.table.lastSequence + 1 < 2 ^ 63 then (.ok (), db.append n ns m hid hmax)
  else (.error "D1_ERROR: database or disk is full", db)

def handle (n : ℕ) (op : D1Statement B) (e : Connection String) (db : D1 B) : op.Ans × D1 B :=
  match op with
  | .insert ns m => e.reply db (db.insert n ns m)
  | .selectLastInsertRowid => e.reply db (.ok (some db.lastInsertRowid), db)

def machine (n : ℕ) (allow : D1Statement B → Connection String → D1 B → Prop) :
    Machine ⟨D1Statement B, D1Statement.Ans⟩ Unit (Connection String) (D1 B) where
  handle := handle n
  allow := allow
  memory _ := ()
  setMemory _ db := db

end D1

abbrev D1Fn (B : Type) := Prog ⟨D1Statement B, D1Statement.Ans⟩ Unit String

/-! ## The handlers -/

namespace NamespaceDurableObject

structure WebSocketAttachment where
  «namespace» : String
  authenticated : Bool

structure PushPayload (B : Type) where
  requestId : String
  mutations : List (EncryptedMutation B)

/-- An HTTP push, or a `MSG_PUSH` frame with the attachment of its socket and its payload, if they
parse. -/
inductive PushRequest (B : Type) where
  | http (ns : String) (mutations : List (EncryptedMutation B))
  | msgPush (attachment : Option WebSocketAttachment) (push : Option (PushPayload B))

/-- The body of the HTTP response, or the `MSG_PUSH_ACK` frame with the mutations that are then
broadcast; a frame may also be dropped. -/
inductive PushResponse (B : Type) where
  | json (sequences : List ℕ)
  | ack (requestId : String) (sequences : List ℕ) (broadcast : List (PendingMutation B))
  | dropped

def PushResponse.sequences : PushResponse B → Option (List ℕ)
  | .json sequences => some sequences
  | .ack _ sequences _ => some sequences
  | .dropped => none

def insert (ns : String) (m : EncryptedMutation B) : D1Fn B Unit :=
  .call (.insert ns m) (Prog.ofReply id)

def lastInsertRowid : D1Fn B ℕ :=
  .call .selectLastInsertRowid fun r =>
    (Prog.ofReply id r : D1Fn B (Option ℕ)) >>= fun row =>
      match row with
      | some seq => return seq
      | none => .fail "Failed to get row ID"

def insertAll (ns : String) : List (EncryptedMutation B) → D1Fn B (List ℕ)
  | [] => return []
  | m :: ms => do
    insert ns m
    let seq ← lastInsertRowid
    let seqs ← insertAll ns ms
    return seq :: seqs

def toPending (ns : String) (m : EncryptedMutation B) (seq : ℕ) : PendingMutation B where
  id := m.id
  «namespace» := ns
  sequence := seq
  docId := m.docId
  recordId := m.recordId
  encryptedBlob := m.encryptedBlob
  timestamp := m.timestamp
  keyVersion := m.keyVersion
  replicaId := m.replicaId

/-- A frame stores its whole batch under the namespace of the first mutation. -/
def pushNamespace (a : WebSocketAttachment) (p : PushPayload B) : String :=
  match p.mutations.head? with
  | some m => m.namespace
  | none => a.namespace

def serve : PushRequest B → D1Fn B (PushResponse B)
  | .http ns mutations => do
    let seqs ← insertAll ns mutations
    return .json seqs
  | .msgPush (some a) (some p) =>
    if a.authenticated then do
      let seqs ← insertAll (pushNamespace a p) p.mutations
      return .ack p.requestId seqs (List.zipWith (toPending (pushNamespace a p)) p.mutations seqs)
    else return .dropped
  | .msgPush _ _ => return .dropped

end NamespaceDurableObject

end VaultSync
