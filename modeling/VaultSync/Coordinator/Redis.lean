import VaultSync.Async.Connection
import VaultSync.Async.Interleaving
import VaultSync.Sync.Compaction

/-! The Redis coordinator: a Redis server with the commands it answers, and the calls of the
coordinator that reach it over a connection which may fail. -/

namespace VaultSync

open Async List

variable {B : Type}

/-! ## Streams -/

structure StreamId where
  ms : ℕ
  seq : ℕ
  deriving DecidableEq, Repr

namespace StreamId

def key (id : StreamId) : ℕ ×ₗ ℕ := toLex (id.ms, id.seq)

lemma key_injective : Function.Injective key := by
  rintro ⟨ms, seq⟩ ⟨ms', seq'⟩ h
  simpa [key] using h

instance : LinearOrder StreamId := LinearOrder.lift' key key_injective

variable {a b : StreamId}

lemma le_iff : a ≤ b ↔ a.ms < b.ms ∨ a.ms = b.ms ∧ a.seq ≤ b.seq :=
  Prod.Lex.toLex_le_toLex

lemma lt_iff : a < b ↔ a.ms < b.ms ∨ a.ms = b.ms ∧ a.seq < b.seq :=
  Prod.Lex.toLex_lt_toLex

/-- `*`: the clock, or the next number under the last time if the clock is not ahead of it. -/
def next (last : StreamId) (now : ℕ) : StreamId :=
  if last.ms < now then ⟨now, 0⟩
  else if last.seq + 1 < 2 ^ 64 then ⟨last.ms, last.seq + 1⟩
  else ⟨last.ms + 1, 0⟩

lemma lt_next (last : StreamId) (now : ℕ) : last < last.next now := by
  rw [lt_iff]
  unfold next
  split_ifs with hnow hseq
  · exact .inl hnow
  · exact .inr ⟨rfl, Nat.lt_succ_self _⟩
  · exact .inl (Nat.lt_succ_self _)

end StreamId

def streamIdToSeq (id : StreamId) : ℕ := (id.ms * 1000000 + id.seq) % 2 ^ 64

def seqToStreamId (seq : ℕ) : StreamId := ⟨seq / 1000000, seq % 1000000⟩

structure StreamEntry (B : Type) where
  streamId : StreamId
  id : String
  replicaId : String
  docId : String
  recordId : String
  blob : B
  ts : ℕ
  schemaVersion : ℕ
  keyVersion : ℕ
  deriving DecidableEq

namespace StreamEntry

def key (e : StreamEntry B) : Key := ⟨e.docId, e.recordId⟩

def ofMutation (streamId : StreamId) (m : EncryptedMutation B) : StreamEntry B where
  streamId := streamId
  id := m.id
  replicaId := m.replicaId
  docId := m.docId
  recordId := m.recordId
  blob := m.encryptedBlob
  ts := m.timestamp
  schemaVersion := m.schemaVersion
  keyVersion := m.keyVersion

def parse (ns : String) (e : StreamEntry B) : PendingMutation B where
  id := e.id
  «namespace» := ns
  sequence := streamIdToSeq e.streamId
  docId := e.docId
  recordId := e.recordId
  encryptedBlob := e.blob
  timestamp := e.ts
  keyVersion := e.keyVersion
  replicaId := e.replicaId

end StreamEntry

/-- The last id stays when its entry is deleted. -/
structure RedisStream (B : Type) where
  entries : List (StreamEntry B)
  lastId : StreamId
  sorted : entries.Pairwise fun a b => a.streamId < b.streamId
  le_last : ∀ e ∈ entries, e.streamId ≤ lastId

namespace RedisStream

def empty : RedisStream B := ⟨[], ⟨0, 0⟩, .nil, by simp⟩

variable (s : RedisStream B)

def add (now : ℕ) (m : EncryptedMutation B) : RedisStream B where
  entries := s.entries ++ [.ofMutation (s.lastId.next now) m]
  lastId := s.lastId.next now
  sorted := by
    refine pairwise_append.2 ⟨s.sorted, pairwise_singleton _ _, fun a ha b hb => ?_⟩
    rw [mem_singleton.1 hb]
    exact (s.le_last a ha).trans_lt (s.lastId.lt_next now)
  le_last e he := by
    rcases mem_append.1 he with he | he
    · exact (s.le_last e he).trans (s.lastId.lt_next now).le
    · rw [mem_singleton.1 he]
      exact le_rfl

def range (start : StreamId) (stop : Option StreamId) : List (StreamEntry B) :=
  s.entries.filter fun e => start ≤ e.streamId ∧ ∀ id ∈ stop, e.streamId ≤ id

def del (id : StreamId) : RedisStream B where
  entries := s.entries.filter fun e => e.streamId ≠ id
  lastId := s.lastId
  sorted := s.sorted.filter _
  le_last e he := s.le_last e (mem_of_mem_filter he)

end RedisStream

/-! ## The server -/

inductive RedisValue (B : Type) where
  | string (bytes : B)
  | set (members : { l : List String // l.Nodup })
  | stream (s : RedisStream B)

abbrev Redis (B : Type) := String → Option (RedisValue B)

namespace Redis

def wrongType : String := "WRONGTYPE Operation against a key holding the wrong kind of value"

variable (db : Redis B) (key : String)

def streamAt : Except String (RedisStream B) :=
  match db key with
  | none => .ok .empty
  | some (.stream s) => .ok s
  | some _ => .error wrongType

def setAt : Except String { l : List String // l.Nodup } :=
  match db key with
  | none => .ok ⟨[], List.nodup_nil⟩
  | some (.set s) => .ok s
  | some _ => .error wrongType

def stringAt : Option B :=
  match db key with
  | some (.string bytes) => some bytes
  | _ => none

def write (v : RedisValue B) : Redis B :=
  Function.update db key (some v)

end Redis

inductive RedisCommand (B : Type) where
  | sadd (key member : String)
  | smembers (key : String)
  | set (key : String) (bytes : B)
  | mget (keys : List String)
  | xadd (key : String) (m : EncryptedMutation B)
  | xrange (key : String) (start : StreamId) (stop : Option StreamId) (count : Option ℕ)
  | xdel (key : String) (id : StreamId)

namespace RedisCommand

def Ans : RedisCommand B → Type
  | sadd _ _ => Except String ℕ
  | smembers _ => Except String (List String)
  | set _ _ => Except String Unit
  | mget _ => Except String (List (Option B))
  | xadd _ _ => Except String StreamId
  | xrange _ _ _ _ => Except String (List (StreamEntry B))
  | xdel _ _ => Except String ℕ

end RedisCommand

structure RedisEnv extends Connection String where
  now : ℕ
  order : (l : List String) → { l' : List String // l'.Perm l }

instance : Inhabited RedisEnv := ⟨⟨⟨none, false⟩, 0, fun l => ⟨l, .refl l⟩⟩⟩

namespace Redis

variable (db : Redis B) (key : String)

def sadd (member : String) : Except String ℕ × Redis B :=
  match db.setAt key with
  | .error msg => (.error msg, db)
  | .ok s =>
    if h : member ∈ s.1 then (.ok 0, db)
    else (.ok 1, db.write key (.set ⟨member :: s.1, nodup_cons.2 ⟨h, s.2⟩⟩))

def xadd (now : ℕ) (m : EncryptedMutation B) : Except String StreamId × Redis B :=
  match db.streamAt key with
  | .error msg => (.error msg, db)
  | .ok s => (.ok (s.add now m).lastId, db.write key (.stream (s.add now m)))

def xrange (start : StreamId) (stop : Option StreamId)
    (count : Option ℕ) : Except String (List (StreamEntry B)) :=
  (db.streamAt key).map fun s =>
    match count with
    | none => s.range start stop
    | some n => (s.range start stop).take n

def xdel (id : StreamId) : Except String ℕ × Redis B :=
  match db key with
  | none => (.ok 0, db)
  | some (.stream s) =>
    (.ok (s.entries.length - (s.del id).entries.length), db.write key (.stream (s.del id)))
  | some _ => (.error wrongType, db)

def handle : (op : RedisCommand B) → RedisEnv → Redis B → op.Ans × Redis B
  | .sadd key member, e, db => e.reply db (db.sadd key member)
  | .smembers key, e, db => e.reply db ((db.setAt key).map fun s => (e.order s.1).1, db)
  | .set key bytes, e, db => e.reply db (.ok (), db.write key (.string bytes))
  | .mget keys, e, db => e.reply db (.ok (keys.map db.stringAt), db)
  | .xadd key m, e, db => e.reply db (db.xadd key e.now m)
  | .xrange key start stop count, e, db => e.reply db (db.xrange key start stop count, db)
  | .xdel key id, e, db => e.reply db (db.xdel key id)

def machine (allow : RedisCommand B → RedisEnv → Redis B → Prop) :
    Machine ⟨RedisCommand B, RedisCommand.Ans⟩ Unit RedisEnv (Redis B) where
  handle := handle
  allow := allow
  memory _ := ()
  setMemory _ db := db

end Redis

/-! ## The coordinator -/

structure SnapshotCodec (B : Type) where
  encode : Snapshot B → Except String B
  decode : B → Except String (Snapshot B)

abbrev RedisFn (B : Type) := Prog ⟨RedisCommand B, RedisCommand.Ans⟩ Unit CoordinatorError

namespace RedisCoordinator

variable {α : Type}

def internal : Except String α → RedisFn B α := Prog.ofReply .internal

def sadd (key member : String) : RedisFn B ℕ := .call (.sadd key member) internal

variable (key : String)

def smembers : RedisFn B (List String) := .call (.smembers key) internal

def set (bytes : B) : RedisFn B Unit := .call (.set key bytes) internal

def mget (keys : List String) : RedisFn B (List (Option B)) := .call (.mget keys) internal

def xadd (m : EncryptedMutation B) : RedisFn B StreamId :=
  .call (.xadd key m) internal

def xrange (start : StreamId) (stop : Option StreamId) (count : Option ℕ) :
    RedisFn B (List (StreamEntry B)) := .call (.xrange key start stop count) internal

def xdel (id : StreamId) : RedisFn B ℕ := .call (.xdel key id) internal

section

variable (ns : String)

def streamKey : String := s!"vaultsync:{ns}:mutations"

def pushedKey : String := s!"vaultsync:{ns}:pushed"

def snapshotKey (ns docId recordId : String) : String :=
  s!"vaultsync:{ns}:snapshot:{docId}:{recordId}"

def snapshotKeys : String := s!"vaultsync:{ns}:snapshot_keys"

/-- A mutation whose id is in the set already is answered with a dummy sequence. -/
def push (ns : String) : List (EncryptedMutation B) → RedisFn B (List ℕ)
  | [] => pure []
  | m :: ms => do
    let isNew ← sadd (pushedKey ns) m.id
    if isNew = 0 then
      let seqs ← push ns ms
      return 0 :: seqs
    else
      let id ← xadd (streamKey ns) m
      let seqs ← push ns ms
      return streamIdToSeq id :: seqs

def pull (after limit : ℕ) : RedisFn B (List (PendingMutation B)) := do
  let start := seqToStreamId (min (after + 1) (2 ^ 64 - 1))
  let entries ← xrange (streamKey ns) start none (some limit)
  return entries.map (StreamEntry.parse ns)

end

variable (C : SnapshotCodec B)

def storeSnapshot (ns : String) (s : Snapshot B) : RedisFn B Unit := do
  let bytes ← internal (C.encode s)
  set (snapshotKey ns s.docId s.recordId) bytes
  let _ ← sadd (snapshotKeys ns) (snapshotKey ns s.docId s.recordId)

def decoded (values : List (Option B)) : List (Snapshot B) :=
  values.filterMap fun v => v.bind fun bytes => (C.decode bytes).toOption

def listSnapshots (ns : String) : RedisFn B (List (Snapshot B)) := do
  let keys ← smembers (snapshotKeys ns)
  if keys.isEmpty then
    return []
  let values ← mget keys
  return decoded C values

def deleteEntries (key : String) : List (StreamEntry B) → RedisFn B ℕ
  | [] => pure 0
  | e :: es => do
    let deleted ← xdel key e.streamId
    let rest ← deleteEntries key es
    return deleted + rest

def compactUpTo (ns : String) : List (Snapshot B) → RedisFn B CompactionStats
  | [] => pure ⟨0, 0, 0⟩
  | s :: snaps => do
    let entries ← xrange (streamKey ns) ⟨0, 0⟩ (some (seqToStreamId s.sequence)) none
    let deleted ← deleteEntries (streamKey ns) entries
    let stats ← compactUpTo ns snaps
    return ⟨deleted + stats.oplogRemoved, 0, stats.snapshotsCollapsed + 1⟩

def compactOplog (ns : String) : RedisFn B CompactionStats := do
  let snaps ← listSnapshots C ns
  compactUpTo ns snaps

end RedisCoordinator

end VaultSync
