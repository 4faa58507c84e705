import VaultSync.Sync.Compaction

/-! The coordinator trait with its default bodies, sequences of calls, and the in-memory
coordinator as an implementation. -/

namespace VaultSync

abbrev Method (ε σ α : Type) := ε → σ → α × σ

/-- The trait. A field with a value is a default body: an implementation that does not give the
method inherits it. `Sub` is the type of subscription streams. -/
structure Coordinator (B Sub ε σ : Type) where
  push : String → List (EncryptedMutation B) → Method ε σ (Except CoordinatorError (List ℕ))
  pull : String → ℕ → ℕ → Method ε σ (Except CoordinatorError (List (PendingMutation B)))
  subscribe : String → ℕ → Method ε σ (Except CoordinatorError Sub)
  register : String → ReplicaInfo B → ℕ → Method ε σ (Except CoordinatorError Unit)
  heartbeat : String → String → Method ε σ (Except CoordinatorError Unit)
  schemaVersion : String → Method ε σ (Except CoordinatorError ℕ)
  disconnect : Method ε σ (Except CoordinatorError Unit) := fun _ s => (.ok (), s)
  generationId : Method ε σ String := fun _ s => ("", s)
  historyPreserved : Method ε σ Bool := fun _ s => (false, s)
  maxSequence : Method ε σ ℕ := fun _ s => (0, s)
  cursorValidation : ℕ → Method ε σ CursorValidation := fun cursor e s =>
    let (serverMax, s) := maxSequence e s
    (validateCursor serverMax cursor, s)
  updateReplicaKey : String → String → B → ℕ → Method ε σ (Except CoordinatorError Unit) :=
    fun _ _ _ _ _ s => (.ok (), s)
  getReplicaKey : String → String → Method ε σ (Except CoordinatorError (Option (B × ℕ))) :=
    fun _ _ _ s => (.ok none, s)
  listReplicas : String → Method ε σ (Except CoordinatorError (List (ReplicaInfo B))) :=
    fun _ _ s => (.ok [], s)
  getSnapshot : String → String → String →
      Method ε σ (Except CoordinatorError (Option (Snapshot B))) := fun _ _ _ _ s => (.ok none, s)
  storeSnapshot : String → Snapshot B → Method ε σ (Except CoordinatorError Unit) :=
    fun _ _ _ s => (.ok (), s)
  compactOplog : String → Method ε σ (Except CoordinatorError CompactionStats) :=
    fun _ _ s => (.ok ⟨0, 0, 0⟩, s)
  listSnapshots : String → Method ε σ (Except CoordinatorError (List (Snapshot B))) :=
    fun _ _ s => (.ok [], s)

variable {B Sub ε σ : Type}

/-! ## Sequences of calls -/

inductive Request (B : Type) where
  | push (ns : String) (mutations : List (EncryptedMutation B))
  | pull (ns : String) (after limit : ℕ)
  | subscribe (ns : String) (fromSequence : ℕ)
  | register (ns : String) (info : ReplicaInfo B) (lastSequence : ℕ)
  | heartbeat (ns replicaId : String)
  | schemaVersion (ns : String)
  | disconnect
  | generationId
  | historyPreserved
  | maxSequence
  | cursorValidation (cursor : ℕ)
  | updateReplicaKey (ns replicaId : String) (publicKey : B) (keyVersion : ℕ)
  | getReplicaKey (ns replicaId : String)
  | listReplicas (ns : String)
  | getSnapshot (ns docId recordId : String)
  | storeSnapshot (ns : String) (snapshot : Snapshot B)
  | compactOplog (ns : String)
  | listSnapshots (ns : String)

namespace Request

def Answer (Sub : Type) : Request B → Type
  | push _ _ => Except CoordinatorError (List ℕ)
  | pull _ _ _ => Except CoordinatorError (List (PendingMutation B))
  | subscribe _ _ => Except CoordinatorError Sub
  | register _ _ _ => Except CoordinatorError Unit
  | heartbeat _ _ => Except CoordinatorError Unit
  | schemaVersion _ => Except CoordinatorError ℕ
  | disconnect => Except CoordinatorError Unit
  | generationId => String
  | historyPreserved => Bool
  | maxSequence => ℕ
  | cursorValidation _ => CursorValidation
  | updateReplicaKey _ _ _ _ => Except CoordinatorError Unit
  | getReplicaKey _ _ => Except CoordinatorError (Option (B × ℕ))
  | listReplicas _ => Except CoordinatorError (List (ReplicaInfo B))
  | getSnapshot _ _ _ => Except CoordinatorError (Option (Snapshot B))
  | storeSnapshot _ _ => Except CoordinatorError Unit
  | compactOplog _ => Except CoordinatorError CompactionStats
  | listSnapshots _ => Except CoordinatorError (List (Snapshot B))

end Request

namespace Coordinator

def call (c : Coordinator B Sub ε σ) : (r : Request B) → Method ε σ (r.Answer Sub)
  | .push ns mutations => c.push ns mutations
  | .pull ns after limit => c.pull ns after limit
  | .subscribe ns fromSequence => c.subscribe ns fromSequence
  | .register ns info lastSequence => c.register ns info lastSequence
  | .heartbeat ns replicaId => c.heartbeat ns replicaId
  | .schemaVersion ns => c.schemaVersion ns
  | .disconnect => c.disconnect
  | .generationId => c.generationId
  | .historyPreserved => c.historyPreserved
  | .maxSequence => c.maxSequence
  | .cursorValidation cursor => c.cursorValidation cursor
  | .updateReplicaKey ns replicaId publicKey keyVersion =>
    c.updateReplicaKey ns replicaId publicKey keyVersion
  | .getReplicaKey ns replicaId => c.getReplicaKey ns replicaId
  | .listReplicas ns => c.listReplicas ns
  | .getSnapshot ns docId recordId => c.getSnapshot ns docId recordId
  | .storeSnapshot ns snapshot => c.storeSnapshot ns snapshot
  | .compactOplog ns => c.compactOplog ns
  | .listSnapshots ns => c.listSnapshots ns

def trace (c : Coordinator B Sub ε σ) : List (Request B × ε) → σ →
    List ((r : Request B) × r.Answer Sub × σ)
  | [], _ => []
  | (r, e) :: rs, s => ⟨r, c.call r e s⟩ :: trace c rs (c.call r e s).2

end Coordinator

/-! ## The in-memory coordinator -/

structure InMemoryState (B : Type) where
  log : InMemoryCoordinator B
  replicas : List ((String × String) × ReplicaInfo B)
  replicaKeys : String × String → Option (B × ℕ)
  schemaVersions : String → ℕ

structure HashOrders (B : Type) where
  replicas : (l : List (ReplicaInfo B)) → Call.Order l
  snapshots : (l : List (Snapshot B)) → Call.Order l

structure InMemorySubscription where
  «namespace» : String
  fromSequence : ℕ

namespace InMemoryState

def new : InMemoryState B where
  log := .new
  replicas := []
  replicaKeys _ := none
  schemaVersions _ := 0

variable (s : InMemoryState B)

def register (ns : String) (info : ReplicaInfo B) : InMemoryState B :=
  let key := (ns, info.replicaId)
  { s with
    replicas := s.replicas.filter (fun e => e.1 ≠ key) ++ [(key, info)]
    replicaKeys := Function.update s.replicaKeys key
      (some ((s.replicaKeys key).getD (info.publicKey, 1)))
    schemaVersions := Function.update s.schemaVersions ns
      (max (s.schemaVersions ns) info.schemaVersion) }

def getSnapshot (ns docId recordId : String) : Option (Snapshot B) :=
  (s.log.snapshots.find? fun e => e.1 = ns ∧ e.2.key = ⟨docId, recordId⟩).map Prod.snd

def compactionStats (ns : String) : CompactionStats where
  oplogRemoved := s.log.ops.length - (s.log.compactOplog ns).ops.length
  docsRemoved := 0
  snapshotsCollapsed := ((s.log.listSnapshots ns).filter fun snap =>
    ∃ p ∈ s.log.ops, InMemoryCoordinator.covered ns p snap).length

def coordinator : Coordinator B InMemorySubscription (HashOrders B) (InMemoryState B) where
  push ns mutations _ s :=
    (.ok (s.log.push ns mutations).1, { s with log := (s.log.push ns mutations).2 })
  pull ns after limit _ s := (.ok (s.log.pull ns after limit), s)
  subscribe ns fromSequence _ s := (.ok ⟨ns, fromSequence⟩, s)
  register ns info _ _ s := (.ok (), s.register ns info)
  heartbeat _ _ _ s := (.ok (), s)
  schemaVersion ns _ s := (.ok (s.schemaVersions ns), s)
  maxSequence _ s := (s.log.maxSequence, s)
  updateReplicaKey ns replicaId publicKey keyVersion _ s :=
    (.ok (), { s with
      replicaKeys := Function.update s.replicaKeys (ns, replicaId) (some (publicKey, keyVersion)) })
  getReplicaKey ns replicaId _ s := (.ok (s.replicaKeys (ns, replicaId)), s)
  listReplicas ns e s :=
    (.ok (e.replicas ((s.replicas.filter fun r => r.1.1 = ns).map Prod.snd)).1, s)
  getSnapshot ns docId recordId _ s := (.ok (s.getSnapshot ns docId recordId), s)
  storeSnapshot ns snapshot _ s := (.ok (), { s with log := s.log.storeSnapshot ns snapshot })
  compactOplog ns _ s := (.ok (s.compactionStats ns), { s with log := s.log.compactOplog ns })
  listSnapshots ns e s := (.ok (e.snapshots (s.log.listSnapshots ns)).1, s)

end InMemoryState

end VaultSync
