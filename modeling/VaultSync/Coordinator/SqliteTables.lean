import Mathlib.Data.List.Nodup
import VaultSync.Coordinator.Sqlite

/-! The SQLite coordinator with all of its tables: beside the mutations, replicas, schema versions
and snapshots. -/

namespace VaultSync

open List

variable {B : Type}

namespace SQLiteCoordinator

def Row.key (r : Row B) : Key := ⟨r.docId, r.recordId⟩

def asU64 (z : ℤ) : ℕ := (z % (2 ^ 64 : ℕ)).toNat

variable {n : ℕ}

lemma toNat_bmod_emod {m : ℕ} (h : n < m) : ((n : ℤ).bmod m % m).toNat = n := by
  rw [Int.bmod_emod, Int.emod_eq_of_lt (Int.natCast_nonneg n) (Int.ofNat_lt.2 h), Int.toNat_natCast]

lemma asU64_asI64 (h : n < 2 ^ 64) : asU64 (asI64 n) = n := toNat_bmod_emod h

structure ReplicaRow (B : Type) where
  replicaId : String
  «namespace» : String
  publicKey : B
  schemaVersion : ℤ
  lastSeen : ℤ
  keyVersion : ℤ

def ReplicaRow.info (r : ReplicaRow B) : ReplicaInfo B where
  replicaId := r.replicaId
  «namespace» := r.namespace
  publicKey := r.publicKey
  schemaVersion := asU64 r.schemaVersion

structure SnapshotRow (B : Type) where
  «namespace» : String
  key : Key
  sequence : ℤ
  createdAt : ℤ
  bytes : Snapshot B

def Keeps (ns : String) (snapshots : List (SnapshotRow B)) (r : Row B) : Prop :=
  ¬ ∃ s ∈ snapshots, s.namespace = ns ∧ r.namespace = ns ∧ r.key = s.key ∧
    (r.sequence : ℤ) ≤ s.sequence

instance (ns : String) (snapshots : List (SnapshotRow B)) (r : Row B) :
    Decidable (Keeps ns snapshots r) :=
  inferInstanceAs (Decidable (¬ ∃ s ∈ snapshots, _))

def deleteCovered (c : SQLiteCoordinator B) (ns : String) (snapshots : List (SnapshotRow B)) :
    SQLiteCoordinator B where
  rows := c.rows.filter fun r => Keeps ns snapshots r
  lastSequence := c.lastSequence
  sorted := c.sorted.filter _
  seq_pos r hr := c.seq_pos r (mem_of_mem_filter hr)
  seq_le r hr := c.seq_le r (mem_of_mem_filter hr)
  lastSequence_lt := c.lastSequence_lt

end SQLiteCoordinator

open SQLiteCoordinator

/-- Replicas are unique by their id alone; rows are in the order of their rowids. -/
structure SQLiteDatabase (B : Type) where
  mutations : SQLiteCoordinator B
  replicas : List (ReplicaRow B)
  schemaVersions : String → Option ℤ
  snapshots : List (SnapshotRow B)
  one_replica : (replicas.map ReplicaRow.replicaId).Nodup
  one_snapshot : snapshots.Pairwise fun a b => ¬ (a.namespace = b.namespace ∧ a.key = b.key)
  columns : ∀ r ∈ snapshots, r.key = r.bytes.key ∧ r.sequence = asI64 r.bytes.sequence

namespace SQLiteDatabase

def new : SQLiteDatabase B where
  mutations := .new
  replicas := []
  schemaVersions _ := none
  snapshots := []
  one_replica := nodup_nil
  one_snapshot := .nil
  columns _ hr := nomatch hr

def unlessFault {α : Type} (fault : Option String) (db : SQLiteDatabase B)
    (r : α × SQLiteDatabase B) : Except CoordinatorError α × SQLiteDatabase B :=
  match fault with
  | none => (.ok r.1, r.2)
  | some msg => (.error (.internal msg), db)

variable (db : SQLiteDatabase B) (fault : Option String) (ns : String)

def push (auto : AutoIncrement) (ms : List (EncryptedMutation B)) :
    Except CoordinatorError (List ℕ) × SQLiteDatabase B :=
  let (r, mutations) := db.mutations.push auto fault ns ms
  (r, { db with mutations := mutations })

def pull (after limit : ℕ) : Except CoordinatorError (List (PendingMutation B)) :=
  match fault with
  | none => db.mutations.pull ns after limit
  | some msg => .error (.internal msg)

/-! ## Replicas -/

def replicaRow (info : ReplicaInfo B) (now : ℕ) : ReplicaRow B where
  replicaId := info.replicaId
  «namespace» := ns
  publicKey := info.publicKey
  schemaVersion := asI64 info.schemaVersion
  lastSeen := asI64 now
  keyVersion := 1

/-- `INSERT OR REPLACE`: the row that has the id, of whatever namespace, makes place. -/
def replaceReplica (row : ReplicaRow B) : SQLiteDatabase B :=
  { db with
    replicas := db.replicas.filter (fun r => r.replicaId ≠ row.replicaId) ++ [row]
    one_replica := by
      rw [map_append, map_singleton]
      refine List.Nodup.append (db.one_replica.sublist (filter_sublist.map _))
        (nodup_singleton _) fun id hid hrow => ?_
      obtain ⟨r, hr, rfl⟩ := mem_map.1 hid
      exact of_decide_eq_true (mem_filter.1 hr).2 (mem_singleton.1 hrow) }

def raiseSchemaVersion (version : ℤ) : SQLiteDatabase B :=
  { db with
    schemaVersions := Function.update db.schemaVersions ns
      (some (((db.schemaVersions ns).map (max version)).getD version)) }

def register (info : ReplicaInfo B) (now : ℕ) : Except CoordinatorError Unit × SQLiteDatabase B :=
  unlessFault fault db
    ((), (db.replaceReplica (replicaRow ns info now)).raiseSchemaVersion ns
      (asI64 info.schemaVersion))

variable (replicaId : String)

/-- `UPDATE replicas … WHERE namespace = ? AND replica_id = ?`, which keeps the ids. -/
def updateReplica (f : ReplicaRow B → ReplicaRow B)
    (hf : ∀ r, (f r).replicaId = r.replicaId) : SQLiteDatabase B :=
  { db with
    replicas := db.replicas.map fun r =>
      if r.namespace = ns ∧ r.replicaId = replicaId then f r else r
    one_replica := by
      have hids : (db.replicas.map fun r =>
          if r.namespace = ns ∧ r.replicaId = replicaId then f r else r).map ReplicaRow.replicaId =
            db.replicas.map ReplicaRow.replicaId := by
        rw [map_map]
        refine map_congr_left fun r _ => ?_
        rw [Function.comp_apply]
        split
        · exact hf r
        · rfl
      rw [hids]
      exact db.one_replica }

def heartbeat (now : ℕ) : Except CoordinatorError Unit × SQLiteDatabase B :=
  unlessFault fault db
    ((), db.updateReplica ns replicaId (fun r => { r with lastSeen := asI64 now }) fun _ => rfl)

def updateReplicaKey (publicKey : B) (keyVersion : ℕ) :
    Except CoordinatorError Unit × SQLiteDatabase B :=
  unlessFault fault db
    ((), db.updateReplica ns replicaId
      (fun r => { r with publicKey := publicKey, keyVersion := asI64 keyVersion }) fun _ => rfl)

def getReplicaKey : Except CoordinatorError (Option (B × ℕ)) :=
  match fault with
  | none => .ok ((db.replicas.find? fun r => r.namespace = ns ∧ r.replicaId = replicaId).map
      fun r => (r.publicKey, asU64 r.keyVersion))
  | some msg => .error (.internal msg)

def listReplicas : Except CoordinatorError (List (ReplicaInfo B)) :=
  match fault with
  | none => .ok ((db.replicas.filter fun r => r.namespace = ns).map ReplicaRow.info)
  | some msg => .error (.internal msg)

/-! ## Snapshots -/

def storeSnapshot (s : Snapshot B) : Except CoordinatorError Unit × SQLiteDatabase B :=
  unlessFault fault db ((), { db with
    snapshots := db.snapshots.filter (fun r => ¬ (r.namespace = ns ∧ r.key = s.key)) ++
      [{ «namespace» := ns
         key := s.key
         sequence := asI64 s.sequence
         createdAt := asI64 s.createdAt
         bytes := s }]
    one_snapshot := by
      rw [pairwise_append]
      refine ⟨db.one_snapshot.filter _, pairwise_singleton _ _, fun a ha b hb => ?_⟩
      rw [mem_singleton.1 hb]
      exact of_decide_eq_true (mem_filter.1 ha).2
    columns := by
      intro r hr
      rcases mem_append.1 hr with hold | hnew
      · exact db.columns r (mem_of_mem_filter hold)
      · obtain rfl := mem_singleton.1 hnew
        exact ⟨rfl, by dsimp only⟩ })

def listSnapshots : List (Snapshot B) :=
  (db.snapshots.filter fun r => r.namespace = ns).map SnapshotRow.bytes

def compactOplog : Except CoordinatorError Unit × SQLiteDatabase B :=
  unlessFault fault db ((), { db with mutations := db.mutations.deleteCovered ns db.snapshots })

variable {db fault ns} {auto : AutoIncrement} {ms : List (EncryptedMutation B)}
  {db' : SQLiteDatabase B} {t : Snapshot B}

lemma push_ok {seqs : List ℕ} (h : db.push fault ns auto ms = (.ok seqs, db')) :
    ∃ c, db.mutations.insertAll auto ns ms = .ok (seqs, c) ∧ db' = { db with mutations := c } := by
  unfold SQLiteDatabase.push SQLiteCoordinator.push at h
  cases fault with
  | some msg => cases h
  | none =>
    cases hins : db.mutations.insertAll auto ns ms with
    | error e => rw [hins] at h; cases h
    | ok x =>
      rw [hins] at h
      cases h
      exact ⟨_, rfl, rfl⟩

lemma push_error {e : CoordinatorError} (h : db.push fault ns auto ms = (.error e, db')) :
    db' = db := by
  unfold SQLiteDatabase.push SQLiteCoordinator.push at h
  cases fault with
  | some msg => cases h; rfl
  | none =>
    cases hins : db.mutations.insertAll auto ns ms with
    | error e => rw [hins] at h; cases h; rfl
    | ok x => rw [hins] at h; cases h

lemma mem_listSnapshots :
    t ∈ db.listSnapshots ns ↔ ∃ r ∈ db.snapshots, r.namespace = ns ∧ r.bytes = t := by
  simp [listSnapshots, and_assoc]

lemma mem_listSnapshots_storeSnapshot {s : Snapshot B} :
    t ∈ (db.storeSnapshot none ns s).2.listSnapshots ns ↔
      t = s ∨ (t ∈ db.listSnapshots ns ∧ t.key ≠ s.key) := by
  rw [mem_listSnapshots, mem_listSnapshots]
  constructor
  · rintro ⟨r, hr, hns, rfl⟩
    rcases mem_append.1 hr with hold | hnew
    · obtain ⟨hold, hne⟩ := mem_filter.1 hold
      refine .inr ⟨⟨r, hold, hns, rfl⟩, fun hkey => of_decide_eq_true hne ⟨hns, ?_⟩⟩
      exact (db.columns r hold).1.trans hkey
    · rw [mem_singleton.1 hnew]
      exact .inl rfl
  · rintro (rfl | ⟨⟨r, hr, hns, rfl⟩, hne⟩)
    · exact ⟨_, mem_append_right _ mem_cons_self, rfl, rfl⟩
    · refine ⟨r, mem_append_left _ (mem_filter.2 ⟨hr, decide_eq_true ?_⟩), hns, rfl⟩
      exact fun hsame => hne ((db.columns r hr).1.symm.trans hsame.2)

lemma listSnapshots_storeSnapshot_of_ne {ns' : String} (h : ns' ≠ ns) (s : Snapshot B) :
    (db.storeSnapshot none ns s).2.listSnapshots ns' = db.listSnapshots ns' := by
  simp only [listSnapshots, storeSnapshot, unlessFault, filter_append, filter_filter]
  rw [filter_cons_of_neg (by simpa using h.symm), filter_nil, append_nil]
  refine congrArg _ (filter_congr fun r _ => ?_)
  by_cases hr : r.namespace = ns'
  · simp [hr, h]
  · simp [hr]

end SQLiteDatabase

end VaultSync
