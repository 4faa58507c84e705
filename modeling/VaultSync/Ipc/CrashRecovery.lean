import VaultSync.Client.Write
import VaultSync.Sync.Merging

/-! `CrashRecovery::recover` over the two storages: stale entries become pending again, then the
entries of the ring are written as documents and as new oplog entries. -/

namespace VaultSync

open List

variable {B : Type}

inductive Backend where
  | memory
  | sqlite
  deriving DecidableEq

/-- `oplog.id` is a primary key of the SQLite table, and its numbers are bound as `i64`. -/
def Backend.Refuses (b : Backend) (ids : List String) (e : OplogEntry B) : Prop :=
  b = .sqlite ∧
    (e.id ∈ ids ∨ 2 ^ 63 ≤ e.timestamp ∨ 2 ^ 63 ≤ e.sequence.getD 0 ∨ 2 ^ 63 ≤ e.createdAt)

instance (b : Backend) (ids : List String) (e : OplogEntry B) : Decidable (b.Refuses ids e) :=
  inferInstanceAs (Decidable (_ ∧ _))

def Backend.writeDocumentAndOplog (b : Backend) (s : InMemoryStorage B) (k : Key) (bytes : B)
    (e : OplogEntry B) : Option (InMemoryStorage B) :=
  if b.Refuses (s.oplog.map OplogEntry.id) e then none else some (s.writeDocumentAndOplog k bytes e)

structure RingEntry (B : Type) where
  id : String
  yrsUpdate : B
  timestamp : ℕ

namespace CrashRecovery

def recoveredEntry (cfg : Config) (e : RingEntry B) (doc : CRDTDocument) (blob : B) :
    OplogEntry B where
  id := e.id
  replicaId := "recovered-replica"
  «namespace» := cfg.namespace
  mutationType := .crdtUpdate
  docId := doc.docId
  recordId := doc.recordId
  yrsUpdate := e.yrsUpdate
  encryptedBlob := some blob
  timestamp := e.timestamp
  sequence := none
  syncStatus := .pending
  syncedAt := none
  createdAt := e.timestamp
  schemaVersion := 0
  origin := .crashRecovery
  originContext := ""

section

variable (b : Backend) (L : Lib B) (cfg : Config) (client : ClientId)

/-- The loop over the entries of the ring, each with the nonce drawn for it. A payload that is no
document is skipped, a refused write is ignored, a failing encryption ends the recovery. -/
def replay : List (RingEntry B × Nonce) → InMemoryStorage B → ℕ →
    InMemoryStorage B × Except VaultSyncError ℕ
  | [], s, recovered => (s, .ok recovered)
  | (e, nonce) :: ring, s, recovered =>
    match CRDTDocument.fromSnapshot L client e.yrsUpdate with
    | .error _ => replay ring s recovered
    | .ok doc =>
      match encryptSymmetric L cfg.keyVersion nonce e.yrsUpdate cfg.namespace with
      | .error err => (s, .error err)
      | .ok blob =>
        match b.writeDocumentAndOplog s ⟨doc.docId, doc.recordId⟩ e.yrsUpdate
          (recoveredEntry cfg e doc blob) with
        | some s' => replay ring s' (recovered + 1)
        | none => replay ring s recovered

/-- A ring that cannot be opened or read has no entries. -/
def recover (now : ℕ) (ring : List (RingEntry B × Nonce)) (s : InMemoryStorage B) :
    InMemoryStorage B × Except VaultSyncError ℕ :=
  let (s, recovered) := s.resetStalePending cfg.namespace 60000 now
  replay b L cfg client ring s recovered

def rows : List (RingEntry B × Nonce) → List String → List (OplogEntry B)
  | [], _ => []
  | (e, nonce) :: ring, ids =>
    match CRDTDocument.fromSnapshot L client e.yrsUpdate with
    | .error _ => rows ring ids
    | .ok doc =>
      match encryptSymmetric L cfg.keyVersion nonce e.yrsUpdate cfg.namespace with
      | .error _ => []
      | .ok blob =>
        if b.Refuses ids (recoveredEntry cfg e doc blob) then rows ring ids
        else recoveredEntry cfg e doc blob :: rows ring (ids ++ [e.id])

end

def writeRows (s : InMemoryStorage B) (l : List (OplogEntry B)) : InMemoryStorage B :=
  l.foldl (fun s row => s.writeDocumentAndOplog row.key row.yrsUpdate row) s

/-- Each row is followed by another one of its document, or has all of the stored state. -/
def LastRowsCover (L : Lib B) (documents : Key → Option B) : List (OplogEntry B) → Prop
  | [] => True
  | row :: l =>
    (row.key ∈ l.map OplogEntry.key ∨
      storedState L (documents row.key) ≤ storedState L (some row.yrsUpdate)) ∧
    LastRowsCover L documents l

instance (L : Lib B) (documents : Key → Option B) :
    (l : List (OplogEntry B)) → Decidable (LastRowsCover L documents l)
  | [] => inferInstanceAs (Decidable True)
  | _ :: l =>
    have := instDecidableLastRowsCover L documents l
    inferInstanceAs (Decidable (_ ∧ _))

variable {b : Backend} {L : Lib B} {cfg : Config} {client : ClientId}
  {ring : List (RingEntry B × Nonce)} {s : InMemoryStorage B} {l : List (OplogEntry B)} {k : Key}

lemma replay_eq (recovered : ℕ) : (replay b L cfg client ring s recovered).1 =
    writeRows s (rows b L cfg client ring (s.oplog.map OplogEntry.id)) := by
  induction ring generalizing s recovered with
  | nil => rfl
  | cons x ring ih =>
    obtain ⟨e, nonce⟩ := x
    unfold replay rows
    cases CRDTDocument.fromSnapshot L client e.yrsUpdate with
    | error err => exact ih recovered
    | ok doc =>
      dsimp only
      cases encryptSymmetric L cfg.keyVersion nonce e.yrsUpdate cfg.namespace with
      | error err => rfl
      | ok blob =>
        dsimp only
        rw [Backend.writeDocumentAndOplog]
        split_ifs with hrefuse
        · exact ih recovered
        · refine (ih (recovered + 1)).trans ?_
          rw [InMemoryStorage.writeDocumentAndOplog, map_append]
          rfl

lemma mem_rows {row : OplogEntry B} {ids : List String} (h : row ∈ rows b L cfg client ring ids) :
    ∃ e nonce doc blob, CRDTDocument.fromSnapshot L client e.yrsUpdate = .ok doc ∧
      encryptSymmetric L cfg.keyVersion nonce e.yrsUpdate cfg.namespace = .ok blob ∧
      row = recoveredEntry cfg e doc blob := by
  induction ring generalizing ids with
  | nil => cases h
  | cons x ring ih =>
    obtain ⟨e, nonce⟩ := x
    unfold rows at h
    cases hdoc : CRDTDocument.fromSnapshot L client e.yrsUpdate with
    | error err =>
      rw [hdoc] at h
      exact ih h
    | ok doc =>
      rw [hdoc] at h
      dsimp only at h
      cases hblob : encryptSymmetric L cfg.keyVersion nonce e.yrsUpdate cfg.namespace with
      | error err =>
        rw [hblob] at h
        cases h
      | ok blob =>
        rw [hblob] at h
        dsimp only at h
        split_ifs at h
        · exact ih h
        · rcases mem_cons.1 h with rfl | h
          · exact ⟨e, nonce, doc, blob, hdoc, hblob, rfl⟩
          · exact ih h

lemma writeRows_cons (row : OplogEntry B) : writeRows s (row :: l) =
    writeRows (s.writeDocumentAndOplog row.key row.yrsUpdate row) l := rfl

lemma writeRows_oplog : (writeRows s l).oplog = s.oplog ++ l := by
  induction l generalizing s with
  | nil => exact (append_nil _).symm
  | cons row l ih =>
    rw [writeRows_cons, ih]
    exact append_assoc _ [row] l

lemma writeRows_of_notMem (h : k ∉ l.map OplogEntry.key) :
    (writeRows s l).documents k = s.documents k := by
  induction l generalizing s with
  | nil => rfl
  | cons row l ih =>
    rw [map_cons, mem_cons, not_or] at h
    rw [writeRows_cons, ih h.2]
    exact Function.update_of_ne h.1 _ _

lemma le_writeRows (h : LastRowsCover L s.documents l) (k : Key) :
    storedState L (s.documents k) ≤ storedState L ((writeRows s l).documents k) := by
  -- the bound is on the documents before the first row, which the later rows replace
  suffices H : ∀ s' : InMemoryStorage B,
      (k ∉ l.map OplogEntry.key → s'.documents k = s.documents k) →
      storedState L (s.documents k) ≤ storedState L ((writeRows s' l).documents k) from
    H s fun _ => rfl
  induction l with
  | nil =>
    intro s' hs'
    exact (congrArg (storedState L) (hs' not_mem_nil)).ge
  | cons row l ih =>
    intro s' hs'
    rw [writeRows_cons]
    by_cases hk : k ∈ l.map OplogEntry.key
    · exact ih h.2 _ fun hn => absurd hk hn
    · by_cases hrow : k = row.key
      · have hself : (s'.writeDocumentAndOplog row.key row.yrsUpdate row).documents k =
            some row.yrsUpdate := by
          rw [hrow]
          exact Function.update_self _ _ _
        rw [writeRows_of_notMem hk, hself]
        rcases h.1 with hlater | hcover
        · exact absurd (hrow ▸ hlater) hk
        · exact hrow ▸ hcover
      · refine ih h.2 _ fun _ => ?_
        refine (Function.update_of_ne hrow _ _).trans (hs' ?_)
        rw [map_cons, mem_cons, not_or]
        exact ⟨hrow, hk⟩

end CrashRecovery

end VaultSync
