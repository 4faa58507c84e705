import VaultSync.Crdt.State
import VaultSync.Error

/-! `CRDTDocument`. -/

namespace VaultSync

variable {B : Type}

/-- `client` is the client id yrs draws for every new `Doc`. -/
structure CRDTDocument where
  docId : String
  recordId : String
  schemaVersion : ℕ
  state : CrdtState
  client : ClientId

namespace CRDTDocument

def maxSnapshotSize : ℕ := 100 * 1024 * 1024

/-- The document a `new` creates has three items: `doc_id`, `record_id`, `schema_version`. -/
def new (client : ClientId) (docId recordId : String) (schemaVersion : ℕ) : CRDTDocument where
  docId := docId
  recordId := recordId
  schemaVersion := schemaVersion
  state := ⟨{client, client, client}, ∅⟩
  client := client

def extractString : Option CrdtValue → String
  | some (.string s) => s
  | _ => ""

def extractVersion : Option CrdtValue → ℕ
  | some (.number n) => n.toUInt64.toNat
  | _ => 0

variable (L : Lib B)

def fromSnapshot (client : ClientId) (bytes : B) : Except VaultSyncError CRDTDocument :=
  if maxSnapshotSize < L.len bytes then
    .error (.documentTooLarge (L.len bytes) maxSnapshotSize)
  else
    match L.decodeV1 bytes with
    | .error e => .error (.crdt s!"failed to decode snapshot: {e}")
    | .ok u => .ok {
        docId := extractString (L.field u "doc_id")
        recordId := extractString (L.field u "record_id")
        schemaVersion := extractVersion (L.field u "schema_version")
        state := u
        client := client }

variable (doc : CRDTDocument)

def toSnapshot : B := L.encodeV1 doc.state

def applyUpdate (update : B) : Except VaultSyncError CRDTDocument :=
  if maxSnapshotSize < L.len update then
    .error (.documentTooLarge (L.len update) maxSnapshotSize)
  else
    match L.decodeV1 update with
    | .error e => .error (.crdt s!"failed to decode update: {e}")
    | .ok u => .ok { doc with state := doc.state ⊔ u }

def getField (name : String) : Option CrdtValue :=
  L.field doc.state name

def toMap : String → Option CrdtValue := L.field doc.state

def setField (name : String) (_value : CrdtValue) : CRDTDocument :=
  { doc with state := doc.state.insertItem doc.client (L.itemAt doc.state name) }

def setFieldDelta (name : String) (value : CrdtValue) : B :=
  L.encodeV1 ((doc.setField L name value).state.diff doc.state.stateVector)

def setFields (fields : List (String × CrdtValue)) : CRDTDocument :=
  fields.foldl (fun d f => d.setField L f.1 f.2) doc

variable {L : Lib B} {doc doc' : CRDTDocument} {client : ClientId} {bytes : B}

lemma fromSnapshot_ok (h : fromSnapshot L client bytes = .ok doc) :
    L.decodeV1 bytes = .ok doc.state ∧ doc.client = client ∧ L.len bytes ≤ maxSnapshotSize := by
  unfold fromSnapshot at h
  split_ifs at h with hlen
  cases hd : L.decodeV1 bytes with
  | error e => rw [hd] at h; cases h
  | ok u =>
    rw [hd] at h
    cases h
    exact ⟨rfl, rfl, not_lt.1 hlen⟩

lemma applyUpdate_ok (h : applyUpdate L doc bytes = .ok doc') :
    ∃ u, L.decodeV1 bytes = .ok u ∧ doc' = { doc with state := doc.state ⊔ u } := by
  unfold applyUpdate at h
  split_ifs at h
  cases hd : L.decodeV1 bytes with
  | error e => rw [hd] at h; cases h
  | ok u =>
    rw [hd] at h
    cases h
    exact ⟨u, rfl, rfl⟩

lemma le_setField (name : String) (value : CrdtValue) :
    doc.state ≤ (doc.setField L name value).state := CrdtState.le_insertItem _ _ _

lemma le_setFields (fields : List (String × CrdtValue)) :
    doc.state ≤ (doc.setFields L fields).state := by
  induction fields generalizing doc with
  | nil => exact le_rfl
  | cons f fields ih => exact (le_setField f.1 f.2).trans ih

end CRDTDocument

end VaultSync
