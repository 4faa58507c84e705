import VaultSync.E2ee.Keyring
import VaultSync.Sync.Reconciler

/-! The local writes of the client: `insert`, `update` and `delete`. -/

namespace VaultSync

open Async AsyncFn

variable {B : Type}

def clockNow : AsyncFn B ℕ := do
  let sys ← now
  update fun c => (max sys c.hlcWall, { c with hlcWall := max sys c.hlcWall })

namespace VaultSyncClient

def filterMetaFields (fields : List (String × CrdtValue)) : List (String × CrdtValue) :=
  fields.filter fun f => f.1 ≠ "updatedAt" ∧ f.1 ≠ "updated_at"

variable (L : Lib B) (cfg : Config) (k : Key)

def validateVersion (docId : String) (proposed : ℕ) : Except VaultSyncError Unit :=
  match cfg.schemaVersion docId with
  | some registered =>
    if registered ≠ proposed then .error (.versionMismatch proposed registered docId) else .ok ()
  | none => .ok ()

variable (doc : CRDTDocument)

section

variable (fields : List (String × CrdtValue))

def contentChanged : Bool :=
  fields.any fun f =>
    match doc.getField L f.1 with
    | some existing => existing != f.2
    | none => true

def newDocument : AsyncFn B CRDTDocument := do
  let client ← newClientId
  return CRDTDocument.new client k.docId k.recordId ((cfg.schemaVersion k.docId).getD 0)

def encrypt (bytes : B) : AsyncFn B B := do
  let nonce ← drawNonce
  Prog.ofExcept (encryptSymmetric L cfg.keyVersion nonce bytes cfg.namespace)

def localEntry (id : String) (type : MutationType) (origin : MutationOrigin)
    (k : Key) (update blob : B) (wall schemaVersion : ℕ) : OplogEntry B where
  id := id
  replicaId := cfg.replicaId
  «namespace» := cfg.namespace
  mutationType := type
  docId := k.docId
  recordId := k.recordId
  yrsUpdate := update
  encryptedBlob := some blob
  timestamp := wall
  sequence := none
  syncStatus := .optimistic
  syncedAt := none
  createdAt := wall
  schemaVersion := schemaVersion
  origin := origin
  originContext := ""

def storeLocal (entry : OplogEntry B) : AsyncFn B Unit := do
  writeDocumentAndOplog k (doc.toSnapshot L) entry
  fire .localWrite k doc.state

/-- Insert and update set their fields and publish the whole state of the document:
`capture_incremental_update` encodes it against the empty state vector. -/
def writeFields (id : String) (type : MutationType) (origin : MutationOrigin) (k : Key)
    (doc : CRDTDocument) (fields : List (String × CrdtValue)) (wall : ℕ) : AsyncFn B Unit := do
  let fields ← fieldOrder (fields ++ [("updatedAt", .number (Float.ofNat wall))])
  let doc := doc.setFields L fields
  let updateBytes := L.encodeV1 doc.state
  if cfg.maxDocumentSize < L.len updateBytes then
    Prog.fail (.documentTooLarge (L.len updateBytes) cfg.maxDocumentSize)
  else
    let blob ← encrypt L cfg updateBytes
    storeLocal L k doc (localEntry cfg id type origin k updateBytes blob wall doc.schemaVersion)

/-- Nothing is read: a document that is stored already is replaced. -/
def insert : AsyncFn B Unit := do
  let id ← newUuid
  let doc ← newDocument cfg k
  let wall ← clockNow
  writeFields L cfg id .crdtInsert .insert k doc (filterMetaFields fields) wall

/-- Content that is there already is not written again. -/
def updateDocument : AsyncFn B Unit := do
  Prog.ofExcept (validateVersion cfg k.docId doc.schemaVersion)
  if contentChanged L doc fields then
    let id ← newUuid
    let wall ← clockNow
    writeFields L cfg id .crdtUpdate .update k doc fields wall
  else
    return ()

def loadForUpdate : Option B → AsyncFn B CRDTDocument
  | some bytes => do
    let client ← newClientId
    Prog.ofExcept (CRDTDocument.fromSnapshot L client bytes)
  | none => newDocument cfg k

def update : AsyncFn B Unit := do
  let existing ← getDocument k
  let doc ← loadForUpdate L cfg k existing
  updateDocument L cfg k doc (filterMetaFields fields)

end

def deleteDocument : AsyncFn B Unit := do
  Prog.ofExcept (validateVersion cfg k.docId doc.schemaVersion)
  let id ← newUuid
  let updateBytes := doc.setFieldDelta L "_deleted" (.boolean true)
  let blob ← encrypt L cfg updateBytes
  let wall ← clockNow
  storeLocal L k (doc.setField L "_deleted" (.boolean true))
    (localEntry cfg id .crdtDelete .delete k updateBytes blob wall doc.schemaVersion)

def delete : AsyncFn B Unit := do
  match ← getDocument k with
  | none => return ()
  | some bytes =>
    let doc ← loadForUpdate L cfg k (some bytes)
    deleteDocument L cfg k doc

end VaultSyncClient

end VaultSync
