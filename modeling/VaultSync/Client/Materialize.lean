import Mathlib.Data.List.Sort
import VaultSync.Sync.Merging

/-! The view materializer: pending entries are replayed onto the stored documents. -/

namespace VaultSync

open Async AsyncFn CRDTDocument

variable {B : Type}

namespace MutationEngine

variable (L : Lib B) (k : Key)

def writeSnapshot (doc : CRDTDocument) : AsyncFn B B := do
  let snapshot := doc.toSnapshot L
  insertDocument k snapshot
  return snapshot

def loadSnapshot (bytes : B) : AsyncFn B CRDTDocument := do
  let client ← newClientId
  Prog.ofExcept (fromSnapshot L client bytes)

def applyDelete : AsyncFn B B := do
  match ← getDocument k with
  | none => return L.empty
  | some bytes =>
    let doc ← loadSnapshot L bytes
    writeSnapshot L k (doc.setField L "_deleted" (.boolean true))

def applyUpdate (L : Lib B) (k : Key) (update : B) : AsyncFn B B := do
  match ← getDocument k with
  | none =>
    let docId := k.docId
    let recordId := k.recordId
    Prog.fail (.storage s!"cannot apply update to nonexistent doc {docId} record {recordId}")
  | some bytes =>
    let doc ← loadSnapshot L bytes
    let doc ← Prog.ofExcept (doc.applyUpdate L update)
    writeSnapshot L k doc

def loadForInsert (schemaVersion : ℕ) : Option B → AsyncFn B CRDTDocument
  | some bytes => loadSnapshot L bytes
  | none => do
    let client ← newClientId
    return new client k.docId k.recordId schemaVersion

def applyInsert (update : B) (schemaVersion : ℕ) : AsyncFn B B := do
  let existing ← getDocument k
  let doc ← loadForInsert L k schemaVersion existing
  let doc ← Prog.ofExcept (doc.applyUpdate L update)
  writeSnapshot L k doc

def execute (e : OplogEntry B) : AsyncFn B B :=
  match e.mutationType with
  | .crdtDelete => applyDelete L e.key
  | .crdtUpdate => applyUpdate L e.key e.yrsUpdate
  | .crdtInsert => applyInsert L e.key e.yrsUpdate e.schemaVersion
  | .crdtBatch => Prog.fail (.storage "batch mutations are not individually replayable")

end MutationEngine

namespace ViewMaterializer

def plannedBefore (a b : OplogEntry B) : Bool :=
  ((compare a.createdAt b.createdAt).then (compare a.docId b.docId)).then
    (compare a.recordId b.recordId) != .gt

def plan (entries : List (OplogEntry B)) : List (OplogEntry B) :=
  entries.insertionSort fun a b => plannedBefore a b

/-- A failure to replay one entry is only logged. -/
def replay (L : Lib B) : List (OplogEntry B) → AsyncFn B Unit
  | [] => pure ()
  | e :: es => do
    let _ ← (MutationEngine.execute L e).attempt
    replay L es

def verify (cfg : Config) : AsyncFn B Unit := do
  match ← (readPendingOplog cfg.namespace 10).attempt with
  | .ok _ => return ()
  | .error err =>
    let detail := err.display
    Prog.fail (.storage s!"materialization verification failed: oplog corruption: failed to read pending oplog: {detail}")

def materialize (L : Lib B) (cfg : Config) : AsyncFn B Unit := do
  let entries ← readPendingOplog cfg.namespace 50000
  if entries.isEmpty then
    return ()
  replay L (plan entries)
  verify cfg

end ViewMaterializer

end VaultSync
