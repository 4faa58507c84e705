import VaultSync.Sync.World

/-! The awaited calls as steps of an `async fn`. A call whose error the source propagates with
`?` is written plainly; the coordinator's answers are values, errors included. -/

namespace VaultSync.AsyncFn

open Async Prog

variable {B : Type}

def getDocument (k : Key) : AsyncFn B (Option B) := call (.getDocument k) .ofExcept

def insertDocument (k : Key) (bytes : B) : AsyncFn B Unit :=
  call (.insertDocument k bytes) .ofExcept

def writeDocumentAndOplog (k : Key) (bytes : B) (entry : OplogEntry B) : AsyncFn B Unit :=
  call (.writeDocumentAndOplog k bytes entry) .ofExcept

def writeBatchReconciliation (docs : List (Key × B)) : AsyncFn B Unit :=
  call (.writeBatchReconciliation docs) .ofExcept

variable (ns : String)

def readPendingOplog (limit : ℕ) : AsyncFn B (List (OplogEntry B)) :=
  call (.readPendingOplog ns limit) .ofExcept

def beginTransaction : AsyncFn B (Except VaultSyncError Unit) :=
  call .beginTransaction fun r => .ret r

def txMarkSynced (id : String) (seq : ℕ) : AsyncFn B (Except VaultSyncError Unit) :=
  call (.txMarkSynced id seq) fun r => .ret r

def txCommit : AsyncFn B (Except VaultSyncError Unit) :=
  call .txCommit fun r => .ret r

def markSynced (id : String) (seq : ℕ) : AsyncFn B Unit := call (.markSynced id seq) .ofExcept

def markFailed (id msg : String) : AsyncFn B Unit := call (.markFailed id msg) .ofExcept

def readSyncState : AsyncFn B (Option SyncState) :=
  call (.readSyncState ns) .ofExcept

def writeSyncState (st : SyncState) : AsyncFn B Unit := call (.writeSyncState st) .ofExcept

def listActiveDocuments : AsyncFn B (List Key) :=
  call (.listActiveDocuments ns) .ofExcept

def readSyncedOplogForDocument (k : Key) : AsyncFn B (List (OplogEntry B)) :=
  call (.readSyncedOplogForDocument ns k) .ofExcept

def deleteSyncedOplogBeforeTimestamp (k : Key) (t : ℕ) : AsyncFn B ℕ :=
  call (.deleteSyncedOplogBeforeTimestamp ns k t) .ofExcept

def deleteSyncedOplogOlderThan (olderThanSecs : ℕ) : AsyncFn B ℕ :=
  call (.deleteSyncedOplogOlderThan ns olderThanSecs) .ofExcept

def listTombstonedDocuments (olderThanSecs : ℕ) : AsyncFn B (List Key) :=
  call (.listTombstonedDocuments ns olderThanSecs) .ofExcept

def deleteDocument (k : Key) : AsyncFn B Unit := call (.deleteDocument k) .ofExcept

def push (ms : List (EncryptedMutation B)) : AsyncFn B (Except CoordinatorError (List ℕ)) :=
  call (.push ns ms) fun r => .ret r

def pull (after limit : ℕ) : AsyncFn B (Except CoordinatorError (List (PendingMutation B))) :=
  call (.pull ns after limit) fun r => .ret r

def listSnapshots : AsyncFn B (Except CoordinatorError (List (Snapshot B))) :=
  call (.listSnapshots ns) fun r => .ret r

def storeSnapshot (s : Snapshot B) : AsyncFn B (Except CoordinatorError Unit) :=
  call (.storeSnapshot ns s) fun r => .ret r

def register (lastSequence : ℕ) : AsyncFn B (Except CoordinatorError Unit) :=
  call (.register ns lastSequence) fun r => .ret r

def subscribe (fromSequence : ℕ) : AsyncFn B (Except CoordinatorError Unit) :=
  call (.subscribe ns fromSequence) fun r => .ret r

def disconnect : AsyncFn B (Except CoordinatorError Unit) :=
  call .disconnect fun r => .ret r

def generationId : AsyncFn B String := call .generationId fun s => .ret s

def historyPreserved : AsyncFn B Bool := call .historyPreserved fun b => .ret b

def maxSequence : AsyncFn B ℕ := call .maxSequence fun n => .ret n

def storeCursor : AsyncFn B (Except VaultSyncError ℕ) :=
  call .storeCursor fun r => .ret r

def setCursor (seq : ℕ) (caller : String) : AsyncFn B Unit :=
  call (.setCursor seq caller) .ofExcept

def loadLastSequence : AsyncFn B ℕ := call .loadLastSequence fun n => .ret n

def swapLastSequence (seq : ℕ) : AsyncFn B ℕ :=
  call (.swapLastSequence seq) fun n => .ret n

def newClientId : AsyncFn B ClientId := call .newClientId fun c => .ret c

def newUuid : AsyncFn B String := call .newUuid fun s => .ret s

def drawNonce : AsyncFn B Nonce := call .nonce fun n => .ret n

def now : AsyncFn B ℕ := call .now fun n => .ret n

def instants : AsyncFn B (String → ℕ) := call .instants fun f => .ret f

def hashOrder (keys : List Key) : AsyncFn B (List Key) :=
  call (.hashOrder keys) fun o => .ret o.1

def fieldOrder (fields : List (String × CrdtValue)) : AsyncFn B (List (String × CrdtValue)) :=
  call (.fieldOrder fields) fun o => .ret o.1

def read {α : Type} (f : Client B → α) : AsyncFn B α := Prog.read f

def modify (f : Client B → Client B) : AsyncFn B Unit := Prog.modify f

def update {α : Type} (f : Client B → α × Client B) : AsyncFn B α :=
  sync (fun c => (f c).2) fun c => .ret (f c).1

end VaultSync.AsyncFn
