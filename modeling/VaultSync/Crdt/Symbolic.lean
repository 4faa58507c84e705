import VaultSync.Sync.World

/-! Byte strings as terms: a library whose codec and cipher are free constructors, for runs on
concrete inputs. -/

namespace VaultSync

open Async

inductive Sym where
  | empty
  | update (d : CrdtState)
  | key (ns : String) (version : ℕ)
  | sealed (key : Sym) (nonce : Nonce) (plaintext : Sym)
  | frame (version : ℕ) (nonce : Nonce) (body : Sym)
  deriving DecidableEq

namespace Sym

def lib : Lib Sym where
  empty := .empty
  len
    | .empty => 0
    | .frame _ _ _ => 64
    | _ => 32
  leU64
    | .frame v _ _ => v
    | _ => 0
  frame := .frame
  frameNonce
    | .frame _ n _ => n
    | _ => 0
  frameBody
    | .frame _ _ b => b
    | _ => .empty
  hkdf := .key
  encrypt k n p := .ok (.sealed k n p)
  decrypt k n
    | .sealed k' n' p => if k' = k ∧ n' = n then .ok p else .error "aead::Error"
    | _ => .error "aead::Error"
  decodeV1
    | .update d => .ok d
    | _ => .error "while trying to read more data"
  encodeV1 := .update
  itemAt _ _ := none
  field _
    | "doc_id" => some (.string "d")
    | "record_id" => some (.string "x")
    | "schema_version" => some (.number 0)
    | _ => none
  len_frame _ _ _ := (by decide : 20 ≤ 64)
  leU64_frame _ _ _ _ := rfl
  frameNonce_frame _ _ _ := rfl
  frameBody_frame _ _ _ := rfl
  decrypt_encrypt h := by
    cases h
    simp
  decode_encode _ := rfl

def blob (ns : String) (d : CrdtState) : Sym :=
  .frame 1 0 (.sealed (.key ns 1) 0 (.update d))

def mutation (id replica : String) (d : CrdtState) : EncryptedMutation Sym :=
  ⟨id, "ns", replica, "d", "x", blob "ns" d, 0, 0, 1⟩

def config (snapshotThreshold : ℕ) : Config where
  «namespace» := "ns"
  replicaId := "a"
  uploadBatchSize := 50
  downloadBatchSize := 2
  snapshotThreshold := snapshotThreshold
  maxAttempts := 5
  maxDocumentSize := 1000000
  keyVersion := 1
  schemaVersion _ := none
  uploadMovesCursor := true
  offline := false

end Sym

def Client.new {B : Type} : Client B where
  dedup := ⟨∅, []⟩
  fireSuppressed := false
  fired := []
  batches := []
  replayMode := false
  replayChangedDocs := []
  staleSkipCount := 0
  attempts _ := 0
  nextRetry _ := none
  online := none
  initialized := false
  hlcWall := 0

def World.new {B : Type} (log : InMemoryCoordinator B) : World B where
  client := .new
  lastSequence := 0
  storage := .new
  storeCursor := 0
  service := ⟨log, "", false, InMemoryCoordinator.maxSequence⟩
  reads _ _ := none

end VaultSync
