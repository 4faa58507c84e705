import VaultSync.Client.Replay
import VaultSync.Sync.Download

/-! `VaultSyncClient::initialize`: registration, the generation check and the pending entries. -/

namespace VaultSync

open Async AsyncFn

variable {B : Type}

namespace VaultSyncClient

def cursorValidation (cursor : ℕ) : AsyncFn B CursorValidation := do
  let serverMax ← maxSequence
  return validateCursor serverMax cursor

def keepCursor (state : SyncState) (serverGen : String) : AsyncFn B Unit :=
  writeSyncState { state with generationId := serverGen }

variable (cfg : Config)

def resetCursor (state : SyncState) (serverGen : String) : AsyncFn B Unit := do
  writeSyncState { state with generationId := serverGen, lastSyncedSequence := 0 }
  let _ ← swapLastSequence 0
  let _ ← disconnect
  let _ ← register cfg.namespace 0

/-- The generation changed. `history_preserved` is asked and not used. -/
def recover (state : SyncState) (serverGen : String) (cursor : ℕ) : AsyncFn B Unit := do
  let _historyOk ← historyPreserved
  let validation ← cursorValidation cursor
  modify (·.setReplayMode true)
  match validation with
  | .unknown | .valid => keepCursor state serverGen
  | .invalid => resetCursor cfg state serverGen

def checkGeneration : AsyncFn B Unit := do
  let cursorBefore ← loadLastSequence
  let serverGen ← generationId
  if serverGen = "" then
    return ()
  match ← readSyncState cfg.namespace with
  | none => return ()
  | some state =>
    if state.generationId = serverGen then
      return ()
    recover cfg state serverGen cursorBefore

def connect : AsyncFn B Unit := do
  let cursor ← loadLastSequence
  match ← register cfg.namespace cursor with
  | .error _ => return ()
  | .ok () => checkGeneration cfg

/-- The download worker that it starts at its end is not part of it. -/
def initializeClient (L : Lib B) (cfg : Config) : AsyncFn B Unit := do
  if ← AsyncFn.update fun c => (c.initialized, { c with initialized := true }) then
    return ()
  if cfg.offline then
    return ()
  connect cfg
  let subCursor ← loadLastSequence
  let _ ← subscribe cfg.namespace subCursor
  let _ ← (ViewMaterializer.materialize L cfg).attempt

end VaultSyncClient

end VaultSync
