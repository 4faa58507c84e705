import VaultSync.Sync.Calls

/-! The reconciler: how remote updates reach the stored documents. -/

namespace VaultSync

open Async AsyncFn

variable {B : Type} [DecidableEq B] (L : Lib B)

def loadOrNew (k : Key) (existing : Option B) : AsyncFn B CRDTDocument := do
  let client ← newClientId
  match existing with
  | some bytes => Prog.ofExcept (CRDTDocument.fromSnapshot L client bytes)
  | none => pure (CRDTDocument.new client k.docId k.recordId 0)

def markDedup (id : String) : AsyncFn B Unit := modify fun c => { c with dedup := c.dedup.mark id }

def fire (source : FireSource) (k : Key) (state : CrdtState) : AsyncFn B Unit :=
  modify fun c => { c with fired := c.fired ++ [(source, k, state)] }

/-- Whether the document already has every clock of the update; undecodable bytes are not
redundant, so that applying them reports the error. -/
def redundant (oldSv : StateVector) (update : B) : Bool :=
  match L.decodeV1 update with
  | .ok u => CrdtState.covers oldSv u
  | .error _ => false

def storeMerged (entry : OplogEntry B) (existing : Option B) (doc : CRDTDocument) :
    AsyncFn B Unit := do
  let snapshot := doc.toSnapshot L
  insertDocument entry.key snapshot
  markDedup entry.id
  if existing ≠ some snapshot then
    if ← read (·.fireSuppressed) then
      return ()
    fire .reconcilerPush entry.key doc.state

def applyRemoteUpdate (entry : OplogEntry B) : AsyncFn B Unit := do
  if entry.id ∈ (← read (·.dedup.seen)) then
    return ()
  let existing ← getDocument entry.key
  let doc ← loadOrNew L entry.key existing
  if redundant L doc.state.stateVector entry.yrsUpdate then
    storeMerged L entry existing doc
  else
    let doc ← Prog.ofExcept (doc.applyUpdate L entry.yrsUpdate)
    storeMerged L entry existing doc

/-! ## Batches -/

def addToGroup (groups : List (Key × List (OplogEntry B))) (e : OplogEntry B) :
    List (Key × List (OplogEntry B)) :=
  if e.key ∈ groups.map Prod.fst then
    groups.map fun g => if g.1 = e.key then (g.1, g.2 ++ [e]) else g
  else groups ++ [(e.key, [e])]

def uniqueDocs (seen : Finset String) (entries : List (OplogEntry B)) :
    List (Key × List (OplogEntry B)) :=
  entries.foldl (fun groups e => if e.id ∈ seen then groups else addToGroup groups e) []

def uncommittedIds (seen : Finset String) (entries : List (OplogEntry B)) : List String :=
  (entries.filter fun e => e.id ∉ seen).map OplogEntry.id

def applyUpdates (L : Lib B) (doc : CRDTDocument) :
    List (OplogEntry B) → Except VaultSyncError CRDTDocument
  | [] => .ok doc
  | e :: es => do
    let doc ← doc.applyUpdate L e.yrsUpdate
    applyUpdates L doc es

def mergeDocs (L : Lib B) (groups : List (Key × List (OplogEntry B))) :
    List Key → AsyncFn B (List (Key × B) × List (Key × CrdtState))
  | [] => pure ([], [])
  | k :: ks => do
    let existing ← getDocument k
    let doc ← loadOrNew L k existing
    let doc ← Prog.ofExcept (applyUpdates L doc ((groups.lookup k).getD []))
    let snapshot := doc.toSnapshot L
    let (updated, states) ← mergeDocs L groups ks
    return ((k, snapshot) :: updated,
      if existing = some snapshot then states else (k, doc.state) :: states)

def Client.logBatch (c : Client B) (entries : List (OplogEntry B)) : Client B :=
  { c with batches := c.batches ++ [entries] }

def Client.commitBatch (c : Client B) (ids : List String) (states : List (Key × CrdtState)) :
    Client B :=
  { c with
    dedup := ids.foldl DedupCache.mark c.dedup
    fired := if c.fireSuppressed then c.fired
      else c.fired ++ states.map fun s => (.reconcilerPull, s.1, s.2) }

def applyBatch (entries : List (OplogEntry B)) : AsyncFn B Unit := do
  modify (·.logBatch entries)
  if entries.isEmpty then
    return ()
  let seen ← read (·.dedup.seen)
  let groups := uniqueDocs seen entries
  if groups.isEmpty then
    return ()
  let keys ← hashOrder (groups.map Prod.fst)
  let (updated, states) ← mergeDocs L groups keys
  writeBatchReconciliation updated
  modify (·.commitBatch (uncommittedIds seen entries) states)

omit [DecidableEq B] in
@[simp] lemma Client.logBatch_dedup (c : Client B) (entries : List (OplogEntry B)) :
    (c.logBatch entries).dedup = c.dedup := rfl

def fireDoc (k : Key) : AsyncFn B Unit := do
  match ← getDocument k with
  | none => return ()
  | some bytes =>
    let client ← newClientId
    let doc ← Prog.ofExcept (CRDTDocument.fromSnapshot L client bytes)
    fire .reconcilerPull k doc.state

end VaultSync
