import VaultSync.Crdt.Symbolic
import VaultSync.Ipc.CrashRecovery

/-! Client histories with crash recoveries in them: what a recovery does to the documents and to
the mutations that were synced before it. -/

namespace VaultSync

open CrashRecovery VaultSyncClient List

/-- A storage with the ring beside it. `written` has the keys of all documents ever written,
`synced` the ids of all mutations that were ever marked as synced. -/
structure Device (B : Type) where
  storage : InMemoryStorage B
  ring : List (RingEntry B)
  written : List Key
  synced : List String

/-- A local write: its arguments, what it draws, and the fields in the order of their map, with
`updatedAt` among them. -/
structure LocalWrite where
  id : String
  key : Key
  client : ClientId
  nonce : Nonce
  fields : List (String × CrdtValue)
  wall : ℕ
  /-- The time at which the entry is put in the ring. -/
  now : ℕ

structure Recovery (B : Type) where
  now : ℕ
  client : ClientId
  /-- What the ring gives, each entry with the nonce drawn for it. -/
  ring : List (RingEntry B × Nonce)

namespace Device

variable {B : Type}

def new : Device B := ⟨.new, [], [], []⟩

section

variable (b : Backend) (L : Lib B) (cfg : Config) (w : LocalWrite)

def newDocument : CRDTDocument :=
  CRDTDocument.new w.client w.key.docId w.key.recordId ((cfg.schemaVersion w.key.docId).getD 0)

/-- The document and its entry are written; only then the entry goes to the ring. -/
def store (type : MutationType) (origin : MutationOrigin) (doc : CRDTDocument) (update : B)
    (d : Device B) : Device B :=
  match encryptSymmetric L cfg.keyVersion w.nonce update cfg.namespace with
  | .error _ => d
  | .ok blob =>
    match b.writeDocumentAndOplog d.storage w.key (doc.toSnapshot L)
      (localEntry cfg w.id type origin w.key update blob w.wall doc.schemaVersion) with
    | none => d
    | some s =>
      { d with storage := s, ring := d.ring ++ [⟨w.id, update, w.now⟩], written := w.key :: d.written }

def writeFields (type : MutationType) (origin : MutationOrigin) (doc : CRDTDocument)
    (d : Device B) : Device B :=
  let doc := doc.setFields L w.fields
  let update := L.encodeV1 doc.state
  if cfg.maxDocumentSize < L.len update then d else d.store b L cfg w type origin doc update

def insert (d : Device B) : Device B :=
  d.writeFields b L cfg w .crdtInsert .insert (newDocument cfg w)

def updateDocument (doc : CRDTDocument) (d : Device B) : Device B :=
  match validateVersion cfg w.key.docId doc.schemaVersion with
  | .error _ => d
  | .ok _ =>
    if contentChanged L doc (filterMetaFields w.fields) then
      d.writeFields b L cfg w .crdtUpdate .update doc
    else d

def update (d : Device B) : Device B :=
  match d.storage.documents w.key with
  | none => d.updateDocument b L cfg w (newDocument cfg w)
  | some bytes =>
    match CRDTDocument.fromSnapshot L w.client bytes with
    | .error _ => d
    | .ok doc => d.updateDocument b L cfg w doc

def delete (d : Device B) : Device B :=
  match d.storage.documents w.key with
  | none => d
  | some bytes =>
    match CRDTDocument.fromSnapshot L w.client bytes with
    | .error _ => d
    | .ok doc =>
      match validateVersion cfg w.key.docId doc.schemaVersion with
      | .error _ => d
      | .ok _ =>
        d.store b L cfg w .crdtDelete .delete (doc.setField L "_deleted" (.boolean true))
          (doc.setFieldDelta L "_deleted" (.boolean true))

def recover (r : Recovery B) (d : Device B) : Device B :=
  { d with storage := (CrashRecovery.recover b L cfg r.client r.now r.ring d.storage).1 }

inductive Event (B : Type) where
  | insert (w : LocalWrite)
  | update (w : LocalWrite)
  | delete (w : LocalWrite)
  /-- A remote update was merged into the document: `bytes` is what is stored then. -/
  | merge (k : Key) (bytes : B)
  | deleteDocument (k : Key)
  | markSynced (id : String) (sequence now : ℕ)
  | markFailed (id : String)
  | deleteSyncedBefore (cutoffMs : ℕ)
  | deleteSyncedOlderThan (olderThanSecs nowSecs : ℕ)
  | deleteSyncedBeforeTimestamp (k : Key) (timestamp : ℕ)
  | recover (r : Recovery B)

variable (d : Device B)

def step : Event B → Device B
  | .insert w => d.insert b L cfg w
  | .update w => d.update b L cfg w
  | .delete w => d.delete b L cfg w
  | .merge k bytes =>
    { d with storage := d.storage.insertDocument k bytes, written := k :: d.written }
  | .deleteDocument k => { d with storage := d.storage.deleteDocument k }
  | .markSynced id sequence now =>
    { d with storage := d.storage.markSynced id sequence now, synced := id :: d.synced }
  | .markFailed id => { d with storage := d.storage.markFailed id }
  | .deleteSyncedBefore cutoffMs =>
    { d with storage := d.storage.deleteSyncedBefore cfg.namespace cutoffMs }
  | .deleteSyncedOlderThan secs nowSecs =>
    { d with storage := d.storage.deleteSyncedOplogOlderThan cfg.namespace secs nowSecs }
  | .deleteSyncedBeforeTimestamp k timestamp =>
    { d with storage := d.storage.deleteSyncedOplogBeforeTimestamp cfg.namespace k timestamp }
  | .recover r => d.recover b L cfg r

def run (es : List (Event B)) : Device B := es.foldl (step b L cfg) d

/-- What a recovery finds: no entry that it resets had been synced and failed after that, and of
the ring entries it writes none is a synced mutation or of an unknown document, and the last one
of each document has all of the stored state. -/
def RecoverOk (r : Recovery B) : Prop :=
  let rows := rows b L cfg r.client r.ring (d.storage.oplog.map OplogEntry.id)
  (∀ e ∈ d.storage.oplog, InMemoryStorage.Stale cfg.namespace 60000 r.now e →
    e.id ∈ d.synced → e.syncStatus ≠ .failed) ∧
  (∀ row ∈ rows, row.id ∉ d.synced ∧ row.key ∈ d.written) ∧
  LastRowsCover L d.storage.documents rows

def EventOk : Event B → Prop
  | .recover r => d.RecoverOk b L cfg r
  | _ => True

def AllOk (d : Device B) : List (Event B) → Prop
  | [] => True
  | e :: es => d.EventOk b L cfg e ∧ (d.step b L cfg e).AllOk es

instance (r : Recovery B) : Decidable (d.RecoverOk b L cfg r) :=
  inferInstanceAs (Decidable (_ ∧ _ ∧ _))

instance : (e : Event B) → Decidable (d.EventOk b L cfg e)
  | .recover r => inferInstanceAs (Decidable (d.RecoverOk b L cfg r))
  | .insert _ | .update _ | .delete _ | .merge _ _ | .deleteDocument _ | .markSynced _ _ _
  | .markFailed _ | .deleteSyncedBefore _ | .deleteSyncedOlderThan _ _
  | .deleteSyncedBeforeTimestamp _ _ => inferInstanceAs (Decidable True)

instance : (d : Device B) → (es : List (Event B)) → Decidable (d.AllOk b L cfg es)
  | _, [] => inferInstanceAs (Decidable True)
  | d, e :: es =>
    have := instDecidableAllOk (d.step b L cfg e) es
    inferInstanceAs (Decidable (_ ∧ _))

end

def Uploadable (d : Device B) (id : String) : Prop :=
  ∃ e ∈ d.storage.oplog, e.id = id ∧ e.syncStatus.isUploadable

instance (d : Device B) (id : String) : Decidable (d.Uploadable id) :=
  inferInstanceAs (Decidable (∃ e ∈ d.storage.oplog, _))

/-- No document lost any of its state, none is there that was never written, and no synced
mutation is uploadable that was not. -/
structure Preserved (L : Lib B) (d d' : Device B) : Prop where
  grows : ∀ k, storedState L (d.storage.documents k) ≤ storedState L (d'.storage.documents k)
  known : ∀ k, d'.storage.documents k ≠ none → k ∈ d.written
  synced : ∀ id ∈ d.synced, d'.Uploadable id → d.Uploadable id

variable {b : Backend} {L : Lib B} {cfg : Config} {d d' : Device B} {es : List (Event B)}

def Known (d : Device B) : Prop := ∀ k, d.storage.documents k ≠ none → k ∈ d.written

lemma Known.write (h : d.Known) {s : InMemoryStorage B} {k : Key} {bytes : B}
    (hs : s.documents = Function.update d.storage.documents k (some bytes))
    (ring : List (RingEntry B)) :
    Known { d with storage := s, ring, written := k :: d.written } := by
  intro k' hk'
  by_cases heq : k' = k
  · exact heq ▸ mem_cons_self
  · change s.documents k' ≠ none at hk'
    rw [hs, Function.update_of_ne heq] at hk'
    exact mem_cons_of_mem _ (h k' hk')

section

variable {w : LocalWrite} {type : MutationType} {origin : MutationOrigin} {doc : CRDTDocument}

def Wrote (L : Lib B) (cfg : Config) (w : LocalWrite) (d d' : Device B) : Prop :=
  d' = d ∨ ∃ (type : MutationType) (origin : MutationOrigin) (doc : CRDTDocument) (u : CrdtState)
    (blob : B), encryptSymmetric L cfg.keyVersion w.nonce (L.encodeV1 u) cfg.namespace = .ok blob ∧
    d' = { d with
      storage := d.storage.writeDocumentAndOplog w.key (doc.toSnapshot L)
        (localEntry cfg w.id type origin w.key (L.encodeV1 u) blob w.wall doc.schemaVersion)
      ring := d.ring ++ [⟨w.id, L.encodeV1 u, w.now⟩]
      written := w.key :: d.written }

lemma wrote_store (u : CrdtState) :
    Wrote L cfg w d (d.store b L cfg w type origin doc (L.encodeV1 u)) := by
  unfold Device.store
  split
  · exact .inl rfl
  · rename_i blob hblob
    rw [Backend.writeDocumentAndOplog]
    split_ifs
    · exact .inl rfl
    · exact .inr ⟨type, origin, doc, u, blob, hblob, rfl⟩

lemma wrote_writeFields : Wrote L cfg w d (d.writeFields b L cfg w type origin doc) := by
  unfold Device.writeFields
  dsimp only
  split_ifs
  · exact .inl rfl
  · exact wrote_store _

lemma wrote_updateDocument : Wrote L cfg w d (d.updateDocument b L cfg w doc) := by
  unfold Device.updateDocument
  split
  · exact .inl rfl
  · split_ifs
    · exact wrote_writeFields
    · exact .inl rfl

lemma wrote_update : Wrote L cfg w d (d.update b L cfg w) := by
  unfold Device.update
  split
  · exact wrote_updateDocument
  · split
    · exact .inl rfl
    · exact wrote_updateDocument

lemma wrote_delete : Wrote L cfg w d (d.delete b L cfg w) := by
  unfold Device.delete
  split
  · exact .inl rfl
  · split
    · exact .inl rfl
    · split
      · exact .inl rfl
      · exact wrote_store _

lemma Known.wrote (h : d.Known) (hw : Wrote L cfg w d d') : d'.Known := by
  rcases hw with rfl | ⟨_, _, _, _, _, _, rfl⟩
  · exact h
  · exact h.write rfl _

end

lemma recover_storage (r : Recovery B) : (d.recover b L cfg r).storage =
    writeRows (d.storage.resetStalePending cfg.namespace 60000 r.now).1
      (rows b L cfg r.client r.ring (d.storage.oplog.map OplogEntry.id)) := by
  have hids : (d.storage.resetStalePending cfg.namespace 60000 r.now).1.oplog.map OplogEntry.id =
      d.storage.oplog.map OplogEntry.id := by
    refine map_map.trans (map_congr_left fun e _ => ?_)
    dsimp only [Function.comp_apply]
    split_ifs <;> rfl
  rw [← hids]
  exact replay_eq _

variable {r : Recovery B}

lemma Known.recover (h : d.Known) (hr : d.RecoverOk b L cfg r) : (d.recover b L cfg r).Known := by
  intro k hk
  rw [recover_storage] at hk
  by_cases hmem : k ∈ (rows b L cfg r.client r.ring (d.storage.oplog.map OplogEntry.id)).map
      OplogEntry.key
  · obtain ⟨row, hrow, rfl⟩ := mem_map.1 hmem
    exact (hr.2.1 row hrow).2
  · rw [writeRows_of_notMem hmem] at hk
    exact h k hk

lemma Known.step (h : d.Known) {e : Event B} (he : d.EventOk b L cfg e) :
    (d.step b L cfg e).Known := by
  cases e with
  | insert w => exact h.wrote wrote_writeFields
  | update w => exact h.wrote wrote_update
  | delete w => exact h.wrote wrote_delete
  | merge k bytes => exact h.write rfl _
  | deleteDocument k =>
    intro k' hk'
    refine h k' fun hnone => hk' ?_
    change Function.update d.storage.documents k none k' = none
    rw [Function.update_apply, hnone, ite_self]
  | markSynced id sequence now => exact h
  | markFailed id => exact h
  | deleteSyncedBefore cutoffMs => exact h
  | deleteSyncedOlderThan secs nowSecs => exact h
  | deleteSyncedBeforeTimestamp k timestamp => exact h
  | recover r => exact h.recover he

lemma Known.run (h : d.Known) (hok : d.AllOk b L cfg es) : (d.run b L cfg es).Known := by
  induction es generalizing d with
  | nil => exact h
  | cons e es ih => exact ih (h.step hok.1) hok.2

lemma recover_uploadable (hr : d.RecoverOk b L cfg r) {id : String}
    (hid : id ∈ d.synced) (h : (d.recover b L cfg r).Uploadable id) : d.Uploadable id := by
  obtain ⟨e, he, rfl, hup⟩ := h
  rw [recover_storage, writeRows_oplog, mem_append] at he
  rcases he with he | he
  · obtain ⟨e0, he0, rfl⟩ := mem_map.1 he
    refine ⟨e0, he0, ?_⟩
    split_ifs at hid hup ⊢ with hstale
    · refine ⟨rfl, ?_⟩
      have hfailed := hr.1 e0 he0 hstale hid
      have hsynced := hstale.2.1
      cases hst : e0.syncStatus with
      | pending => rfl
      | optimistic => rfl
      | synced => exact absurd hst hsynced
      | failed => exact absurd hst hfailed
    · exact ⟨rfl, hup⟩
  · exact absurd hid (hr.2.1 e he).1

lemma Preserved.recover (h : d.Known) (hr : d.RecoverOk b L cfg r) :
    Preserved L d (d.recover b L cfg r) where
  grows k := by
    rw [recover_storage]
    exact le_writeRows (s := (d.storage.resetStalePending cfg.namespace 60000 r.now).1) hr.2.2 k
  known := h.recover hr
  synced _ hid := recover_uploadable hr hid

lemma Preserved.trans {d'' : Device B} (h : Preserved L d d') (h' : Preserved L d' d'')
    (hwritten : d'.written = d.written) (hsynced : d'.synced = d.synced) : Preserved L d d'' where
  grows k := (h.grows k).trans (h'.grows k)
  known k hk := hwritten ▸ h'.known k hk
  synced id hid hup := h.synced id hid (h'.synced id (hsynced ▸ hid) hup)

lemma AllOk.append {es' : List (Event B)} :
    d.AllOk b L cfg (es ++ es') ↔ d.AllOk b L cfg es ∧ (d.run b L cfg es).AllOk b L cfg es' := by
  induction es generalizing d with
  | nil => exact ⟨fun h => ⟨trivial, h⟩, And.right⟩
  | cons e es ih => exact (and_congr_right fun _ => ih).trans (and_assoc).symm

lemma Preserved.recovers (h : d.Known) {rs : List (Recovery B)}
    (hok : d.AllOk b L cfg (rs.map .recover)) :
    Preserved L d (d.run b L cfg (rs.map .recover)) := by
  induction rs generalizing d with
  | nil => exact ⟨fun _ => le_rfl, h, fun _ _ => id⟩
  | cons r rs ih =>
    exact (Preserved.recover h hok.1).trans (ih (h.recover hok.1) hok.2) rfl rfl

/-- **Crash recovery preserves the state.** After every client history over either storage, any
number of recoveries, each of which meets its condition in the state before it, keeps the state
of every stored document, adds no document that was not written before, and makes no synced
mutation uploadable again. -/
theorem recovers_preserve (b : Backend) (L : Lib B) (cfg : Config) (history : List (Event B))
    (rs : List (Recovery B)) (hok : new.AllOk b L cfg (history ++ rs.map .recover)) :
    Preserved L (new.run b L cfg history) (new.run b L cfg (history ++ rs.map .recover)) := by
  have hnew : (new : Device B).Known := fun _ h => absurd rfl h
  obtain ⟨hhistory, hrs⟩ := AllOk.append.1 hok
  have hrun : new.run b L cfg (history ++ rs.map .recover) =
      (new.run b L cfg history).run b L cfg (rs.map .recover) := foldl_append
  rw [hrun]
  exact Preserved.recovers (hnew.run hhistory) hrs

/-! ### Runs on record `x` -/

def deltaLib : Lib Sym where
  __ := Sym.lib
  field u name := if 3 ≤ u.stateVector.card then Sym.lib.field u name else none

def localWrite (id : String) (client : ClientId) : LocalWrite :=
  ⟨id, ⟨"d", "x"⟩, client, 0, [("updatedAt", .number 0)], 0, 0⟩

def recovery (d : Device Sym) : Recovery Sym := ⟨0, 9, d.ring.map fun e => (e, 0)⟩

def inserted (b : Backend) : Device Sym :=
  new.run b deltaLib (Sym.config 0) [.insert (localWrite "m1" 1)]

theorem recovers_preserve_twice :
    Preserved deltaLib (inserted .memory)
      (new.run .memory deltaLib (Sym.config 0) ([.insert (localWrite "m1" 1)] ++
        [recovery (inserted .memory), recovery (inserted .memory)].map .recover)) :=
  recovers_preserve .memory deltaLib (Sym.config 0) [.insert (localWrite "m1" 1)] _ (by decide)

def pruned (b : Backend) : Device Sym :=
  new.run b deltaLib (Sym.config 0) [.insert (localWrite "m1" 1), .delete (localWrite "m2" 2),
    .markSynced "m1" 1 0, .markSynced "m2" 2 0, .deleteSyncedBefore 1]

/-- Both storages: the record loses its tombstone, a document without ids is stored, and both
mutations are pending again. -/
theorem recover_pruned : [Backend.memory, Backend.sqlite].Forall fun b =>
    let d := pruned b
    let d' := d.recover b deltaLib (Sym.config 0) (recovery d)
    ¬ storedState deltaLib (d.storage.documents ⟨"d", "x"⟩) ≤
      storedState deltaLib (d'.storage.documents ⟨"d", "x"⟩) ∧
    (⟨"", ""⟩ ∉ d.written ∧ d'.storage.documents ⟨"", ""⟩ ≠ none) ∧
    ∀ id ∈ ["m1", "m2"], id ∈ d.synced ∧ ¬ d.Uploadable id ∧ d'.Uploadable id := by
  decide

end Device

end VaultSync
