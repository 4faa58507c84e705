import VaultSync.Sync.Calls

/-! Weakest preconditions of the awaited calls, for a client that runs alone. -/

namespace VaultSync

open Async AsyncFn World

variable {B α β : Type} {n : ℕ} {A : Call B → Env B → World B → Prop}
  {Q : Except VaultSyncError β → World B → Prop} {w : World B}

lemma wp_ofExcept_bind (r : Except VaultSyncError α) (f : α → AsyncFn B β) :
    wp (machine n A) Q (Prog.ofExcept r >>= f) w ↔
      (∀ a, r = .ok a → wp (machine n A) Q (f a) w) ∧
        ∀ err, r = .error err → Q (.error err) w := by
  cases r with
  | ok a => exact ⟨fun h => ⟨by rintro _ ⟨⟩; exact h, nofun⟩, fun h => h.1 a rfl⟩
  | error err => exact ⟨fun h => ⟨nofun, by rintro _ ⟨⟩; exact h⟩, fun h => h.2 err rfl⟩

@[simp] lemma wp_pure_bind (a : α) (f : α → AsyncFn B β) :
    wp (machine n A) Q (pure a >>= f) w ↔ wp (machine n A) Q (f a) w := Iff.rfl

@[simp] lemma wp_read (g : Client B → α) (f : α → AsyncFn B β) :
    wp (machine n A) Q (AsyncFn.read g >>= f) w ↔
      wp (machine n A) Q (f (g w.client)) w := Iff.rfl

@[simp] lemma wp_modify (g : Client B → Client B) {Q : Except VaultSyncError Unit → World B → Prop} :
    wp (machine n A) Q (AsyncFn.modify g) w ↔
      Q (.ok ()) (w.setClient (g w.client)) := Iff.rfl

@[simp] lemma wp_modify_bind (g : Client B → Client B) (f : Unit → AsyncFn B β) :
    wp (machine n A) Q (AsyncFn.modify g >>= f) w ↔
      wp (machine n A) Q (f ()) (w.setClient (g w.client)) := Iff.rfl

@[simp] lemma wp_updateClient (g : Client B → α × Client B) (f : α → AsyncFn B β) :
    wp (machine n A) Q (AsyncFn.update g >>= f) w ↔
      wp (machine n A) Q (f (g w.client).1) (w.setClient (g w.client).2) := Iff.rfl

/-- The call ends with its fault, or `t` goes on from `w'`. -/
abbrev WpUnless (n : ℕ) (A : Call B → Env B → World B → Prop) (fault : Option VaultSyncError)
    (Q : Except VaultSyncError β → World B → Prop) (w : World B) (t : AsyncFn B β) (w' : World B) :
    Prop :=
  (∀ err, fault = some err → Q (.error err) w) ∧ (fault = none → wp (machine n A) Q t w')

lemma forall_up_iff {P : VaultSyncError → Prop} {R : Prop} :
    (∀ e : Env B, e.storageFault = none →
      (∀ err, e.storageFault = some err → P err) ∧ (e.storageFault = none → R)) ↔ R := by
  constructor
  · exact fun h => (h default rfl).2 rfl
  · intro h e hnone
    refine ⟨fun err herr => ?_, fun _ => h⟩
    rw [hnone] at herr
    cases herr

variable {e : Env B} {a : α}

lemma wp_onStorage {st : InMemoryStorage B} {f : α → AsyncFn B β} :
    wp (machine n A) Q (Prog.ofExcept (onStorage e w a st).1 >>= f) (onStorage e w a st).2 ↔
      WpUnless n A e.storageFault Q w (f a) (w.setStorage st) := by
  unfold onStorage
  cases he : e.storageFault with
  | none => exact ⟨fun h => ⟨nofun, fun _ => h⟩, fun h => h.2 rfl⟩
  | some err => exact ⟨fun h => ⟨by rintro _ ⟨⟩; exact h, nofun⟩, fun h => h.1 err rfl⟩

lemma wp_getDocument (k : Key) (f : Option B → AsyncFn B β) :
    wp (machine n A) Q (getDocument k >>= f) w ↔
      ∀ e, A (.getDocument k) e w →
        WpUnless n A e.storageFault Q w (f (w.storage.documents k)) (w.recordRead n k) := by
  refine forall₂_congr fun e _ => ?_
  simp only [machine, handle]
  cases he : e.storageFault with
  | none => exact ⟨fun h => ⟨nofun, fun _ => h⟩, fun h => h.2 rfl⟩
  | some err => exact ⟨fun h => ⟨by rintro _ ⟨⟩; exact h, nofun⟩, fun h => h.1 err rfl⟩

lemma wp_insertDocument (k : Key) (b : B) (f : Unit → AsyncFn B β) :
    wp (machine n A) Q (insertDocument k b >>= f) w ↔
      ∀ e, A (.insertDocument k b) e w →
        WpUnless n A e.storageFault Q w (f ()) (w.setStorage (w.storage.insertDocument k b)) :=
  forall₂_congr fun _ _ => wp_onStorage

lemma wp_writeBatchReconciliation (docs : List (Key × B)) (f : Unit → AsyncFn B β) :
    wp (machine n A) Q (writeBatchReconciliation docs >>= f) w ↔
      ∀ e, A (.writeBatchReconciliation docs) e w →
        WpUnless n A e.storageFault Q w (f ())
          (w.setStorage (w.storage.writeBatchReconciliation docs)) :=
  forall₂_congr fun _ _ => wp_onStorage

@[simp] lemma wp_newClientId (f : ClientId → AsyncFn B β) :
    wp (machine n A) Q (newClientId >>= f) w ↔
      ∀ e, A .newClientId e w → wp (machine n A) Q (f e.clientId) w := Iff.rfl

lemma wp_newUuid (f : String → AsyncFn B β) :
    wp (machine n A) Q (newUuid >>= f) w ↔
      ∀ e, A .newUuid e w → wp (machine n A) Q (f e.uuid) w := Iff.rfl

lemma wp_drawNonce (f : Nonce → AsyncFn B β) :
    wp (machine n A) Q (drawNonce >>= f) w ↔
      ∀ e, A .nonce e w → wp (machine n A) Q (f e.nonce) w := Iff.rfl

lemma wp_fieldOrder (fields : List (String × CrdtValue))
    (f : List (String × CrdtValue) → AsyncFn B β) :
    wp (machine n A) Q (fieldOrder fields >>= f) w ↔
      ∀ e, A (.fieldOrder fields) e w → wp (machine n A) Q (f (e.fieldOrder fields).1) w := Iff.rfl

lemma wp_writeDocumentAndOplog (k : Key) (b : B) (entry : OplogEntry B) (f : Unit → AsyncFn B β) :
    wp (machine n A) Q (writeDocumentAndOplog k b entry >>= f) w ↔
      ∀ e, A (.writeDocumentAndOplog k b entry) e w →
        WpUnless n A e.storageFault Q w (f ())
          (w.setStorage (w.storage.writeDocumentAndOplog k b entry)) :=
  forall₂_congr fun _ _ => wp_onStorage

lemma wp_hashOrder (keys : List Key) (f : List Key → AsyncFn B β) :
    wp (machine n A) Q (hashOrder keys >>= f) w ↔
      ∀ e, A (.hashOrder keys) e w → wp (machine n A) Q (f (e.keyOrder keys).1) w := Iff.rfl

lemma wp_readSyncState (ns : String) (f : Option SyncState → AsyncFn B β) :
    wp (machine n A) Q (readSyncState ns >>= f) w ↔
      ∀ e, A (.readSyncState ns) e w →
        WpUnless n A e.storageFault Q w (f (w.storage.syncStates ns)) w :=
  forall₂_congr fun _ _ => wp_onStorage

lemma wp_writeSyncState (st : SyncState) (f : Unit → AsyncFn B β) :
    wp (machine n A) Q (writeSyncState st >>= f) w ↔
      ∀ e, A (.writeSyncState st) e w →
        WpUnless n A e.storageFault Q w (f ()) (w.setStorage (w.storage.writeSyncState st)) :=
  forall₂_congr fun _ _ => wp_onStorage

section

variable (ns : String)

include ns

lemma wp_readPendingOplog (limit : ℕ) (f : List (OplogEntry B) → AsyncFn B β) :
    wp (machine n A) Q (readPendingOplog ns limit >>= f) w ↔
      ∀ e, A (.readPendingOplog ns limit) e w →
        WpUnless n A e.storageFault Q w (f (w.storage.readPendingOplog ns limit)) w :=
  forall₂_congr fun _ _ => wp_onStorage

lemma wp_listActiveDocuments (f : List Key → AsyncFn B β) :
    wp (machine n A) Q (listActiveDocuments ns >>= f) w ↔
      ∀ e, A (.listActiveDocuments ns) e w →
        WpUnless n A e.storageFault Q w (f (e.keyOrder (w.storage.listActiveDocuments ns)).1) w :=
  forall₂_congr fun _ _ => wp_onStorage

lemma wp_readSyncedOplogForDocument (k : Key) (f : List (OplogEntry B) → AsyncFn B β) :
    wp (machine n A) Q (readSyncedOplogForDocument ns k >>= f) w ↔
      ∀ e, A (.readSyncedOplogForDocument ns k) e w →
        WpUnless n A e.storageFault Q w (f (w.storage.readSyncedOplogForDocument ns k)) w :=
  forall₂_congr fun _ _ => wp_onStorage

lemma wp_deleteSyncedOplogBeforeTimestamp (k : Key) (t : ℕ) (f : ℕ → AsyncFn B β) :
    wp (machine n A) Q (deleteSyncedOplogBeforeTimestamp ns k t >>= f) w ↔
      ∀ e, A (.deleteSyncedOplogBeforeTimestamp ns k t) e w →
        WpUnless n A e.storageFault Q w
          (f (w.storage.oplog.length -
            (w.storage.deleteSyncedOplogBeforeTimestamp ns k t).oplog.length))
          (w.setStorage (w.storage.deleteSyncedOplogBeforeTimestamp ns k t)) :=
  forall₂_congr fun _ _ => wp_onStorage

lemma wp_deleteSyncedOplogOlderThan (secs : ℕ) (f : ℕ → AsyncFn B β) :
    wp (machine n A) Q (deleteSyncedOplogOlderThan ns secs >>= f) w ↔
      ∀ e, A (.deleteSyncedOplogOlderThan ns secs) e w →
        WpUnless n A e.storageFault Q w
          (f (w.storage.oplog.length -
            (w.storage.deleteSyncedOplogOlderThan ns secs (e.now / 1000)).oplog.length))
          (w.setStorage (w.storage.deleteSyncedOplogOlderThan ns secs (e.now / 1000))) :=
  forall₂_congr fun _ _ => wp_onStorage

lemma wp_listTombstonedDocuments (secs : ℕ) (f : List Key → AsyncFn B β) :
    wp (machine n A) Q (listTombstonedDocuments ns secs >>= f) w ↔
      ∀ e, A (.listTombstonedDocuments ns secs) e w →
        WpUnless n A e.storageFault Q w
          (f (e.keyOrder (w.storage.listTombstonedDocuments ns secs e.now)).1) w :=
  forall₂_congr fun _ _ => wp_onStorage

end

lemma wp_deleteDocument (k : Key) (f : Unit → AsyncFn B β) :
    wp (machine n A) Q (deleteDocument k >>= f) w ↔
      ∀ e, A (.deleteDocument k) e w →
        WpUnless n A e.storageFault Q w (f ()) (w.setStorage (w.storage.deleteDocument k)) :=
  forall₂_congr fun _ _ => wp_onStorage

/-- The call goes on with its fault, or with its answer `a`. -/
abbrev WpAnswer (n : ℕ) (A : Call B → Env B → World B → Prop) (fault : Option CoordinatorError)
    (Q : Except VaultSyncError β → World B → Prop) (w : World B) (a : α)
    (f : Except CoordinatorError α → AsyncFn B β) : Prop :=
  (∀ err, fault = some err → wp (machine n A) Q (f (.error err)) w) ∧
    (fault = none → wp (machine n A) Q (f (.ok a)) w)

lemma wp_onCoordinator {f : Except CoordinatorError α → AsyncFn B β} :
    wp (machine n A) Q (f (onCoordinator e w a w.service.log).1)
        (onCoordinator e w a w.service.log).2 ↔
      WpAnswer n A e.coordinatorFault Q w a f := by
  unfold onCoordinator
  cases he : e.coordinatorFault with
  | none => exact ⟨fun h => ⟨nofun, fun _ => h⟩, fun h => h.2 rfl⟩
  | some err =>
    have hw : (if e.happened then w.setLog w.service.log else w) = w := by
      split_ifs <;> rfl
    simp only [hw]
    exact ⟨fun h => ⟨by rintro _ ⟨⟩; exact h, nofun⟩, fun h => h.1 err rfl⟩

lemma wp_pull (ns : String) (after limit : ℕ)
    (f : Except CoordinatorError (List (PendingMutation B)) → AsyncFn B β) :
    wp (machine n A) Q (pull ns after limit >>= f) w ↔
      ∀ e, A (.pull ns after limit) e w →
        WpAnswer n A e.coordinatorFault Q w (w.service.log.pull ns after limit) f :=
  forall₂_congr fun _ _ => wp_onCoordinator

lemma wp_listSnapshots (ns : String)
    (f : Except CoordinatorError (List (Snapshot B)) → AsyncFn B β) :
    wp (machine n A) Q (listSnapshots ns >>= f) w ↔
      ∀ e, A (.listSnapshots ns) e w →
        WpAnswer n A e.coordinatorFault Q w (e.snapshotOrder (w.service.log.listSnapshots ns)).1 f :=
  forall₂_congr fun _ _ => wp_onCoordinator

lemma wp_register (ns : String) (seq : ℕ) (f : Except CoordinatorError Unit → AsyncFn B β) :
    wp (machine n A) Q (register ns seq >>= f) w ↔
      ∀ e, A (.register ns seq) e w →
        WpAnswer n A e.coordinatorFault Q w () f :=
  forall₂_congr fun _ _ => wp_onCoordinator

lemma wp_setCursor (seq : ℕ) (caller : String) (f : Unit → AsyncFn B β) :
    wp (machine n A) Q (setCursor seq caller >>= f) w ↔
      ∀ e, A (.setCursor seq caller) e w →
        WpUnless n A e.cursorFault Q w (f ()) (w.setStoreCursor seq) := by
  refine forall₂_congr fun e _ => ?_
  simp only [machine, handle, onCursor]
  cases he : e.cursorFault with
  | none => exact ⟨fun h => ⟨nofun, fun _ => h⟩, fun h => h.2 rfl⟩
  | some err => exact ⟨fun h => ⟨by rintro _ ⟨⟩; exact h, nofun⟩, fun h => h.1 err rfl⟩

lemma wp_generationId (f : String → AsyncFn B β) :
    wp (machine n A) Q (generationId >>= f) w ↔
      ∀ e, A .generationId e w → wp (machine n A) Q (f w.service.generationId) w := Iff.rfl

lemma wp_loadLastSequence (f : ℕ → AsyncFn B β) :
    wp (machine n A) Q (loadLastSequence >>= f) w ↔
      ∀ e, A .loadLastSequence e w → wp (machine n A) Q (f w.lastSequence) w := Iff.rfl

lemma wp_swapLastSequence (seq : ℕ) (f : ℕ → AsyncFn B β) :
    wp (machine n A) Q (swapLastSequence seq >>= f) w ↔
      ∀ e, A (.swapLastSequence seq) e w →
        wp (machine n A) Q (f w.lastSequence) (w.setLastSequence seq) := Iff.rfl

end VaultSync
