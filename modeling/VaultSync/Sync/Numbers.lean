import VaultSync.Client.Write
import VaultSync.Sync.Merges

/-! Calls that leave the coordinator alone and number no entry. Only uploads make others. -/

namespace VaultSync

open Async AsyncFn World List Prog.Only Prog Call.Merges

variable {B : Type} {L : Lib B} {cfg : Config} {n : ℕ} {A : Call B → Env B → World B → Prop}
  {w w' w'' : World B}

def Call.Quiet : Call B → Prop
  | .push _ _ | .storeSnapshot _ _ | .markSynced _ _ => False
  | .writeDocumentAndOplog _ _ e => e.sequence = none
  | _ => True

structure SameNumbers (w w' : World B) : Prop where
  service : w'.service = w.service
  sequences : ∀ e ∈ w'.storage.oplog, ∀ q, e.sequence = some q →
    ∃ e₀ ∈ w.storage.oplog, e₀.sequence = some q

lemma SameNumbers.refl (w : World B) : SameNumbers w w := ⟨rfl, fun e he _ hq => ⟨e, he, hq⟩⟩

lemma SameNumbers.trans (h : SameNumbers w w') (h' : SameNumbers w' w'') : SameNumbers w w'' := by
  refine ⟨h'.service.trans h.service, fun e he q hq => ?_⟩
  obtain ⟨e1, he1, hq1⟩ := h'.sequences e he q hq
  exact h.sequences e1 he1 q hq1

lemma SameNumbers.of_oplog (hservice : w'.service = w.service)
    (hoplog : w'.storage.oplog = w.storage.oplog) : SameNumbers w w' :=
  ⟨hservice, fun e he _ hq => ⟨e, hoplog ▸ he, hq⟩⟩

variable {α : Type} {e : Env B}

lemma sameNumbers_onStorage {a : α} {st : InMemoryStorage B}
    (h : ∀ x ∈ st.oplog, ∀ q, x.sequence = some q → ∃ y ∈ w.storage.oplog, y.sequence = some q) :
    SameNumbers w (onStorage e w a st).2 := by
  unfold onStorage
  split
  · exact .refl w
  · exact ⟨rfl, h⟩

lemma sameNumbers_onCoordinator {a : α} : SameNumbers w (onCoordinator e w a w.service.log).2 := by
  unfold onCoordinator
  split
  · split_ifs <;> exact .refl w
  · exact .refl w

lemma sameNumbers_onCursor {a : α} {seq : ℕ} : SameNumbers w (onCursor e w a seq).2 := by
  unfold onCursor
  split <;> exact .of_oplog rfl rfl

lemma sameNumbers_handle {op : Call B} (h : op.Quiet) (e : Env B) (w : World B) :
    SameNumbers w (handle n op e w).2 := by
  have hsame := (SameNumbers.refl w).sequences
  cases op with
  | push ns ms | storeSnapshot ns s | markSynced id seq => exact h.elim
  | getDocument k =>
    simp only [handle]
    cases e.storageFault <;> exact .of_oplog rfl rfl
  | writeDocumentAndOplog k b entry =>
    refine sameNumbers_onStorage fun x hx q hq => ?_
    rcases mem_append.1 hx with hold | hnew
    · exact ⟨x, hold, hq⟩
    · rw [mem_singleton.1 hnew, h] at hq
      cases hq
  | writeBatchReconciliation docs =>
    refine sameNumbers_onStorage ?_
    rw [InMemoryStorage.writeBatchReconciliation_oplog]
    exact hsame
  | markFailed id msg =>
    refine sameNumbers_onStorage fun x hx q hq => ?_
    obtain ⟨y, hy, rfl⟩ := mem_map.1 hx
    refine ⟨y, hy, ?_⟩
    split_ifs at hq <;> exact hq
  | deleteSyncedOplogBeforeTimestamp ns k t | deleteSyncedOplogOlderThan ns secs =>
    exact sameNumbers_onStorage fun x hx q hq => ⟨x, mem_of_mem_filter hx, hq⟩
  | listTombstonedDocuments _ _ | deleteDocument _
  | insertDocument _ _ | readPendingOplog _ _ | readSyncState _ | writeSyncState _
  | listActiveDocuments _ | readSyncedOplogForDocument _ _ => exact sameNumbers_onStorage hsame
  | pull _ _ _ | listSnapshots _ | register _ _ | subscribe _ _ | disconnect =>
    exact sameNumbers_onCoordinator
  | storeCursor | setCursor _ _ => exact sameNumbers_onCursor
  | _ => exact .of_oplog rfl rfl

lemma wp_sameNumbers {t : AsyncFn B α} (ht : t.Only Call.Quiet) (w : World B) :
    wp (machine n A) (fun _ w' => SameNumbers w w') t w := by
  refine ht.wp (.refl w) (fun op e s hop hs => hs.trans (sameNumbers_handle hop e s)) ?_
  exact fun c s hs => hs.trans (.of_oplog rfl rfl)

/-! ## Local writes -/

namespace VaultSyncClient

variable (k : Key)

lemma quiet_loadForUpdate (existing : Option B) :
    (loadForUpdate L cfg k existing).Only Call.Quiet := by
  cases existing with
  | none => exact ⟨trivial, fun _ => trivial⟩
  | some bytes => exact ⟨trivial, fun _ => only_ofExcept _⟩

lemma quiet_encrypt (bytes : B) : (encrypt L cfg bytes).Only Call.Quiet :=
  ⟨trivial, fun _ => only_ofExcept _⟩

lemma quiet_storeLocal (doc : CRDTDocument) {entry : OplogEntry B}
    (h : entry.sequence = none) : (storeLocal L k doc entry).Only Call.Quiet := by
  refine bind ?_ fun _ _ => trivial
  exact ⟨h, fun _ => only_ofExcept _⟩

lemma quiet_clockNow : (clockNow : AsyncFn B ℕ).Only Call.Quiet := ⟨trivial, fun _ _ => trivial⟩

lemma quiet_writeFields (id : String) (type : MutationType) (origin : MutationOrigin) (k : Key)
    (doc : CRDTDocument) (fields : List (String × CrdtValue)) (wall : ℕ) :
    (writeFields L cfg id type origin k doc fields wall).Only Call.Quiet := by
  refine ⟨trivial, fun fields => ite trivial ?_⟩
  exact (quiet_encrypt _).bind fun blob => quiet_storeLocal _ _ rfl

variable (fields : List (String × CrdtValue))

lemma quiet_insert : (insert L cfg k fields).Only Call.Quiet :=
  ⟨trivial, fun _ => ⟨trivial, fun _ => quiet_clockNow.bind fun _ => quiet_writeFields ..⟩⟩

lemma quiet_update : (update L cfg k fields).Only Call.Quiet := by
  refine ⟨trivial, fun r => (only_ofExcept r).bind fun existing => ?_⟩
  refine (quiet_loadForUpdate k existing).bind fun doc => (only_ofExcept _).bind fun _ => ite ?_ trivial
  exact ⟨trivial, fun _ => quiet_clockNow.bind fun _ => quiet_writeFields ..⟩

lemma quiet_deleteDocument (doc : CRDTDocument) : (deleteDocument L cfg k doc).Only Call.Quiet := by
  refine (only_ofExcept _).bind fun _ => ⟨trivial, fun id => (quiet_encrypt _).bind fun _ => ?_⟩
  exact quiet_clockNow.bind fun _ => quiet_storeLocal _ _ rfl

lemma quiet_delete : (delete L cfg k).Only Call.Quiet := by
  refine ⟨trivial, fun r => (only_ofExcept r).bind fun existing => ?_⟩
  cases existing with
  | none => trivial
  | some bytes => exact (quiet_loadForUpdate k _).bind fun doc => quiet_deleteDocument k doc

end VaultSyncClient

/-! ## Deliveries -/

lemma Call.Merges.quiet (op : Call B) (h : op.Merges) : op.Quiet := by
  cases op <;> trivial

namespace DownloadQueue

lemma quiet_moveCursor (seq : ℕ) (caller : String) {f : ℕ → AsyncFn B α}
    (hf : ∀ old, (f old).Only Call.Quiet) :
    (do AsyncFn.setCursor seq caller; f (← swapLastSequence seq)).Only Call.Quiet :=
  ⟨trivial, fun r => (only_ofExcept r).bind fun _ => ⟨trivial, hf⟩⟩

lemma quiet_checkGeneration : (checkGeneration cfg : AsyncFn B Unit).Only Call.Quiet := by
  refine ⟨trivial, fun _ => ite trivial ⟨trivial, fun r => ?_⟩⟩
  exact (only_ofExcept r).bind fun _ => trivial

lemma quiet_advanceCursor (ms : List (PendingMutation B)) : (advanceCursor ms).Only Call.Quiet := by
  unfold advanceCursor
  split
  · exact quiet_moveCursor _ _ fun _ => trivial
  · trivial

section

variable [DecidableEq B]

lemma quiet_tryFetchSnapshot : (tryFetchSnapshot L cfg).Only Call.Quiet := by
  refine ⟨trivial, fun _ => ite trivial ⟨trivial, fun listed => ?_⟩⟩
  cases listed with
  | error err => trivial
  | ok snapshots =>
    refine ite trivial ⟨trivial, fun keys => ((merges_applySnapshots _).mono quiet).bind fun _ => ?_⟩
    exact quiet_moveCursor _ _ fun _ => trivial

lemma quiet_processBatch : (processBatch L cfg).Only Call.Quiet := by
  refine quiet_checkGeneration.bind fun _ => ⟨trivial, fun after => ?_⟩
  have hsnapshots : (snapshotCatchUp L cfg).Only Call.Quiet :=
    ite (quiet_tryFetchSnapshot.attempt.bind fun _ => trivial) trivial
  refine hsnapshots.bind fun _ => ⟨trivial, fun pulled => ?_⟩
  cases pulled with
  | error err => cases err <;> trivial
  | ok mutations =>
    refine (only_ofExcept _).bind fun entries => ?_
    have hmerge := (merges_mergePulled (L := L) entries).mono quiet
    have hend := (merges_endReplay (L := L)).mono quiet
    exact hmerge.bind fun _ => hend.bind fun _ =>
      (quiet_advanceCursor mutations).bind fun _ => trivial

lemma quiet_processPushMutation (m : PendingMutation B) :
    (processPushMutation L cfg m).Only Call.Quiet := by
  refine ite ⟨trivial, fun _ => ite ?_ trivial⟩ ?_
  · exact quiet_moveCursor _ _ fun _ => trivial
  · refine (only_ofExcept _).bind fun _ => ⟨trivial, fun _ => ite (fun _ => trivial) ?_⟩
    exact ((merges_applyRemoteUpdate _).mono quiet).bind fun _ _ =>
      quiet_moveCursor _ _ fun _ _ => trivial

end

end DownloadQueue

end VaultSync
