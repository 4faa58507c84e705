import VaultSync.Sync.Uploading

/-! What an upload batch does when it runs alone: the coordinator gains mutations of the oplog,
and the oplog only changes the marks of its entries. -/

namespace VaultSync

open Async AsyncFn World List InMemoryCoordinator

variable {B : Type}

def OplogEntry.written (e : OplogEntry B) : OplogEntry B :=
  { e with sequence := none, syncStatus := .optimistic, syncedAt := none }

namespace UploadQueue

variable {L : Lib B} {cfg : Config} {n : ℕ} {A : Call B → Env B → World B → Prop}
  {w w₀ : World B}

structure Uploaded (L : Lib B) (cfg : Config) (w₀ w : World B) : Prop where
  documents : w.storage.documents = w₀.storage.documents
  oplog : w.storage.oplog.map OplogEntry.written = w₀.storage.oplog.map OplogEntry.written
  lastSequence : w.lastSequence = w₀.lastSequence
  dedup : w.client.dedup = w₀.client.dedup
  log : w₀.service.log.Extends w.service.log
  pushed : ∀ m ∈ w.service.log.ops, m ∈ w₀.service.log.ops ∨
    ∃ e ∈ w₀.storage.oplog, e.namespace = cfg.namespace ∧
      ∃ seq, m = InMemoryCoordinator.pending cfg.namespace seq (toMutation L e)
  ids : ((w₀.service.log.mutations cfg.namespace).map PendingMutation.id).Nodup →
    ((w.service.log.mutations cfg.namespace).map PendingMutation.id).Nodup
  sequences : ∀ e ∈ w.storage.oplog, ∀ q, e.sequence = some q →
    (∃ e₀ ∈ w₀.storage.oplog, e₀.sequence = some q) ∨ q < w.service.log.nextSeq

lemma Uploaded.refl (w : World B) : Uploaded L cfg w w :=
  ⟨rfl, rfl, rfl, rfl, .refl _, fun _ hm => .inl hm, id, fun e he _ hq => .inl ⟨e, he, hq⟩⟩

def OfOplog (cfg : Config) (w₀ : World B) (e : OplogEntry B) : Prop :=
  e.namespace = cfg.namespace ∧ ∃ e₀ ∈ w₀.storage.oplog, e₀.written = e.written

section

variable (h : Uploaded L cfg w₀ w)

include h

lemma Uploaded.push {entries : List (OplogEntry B)} (hentries : ∀ e ∈ entries, OfOplog cfg w₀ e) :
    Uploaded L cfg w₀
      (w.setLog (w.service.log.push cfg.namespace (entries.map (toMutation L))).2) := by
  have hext := w.service.log.extends_push cfg.namespace (entries.map (toMutation L))
  refine ⟨h.documents, h.oplog, h.lastSequence, h.dedup, h.log.trans hext, fun m hm => ?_,
    fun hids => w.service.log.ids_push _ _ (h.ids hids), fun e he q hq => ?_⟩
  · rcases mem_ops_push hm with hold | ⟨m', hm', seq, rfl⟩
    · exact h.pushed m hold
    · obtain ⟨e, he, rfl⟩ := mem_map.1 hm'
      obtain ⟨hns, e0, he0, hwritten⟩ := hentries e he
      refine .inr ⟨e0, he0, ?_, seq, ?_⟩
      · exact (congrArg OplogEntry.namespace hwritten).trans hns
      · -- a mutation is made of the written part only
        change pending cfg.namespace seq (toMutation L e.written) =
          pending cfg.namespace seq (toMutation L e0.written)
        rw [hwritten]
  · exact (h.sequences e he q hq).imp_right fun hlt => hlt.trans_le hext.nextSeq

lemma Uploaded.markEntries {st : InMemoryStorage B} {f : OplogEntry B → OplogEntry B}
    (hdocs : st.documents = w.storage.documents) (hlog : st.oplog = w.storage.oplog.map f)
    (hf : ∀ e, (f e).written = e.written) (hseq : ∀ e q, (f e).sequence = some q →
      e.sequence = some q ∨ q < w.service.log.nextSeq) : Uploaded L cfg w₀ (w.setStorage st) := by
  refine ⟨hdocs.trans h.documents, ?_, h.lastSequence, h.dedup, h.log, h.pushed, h.ids,
    fun e he q hq => ?_⟩
  · rw [setStorage_storage, hlog, map_map, ← h.oplog]
    exact map_congr_left fun e _ => hf e
  · obtain ⟨e1, he1, rfl⟩ := mem_map.1 (hlog ▸ he)
    exact (hseq e1 q hq).elim (h.sequences e1 he1 q) .inr

end

def aloneProtocol (L : Lib B) (cfg : Config) (w₀ : World B) : Protocol (World B) where
  inv := Uploaded L cfg w₀
  rely := Eq
  guar w w' := w.service.log.nextSeq ≤ w'.service.log.nextSeq
  rely_refl _ := rfl
  rely_trans h h' := h.trans h'
  guar_refl _ := le_rfl

lemma uploading_alone : Uploading L cfg n A (aloneProtocol L cfg w₀) (fun _ e => OfOplog cfg w₀ e)
    (fun w p => p.2 < w.service.log.nextSeq) fun _ _ => True where
  known_stable _ h := h
  acked_stable hstep h := by
    rcases hstep with rfl | hle
    · exact h
    · exact h.trans_le hle
  reached_stable _ h := h
  pending _ hi e he := by
    obtain ⟨hmem, hfilter⟩ := mem_filter.1 (mem_of_mem_take he)
    refine ⟨(decide_eq_true_iff.1 hfilter).1, mem_map.1 ?_⟩
    rw [← hi.oplog]
    exact mem_map_of_mem hmem
  push hi hknown _ := by
    refine ⟨⟨Uploaded.push hi hknown, (extends_push _ _ _).nextSeq⟩,
      fun p hp => ?_, fun _ _ => trivial⟩
    exact lt_nextSeq_push (of_mem_zip hp).2
  markSynced p now hi hacked :=
    ⟨Uploaded.markEntries hi rfl rfl (by grind [OplogEntry.written]) (by grind), le_rfl⟩
  markFailed id hi :=
    ⟨Uploaded.markEntries hi rfl rfl (by grind [OplogEntry.written]) (by grind), le_rfl⟩
  memory c hi hc := ⟨{ hi with dedup := hc.trans hi.dedup }, le_rfl⟩
  setCursor _ hi _ := ⟨{ hi with }, le_rfl⟩

lemma wp_processBatch (w : World B) :
    wp (machine n A) (fun _ w' => Uploaded L cfg w w') (processBatch L cfg) w :=
  ((uploading_alone.safe_processBatch w).wp (.refl w)).mono fun _ _ h => h.1

/-! ## Marks -/

def SyncedLogged (ns : String) (w : World B) : Prop :=
  ∀ e ∈ w.storage.oplog, e.syncStatus = .synced →
    e.id ∈ (w.service.log.mutations ns).map PendingMutation.id

variable {ns : String}

lemma SyncedLogged.push (h : SyncedLogged ns w) (ms : List (EncryptedMutation B)) :
    SyncedLogged ns (w.setLog (w.service.log.push ns ms).2) := by
  intro e he hsync
  obtain ⟨m, hm, hid⟩ := mem_map.1 (h e he hsync)
  exact mem_map.2 ⟨m, (w.service.log.extends_push ns ms).mutations hm, hid⟩

lemma SyncedLogged.markEntries {st : InMemoryStorage B} {f : OplogEntry B → OplogEntry B}
    (h : SyncedLogged ns w) (hlog : st.oplog = w.storage.oplog.map f)
    (hf : ∀ e, (f e).id = e.id ∧ ((f e).syncStatus = .synced → e.syncStatus = .synced ∨
      e.id ∈ (w.service.log.mutations ns).map PendingMutation.id)) :
    SyncedLogged ns (w.setStorage st) := by
  intro e he hsync
  obtain ⟨e0, he0, rfl⟩ := mem_map.1 (hlog ▸ he)
  rw [(hf e0).1]
  exact ((hf e0).2 hsync).elim (h e0 he0) id

def markProtocol (ns : String) : Protocol (World B) where
  inv := SyncedLogged ns
  rely := Eq
  guar w w' := w.service.log.Extends w'.service.log
  rely_refl _ := rfl
  rely_trans h h' := h.trans h'
  guar_refl _ := .refl _

lemma uploading_marks : Uploading L cfg n A (markProtocol cfg.namespace) (fun _ _ => True)
    (fun w p => p.1.id ∈ (w.service.log.mutations cfg.namespace).map PendingMutation.id)
    fun _ _ => True where
  known_stable _ _ := trivial
  acked_stable hstep h := by
    rcases hstep with rfl | hext
    · exact h
    · obtain ⟨m, hm, hid⟩ := mem_map.1 h
      exact mem_map.2 ⟨m, hext.mutations hm, hid⟩
  reached_stable _ _ := trivial
  pending _ _ _ _ := trivial
  push {w _ entries} hi _ _ := by
    refine ⟨⟨SyncedLogged.push hi _, w.service.log.extends_push _ _⟩, fun p hp => ?_,
      fun _ _ => trivial⟩
    have hzip : (toMutation L p.1, p.2) ∈ (entries.map (toMutation L)).zip
        (w.service.log.push cfg.namespace (entries.map (toMutation L))).1 := by
      rw [zip_map_left]
      exact mem_map.2 ⟨p, hp, rfl⟩
    obtain ⟨m, hm, hid, -⟩ := mem_zip_push hzip
    exact mem_map.2 ⟨m, hm, hid⟩
  markSynced p now hi hacked := ⟨SyncedLogged.markEntries hi rfl (by grind), .refl _⟩
  markFailed id hi := ⟨SyncedLogged.markEntries hi rfl (by grind), .refl _⟩
  memory _ hi _ := ⟨hi, .refl _⟩
  setCursor _ hi _ := ⟨hi, .refl _⟩

lemma wp_processBatch_synced (h : SyncedLogged cfg.namespace w) :
    wp (machine n A) (fun _ w' => SyncedLogged cfg.namespace w') (processBatch L cfg) w :=
  ((uploading_marks.safe_processBatch w).wp h).mono fun _ _ h => h.1

end UploadQueue

end VaultSync
