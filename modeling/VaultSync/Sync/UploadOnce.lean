import VaultSync.Async.Interleaving
import VaultSync.Crdt.Symbolic
import VaultSync.Sync.Uploading

/-! Uploads store every oplog entry at most once, in any interleaving of batches and with
acknowledgements lost. -/

namespace VaultSync.UploadQueue

open Async AsyncFn World List InMemoryCoordinator

variable {B : Type} {L : Lib B} {cfg : Config} {ns : String} {w w' : World B}

def StoredAt (L : Lib B) (ns : String) (w : World B) (e : OplogEntry B) (seq : ℕ) : Prop :=
  ∃ m ∈ w.service.log.mutations ns,
    m.id = e.id ∧ m.encryptedBlob = e.encryptedBlob.getD L.empty ∧ m.sequence = seq

structure ExactlyOnce (L : Lib B) (ns : String) (w : World B) : Prop where
  ids_distinct : (w.storage.oplog.map OplogEntry.id).Nodup
  stored_once : ((w.service.log.mutations ns).map PendingMutation.id).Nodup
  stored_from_oplog : ∀ m ∈ w.service.log.mutations ns, ∃ e ∈ w.storage.oplog,
    e.namespace = ns ∧ e.id = m.id ∧ e.encryptedBlob.getD L.empty = m.encryptedBlob
  synced_stored : ∀ e ∈ w.storage.oplog, e.namespace = ns → e.syncStatus = .synced →
    ∀ seq, e.sequence = some seq → StoredAt L ns w e seq

def core (e : OplogEntry B) : String × String × Option B := (e.id, e.namespace, e.encryptedBlob)

structure Extends (w w' : World B) : Prop where
  log : w.service.log.ops <+: w'.service.log.ops
  oplog : w'.storage.oplog.map core = w.storage.oplog.map core

def protocol (L : Lib B) (ns : String) : Protocol (World B) where
  inv := ExactlyOnce L ns
  rely := Extends
  guar := Extends
  rely_refl _ := ⟨prefix_rfl, rfl⟩
  rely_trans h h' := ⟨h.log.trans h'.log, h'.oplog.trans h.oplog⟩
  guar_refl _ := ⟨prefix_rfl, rfl⟩

def Known (ns : String) (w : World B) (e : OplogEntry B) : Prop :=
  e.namespace = ns ∧ core e ∈ w.storage.oplog.map core

variable {e e' : OplogEntry B} {seq : ℕ} {entries : List (OplogEntry B)}

lemma Known.mono (h : Known ns w e) (hx : Extends w w') : Known ns w' e :=
  ⟨h.1, by rw [hx.oplog]; exact h.2⟩

lemma StoredAt.mono (h : StoredAt L ns w e seq)
    (hlog : w.service.log.ops <+: w'.service.log.ops) : StoredAt L ns w' e seq := by
  obtain ⟨m, hm, hid⟩ := h
  exact ⟨m, (hlog.filter _).subset hm, hid⟩

lemma StoredAt.of_core (h : StoredAt L ns w e seq)
    (hcore : core e' = core e) : StoredAt L ns w e' seq := by
  simp only [core, Prod.mk.injEq] at hcore
  unfold StoredAt
  rw [hcore.1, hcore.2.2]
  exact h

lemma Known.exists_mem (h : Known ns w e) :
    ∃ e' ∈ w.storage.oplog, core e' = core e := mem_map.1 h.2

lemma ExactlyOnce.core_unique (h : ExactlyOnce L ns w)
    (he : Known ns w e) (he' : e' ∈ w.storage.oplog) (hid : e'.id = e.id) : core e' = core e := by
  obtain ⟨e1, he1, hcore⟩ := he.exists_mem
  have hid1 : e1.id = e.id := congrArg Prod.fst hcore
  have heq := inj_on_of_nodup_map h.ids_distinct he' he1 (hid.trans hid1.symm)
  rw [heq, hcore]

/-! ## The storage steps -/

lemma ExactlyOnce.markEntries (h : ExactlyOnce L ns w) {st : InMemoryStorage B}
    {f : OplogEntry B → OplogEntry B} (hlog : st.oplog = w.storage.oplog.map f)
    (hf : ∀ e, core (f e) = core e)
    (hsynced : ∀ e ∈ w.storage.oplog, (f e).syncStatus = .synced → ∀ seq, (f e).sequence = some seq →
      f e = e ∨ StoredAt L ns w e seq) :
    ExactlyOnce L ns (w.setStorage st) ∧ Extends w (w.setStorage st) := by
  have hcore : st.oplog.map core = w.storage.oplog.map core := by
    rw [hlog, map_map]
    exact map_congr_left fun e _ => hf e
  refine ⟨⟨?_, h.stored_once, fun m hm => ?_, fun e he hns hst seq hseq => ?_⟩, prefix_rfl, hcore⟩
  · have hids := congrArg (List.map Prod.fst) hcore
    simp only [map_map] at hids
    have hnd := h.ids_distinct
    rw [setStorage_storage, show st.oplog.map OplogEntry.id = w.storage.oplog.map OplogEntry.id
      from hids]
    exact hnd
  · obtain ⟨e, he, hns, hid, hblob⟩ := h.stored_from_oplog m hm
    have hmem : core e ∈ st.oplog.map core := by
      rw [hcore]
      exact mem_map_of_mem he
    obtain ⟨e', he', heq⟩ := mem_map.1 hmem
    simp only [core, Prod.mk.injEq] at heq
    exact ⟨e', he', heq.2.1.trans hns, heq.1.trans hid, by rw [heq.2.2]; exact hblob⟩
  · obtain ⟨e, hmem, rfl⟩ := mem_map.1 (hlog ▸ he)
    rcases hsynced e hmem hst seq hseq with hsame | hstored
    · rw [hsame] at hns hst hseq ⊢
      exact h.synced_stored e hmem hns hst seq hseq
    · exact hstored.of_core (hf e)

/-! ## The push -/

lemma ExactlyOnce.push (h : ExactlyOnce L ns w) (hknown : ∀ e ∈ entries, Known ns w e) :
    ExactlyOnce L ns (w.setLog (w.service.log.push ns (entries.map (toMutation L))).2) := by
  refine ⟨h.ids_distinct, w.service.log.ids_push ns _ h.stored_once, fun m hm => ?_, ?_⟩
  · obtain ⟨hops, hns⟩ := mem_mutations.1 hm
    rcases mem_ops_push hops with hold | ⟨m', hm', seq, rfl⟩
    · exact h.stored_from_oplog m (mem_mutations.2 ⟨hold, hns⟩)
    · obtain ⟨e, he, rfl⟩ := mem_map.1 hm'
      obtain ⟨e', he', hcore⟩ := (hknown e he).exists_mem
      simp only [core, Prod.mk.injEq] at hcore
      refine ⟨e', he', hcore.2.1.trans (hknown e he).1, hcore.1, ?_⟩
      rw [hcore.2.2]
      rfl
  · intro e he hns hst seq hseq
    exact (h.synced_stored e he hns hst seq hseq).mono (w.service.log.ops_push ns _)

lemma storedAt_of_push (h : ExactlyOnce L ns w) (hknown : ∀ e ∈ entries, Known ns w e)
    (he : (e, seq) ∈ entries.zip (w.service.log.push ns (entries.map (toMutation L))).1) :
    StoredAt L ns (w.setLog (w.service.log.push ns (entries.map (toMutation L))).2) e seq := by
  have hzip : (toMutation L e, seq) ∈ (entries.map (toMutation L)).zip
      (w.service.log.push ns (entries.map (toMutation L))).1 := by
    rw [zip_map_left]
    exact mem_map.2 ⟨(e, seq), he, rfl⟩
  obtain ⟨p, hp, hid, hseq⟩ := mem_zip_push hzip
  -- the stored blob is that of an oplog entry with the same id, hence of `e`
  obtain ⟨e', he', -, hid', hblob⟩ := (h.push hknown).stored_from_oplog p hp
  have hcore := h.core_unique (hknown e (of_mem_zip he).1) he' (hid'.trans hid)
  simp only [core, Prod.mk.injEq] at hcore
  exact ⟨p, hp, hid, by rw [← hblob, hcore.2.2], hseq⟩

/-! ## A batch keeps to the protocol -/

variable {n : ℕ} {A : Call B → Env B → World B → Prop}

lemma ExactlyOnce.setClient (h : ExactlyOnce L ns w) (c : Client B) :
    ExactlyOnce L ns (w.setClient c) :=
  ⟨h.ids_distinct, h.stored_once, h.stored_from_oplog, h.synced_stored⟩

lemma ExactlyOnce.setStoreCursor (h : ExactlyOnce L ns w) (seq : ℕ) :
    ExactlyOnce L ns (w.setStoreCursor seq) :=
  ⟨h.ids_distinct, h.stored_once, h.stored_from_oplog, h.synced_stored⟩

lemma known_of_pending {limit : ℕ}
    (h : e ∈ w.storage.readPendingOplog ns limit) : Known ns w e := by
  have hmem := mem_of_mem_take h
  simp only [mem_filter, decide_eq_true_eq] at hmem
  exact ⟨hmem.2.1, mem_map_of_mem hmem.1⟩

lemma uploading : Uploading L cfg n A (protocol L cfg.namespace) (Known cfg.namespace)
    (fun w p => Known cfg.namespace w p.1 ∧ StoredAt L cfg.namespace w p.1 p.2)
    (fun _ _ => True) where
  known_stable h hk := hk.mono (h.elim id id)
  acked_stable h hp := ⟨hp.1.mono (h.elim id id), hp.2.mono (h.elim id id).log⟩
  reached_stable _ _ := trivial
  pending _ _ _ he := known_of_pending he
  push {w _ entries} hi hknown _ := by
    have hx : Extends w (w.setLog (w.service.log.push cfg.namespace
        (entries.map (toMutation L))).2) := ⟨w.service.log.ops_push _ _, rfl⟩
    refine ⟨⟨hi.push hknown, hx⟩, fun p hp => ?_, fun _ _ => trivial⟩
    exact ⟨(hknown p.1 (of_mem_zip hp).1).mono hx, storedAt_of_push hi hknown hp⟩
  markSynced p now hi hp := by
    refine hi.markEntries rfl (by grind [core]) fun e he _ seq hseq => ?_
    split_ifs at hseq ⊢ with hid
    · cases hseq
      exact .inr (hp.2.of_core (hi.core_unique hp.1 he hid))
    · exact .inl rfl
  markFailed id hi := hi.markEntries rfl (by grind [core]) (by grind)
  memory c hi _ := ⟨hi.setClient c, prefix_rfl, rfl⟩
  setCursor seq hi _ := ⟨hi.setStoreCursor seq, prefix_rfl, rfl⟩

/-! ## Any number of batches -/

def batches (L : Lib B) (cfg : Config) :
    System (Calls B) (Client B) VaultSyncError (Env B) (World B) ℕ ℕ where
  machine n := machine n fun _ _ _ => True
  prog _ := processBatch L cfg
  mayStart _ _ _ := True
  env w w' := ∃ ns ms, ns ≠ cfg.namespace ∧ w' = w.setLog (w.service.log.push ns ms).2

lemma ExactlyOnce.push_other (h : ExactlyOnce L ns w) {ns' : String} (hne : ns' ≠ ns)
    (ms : List (EncryptedMutation B)) :
    ExactlyOnce L ns (w.setLog (w.service.log.push ns' ms).2) := by
  have heq := w.service.log.mutations_push_of_ne hne ms
  refine ⟨h.ids_distinct, ?_, fun m hm => h.stored_from_oplog m ?_, fun e he hns hst seq hseq => ?_⟩
  · rw [setLog_service_log, heq]
    exact h.stored_once
  · rw [← heq]
    exact hm
  · exact (h.synced_stored e he hns hst seq hseq).mono (w.service.log.ops_push ns' ms)

def batchesProof (L : Lib B) (cfg : Config) : (batches L cfg).Proof where
  inv := ExactlyOnce L cfg.namespace
  protocol _ := protocol L cfg.namespace
  post _ _ _ := True
  together _ _ := True
  inv_iff _ _ := Iff.rfl
  env_safe := by
    rintro w _ hi ⟨ns, ms, hne, rfl⟩
    exact ⟨hi.push_other hne ms, fun _ => ⟨w.service.log.ops_push ns ms, rfl⟩⟩
  guar_rely _ _ _ _ _ _ _ h := h
  start_together _ _ _ _ _ _ _ := ⟨trivial, trivial⟩
  safe _ _ w _ _ := uploading.safe_processBatch w

/-- Uploads are exactly once: a state that is so stays so, whatever batches run, in whatever
interleaving, and whatever pushes are lost or report an error after they happened. -/
theorem exactlyOnce_of_reachable (L : Lib B) (cfg : Config) {w : World B}
    {p : Pool (Calls B) (Client B) VaultSyncError (World B) ℕ ℕ} (h : ExactlyOnce L cfg.namespace w)
    (hr : (batches L cfg).Reachable ⟨[], w⟩ p) : ExactlyOnce L cfg.namespace p.state :=
  (batchesProof L cfg).inv_of_reachable h hr

/-- Along any such run the coordinator's log grows only at its end, and the ids, namespaces and
blobs of the oplog stay as they are. -/
theorem extends_of_reachable (L : Lib B) (cfg : Config) {p} (h : ExactlyOnce L cfg.namespace w)
    (hr : (batches L cfg).Reachable ⟨[], w⟩ p) : Extends w p.state := by
  let P := protocol L cfg.namespace
  refine (System.Proof.holds_empty (π := batchesProof L cfg) h).rel hr P.rely_refl P.rely_trans
    (fun _ _ _ _ hg => hg) ?_
  rintro w _ - ⟨ns, ms, -, rfl⟩
  exact ⟨w.service.log.ops_push ns ms, rfl⟩

def waiting (id : String) (d : CrdtState) : OplogEntry Sym :=
  ⟨id, "a", "ns", .crdtInsert, "d", "x", .update d, some (Sym.blob "ns" d), 0, none, .optimistic, none,
    0, 0, .insert, ""⟩

def twoWaiting : World Sym :=
  (World.new .new).setStorage
    { InMemoryStorage.new with oplog := [waiting "1" ⟨{5}, ∅⟩, waiting "2" ⟨{5, 5}, ∅⟩] }

def lostAck : Env Sym := { (default : Env Sym) with coordinatorFault := some .timeout, happened := true }

def batchRun (n : ℕ) (es : List (Env Sym)) (w : World Sym) : Except VaultSyncError ℕ × World Sym :=
  run (machine n fun _ _ _ => True) (processBatch Sym.lib (Sym.config 0)) es w

def afterLostAck : World Sym := (batchRun 0 [default, default, lostAck] twoWaiting).2

def afterRetry : World Sym := (batchRun 1 [] afterLostAck).2

theorem exactlyOnce_afterRetry :
    afterLostAck.storage.oplog.map OplogEntry.sequence = [none, none] ∧
      afterRetry.storage.oplog.map OplogEntry.sequence = [some 1, some 2] ∧
        ExactlyOnce Sym.lib "ns" afterRetry := by
  have hrun : ∀ n es w, Outcome (machine n fun _ _ _ => True)
      (processBatch Sym.lib (Sym.config 0)) w (batchRun n es w).1 (batchRun n es w).2 :=
    fun n es w => run_outcome _ _ _ fun _ _ => ⟨trivial, fun _ _ => trivial⟩
  have hfirst : (batches Sym.lib (Sym.config 0)).Reachable ⟨[], twoWaiting⟩ ⟨_, afterLostAck⟩ :=
    System.reachable_started [] (c := 0) trivial (hrun 0 [default, default, lostAck] twoWaiting)
  have hboth := hfirst.trans (System.reachable_started _ (c := 1) trivial (hrun 1 [] afterLostAck))
  have hstart : ExactlyOnce Sym.lib "ns" twoWaiting :=
    ⟨by decide, by decide, nofun, fun e he _ hst => absurd hst (by revert e; decide)⟩
  exact ⟨by decide, by decide, exactlyOnce_of_reachable Sym.lib (Sym.config 0) hstart hboth⟩

theorem extends_afterLostAck :
    afterLostAck.service.log.ops ≠ [] ∧ Extends twoWaiting afterLostAck := by
  have hrun := run_outcome (M := machine 0 fun _ _ _ => True) (processBatch Sym.lib (Sym.config 0))
    [default, default, lostAck] twoWaiting fun _ _ => ⟨trivial, fun _ _ => trivial⟩
  exact ⟨by decide, extends_of_reachable Sym.lib (Sym.config 0)
    ⟨by decide, by decide, by decide, fun e he _ hst => absurd hst (by revert e; decide)⟩
    (System.reachable_started [] (c := 0) trivial hrun)⟩

end VaultSync.UploadQueue
