import VaultSync.Async.Interleaving
import VaultSync.Sync.CursorBatch
import VaultSync.Sync.Uploading

/-! One cursor store under uploads and downloads. An acknowledged upload moves the cursor past
foreign mutations that were never pulled; when uploads push only what is caught up with the
coordinator, the stored cursor stays sound. -/

namespace VaultSync.DownloadQueue

open Async AsyncFn World List InMemoryCoordinator Sym

variable {B : Type} {L : Lib B} {cfg : Config} {n : ℕ} {A : Call B → Env B → World B → Prop}
  {w : World B}

def CaughtUpWith (L : Lib B) (cfg : Config) (w : World B) : Prop :=
  ∀ m ∈ foreignLog cfg w, Merged L cfg w m

lemma CaughtUpWith.push (h : CaughtUpWith L cfg w) {ms : List (EncryptedMutation B)}
    (hown : ∀ m ∈ ms, m.replicaId = cfg.replicaId) :
    CaughtUpWith L cfg (w.setLog (w.service.log.push cfg.namespace ms).2) := by
  intro m hm
  obtain ⟨hmut, hfor⟩ := mem_foreignLog.1 hm
  obtain ⟨hops, hns⟩ := mem_mutations.1 hmut
  rcases mem_ops_push hops with hold | ⟨m', hm', seq, rfl⟩
  · exact h m (mem_foreignLog.2 ⟨mem_mutations.2 ⟨hold, hns⟩, hfor⟩)
  · exact absurd (hown m' hm') hfor

variable {st : InMemoryStorage B} {id : String} {e : OplogEntry B}

lemma Sound.markEntries {snaps : List (Snapshot B)} {shared : Prop} (h : Sound L cfg snaps shared w)
    (hdocs : st.documents = w.storage.documents) {f : OplogEntry B → OplogEntry B}
    (hlog : st.oplog = w.storage.oplog.map f)
    (hf : ∀ e, (f e).namespace = e.namespace ∧ (f e).replicaId = e.replicaId) :
    Sound L cfg snaps shared (w.setStorage st) := by
  have he : Evolves L w (w.setStorage st) := evolves_of_eq hdocs rfl
  refine ⟨h.ids, h.listed, h.apart, fun id hid => (h.seen id hid).mono he, h.cursor.mono he,
    fun hs => (h.stored hs).mono he, fun hs e he' hns => ?_⟩
  obtain ⟨e0, he0, rfl⟩ := mem_map.1 (hlog ▸ he')
  rw [(hf e0).2]
  exact h.own hs e0 he0 ((hf e0).1.symm.trans hns)

lemma uploading (hpush : ∀ {ns ms e w}, A (.push ns ms) e w → CaughtUpWith L cfg w) :
    UploadQueue.Uploading L cfg n A (protocol L cfg [] True n)
      (fun _ e => e.replicaId = cfg.replicaId) (fun _ _ => True) (MergedUpTo L cfg) where
  known_stable _ h := h
  acked_stable _ _ := trivial
  reached_stable h hm := h.elim (fun h => hm.mono h.1) fun h => hm.mono h.1
  pending limit hi e he := by
    have hmem := mem_of_mem_take he
    simp only [mem_filter, decide_eq_true_eq] at hmem
    exact hi.own trivial e hmem.1 hmem.2.1
  push {w _ entries} hi hknown he := by
    have hown : ∀ m ∈ entries.map (UploadQueue.toMutation L), m.replicaId = cfg.replicaId := by
      intro m hm
      obtain ⟨e, hmem, rfl⟩ := mem_map.1 hm
      exact hknown e hmem
    have hcaught := (hpush he).push hown
    have hlog := w.service.log.extends_push cfg.namespace (entries.map (UploadQueue.toMutation L))
    refine ⟨⟨hi.push (by simp), ⟨fun _ => le_rfl, hlog⟩, fun _ _ => rfl⟩, fun _ _ => trivial, ?_⟩
    intro seq hseq
    exact ⟨lt_nextSeq_push hseq, fun m hm _ => hcaught m hm⟩
  markSynced p now hi _ :=
    ⟨hi.markEntries rfl rfl (by grind), evolves_of_eq rfl rfl, fun _ _ => rfl⟩
  markFailed id hi :=
    ⟨hi.markEntries rfl rfl (by grind), evolves_of_eq rfl rfl, fun _ _ => rfl⟩
  memory c hi hc := ⟨hi.mark [] (by simp) hc, evolves_of_eq rfl rfl, fun _ _ => rfl⟩
  setCursor seq hi hm :=
    ⟨hi.step (grows_of_documents rfl) rfl rfl rfl hi.cursor fun _ => hm, evolves_of_eq rfl rfl,
      fun _ _ => rfl⟩

/-! ## Uploads and downloads at once -/

inductive SyncJob where
  | upload
  | download

structure SyncTask where
  number : ℕ
  job : SyncJob

variable [DecidableEq B]

def SyncJob.prog (L : Lib B) (cfg : Config) : SyncJob → AsyncFn B ℕ
  | .upload => UploadQueue.processBatch L cfg
  | .download => DownloadQueue.processBatch L cfg

/-- Batches of both queues at once, with the environment's choices limited to `A`, while other
replicas push to the coordinator. -/
def syncs (L : Lib B) (cfg : Config) (A : SyncTask → Call B → Env B → World B → Prop) :
    System (Calls B) (Client B) VaultSyncError (Env B) (World B) SyncTask ℕ where
  machine t := machine t.number (A t)
  prog t := t.job.prog L cfg
  mayStart t ts _ := ∀ u ∈ ts, t.number ≠ u.number
  env w w' := ∃ ns ms, w' = w.setLog (w.service.log.push ns ms).2

/-- The runs in which the stored cursor is sound: an upload pushes when the client is caught up,
and documents are written as they were read. -/
def CaughtUpPushes (L : Lib B) (cfg : Config) (t : SyncTask) : Call B → Env B → World B → Prop
  | .push _ _, _, w => CaughtUpWith L cfg w
  | .insertDocument k _, _, w => w.storage.documents k = w.reads t.number k
  | .writeBatchReconciliation docs, _, w =>
    ∀ p ∈ docs, w.storage.documents p.1 = w.reads t.number p.1
  | _, _, _ => True

def syncsProof (hthr : cfg.snapshotThreshold = 0) : (syncs L cfg (CaughtUpPushes L cfg)).Proof where
  inv := Sound L cfg [] True
  protocol t := protocol L cfg [] True t.number
  post _ _ _ := True
  together t u := t.number ≠ u.number
  inv_iff _ _ := Iff.rfl
  env_safe := by
    rintro w _ hi ⟨ns, ms, rfl⟩
    have hlog := w.service.log.extends_push ns ms
    exact ⟨hi.push (by simp), fun _ => ⟨⟨fun _ => le_rfl, hlog⟩, rfl⟩⟩
  guar_rely t u w w' hne _ _ hg := ⟨hg.1, hg.2 u.number fun h => hne h.symm⟩
  start_together t ts w _ hstart u hu := ⟨hstart u hu, fun h => hstart u hu h.symm⟩
  safe t _ _ hi _ := by
    obtain ⟨n, job⟩ := t
    cases job with
    | upload => exact (uploading fun h => h).safe_processBatch _
    | download =>
      refine safe_processBatch (merging (fun h => h) fun h => h) ?_ ?_ hi
      · exact fun s hs => by cases hs
      · exact fun h => absurd hthr h

/-- **Stored cursor.** However uploads and downloads interleave, if every upload pushes from a
state that is caught up, a client restarted from the stored cursor skips no foreign mutation. -/
theorem merged_of_le_storeCursor (L : Lib B) (cfg : Config) (hthr : cfg.snapshotThreshold = 0)
    (w : World B) {p : Pool (Calls B) (Client B) VaultSyncError (World B) SyncTask ℕ}
    (h : Sound L cfg [] True w) (hr : (syncs L cfg (CaughtUpPushes L cfg)).Reachable ⟨[], w⟩ p) :
    ∀ m ∈ foreignLog cfg p.state, m.sequence ≤ p.state.storeCursor → Merged L cfg p.state m :=
  (((syncsProof hthr).inv_of_reachable h hr).stored trivial).2

/-! ## A mutation skipped, and a run that skips none -/

def ownEntry : OplogEntry Sym :=
  ⟨"2", "a", "ns", .crdtInsert, "d", "y", .update ⟨{7}, ∅⟩, some (blob "ns" ⟨{7}, ∅⟩), 0, none,
    .optimistic, none, 0, 0, .insert, ""⟩

def oneEach : World Sym :=
  (World.new (InMemoryCoordinator.new.push "ns" [mutation "1" "b" ⟨{5}, ∅⟩]).2).setStorage
    { InMemoryStorage.new with oplog := [ownEntry] }

def foreignFirst : PendingMutation Sym :=
  InMemoryCoordinator.pending "ns" 1 (mutation "1" "b" ⟨{5}, ∅⟩)

lemma sound_oneEach : Sound lib (config 0) [] True oneEach :=
  sound_of_new (by decide) (by decide) (by simp) rfl rfl rfl fun _ e he _ => by
    rw [mem_singleton.1 he]
    rfl

def afterDownload : World Sym :=
  (run (machine 0 (CaughtUpPushes lib (config 0) ⟨0, .download⟩))
    (SyncJob.prog lib (config 0) .download) [] oneEach).2

def afterUpload : World Sym :=
  (run (machine 1 (CaughtUpPushes lib (config 0) ⟨1, .upload⟩))
    (SyncJob.prog lib (config 0) .upload) [] afterDownload).2

lemma allowed_download :
    Allowed (machine 0 (CaughtUpPushes lib (config 0) ⟨0, .download⟩))
    (SyncJob.prog lib (config 0) .download) [] oneEach := by
  -- generation, cursor, page, order of the documents, the document and a client id
  refine And.intro trivial (And.intro trivial (And.intro trivial (And.intro trivial ?_)))
  refine And.intro trivial (And.intro trivial (And.intro (fun p hp => ?_) ?_))
  · rw [mem_singleton.1 hp]
    rfl
  · exact And.intro trivial (And.intro trivial trivial)

lemma allowed_upload : Allowed (machine 1 (CaughtUpPushes lib (config 0) ⟨1, .upload⟩))
    (SyncJob.prog lib (config 0) .upload) [] afterDownload := by
  -- the pending entries, the clock, then the push
  refine And.intro trivial (And.intro trivial (And.intro (fun m hm => ?_) ?_))
  · have hfirst : m = foreignFirst := mem_singleton.1 hm
    rw [hfirst]
    exact ⟨.update ⟨{5}, ∅⟩, ⟨{5}, ∅⟩, rfl, rfl, by decide⟩
  · refine And.intro trivial (And.intro trivial (And.intro trivial ?_))
    exact And.intro trivial trivial

theorem oneEach_merged :
    afterUpload.storeCursor = 2 ∧ ∀ m ∈ foreignLog (config 0) afterUpload,
      m.sequence ≤ afterUpload.storeCursor → Merged lib (config 0) afterUpload m := by
  have hfirst : (syncs lib (config 0) (CaughtUpPushes lib (config 0))).Reachable
      ⟨[], oneEach⟩ ⟨_, afterDownload⟩ :=
    System.reachable_started [] (c := SyncTask.mk 0 .download) (fun _ hu => by cases hu)
      allowed_download.outcome
  have hboth := hfirst.trans (System.reachable_started _ (c := SyncTask.mk 1 .upload)
    (fun u hu => by rw [mem_singleton.1 hu]; decide) allowed_upload.outcome)
  exact ⟨by decide, merged_of_le_storeCursor lib (config 0) rfl oneEach sound_oneEach hboth⟩

/-- The upload is acknowledged with sequence 2 and stores 2 as the cursor; mutation 1 was never
pulled. -/
theorem upload_skips_foreign :
    Sound lib (config 0) [] True oneEach ∧
      ∃ p, (syncs lib (config 0) fun _ _ _ _ => True).Reachable ⟨[], oneEach⟩ p ∧
        ∃ m ∈ foreignLog (config 0) p.state, m.sequence ≤ p.state.storeCursor ∧
          ¬ Merged lib (config 0) p.state m := by
  have hrun : Outcome (machine 0 fun _ _ _ => True) (SyncJob.prog lib (config 0) .upload)
      oneEach _ _ := run_outcome _ [] _ fun _ _ => ⟨trivial, fun _ _ => trivial⟩
  have hr := System.reachable_started [] (Y := syncs lib (config 0) fun _ _ _ _ => True)
    (c := SyncTask.mk 0 .upload) (fun _ hu => by cases hu) hrun
  refine ⟨sound_oneEach, _, hr, foreignFirst, ?_, ?_, ?_⟩
  · decide
  · decide
  · rintro ⟨plain, u, hplain, hu, hle⟩
    cases hplain
    cases hu
    revert hle
    decide

end VaultSync.DownloadQueue
