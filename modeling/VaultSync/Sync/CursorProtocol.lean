import VaultSync.Sync.Merging
import VaultSync.Sync.PullCatchUp

/-! When a cursor is sound: every foreign mutation up to it is merged. The protocol that keeps
cursors sound, and `process_batch` under it. -/

namespace VaultSync.DownloadQueue

open Async AsyncFn World InMemoryCoordinator

variable {B : Type} {L : Lib B} {cfg : Config} {w w' : World B}

def Merged (L : Lib B) (cfg : Config) (w : World B) (m : PendingMutation B) : Prop :=
  ∃ plain u, decryptSymmetric L m.encryptedBlob cfg.namespace = .ok plain ∧
    L.decodeV1 plain = .ok u ∧ u ≤ docState L w m.key

def foreignLog (cfg : Config) (w : World B) : List (PendingMutation B) :=
  foreign cfg (w.service.log.mutations cfg.namespace)

/-- `c` is a sound cursor: it is behind the next sequence to be given, and everything foreign
up to it is merged. -/
def MergedUpTo (L : Lib B) (cfg : Config) (w : World B) (c : ℕ) : Prop :=
  c < w.service.log.nextSeq ∧ ∀ m ∈ foreignLog cfg w, m.sequence ≤ c → Merged L cfg w m

structure Evolves (L : Lib B) (w w' : World B) : Prop where
  grows : Grows L w w'
  log : w.service.log.Extends w'.service.log

lemma Evolves.refl (w : World B) : Evolves L w w := ⟨fun _ => le_rfl, .refl _⟩

lemma Evolves.trans {w'' : World B} (h : Evolves L w w') (h' : Evolves L w' w'') :
    Evolves L w w'' := ⟨h.grows.trans h'.grows, h.log.trans h'.log⟩

lemma evolves_of_eq (hdocs : w'.storage.documents = w.storage.documents)
    (hlog : w'.service.log = w.service.log) : Evolves L w w' :=
  ⟨grows_of_documents hdocs, by rw [hlog]; exact .refl _⟩

variable {m : PendingMutation B} {e : OplogEntry B}

lemma mem_foreignLog :
    m ∈ foreignLog cfg w ↔
      m ∈ w.service.log.mutations cfg.namespace ∧ m.replicaId ≠ cfg.replicaId := by
  simp [foreignLog, foreign]

lemma Merged.mono (h : Merged L cfg w m) (he : Grows L w w') : Merged L cfg w' m := by
  obtain ⟨plain, u, hplain, hu, hle⟩ := h
  exact ⟨plain, u, hplain, hu, hle.trans (he m.key)⟩

lemma Evolves.mem_foreignLog_of_lt (h : Evolves L w w') (hm : m ∈ foreignLog cfg w')
    (hlt : m.sequence < w.service.log.nextSeq) : m ∈ foreignLog cfg w := by
  obtain ⟨hmut, hfor⟩ := mem_foreignLog.1 hm
  obtain ⟨hops, hns⟩ := mem_mutations.1 hmut
  have hold := h.log.mem_of_lt m hops hlt
  exact mem_foreignLog.2 ⟨mem_mutations.2 ⟨hold, hns⟩, hfor⟩

lemma MergedUpTo.mono {c : ℕ} (h : MergedUpTo L cfg w c) (he : Evolves L w w') :
    MergedUpTo L cfg w' c := by
  refine ⟨h.1.trans_le he.log.nextSeq, fun m hm hle => ?_⟩
  have hold := he.mem_foreignLog_of_lt hm (hle.trans_lt h.1)
  exact (h.2 m hold hle).mono he.grows

lemma mergedUpTo_zero : MergedUpTo L cfg w 0 := by
  refine ⟨w.service.log.nextSeq_pos, fun m hm hle => ?_⟩
  obtain ⟨hmut, -⟩ := mem_foreignLog.1 hm
  have hpos := w.service.log.seq_pos m (mem_mutations.1 hmut).1
  omega

/-! ## The protocol -/

section Protocol

variable (L : Lib B) (cfg : Config) (snaps : List (Snapshot B)) (shared : Prop) (w : World B)

def Accounted (id : String) : Prop :=
  (∃ m ∈ w.service.log.mutations cfg.namespace, m.id = id ∧ Merged L cfg w m) ∨
    ∃ s ∈ snaps, (snapshotEntry cfg s).id = id ∧ Contained L w (snapshotEntry cfg s)

/-- What holds at every moment. `snaps` are the snapshots that may be restored, and `shared`
says whether the cursor store, which uploads of the client's own entries move, is to be sound
as well. -/
structure Sound : Prop where
  ids : ((w.service.log.mutations cfg.namespace).map PendingMutation.id).Nodup
  listed : cfg.snapshotThreshold ≠ 0 → w.service.log.listSnapshots cfg.namespace = snaps
  apart : ∀ m ∈ w.service.log.mutations cfg.namespace, ∀ s ∈ snaps, m.id ≠ (snapshotEntry cfg s).id
  seen : ∀ id ∈ w.client.dedup.seen, Accounted L cfg snaps w id
  cursor : MergedUpTo L cfg w w.lastSequence
  stored : shared → MergedUpTo L cfg w w.storeCursor
  own : shared → ∀ e ∈ w.storage.oplog, e.namespace = cfg.namespace → e.replicaId = cfg.replicaId

def protocol (n : ℕ) : Protocol (World B) where
  inv := Sound L cfg snaps shared
  rely w w' := Evolves L w w' ∧ w'.reads n = w.reads n
  guar w w' := Evolves L w w' ∧ ∀ n' ≠ n, w'.reads n' = w.reads n'
  rely_refl w := ⟨.refl w, rfl⟩
  rely_trans h h' := ⟨h.1.trans h'.1, h'.2.trans h.2⟩
  guar_refl w := ⟨.refl w, fun _ _ => rfl⟩

structure EntryOf (m : PendingMutation B) (e : OplogEntry B) : Prop where
  id : e.id = m.id
  key : e.key = m.key
  update : decryptSymmetric L m.encryptedBlob cfg.namespace = .ok e.yrsUpdate

def Source (e : OplogEntry B) : Prop :=
  (∃ m ∈ w.service.log.mutations cfg.namespace, EntryOf L cfg m e) ∨
    ∃ s ∈ snaps, e = snapshotEntry cfg s

end Protocol

variable {snaps : List (Snapshot B)} {shared : Prop} {n : ℕ}
  {A : Call B → Env B → World B → Prop}

lemma Accounted.mono {id : String} (h : Accounted L cfg snaps w id) (he : Evolves L w w') :
    Accounted L cfg snaps w' id := by
  rcases h with ⟨m, hm, hid, hmerged⟩ | ⟨s, hs, hid, hcont⟩
  · exact .inl ⟨m, he.log.mutations hm, hid, hmerged.mono he.grows⟩
  · exact .inr ⟨s, hs, hid, hcont.mono he.grows⟩

lemma Source.mono (h : Source L cfg snaps w e) (he : Evolves L w w') : Source L cfg snaps w' e := by
  rcases h with ⟨m, hm, hof⟩ | hs
  · exact .inl ⟨m, he.log.mutations hm, hof⟩
  · exact .inr hs

lemma EntryOf.merged_iff (h : EntryOf L cfg m e) : Merged L cfg w m ↔ Contained L w e := by
  constructor
  · rintro ⟨plain, u, hplain, hu, hle⟩
    rw [h.update] at hplain
    cases hplain
    exact ⟨u, hu, by rw [h.key]; exact hle⟩
  · rintro ⟨u, hu, hle⟩
    exact ⟨e.yrsUpdate, u, h.update, hu, by rw [← h.key]; exact hle⟩

lemma Source.accounted (h : Source L cfg snaps w e) (hc : Contained L w e) :
    Accounted L cfg snaps w e.id := by
  rcases h with ⟨m, hm, hof⟩ | ⟨s, hs, rfl⟩
  · exact .inl ⟨m, hm, hof.id.symm, hof.merged_iff.2 hc⟩
  · exact .inr ⟨s, hs, rfl, hc⟩

def DistinctIds (cfg : Config) (snaps : List (Snapshot B)) : Prop :=
  ∀ s ∈ snaps, ∀ t ∈ snaps, (snapshotEntry cfg s).id = (snapshotEntry cfg t).id → s = t

lemma Sound.contained_of_seen (h : Sound L cfg snaps shared w) (hsnaps : DistinctIds cfg snaps)
    (hsrc : Source L cfg snaps w e) (hseen : e.id ∈ w.client.dedup.seen) : Contained L w e := by
  rcases hsrc with ⟨m, hm, hof⟩ | ⟨s, hs, rfl⟩
  · rcases h.seen _ hseen with ⟨m', hm', hid, hmerged⟩ | ⟨s, hs, hid, -⟩
    · have heq := List.inj_on_of_nodup_map h.ids hm' hm (hid.trans hof.id)
      rw [heq] at hmerged
      exact hof.merged_iff.1 hmerged
    · exact absurd (hof.id.symm.trans hid.symm) (h.apart m hm s hs)
  · rcases h.seen _ hseen with ⟨m, hm, hid, -⟩ | ⟨t, ht, hid, hcont⟩
    · exact absurd hid (h.apart m hm s hs)
    · rw [← hsnaps t ht s hs hid]
      exact hcont

lemma sound_of_new (hids : ((w.service.log.mutations cfg.namespace).map PendingMutation.id).Nodup)
    (hlisted : cfg.snapshotThreshold ≠ 0 → w.service.log.listSnapshots cfg.namespace = snaps)
    (hapart : ∀ m ∈ w.service.log.mutations cfg.namespace, ∀ s ∈ snaps,
      m.id ≠ (snapshotEntry cfg s).id) (hseen : w.client.dedup.seen = ∅)
    (hlast : w.lastSequence = 0) (hcursor : w.storeCursor = 0)
    (hown : shared → ∀ e ∈ w.storage.oplog, e.namespace = cfg.namespace →
      e.replicaId = cfg.replicaId) : Sound L cfg snaps shared w where
  ids := hids
  listed := hlisted
  apart := hapart
  seen := by simp [hseen]
  cursor := by
    rw [hlast]
    exact mergedUpTo_zero
  stored _ := by
    rw [hcursor]
    exact mergedUpTo_zero
  own := hown

/-! ## Steps that keep it -/

section

variable (h : Sound L cfg snaps shared w)

include h

lemma Sound.step (hg : Grows L w w')
    (hoplog : w'.storage.oplog = w.storage.oplog) (hlog : w'.service.log = w.service.log)
    (hdedup : w'.client.dedup = w.client.dedup) (hlast : MergedUpTo L cfg w w'.lastSequence)
    (hcursor : shared → MergedUpTo L cfg w w'.storeCursor) : Sound L cfg snaps shared w' := by
  have he : Evolves L w w' := ⟨hg, by rw [hlog]; exact .refl _⟩
  refine ⟨?_, ?_, ?_, ?_, hlast.mono he, fun hs => (hcursor hs).mono he, ?_⟩
  · rw [hlog]
    exact h.ids
  · rw [hlog]
    exact h.listed
  · rw [hlog]
    exact h.apart
  · rw [hdedup]
    exact fun id hid => (h.seen id hid).mono he
  · rw [hoplog]
    exact h.own

lemma Sound.mark {c : Client B} (es : List (OplogEntry B))
    (hes : ∀ e ∈ es, Source L cfg snaps w e ∧ Contained L w e)
    (hc : c.dedup = (es.map OplogEntry.id).foldl DedupCache.mark w.client.dedup) :
    Sound L cfg snaps shared (w.setClient c) := by
  refine ⟨h.ids, h.listed, h.apart, fun id hid => ?_, h.cursor, h.stored, h.own⟩
  rw [setClient_client, hc] at hid
  rcases DedupCache.mem_seen_foldl_mark hid with hid | hid
  · obtain ⟨e, he, rfl⟩ := List.mem_map.1 hid
    exact (hes e he).1.accounted (hes e he).2
  · exact h.seen id hid

lemma Sound.push {ns : String} {ms : List (EncryptedMutation B)}
    (hids : ns = cfg.namespace → ∀ m ∈ ms, ∀ s ∈ snaps, m.id ≠ (snapshotEntry cfg s).id) :
    Sound L cfg snaps shared (w.setLog (w.service.log.push ns ms).2) := by
  have he : Evolves L w (w.setLog (w.service.log.push ns ms).2) :=
    ⟨fun _ => le_rfl, w.service.log.extends_push ns ms⟩
  refine ⟨?_, ?_, ?_, fun id hid => (h.seen id hid).mono he, h.cursor.mono he,
    fun hs => (h.stored hs).mono he, h.own⟩
  · by_cases hns : ns = cfg.namespace
    · rw [hns]
      exact w.service.log.ids_push cfg.namespace ms h.ids
    · rw [setLog_service_log, w.service.log.mutations_push_of_ne hns]
      exact h.ids
  · rw [he.log.listSnapshots]
    exact h.listed
  · intro m hm s hs
    obtain ⟨hops, hmns⟩ := mem_mutations.1 hm
    rcases mem_ops_push hops with hold | ⟨m', hm', seq, rfl⟩
    · exact h.apart m (mem_mutations.2 ⟨hold, hmns⟩) s hs
    · exact hids hmns m' hm' s hs

end

lemma merging (hfresh : ∀ {w e docs}, A (.writeBatchReconciliation docs) e w →
      ∀ p ∈ docs, w.storage.documents p.1 = w.reads n p.1)
    (hinsert : ∀ {w e k b}, A (.insertDocument k b) e w → w.storage.documents k = w.reads n k) :
    Merging L n A (protocol L cfg snaps shared n) (Source L cfg snaps) where
  reads h := h.2
  grows h := h.elim (fun h => h.1.grows) fun h => h.1.grows
  source_stable h hs := h.elim (fun h => hs.mono h.1) fun h => hs.mono h.1
  read k hi := by
    refine ⟨?_, evolves_of_eq rfl rfl, fun n' hn => recordRead_reads_of_ne hn k _⟩
    exact Sound.step hi (grows_of_documents rfl) rfl rfl rfl hi.cursor hi.stored
  write docs hi hg := by
    refine ⟨hi.step hg ?_ rfl rfl hi.cursor hi.stored, ⟨hg, .refl _⟩, fun _ _ => rfl⟩
    exact InMemoryStorage.writeBatchReconciliation_oplog docs
  memory es hi hes hc := ⟨hi.mark es hes hc, evolves_of_eq rfl rfl, fun _ _ => rfl⟩
  fresh := hfresh
  fresh_insert := hinsert

end VaultSync.DownloadQueue
