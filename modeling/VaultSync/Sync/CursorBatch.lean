import VaultSync.Sync.CursorProtocol

/-! `process_batch`, with its snapshots and its pulls, keeps the cursors sound. -/

namespace VaultSync.DownloadQueue

open Async AsyncFn World List Snapshot InMemoryCoordinator Safe

variable {B α : Type} {L : Lib B} {cfg : Config} {snaps : List (Snapshot B)} {shared : Prop}
  {n : ℕ} {A : Call B → Env B → World B → Prop} {w w' : World B}

/-! ## Which snapshots are restored -/

variable {l : List (Snapshot B)} {after : ℕ} {m : PendingMutation B} {e : OplogEntry B}
  {page : List (PendingMutation B)} {es : List (OplogEntry B)}

lemma foldl_keepLatest {acc : List (Snapshot B)} (h : ((acc ++ l).map key).Nodup) :
    l.foldl keepLatest acc = acc ++ l := by
  induction l generalizing acc with
  | nil => simp
  | cons s l ih =>
    have hnone : acc.find? (fun t => t.key = s.key) = none := by
      rw [List.find?_eq_none]
      intro t ht
      rw [decide_eq_true_iff]
      rw [map_append, nodup_append] at h
      exact h.2.2 _ (mem_map_of_mem ht) _ (mem_map_of_mem mem_cons_self)
    have hstep : keepLatest acc s = acc ++ [s] := by
      unfold keepLatest
      rw [hnone]
    rw [append_cons] at h
    rw [foldl_cons, hstep, ih h, ← append_cons]

lemma latestSnapshots_eq (h : (l.map key).Nodup) :
    latestSnapshots l = l := foldl_keepLatest h

lemma mem_inSequenceOrder {latest : List (Snapshot B)} {keys : List Key} {s : Snapshot B}
    (hkeys : keys.Perm (latest.map key)) (hnd : (latest.map key).Nodup) :
    s ∈ inSequenceOrder latest keys ↔ s ∈ latest := by
  unfold inSequenceOrder
  rw [mem_insertionSort, mem_filterMap]
  constructor
  · rintro ⟨k, -, hk⟩
    exact mem_of_find?_eq_some hk
  · intro hs
    refine ⟨s.key, hkeys.mem_iff.2 (mem_map_of_mem hs), ?_⟩
    obtain ⟨t, ht⟩ : ∃ t, latest.find? (fun t => t.key = s.key) = some t := by
      rw [← Option.isSome_iff_exists, List.find?_isSome]
      exact ⟨s, hs, by simp⟩
    have hkey : t.key = s.key := by simpa using List.find?_some ht
    rw [ht, inj_on_of_nodup_map hnd (mem_of_find?_eq_some ht) hs hkey]

/-! ## Moving the cursor -/

variable (L cfg snaps shared n A) in
abbrev KeepsSound (t : AsyncFn B α) (w : World B) : Prop :=
  Safe (machine n A) (protocol L cfg snaps shared n) (fun _ _ => True) t w

lemma safe_evolves {t : AsyncFn B α} {Q : Except VaultSyncError α → World B → Prop}
    (h : Safe (machine n A) (protocol L cfg snaps shared n) Q t w) :
    Safe (machine n A) (protocol L cfg snaps shared n) (fun r w' => Q r w' ∧ Evolves L w w') t w :=
  h.frame (fun _ _ hstep he => he.trans (hstep.elim And.left And.left)) (.refl w)

lemma safe_moveCursor {seq : ℕ} {caller : String} {f : AsyncFn B α} (h : MergedUpTo L cfg w seq)
    (hok : ∀ w', KeepsSound L cfg snaps shared n A f w') :
    KeepsSound L cfg snaps shared n A
      (setCursor seq caller >>= fun _ => swapLastSequence seq >>= fun _ => f) w := by
  refine safe_setCursor (fun _ _ _ _ => trivial) fun w1 _ hi1 hr1 _ => ?_
  have h1 := h.mono hr1.1
  have hstep : Evolves L w1 (w1.setStoreCursor seq) := evolves_of_eq rfl rfl
  refine ⟨hi1.step hstep.grows rfl rfl rfl hi1.cursor fun _ => h1, ⟨hstep, fun _ _ => rfl⟩, ?_⟩
  refine safe_call fun w2 _ hi2 hr2 _ => ?_
  have h2 := (h1.mono hstep).mono hr2.1
  have hstep2 : Evolves L w2 (w2.setLastSequence seq) := evolves_of_eq rfl rfl
  exact ⟨hi2.step hstep2.grows rfl rfl rfl h2 hi2.stored, ⟨hstep2, fun _ _ => rfl⟩, hok _⟩

/-! ## Restoring snapshots -/

/-- The mutation is part of the snapshot of its record, which is numbered after it. -/
def PartOf (L : Lib B) (cfg : Config) (m : PendingMutation B) (s : Snapshot B) : Prop :=
  s.key = m.key ∧ m.sequence ≤ s.sequence ∧
    ∃ plain u d, decryptSymmetric L m.encryptedBlob cfg.namespace = .ok plain ∧
      L.decodeV1 plain = .ok u ∧ L.decodeV1 s.bytes = .ok d ∧ u ≤ d

/-- Snapshots are numbered within the log, and every foreign mutation up to any of them is merged
or is part of the snapshot of its own record. -/
def Covers (L : Lib B) (cfg : Config) (w : World B) : Prop :=
  ∀ s ∈ w.service.log.listSnapshots cfg.namespace, s.sequence < w.service.log.nextSeq ∧
    ∀ m ∈ foreignLog cfg w, m.sequence ≤ s.sequence → Merged L cfg w m ∨
      ∃ t ∈ w.service.log.listSnapshots cfg.namespace, PartOf L cfg m t

structure Restores (L : Lib B) (cfg : Config) (A : Call B → Env B → World B → Prop) : Prop where
  covers : ∀ {w e}, A (.listSnapshots cfg.namespace) e w → Covers L cfg w
  recognised : ∀ {w e}, ∀ s ∈ w.service.log.listSnapshots cfg.namespace,
    A (.getDocument s.key) e w → Recognised L w (snapshotEntry cfg s)
  drawn : ∀ {w e u}, ∀ s ∈ w.service.log.listSnapshots cfg.namespace, A .newClientId e w →
    L.decodeV1 s.bytes = .ok u → e.clientId ∉ u.stateVector

lemma mergedUpTo_of_restored {last : Snapshot B} (hcov : Covers L cfg w)
    (hafter : MergedUpTo L cfg w after)
    (hlast : last ∈ w.service.log.listSnapshots cfg.namespace) (he : Evolves L w w')
    (hcont : ∀ s ∈ w.service.log.listSnapshots cfg.namespace, after < s.sequence →
      Contained L w' (snapshotEntry cfg s)) : MergedUpTo L cfg w' last.sequence := by
  obtain ⟨hlt, hall⟩ := hcov last hlast
  refine ⟨hlt.trans_le he.log.nextSeq, fun m hm hle => ?_⟩
  have hold := he.mem_foreignLog_of_lt hm (hle.trans_lt hlt)
  rcases hall m hold hle with hmerged | ⟨t, ht, hkey, hseq, plain, u, d, hplain, hu, hd, hud⟩
  · exact hmerged.mono he.grows
  · by_cases happ : after < t.sequence
    · obtain ⟨d', hd', hle'⟩ := hcont t ht happ
      have hdd : d = d' := Except.ok.inj (hd.symm.trans hd')
      refine ⟨plain, u, hplain, hu, hud.trans ?_⟩
      rw [hdd, ← hkey]
      exact hle'
    · -- the snapshot was not needed: the cursor is past it
      exact (hafter.2 m hold (hseq.trans (not_lt.1 happ))).mono he.grows

/-! ## Pulled pages -/

lemma IsPulledEntry.entryOf (h : IsPulledEntry L cfg m e) : EntryOf L cfg m e := by
  obtain ⟨decrypted, hdec, rfl⟩ := h
  exact ⟨rfl, rfl, hdec⟩

lemma exists_of_forall2 {β : Type} {R : α → β → Prop} {l : List α} {l' : List β}
    (h : List.Forall₂ R l l') {a : α} (ha : a ∈ l) : ∃ b ∈ l', R a b := by
  induction h with
  | nil => cases ha
  | cons hab _ ih =>
    rcases mem_cons.1 ha with rfl | ha
    · exact ⟨_, mem_cons_self, hab⟩
    · obtain ⟨b, hb, hr⟩ := ih ha
      exact ⟨b, mem_cons_of_mem _ hb, hr⟩

lemma entryOf_of_mem_entries (h : pulledEntries L cfg page = .ok es) (he : e ∈ es) :
    ∃ m ∈ foreign cfg page, EntryOf L cfg m e := by
  obtain ⟨m, hm, hpulled⟩ := exists_of_forall2 (pulledEntries_ok h).flip he
  exact ⟨m, hm, IsPulledEntry.entryOf hpulled⟩

lemma entryOf_of_mem_foreign (h : pulledEntries L cfg page = .ok es) (hm : m ∈ foreign cfg page) :
    ∃ e ∈ es, EntryOf L cfg m e := by
  obtain ⟨e, he, hpulled⟩ := exists_of_forall2 (pulledEntries_ok h) hm
  exact ⟨e, he, IsPulledEntry.entryOf hpulled⟩

lemma mergedUpTo_of_pulled {limit : ℕ} {last : PendingMutation B}
    (hafter : MergedUpTo L cfg w after)
    (hes : pulledEntries L cfg (w.service.log.pull cfg.namespace after limit) = .ok es)
    (hlast : last ∈ w.service.log.pull cfg.namespace after limit) (he : Evolves L w w')
    (hcont : ∀ e ∈ es, Contained L w' e) : MergedUpTo L cfg w' last.sequence := by
  have hlastOps := (mem_mutations.1 (mem_of_mem_pull hlast)).1
  have hlt := w.service.log.seq_lt last hlastOps
  refine ⟨hlt.trans_le he.log.nextSeq, fun m hm hle => ?_⟩
  have hold := he.mem_foreignLog_of_lt hm (hle.trans_lt hlt)
  by_cases hseq : m.sequence ≤ after
  · exact (hafter.2 m hold hseq).mono he.grows
  · obtain ⟨hmut, hfor⟩ := mem_foreignLog.1 hold
    have hpage := mem_pull_of_le hmut (not_le.1 hseq) hlast hle
    obtain ⟨e, hemem, hof⟩ := entryOf_of_mem_foreign hes
      (mem_filter.2 ⟨hpage, by simpa using hfor⟩)
    exact hof.merged_iff.2 (hcont e hemem)

lemma safe_endReplay (H : Merging L n A (protocol L cfg snaps shared n) (Source L cfg snaps)) :
    KeepsSound L cfg snaps shared n A (endReplay L) w := by
  refine safe_read fun w1 _ _ => ?_
  refine safe_ite (fun _ => ?_) fun _ => safe_done
  refine safe_modify_bind fun w2 hi2 _ => ?_
  obtain ⟨hi3, hg3⟩ := H.memory (c := w2.client.setReplayMode false) [] hi2 (by simp) rfl
  refine ⟨hi3, hg3, safe_read fun w4 hi4 _ => safe_hashOrder fun w5 e5 hi5 _ _ => ?_⟩
  refine bind hi5 (safe_fireDocs H hi5 _) (fun _ w6 _ _ => ?_) fun _ _ _ _ => trivial
  refine safe_modify fun w7 hi7 _ => ?_
  obtain ⟨hi8, hg8⟩ := H.memory (c := { w7.client with replayChangedDocs := [] }) [] hi7
    (by simp) rfl
  exact ⟨hi8, hg8, fun _ _ _ => trivial⟩

lemma safe_checkGeneration :
    KeepsSound L cfg snaps shared n A (checkGeneration cfg : AsyncFn B Unit) w := by
  refine safe_generationId fun w1 _ _ => ?_
  refine safe_ite (fun _ => safe_done) fun _ => ?_
  refine safe_call fun w2 e2 hi2 _ _ => ?_
  refine safe_onStorage hi2 (fun _ _ _ _ _ => trivial) fun _ => ?_
  exact ⟨hi2, (protocol L cfg snaps shared n).guar_refl w2, safe_done⟩

/-! ## The merges -/

variable [DecidableEq B] (H : Merging L n A (protocol L cfg snaps shared n) (Source L cfg snaps))
  (hsnaps : DistinctIds cfg snaps)

include H hsnaps

lemma safe_applySnapshots (hrest : Restores L cfg A) (hthr : cfg.snapshotThreshold ≠ 0)
    {ss : List (Snapshot B)} (hss : ∀ s ∈ ss, s ∈ snaps) (hi : Sound L cfg snaps shared w) :
    Safe (machine n A) (protocol L cfg snaps shared n)
      (fun r w' => r = .ok () → ∀ s ∈ ss, Contained L w' (snapshotEntry cfg s))
      (applySnapshots L cfg ss) w := by
  induction ss generalizing w with
  | nil => exact safe_pure fun _ _ _ _ => by simp
  | cons s ss ih =>
    have hs := hss s mem_cons_self
    have hlisted : ∀ {w'}, Sound L cfg snaps shared w' →
        s ∈ w'.service.log.listSnapshots cfg.namespace := fun hi' => by
      rw [hi'.listed hthr]
      exact hs
    have hsrc : Source L cfg snaps w (snapshotEntry cfg s) := .inr ⟨s, hs, rfl⟩
    have hfirst := safe_applyRemoteUpdate H hsrc
      (fun w' hi' hsrc' hseen => hi'.contained_of_seen hsnaps hsrc' hseen)
      (fun w' e hi' _ he => hrest.recognised s (hlisted hi') he)
      (fun w' e u hi' _ he hu => hrest.drawn s (hlisted hi') he hu)
    refine bind hi hfirst (fun _ w1 hi1 hcont => ?_) fun _ _ _ _ => nofun
    have hrest' := safe_evolves (ih (fun t ht => hss t (mem_cons_of_mem _ ht)) hi1)
    refine hrest'.mono fun r w2 _ h hr => ?_
    exact forall_mem_cons.2 ⟨(hcont rfl).mono h.2.grows, h.1 hr⟩

lemma safe_restoreSnapshots (hrest : Restores L cfg A) (hthr : cfg.snapshotThreshold ≠ 0)
    {applicable : List (Snapshot B)} (hi : Sound L cfg snaps shared w) (hcov : Covers L cfg w)
    (hafter : MergedUpTo L cfg w after) (hnd : (applicable.map key).Nodup)
    (hne : applicable ≠ []) (hmem : ∀ s, s ∈ applicable ↔
      s ∈ w.service.log.listSnapshots cfg.namespace ∧ after < s.sequence) :
    KeepsSound L cfg snaps shared n A (restoreSnapshots L cfg applicable) w := by
  refine safe_hashOrder fun w1 e1 hi1 hr1 _ => ?_
  have horder := (e1.keyOrder (applicable.map key)).2
  set toApply := inSequenceOrder applicable (e1.keyOrder (applicable.map key)).1
  have hmemTo : ∀ s, s ∈ toApply ↔ s ∈ applicable := fun s => mem_inSequenceOrder horder hnd
  have hss : ∀ s ∈ toApply, s ∈ snaps := by
    intro s hs
    rw [← hi.listed hthr]
    exact ((hmem s).1 ((hmemTo s).1 hs)).1
  have happly := safe_evolves (safe_applySnapshots H hsnaps hrest hthr hss hi1)
  refine bind hi1 happly (fun _ w2 _ hpost => ?_) fun _ _ _ _ => trivial
  have hto : toApply ≠ [] := by
    obtain ⟨s, hs⟩ := exists_mem_of_ne_nil _ hne
    exact ne_nil_of_mem ((hmemTo s).2 hs)
  have hlast : toApply.getLast? = some (toApply.getLast hto) := List.getLast?_eq_some_getLast hto
  have hlastMem := (hmem _).1 ((hmemTo _).1 (getLast_mem hto))
  simp only [hlast, Option.map_some, Option.getD_some]
  refine safe_moveCursor ?_ fun _ => safe_done
  refine mergedUpTo_of_restored hcov hafter hlastMem.1 (hr1.1.trans hpost.2) fun s hs hlt => ?_
  exact hpost.1 rfl s ((hmemTo s).2 ((hmem s).2 ⟨hs, hlt⟩))

lemma safe_tryFetchSnapshot (hrest : Restores L cfg A) :
    KeepsSound L cfg snaps shared n A (tryFetchSnapshot L cfg) w := by
  refine safe_loadLastSequence fun w1 _ hi1 _ _ => ?_
  refine safe_ite (fun _ => safe_done) fun hthr => ?_
  refine safe_listSnapshots (fun w2 e2 hi2 hr2 he2 => ?_)
    fun _ _ _ _ => safe_done
  have hperm := (e2.snapshotOrder (w2.service.log.listSnapshots cfg.namespace)).2
  set listed := (e2.snapshotOrder (w2.service.log.listSnapshots cfg.namespace)).1
  set applicable := listed.filter fun s => decide (w1.lastSequence < s.sequence) with happ
  have hnd : (applicable.map key).Nodup := by
    have hall := w2.service.log.listSnapshots_keys_nodup cfg.namespace
    exact ((hperm.map key).nodup_iff.2 hall).sublist (filter_sublist.map _)
  refine safe_ite (fun _ => safe_done) fun hne => ?_
  rw [latestSnapshots_eq hnd]
  refine safe_restoreSnapshots H hsnaps hrest hthr hi2 (hrest.covers he2) (hi1.cursor.mono hr2.1)
    hnd (fun hnil => hne (isEmpty_iff.2 hnil)) fun s => ?_
  rw [happ, mem_filter, decide_eq_true_iff, hperm.mem_iff]

lemma safe_snapshotCatchUp (hrest : cfg.snapshotThreshold ≠ 0 → Restores L cfg A)
    (hi : Sound L cfg snaps shared w) :
    KeepsSound L cfg snaps shared n A (snapshotCatchUp L cfg) w := by
  refine safe_ite (fun hthr => ?_) fun _ => safe_done
  have hfetch : KeepsSound L cfg snaps shared n A
      ((tryFetchSnapshot L cfg).attempt : AsyncFn B (Except VaultSyncError Bool)) w :=
    attempt (safe_tryFetchSnapshot H hsnaps (hrest hthr.ne'))
  exact bind hi hfetch (fun _ _ _ _ => safe_done)
    fun _ _ _ _ => trivial

lemma safe_mergePulled (hsrc : ∀ e ∈ es, Source L cfg snaps w e) :
    Safe (machine n A) (protocol L cfg snaps shared n)
      (fun r w' => r = .ok () → ∀ e ∈ es, Contained L w' e) (mergePulled L es) w := by
  refine safe_ite (fun hnil => ?_) fun _ => ?_
  · rw [isEmpty_iff.1 hnil]
    exact safe_pure fun _ _ _ _ => by simp
  · exact safe_applyBatch H hsrc fun w' hi' e _ hs hseen => hi'.contained_of_seen hsnaps hs hseen

/-- **A batch keeps the cursors sound**, whatever runs beside it. -/
theorem safe_processBatch (hrest : cfg.snapshotThreshold ≠ 0 → Restores L cfg A)
    (hi : Sound L cfg snaps shared w) :
    KeepsSound L cfg snaps shared n A (processBatch L cfg) w := by
  refine bind hi safe_checkGeneration (fun _ w1 hi1 _ => ?_) fun _ _ _ _ => trivial
  refine safe_loadLastSequence fun w2 _ hi2 _ _ => ?_
  have hcatch := safe_evolves (safe_snapshotCatchUp H hsnaps hrest hi2)
  refine bind hi2 hcatch (fun _ w3 hi3 hpost3 => ?_) fun _ _ _ _ => trivial
  have hafter3 := hi2.cursor.mono hpost3.2
  set after := w2.lastSequence
  refine safe_pull (fun w4 hi4 hr4 => ?_) fun err w4 _ _ => ?_
  · have hafter4 := hafter3.mono hr4.1
    set ms := w4.service.log.pull cfg.namespace after cfg.downloadBatchSize with hms
    refine safe_ofExcept_bind (fun es hes => ?_) fun _ _ _ _ _ => trivial
    have hsrc : ∀ e ∈ es, Source L cfg snaps w4 e := by
      intro e he
      obtain ⟨m, hm, hof⟩ := entryOf_of_mem_entries hes he
      exact .inl ⟨m, mem_of_mem_pull (mem_of_mem_filter hm), hof⟩
    have hmerge := safe_evolves (safe_mergePulled H hsnaps hsrc)
    refine bind hi4 hmerge (fun _ w5 hi5 hpost5 => ?_) fun _ _ _ _ => trivial
    have hend := safe_evolves (safe_endReplay H (w := w5))
    refine bind hi5 hend (fun _ w6 hi6 hpost6 => ?_) fun _ _ _ _ => trivial
    have hadvance : KeepsSound L cfg snaps shared n A (advanceCursor ms) w6 := by
      unfold advanceCursor
      cases hlast : ms.getLast? with
      | none => exact safe_done
      | some last =>
        refine safe_moveCursor ?_ fun _ => safe_done
        have hsound := mergedUpTo_of_pulled hafter4 hes (mem_of_getLast? hlast)
          hpost5.2 (hpost5.1 rfl)
        exact hsound.mono hpost6.2
    exact bind hi6 hadvance (fun _ _ _ _ => safe_done)
      fun _ _ _ _ => trivial
  · cases err <;> exact fun _ _ _ => trivial

end VaultSync.DownloadQueue
