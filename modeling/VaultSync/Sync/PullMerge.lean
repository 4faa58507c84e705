import VaultSync.Sync.CursorBatch

/-! What one delivery does to the documents, for a client that runs alone: each gains at most
the delivered updates, and once the call returns `Ok` it has them. -/

namespace VaultSync.DownloadQueue

open Async AsyncFn World PagedLog List

variable {B : Type} {L : Lib B} {cfg : Config} {n : ℕ} {A : Call B → Env B → World B → Prop}
  {w w' : World B} {draw : ClientId → Prop}

/-! ## Bounds up to new documents -/

/-- `d` is at most `b`, apart from items of new documents by clients that `draw` allows. -/
def WithinDrawn (draw : ClientId → Prop) (b d : CrdtState) : Prop :=
  ∃ v : StateVector, (∀ c ∈ v, draw c) ∧ d ≤ b ⊔ ⟨v, ∅⟩

variable {b d : CrdtState} {entries : List (OplogEntry B)} {w'' : World B} {k : Key}
  {docs : List (Key × B)} {entry : OplogEntry B} {m : PendingMutation B}

lemma WithinDrawn.of_le (h : d ≤ b) : WithinDrawn draw b d :=
  ⟨0, by simp, h.trans le_sup_left⟩

lemma WithinDrawn.mono {draw' : ClientId → Prop} (h : WithinDrawn draw b d)
    (hdraw : ∀ c, draw c → draw' c) : WithinDrawn draw' b d := by
  obtain ⟨v, hv, hle⟩ := h
  exact ⟨v, fun c hc => hdraw c (hv c hc), hle⟩

lemma WithinDrawn.trans {v : StateVector} (hv : ∀ c ∈ v, draw c)
    (h : WithinDrawn draw (b ⊔ ⟨v, ∅⟩) d) : WithinDrawn draw b d := by
  obtain ⟨v', hv', hle⟩ := h
  refine ⟨v ∪ v', fun c hc => ?_, ?_⟩
  · rcases Multiset.mem_union.1 hc with hc | hc
    · exact hv c hc
    · exact hv' c hc
  · rw [sup_assoc] at hle
    exact hle

lemma WithinDrawn.le {u : CrdtState} (h : WithinDrawn draw b d) (hu : u ≤ d)
    (hclients : ∀ c ∈ u.stateVector, ¬ draw c) : u ≤ b := by
  obtain ⟨v, hv, hle⟩ := h
  have hsup := hu.trans hle
  refine ⟨Multiset.le_iff_count.2 fun c => ?_, ?_⟩
  · by_cases hc : c ∈ u.stateVector
    · have hcount := Multiset.le_iff_count.1 hsup.1 c
      have hnot : v.count c = 0 := Multiset.count_eq_zero_of_notMem fun hcv =>
        hclients c hc (hv c hcv)
      change _ ≤ (b.stateVector ∪ v).count c at hcount
      rw [Multiset.count_union, hnot, Nat.max_zero] at hcount
      exact hcount
    · rw [Multiset.count_eq_zero_of_notMem hc]
      exact Nat.zero_le _
  · have hset := hsup.2
    change _ ≤ b.deleteSet ∪ ∅ at hset
    rwa [Finset.union_empty] at hset

/-! ## Merged entries -/

def NewDocBy (draw : ClientId → Prop) (entries : List (OplogEntry B)) (w : World B) (k : Key)
    (c : ClientId) : Prop :=
  draw c ∧ w.storage.documents k = none ∧ ∃ e ∈ entries, e.key = k

/-- From `w` to `w'` entries of `entries` were merged: the documents gained at most their
updates and, where none was stored, a new document with some of them; whatever became seen is
contained. -/
structure MergedPage (L : Lib B) (draw : ClientId → Prop) (entries : List (OplogEntry B))
    (w w' : World B) : Prop where
  service : w'.service = w.service
  oplog : w'.storage.oplog = w.storage.oplog
  grows : Grows L w w'
  within : ∀ k b, docState L w k ≤ b →
    (∀ e ∈ entries, e.key = k → Contained L w' e → ∀ u, L.decodeV1 e.yrsUpdate = .ok u → u ≤ b) →
    WithinDrawn (NewDocBy draw entries w k) b (docState L w' k)
  stored : ∀ k, w'.storage.documents k = w.storage.documents k ∨
    w'.storage.documents k ≠ none ∧ ∃ e ∈ entries, e.key = k ∧ Contained L w' e
  seen : ∀ id ∈ w'.client.dedup.seen,
    id ∈ w.client.dedup.seen ∨ ∃ e ∈ entries, e.id = id ∧ Contained L w' e

lemma MergedPage.refl (entries : List (OplogEntry B)) (w : World B) :
    MergedPage L draw entries w w :=
  ⟨rfl, rfl, fun _ => le_rfl, fun _ _ hle _ => .of_le hle, fun _ => .inl rfl, fun _ hid => .inl hid⟩

variable (es : Key → List (OplogEntry B))

lemma withinDrawn_of_write (hkeys : ∀ p ∈ docs, ∃ e ∈ entries, e.key = p.1)
    (hnd : (docs.map Prod.fst).Nodup)
    (h : ∀ p ∈ docs, MergedInto L draw p.1 (w.storage.documents p.1) (es p.1) p.2)
    (hle : docState L w k ≤ b) (hes : ∀ e ∈ es k, ∀ u, L.decodeV1 e.yrsUpdate = .ok u → u ≤ b) :
    WithinDrawn (NewDocBy draw entries w k) b
      (docState L (w.setStorage (w.storage.writeBatchReconciliation docs)) k) := by
  by_cases hk : k ∈ docs.map Prod.fst
  · obtain ⟨⟨k', bytes⟩, hp, rfl⟩ := mem_map.1 hk
    obtain ⟨base, d, hbase, hmerge, hbytes⟩ := h _ hp
    dsimp only at hbase hbytes hmerge hes hle ⊢
    rw [hbytes] at hp
    rw [docState_write_of_mem hnd hp]
    -- `b` bounds the updates, so the join is bounded once the base is
    have hjoin : ∀ b', b ≤ b' → base ≤ b' → d ≤ b' := by
      intro b' hb hbase'
      refine hmerge.2.2 ?_
      rintro u (rfl | ⟨e, he, hu⟩)
      · exact hbase'
      · exact (hes e he u hu).trans hb
    cases hdoc : w.storage.documents k' with
    | some stored =>
      rw [hdoc] at hbase
      rw [docState_of_some hdoc hbase] at hle
      exact .of_le (hjoin b le_rfl hle)
    | none =>
      rw [hdoc] at hbase
      obtain ⟨client, hdraw, rfl⟩ := hbase
      refine ⟨{client, client, client}, fun c hc => ?_, hjoin _ le_sup_left le_sup_right⟩
      have hc' : c = client := by simpa using hc
      rw [hc']
      exact ⟨hdraw, hdoc, hkeys _ hp⟩
  · rw [docState_write_of_notMem hk]
    exact .of_le hle

lemma mergedPage_of_write (hne : ∀ p ∈ docs, ∃ e, e ∈ es p.1) (hnd : (docs.map Prod.fst).Nodup)
    (h : ∀ p ∈ docs, MergedInto L draw p.1 (w.storage.documents p.1) (es p.1) p.2)
    (hes : ∀ k, ∀ e ∈ es k, e ∈ entries ∧ e.key = k) (hservice : w'.service = w.service)
    (hstorage : w'.storage = w.storage.writeBatchReconciliation docs)
    (hseen : ∀ id ∈ w'.client.dedup.seen, id ∈ w.client.dedup.seen ∨ ∃ e ∈ entries, e.id = id ∧ Contained L w' e) : MergedPage L draw entries w w' := by
  have hdocs : ∀ k, docState L w' k =
      docState L (w.setStorage (w.storage.writeBatchReconciliation docs)) k := by
    intro k
    rw [docState, hstorage, docState, setStorage_storage]
  have hcont : ∀ k ∈ docs.map Prod.fst, ∀ e ∈ es k, Contained L w' e := by
    intro k hk e he
    obtain ⟨-, rfl⟩ := hes k e he
    rw [Contained, hdocs]
    exact contained_write es hnd h hk he
  refine ⟨hservice, ?_, fun k => ?_, fun k b hle hall => ?_, fun k => ?_, hseen⟩
  · rw [hstorage]
    exact InMemoryStorage.writeBatchReconciliation_oplog docs
  · rw [hdocs]
    exact grows_write es hnd h k
  · rw [hdocs]
    by_cases hk : k ∈ docs.map Prod.fst
    · refine withinDrawn_of_write es (fun p hp => ?_) hnd h hle fun e he => ?_
      · obtain ⟨e, he⟩ := hne p hp
        exact ⟨e, hes p.1 e he⟩
      · exact hall e (hes k e he).1 (hes k e he).2 (hcont k hk e he)
    · rw [docState_write_of_notMem hk]
      exact .of_le hle
  · by_cases hk : k ∈ docs.map Prod.fst
    · obtain ⟨⟨k, bytes⟩, hp, rfl⟩ := mem_map.1 hk
      obtain ⟨e, he⟩ := hne _ hp
      refine .inr ⟨?_, e, (hes k e he).1, (hes k e he).2, hcont k hk e he⟩
      rw [hstorage, InMemoryStorage.writeBatchReconciliation_of_mem hnd hp]
      exact Option.some_ne_none bytes
    · rw [hstorage]
      exact .inl (InMemoryStorage.writeBatchReconciliation_of_notMem hk)

structure MergedAt (L : Lib B) (draw : ClientId → Prop) (entries : List (OplogEntry B)) (k : Key)
    (w w' : World B) : Prop where
  service : w'.service = w.service
  oplog : w'.storage.oplog = w.storage.oplog
  grows : docState L w k ≤ docState L w' k
  within : ∀ b, docState L w k ≤ b →
    (∀ e ∈ entries, e.key = k → Contained L w' e → ∀ u, L.decodeV1 e.yrsUpdate = .ok u → u ≤ b) →
    WithinDrawn (NewDocBy draw entries w k) b (docState L w' k)
  stored : w'.storage.documents k = w.storage.documents k ∨
    w'.storage.documents k ≠ none ∧ ∃ e ∈ entries, e.key = k ∧ Contained L w' e
  seen : ∀ id ∈ w'.client.dedup.seen,
    id ∈ w.client.dedup.seen ∨ ∃ e ∈ entries, e.id = id ∧ (e.key = k → Contained L w' e)

lemma MergedPage.at (h : MergedPage L draw entries w w')
    (k : Key) : MergedAt L draw entries k w w' where
  service := h.service
  oplog := h.oplog
  grows := h.grows k
  within := h.within k
  stored := h.stored k
  seen id hid := (h.seen id hid).imp_right fun ⟨e, he, heid, hc⟩ => ⟨e, he, heid, fun _ => hc⟩

lemma MergedAt.congr (h : MergedAt L draw entries k w w') (hservice : w''.service = w'.service)
    (hstorage : w''.storage = w'.storage) (hdedup : w''.client.dedup = w'.client.dedup) :
    MergedAt L draw entries k w w'' := by
  have hdocs : ∀ k, docState L w'' k = docState L w' k := fun k => by
    rw [docState, hstorage, docState]
  have hcont : ∀ e, Contained L w'' e ↔ Contained L w' e := fun e => by
    rw [Contained, hdocs, Contained]
  refine ⟨hservice.trans h.service, by rw [hstorage, h.oplog], ?_, ?_, ?_, ?_⟩
  · rw [hdocs]
    exact h.grows
  · simpa only [hdocs, hcont] using h.within
  · rw [hstorage]
    simpa only [hcont] using h.stored
  · rw [hdedup]
    simpa only [hcont] using h.seen

lemma MergedPage.congr (h : MergedPage L draw entries w w') (hservice : w''.service = w'.service)
    (hstorage : w''.storage = w'.storage) (hdedup : w''.client.dedup = w'.client.dedup) :
    MergedPage L draw entries w w'' := by
  have hat := fun k => (h.at k).congr hservice hstorage hdedup
  refine ⟨hservice.trans h.service, by rw [hstorage, h.oplog], fun k => (hat k).grows,
    fun k => (hat k).within, fun k => (hat k).stored, fun id hid => ?_⟩
  rw [hdedup] at hid
  simpa only [Contained, docState, hstorage] using h.seen id hid

lemma MergedAt.bound (h : MergedAt L draw entries k w w') : ∃ us : List CrdtState,
    (∀ u ∈ us, ∃ e ∈ entries, e.key = k ∧ L.decodeV1 e.yrsUpdate = .ok u ∧
      u ≤ docState L w' k) ∧
    WithinDrawn (NewDocBy draw entries w k) (docState L w k ⊔ CrdtState.joinAll us)
      (docState L w' k) := by
  let updates := ((entries.filter fun e => e.key = k).filterMap fun e =>
    (L.decodeV1 e.yrsUpdate).toOption).filter fun u => u ≤ docState L w' k
  refine ⟨updates, fun u hu => ?_, h.within _ le_sup_left fun e he hkey hcont u hu => ?_⟩
  · obtain ⟨hu, hule⟩ := mem_filter.1 hu
    obtain ⟨e, he, hdec⟩ := mem_filterMap.1 hu
    obtain ⟨hmem, hkey⟩ := mem_filter.1 he
    cases hd : L.decodeV1 e.yrsUpdate with
    | error err => rw [hd] at hdec; cases hdec
    | ok u' =>
      rw [hd] at hdec
      cases hdec
      exact ⟨e, hmem, by simpa using hkey, hd, decide_eq_true_iff.1 hule⟩
  · refine (CrdtState.le_joinAll (mem_filter.2 ⟨?_, ?_⟩)).trans le_sup_right
    · exact mem_filterMap.2 ⟨e, mem_filter.2 ⟨he, by simpa using hkey⟩, by rw [hu]; rfl⟩
    · obtain ⟨u', hu', hule⟩ := hcont
      cases hu.symm.trans hu'
      rw [hkey] at hule
      exact decide_eq_true hule

variable [DecidableEq B]

lemma wp_mergePulled :
    wp (machine n A) (fun r w' => MergedPage L (Drawn A) entries w w' ∧
      w'.lastSequence = w.lastSequence ∧
      (r = .ok () → ∀ e ∈ entries, e.id ∈ w.client.dedup.seen ∨ Contained L w' e))
      (mergePulled L entries) w := by
  rw [mergePulled, wp_ite]
  refine ⟨fun hnil => ?_, fun _ => ?_⟩
  · rw [isEmpty_iff.1 hnil]
    exact ⟨.refl _ w, rfl, by simp⟩
  let es : Key → List (OplogEntry B) := fun k =>
    (unseen w.client.dedup.seen entries).filter fun e => e.key = k
  refine wp_applyBatch (fun hnil => ?_) (fun r err => ?_) fun r updated states hnd hmem hall => ?_
  · refine ⟨(MergedPage.refl _ w).congr rfl rfl rfl, rfl, fun _ e he => .inl ?_⟩
    by_contra hnew
    have hmem : e ∈ unseen w.client.dedup.seen entries :=
      mem_filter.2 ⟨he, by simpa using hnew⟩
    rw [hnil] at hmem
    cases hmem
  · exact ⟨(MergedPage.refl _ w).congr rfl rfl rfl, rfl, fun h => by cases h⟩
  · have hcont : ∀ e ∈ unseen w.client.dedup.seen entries,
        Contained L (w.setStorage (w.storage.writeBatchReconciliation updated)) e := by
      intro e he
      refine contained_write es hnd hall ((hmem e.key).2 ⟨e, he, rfl⟩) ?_
      exact mem_filter.2 ⟨he, by simp⟩
    refine ⟨mergedPage_of_write es (fun p hp => ?_) hnd hall (fun k e he => ?_) rfl rfl
      fun id hid => ?_, rfl, fun _ e he => ?_⟩
    · obtain ⟨e, he, hkey⟩ := (hmem p.1).1 (mem_map_of_mem hp)
      exact ⟨e, mem_filter.2 ⟨he, by simpa using hkey⟩⟩
    · obtain ⟨hnew, hkey⟩ := mem_filter.1 he
      exact ⟨mem_of_mem_filter hnew, by simpa using hkey⟩
    · rcases DedupCache.mem_seen_foldl_mark hid with hid | hid
      · obtain ⟨e, he, rfl⟩ := mem_map.1 hid
        exact .inr ⟨e, mem_of_mem_filter he, rfl, hcont e he⟩
      · exact .inl hid
    · by_cases hold : e.id ∈ w.client.dedup.seen
      · exact .inl hold
      · exact .inr (hcont e (mem_filter.2 ⟨he, by simpa using hold⟩))

omit [DecidableEq B] in
@[simp] lemma afterReplay_dedup (c : Client B) : (afterReplay c).dedup = c.dedup := by
  unfold afterReplay
  split_ifs <;> rfl

lemma wp_processBatch_merged {Q : Except VaultSyncError ℕ → World B → Prop}
    (hsnap : NoSnapshots cfg w) (herr : ∀ err, Q (.error err) w)
    (hna : ∀ ns after limit e, A (.pull ns after limit) e w →
      e.coordinatorFault = some .notAvailable → Q (.ok 0) w)
    (hfail : ∀ entries err w', pulledEntries L cfg (pageAt cfg w) = .ok entries →
      MergedPage L (Drawn A) entries w w' → w'.lastSequence = w.lastSequence → Q (.error err) w')
    (hdone : ∀ entries w', pulledEntries L cfg (pageAt cfg w) = .ok entries →
      MergedPage L (Drawn A) entries w w' →
      (∀ e ∈ entries, e.id ∈ w.client.dedup.seen ∨ Contained L w' e) →
      w'.lastSequence = cursor PendingMutation.sequence w.lastSequence (pageAt cfg w) →
      Q (.ok (pageAt cfg w).length) w') : wp (machine n A) Q (processBatch L cfg) w := by
  refine wp_processBatch hsnap herr hna fun entries hentries => ?_
  rw [wp_bind]
  refine wp_mergePulled.mono fun r w1 ⟨hm, hlast, hall⟩ => ?_
  cases r with
  | error err => exact hfail entries err w1 hentries hm hlast
  | ok _ =>
    refine wp_endReplay (wp_advanceCursor ?_ fun _ _ err _ _ => ?_)
    · by_cases hnil : pageAt cfg w = []
      · rw [if_pos hnil]
        refine hdone entries _ hentries (hm.congr rfl rfl (afterReplay_dedup _)) (hall rfl) ?_
        rw [hnil, cursor_nil]
        exact hlast
      · rw [if_neg hnil]
        refine hdone entries _ hentries (hm.congr rfl rfl (afterReplay_dedup _)) (hall rfl) ?_
        rw [setLastSequence_lastSequence, setClient_lastSequence, hlast]
    · exact hfail entries err _ hentries (hm.congr rfl rfl (afterReplay_dedup _)) hlast

/-! ## Pushed mutations -/

omit [DecidableEq B] in
lemma mergedAt_of_store {bytes : B}
    (hmerged : entry.key = k → MergedInto L draw k (w.storage.documents k) [entry] bytes)
    (hservice : w'.service = w.service)
    (hstorage : w'.storage = w.storage.insertDocument entry.key bytes)
    (hdedup : w'.client.dedup = w.client.dedup.mark entry.id) :
    MergedAt L draw [entry] k w w' ∧ (entry.key = k → Contained L w' entry) := by
  have hseen : ∀ id ∈ w'.client.dedup.seen, id = entry.id ∨ id ∈ w.client.dedup.seen := by
    intro id hid
    rw [hdedup] at hid
    exact DedupCache.mem_seen_mark hid
  by_cases hk : entry.key = k
  · subst hk
    have hall : ∀ p ∈ [(entry.key, bytes)], MergedInto L draw p.1
        (w.storage.documents p.1) (if entry.key = p.1 then [entry] else []) p.2 := by
      intro p hp
      rw [mem_singleton.1 hp, if_pos rfl]
      exact hmerged rfl
    have hnd : ([(entry.key, bytes)].map Prod.fst).Nodup := nodup_singleton _
    have hcont : Contained L w' entry := by
      rw [Contained, docState, hstorage]
      exact contained_write (fun k => if entry.key = k then [entry] else []) hnd hall
        mem_cons_self (by simp)
    refine ⟨MergedPage.at (mergedPage_of_write (fun k => if entry.key = k then [entry] else [])
      ?_ hnd hall ?_ hservice hstorage fun id hid => ?_) _, fun _ => hcont⟩
    · intro p hp
      rw [mem_singleton.1 hp, if_pos rfl]
      exact ⟨entry, mem_cons_self⟩
    · intro k e he
      split_ifs at he with hk
      · rw [mem_singleton.1 he]
        exact ⟨mem_cons_self, hk⟩
      · cases he
    · rcases hseen id hid with rfl | hold
      · exact .inr ⟨entry, mem_cons_self, rfl, hcont⟩
      · exact .inl hold
  · have hdoc : w'.storage.documents k = w.storage.documents k := by
      rw [hstorage]
      exact Function.update_of_ne (Ne.symm hk) _ _
    have hstate : docState L w' k = docState L w k := by rw [docState, hdoc, docState]
    refine ⟨⟨hservice, by rw [hstorage]; rfl, hstate.ge, fun b hle _ => .of_le (hstate.le.trans hle),
      .inl hdoc, fun id hid => ?_⟩, fun hkey => absurd hkey hk⟩
    rcases hseen id hid with rfl | hold
    · exact .inr ⟨entry, mem_cons_self, rfl, fun hkey => absurd hkey hk⟩
    · exact .inl hold

lemma wp_applyRemoteUpdate_at
    (hcov : entry.key = k → ∀ base, BaseState L (Drawn A) k (w.storage.documents k) base →
      ∀ u, L.decodeV1 entry.yrsUpdate = .ok u → u.stateVector ≤ base.stateVector → u ≤ base) :
    wp (machine n A) (fun r w' => MergedAt L (Drawn A) [entry] k w w' ∧
      w'.lastSequence = w.lastSequence ∧ (r = .ok () → entry.key = k →
        entry.id ∈ w.client.dedup.seen ∨ Contained L w' entry)) (applyRemoteUpdate L entry) w := by
  have hrefl : MergedAt L (Drawn A) [entry] k w w := (MergedPage.refl _ w).at k
  refine wp_applyRemoteUpdate (fun hseen => ⟨hrefl, rfl, fun _ _ => .inl hseen⟩)
    (fun _ _ => ⟨hrefl.congr rfl rfl rfl, rfl, nofun⟩)
    fun base u w' _ hb hu hservice hlast hstorage hdedup => ?_
  -- in both cases what is stored is the join of what was read with the update
  have hmerged : entry.key = k → MergedInto L (Drawn A) k (w.storage.documents k) [entry]
      (L.encodeV1 (if u.stateVector ≤ base.stateVector then base else base ⊔ u)) := by
    rintro rfl
    have hmerge := mergeOf_singleton base hu
    refine ⟨base, _, hb, ?_, rfl⟩
    split_ifs with hle
    · rwa [sup_eq_left.2 (hcov rfl base hb u hu hle)] at hmerge
    · exact hmerge
  obtain ⟨hm, hcont⟩ := mergedAt_of_store hmerged hservice hstorage hdedup
  exact ⟨hm, hlast, fun _ hkey => .inr (hcont hkey)⟩

lemma wp_processPushMutation (hbase : m.key = k → ∀ e, EntryOf L cfg m e → ∀ base,
      BaseState L (Drawn A) k (w.storage.documents k) base → ∀ u, L.decodeV1 e.yrsUpdate = .ok u →
        u.stateVector ≤ base.stateVector → u ≤ base) :
    wp (machine n A) (fun r w' =>
      (∃ entries, (∀ e ∈ entries, EntryOf L cfg m e ∧ m.replicaId ≠ cfg.replicaId ∧
          w.lastSequence < m.sequence) ∧
        MergedAt L (Drawn A) entries k w w') ∧
      w.lastSequence ≤ w'.lastSequence ∧
      (∀ o, r = .ok o → m.replicaId = cfg.replicaId ∨ m.sequence ≤ w.lastSequence ∨
        (m.key = k → m.id ∈ w.client.dedup.seen ∨ Merged L cfg w' m)))
      (processPushMutation L cfg m) w := by
  have hnone : ∀ w' : World B, w'.service = w.service → w'.storage = w.storage →
      w'.client.dedup = w.client.dedup → ∃ entries, (∀ e ∈ entries, EntryOf L cfg m e ∧
        m.replicaId ≠ cfg.replicaId ∧ w.lastSequence < m.sequence) ∧
        MergedAt L (Drawn A) entries k w w' := fun w' hservice hstorage hdedup =>
    ⟨[], by simp, ((MergedPage.refl _ w).at k).congr hservice hstorage hdedup⟩
  rw [processPushMutation, wp_ite]
  refine ⟨fun hown => ?_, fun hforeign => ?_⟩
  · rw [pushOwn, wp_loadLastSequence]
    intro _ _
    rw [wp_ite]
    refine ⟨fun hlt => ?_, fun _ => ⟨hnone w rfl rfl rfl, le_rfl, fun _ _ => .inl hown⟩⟩
    rw [wp_setCursor]
    refine fun _ _ => ⟨fun err _ => ⟨hnone w rfl rfl rfl, le_rfl, nofun⟩, fun _ => ?_⟩
    rw [wp_swapLastSequence]
    exact fun _ _ => ⟨hnone _ rfl rfl rfl, hlt.le, fun _ _ => .inl hown⟩
  rw [wp_ofExcept_bind]
  refine ⟨fun decrypted hdec => ?_, fun err _ => ⟨hnone w rfl rfl rfl, le_rfl, nofun⟩⟩
  rw [wp_loadLastSequence]
  intro _ _
  rw [wp_ite]
  refine ⟨fun hstale => ?_, fun hnew => ?_⟩
  · rw [wp_modify_bind]
    exact ⟨hnone _ rfl rfl rfl, le_rfl, fun _ _ => .inr (.inl hstale)⟩
  have hof : EntryOf L cfg m (remoteEntry L m decrypted .pushMutation) := ⟨rfl, rfl, hdec⟩
  rw [pushForeign, wp_bind]
  refine (wp_applyRemoteUpdate_at fun hkey base hb =>
    hbase (hof.key.symm.trans hkey) _ hof base hb).mono ?_
  rintro r w1 ⟨hm, hlast, hok⟩
  have hmerged : ∀ w' : World B, w'.service = w1.service → w'.storage = w1.storage →
      w'.client.dedup = w1.client.dedup → ∃ entries, (∀ e ∈ entries, EntryOf L cfg m e ∧
        m.replicaId ≠ cfg.replicaId ∧ w.lastSequence < m.sequence) ∧
        MergedAt L (Drawn A) entries k w w' := by
    refine fun w' hservice hstorage hdedup => ⟨_, fun e he => ?_, hm.congr hservice hstorage hdedup⟩
    rw [mem_singleton.1 he]
    exact ⟨hof, hforeign, not_le.1 hnew⟩
  cases r with
  | error err => exact ⟨hmerged w1 rfl rfl rfl, hlast.ge, nofun⟩
  | ok _ =>
    dsimp only
    rw [noteReplayed, wp_modify_bind, wp_setCursor]
    have hdedup : ∀ c : Client B, (if c.replayMode then
        { c with replayChangedDocs := c.replayChangedDocs.insert m.key } else c).dedup = c.dedup := by
      intro c
      split_ifs <;> rfl
    refine fun _ _ => ⟨fun err _ => ⟨hmerged _ rfl rfl (hdedup _), hlast.ge, nofun⟩, fun _ => ?_⟩
    rw [wp_swapLastSequence]
    intro _ _
    rw [wp_modify_bind]
    refine ⟨hmerged _ rfl rfl (hdedup _), (not_le.1 hnew).le, fun _ _ => .inr (.inr fun hkey => ?_)⟩
    exact (hok rfl (hof.key.trans hkey)).imp_right hof.merged_iff.2

end VaultSync.DownloadQueue
