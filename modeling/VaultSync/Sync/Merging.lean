import VaultSync.Sync.ReconcilerBatch
import VaultSync.Sync.SafeRules

/-! Merging beside other calls. When every write finds the documents as its call last read
them, the stored states only grow, and what was merged stays merged. -/

namespace VaultSync

open Async AsyncFn World List

variable {B : Type} {L : Lib B} {w w' : World B} {k : Key}

/-! ## Stored states -/

def storedState (L : Lib B) : Option B → CrdtState
  | some bytes => (L.decodeV1 bytes).toOption.getD ⊥
  | none => ⊥

variable {bytes : B} {d base u : CrdtState} {e entry : OplogEntry B} {draw : ClientId → Prop}
  {docs : List (Key × B)} {existing : Option B}

lemma storedState_some (h : L.decodeV1 bytes = .ok d) : storedState L (some bytes) = d := by
  rw [storedState, h]
  rfl

def docState (L : Lib B) (w : World B) (k : Key) : CrdtState :=
  storedState L (w.storage.documents k)

def Grows (L : Lib B) (w w' : World B) : Prop := ∀ k, docState L w k ≤ docState L w' k

def Contained (L : Lib B) (w : World B) (e : OplogEntry B) : Prop :=
  ∃ u, L.decodeV1 e.yrsUpdate = .ok u ∧ u ≤ docState L w e.key

lemma Grows.trans {w'' : World B} (h : Grows L w w') (h' : Grows L w' w'') : Grows L w w'' :=
  fun k => (h k).trans (h' k)

lemma grows_of_documents (h : w'.storage.documents = w.storage.documents) : Grows L w w' := by
  intro k
  rw [docState, docState, h]

lemma Contained.mono (h : Contained L w e) (hg : Grows L w w') : Contained L w' e := by
  obtain ⟨u, hu, hle⟩ := h
  exact ⟨u, hu, hle.trans (hg e.key)⟩

lemma docState_of_some (h : w.storage.documents k = some bytes)
    (hd : L.decodeV1 bytes = .ok d) : docState L w k = d := by
  rw [docState, h, storedState_some hd]

lemma docState_le_base
    (h : BaseState L draw k (w.storage.documents k) base) : docState L w k ≤ base := by
  cases hdoc : w.storage.documents k with
  | none =>
    rw [docState, hdoc]
    exact bot_le
  | some bytes =>
    rw [hdoc] at h
    exact (docState_of_some hdoc h).le

lemma docState_write_of_mem (hnd : (docs.map Prod.fst).Nodup) (h : (k, L.encodeV1 d) ∈ docs) :
    docState L (w.setStorage (w.storage.writeBatchReconciliation docs)) k = d := by
  refine docState_of_some ?_ (L.decode_encode d)
  exact InMemoryStorage.writeBatchReconciliation_of_mem hnd h

lemma docState_write_of_notMem (h : k ∉ docs.map Prod.fst) :
    docState L (w.setStorage (w.storage.writeBatchReconciliation docs)) k = docState L w k := by
  unfold docState
  rw [setStorage_storage, InMemoryStorage.writeBatchReconciliation_of_notMem h]

section

variable (es : Key → List (OplogEntry B)) (hnd : (docs.map Prod.fst).Nodup)
  (h : ∀ p ∈ docs, MergedInto L draw p.1 (w.storage.documents p.1) (es p.1) p.2)

include es hnd h

lemma grows_write : Grows L w (w.setStorage (w.storage.writeBatchReconciliation docs)) := by
  intro k
  by_cases hk : k ∈ docs.map Prod.fst
  · obtain ⟨⟨k', bytes⟩, hp, rfl⟩ := mem_map.1 hk
    obtain ⟨base, d, hbase, hmerge, hbytes⟩ := h _ hp
    dsimp only at hbase hbytes ⊢
    rw [hbytes] at hp
    rw [docState_write_of_mem hnd hp]
    exact (docState_le_base hbase).trans (hmerge.2.1 (Set.mem_insert _ _))
  · rw [docState_write_of_notMem hk]

lemma contained_write (hkey : e.key ∈ docs.map Prod.fst) (he : e ∈ es e.key) :
    Contained L (w.setStorage (w.storage.writeBatchReconciliation docs)) e := by
  obtain ⟨⟨k', bytes⟩, hp, hk'⟩ := mem_map.1 hkey
  dsimp only at hk'
  subst hk'
  obtain ⟨base, d, -, hmerge, hbytes⟩ := h _ hp
  dsimp only at hbytes hmerge
  rw [hbytes] at hp
  obtain ⟨u, hu⟩ := hmerge.1 e he
  refine ⟨u, hu, ?_⟩
  rw [docState_write_of_mem hnd hp]
  exact hmerge.2.1 (Set.mem_insert_of_mem _ ⟨e, he, hu⟩)

end

/-! ## Protocols under which a call may merge -/

/-- Under the protocol `P` call `n` may merge the entries of `source`: nobody else changes what
it read, nobody undoes what is stored; it may read, write documents that grow, and mark entries
once they are contained; and `A` lets it write only what it merged from the present state. -/
structure Merging (L : Lib B) (n : ℕ) (A : Call B → Env B → World B → Prop)
    (P : Protocol (World B)) (source : World B → OplogEntry B → Prop) : Prop where
  reads : ∀ {w w'}, P.rely w w' → w'.reads n = w.reads n
  grows : ∀ {w w'}, P.rely w w' ∨ P.guar w w' → Grows L w w'
  source_stable : ∀ {w w' e}, P.rely w w' ∨ P.guar w w' → source w e → source w' e
  read : ∀ {w} k, P.inv w → P.inv (w.recordRead n k) ∧ P.guar w (w.recordRead n k)
  write : ∀ {w} docs, P.inv w →
    Grows L w (w.setStorage (w.storage.writeBatchReconciliation docs)) →
    P.inv (w.setStorage (w.storage.writeBatchReconciliation docs)) ∧
      P.guar w (w.setStorage (w.storage.writeBatchReconciliation docs))
  memory : ∀ {w c} (es : List (OplogEntry B)), P.inv w → (∀ e ∈ es, source w e ∧ Contained L w e) →
    c.dedup = (es.map OplogEntry.id).foldl DedupCache.mark w.client.dedup →
    P.inv (w.setClient c) ∧ P.guar w (w.setClient c)
  fresh : ∀ {w e docs}, A (.writeBatchReconciliation docs) e w →
    ∀ p ∈ docs, w.storage.documents p.1 = w.reads n p.1
  fresh_insert : ∀ {w e k b}, A (.insertDocument k b) e w → w.storage.documents k = w.reads n k

variable {n : ℕ} {A : Call B → Env B → World B → Prop} {P : Protocol (World B)}
  {source : World B → OplogEntry B → Prop} {β : Type} {Q : Except VaultSyncError β → World B → Prop}

lemma safe_loadOrNew {f : CRDTDocument → AsyncFn B β}
    (herr : ∀ err w', P.inv w' → P.rely w w' → Q (.error err) w')
    (hok : ∀ doc w' e, P.inv w' → P.rely w w' → A .newClientId e w' →
      BaseState L (· = e.clientId) k existing doc.state → Safe (machine n A) P Q (f doc) w') :
    Safe (machine n A) P Q (loadOrNew L k existing >>= f) w := by
  refine safe_query (fun _ _ => rfl) fun w' e hi hr he => ?_
  cases existing with
  | none => exact hok _ w' e hi hr he ⟨e.clientId, rfl, rfl⟩
  | some bytes =>
    refine safe_ofExcept_bind (fun doc hdoc => ?_) fun err u _ hu hru => ?_
    · exact hok doc w' e hi hr he (CRDTDocument.fromSnapshot_ok hdoc).1
    · exact herr err u hu (P.rely_trans hr hru)

/-- The update passes the redundancy test only where it is contained. -/
def Recognised (L : Lib B) (w : World B) (e : OplogEntry B) : Prop :=
  ∀ u, L.decodeV1 e.yrsUpdate = .ok u →
    u.stateVector ≤ (docState L w e.key).stateVector → u ≤ docState L w e.key

lemma base_of_recognised {client : ClientId}
    (h : Recognised L w e) (hu : L.decodeV1 e.yrsUpdate = .ok u) (hclient : client ∉ u.stateVector)
    (hbase : BaseState L (· = client) e.key (w.storage.documents e.key) base)
    (hcov : u.stateVector ≤ base.stateVector) : u ≤ base := by
  cases hdoc : w.storage.documents e.key with
  | some bytes =>
    rw [hdoc] at hbase
    have hstate := docState_of_some hdoc hbase
    rw [← hstate] at hcov ⊢
    exact h u hu hcov
  | none =>
    -- a new document has clocks of its own client only, so the update has none
    rw [hdoc] at hbase
    obtain ⟨_, rfl, rfl⟩ := hbase
    have hzero : u.stateVector = 0 := by
      refine Multiset.eq_zero_of_forall_notMem fun c hc => ?_
      have hmem := Multiset.mem_of_le hcov hc
      simp only [CRDTDocument.new, Multiset.insert_eq_cons, Multiset.mem_cons,
        Multiset.mem_singleton, or_self] at hmem
      exact hclient (hmem ▸ hc)
    refine (h u hu ?_).trans ?_
    · rw [hzero]
      exact Multiset.zero_le _
    · rw [docState, hdoc]
      exact bot_le

lemma mergeOf_singleton (base : CrdtState)
    (hu : L.decodeV1 e.yrsUpdate = .ok u) : MergeOf L base [e] (base ⊔ u) := by
  refine ⟨by simp [hu], ?_⟩
  have hset : updatesOf L [e] = {u} := by
    rw [updatesOf_cons_ok hu]
    simp [updatesOf]
  rw [hset]
  exact isLUB_pair

lemma BaseState.mono {draw' : ClientId → Prop} (h : BaseState L draw k existing base)
    (hdraw : ∀ c, draw c → draw' c) : BaseState L draw' k existing base := by
  cases existing with
  | some bytes => exact h
  | none =>
    obtain ⟨c, hc, hbase⟩ := h
    exact ⟨c, hdraw c hc, hbase⟩

variable [DecidableEq B] (H : Merging L n A P source)

include H

lemma safe_storeMerged {doc : CRDTDocument} (hsrc : source w entry)
    (hreads : w.reads n entry.key = existing)
    (hmerged : MergedInto L (fun _ => True) entry.key existing [entry] (doc.toSnapshot L)) :
    Safe (machine n A) P (fun r w' => r = .ok () → Contained L w' entry)
      (storeMerged L entry existing doc) w := by
  refine safe_call fun w1 e1 hi1 hr1 he1 => safe_onStorage hi1 (fun _ _ _ _ _ => nofun) fun _ => ?_
  have hdocs : w1.storage.documents entry.key = existing := by
    rw [H.fresh_insert he1, H.reads hr1, hreads]
  have hall : ∀ p ∈ [(entry.key, doc.toSnapshot L)], MergedInto L (fun _ => True) p.1
      (w1.storage.documents p.1) [entry] p.2 := by
    intro p hp
    rw [mem_singleton.1 hp, hdocs]
    exact hmerged
  have hnd : ([(entry.key, doc.toSnapshot L)].map Prod.fst).Nodup := nodup_singleton _
  obtain ⟨hi2, hg2⟩ := H.write _ hi1 (grows_write (fun _ => [entry]) hnd hall)
  have hcont := contained_write (fun _ => [entry]) hnd hall mem_cons_self mem_cons_self
  refine ⟨hi2, hg2, safe_modify_bind fun w3 hi3 hr3 => ?_⟩
  have hsrc3 := H.source_stable (.inl hr3)
    (H.source_stable (.inr hg2) (H.source_stable (.inl hr1) hsrc))
  have hcont3 := hcont.mono (H.grows (.inl hr3))
  have hmark : ∀ e ∈ [entry], source w3 e ∧ Contained L w3 e := by
    intro e he
    rw [mem_singleton.1 he]
    exact ⟨hsrc3, hcont3⟩
  obtain ⟨hi4, hg4⟩ := H.memory (c := { w3.client with dedup := w3.client.dedup.mark entry.id })
    [entry] hi3 hmark rfl
  -- the rest undoes nothing
  have hstable u u' hu (h : Contained L u entry) : Contained L u' entry := h.mono (H.grows hu)
  refine ⟨hi4, hg4, Safe.mono (Safe.frame (Q := fun _ _ => True) hstable ?_
    (hcont3.mono (H.grows (.inr hg4)))) fun _ _ _ h _ => h.2⟩
  refine safe_ite (fun _ => safe_read fun w5 _ _ => ?_) fun _ => safe_done
  refine safe_ite (fun _ => safe_done) fun _ => safe_modify fun w6 hi6 _ => ?_
  obtain ⟨hi7, hg7⟩ := H.memory (c := { w6.client with
    fired := w6.client.fired ++ [(.reconcilerPush, entry.key, doc.state)] }) [] hi6 (by simp) rfl
  exact ⟨hi7, hg7, fun _ _ _ => trivial⟩

lemma safe_applyRemoteUpdate (hsrc : source w entry)
    (hseen : ∀ w', P.inv w' → source w' entry → entry.id ∈ w'.client.dedup.seen →
      Contained L w' entry)
    (hread : ∀ w' e, P.inv w' → source w' entry → A (.getDocument entry.key) e w' →
      Recognised L w' entry) (hdraw : ∀ w' e u, P.inv w' → source w' entry → A .newClientId e w' →
      L.decodeV1 entry.yrsUpdate = .ok u → e.clientId ∉ u.stateVector) :
    Safe (machine n A) P (fun r w' => r = .ok () → Contained L w' entry)
      (applyRemoteUpdate L entry) w := by
  refine safe_read fun w1 hi1 hr1 => ?_
  have hsrc1 := H.source_stable (.inl hr1) hsrc
  refine safe_ite (fun hmem => ?_) fun _ => ?_
  · refine safe_pure fun w' _ hr _ => ?_
    exact (hseen w1 hi1 hsrc1 hmem).mono (H.grows (.inl hr))
  refine safe_getDocument (fun _ _ _ _ => nofun) fun w2 e2 hi2 hr2 he2 => ?_
  have hsrc2 := H.source_stable (.inl hr2) hsrc1
  obtain ⟨hi3, hg3⟩ := H.read entry.key hi2
  have hsrc3 := H.source_stable (.inr hg3) hsrc2
  have hrec := hread w2 e2 hi2 hsrc2 he2
  refine ⟨hi3, hg3, ?_⟩
  refine safe_loadOrNew (fun _ _ _ _ => nofun) fun doc w4 e4 hi4 hr4 he4 hbase => ?_
  have hsrc4 := H.source_stable (.inl hr4) hsrc3
  have hreads : w4.reads n entry.key = w2.storage.documents entry.key := by
    rw [H.reads hr4, recordRead_reads_self]
  have hbase' : BaseState L (fun _ => True) entry.key (w2.storage.documents entry.key) doc.state :=
    hbase.mono fun _ _ => trivial
  refine safe_ite (fun hred => ?_) fun _ => ?_
  · -- redundant: the document is written back as it was read
    unfold redundant at hred
    cases hu : L.decodeV1 entry.yrsUpdate with
    | error err => simp [hu] at hred
    | ok u =>
      simp only [hu] at hred
      have hle : u ≤ doc.state :=
        base_of_recognised hrec hu (hdraw w4 e4 u hi4 hsrc4 he4 hu) hbase (CrdtState.covers_iff.1 hred)
      have hmerge := mergeOf_singleton doc.state hu
      rw [sup_eq_left.2 hle] at hmerge
      exact safe_storeMerged H hsrc4 hreads ⟨doc.state, doc.state, hbase', hmerge, rfl⟩
  · refine safe_ofExcept_bind (fun doc' hdoc' => ?_) fun _ _ _ _ _ => nofun
    obtain ⟨u, hu, rfl⟩ := CRDTDocument.applyUpdate_ok hdoc'
    exact safe_storeMerged H hsrc4 hreads
      ⟨doc.state, doc.state ⊔ u, hbase', mergeOf_singleton doc.state hu, rfl⟩

/-! ## Batches -/

lemma safe_mergeDocs {groups : List (Key × List (OplogEntry B))} {ks : List Key} (hnd : ks.Nodup) :
    Safe (machine n A) P (fun r w' => ∀ updated states, r = .ok (updated, states) →
      updated.map Prod.fst = ks ∧
      (∀ p ∈ updated, MergedInto L (fun _ => True) p.1 (w'.reads n p.1)
        ((groups.lookup p.1).getD []) p.2) ∧
      ∀ k ∉ ks, w'.reads n k = w.reads n k) (mergeDocs L groups ks) w := by
  induction ks generalizing w with
  | nil =>
    refine safe_pure fun w' _ hr updated states h => ?_
    cases h
    exact ⟨rfl, by simp, fun k _ => by rw [H.reads hr]⟩
  | cons k ks ih =>
    rw [nodup_cons] at hnd
    refine safe_getDocument (fun _ _ _ _ => nofun) fun w1 e1 hi1 hr1 _ => ?_
    obtain ⟨hi2, hg2⟩ := H.read k hi1
    refine ⟨hi2, hg2, ?_⟩
    refine safe_loadOrNew (fun _ _ _ _ => nofun) fun doc w3 e3 hi3 hr3 _ hbase => ?_
    refine safe_ofExcept_bind (fun doc' hdoc' => ?_) fun _ _ _ _ _ => nofun
    refine Safe.bind hi3 (ih hnd.2) (fun r w4 hi4 hpost => ?_) fun _ _ _ _ => nofun
    obtain ⟨updated, states⟩ := r
    obtain ⟨hkeys, hall, hother⟩ := hpost updated states rfl
    -- the rest of the loop reads other documents
    have hk : w4.reads n k = w1.storage.documents k := by
      rw [hother k hnd.1, H.reads hr3, recordRead_reads_self]
    refine safe_pure fun w' _ hr updated' states' h => ?_
    cases h
    refine ⟨by rw [map_cons, hkeys], forall_mem_cons.2 ⟨?_, fun p hp => ?_⟩, ?_⟩
    · dsimp only
      rw [H.reads hr, hk]
      exact ⟨doc.state, doc'.state, hbase.mono fun _ _ => trivial, applyUpdates_ok hdoc', rfl⟩
    · rw [H.reads hr]
      exact hall p hp
    · intro k' hk'
      rw [mem_cons, not_or] at hk'
      rw [H.reads hr, hother k' hk'.2, H.reads hr3, recordRead, H.reads hr1]
      simp [hk'.1]

lemma safe_applyBatch {entries : List (OplogEntry B)}
    (hsrc : ∀ e ∈ entries, source w e)
    (hseen : ∀ w', P.inv w' → ∀ e ∈ entries, source w' e → e.id ∈ w'.client.dedup.seen →
      Contained L w' e) :
    Safe (machine n A) P (fun r w' => r = .ok () → ∀ e ∈ entries, Contained L w' e)
      (applyBatch L entries) w := by
  refine safe_modify_bind fun w1 hi1 hr1 => ?_
  obtain ⟨hi2, hg2⟩ := H.memory (c := w1.client.logBatch entries) [] hi1 (by simp) rfl
  have hsrc2 : ∀ e ∈ entries, source (w1.setClient (w1.client.logBatch entries)) e :=
    fun e he => H.source_stable (.inr hg2) (H.source_stable (.inl hr1) (hsrc e he))
  refine ⟨hi2, hg2, safe_ite (fun hempty => ?_) fun _ => ?_⟩
  · refine safe_pure fun w' _ _ _ e he => ?_
    rw [isEmpty_iff.1 hempty] at he
    cases he
  refine safe_read fun w3 hi3 hr3 => ?_
  set seen := w3.client.dedup.seen with hseen3
  -- what neither the others nor this call can undo
  have hkept : (∀ e ∈ entries, source w3 e) ∧
      ∀ e ∈ entries, e.id ∈ seen → Contained L w3 e := by
    have hsrc3 := fun e he => H.source_stable (.inl hr3) (hsrc2 e he)
    exact ⟨hsrc3, fun e he hmem => hseen w3 hi3 e he (hsrc3 e he) hmem⟩
  have hstable : ∀ u u', P.rely u u' ∨ P.guar u u' →
      ((∀ e ∈ entries, source u e) ∧ ∀ e ∈ entries, e.id ∈ seen → Contained L u e) →
      (∀ e ∈ entries, source u' e) ∧ ∀ e ∈ entries, e.id ∈ seen → Contained L u' e :=
    fun u u' hu h => ⟨fun e he => H.source_stable hu (h.1 e he),
      fun e he hmem => (h.2 e he hmem).mono (H.grows hu)⟩
  obtain ⟨hnd, hmem, hlook⟩ := groups_spec (unseen seen entries)
  rw [← uniqueDocs_eq] at hnd hmem hlook
  refine safe_ite (fun hgroups => ?_) fun _ => ?_
  · refine safe_pure fun w' _ hr _ e he => (hkept.2 e he ?_).mono (H.grows (.inl hr))
    by_contra hnew
    have hk := (hmem e.key).2 ⟨e, mem_filter.2 ⟨he, by simpa using hnew⟩, rfl⟩
    rw [isEmpty_iff.1 hgroups] at hk
    cases hk
  refine safe_hashOrder fun w4 e4 hi4 hr4 _ => ?_
  have hperm := (e4.keyOrder ((uniqueDocs seen entries).map Prod.fst)).2
  have hkept4 := hstable _ _ (.inl hr4) hkept
  refine Safe.bind hi4 ((safe_mergeDocs H (hperm.nodup_iff.2 hnd)).frame hstable hkept4) ?_
    fun _ _ _ _ => nofun
  rintro ⟨updated, states⟩ w5 hi5 ⟨hmerge, hkept5⟩
  obtain ⟨hkeys, hall, -⟩ := hmerge updated states rfl
  refine safe_call fun w6 e6 hi6 hr6 he6 => safe_onStorage hi6 (fun _ _ _ _ _ => nofun) fun _ => ?_
  have hnd6 : (updated.map Prod.fst).Nodup := by
    rw [hkeys]
    exact hperm.nodup_iff.2 hnd
  let es : Key → List (OplogEntry B) := fun k => (unseen seen entries).filter fun e => e.key = k
  have hall6 : ∀ p ∈ updated,
      MergedInto L (fun _ => True) p.1 (w6.storage.documents p.1) (es p.1) p.2 := by
    intro p hp
    have hes : es p.1 = ((uniqueDocs seen entries).lookup p.1).getD [] := (hlook p.1).symm
    rw [H.fresh he6 p hp, H.reads hr6, hes]
    exact hall p hp
  obtain ⟨hi7, hg7⟩ := H.write updated hi6 (grows_write es hnd6 hall6)
  have hkept7 := hstable _ _ (.inr hg7) (hstable _ _ (.inl hr6) hkept5)
  refine ⟨hi7, hg7, safe_modify fun w8 hi8 hr8 => ?_⟩
  have hkept8 := hstable _ _ (.inl hr8) hkept7
  have hcont : ∀ e ∈ entries, Contained L w8 e := by
    intro e he
    by_cases hold : e.id ∈ seen
    · exact hkept8.2 e he hold
    · have hnew : e ∈ unseen seen entries := mem_filter.2 ⟨he, by simpa using hold⟩
      refine (contained_write es hnd6 hall6 ?_ ?_).mono (H.grows (.inl hr8))
      · rw [hkeys, hperm.mem_iff]
        exact (hmem e.key).2 ⟨e, hnew, rfl⟩
      · exact mem_filter.2 ⟨hnew, by simp⟩
  obtain ⟨hi9, hg9⟩ := H.memory (c := w8.client.commitBatch (uncommittedIds seen entries) states)
    (unseen seen entries) hi8 (fun e he =>
      ⟨hkept8.1 e (mem_of_mem_filter he), hcont e (mem_of_mem_filter he)⟩) rfl
  refine ⟨hi9, hg9, fun w' _ hr _ e he => ?_⟩
  exact ((hcont e he).mono (H.grows (.inr hg9))).mono (H.grows (.inl hr))

/-! ## Notifications -/

omit [DecidableEq B] in
lemma safe_fireDoc (k : Key) : Safe (machine n A) P (fun _ _ => True) (fireDoc L k) w := by
  refine safe_getDocument (fun _ _ _ _ => trivial) fun w1 e1 hi1 _ _ => ?_
  obtain ⟨hi2, hg2⟩ := H.read k hi1
  refine ⟨hi2, hg2, ?_⟩
  cases w1.storage.documents k with
  | none => exact safe_done
  | some bytes =>
    refine safe_query (fun _ _ => rfl) fun w3 e3 hi3 _ _ => ?_
    refine safe_ofExcept_bind (fun doc _ => ?_) fun _ _ _ _ _ => trivial
    refine safe_modify fun w4 hi4 _ => ?_
    obtain ⟨hi5, hg5⟩ := H.memory (c := { w4.client with
      fired := w4.client.fired ++ [(.reconcilerPull, k, doc.state)] }) [] hi4 (by simp) rfl
    exact ⟨hi5, hg5, fun _ _ _ => trivial⟩

omit [DecidableEq B] in
lemma safe_fireDocs (hi : P.inv w) (ks : List Key) :
    Safe (machine n A) P (fun _ _ => True) (ks.forM (fireDoc L)) w := by
  induction ks generalizing w with
  | nil => exact safe_done
  | cons k ks ih =>
    exact Safe.bind hi (safe_fireDoc H k) (fun _ _ hi' _ => ih hi') fun _ _ _ _ => trivial

end VaultSync
