import VaultSync.Sync.Reconciler
import VaultSync.Sync.Rules

/-! What a batch does to the documents: each touched one becomes a least upper bound, and a
batch that fails leaves everything as it was. -/

namespace VaultSync

open Async AsyncFn World List

variable {B : Type}

/-! ## Grouping -/

def unseen (seen : Finset String) (entries : List (OplogEntry B)) : List (OplogEntry B) :=
  entries.filter fun e => e.id ∉ seen

lemma uniqueDocs_eq (seen : Finset String) (entries : List (OplogEntry B)) :
    uniqueDocs seen entries = (unseen seen entries).foldl addToGroup [] := by
  rw [uniqueDocs, unseen, foldl_filter]
  congr 1
  funext groups e
  by_cases h : e.id ∈ seen <;> simp [h]

section

variable (groups : List (Key × List (OplogEntry B))) (e : OplogEntry B)

include groups e

lemma keys_addToGroup :
    (addToGroup groups e).map Prod.fst =
      if e.key ∈ groups.map Prod.fst then groups.map Prod.fst
      else groups.map Prod.fst ++ [e.key] := by
  unfold addToGroup
  split_ifs with h
  · rw [map_map]
    refine map_congr_left fun g _ => ?_
    by_cases hg : g.1 = e.key <;> simp [hg]
  · simp

lemma lookup_append_to (k : Key) :
    (groups.map fun g => if g.1 = e.key then (g.1, g.2 ++ [e]) else g).lookup k =
      (groups.lookup k).map fun es => if e.key = k then es ++ [e] else es := by
  induction groups with
  | nil => rfl
  | cons g groups ih =>
    rw [map_cons, lookup_cons, lookup_cons]
    by_cases hk : k = g.1
    · subst hk
      by_cases hg : g.1 = e.key
      · simp [hg]
      · simp [hg, Ne.symm hg]
    · have hne : (k == g.1) = false := beq_eq_false_iff_ne.2 hk
      by_cases hg : g.1 = e.key
      · rw [if_pos hg]
        simpa [hne] using ih
      · rw [if_neg hg]
        simpa [hne] using ih

lemma lookup_addToGroup (k : Key) :
    ((addToGroup groups e).lookup k).getD [] =
      (groups.lookup k).getD [] ++ if e.key = k then [e] else [] := by
  unfold addToGroup
  split_ifs with hmem hk hk
  · subst hk
    obtain ⟨g, hg, hge⟩ := mem_map.1 hmem
    obtain ⟨es, hes⟩ : ∃ es, groups.lookup e.key = some es := by
      cases hl : groups.lookup e.key with
      | some es => exact ⟨es, rfl⟩
      | none => exact absurd hge.symm (by simpa using lookup_eq_none_iff.1 hl g hg)
    simp [lookup_append_to, hes]
  · simp [lookup_append_to, hk]
  · subst hk
    have hnone : groups.lookup e.key = none :=
      lookup_eq_none_iff.2 fun g hg => by
        simpa using fun h => hmem (mem_map.2 ⟨g, hg, h.symm⟩)
    simp [lookup_append, hnone]
  · have hne : (k == e.key) = false := beq_eq_false_iff_ne.2 (Ne.symm hk)
    simp [lookup_append, lookup_cons, hne]

end

lemma groups_spec (es : List (OplogEntry B)) :
    ((es.foldl addToGroup []).map Prod.fst).Nodup ∧
      (∀ k, k ∈ (es.foldl addToGroup []).map Prod.fst ↔ ∃ e ∈ es, e.key = k) ∧
      ∀ k, ((es.foldl addToGroup []).lookup k).getD [] = es.filter fun e => e.key = k := by
  induction es using List.reverseRecOn with
  | nil => simp
  | append_singleton es e ih =>
    obtain ⟨hnd, hmem, hlook⟩ := ih
    simp only [foldl_append, foldl_cons, foldl_nil]
    refine ⟨?_, fun k => ?_, fun k => ?_⟩
    · rw [keys_addToGroup]
      split_ifs with h
      · exact hnd
      · exact hnd.append (nodup_singleton _) (by simpa using h)
    · rw [keys_addToGroup]
      split_ifs with h
      · rw [hmem]
        refine ⟨fun ⟨e', he', hk⟩ => ⟨e', by simp [he'], hk⟩, ?_⟩
        rintro ⟨e', he', rfl⟩
        rcases mem_append.1 he' with he' | he'
        · exact ⟨e', he', rfl⟩
        · rw [mem_singleton.1 he']
          exact (hmem _).1 h
      · simp [hmem, or_and_right, exists_or, @eq_comm _ k]
    · rw [lookup_addToGroup, hlook, filter_append]
      by_cases hk : e.key = k <;> simp [hk]

/-! ## Merging one document -/

variable {L : Lib B}

def updatesOf (L : Lib B) (es : List (OplogEntry B)) : Set CrdtState :=
  { u | ∃ e ∈ es, L.decodeV1 e.yrsUpdate = .ok u }

def MergeOf (L : Lib B) (base : CrdtState) (es : List (OplogEntry B)) (d : CrdtState) : Prop :=
  (∀ e ∈ es, ∃ u, L.decodeV1 e.yrsUpdate = .ok u) ∧ IsLUB (insert base (updatesOf L es)) d

def BaseState (L : Lib B) (draw : ClientId → Prop) (k : Key) : Option B → CrdtState → Prop
  | some bytes, base => L.decodeV1 bytes = .ok base
  | none, base => ∃ client, draw client ∧ base = (CRDTDocument.new client k.docId k.recordId 0).state

variable {es : List (OplogEntry B)} {doc : CRDTDocument} {existing : Option B}
  {Q : Except VaultSyncError Unit → World B → Prop}

lemma updatesOf_cons_ok {e : OplogEntry B} {u : CrdtState} (h : L.decodeV1 e.yrsUpdate = .ok u) :
    updatesOf L (e :: es) = insert u (updatesOf L es) := by
  ext v
  simp only [updatesOf, mem_cons, Set.mem_insert_iff, Set.mem_ofPred_eq]
  constructor
  · rintro ⟨e', rfl | he', hv⟩
    · exact .inl (by rw [h] at hv; exact (Except.ok.inj hv).symm)
    · exact .inr ⟨e', he', hv⟩
  · rintro (rfl | ⟨e', he', hv⟩)
    · exact ⟨e, .inl rfl, h⟩
    · exact ⟨e', .inr he', hv⟩

lemma applyUpdates_ok {doc' : CRDTDocument}
    (h : applyUpdates L doc es = .ok doc') : MergeOf L doc.state es doc'.state := by
  induction es generalizing doc with
  | nil =>
    cases h
    exact ⟨by simp, by simp [updatesOf]⟩
  | cons e es ih =>
    unfold applyUpdates at h
    cases hu : doc.applyUpdate L e.yrsUpdate with
    | error err => rw [hu] at h; cases h
    | ok doc1 =>
      rw [hu] at h
      obtain ⟨u, hdec, rfl⟩ := CRDTDocument.applyUpdate_ok hu
      obtain ⟨hall, hlub⟩ := ih h
      dsimp only at hlub
      refine ⟨forall_mem_cons.2 ⟨⟨u, hdec⟩, hall⟩, ?_⟩
      have hub : upperBounds (insert (doc.state ⊔ u) (updatesOf L es)) =
          upperBounds (insert doc.state (insert u (updatesOf L es))) := by
        simp [upperBounds_insert, ← Set.Ici_inter_Ici, Set.inter_assoc]
      rw [updatesOf_cons_ok hdec]
      exact (isLUB_congr hub).1 hlub

/-! ## A whole batch -/

variable {n : ℕ} {A : Call B → Env B → World B → Prop} {w : World B} {β : Type}

def Drawn (A : Call B → Env B → World B → Prop) (client : ClientId) : Prop :=
  ∃ e w, A .newClientId e w ∧ e.clientId = client

def MergedInto (L : Lib B) (draw : ClientId → Prop) (k : Key) (existing : Option B)
    (es : List (OplogEntry B)) (bytes : B) : Prop :=
  ∃ base d, BaseState L draw k existing base ∧ MergeOf L base es d ∧ bytes = L.encodeV1 d

lemma wp_loadOrNew {Q : Except VaultSyncError β → World B → Prop} {k : Key}
    {f : CRDTDocument → AsyncFn B β}
    (hok : ∀ doc, BaseState L (Drawn A) k existing doc.state → wp (machine n A) Q (f doc) w)
    (herr : ∀ err, Q (.error err) w) :
    wp (machine n A) Q (loadOrNew L k existing >>= f : AsyncFn B β) w := by
  rw [wp_bind, loadOrNew, wp_newClientId]
  intro e he
  cases existing with
  | none => exact hok _ ⟨e.clientId, ⟨e, w, he, rfl⟩, rfl⟩
  | some bytes =>
    simp only [wp_ofExcept]
    cases hdoc : CRDTDocument.fromSnapshot L e.clientId bytes with
    | error err => exact herr err
    | ok doc => exact hok doc (CRDTDocument.fromSnapshot_ok hdoc).1

variable [DecidableEq B]

/-! ## One update on its own -/

inductive AppliedAlone (L : Lib B) (draw : ClientId → Prop) (e : OplogEntry B) (w w' : World B) : Prop
  | skipped (hseen : e.id ∈ w.client.dedup.seen) (hsame : w' = w)
  | merged (hunseen : e.id ∉ w.client.dedup.seen) (base u : CrdtState)
      (hbase : BaseState L draw e.key (w.storage.documents e.key) base)
      (hu : L.decodeV1 e.yrsUpdate = .ok u)
      (hdocs : w'.storage.documents = Function.update w.storage.documents e.key
        (some (L.encodeV1 (if u.stateVector ≤ base.stateVector then base else base ⊔ u))))
      (hdedup : w'.client.dedup = w.client.dedup.mark e.id)

lemma wp_storeMerged {entry : OplogEntry B}
    (herr : ∀ e err, A (.insertDocument entry.key (doc.toSnapshot L)) e w →
      e.storageFault = some err → Q (.error err) w)
    (hok : ∀ w', w'.service = w.service → w'.lastSequence = w.lastSequence →
      w'.storage = w.storage.insertDocument entry.key (L.encodeV1 doc.state) →
      w'.client.dedup = w.client.dedup.mark entry.id → Q (.ok ()) w') :
    wp (machine n A) Q (storeMerged L entry existing doc) w := by
  rw [storeMerged, wp_insertDocument]
  refine fun e he => ⟨fun err => herr e err he, fun _ => ?_⟩
  rw [markDedup, wp_modify_bind, wp_ite]
  refine ⟨fun _ => ?_, fun _ => hok _ rfl rfl rfl rfl⟩
  rw [wp_read, wp_ite]
  exact ⟨fun _ => hok _ rfl rfl rfl rfl, fun _ => hok _ rfl rfl rfl rfl⟩

/-- The three ways an update ends: it was seen; an error before the write; or the document was
written and the id marked. -/
lemma wp_applyRemoteUpdate {entry : OplogEntry B}
    (hskip : entry.id ∈ w.client.dedup.seen → Q (.ok ()) w)
    (herr : ∀ r err, Q (.error err) (w.setReads r))
    (hok : ∀ base u w', entry.id ∉ w.client.dedup.seen →
      BaseState L (Drawn A) entry.key (w.storage.documents entry.key) base →
      L.decodeV1 entry.yrsUpdate = .ok u → w'.service = w.service →
      w'.lastSequence = w.lastSequence → w'.storage = w.storage.insertDocument entry.key
        (L.encodeV1 (if u.stateVector ≤ base.stateVector then base else base ⊔ u)) →
      w'.client.dedup = w.client.dedup.mark entry.id → Q (.ok ()) w') :
    wp (machine n A) Q (applyRemoteUpdate L entry) w := by
  rw [applyRemoteUpdate, wp_read, wp_ite]
  refine ⟨hskip, fun hunseen => ?_⟩
  rw [wp_getDocument]
  refine fun e _ => ⟨fun err _ => herr w.reads err, fun _ => ?_⟩
  refine wp_loadOrNew (fun doc hbase => ?_) fun err => herr _ err
  rw [wp_ite]
  refine ⟨fun hred => ?_, fun hred => ?_⟩
  · refine wp_storeMerged (fun _ err _ _ => herr _ err) fun w' hservice hlast hstorage hdedup => ?_
    unfold redundant at hred
    cases hu : L.decodeV1 entry.yrsUpdate with
    | error err => simp [hu] at hred
    | ok u =>
      simp only [hu] at hred
      refine hok doc.state u w' hunseen hbase hu hservice hlast ?_ hdedup
      rw [hstorage, if_pos (CrdtState.covers_iff.1 hred)]
      rfl
  · rw [wp_ofExcept_bind]
    refine ⟨fun doc' hdoc' => ?_, fun err _ => herr _ err⟩
    obtain ⟨u, hu, rfl⟩ := CRDTDocument.applyUpdate_ok hdoc'
    refine wp_storeMerged (fun _ err _ _ => herr _ err) fun w' hservice hlast hstorage hdedup => ?_
    refine hok doc.state u w' hunseen hbase hu hservice hlast ?_ hdedup
    have hnot : ¬ u.stateVector ≤ doc.state.stateVector := by
      rw [redundant, hu] at hred
      exact fun hle => hred (CrdtState.covers_iff.2 hle)
    rw [hstorage, if_neg hnot]
    rfl

lemma wp_applyRemoteUpdate_ok (entry : OplogEntry B) :
    wp (machine n A) (fun result w' => result = .ok () → AppliedAlone L (Drawn A) entry w w')
      (applyRemoteUpdate L entry) w := by
  refine wp_applyRemoteUpdate (fun hseen _ => .skipped hseen rfl) (fun _ _ => nofun)
    fun base u w' hunseen hbase hu _ _ hstorage hdedup _ => ?_
  refine .merged hunseen base u hbase hu ?_ hdedup
  rw [hstorage]
  rfl

/-! ## The loop over the documents -/

lemma wp_mergeDocs {groups : List (Key × List (OplogEntry B))} {ks : List Key}
    {Q : Except VaultSyncError (List (Key × B) × List (Key × CrdtState)) → World B → Prop}
    (hok : ∀ r updated states, updated.map Prod.fst = ks →
      (∀ p ∈ updated, MergedInto L (Drawn A) p.1 (w.storage.documents p.1)
        ((groups.lookup p.1).getD []) p.2) → Q (.ok (updated, states)) (w.setReads r))
    (herr : ∀ r err, Q (.error err) (w.setReads r)) :
    wp (machine n A) Q (mergeDocs L groups ks) w := by
  induction ks generalizing w Q with
  | nil => exact hok w.reads [] [] rfl (by simp)
  | cons k ks ih =>
    rw [mergeDocs, wp_getDocument]
    intro e _
    refine ⟨fun err _ => herr w.reads err, fun _ => ?_⟩
    refine wp_loadOrNew (fun doc hbase => ?_) (herr _)
    rw [wp_ofExcept_bind]
    refine ⟨fun doc' hdoc' => ?_, fun err _ => herr _ err⟩
    rw [wp_bind]
    refine ih (fun r updated states hkeys hall => ?_) (fun r err => herr r err)
    refine hok r _ _ (by rw [map_cons, hkeys]) (forall_mem_cons.2 ⟨?_, hall⟩)
    exact ⟨doc.state, doc'.state, hbase, applyUpdates_ok hdoc', rfl⟩

/-- The three ways a batch ends: nothing was unseen; an error before the write; or all the
documents were written, the ids marked and the changes fired. -/
lemma wp_applyBatch {entries : List (OplogEntry B)}
    (hskip : unseen w.client.dedup.seen entries = [] →
      Q (.ok ()) (w.setClient (w.client.logBatch entries)))
    (herr : ∀ r err, Q (.error err) ((w.setClient (w.client.logBatch entries)).setReads r))
    (hok : ∀ r updated states, (updated.map Prod.fst).Nodup →
      (∀ k, k ∈ updated.map Prod.fst ↔ ∃ e ∈ unseen w.client.dedup.seen entries, e.key = k) →
      (∀ p ∈ updated, MergedInto L (Drawn A) p.1 (w.storage.documents p.1)
        ((unseen w.client.dedup.seen entries).filter fun e => e.key = p.1) p.2) →
      Q (.ok ()) (((w.setReads r).setStorage (w.storage.writeBatchReconciliation updated)).setClient
        ((w.client.logBatch entries).commitBatch
          (uncommittedIds w.client.dedup.seen entries) states))) :
    wp (machine n A) Q (applyBatch L entries) w := by
  rw [applyBatch, wp_modify_bind, wp_ite]
  refine ⟨fun hempty => ?_, fun hempty => ?_⟩
  · rw [isEmpty_iff.1 hempty] at hskip ⊢
    exact hskip rfl
  rw [wp_read, wp_ite]
  simp only [setClient_client, Client.logBatch_dedup]
  obtain ⟨hnd, hmem, hlook⟩ := groups_spec (unseen w.client.dedup.seen entries)
  rw [← uniqueDocs_eq] at hnd hmem hlook
  refine ⟨fun hgroups => ?_, fun hgroups => ?_⟩
  · refine hskip (eq_nil_iff_forall_not_mem.2 fun e he => ?_)
    have hk := (hmem e.key).2 ⟨e, he, rfl⟩
    rw [isEmpty_iff.1 hgroups] at hk
    cases hk
  rw [wp_hashOrder]
  intro e _
  have hperm := (e.keyOrder ((uniqueDocs w.client.dedup.seen entries).map Prod.fst)).2
  rw [wp_bind]
  refine wp_mergeDocs (fun r updated states hkeys hall => ?_) (fun r err => herr r err)
  dsimp only
  rw [wp_writeBatchReconciliation]
  intro e' _
  refine ⟨fun err _ => herr r err, fun _ => hok r updated states ?_ (fun k => ?_) fun p hp => ?_⟩
  · rw [hkeys]
    exact hperm.nodup_iff.2 hnd
  · rw [hkeys, hperm.mem_iff, hmem]
  · rw [← hlook]
    exact hall p hp

/-- **Batch merge.** However the storage answers, a batch either returns `Ok`, every document it
touches is the join of its old (or a new document's) state with exactly the updates of its
entries not seen before and the others are unchanged, or it returns an error and the documents,
the dedup set and the notifications are unchanged. -/
theorem applyBatch_joins_or_unchanged (L : Lib B) (entries : List (OplogEntry B)) (w : World B) :
    wp (machine n fun _ _ _ => True) (fun result w' =>
      match result with
      | .ok () => ∀ k, let es := (unseen w.client.dedup.seen entries).filter fun e => e.key = k
          if es = [] then w'.storage.documents k = w.storage.documents k
          else ∃ base d, BaseState L (fun _ => True) k (w.storage.documents k) base ∧
            w'.storage.documents k = some (L.encodeV1 d) ∧
            (∀ e ∈ es, ∃ u, L.decodeV1 e.yrsUpdate = .ok u) ∧
            IsLUB (insert base { u | ∃ e ∈ es, L.decodeV1 e.yrsUpdate = .ok u }) d
      | .error _ => w'.storage.documents = w.storage.documents ∧
          w'.client.dedup = w.client.dedup ∧ w'.client.fired = w.client.fired)
      (applyBatch L entries) w := by
  refine wp_applyBatch (fun hnil => ?_) (fun r err => ⟨rfl, rfl, rfl⟩) ?_
  · simp [hnil]
  · intro r updated states hnd hmem hall k es
    split_ifs with hes
    · refine InMemoryStorage.writeBatchReconciliation_of_notMem fun hk => ?_
      obtain ⟨e, he, rfl⟩ := (hmem k).1 hk
      exact filter_eq_nil_iff.1 hes e he (by simp)
    · obtain ⟨e, he⟩ := exists_mem_of_ne_nil _ hes
      rw [mem_filter, decide_eq_true_iff] at he
      obtain ⟨⟨k', bytes⟩, hp, rfl⟩ := mem_map.1 ((hmem k).2 ⟨e, he⟩)
      obtain ⟨base, d, hbase, hmerge, rfl⟩ := hall _ hp
      refine ⟨base, d, ?_, InMemoryStorage.writeBatchReconciliation_of_mem hnd hp, hmerge⟩
      cases hdoc : w.storage.documents k' with
      | some bytes => rwa [hdoc] at hbase
      | none =>
        rw [hdoc] at hbase
        obtain ⟨client, -, hnew⟩ := hbase
        exact ⟨client, trivial, hnew⟩

end VaultSync
