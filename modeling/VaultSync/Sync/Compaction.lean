import VaultSync.Crdt.Fields
import VaultSync.Sync.Merging

/-! The compaction engine: which snapshots a client makes of its documents. -/

namespace VaultSync

open Async AsyncFn World List CRDTDocument Function

variable {B : Type}

structure CompactionStats where
  oplogRemoved : ℕ
  docsRemoved : ℕ
  snapshotsCollapsed : ℕ

namespace CompactionEngine

def maxTimestamp (entries : List (OplogEntry B)) : ℕ :=
  (entries.map OplogEntry.createdAt).max?.getD 0

def maxSequence (entries : List (OplogEntry B)) : ℕ :=
  (entries.filterMap OplogEntry.sequence).max?.getD 0

variable (L : Lib B) (threshold : ℕ) (ns : String)

/-- The document is written back as it was decoded; if the entries have a time, they are
deleted and a snapshot is made. -/
def collapse (k : Key) (synced : List (OplogEntry B))
    (doc : CRDTDocument) : AsyncFn B (Option (ℕ × Snapshot B)) := do
  let freshSnapshot := doc.toSnapshot L
  insertDocument k freshSnapshot
  if 0 < maxTimestamp synced then
    let deleted ← deleteSyncedOplogBeforeTimestamp ns k ((maxTimestamp synced + 1) % 2 ^ 64)
    return some (deleted, {
      docId := k.docId
      recordId := k.recordId
      schemaVersion := doc.schemaVersion
      sequence := maxSequence synced
      createdAt := maxTimestamp synced
      bytes := freshSnapshot })
  else
    return none

def collapseStored (k : Key) (synced : List (OplogEntry B)) :
    Option B → AsyncFn B (Option (ℕ × Snapshot B))
  | none => pure none
  | some bytes => do
    let client ← newClientId
    match CRDTDocument.fromSnapshot L client bytes with
    | .error _ => return none
    | .ok doc => collapse L ns k synced doc

def compactDocument (k : Key) : AsyncFn B (Option (ℕ × Snapshot B)) := do
  let synced ← readSyncedOplogForDocument ns k
  if threshold < synced.length then
    let stored ← getDocument k
    collapseStored L ns k synced stored
  else
    return none

def compactDocuments :
    List Key → AsyncFn B (List (ℕ × Snapshot B))
  | [] => pure []
  | k :: ks => do
    let collapsed ← compactDocument L threshold ns k
    let rest ← compactDocuments ks
    return collapsed.toList ++ rest

def runSnapshotCompaction : AsyncFn B (CompactionStats × List (Snapshot B)) := do
  let activeDocs ← listActiveDocuments ns
  let collapsed ← compactDocuments L threshold ns activeDocs
  let oplogRemoved := collapsed.foldl (fun removed p => removed + p.1) 0
  return (⟨oplogRemoved, 0, collapsed.length⟩, collapsed.map Prod.snd)

/-! ## What is kept -/

def Protected (e : OplogEntry B) : Prop := e.namespace ≠ ns ∨ e.syncStatus ≠ .synced

instance (e : OplogEntry B) : Decidable (Protected ns e) :=
  inferInstanceAs (Decidable (_ ∨ _))

def Deleted (bytes : B) : Prop :=
  ∃ d, L.decodeV1 bytes = .ok d ∧ L.Tombstone d

def SameState (bytes bytes' : B) : Prop :=
  bytes' = bytes ∨ ∃ d, L.decodeV1 bytes = .ok d ∧ L.decodeV1 bytes' = .ok d

variable {L threshold ns} {n : ℕ} {A : Call B → Env B → World B → Prop} {w w₀ w₁ w₂ : World B}
  {k : Key} {P : Key → Prop} {b bytes : B} {client : ClientId} {doc : CRDTDocument}

lemma SameState.trans {a c : B} (h : SameState L a b) (h' : SameState L b c) : SameState L a c := by
  rcases h with rfl | ⟨d, ha, hb⟩
  · exact h'
  · rcases h' with rfl | ⟨d', hb', hc⟩
    · exact .inr ⟨d, ha, hb⟩
    · have heq : d = d' := by
        rw [hb] at hb'
        exact Except.ok.inj hb'
      exact .inr ⟨d, ha, heq ▸ hc⟩

lemma SameState.deleted {a : B} (h : SameState L a b) (hb : Deleted L b) : Deleted L a := by
  rcases h with rfl | ⟨d, ha, hb'⟩
  · exact hb
  · obtain ⟨d', hd', ht⟩ := hb
    have heq : d' = d := by
      rw [hb'] at hd'
      exact (Except.ok.inj hd').symm
    exact ⟨d, ha, heq ▸ ht⟩

/-- One part of a compaction: entries of `ns` that are synced may go, a document may be written
back, and a deleted document that is in `P` may be removed. Beside the storage nothing changes. -/
structure Kept (L : Lib B) (ns : String) (P : Key → Prop) (w w' : World B) : Prop where
  beside : w'.service = w.service ∧ w'.lastSequence = w.lastSequence ∧ w'.client = w.client
  inOrder : w'.storage.oplog.Sublist w.storage.oplog
  kept : w'.storage.oplog.filter (fun e => Protected ns e) =
    w.storage.oplog.filter (fun e => Protected ns e)
  stored : ∀ k bytes, w.storage.documents k = some bytes →
    (∃ bytes', w'.storage.documents k = some bytes' ∧ SameState L bytes bytes') ∨
      w'.storage.documents k = none ∧ Deleted L bytes ∧ P k
  absent : ∀ k, w.storage.documents k = none → w'.storage.documents k = none

namespace Kept

lemma of_reads (h : w.setReads w₁.reads = w₁) : Kept L ns P w w₁ := by
  rw [← h]
  exact ⟨⟨rfl, rfl, rfl⟩, .refl _, rfl, fun _ b hb => .inl ⟨b, hb, .inl rfl⟩, fun _ => id⟩

lemma trans (h : Kept L ns P w w₁) (h' : Kept L ns P w₁ w₂) : Kept L ns P w w₂ where
  beside := ⟨h'.beside.1.trans h.beside.1, h'.beside.2.1.trans h.beside.2.1,
    h'.beside.2.2.trans h.beside.2.2⟩
  inOrder := h'.inOrder.trans h.inOrder
  kept := h'.kept.trans h.kept
  stored k bytes hb := by
    rcases h.stored k bytes hb with ⟨b1, hb1, hs1⟩ | ⟨hgone, hdel, hold⟩
    · rcases h'.stored k b1 hb1 with ⟨b2, hb2, hs2⟩ | ⟨hgone, hdel, hold⟩
      · exact .inl ⟨b2, hb2, hs1.trans hs2⟩
      · exact .inr ⟨hgone, hs1.deleted hdel, hold⟩
    · exact .inr ⟨h'.absent k hgone, hdel, hold⟩
  absent k hk := h'.absent k (h.absent k hk)

lemma of_filter {p : OplogEntry B → Bool} {st : InMemoryStorage B}
    (hp : ∀ e, Protected ns e → p e) (hdocs : st.documents = w.storage.documents)
    (hoplog : st.oplog = w.storage.oplog.filter p) : Kept L ns P w (w.setStorage st) where
  beside := ⟨rfl, rfl, rfl⟩
  inOrder := hoplog ▸ filter_sublist
  kept := by
    rw [setStorage_storage, hoplog, filter_filter]
    refine filter_congr fun e _ => ?_
    by_cases h : Protected ns e
    · simp [h, hp e h]
    · simp [h]
  stored k bytes hb := .inl ⟨bytes, by rw [setStorage_storage, hdocs]; exact hb, .inl rfl⟩
  absent k hk := by rw [setStorage_storage, hdocs]; exact hk

lemma writeBack (hdoc : fromSnapshot L client bytes = .ok doc)
    (hstored : w.storage.documents k = some bytes) :
    Kept L ns P w (w.setStorage (w.storage.insertDocument k (doc.toSnapshot L))) where
  beside := ⟨rfl, rfl, rfl⟩
  inOrder := .refl _
  kept := rfl
  stored k' b hb := by
    by_cases hk : k' = k
    · subst hk
      rw [hstored] at hb
      cases hb
      have hdec := (fromSnapshot_ok hdoc).1
      exact .inl ⟨_, update_self _ _ _, .inr ⟨doc.state, hdec, L.decode_encode _⟩⟩
    · exact .inl ⟨b, (update_of_ne hk _ _).trans hb, .inl rfl⟩
  absent k' hk' := by
    have hne : k' ≠ k := by
      rintro rfl
      rw [hstored] at hk'
      cases hk'
    exact (update_of_ne hne _ _).trans hk'

end Kept

/-- A part that returns `a` has removed `count a` entries; whatever it returns, it kept the
rest. -/
def Accounts {α : Type} (L : Lib B) (ns : String) (P : Key → Prop) (count : α → ℕ) (w : World B)
    (r : Except VaultSyncError α) (w' : World B) : Prop :=
  Kept L ns P w w' ∧ ∀ a, r = .ok a → count a + w'.storage.oplog.length = w.storage.oplog.length

section Parts

variable {α : Type} {count : α → ℕ} {a : α}

lemma Accounts.error (h : Kept L ns P w w₁) (err : VaultSyncError) :
    Accounts L ns P count w (.error err) w₁ := ⟨h, nofun⟩

lemma Accounts.ok (h : Kept L ns P w w₁)
    (hcount : count a + w₁.storage.oplog.length = w.storage.oplog.length) :
    Accounts L ns P count w (.ok a) w₁ := by
  refine ⟨h, ?_⟩
  rintro _ ⟨⟩
  exact hcount

lemma Accounts.ok_of_reads (hcount : count a = 0) (h : w.setReads w₁.reads = w₁) :
    Accounts L ns P count w (.ok a) w₁ := by
  refine .ok (.of_reads h) ?_
  rw [hcount, ← h, Nat.zero_add]
  rfl

lemma Accounts.failed (err : VaultSyncError) : Accounts L ns P count w (.error err) w :=
  .error (.of_reads rfl) err

end Parts

lemma length_add_of_kept (h : Kept L ns P w w₁) :
    w.storage.oplog.length - w₁.storage.oplog.length + w₁.storage.oplog.length =
      w.storage.oplog.length :=
  Nat.sub_add_cancel h.inOrder.length_le

def removedBy (collapsed : List (ℕ × Snapshot B)) : ℕ := (collapsed.map Prod.fst).sum

lemma kept_deleteSyncedOplogBeforeTimestamp (t : ℕ) :
    Kept L ns P w (w.setStorage (w.storage.deleteSyncedOplogBeforeTimestamp ns k t)) := by
  refine .of_filter (fun e he => ?_) rfl rfl
  rw [decide_eq_true_iff]
  rintro ⟨hns, -, hs, -⟩
  exact he.elim (· hns) (· hs)

/-! ## What a snapshot is made of -/

/-- The snapshot holds the document as `w` has it, under the largest sequence of the document's
synced entries there. -/
structure MadeOf (L : Lib B) (threshold : ℕ) (ns : String) (w : World B) (s : Snapshot B) :
    Prop where
  above : threshold < (w.storage.readSyncedOplogForDocument ns s.key).length
  state : storedState L (some s.bytes) = docState L w s.key
  sequence : s.sequence = maxSequence (w.storage.readSyncedOplogForDocument ns s.key)

structure Collapsed (L : Lib B) (ns : String) (k : Key) (w₀ w : World B) : Prop where
  docState : ∀ k', docState L w k' = docState L w₀ k'
  synced : ∀ k', k' ≠ k → w.storage.readSyncedOplogForDocument ns k' =
    w₀.storage.readSyncedOplogForDocument ns k'

section

variable (hdoc : fromSnapshot L client bytes = .ok doc)
  (hstored : w.storage.documents k = some bytes)

include hdoc hstored

lemma docState_writeBack (k' : Key) :
    docState L (w.setStorage (w.storage.insertDocument k (doc.toSnapshot L))) k' =
      docState L w k' := by
  have hdec := (fromSnapshot_ok hdoc).1
  by_cases hk : k' = k
  · rw [hk, docState_of_some hstored hdec]
    exact docState_of_some (Function.update_self _ _ _) (L.decode_encode _)
  · unfold VaultSync.docState
    rw [setStorage_storage, InMemoryStorage.insertDocument_documents, Function.update_of_ne hk]

lemma wp_collapse (habove : threshold < (w.storage.readSyncedOplogForDocument ns k).length) :
    wp (machine n A) (fun r w' => Accounts L ns P (fun o => removedBy o.toList) w r w' ∧
      Collapsed L ns k w w' ∧ ∀ p, r = .ok (some p) → p.2.key = k ∧ MadeOf L threshold ns w p.2)
      (collapse L ns k (w.storage.readSyncedOplogForDocument ns k) doc) w := by
  have hback := docState_writeBack hdoc hstored
  have hkept : Kept L ns P w _ := .writeBack hdoc hstored
  rw [collapse, wp_insertDocument]
  refine fun _ _ => ⟨fun err _ => ⟨.failed err, ⟨fun _ => rfl, fun _ _ => rfl⟩, nofun⟩, fun _ => ?_⟩
  rw [wp_ite]
  refine ⟨fun _ => ?_, fun _ => ⟨.ok hkept (Nat.zero_add _), ⟨hback, fun _ _ => rfl⟩, nofun⟩⟩
  rw [wp_deleteSyncedOplogBeforeTimestamp]
  refine fun _ _ => ⟨fun err _ => ⟨.error hkept err, ⟨hback, fun _ _ => rfl⟩, nofun⟩, fun _ => ?_⟩
  have htrim := hkept.trans (kept_deleteSyncedOplogBeforeTimestamp (k := k)
    ((maxTimestamp (w.storage.readSyncedOplogForDocument ns k) + 1) % 2 ^ 64))
  refine ⟨.ok htrim (length_add_of_kept htrim), ⟨hback, fun k' hk' => ?_⟩, ?_⟩
  · refine filter_filter.trans (filter_congr fun e _ => ?_)
    by_cases hk : e.key = k'
    · have hne : e.key ≠ k := by rwa [hk]
      simp [hne]
    · simp [hk]
  · rintro _ ⟨⟩
    refine ⟨rfl, habove, ?_, rfl⟩
    have hdec := (fromSnapshot_ok hdoc).1
    exact (storedState_some (L.decode_encode _)).trans (docState_of_some hstored hdec).symm

end

lemma wp_compactDocument (k : Key) :
    wp (machine n A) (fun r w' => Accounts L ns P (fun o => removedBy o.toList) w r w' ∧
      Collapsed L ns k w w' ∧ ∀ p, r = .ok (some p) → p.2.key = k ∧ MadeOf L threshold ns w p.2)
      (compactDocument L threshold ns k) w := by
  have hsame : Collapsed L ns k w w := ⟨fun _ => rfl, fun _ _ => rfl⟩
  rw [compactDocument, wp_readSyncedOplogForDocument]
  refine fun _ _ => ⟨fun err _ => ⟨.failed err, hsame, nofun⟩, fun _ => ?_⟩
  rw [wp_ite]
  refine ⟨fun habove => ?_, fun _ => ⟨.ok_of_reads rfl rfl, hsame, nofun⟩⟩
  rw [wp_getDocument]
  refine fun _ _ => ⟨fun err _ => ⟨.failed err, hsame, nofun⟩, fun _ => ?_⟩
  have hread : Collapsed L ns k w (w.recordRead n k) := ⟨fun _ => rfl, fun _ _ => rfl⟩
  cases hstored : w.storage.documents k with
  | none => exact ⟨.ok_of_reads rfl rfl, hread, nofun⟩
  | some bytes =>
    rw [collapseStored, wp_newClientId]
    intro e _
    cases hdoc : fromSnapshot L e.clientId bytes with
    | error err => exact ⟨.ok_of_reads rfl rfl, hread, nofun⟩
    | ok doc =>
      refine (wp_collapse (w := w.recordRead n k) (P := P) hdoc hstored habove).mono fun r w' h => ?_
      obtain ⟨haccounts, hc, hmade⟩ := h
      have hkept : Kept L ns P w (w.recordRead n k) := .of_reads rfl
      exact ⟨⟨hkept.trans haccounts.1, haccounts.2⟩, ⟨hc.docState, hc.synced⟩, fun p hp =>
        ⟨(hmade p hp).1, (hmade p hp).2.above, (hmade p hp).2.state, (hmade p hp).2.sequence⟩⟩

lemma wp_compactDocuments {ks : List Key} (hnd : ks.Nodup)
    (hdocs : ∀ k, docState L w k = docState L w₀ k)
    (hsynced : ∀ k ∈ ks, w.storage.readSyncedOplogForDocument ns k =
      w₀.storage.readSyncedOplogForDocument ns k) :
    wp (machine n A) (fun r w' => Accounts L ns P removedBy w r w' ∧
      ∀ l, r = .ok l → ∀ p ∈ l, MadeOf L threshold ns w₀ p.2)
      (compactDocuments L threshold ns ks) w := by
  induction ks generalizing w with
  | nil =>
    refine ⟨.ok_of_reads rfl rfl, ?_⟩
    rintro _ ⟨⟩ p hp
    cases hp
  | cons k ks ih =>
    obtain ⟨hk, hnd⟩ := nodup_cons.1 hnd
    refine (wp_compactDocument (P := P) k).bind (fun collapsed w₁ h => ?_)
      fun err _ h => ⟨.error h.1.1 err, nofun⟩
    obtain ⟨ho, hc, hmade⟩ := h
    have hrest : ∀ k' ∈ ks, w₁.storage.readSyncedOplogForDocument ns k' =
        w₀.storage.readSyncedOplogForDocument ns k' := by
      intro k' hk'
      rw [hc.synced k' (fun heq => hk (heq ▸ hk')), hsynced k' (mem_cons_of_mem k hk')]
    refine (ih hnd (fun k' => (hc.docState k').trans (hdocs k')) hrest).bind (fun rest w₂ h => ?_)
      fun err _ h => ⟨.error (ho.1.trans h.1.1) err, nofun⟩
    refine ⟨.ok (ho.1.trans h.1.1) ?_, ?_⟩
    · rw [removedBy, map_append, sum_append, Nat.add_assoc]
      exact (congrArg _ (h.1.2 rest rfl)).trans (ho.2 collapsed rfl)
    · rintro _ ⟨⟩ p hp
      rcases mem_append.1 hp with hp | hp
      · obtain ⟨hkey, hm⟩ := hmade p (congrArg _ (Option.mem_toList.1 hp))
        have heq := hsynced k mem_cons_self
        rw [← hkey] at heq
        exact ⟨heq ▸ hm.above, hm.state.trans (hdocs _), heq ▸ hm.sequence⟩
      · exact h.2 rest rfl p hp

lemma wp_runSnapshotCompaction (w : World B) :
    wp (machine n A) (fun r w' => Accounts L ns P (fun p => p.1.oplogRemoved) w r w' ∧
      ∀ stats l, r = .ok (stats, l) → ∀ s ∈ l, MadeOf L threshold ns w s)
      (runSnapshotCompaction L threshold ns) w := by
  rw [runSnapshotCompaction, wp_listActiveDocuments]
  refine fun e _ => ⟨fun err _ => ⟨.failed err, nofun⟩, fun _ => ?_⟩
  have hnd : (e.keyOrder (w.storage.listActiveDocuments ns)).1.Nodup :=
    (e.keyOrder _).2.nodup_iff.2 (nodup_dedup _)
  refine (wp_compactDocuments (P := P) hnd (fun _ => rfl) fun _ _ => rfl).bind
    (fun collapsed w₁ h => ⟨.ok h.1.1 ?_, ?_⟩) fun err _ h => ⟨.error h.1.1 err, nofun⟩
  · rw [← foldl_map, ← sum_eq_foldl]
    exact h.1.2 collapsed rfl
  · rintro _ _ ⟨⟩ s hs
    obtain ⟨p, hp, rfl⟩ := mem_map.1 hs
    exact h.2 collapsed rfl p hp

end CompactionEngine

end VaultSync
