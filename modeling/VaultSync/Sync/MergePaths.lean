import VaultSync.Client.Read
import VaultSync.Sync.Download

/-! The two ways a remote update is merged into a stored document: on its own, after a test on
state vectors, and in a batch. -/

namespace VaultSync

open Async AsyncFn World List CRDTDocument

variable {B β : Type} {L : Lib B} {n : ℕ} {w : World B}

/-! ## A storage that answers -/

section Up

variable {Q : Except VaultSyncError β → World B → Prop}

lemma wp_getDocument_up (k : Key) (f : Option B → AsyncFn B β) :
    wp (machine n StorageUp) Q (getDocument k >>= f) w ↔
      wp (machine n StorageUp) Q (f (w.storage.documents k)) (w.recordRead n k) := by
  rw [wp_getDocument]
  exact forall_up_iff

lemma exists_outcome_up (p : AsyncFn B β) (w : World B) :
    ∃ r w', Outcome (machine n StorageUp) p w r w' :=
  ⟨_, _, run_outcome (M := machine n StorageUp) p [] w fun _ _ =>
    ⟨rfl, fun _ he => absurd he not_mem_nil⟩⟩

end Up

/-! ## Both paths -/

structure Mergeable (L : Lib B) (bytes update : B) (d : CrdtState) : Prop where
  stored : L.decodeV1 bytes = .ok d
  storedSize : L.len bytes ≤ CRDTDocument.maxSnapshotSize
  updateSize : L.len update ≤ CRDTDocument.maxSnapshotSize

/-- The stored states are those of `w`, except that the entry's document was merged by `join`
if it could be. -/
structure Leaves (L : Lib B) (w : World B) (e : OplogEntry B) (bytes : B)
    (join : CrdtState → CrdtState) (w' : World B) : Prop where
  others : ∀ k, k ≠ e.key → docState L w' k = docState L w k
  merged : ∀ d, Mergeable L bytes e.yrsUpdate d → docState L w' e.key = join d
  kept : (∀ d, ¬ Mergeable L bytes e.yrsUpdate d) → docState L w' e.key = docState L w e.key

variable {entry : OplogEntry B} {bytes update : B} {u d d' : CrdtState}
  {join : CrdtState → CrdtState} {w' : World B} {f : CRDTDocument → AsyncFn B β}
  {doc : CRDTDocument}

lemma Leaves.of_unchanged (h : w'.storage.documents = w.storage.documents)
    (hnone : ∀ d, ¬ Mergeable L bytes entry.yrsUpdate d) : Leaves L w entry bytes join w' := by
  have hall : ∀ k, docState L w' k = docState L w k := fun k => by rw [docState, h, docState]
  exact ⟨fun k _ => hall k, fun d hd => absurd hd (hnone d), fun _ => hall entry.key⟩

lemma Leaves.of_written
    (h : w'.storage.documents = Function.update w.storage.documents entry.key (some (L.encodeV1 d')))
    (hd : L.decodeV1 bytes = .ok d) (hdoc : w.storage.documents entry.key = some bytes)
    (hmerged : Mergeable L bytes entry.yrsUpdate d → d' = join d)
    (hkept : ¬ Mergeable L bytes entry.yrsUpdate d → d' = d) : Leaves L w entry bytes join w' := by
  have hentry : docState L w' entry.key = d' :=
    docState_of_some (by rw [h, Function.update_self]) (L.decode_encode d')
  refine ⟨fun k hk => ?_, fun d1 hd1 => ?_, fun hnone => ?_⟩
  · rw [docState, h, Function.update_of_ne hk, docState]
  · cases hd1.stored.symm.trans hd
    rw [hentry, hmerged hd1]
  · rw [hentry, docState_of_some hdoc hd, hkept (hnone d)]

lemma wp_load_up {k : Key} {Q : Except VaultSyncError β → World B → Prop}
    (hok : ∀ doc : CRDTDocument, L.decodeV1 bytes = .ok doc.state →
      L.len bytes ≤ maxSnapshotSize → wp (machine n StorageUp) Q (f doc) w)
    (herr : ∀ err, (∀ update d, ¬ Mergeable L bytes update d) → Q (.error err) w) :
    wp (machine n StorageUp) Q (loadOrNew L k (some bytes) >>= f) w := by
  rw [wp_bind, loadOrNew, wp_newClientId]
  intro e _
  rw [wp_ofExcept]
  cases hload : fromSnapshot L e.clientId bytes with
  | ok doc =>
    obtain ⟨hdec, -, hlen⟩ := fromSnapshot_ok hload
    exact hok doc hdec hlen
  | error err =>
    refine herr err fun update d hd => ?_
    unfold fromSnapshot at hload
    rw [if_neg (not_lt.2 hd.storedSize), hd.stored] at hload
    cases hload

lemma wp_applyUpdate_up {Q : Except VaultSyncError β → World B → Prop}
    (hu : L.decodeV1 update = .ok u) (hok : ∀ doc' : CRDTDocument, doc'.state = doc.state ⊔ u →
      L.len update ≤ maxSnapshotSize → wp (machine n StorageUp) Q (f doc') w)
    (herr : ∀ err, (∀ d, ¬ Mergeable L bytes update d) → Q (.error err) w) :
    wp (machine n StorageUp) Q (Prog.ofExcept (doc.applyUpdate L update) >>= f) w := by
  rw [wp_ofExcept_bind]
  unfold applyUpdate
  by_cases hlen : maxSnapshotSize < L.len update
  · rw [if_pos hlen]
    exact ⟨nofun, fun err _ => herr err fun d hd => absurd hlen (not_lt.2 hd.updateSize)⟩
  · rw [if_neg hlen, hu]
    refine ⟨?_, nofun⟩
    rintro doc' ⟨⟩
    exact hok _ rfl (not_lt.1 hlen)

variable [DecidableEq B]

section

variable (hdoc : w.storage.documents entry.key = some bytes)
  (hunseen : entry.id ∉ w.client.dedup.seen) (hu : L.decodeV1 entry.yrsUpdate = .ok u)

include hdoc hunseen hu

lemma wp_applyRemoteUpdate_stored :
    wp (machine n StorageUp) (fun _ => Leaves L w entry bytes
      fun d => if u.stateVector ≤ d.stateVector then d else d ⊔ u) (applyRemoteUpdate L entry) w := by
  rw [applyRemoteUpdate, wp_read, wp_ite]
  refine ⟨fun h => absurd h hunseen, fun _ => ?_⟩
  rw [wp_getDocument_up, hdoc]
  refine wp_load_up (fun doc hdec hlen => ?_) fun err hnone => .of_unchanged rfl (hnone _)
  rw [wp_ite]
  have hred : redundant L doc.state.stateVector entry.yrsUpdate = true ↔
      u.stateVector ≤ doc.state.stateVector := by
    rw [redundant, hu]
    exact CrdtState.covers_iff
  rw [hred]
  refine ⟨fun hcov => ?_, fun hcov => ?_⟩
  · refine wp_storeMerged (fun _ _ he hf => by cases he.symm.trans hf) fun w' _ _ hw' _ => ?_
    refine .of_written (d := doc.state) (by rw [hw']; rfl) hdec hdoc (fun _ => ?_) fun _ => rfl
    rw [if_pos hcov]
  · refine wp_applyUpdate_up hu (fun doc' hdoc' hlen' => ?_) fun err hnone =>
      .of_unchanged rfl hnone
    refine wp_storeMerged (fun _ _ he hf => by cases he.symm.trans hf) fun w' _ _ hw' _ => ?_
    refine .of_written (d := doc.state) (by rw [hw']; rfl) hdec hdoc (fun _ => ?_) fun hnot => ?_
    · rw [if_neg hcov, hdoc']
    · exact absurd ⟨hdec, hlen, hlen'⟩ hnot

lemma wp_applyBatch_stored :
    wp (machine n StorageUp) (fun _ => Leaves L w entry bytes (· ⊔ u))
      (applyBatch L [entry]) w := by
  have hgroups : uniqueDocs w.client.dedup.seen [entry] = [(entry.key, [entry])] := by
    rw [uniqueDocs, foldl_cons, if_neg hunseen]
    rfl
  rw [applyBatch, wp_modify_bind, isEmpty_cons, if_neg Bool.false_ne_true, wp_read,
    setClient_client, Client.logBatch_dedup, hgroups]
  dsimp only
  rw [isEmpty_cons, if_neg Bool.false_ne_true, map_singleton, wp_hashOrder]
  intro e _
  rw [perm_singleton.1 (e.keyOrder [entry.key]).2, wp_bind, mergeDocs, wp_getDocument_up]
  rw [setClient_storage, hdoc]
  refine wp_load_up (fun doc hdec hlen => ?_) fun err hnone => .of_unchanged rfl (hnone _)
  have happly : applyUpdates L doc (([(entry.key, [entry])].lookup entry.key).getD []) =
      doc.applyUpdate L entry.yrsUpdate := by
    rw [lookup_cons_self, Option.getD_some, applyUpdates]
    exact bind_pure _
  rw [happly]
  refine wp_applyUpdate_up hu (fun doc' hdoc' hlen' => ?_) fun err hnone =>
    .of_unchanged rfl hnone
  rw [mergeDocs, wp_pure_bind]
  dsimp only
  rw [wp_pure]
  dsimp only
  rw [wp_writeBatchReconciliation]
  refine forall_up_iff.2 ?_
  rw [wp_modify]
  refine .of_written (d := doc.state) rfl hdec hdoc (fun _ => hdoc') fun hnot => ?_
  exact absurd ⟨hdec, hlen, hlen'⟩ hnot

end

/-- **The two merge paths.** For a stored document and an unseen entry that decodes, merging the
entry alone and as a batch leave the same states, whatever they return, exactly if an update with
no new items has no new deletions either. -/
theorem applyRemoteUpdate_agrees_applyBatch_iff (hdoc : w.storage.documents entry.key = some bytes)
    (hunseen : entry.id ∉ w.client.dedup.seen) (hu : L.decodeV1 entry.yrsUpdate = .ok u) :
    (∀ r₁ w₁ r₂ w₂, Outcome (machine n StorageUp) (applyRemoteUpdate L entry) w r₁ w₁ →
        Outcome (machine n StorageUp) (applyBatch L [entry]) w r₂ w₂ →
        ∀ k, docState L w₁ k = docState L w₂ k) ↔
      ∀ d, Mergeable L bytes entry.yrsUpdate d →
        u.stateVector ≤ d.stateVector → u.deleteSet ⊆ d.deleteSet := by
  have hone := wp_iff_outcome.1 (wp_applyRemoteUpdate_stored (n := n) hdoc hunseen hu)
  have hbatch := wp_iff_outcome.1 (wp_applyBatch_stored (n := n) hdoc hunseen hu)
  constructor
  · intro hagree d hd hcov
    obtain ⟨r₁, w₁, h₁⟩ := exists_outcome_up (n := n) (applyRemoteUpdate L entry) w
    obtain ⟨r₂, w₂, h₂⟩ := exists_outcome_up (n := n) (applyBatch L [entry]) w
    have heq := hagree r₁ w₁ r₂ w₂ h₁ h₂ entry.key
    rw [(hone _ _ h₁).merged d hd, (hbatch _ _ h₂).merged d hd, if_pos hcov] at heq
    exact (sup_eq_left.1 heq.symm).2
  · intro hcond r₁ w₁ r₂ w₂ h₁ h₂ k
    have l₁ := hone _ _ h₁
    have l₂ := hbatch _ _ h₂
    by_cases hk : k = entry.key
    · subst hk
      by_cases hex : ∃ d, Mergeable L bytes entry.yrsUpdate d
      · obtain ⟨d, hd⟩ := hex
        rw [l₁.merged d hd, l₂.merged d hd]
        split_ifs with hcov
        · have hle : u ≤ d := ⟨hcov, hcond d hd hcov⟩
          exact (sup_eq_left.2 hle).symm
        · rfl
      · rw [l₁.kept (not_exists.1 hex), l₂.kept (not_exists.1 hex)]
    · rw [l₁.others k hk, l₂.others k hk]

/-! ## An update that only deletes -/

namespace MergePaths

def titled : World Sym :=
  let w : World Sym := .new .new
  w.setStorage (w.storage.insertDocument ⟨"d", "x"⟩ (.update ⟨{1, 1, 1, 1}, ∅⟩))

def pushed (u : CrdtState) : OplogEntry Sym :=
  DownloadQueue.remoteEntry Sym.lib
    (InMemoryCoordinator.pending "ns" 1 (Sym.mutation "1" "b" u)) (.update u) .pushMutation

def untitle : CrdtState := ⟨∅, {(1, 3)}⟩

theorem agree_on_new_item : docState Sym.lib titled ⟨"d", "x"⟩ = ⟨{1, 1, 1, 1}, ∅⟩ ∧ ∀ r₁ w₁ r₂ w₂,
    Outcome (machine 0 StorageUp) (applyRemoteUpdate Sym.lib (pushed ⟨{2}, {(1, 3)}⟩)) titled r₁ w₁ →
      Outcome (machine 0 StorageUp) (applyBatch Sym.lib [pushed ⟨{2}, {(1, 3)}⟩]) titled r₂ w₂ →
      ∀ k, docState Sym.lib w₁ k = docState Sym.lib w₂ k := by
  have hdoc : titled.storage.documents (pushed ⟨{2}, {(1, 3)}⟩).key =
      some (.update ⟨{1, 1, 1, 1}, ∅⟩) := rfl
  refine ⟨rfl, (applyRemoteUpdate_agrees_applyBatch_iff hdoc (Finset.notMem_empty _) rfl).2
    fun d hd hcov => ?_⟩
  cases hd.stored
  exact absurd hcov (by decide)

def mergedAlone : World Sym :=
  (run (machine 0 StorageUp) (applyRemoteUpdate Sym.lib (pushed untitle)) [] titled).2

def mergedInBatch : World Sym :=
  (run (machine 0 StorageUp) (applyBatch Sym.lib [pushed untitle]) [] titled).2

theorem alone_deletion_dropped :
    Outcome (machine 0 StorageUp) (applyRemoteUpdate Sym.lib (pushed untitle)) titled (.ok ())
        mergedAlone ∧
      Outcome (machine 0 StorageUp) (applyBatch Sym.lib [pushed untitle]) titled (.ok ())
        mergedInBatch ∧
      docState Sym.lib mergedAlone ⟨"d", "x"⟩ = ⟨{1, 1, 1, 1}, ∅⟩ ∧
      docState Sym.lib mergedInBatch ⟨"d", "x"⟩ = ⟨{1, 1, 1, 1}, {(1, 3)}⟩ := by
  have hup : ∀ (op : Call Sym) (w : World Sym), StorageUp op default w ∧
      ∀ e ∈ ([] : List (Env Sym)), StorageUp op e w :=
    fun _ _ => ⟨rfl, fun _ he => absurd he not_mem_nil⟩
  refine ⟨?_, ?_, rfl, rfl⟩
  · exact run_outcome (M := machine 0 StorageUp) _ [] titled hup
  · exact run_outcome (M := machine 0 StorageUp) _ [] titled hup

end MergePaths

end VaultSync
