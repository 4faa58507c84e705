import VaultSync.Sync.Compaction

/-! The timed compaction: old oplog entries, then tombstoned documents, then snapshots. What it
leaves alone. -/

namespace VaultSync

open Async AsyncFn World List CRDTDocument Function

variable {B : Type}

structure CompactionConfig where
  maxSyncedAgeSecs : ℕ
  tombstoneGraceSecs : ℕ
  snapshotEntryThreshold : ℕ

instance : Inhabited CompactionConfig := ⟨24 * 60 * 60, 4 * 60 * 60, 100⟩

namespace CompactionEngine

def removeStored (L : Lib B) (k : Key) : Option B → AsyncFn B ℕ
  | none => pure 0
  | some bytes => do
    let client ← newClientId
    match CRDTDocument.fromSnapshot L client bytes with
    | .error _ => return 0
    | .ok doc =>
      if isTombstone (doc.getField L "_deleted") then
        deleteDocument k
        return 1
      else
        return 0

def removeTombstones (L : Lib B) : List Key → AsyncFn B ℕ
  | [] => pure 0
  | k :: ks => do
    let stored ← getDocument k
    let removed ← removeStored L k stored
    let rest ← removeTombstones L ks
    return removed + rest

def runCompaction (L : Lib B) (config : CompactionConfig) (ns : String) :
    AsyncFn B CompactionStats := do
  let ageOplogRemoved ← deleteSyncedOplogOlderThan ns config.maxSyncedAgeSecs
  let candidates ← listTombstonedDocuments ns config.tombstoneGraceSecs
  let docsRemoved ← removeTombstones L candidates
  let (snapshotStats, _) ← runSnapshotCompaction L config.snapshotEntryThreshold ns
  return ⟨ageOplogRemoved + snapshotStats.oplogRemoved, docsRemoved,
    snapshotStats.snapshotsCollapsed⟩

/-! ## The frame -/

def DeletedLongAgo (ns : String) (graceSecs now : ℕ) (w : World B) (k : Key) : Prop :=
  ∃ e ∈ w.storage.oplog, e.key = k ∧ e.namespace = ns ∧ e.mutationType = .crdtDelete ∧
    e.syncStatus = .synced ∧ e.createdAt + graceSecs * 1000 < now

/-- What a compaction of `ns` that returns `stats` leaves of `w`, if its clock was `now` when it
listed the tombstones. -/
structure Frame (L : Lib B) (ns : String) (graceSecs now : ℕ) (w w' : World B)
    (stats : CompactionStats) : Prop where
  inOrder : w'.storage.oplog.Sublist w.storage.oplog
  kept : w'.storage.oplog.filter (fun e => Protected ns e) =
    w.storage.oplog.filter (fun e => Protected ns e)
  undeleted : ∀ k bytes, w.storage.documents k = some bytes → ¬ Deleted L bytes →
    ∃ bytes', w'.storage.documents k = some bytes' ∧ SameState L bytes bytes'
  removed : ∀ k bytes, w.storage.documents k = some bytes → w'.storage.documents k = none →
    DeletedLongAgo ns graceSecs now w k
  counted : stats.oplogRemoved + w'.storage.oplog.length = w.storage.oplog.length

def ListedAt (now : ℕ) : Call B → Env B → World B → Prop
  | .listTombstonedDocuments _ _, e, _ => e.now = now
  | _, _, _ => True

variable {L : Lib B} {ns : String} {n secs now : ℕ} {A : Call B → Env B → World B → Prop}
  {w w₁ : World B} {k : Key} {P : Key → Prop} {config : CompactionConfig}

lemma Kept.remove {bytes : B} (hstored : w.storage.documents k = some bytes) (hdel : Deleted L bytes)
    (hold : P k) : Kept L ns P w (w.setStorage (w.storage.deleteDocument k)) where
  beside := ⟨rfl, rfl, rfl⟩
  inOrder := .refl _
  kept := rfl
  stored k' b hb := by
    by_cases hk : k' = k
    · subst hk
      rw [hstored] at hb
      cases hb
      exact .inr ⟨update_self _ _ _, hdel, hold⟩
    · exact .inl ⟨b, (update_of_ne hk _ _).trans hb, .inl rfl⟩
  absent k' hk' := by
    by_cases hk : k' = k
    · exact hk ▸ update_self _ _ _
    · exact (update_of_ne hk _ _).trans hk'

lemma kept_deleteSyncedOplogOlderThan (secs nowSecs : ℕ) :
    Kept L ns P w (w.setStorage (w.storage.deleteSyncedOplogOlderThan ns secs nowSecs)) := by
  refine .of_filter (fun e he => ?_) rfl rfl
  rw [decide_eq_true_iff]
  rintro ⟨hns, hs, -⟩
  exact he.elim (· hns) (· hs)

lemma accounts_removeStored (ns : String) (hold : P k) :
    wp (machine n A) (Accounts L ns P (fun _ => 0) w)
      (removeStored L k (w.storage.documents k)) w := by
  cases hstored : w.storage.documents k with
  | none => exact .ok_of_reads rfl rfl
  | some bytes =>
    rw [removeStored, wp_newClientId]
    intro e _
    cases hdoc : fromSnapshot L e.clientId bytes with
    | error err => exact .ok_of_reads rfl rfl
    | ok doc =>
      dsimp only
      rw [wp_ite]
      refine ⟨fun htomb => ?_, fun _ => .ok_of_reads rfl rfl⟩
      rw [wp_deleteDocument]
      refine fun _ _ => ⟨fun err _ => .failed err, fun _ => ?_⟩
      have hdel : Deleted L bytes := ⟨doc.state, (fromSnapshot_ok hdoc).1, htomb⟩
      exact .ok (.remove hstored hdel hold) (Nat.zero_add _)

lemma accounts_removeTombstones (ns : String) {ks : List Key} (hold : ∀ k ∈ ks, P k) :
    wp (machine n A) (Accounts L ns P (fun _ => 0) w) (removeTombstones L ks) w := by
  induction ks generalizing w with
  | nil => exact .ok_of_reads rfl rfl
  | cons k ks ih =>
    rw [forall_mem_cons] at hold
    rw [removeTombstones, wp_getDocument]
    refine fun _ _ => ⟨fun err _ => .failed err, fun _ => ?_⟩
    have hread : Kept L ns P w (w.recordRead n k) := .of_reads rfl
    refine (accounts_removeStored (w := w.recordRead n k) ns hold.1).bind (fun a w₁ h1 => ?_)
      fun err _ h => .error (hread.trans h.1) err
    have hkept := hread.trans h1.1
    refine (ih hold.2).bind (fun b w₂ h2 => ?_) fun err _ h => .error (hkept.trans h.1) err
    exact .ok (hkept.trans h2.1) ((h2.2 b rfl).trans ((Nat.zero_add _).symm.trans (h1.2 a rfl)))

lemma deletedLongAgo_of_listed (hfits : secs * 1000 < 2 ^ 64)
    (h : k ∈ w.storage.listTombstonedDocuments ns secs now) : DeletedLongAgo ns secs now w k := by
  unfold InMemoryStorage.listTombstonedDocuments at h
  obtain ⟨e, he, hkey⟩ := mem_map.1 (mem_dedup.1 h)
  obtain ⟨hmem, hp⟩ := mem_filter.1 he
  obtain ⟨hns, htype, hsync, hage⟩ := of_decide_eq_true hp
  rw [Nat.mod_eq_of_lt hfits] at hage
  exact ⟨e, hmem, hkey, hns, htype, hsync, Nat.add_lt_of_lt_sub hage⟩

lemma accounts_runCompaction
    (hold : ∀ e w₁, A (.listTombstonedDocuments ns config.tombstoneGraceSecs) e w₁ →
      Kept L ns P w w₁ →
      ∀ k ∈ w₁.storage.listTombstonedDocuments ns config.tombstoneGraceSecs e.now, P k) :
    wp (machine n A) (Accounts L ns P (fun stats => stats.oplogRemoved) w)
      (runCompaction L config ns) w := by
  rw [runCompaction, wp_deleteSyncedOplogOlderThan]
  refine fun e _ => ⟨fun err _ => .failed err, fun _ => ?_⟩
  have haged : Kept L ns P w _ :=
    kept_deleteSyncedOplogOlderThan config.maxSyncedAgeSecs (e.now / 1000)
  have hlen := length_add_of_kept haged
  generalize hw1 : w.setStorage (w.storage.deleteSyncedOplogOlderThan ns config.maxSyncedAgeSecs
    (e.now / 1000)) = w₁ at haged hlen ⊢
  rw [wp_listTombstonedDocuments]
  refine fun e' he' => ⟨fun err _ => .error haged err, fun _ => ?_⟩
  have hkeys : ∀ k ∈ (e'.keyOrder (w₁.storage.listTombstonedDocuments ns
      config.tombstoneGraceSecs e'.now)).1, P k := fun k hk =>
    hold e' w₁ he' haged k ((e'.keyOrder _).2.mem_iff.1 hk)
  refine (accounts_removeTombstones ns hkeys).bind (fun removed w₂ h2 => ?_)
    fun err _ h => .error (haged.trans h.1) err
  have hkept := haged.trans h2.1
  refine (wp_runSnapshotCompaction (P := P) _).bind (fun p w3 h3 => ?_)
    fun err _ h => .error (hkept.trans h.1.1) err
  refine .ok (hkept.trans h3.1.1) ?_
  have hlen2 := h2.2 removed rfl
  have hlen3 := h3.1.2 p rfl
  subst hw1
  simp only [setStorage_storage] at hlen hlen2
  dsimp only at hlen2 hlen3 ⊢
  omega

lemma frame_runCompaction (hfits : config.tombstoneGraceSecs * 1000 < 2 ^ 64) :
    wp (machine n (ListedAt now)) (fun r w' => ∀ stats, r = .ok stats →
      Frame L ns config.tombstoneGraceSecs now w w' stats) (runCompaction L config ns) w := by
  have haccounts : wp (machine n (ListedAt now)) (Accounts L ns
      (DeletedLongAgo ns config.tombstoneGraceSecs now w) (fun stats => stats.oplogRemoved) w)
      (runCompaction L config ns) w := by
    refine accounts_runCompaction fun e w₁ he hkept k hk => ?_
    rw [show e.now = now from he] at hk
    obtain ⟨e', he', hrest⟩ := deletedLongAgo_of_listed hfits hk
    exact ⟨e', hkept.inOrder.subset he', hrest⟩
  refine haccounts.mono fun r w' ⟨hall, hlen⟩ stats hr => ?_
  refine ⟨hall.inOrder, hall.kept, fun k bytes hb hnot => ?_, fun k bytes hb hgone => ?_,
    hlen stats hr⟩
  · exact (hall.stored k bytes hb).resolve_right fun h => hnot h.2.1
  · rcases hall.stored k bytes hb with ⟨b, hb', -⟩ | ⟨-, -, hk⟩
    · rw [hgone] at hb'
      cases hb'
    · exact hk

/-! ## A grace period that wraps -/

def deletedAtZero (syncedAt : ℕ) : OplogEntry Sym where
  id := "1"
  replicaId := "a"
  «namespace» := "ns"
  mutationType := .crdtDelete
  docId := "d"
  recordId := "x"
  yrsUpdate := .update ⟨{0}, ∅⟩
  encryptedBlob := none
  timestamp := 0
  sequence := some 1
  syncStatus := .synced
  syncedAt := some syncedAt
  createdAt := 0
  schemaVersion := 0
  origin := .delete
  originContext := ""

def tombstoneLib : Lib Sym := Sym.mapLib fun _ => ("_deleted", .boolean true)

def tombstoned (syncedAt : ℕ) : World Sym :=
  (World.new .new).setStorage
    { documents := Function.update (fun _ => none) ⟨"d", "x"⟩ (some (.update ⟨{0}, ∅⟩))
      oplog := [deletedAtZero syncedAt]
      syncStates := fun _ => none }

def wrappedNow (config : CompactionConfig) : ℕ := config.tombstoneGraceSecs * 1000 % 2 ^ 64 + 1

lemma tombstoned_aged (now secs : ℕ) :
    (tombstoned now).storage.deleteSyncedOplogOlderThan "ns" secs (now / 1000) =
      (tombstoned now).storage := by
  have hle : now / 1000 ≤ now + secs := (Nat.div_le_self _ _).trans (Nat.le_add_right _ _)
  unfold InMemoryStorage.deleteSyncedOplogOlderThan tombstoned deletedAtZero
  simp [hle]

def clockAt (now : ℕ) : Env Sym := { (default : Env Sym) with now := now }

lemma removed_of_wp {Q : Except VaultSyncError CompactionStats → World Sym → Prop}
    (h : wp (machine 0 (ListedAt (wrappedNow config))) Q (runCompaction tombstoneLib config "ns")
      (tombstoned (wrappedNow config))) :
    ∃ stats w', Q (.ok stats) w' ∧ w'.storage.documents ⟨"d", "x"⟩ = none := by
  have haged := tombstoned_aged (wrappedNow config) config.maxSyncedAgeSecs
  have hlisted : (tombstoned (wrappedNow config)).storage.listTombstonedDocuments "ns"
      config.tombstoneGraceSecs (wrappedNow config) = [⟨"d", "x"⟩] := by
    unfold InMemoryStorage.listTombstonedDocuments tombstoned deletedAtZero wrappedNow
    simp [OplogEntry.key]
  generalize hnow : wrappedNow config = now at h haged hlisted
  rw [runCompaction, wp_deleteSyncedOplogOlderThan] at h
  replace h := (h (clockAt now) trivial).2 rfl
  change wp _ _ _ ((tombstoned now).setStorage
    ((tombstoned now).storage.deleteSyncedOplogOlderThan _ _ (now / 1000))) at h
  rw [haged, wp_listTombstonedDocuments] at h
  replace h := (h (clockAt now) rfl).2 rfl
  change wp _ _ (removeTombstones tombstoneLib
    ((tombstoned now).storage.listTombstonedDocuments _ _ now) >>= _) _ at h
  rw [hlisted, removeTombstones, wp_bind, wp_getDocument] at h
  replace h := (h default trivial).2 rfl
  change wp _ _ (removeStored _ _ (some _) >>= _) _ at h
  rw [wp_bind, removeStored, wp_newClientId] at h
  replace h := h default trivial
  change wp _ _ (deleteDocument _ >>= _) _ at h
  rw [wp_deleteDocument] at h
  replace h := (h default trivial).2 rfl
  change wp _ _ (runSnapshotCompaction _ _ _ >>= _) _ at h
  rw [wp_bind, runSnapshotCompaction, wp_listActiveDocuments] at h
  replace h := (h default trivial).2 rfl
  change wp _ _ (compactDocuments _ _ _ [⟨"d", "x"⟩] >>= _) _ at h
  rw [compactDocuments, wp_bind, wp_bind, compactDocument, wp_readSyncedOplogForDocument] at h
  replace h := (h default trivial).2 rfl
  rw [wp_ite] at h
  by_cases hlong : config.snapshotEntryThreshold < 1
  · replace h := h.1 hlong
    rw [wp_getDocument] at h
    exact ⟨_, _, (h default trivial).2 rfl, rfl⟩
  · exact ⟨_, _, h.2 hlong, rfl⟩

/-- A timed compaction keeps its frame in every state and at every time if, and only if, the
grace period in milliseconds is a `u64`. -/
theorem frame_iff_grace_fits (config : CompactionConfig) :
    (∀ (B : Type) (L : Lib B) (n : ℕ) (ns : String) (now : ℕ) (w : World B),
      wp (machine n (ListedAt now)) (fun r w' => ∀ stats, r = .ok stats →
        Frame L ns config.tombstoneGraceSecs now w w' stats) (runCompaction L config ns) w) ↔
      config.tombstoneGraceSecs * 1000 < 2 ^ 64 := by
  refine ⟨fun h => ?_, fun hfits B L n ns now w => frame_runCompaction hfits⟩
  by_contra hwrap
  obtain ⟨stats, w', hframe, hgone⟩ := removed_of_wp (h Sym tombstoneLib 0 "ns" (wrappedNow config)
    (tombstoned (wrappedNow config)))
  obtain ⟨e, he, -, -, -, -, hold⟩ := (hframe stats rfl).removed ⟨"d", "x"⟩ _ rfl hgone
  rw [mem_singleton.1 he] at hold
  have hlt : config.tombstoneGraceSecs * 1000 % 2 ^ 64 < 2 ^ 64 := Nat.mod_lt _ (Nat.two_pow_pos 64)
  unfold wrappedNow deletedAtZero at hold
  dsimp only at hold
  omega

/-- A grace period of 2 ^ 61 seconds is one of 0 milliseconds: a record deleted at time 0 is
removed at time 1. -/
theorem wrapped_grace_removes_at_once :
    ∃ stats w', Outcome (machine 0 (ListedAt 1))
        (runCompaction tombstoneLib ⟨24 * 60 * 60, 2 ^ 61, 100⟩ "ns") (tombstoned 1) (.ok stats) w' ∧
      w'.storage.documents ⟨"d", "x"⟩ = none ∧
      ¬ Frame tombstoneLib "ns" (2 ^ 61) 1 (tombstoned 1) w' stats := by
  by_contra hno
  let config : CompactionConfig := ⟨24 * 60 * 60, 2 ^ 61, 100⟩
  have hnow : wrappedNow config = 1 := by decide
  have hwp : wp (machine 0 (ListedAt (wrappedNow config))) (fun r w' => ∀ stats, r = .ok stats →
      w'.storage.documents ⟨"d", "x"⟩ = none → Frame tombstoneLib "ns" (2 ^ 61) 1 (tombstoned 1) w'
        stats) (runCompaction tombstoneLib config "ns") (tombstoned (wrappedNow config)) := by
    rw [hnow, wp_iff_outcome]
    rintro _ w' hout stats rfl hgone
    by_contra hframe
    exact hno ⟨stats, w', hout, hgone, hframe⟩
  obtain ⟨stats, w', hframe, hgone⟩ := removed_of_wp hwp
  obtain ⟨e, he, -, -, -, -, hold⟩ := (hframe stats rfl hgone).removed ⟨"d", "x"⟩ _ rfl hgone
  rw [mem_singleton.1 he] at hold
  exact absurd hold (by decide)

end CompactionEngine

end VaultSync
