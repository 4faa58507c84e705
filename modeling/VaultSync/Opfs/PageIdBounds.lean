import VaultSync.Opfs.MaintenanceSpec

/-! The pages of a store that are in use, and the counters above them. -/

namespace VaultSync.Opfs

open StoreState PageStore StoreManifest

variable {F D B : Type}

/-! ## Manifests -/

namespace StoreManifest

variable {m : StoreManifest} {id : ℕ}

lemma mem_allocateAndRotate_livePages (h : id ∈ m.allocateAndRotate.2.contentIndex.livePages) :
    id = m.nextPageId ∨ id ∈ m.contentIndex.livePages := by
  rw [← Finset.mem_insert]
  have hindex : m.allocateAndRotate.2.contentIndex =
      if 0 < m.currentPage ∧ m.currentPage ≠ m.nextPageId then
        (m.contentIndex.track m.nextPageId).removeByPageId m.currentPage
      else m.contentIndex.track m.nextPageId := rfl
  rw [hindex] at h
  split at h
  · exact Finset.mem_of_mem_erase (ContentIndex.removeByPageId_livePages_subset h)
  · exact h

lemma mem_removeByPageId_livePages {ci : ContentIndex} {a : ℕ}
    (h : id ∈ (ci.removeByPageId a).livePages) : id ∈ ci.livePages :=
  Finset.mem_of_mem_erase (ContentIndex.removeByPageId_livePages_subset h)

lemma mem_commitOp_livePages {op : PageTxOp} (h : id ∈ (m.commitOp op).contentIndex.livePages) :
    id ∈ m.contentIndex.livePages ∨ ∃ key, op = .write id key := by
  cases op with
  | write a key =>
    cases key with
    | none =>
      rcases Finset.mem_insert.1 h with rfl | h
      · exact .inr ⟨none, rfl⟩
      · exact .inl h
    | some key =>
      rcases Finset.mem_insert.1 h with rfl | h
      · exact .inr ⟨some key, rfl⟩
      · exact .inl (mem_removeByPageId_livePages h)
  | tombstone a | delete a => exact .inl (mem_removeByPageId_livePages h)

lemma commitOp_highestPageId (op : PageTxOp) : (m.commitOp op).highestPageId = m.highestPageId := by
  cases op with
  | write a key => cases key <;> rfl
  | tombstone a => rfl
  | delete a => rfl

lemma foldl_commitOp (ops : List PageTxOp) (m : StoreManifest) :
    (ops.foldl commitOp m).highestPageId = m.highestPageId ∧
      ∀ id ∈ (ops.foldl commitOp m).contentIndex.livePages,
        id ∈ m.contentIndex.livePages ∨ ∃ key, PageTxOp.write id key ∈ ops := by
  induction ops generalizing m with
  | nil => exact ⟨rfl, fun id h => .inl h⟩
  | cons op ops ih =>
    obtain ⟨hhigh, hlive⟩ := ih (m.commitOp op)
    refine ⟨hhigh.trans (commitOp_highestPageId op), fun id h => ?_⟩
    rcases hlive id h with h | ⟨key, h⟩
    · rcases mem_commitOp_livePages h with h | ⟨key, rfl⟩
      · exact .inl h
      · exact .inr ⟨key, List.mem_cons_self⟩
    · exact .inr ⟨key, List.mem_cons_of_mem op h⟩

lemma nextPageId_commitTx (ops : List PageTxOp) : (m.commitTx ops).nextPageId = m.nextPageId := by
  have h : (m.commitTx ops).highestPageId = m.highestPageId :=
    (foldl_commitOp ops m.incrementGeneration).1
  simp only [nextPageId, h]

lemma mem_commitTx_livePages {ops : List PageTxOp}
    (h : id ∈ (m.commitTx ops).contentIndex.livePages) :
    id ∈ m.contentIndex.livePages ∨ ∃ key, PageTxOp.write id key ∈ ops :=
  (foldl_commitOp ops m.incrementGeneration).2 id h

end StoreManifest

/-! ## Pages in use -/

namespace StoreState

def InUse (s : StoreState F D) (id : ℕ) : Prop :=
  id ∈ s.memory.manifest.contentIndex.livePages ∧ id ∈ s.dir.pages

instance (s : StoreState F D) (id : ℕ) : Decidable (s.InUse id) :=
  inferInstanceAs (Decidable (_ ∧ _))

def Fresh (s s' : StoreState F D) : Prop := ∀ id, s'.handedOut = id :: s.handedOut → ¬ s.InUse id

def next (s : StoreState F D) : ℕ := s.memory.manifest.nextPageId

/-- Every page in use is below the counter `n` of the runtime or below the store's own. -/
structure Bounded (lib : PageLib F D B) (n : ℕ) (s : StoreState F D) : Prop extends
    Sound lib s where
  lt_max : ∀ id, s.InUse id → id < max n s.next

variable {lib : PageLib F D B} {n : ℕ} {s s' : StoreState F D} {id : ℕ}

section

variable (h : Bounded lib n s)

include h

lemma Bounded.of_le (hs : Sound lib s') (hnext : s.next ≤ s'.next)
    (huse : ∀ id, s'.InUse id → s.InUse id ∨ id < max n s'.next) : Bounded lib n s' := by
  refine ⟨hs, fun id hid => ?_⟩
  rcases huse id hid with h' | h'
  · have := h.lt_max id h'
    omega
  · exact h'

lemma Bounded.of_counter_le {n' : ℕ} (hn : n ≤ n') : Bounded lib n' s := by
  refine ⟨h.toSound, fun id hid => ?_⟩
  have := h.lt_max id hid
  omega

lemma Bounded.of_same_store (hmem : s'.memory = s.memory)
    (hdir : s'.dir = s.dir) : Bounded lib n s' := by
  obtain ⟨memory, dir, handedOut⟩ := s'
  subst hmem hdir
  exact ⟨⟨h.manifest, h.formatted⟩, h.lt_max⟩

lemma Bounded.commit {m : StoreManifest} (hnext : s.next ≤ m.nextPageId)
    (hlive : ∀ id ∈ m.contentIndex.livePages,
      id ∈ s.memory.manifest.contentIndex.livePages ∨ id < max n m.nextPageId) :
    Bounded lib n (s.commit m) :=
  h.of_le (h.toSound.commit m) hnext fun id hid =>
    (hlive id hid.1).imp_left fun hl => ⟨hl, hid.2⟩

lemma Bounded.persist {m : StoreManifest} (hnext : s.next ≤ m.nextPageId)
    (hlive : ∀ id ∈ m.contentIndex.livePages,
      id ∈ s.memory.manifest.contentIndex.livePages ∨ id < max n m.nextPageId) :
    Bounded lib n (s.persist m) :=
  h.commit hnext hlive

lemma Bounded.mapCache (f : PageCache D → PageCache D) : Bounded lib n (s.mapCache f) :=
  ⟨h.toSound.mapCache f, h.lt_max⟩

lemma Bounded.handOut (id : ℕ) : Bounded lib n (s.handOut id) :=
  h.of_same_store rfl rfl

lemma Bounded.putFile (data : D) {flags : UInt8}
    (hflags : flags = 0 ∨ flags = 0x02) (hid : id ∈ s.dir.pages ∨ id < max n s.next) :
    Bounded lib n (s.putFile id (lib.encodeV3Page data flags)) := by
  refine h.of_le (h.toSound.putFile id data hflags) le_rfl fun id' hid' => ?_
  rcases Finmap.mem_insert.1 hid'.2 with rfl | hmem
  · exact hid.imp_left fun hmem => ⟨hid'.1, hmem⟩
  · exact .inl ⟨hid'.1, hmem⟩

lemma Bounded.writtenRaw (hid : id < max n s.next) (data : D) :
    Bounded lib n (s.writtenRaw lib id data) :=
  (h.putFile data (.inl rfl) (.inr hid)).mapCache _

lemma Bounded.allocated : Bounded lib n s.allocated := by
  have hnext : s.memory.manifest.allocatePageId.2.nextPageId = s.next + 1 :=
    nextPageId_allocatePageId
  refine (h.commit (by omega) fun id hid => ?_).handOut _
  rcases Finset.mem_insert.1 hid with rfl | hid
  · exact .inr (by change s.next < _; omega)
  · exact .inl hid

lemma Bounded.rotated : Bounded lib n s.rotated := by
  have hnext : s.memory.manifest.allocateAndRotate.2.nextPageId = s.next + 1 :=
    nextPageId_allocatePageId
  refine (h.persist (by omega) fun id hid => ?_).handOut _
  rcases mem_allocateAndRotate_livePages hid with rfl | hid
  · exact .inr (by change s.next < _; omega)
  · exact .inl hid

end

lemma next_allocated : s.allocated.next = s.next + 1 := nextPageId_allocatePageId

/-! ## Page files and the manifest after a scan -/

/-- A scan of the files from `first` on leaves every page with a live file below a counter: each
is below 100 or below the runtime's counter, or there is a file with a larger id. -/
def Covered (lib : PageLib F D B) (n first : ℕ) (pages : Finmap fun _ : ℕ => F) : Prop :=
  ∀ id ∈ pages.keys, first ≤ id → lib.hasLiveFile pages id →
    id < max n 100 ∨ ∃ id' ∈ pages.keys, id < id'

instance (first : ℕ) (pages : Finmap fun _ : ℕ => F) : Decidable (Covered lib n first pages) :=
  Finset.decidableDforallFinset

variable {ids : List ℕ}

lemma Covered.lt_max {pages : Finmap fun _ : ℕ => F} (h : Covered lib n 0 pages)
    (hids : ids.Perm (ascending pages.keys)) (hid : lib.hasLiveFile pages id = true) :
    id < max n (lib.rebuilt pages ids).nextPageId := by
  have hle : ∀ {a}, a ∈ pages → a ≤ (lib.rebuilt pages ids).highestPageId :=
    fun ha => PageLib.le_rebuilt_highestPageId hids ha
  unfold nextPageId
  rcases h id (Finmap.mem_keys.2 (PageLib.mem_of_hasLiveFile hid)) (Nat.zero_le id) hid with h | ⟨id', hid', h⟩
  · split <;> omega
  · have := hle (Finmap.mem_keys.1 hid')
    split <;> omega

lemma bounded_rebuilt {m : StoreManifest} (hs : Sound lib s) (hcov : Covered lib n 0 s.dir.pages)
    (hids : ids.Perm (ascending s.dir.pages.keys)) (hm : s.memory.manifest = m)
    (hnext : m.nextPageId = (lib.rebuilt s.dir.pages ids).nextPageId)
    (hlive : m.contentIndex.livePages = (lib.rebuilt s.dir.pages ids).contentIndex.livePages) :
    Bounded lib n s := by
  refine ⟨hs, fun id hid => ?_⟩
  subst hm
  have hfile : lib.hasLiveFile s.dir.pages id = true := by
    rw [← PageLib.mem_rebuilt_livePages hids, ← hlive]
    exact hid.1
  have := hcov.lt_max hids hfile
  rw [next, hnext]
  exact this

end StoreState

end VaultSync.Opfs
