import VaultSync.Async.Embedding
import VaultSync.Opfs.PageIdBounds

/-! Each function of a page store hands out fresh ids only and keeps the bound on the pages in
use. -/

namespace VaultSync.Opfs

open Async StoreState PageFn PageStore List Finmap StoreManifest

variable {F D B α : Type}

section functions

variable {lib : PageLib F D B} {n : ℕ} {s : StoreState F D} {id : ℕ} {data : D}
  {Q : Except VaultSyncError α → StoreState F D → Prop}

abbrev KeepsBound (lib : PageLib F D B) (n : ℕ) (t : PageFn F D α) (s : StoreState F D) : Prop :=
  Upholds (machine B) Fresh (fun _ => Bounded lib n) t s

lemma length_handedOut_handle (op : FileOp F) (e : Env B) (s : StoreState F D) :
    s.handedOut.length ≤ (StoreState.handle op e s).2.handedOut.length := by
  cases op with
  | removeFile id =>
    simp only [StoreState.handle]
    split <;> exact le_rfl
  | allocatePageId | allocateAndRotate => exact Nat.le_succ _
  | _ => exact le_rfl

lemma upholds_of_wp {t : PageFn F D α}
    (h : wp (machine B) (fun r s' => s'.handedOut = s.handedOut ∧ Q r s') t s) :
    Upholds (machine B) Fresh Q t s := by
  refine ⟨?_, h.mono fun r s' hr => hr.2⟩
  have hlen : wp (machine B) (fun _ s' => s'.handedOut.length ≤ s.handedOut.length) t s :=
    h.mono fun r s' hr => (congrArg List.length hr.1).le
  refine (always_of_wp_le (fun s => s.handedOut.length) (fun _ _ => trivial)
    length_handedOut_handle (fun _ _ => le_rfl) le_rfl hlen).mono fun s s' hs id hid => ?_
  rw [hid, length_cons] at hs
  omega

lemma upholds_allocatePageId {Q : Except VaultSyncError ℕ → StoreState F D → Prop}
    (hfresh : ¬ s.InUse s.next) (hQ : Q (.ok s.next) s.allocated) :
    Upholds (machine B) Fresh Q allocatePageId s := by
  refine ⟨fun e _ => ⟨fun id hid => ?_, fun e' _ => ⟨fun id hid => ?_, trivial⟩⟩,
    wp_allocatePageId.2 hQ⟩
  · obtain rfl : s.next = id := (List.cons.inj hid).1
    exact hfresh
  · exact absurd (congrArg List.length hid) (Nat.succ_ne_self _).symm

lemma upholds_allocateAndRotate {Q : Except VaultSyncError (ℕ × ℕ) → StoreState F D → Prop}
    (hfresh : ¬ s.InUse s.next) (hQ : Q (.ok (s.next, s.memory.manifest.currentPage)) s.rotated) :
    Upholds (machine B) Fresh Q allocateAndRotate s := by
  refine ⟨fun e _ => ⟨fun id hid => ?_, ?_⟩, wp_allocateAndRotate.2 hQ⟩
  · obtain rfl : s.next = id := (List.cons.inj hid).1
    exact hfresh
  · have hrest := (upholds_of_wp (B := B) (Q := fun _ _ => True)
      (t := (do persistManifest s.memory.manifest.allocateAndRotate.2
                return s.memory.manifest.allocateAndRotate.1 : PageFn F D (ℕ × ℕ)))
      (s := (s.setManifest s.memory.manifest.allocateAndRotate.2).handOut s.next)
      ((wp_bind _ _).2 ((wp_persistManifest _).2 ⟨rfl, trivial⟩))).1
    exact hrest

lemma StoreState.Sound.lookup_cases (h : Sound lib s) (id : ℕ) :
    (∃ data flags, s.dir.pages.lookup id = some (lib.encodeV3Page data flags)) ∨
      id ∉ s.dir.pages := by
  by_cases hid : id ∈ s.dir.pages
  · rcases h.formatted.mem_cases hid with ⟨data, hf⟩ | ⟨data, hf⟩
    · exact .inl ⟨data, 0, hf⟩
    · exact .inl ⟨data, 0x02, hf⟩
  · exact .inr hid

def WritesBelow (bound : ℕ) (steps : List (TxStep D)) : Prop :=
  ∀ step ∈ steps,
    match step with
    | .write id _ _ => id < bound
    | .tombstone _ => True

def OpsBelow (bound : ℕ) (ops : List PageTxOp) : Prop :=
  ∀ id key, PageTxOp.write id key ∈ ops → id < bound

variable {ops : List PageTxOp} {steps : List (TxStep D)} {ids : List ℕ}

lemma OpsBelow.append {bound : ℕ} {ops' : List PageTxOp} (h : OpsBelow bound ops)
    (h' : OpsBelow bound ops') : OpsBelow bound (ops ++ ops') := fun id key hop =>
  (mem_append.1 hop).elim (h id key) (h' id key)

lemma hasLiveFile_dropFiles (hid : id ∉ ids) :
    lib.hasLiveFile (s.dropFiles ids).dir.pages id = lib.hasLiveFile s.dir.pages id := by
  simp only [PageLib.hasLiveFile, lookup_dropFiles, if_neg hid]

lemma mem_dropFiles : id ∈ (s.dropFiles ids).dir.pages ↔ id ∉ ids ∧ id ∈ s.dir.pages := by
  rw [mem_iff, mem_iff]
  simp only [lookup_dropFiles]
  by_cases hid : id ∈ ids
  · simp [hid]
  · simp [hid]

section

variable (h : Bounded lib n s)

include h

lemma StoreState.Bounded.fresh (hn : n ≤ s.next) : ¬ s.InUse s.next := by
  intro huse
  have := h.lt_max s.next huse
  omega

lemma upholds_bounded_commitAllocatedPageId (hid : id < max n s.next) :
    KeepsBound lib n (commitAllocatedPageId id) s := by
  refine upholds_of_wp ((wp_commitManifest _).2 ⟨rfl, h.commit le_rfl fun id' hid' => ?_⟩)
  rcases Finset.mem_insert.1 hid' with rfl | hid'
  · exact .inr hid
  · exact .inl hid'

lemma StoreState.Bounded.commitPageWrite (hid : id < max n s.next) :
    Bounded lib n (s.commit (s.memory.manifest.commitPageWrite id none)) := by
  refine h.commit le_rfl fun id' hid' => ?_
  rcases Finset.mem_insert.1 hid' with rfl | hid'
  · exact .inr hid
  · exact .inl hid'

lemma upholds_bounded_writeInPlace (hid : id < max n s.next) :
    KeepsBound lib n (writeInPlace lib id data) s := by
  refine upholds_of_wp ((wp_writeInPlace id data).2 ?_)
  unfold writtenInPlace
  dsimp only
  split
  · have h' : Bounded lib n { s with memory := { s.memory with splitPending := true } } :=
      ⟨⟨h.manifest, h.formatted⟩, h.lt_max⟩
    exact ⟨rfl, (h'.writtenRaw hid data).commitPageWrite hid⟩
  · exact ⟨rfl, (h.writtenRaw hid data).commitPageWrite hid⟩

lemma upholds_bounded_splitEntries (hn : n ≤ s.next)
    (hfile : s.dir.pages.lookup id = some (lib.encodeV3Page data 0)) (hid : id < s.next)
    (entries : List (OplogEntry B)) :
    KeepsBound lib n (splitEntries lib id entries) s := by
  have hnext : s.allocated.next = s.next + 1 := next_allocated
  have hnext' : s.allocated.allocated.next = s.next + 2 := by rw [next_allocated, hnext]
  have hleft : s.next < max n s.allocated.allocated.next := by omega
  have hright : s.allocated.next < max n s.allocated.allocated.next := by omega
  refine upholds_bind (upholds_allocatePageId (h.fresh hn) ?_)
  refine upholds_bind (upholds_allocatePageId (h.allocated.fresh (by omega)) ?_)
  have hhalved : Bounded lib n (s.halved lib entries) :=
    (h.allocated.allocated.writtenRaw hleft _).writtenRaw hright _
  have hlookup : (s.halved lib entries).dir.pages.lookup id =
      some (lib.encodeV3Page data 0) := by
    refine (lookup_insert_of_ne _ (show id ≠ s.allocated.next by omega)).trans ?_
    exact (lookup_insert_of_ne _ (show id ≠ s.next by omega)).trans hfile
  have hmem : id ∈ (s.halved lib entries).dir.pages := mem_iff.2 ⟨_, hlookup⟩
  refine upholds_of_wp ?_
  simp only [wp_bind, wp_writePageTx]
  change wp (machine B) _ (tombstonePageTx lib id) (s.halved lib entries)
  rw [wp_tombstonePageTx hlookup]
  simp only [cons_append, nil_append, wp_commitTx]
  refine ⟨rfl, ((hhalved.mapCache _).putFile data (.inr rfl) (.inl hmem)).commit
    (nextPageId_commitTx _).ge fun id' hid' => ?_⟩
  rcases mem_commitTx_livePages hid' with hid' | ⟨key, hop⟩
  · exact .inl hid'
  · -- a page the transaction writes is one of the two just allocated
    rw [nextPageId_commitTx]
    simp only [mem_cons, PageTxOp.write.injEq, reduceCtorEq, not_mem_nil, or_false] at hop
    rcases hop with ⟨rfl, -⟩ | ⟨rfl, -⟩
    · exact .inr hleft
    · exact .inr hright

lemma upholds_bounded_emergencySplit (hn : n ≤ s.next) :
    KeepsBound lib n (emergencySplit lib data) s := by
  have hnext : s.allocated.next = s.next + 1 := next_allocated
  have hwritten : Bounded lib n (s.allocated.writtenRaw lib s.next data) :=
    h.allocated.writtenRaw (by omega) data
  have hcached : (s.allocated.writtenRaw lib s.next data).memory.pageCache.entries.lookup s.next =
    some data := PageCache.lookup_insert_self
  refine upholds_bind (upholds_allocatePageId (h.fresh hn) ?_)
  refine upholds_bind (upholds_of_wp ((wp_writePageRaw _ _).2 ⟨rfl, ?_⟩))
  refine upholds_bind (upholds_of_wp ((wp_readPage_cached hcached).2 ⟨rfl, ?_⟩))
  dsimp only
  cases lib.decodeOplog data with
  | none => exact upholds_of_wp ((wp_pure ()).2 ⟨rfl, hwritten.mapCache _⟩)
  | some entries =>
    have hfile : (s.allocated.writtenRaw lib s.next data).dir.pages.lookup s.next =
      some (lib.encodeV3Page data 0) := lookup_insert _
    exact upholds_bounded_splitEntries (hwritten.mapCache _)
      (show n ≤ s.allocated.next by omega) hfile (show s.next < s.allocated.next by omega) entries

lemma upholds_bounded_writePageVerify [DecidableEq D] (hid : id < max n s.next) :
    KeepsBound lib n (writePageVerify lib id data) s := by
  refine upholds_of_wp (wp_writePageVerify.2 ⟨rfl, ?_⟩)
  set tmp := (id + 2 ^ 63) % 2 ^ 64
  have hsound :=
    ((h.toSound.putFile tmp data (.inl rfl)).putFile id data (.inl rfl)).dropFiles [tmp]
  refine h.of_le (hsound.commit _) le_rfl fun id' hid' => ?_
  obtain ⟨hne, hmem⟩ := mem_erase.1 hid'.2
  rcases mem_insert.1 hmem with rfl | hmem
  · exact .inr hid
  · have hpage : id' ∈ s.dir.pages := (mem_insert.1 hmem).resolve_left hne
    rcases Finset.mem_insert.1 hid'.1 with rfl | hlive
    · exact .inr hid
    · exact .inl ⟨hlive, hpage⟩

/-! ## Tombstones and transactions -/

lemma StoreState.Bounded.removeFromIndex :
    Bounded lib n (s.commit (s.memory.manifest.removeFromIndex id)) :=
  h.commit le_rfl fun _ hid' => .inl (mem_removeByPageId_livePages hid')

lemma StoreState.Bounded.rewrite {f : F} (hf : s.dir.pages.lookup id = some f) (data : D) :
    Bounded lib n (s.putFile id (lib.encodeV3Page data 0x02)) :=
  h.putFile data (.inr rfl) (.inl (mem_iff.2 ⟨f, hf⟩))

lemma upholds_bounded_tombstonePage : KeepsBound lib n (tombstonePage lib id) s := by
  refine upholds_of_wp ?_
  rcases h.toSound.lookup_cases id with ⟨data, flags, hf⟩ | hid
  · rw [wp_tombstonePage hf]
    exact ⟨rfl, ((h.rewrite hf data).mapCache _).removeFromIndex⟩
  · rw [wp_tombstonePage_of_missing hid]
    exact ⟨rfl, h.removeFromIndex⟩

lemma upholds_bounded_tombstonePageFileOnly : KeepsBound lib n (tombstonePageFileOnly lib id) s := by
  refine upholds_of_wp ?_
  rcases h.toSound.lookup_cases id with ⟨data, flags, hf⟩ | hid
  · rw [wp_tombstonePageFileOnly hf]
    exact ⟨rfl, (h.mapCache _).rewrite hf data⟩
  · rw [wp_tombstonePageFileOnly_of_missing hid]
    exact ⟨rfl, h.mapCache _⟩

lemma wp_bounded_step {step : TxStep D} (hstep : WritesBelow (max n s.next) [step]) :
    wp (machine B) (fun r s' => ∃ ops, r = .ok ops ∧ OpsBelow (max n s.next) ops ∧
      Bounded lib n s' ∧ s'.handedOut = s.handedOut ∧ s'.memory.manifest = s.memory.manifest)
      (step.prog lib) s := by
  cases step with
  | write id key data =>
    have hid : id < max n s.next := hstep _ mem_cons_self
    refine (wp_writePageTx key).2 ⟨_, rfl, fun id' key' hop => ?_, h.writtenRaw hid data, rfl, rfl⟩
    cases mem_singleton.1 hop
    exact hid
  | tombstone id =>
    rw [TxStep.prog]
    rcases h.toSound.lookup_cases id with ⟨data, flags, hf⟩ | hid
    · rw [wp_tombstonePageTx hf]
      refine ⟨_, rfl, fun id' key' hop => ?_, (h.mapCache _).rewrite hf data, rfl, rfl⟩
      cases mem_singleton.1 hop
    · rw [wp_tombstonePageTx_of_missing hid]
      exact ⟨_, rfl, nofun, h.mapCache _, rfl, rfl⟩

lemma wp_bounded_transactionOps (hsteps : WritesBelow (max n s.next) steps)
    (hops : OpsBelow (max n s.next) ops) :
    wp (machine B) (fun r s' => ∃ ops, r = .ok ops ∧ OpsBelow (max n s.next) ops ∧
      Bounded lib n s' ∧ s'.handedOut = s.handedOut ∧ s'.memory.manifest = s.memory.manifest)
      (transactionOps lib steps ops) s := by
  induction steps generalizing s ops with
  | nil => exact ⟨ops, rfl, hops, h, rfl, rfl⟩
  | cons step steps ih =>
    have hstep : WritesBelow (max n s.next) [step] := fun a ha =>
      hsteps a (mem_singleton.1 ha ▸ mem_cons_self)
    rw [transactionOps, wp_bind]
    refine (wp_bounded_step h hstep).mono ?_
    rintro _ s' ⟨recorded, rfl, hrecorded, h', hout, hm⟩
    have hnext : s'.next = s.next := congrArg nextPageId hm
    rw [← hnext] at hsteps hops hrecorded ⊢
    rw [← hout, ← hm]
    exact ih h' (fun a ha => hsteps a (mem_cons_of_mem step ha)) (hops.append hrecorded)

lemma upholds_bounded_transaction (hsteps : WritesBelow (max n s.next) steps) :
    KeepsBound lib n (transaction lib steps) s := by
  refine upholds_of_wp ?_
  rw [transaction, wp_bind]
  have hnil : OpsBelow (max n s.next) [] := nofun
  refine (wp_bounded_transactionOps h hsteps hnil).mono ?_
  rintro _ s' ⟨ops, rfl, hops, h', hout, hm⟩
  have hnext : s'.next = s.next := congrArg nextPageId hm
  cases ops with
  | nil => exact ⟨hout, h'⟩
  | cons op ops =>
    refine wp_commitTx.2 ⟨hout, h'.commit (nextPageId_commitTx _).ge fun id hid => ?_⟩
    rw [nextPageId_commitTx]
    rcases mem_commitTx_livePages hid with hid | ⟨key, hop⟩
    · exact .inl hid
    · have := hops id key hop
      rw [← hnext] at this
      exact .inr this

/-! ## Maintenance -/

/-- No page file waits to be removed, or every live one is below a counter that the removal
keeps. -/
def CleanupKeeps (lib : PageLib F D B) (n : ℕ) (pages : Finmap fun _ : ℕ => F) : Prop :=
  (∀ id ∈ pages.keys, lib.hasLiveFile pages id) ∨
    ∀ id ∈ pages.keys, lib.hasLiveFile pages id → id < max n 100

instance (pages : Finmap fun _ : ℕ => F) : Decidable (CleanupKeeps lib n pages) :=
  @instDecidableOr _ _ Finset.decidableDforallFinset Finset.decidableDforallFinset

lemma upholds_bounded_cleanup (hkeep : CleanupKeeps lib n s.dir.pages) :
    KeepsBound lib n (cleanupTombstonedPages lib) s := by
  refine upholds_of_wp ?_
  refine wp_cleanupTombstonedPages h.formatted (fun _ => ⟨rfl, h⟩) ?_
  intro _ dead ids hclean _ hids
  refine ⟨rfl, bounded_rebuilt ((h.toSound.dropFiles dead).persist _) ?_ hids rfl rfl rfl⟩
  -- a live file that is left was live before
  intro id hid _ hlive
  obtain ⟨hnot, hpage⟩ := mem_dropFiles.1 (mem_keys.1 hid)
  exact .inl (hkeep.resolve_left hclean id (mem_keys.2 hpage)
    ((hasLiveFile_dropFiles hnot).symm.trans hlive))

def GcKeeps (lib : PageLib F D B) (n : ℕ) (s : StoreState F D) : Prop :=
  s.memory.gcNeeded = true → 0 < s.memory.manifest.currentPage →
    (∃ id ∈ s.dir.pages.keys, id < s.memory.manifest.currentPage) →
      Covered lib n s.memory.manifest.currentPage s.dir.pages

instance : Decidable (GcKeeps lib n s) :=
  inferInstanceAs (Decidable (_ → _ → _ → _))

lemma upholds_bounded_runPendingGc (hkeep : GcKeeps lib n s) :
    KeepsBound lib n (runPendingGc lib) s := by
  refine upholds_of_wp ?_
  rw [wp_runPendingGc, h.manifest]
  dsimp only [ManifestFile.verified]
  split
  · rename_i hneeded
    split
    · rename_i hpos
      refine wp_collect _ (fun _ => ⟨rfl, h.toSound.collected, h.lt_max⟩) ?_
      intro _ stale ids hstale hmem hids
      have hcov := hkeep hneeded hpos <| hstale.imp fun id hid => ⟨mem_keys.2 hid.1, hid.2⟩
      refine ⟨rfl, bounded_rebuilt ((h.toSound.dropFiles stale).persist _).collected ?_ hids rfl rfl
        rfl⟩
      -- the files that are left are those from the current page on
      intro id hid _ hlive
      obtain ⟨hnot, hpage⟩ := mem_dropFiles.1 (mem_keys.1 hid)
      have hle : s.memory.manifest.currentPage ≤ id := by
        by_contra hlt
        exact hnot ((hmem id).2 ⟨hpage, not_le.1 hlt⟩)
      rcases hcov id (mem_keys.2 hpage) hle ((hasLiveFile_dropFiles hnot).symm.trans hlive)
        with hlt | ⟨id', hid', hlt⟩
      · exact .inl hlt
      · refine .inr ⟨id', mem_keys.2 (mem_dropFiles.2 ⟨fun hin => ?_, mem_keys.1 hid'⟩),
          hlt⟩
        have := ((hmem id').1 hin).2
        omega
    · exact ⟨rfl, h⟩
  · exact ⟨rfl, h⟩

end

/-! ## Opening -/

def StoreCovers (s : StoreState F D) : Prop :=
  ∀ id ∈ s.memory.manifest.contentIndex.livePages, id ∈ s.dir.pages → id < s.next

instance : Decidable (StoreCovers s) := Finset.decidableDforallFinset

lemma upholds_bounded_openStore_of_invalid (h : Formatted lib s.dir.pages)
    (hm : s.dir.manifest.verified = none) (hcov : Covered lib 0 0 s.dir.pages) :
    Upholds (machine B) Fresh (fun r s' => r = .ok () ∧ Bounded lib 0 s') (openStore lib) s := by
  refine upholds_of_wp ((wp_openStore_of_invalid hm).2 fun ids hids => ⟨rfl, rfl, ?_⟩)
  exact bounded_rebuilt ⟨rfl, h⟩ hcov hids rfl rfl rfl

end functions

end VaultSync.Opfs
