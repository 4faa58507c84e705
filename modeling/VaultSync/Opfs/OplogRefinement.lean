import VaultSync.Opfs.OplogCalls
import VaultSync.Opfs.Symbolic

/-! Runs of the oplog's operations, against a map from ids to entries. -/

namespace VaultSync.Opfs.OplogRefinement

open Async StoreState PageStore OpfsStorage Versions List Function VersionChain

variable {F D B α : Type}

/-! ## The map -/

abbrev OplogMap (B : Type) := String → Option (OplogEntry B)

inductive Event (B : Type) where
  | appendOplog (entry : OplogEntry B)
  | markSynced (id : String) (sequence : ℕ)
  | markFailed (id : String)
  | deleteSyncedBefore («namespace» : String) (cutoff : ℕ)
  | deleteSyncedOplogOlderThan («namespace» : String) (olderThanSecs now : ℕ)
  | deleteSyncedOplogBeforeTimestamp («namespace» : String) (key : Key) (timestamp : ℕ)
  | runPendingGc

def without (removed : OplogEntry B → Bool) (m : OplogMap B) : OplogMap B :=
  fun id => (m id).filter fun e => !removed e

def Event.apply (m : OplogMap B) : Event B → OplogMap B
  | appendOplog e => Function.update m e.id (some e)
  | markSynced id sequence => Function.update m id ((m id).map (synced sequence))
  | markFailed id => Function.update m id ((m id).map failed)
  | deleteSyncedBefore ns bound => without (syncedBefore ns bound) m
  | deleteSyncedOplogOlderThan ns secs now => without (syncedBefore ns (cutoff now secs)) m
  | deleteSyncedOplogBeforeTimestamp ns key timestamp =>
    without (syncedOfDocumentBefore ns key timestamp) m
  | runPendingGc => m

def applyAll (events : List (Event B × List (Env B))) : OplogMap B :=
  events.foldl (fun m e => e.1.apply m) fun _ => none

/-! ## The storage -/

section runs

variable (lib : PageLib F D B) (s : TabState F D)

def Event.prog : Event B → TabFn F D B Unit
  | appendOplog e => OpfsStorage.appendOplog lib e
  | markSynced id sequence => OpfsStorage.markSynced lib id sequence
  | markFailed id => OpfsStorage.markFailed lib id
  | deleteSyncedBefore ns bound => do
    let _ ← OpfsStorage.deleteSyncedBefore lib ns bound
  | deleteSyncedOplogOlderThan ns secs _ => do
    let _ ← OpfsStorage.deleteSyncedOplogOlderThan lib ns secs
  | deleteSyncedOplogBeforeTimestamp ns key timestamp => do
    let _ ← OpfsStorage.deleteSyncedOplogBeforeTimestamp lib ns key timestamp
  | runPendingGc => do
    let _ ← runOplogGc lib

def Event.start : Event B → TabState F D
  | deleteSyncedOplogOlderThan _ _ now => { s with clock := now }
  | _ => s

def step (e : Event B × List (Env B)) : TabState F D :=
  (Async.run (TabState.machine B) (e.1.prog lib) e.2 (e.1.start s)).2

def run (events : List (Event B × List (Env B))) : TabState F D :=
  events.foldl (step lib) s

def readBack (envs : List (Env B)) : Except VaultSyncError (List (OplogEntry B)) :=
  (Async.run (TabState.machine B) (readAllOplogEntries lib) envs s).1

def opened (withRuntime : Bool) : TabState F D where
  tab :=
    { pages := fun _ => (created : StoreState F D).memory
      runtime := if withRuntime then some ⟨fun _ => .new 0, []⟩ else none }
  disk _ := (created : StoreState F D).dir
  handedOut _ := []
  clock := 0

/-- A mark is set while no page below the current one has a file, that is, after the pages that
the last rewrite left behind have been collected. -/
def Event.Ok : Event B → Prop
  | markSynced _ _ => NoStale (s.part .oplog)
  | markFailed _ => NoStale (s.part .oplog)
  | _ => True

instance : (e : Event B) → Decidable (e.Ok s)
  | .appendOplog _ => instDecidableTrue
  | .markSynced _ _ => inferInstanceAs (Decidable (NoStale _))
  | .markFailed _ => inferInstanceAs (Decidable (NoStale _))
  | .deleteSyncedBefore _ _ => instDecidableTrue
  | .deleteSyncedOplogOlderThan _ _ _ => instDecidableTrue
  | .deleteSyncedOplogBeforeTimestamp _ _ _ => instDecidableTrue
  | .runPendingGc => instDecidableTrue

def AllOk : TabState F D → List (Event B × List (Env B)) → Prop
  | _, [] => True
  | s, e :: events => e.1.Ok s ∧ AllOk (step lib s e) events

instance decidableAllOk : (events : List (Event B × List (Env B))) → (s : TabState F D) →
    Decidable (AllOk lib s events)
  | [], _ => instDecidableTrue
  | e :: events, s => @instDecidableAnd _ _ inferInstance (decidableAllOk events (step lib s e))

instance (events : List (Event B × List (Env B))) : Decidable (AllOk lib s events) :=
  decidableAllOk lib events s

end runs

/-! ## Ids in increasing order -/

lemma suffix_handle (op : FileOp F) (e : Env B) (p : StoreState F D) :
    p.handedOut <:+ (handle op e p).2.handedOut := by
  cases op with
  | removeFile id =>
    simp only [handle]
    split <;> exact suffix_refl _
  | allocatePageId | allocateAndRotate => exact suffix_cons _ _
  | _ => exact suffix_refl _

lemma suffix_tab_handle (op : TabOp F B) (e : Env B) (s : TabState F D) (store : StoreName) :
    s.handedOut store <:+ ((TabState.machine B).handle op e s).2.handedOut store := by
  cases op with
  | file store' op =>
    have hpart := suffix_handle op e (s.part store')
    change _ <:+ update s.handedOut store' _ store
    by_cases hs : store = store'
    · subst hs
      rw [update_self]
      exact hpart
    · rw [update_of_ne hs]
  | runtimeAllocate store' =>
    change _ <:+ (s.runtimeAllocate store').2.handedOut store
    unfold TabState.runtimeAllocate
    split
    · exact suffix_refl _
    · change _ <:+ update s.handedOut store' _ store
      by_cases hs : store = store'
      · subst hs
        rw [update_self]
        exact suffix_cons _ _
      · rw [update_of_ne hs]
  | now | hashOrder entries => exact suffix_refl _

variable (s : TabState F D)

def OplogIncreasing : Prop := (s.part .oplog).Increasing

lemma neverRegains : (TabState.machine B).NeverRegains (OplogIncreasing (F := F) (D := D)) where
  of_handle op e s h := List.Pairwise.sublist (suffix_tab_handle op e s .oplog).sublist h
  of_setMemory _ _ h := h

/-! ## The parts of an operation -/

def QueueEmpty : Prop := ∀ rt, s.tab.runtime = some rt → rt.queue = []

def pendingCount : ℕ := (s.part .oplog).memory.cachedPendingCount

structure Counts (f : ℕ → ℕ) (s s' : TabState F D) : Prop where
  current : (s'.part .oplog).current = (s.part .oplog).current
  pending : pendingCount s' = f (pendingCount s)

lemma Counts.trans {f g : ℕ → ℕ} {s s' s'' : TabState F D} (h : Counts f s s')
    (h' : Counts g s' s'') : Counts (g ∘ f) s s'' :=
  ⟨h'.current.trans h.current, h'.pending.trans (congrArg g h.pending)⟩

variable {lib : PageLib F D B} {s s' : TabState F D} {m : OplogMap B} {p p' : StoreState F D}
  {l : List (OplogEntry B)}

lemma counts_of_cacheOnly (h : CacheOnly (s.part .oplog) (s'.part .oplog)) : Counts id s s' := by
  obtain ⟨c, hc⟩ := h
  constructor
  · rw [hc]
    rfl
  · rw [pendingCount, hc]
    rfl

lemma wp_onOplog {t : PageFn F D α} {Q : Except VaultSyncError α → StoreState F D → Prop}
    (h : wp (machine B) Q t (s.part .oplog)) :
    wp (TabState.machine B) (fun r s' => Q r (s'.part .oplog) ∧ s'.tab.runtime = s.tab.runtime)
      (onStore .oplog t) s := by
  rw [wp_onStore]
  refine h.mono fun r p hr => ⟨?_, rfl⟩
  rw [TabState.part_replace]
  exact hr

lemma runtimeAllocate_some {rt : StorageRuntime D} (hrt : s.tab.runtime = some rt) :
    (s.runtimeAllocate .oplog).1 = some (rt.managers .oplog).allocate.1 ∧
      (s.runtimeAllocate .oplog).2.part .oplog =
        (s.part .oplog).handOut (rt.managers .oplog).allocate.1 ∧
      ∃ rt', (s.runtimeAllocate .oplog).2.tab.runtime = some rt' ∧ rt'.queue = rt.queue := by
  simp only [TabState.runtimeAllocate, hrt]
  refine ⟨trivial, ?_, _, rfl, rfl⟩
  simp [TabState.part, TabState.handOut, TabState.setRuntime, handOut]

lemma wp_allocOplog (hq : QueueEmpty s) :
    wp (TabState.machine B) (fun r s' => ∃ id, r = .ok id ∧
      Tracked (s.part .oplog) id (s'.part .oplog) ∧ pendingCount s' = pendingCount s ∧
      QueueEmpty s') allocOplog s := by
  rw [allocOplog, wp_bind, StorageRuntime.wp_allocatePageId]
  rcases hrt : s.tab.runtime with _ | rt
  · have hnone : s.runtimeAllocate .oplog = (none, s) := by
      simp only [TabState.runtimeAllocate, hrt]
    rw [hnone]
    have halloc : wp (machine B) (fun r p => ∃ id, r = .ok id ∧
        Tracked (s.part .oplog) id p ∧ p.memory.cachedPendingCount = pendingCount s)
        PageStore.allocatePageId (s.part .oplog) :=
      wp_allocatePageId.2 ⟨_, rfl, tracked_allocated, rfl⟩
    refine (wp_onOplog halloc).mono ?_
    rintro _ s' ⟨⟨id, rfl, ht, hpending⟩, hrt'⟩
    refine ⟨id, rfl, ht, hpending, fun rt h => ?_⟩
    rw [hrt', hrt] at h
    cases h
  · obtain ⟨hid, hpart, rt', hrt', hqueue⟩ := runtimeAllocate_some hrt
    have hcommit : wp (machine B) (fun r p => r = .ok () ∧
        Tracked (s.part .oplog) (rt.managers .oplog).allocate.1 p ∧
        p.memory.cachedPendingCount = pendingCount s)
        (commitAllocatedPageId (rt.managers .oplog).allocate.1)
        ((s.runtimeAllocate .oplog).2.part .oplog) := by
      rw [hpart]
      exact (wp_commitManifest _).2 ⟨rfl, ⟨rfl, rfl, rfl, rfl, rfl, rfl, rfl⟩, rfl⟩
    rw [hid]
    dsimp only
    rw [wp_bind]
    refine (wp_onOplog hcommit).mono ?_
    rintro _ s' ⟨⟨rfl, ht, hpending⟩, hsame⟩
    refine ⟨_, rfl, ht, hpending, fun rt'' h => ?_⟩
    rw [hsame, hrt', Option.some.injEq] at h
    rw [← h, hqueue]
    exact hq rt hrt

lemma QueueEmpty.of_runtime (h : QueueEmpty s)
    (hrt : s'.tab.runtime = s.tab.runtime) : QueueEmpty s' := fun rt hs' => h rt (hrt ▸ hs')

abbrev Ensures (Q : Except VaultSyncError α → TabState F D → Prop) (t : TabFn F D B α)
    (s : TabState F D) : Prop :=
  Assuming (TabState.machine B) OplogIncreasing Q t s

lemma assuming_writeOplogPage {id : ℕ} (h : Consistent lib (s.part .oplog))
    (hb : Blank id (s.part .oplog)) (hq : QueueEmpty s) (l : List (OplogEntry B)) :
    Ensures
      (fun r s' => r = .ok () ∧ (Wrote lib l id (s.part .oplog) (s'.part .oplog) ∧
        pendingCount s' = pendingCount s) ∧ QueueEmpty s')
      (writeOplogPage lib id (lib.encodeOplog l)) s := by
  have hwrite := wp_onOplog (s := s) (assuming_writePage h hb l)
  change Ensures _ (if s.tab.runtime.isSome = true then _ else _) s
  rcases hrt : s.tab.runtime with _ | rt
  · refine wp.mono hwrite fun r s' hr hinc => ?_
    exact ⟨(hr.1 hinc).1, (hr.1 hinc).2, hq.of_runtime hr.2⟩
  · refine (StorageRuntime.wp_enqueue StorageRuntime.lawfulMemory hrt (hq rt hrt) _).2 ?_
    simp only [StorageRuntime.perform, wp_bind, wp_attempt]
    exact wp.mono hwrite fun r s' hr hinc => ⟨rfl, (hr.1 hinc).2, hq.of_runtime hr.2⟩

structure Appended (lib : PageLib F D B) (l : List (OplogEntry B)) (id : ℕ) (p p' : StoreState F D) :
    Prop extends Wrote lib l id p p' where
  current_le : p.current ≤ id
  pages_lt : ∀ a ∈ p.dir.pages, a < id

lemma appended_of_wrote {p1 : StoreState F D} {id : ℕ} (hw : Wrote lib l id p1 p')
    (ht : Tracked p id p1) (h : Consistent lib p) (hinc : p1.Increasing) : Appended lib l id p p' where
  consistent := hw.consistent
  log := ht.pages ▸ hw.log
  current := hw.current.trans ht.current
  gcNeeded := hw.gcNeeded.trans ht.gcNeeded
  kept := ht.pages ▸ hw.kept
  handed := hw.handed
  cached := hw.cached
  current_le := by
    rcases h.current_handed with h0 | hmem
    · omega
    · exact (ht.lt hinc hmem).le
  pages_lt a ha := ht.lt hinc (h.page_handed a ha)

lemma assuming_newPage {Q : Except VaultSyncError α → TabState F D → Prop}
    (h : Consistent lib (s.part .oplog)) (hq : QueueEmpty s)
    {k : ℕ → TabFn F D B α}
    (hk : ∀ page s', Appended lib l page (s.part .oplog) (s'.part .oplog) → Counts id s s' →
      QueueEmpty s' → Ensures Q (k page) s') :
    Ensures Q (do
      let id ← allocOplog
      writeOplogPage lib id (lib.encodeOplog l)
      k id) s := by
  refine assuming_bind neverRegains (Assuming.mono (assuming_of_wp (wp_allocOplog hq)) ?_)
  rintro _ s1 hinc ⟨id, rfl, ht, hpending1, hq1⟩
  refine assuming_bind neverRegains ((assuming_writeOplogPage (h.tracked ht hinc)
    (ht.blank h hinc) hq1 l).mono ?_)
  rintro _ s2 - ⟨rfl, ⟨hw, hpending2⟩, hq2⟩
  have ha := appended_of_wrote hw ht h hinc
  exact hk id s2 ha ⟨ha.current, hpending2.trans hpending1⟩ hq2

/-! ## The map and the storage -/

/-- The store holds the entries of the map: they are the latest versions in its log, and pages
that the log no longer has wait for collection. -/
structure Holds (lib : PageLib F D B) (m : OplogMap B) (p : StoreState F D) : Prop where
  consistent : Consistent lib p
  gc : ∀ id ∈ p.dir.pages, id < p.current → p.memory.gcNeeded = true
  latest : latest OplogEntry.id (lib.log p.dir.pages p.current) = m

structure Refines (lib : PageLib F D B) (m : OplogMap B) (s : TabState F D) : Prop where
  holds : Holds lib m (s.part .oplog)
  queue : QueueEmpty s

lemma Holds.cacheOnly (h : Holds lib m p) (hc : Consistent lib p') (hcache : CacheOnly p p') :
    Holds lib m p' := by
  obtain ⟨c, rfl⟩ := hcache
  exact ⟨hc, h.gc, h.latest⟩

lemma Holds.withFlags (h : Holds lib m p) {gc : Bool}
    (hgc : p.memory.gcNeeded = true → gc = true) (pending : ℕ) :
    Holds lib m { p with memory :=
      { p.memory with gcNeeded := gc, cachedPendingCount := pending } } where
  consistent := h.consistent.withFlags gc p.memory.splitPending pending
  gc id hid hlt := hgc (h.gc id hid hlt)
  latest := h.latest

lemma Holds.opened (h : Holds lib m p) (hcurrent : p.current = 0) :
    Holds lib m { p with memory := PageStore.opened p.memory.manifest } where
  consistent :=
    (h.consistent.withCache (c := .new 500 (20 * 1024 * 1024)) fun _ _ hd => by cases hd).withFlags
      false false p.memory.manifest.pendingCount
  gc a _ hlt := absurd (hcurrent ▸ hlt) (Nat.not_lt_zero a)
  latest := h.latest

lemma Holds.appended {id : ℕ} (h : Holds lib m p) (ha : Appended lib l id p p') :
    Holds lib (update OplogEntry.id m l) p' where
  consistent := ha.consistent
  gc a hmem hlt := by
    rw [ha.gcNeeded]
    rw [ha.current] at hlt
    -- a page that was added is not below the current one
    have hold := (ha.kept a hmem).resolve_right fun hle =>
      absurd (hlt.trans_le (ha.current_le.trans hle)) (lt_irrefl a)
    exact h.gc a hold hlt
  latest := by
    rw [ha.current, ha.log _ ha.current_le, latest_append, h.latest]

lemma holds_rewritten {id : ℕ} (ha : Appended lib l id p p') (hl : Represents OplogEntry.id l m) :
    Holds lib m { p'.persist { p'.memory.manifest with currentPage := id } with memory :=
      { (p'.persist { p'.memory.manifest with currentPage := id }).memory with gcNeeded := true } } where
  consistent := (ha.consistent.setCurrent ha.handed ha.cached).withFlags true _ _
  gc _ _ _ := rfl
  latest := by
    change latest OplogEntry.id (lib.log p'.dir.pages id) = m
    rw [ha.log id le_rfl, PageLib.log_eq_nil ha.pages_lt, nil_append, hl.latest_eq]

lemma Holds.collected (h : Holds lib m p) {stale ids : List ℕ}
    (hstale : ∀ a, a ∈ stale ↔ a ∈ p.dir.pages ∧ a < p.current)
    (hids : ids.Perm (ascending (p.dropFiles stale).dir.pages.keys)) :
    Holds lib m (collected ((p.dropFiles stale).persist
      { lib.rebuilt (p.dropFiles stale).dir.pages ids with currentPage := p.current })) ∧
    NoStale (collected ((p.dropFiles stale).persist
      { lib.rebuilt (p.dropFiles stale).dir.pages ids with currentPage := p.current })) := by
  have hkept : ∀ a ∈ (p.dropFiles stale).dir.pages, p.current ≤ a := by
    intro a ha
    obtain ⟨f, hf⟩ := Finmap.mem_iff.1 ha
    rw [lookup_dropFiles] at hf
    split at hf
    · cases hf
    · rename_i hs
      by_contra hlt
      exact hs ((hstale a).2 ⟨Finmap.mem_iff.2 ⟨f, hf⟩, not_le.1 hlt⟩)
  refine ⟨⟨h.consistent.collected hstale hids, fun a ha hlt => ?_, ?_⟩, fun a ha => ?_⟩
  · exact absurd (hkept a ha) (not_le.2 hlt)
  · exact (congrArg _ (log_dropFiles hstale)).trans h.latest
  · exact hkept a (Finmap.mem_keys.1 ha)

lemma wp_runPendingGc_holds (h : Holds lib m p) :
    wp (machine B) (fun r p' => ∃ n, r = .ok n ∧ Holds lib m p' ∧ NoStale p')
      (runPendingGc lib) p := by
  rw [wp_runPendingGc, h.consistent.manifest]
  have hidle : (∀ id ∈ p.dir.pages, p.current ≤ id) → NoStale p := fun hle id hid =>
    hle id (Finmap.mem_keys.1 hid)
  split
  · dsimp only [ManifestFile.verified]
    split
    · refine wp_collect _ (fun hle => ⟨0, rfl, ⟨?_, ?_, h.latest⟩, hidle hle⟩) ?_
      · exact h.consistent.withFlags false p.memory.splitPending p.memory.cachedPendingCount
      · exact fun id hid hlt => absurd (hle id hid) (not_le.2 hlt)
      · intro n stale ids _ hstale hids
        exact ⟨n, rfl, h.collected hstale hids⟩
    · rename_i hzero
      exact ⟨0, rfl, h, hidle fun id _ => (not_lt.1 hzero).trans (Nat.zero_le id)⟩
  · rename_i hgc
    exact ⟨0, rfl, h, hidle fun id hid => not_lt.1 fun hlt => hgc (h.gc id hid hlt)⟩

/-! ## Reading -/

def entriesRead (lib : PageLib F D B) (p : StoreState F D) : List (OplogEntry B) :=
  absorb OplogEntry.id []
    (chainLog lib p.dir.pages (.ofPages p.current (ascending p.index.livePages)))

lemma entriesRead_of_cacheOnly (h : CacheOnly p p') : entriesRead lib p' = entriesRead lib p := by
  obtain ⟨c, rfl⟩ := h
  rfl

lemma wp_resolve_ofPages (h : Consistent lib p) :
    wp (machine B) (fun r p' =>
      r = .ok (entriesRead lib p) ∧ Consistent lib p' ∧ CacheOnly p p')
      ((ofPages p.current (ascending p.index.livePages)).resolve lib) p := by
  have hbase : ∀ {q ids}, (ofPages q ids).baseId = q := by
    intro q ids
    unfold ofPages
    split
    · rfl
    · rename_i hzero
      exact (Nat.eq_zero_of_not_pos hzero).symm
  have hdeltas : ∀ a ∈ (ofPages p.current (ascending p.index.livePages)).deltaIds,
      a ∈ p.index.livePages := by
    unfold ofPages
    split
    · exact fun a ha => mem_ascending.1 (mem_filter.1 ha).1
    · exact fun a ha => mem_ascending.1 ha
  have horphans : ∀ a ∈ (ofPages p.current (ascending p.index.livePages)).orphanIds,
      a ∈ p.index.livePages := by
    unfold ofPages
    split
    · exact fun a ha => mem_ascending.1 (mem_filter.1 ha).1
    · exact nofun
  exact wp_resolve h (fun _ => .inr hbase) hdeltas horphans

lemma entriesRead_of_empty (h : Consistent lib p)
    (hempty : (ascending p.index.livePages).isEmpty = true) : entriesRead lib p = [] := by
  have hnone : ∀ a, a ∉ p.index.livePages := by
    intro a ha
    have hmem := mem_ascending.2 ha
    rw [isEmpty_iff.1 hempty] at hmem
    cases hmem
  have hentries : ∀ a, lib.entriesAt p.dir.pages a = [] := fun a => entriesAt_of_notMem h (hnone a)
  have hlog : chainLog lib p.dir.pages (.ofPages p.current (ascending p.index.livePages)) = [] := by
    simp only [chainLog, hentries, ite_self, nil_append]
    exact flatMap_eq_nil_iff.2 fun a _ => hentries a
  rw [entriesRead, hlog]
  rfl

lemma wp_readAllOplogEntries_consistent (h : Consistent lib (s.part .oplog)) :
    wp (TabState.machine B) (fun r s' => ∃ l, r = .ok l ∧
      l.Perm (entriesRead lib (s.part .oplog)) ∧ Consistent lib (s'.part .oplog) ∧
      CacheOnly (s.part .oplog) (s'.part .oplog) ∧ s'.tab.runtime = s.tab.runtime)
      (readAllOplogEntries lib) s := by
  have hcurrent : wp (TabState.machine B)
      (fun r s' => r = .ok (s.part .oplog).current ∧ s' = s) (onStore .oplog currentPage) s := by
    rw [wp_onStore, wp_currentPage, h.manifest]
    exact ⟨rfl, TabState.replace_part⟩
  have hlist : wp (TabState.machine B)
      (fun r s' => r = .ok (ascending (s.part .oplog).index.livePages) ∧ s' = s)
      (onStore .oplog listPageIds) s := wp_onStore.2 ⟨rfl, TabState.replace_part⟩
  rw [readAllOplogEntries]
  refine hcurrent.then ?_
  rintro _ rfl
  refine hlist.then ?_
  rintro s' rfl
  split
  · rename_i hempty
    refine ⟨[], rfl, ?_, h, .refl, rfl⟩
    rw [entriesRead_of_empty h hempty]
  · rw [wp_bind]
    refine (wp_onOplog (wp_resolve_ofPages h)).mono ?_
    rintro _ s'' ⟨⟨rfl, hc, hcache⟩, hrt⟩
    intro e _
    exact ⟨_, rfl, (e.hashOrder _).2, hc, hcache, hrt⟩

lemma represents_entriesRead (h : Holds lib m p) (hstale : NoStale p) :
    Represents OplogEntry.id (entriesRead lib p) m := by
  rw [entriesRead, chainLog_ofPages h.consistent hstale, ← h.latest]
  exact represents_absorb_nil _

lemma Refines.cacheOnly (h : Refines lib m s)
    (hc : Consistent lib (s'.part .oplog)) (hcache : CacheOnly (s.part .oplog) (s'.part .oplog))
    (hrt : s'.tab.runtime = s.tab.runtime) : Refines lib m s' :=
  ⟨h.holds.cacheOnly hc hcache, h.queue.of_runtime hrt⟩

lemma wp_readAllOplogEntries (h : Refines lib m s) :
    wp (TabState.machine B) (fun r s' => ∃ l, r = .ok l ∧ (Refines lib m s' ∧ Counts id s s') ∧
      (NoStale (s.part .oplog) → Represents OplogEntry.id l m)) (readAllOplogEntries lib) s := by
  refine (wp_readAllOplogEntries_consistent h.holds.consistent).mono ?_
  rintro _ s' ⟨l, rfl, hl, hc, hcache, hrt⟩
  refine ⟨l, rfl, ⟨h.cacheOnly hc hcache hrt, counts_of_cacheOnly hcache⟩, fun hstale => ?_⟩
  exact (represents_entriesRead h.holds hstale).perm hl

/-! ## The operations -/

section

variable (h : Refines lib m s)

include h

lemma wp_runOplogGc :
    wp (TabState.machine B) (fun r s' => ∃ n, r = .ok n ∧ Refines lib m s' ∧
      NoStale (s'.part .oplog) ∧ s'.clock = s.clock) (runOplogGc lib) s := by
  rw [runOplogGc, wp_onStore]
  refine (wp_runPendingGc_holds h.holds).mono ?_
  rintro _ p ⟨n, rfl, hh, hstale⟩
  refine ⟨n, rfl, ⟨?_, h.queue.of_runtime rfl⟩, ?_, rfl⟩
  · rw [TabState.part_replace]
    exact hh
  · rw [TabState.part_replace]
    exact hstale

lemma wp_setFlags {f : PageStore D → PageStore D} {gc : Bool} {g : ℕ → ℕ}
    (hf : f (s.part .oplog).memory = { (s.part .oplog).memory with
      gcNeeded := gc, cachedPendingCount := g (pendingCount s) })
    (hgc : (s.part .oplog).memory.gcNeeded = true → gc = true) :
    wp (TabState.machine B) (fun r s' => r = .ok () ∧ Refines lib m s' ∧ Counts g s s')
      (onStore .oplog (.modify f)) s := by
  have hflags : wp (machine B) (fun r p => r = .ok () ∧ Holds lib m p ∧
      p.current = (s.part .oplog).current ∧ p.memory.cachedPendingCount = g (pendingCount s))
      (.modify f : PageFn F D Unit) (s.part .oplog) := by
    refine (wp_modify _).2 ⟨rfl, ?_⟩
    rw [hf]
    exact ⟨h.holds.withFlags hgc _, rfl, rfl⟩
  refine (wp_onOplog hflags).mono ?_
  rintro _ s' ⟨⟨rfl, hh, hcurrent, hpending⟩, hrt⟩
  exact ⟨rfl, ⟨hh, h.queue.of_runtime hrt⟩, hcurrent, hpending⟩

lemma wp_adjustOplogPendingCount (delta : Int) :
    wp (TabState.machine B) (fun r s' => r = .ok () ∧ Refines lib m s' ∧
      Counts (fun n => (n + delta).toNat) s s') (adjustOplogPendingCount delta) s :=
  wp_setFlags h rfl id

lemma wp_scheduleOplogGc :
    wp (TabState.machine B) (fun r s' => r = .ok () ∧ Refines lib m s' ∧ Counts id s s')
      scheduleOplogGc s :=
  wp_setFlags h rfl fun _ => rfl

lemma wp_verifyOplogWrite (id : ℕ) :
    wp (TabState.machine B) (fun r s' => r = .ok () ∧ Refines lib m s' ∧ Counts (fun n => n) s s')
      (verifyOplogWrite lib id) s := by
  rw [verifyOplogWrite, wp_bind]
  refine (wp_onOplog (wp_readPage_consistent h.holds.consistent id)).mono ?_
  rintro _ s1 ⟨⟨d, rfl, hc, hcache, -⟩, hrt⟩
  dsimp only
  rw [wp_bind]
  refine (wp_readAllOplogEntries (h.cacheOnly hc hcache hrt)).mono ?_
  rintro _ s2 ⟨l, rfl, ⟨h2, hcount⟩, -⟩
  exact ⟨rfl, h2, (counts_of_cacheOnly hcache).trans hcount⟩

lemma assuming_appendOplog (e : OplogEntry B) :
    Ensures (fun r s' => r = .ok () ∧
      Refines lib (update m e.id (some e)) s' ∧
        Counts (· + if e.syncStatus.isUploadable then 1 else 0) s s')
      (OpfsStorage.appendOplog lib e) s := by
  refine assuming_newPage h.holds.consistent h.queue fun page s1 ha hcount hq => ?_
  have h1 : Refines lib (update m e.id (some e)) s1 := ⟨h.holds.appended ha, hq⟩
  refine assuming_of_wp ?_
  split
  · refine (wp_adjustOplogPendingCount h1 1).then ?_
    rintro s2 ⟨h2, hadd⟩
    refine (wp_verifyOplogWrite h2 page).mono ?_
    rintro _ s3 ⟨rfl, h3, hsame⟩
    exact ⟨rfl, h3, (hcount.trans hadd).trans hsame⟩
  · refine (wp_verifyOplogWrite h1 page).mono ?_
    rintro _ s2 ⟨rfl, h2, hsame⟩
    exact ⟨rfl, h2, hcount.trans hsame⟩

end

lemma assuming_mark (f : OplogEntry B → OplogEntry B) (hf : ∀ e, (f e).id = e.id)
    (h : Refines lib m s) (hstale : NoStale (s.part .oplog)) (id : String)
    {k : TabFn F D B Unit} (hk : ∀ {m'} {s' : TabState F D}, Refines lib m' s' →
      wp (TabState.machine B) (fun r s'' => r = .ok () ∧ Refines lib m' s'' ∧
        Counts (· - 1) s' s'') k s') :
    Ensures (fun r s' => r = .ok () ∧
      Refines lib (update m id ((m id).map f)) s' ∧
        Counts (fun n => if (m id).isSome then n - 1 else n) s s')
      (do
        let l ← readAllOplogEntries lib
        if ((l.filter fun e => e.id = id).map f).isEmpty then return ()
        else do
          let page ← allocOplog
          writeOplogPage lib page (lib.encodeOplog ((l.filter fun e => e.id = id).map f))
          k) s := by
  refine assuming_bind neverRegains ((assuming_of_wp (wp_readAllOplogEntries h)).mono ?_)
  rintro _ s0 - ⟨l, rfl, ⟨h0, hcount0⟩, hread⟩
  have hl := hread hstale
  dsimp only
  rw [hl.filter_key id]
  cases hm : m id with
  | none =>
    have hsame : update m id none = m := by
      rw [← hm, update_eq_self]
    rw [Option.map_none, hsame]
    exact assuming_of_wp ⟨rfl, h0, hcount0⟩
  | some e =>
    have hid : (f e).id = id := (hf e).trans ((hl.eq_some_iff id e).1 hm).2
    refine assuming_newPage h0.holds.consistent h0.queue fun page s1 ha hcount hq => assuming_of_wp ?_
    have hh := h0.holds.appended ha
    rw [Option.toList_some, map_singleton] at hh
    change Holds lib (update m (f e).id (some (f e))) (s1.part .oplog) at hh
    rw [hid] at hh
    refine (hk ⟨hh, hq⟩).mono ?_
    rintro _ s2 ⟨rfl, h2, hsub⟩
    exact ⟨rfl, h2, (hcount0.trans hcount).trans hsub⟩

section

variable (h : Refines lib m s)

include h

lemma wp_countDown :
    wp (TabState.machine B) (fun r s' => r = .ok () ∧ Refines lib m s' ∧ Counts (· - 1) s s')
      (do adjustOplogPendingCount (-1); scheduleOplogGc) s := by
  refine (wp_adjustOplogPendingCount h (-1)).then ?_
  rintro s1 ⟨h1, hsub⟩
  refine (wp_scheduleOplogGc h1).mono ?_
  rintro _ s2 ⟨rfl, h2, hsame⟩
  refine ⟨rfl, h2, (hsub.trans hsame).current, (hsub.trans hsame).pending.trans ?_⟩
  change ((pendingCount s : Int) + -1).toNat = pendingCount s - 1
  omega

section

variable (hstale : NoStale (s.part .oplog))

include hstale

lemma assuming_markSynced (id : String) (sequence : ℕ) :
    Ensures (fun r s' => r = .ok () ∧
      Refines lib (update m id ((m id).map (synced sequence))) s' ∧
        Counts (fun n => if (m id).isSome then n - 1 else n) s s')
      (OpfsStorage.markSynced lib id sequence) s := by
  refine assuming_mark (synced sequence) (fun _ => rfl) h hstale id fun {m' s'} h' => ?_
  rw [wp_bind]
  refine (wp_readAllOplogEntries h').mono ?_
  rintro _ s2 ⟨l', rfl, ⟨h2, hcount2⟩, -⟩
  refine (wp_countDown h2).mono ?_
  rintro _ s3 ⟨rfl, h3, hsub⟩
  exact ⟨rfl, h3, hcount2.trans hsub⟩

lemma assuming_markFailed (id : String) :
    Ensures (fun r s' => r = .ok () ∧
      Refines lib (update m id ((m id).map failed)) s' ∧
        Counts (fun n => if (m id).isSome then n - 1 else n) s s')
      (OpfsStorage.markFailed lib id) s :=
  assuming_mark failed (fun _ => rfl) h hstale id wp_countDown

lemma assuming_rewriteOplog (removed : OplogEntry B → Bool) :
    Ensures (fun r s' => ∃ n, r = .ok n ∧
      Refines lib (without removed m) s') (rewriteOplog lib removed) s := by
  refine assuming_bind neverRegains ((assuming_of_wp (wp_readAllOplogEntries h)).mono ?_)
  rintro _ s1 - ⟨l, rfl, ⟨h1, -⟩, hl⟩
  have hrest := (hl hstale).filter fun e => !removed e
  refine assuming_newPage h1.holds.consistent h1.queue fun page s2 ha _ hq => assuming_of_wp ?_
  have hset : wp (machine B) (fun r p => r = .ok () ∧
      p = (s2.part .oplog).persist { (s2.part .oplog).memory.manifest with currentPage := page })
      (setCurrentPage page) (s2.part .oplog) := (wp_setCurrentPage page).2 ⟨rfl, rfl⟩
  rw [wp_bind]
  refine (wp_onOplog hset).mono ?_
  rintro _ s3 ⟨⟨rfl, hpart⟩, hrt3⟩
  have hsched : wp (machine B) (fun r p => r = .ok () ∧ Holds lib (without removed m) p)
      scheduleGc (s3.part .oplog) := by
    rw [hpart]
    exact (wp_modify _).2 ⟨rfl, holds_rewritten ha hrest⟩
  dsimp only
  rw [wp_bind]
  refine (wp_onOplog hsched).mono ?_
  rintro _ s4 ⟨⟨rfl, hh⟩, hrt4⟩
  exact ⟨_, rfl, hh, hq.of_runtime (hrt4.trans hrt3)⟩

end

lemma assuming_collected {t : TabFn F D B ℕ} {m' : OplogMap B}
    (ht : ∀ s', Refines lib m s' → NoStale (s'.part .oplog) → s'.clock = s.clock →
      Ensures (fun r s'' => ∃ n, r = .ok n ∧
        Refines lib m' s'') t s') :
    Ensures (fun r s' => r = .ok () ∧ Refines lib m' s')
      (do
        let _ ← (do
          let _ ← runOplogGc lib
          t)) s := by
  refine assuming_bind neverRegains (assuming_bind neverRegains
    ((assuming_of_wp (wp_runOplogGc h)).mono ?_))
  rintro _ s1 - ⟨n, rfl, h1, hstale, hclock⟩
  refine (ht s1 h1 hstale hclock).mono ?_
  rintro _ s2 - ⟨n, rfl, h2⟩
  exact assuming_of_wp ⟨rfl, h2⟩

end

/-! ## Runs -/

lemma Refines.step {e : Event B} (h : Refines lib m s) (hok : e.Ok s) :
    Ensures (fun r s' => r = .ok () ∧
      Refines lib (e.apply m) s') (e.prog lib) (e.start s) := by
  cases e with
  | appendOplog e => exact (assuming_appendOplog h e).mono fun _ _ _ hr => ⟨hr.1, hr.2.1⟩
  | markSynced id sequence =>
    exact (assuming_markSynced h hok id sequence).mono fun _ _ _ hr => ⟨hr.1, hr.2.1⟩
  | markFailed id => exact (assuming_markFailed h hok id).mono fun _ _ _ hr => ⟨hr.1, hr.2.1⟩
  | deleteSyncedBefore ns bound | deleteSyncedOplogBeforeTimestamp ns key timestamp =>
    exact assuming_collected h fun s' h' hstale _ => assuming_rewriteOplog h' hstale _
  | deleteSyncedOplogOlderThan ns secs now =>
    have hstart : Refines lib m { s with clock := now } := ⟨h.holds, h.queue⟩
    refine assuming_collected hstart fun s' h' hstale hclock e _ => ?_
    obtain rfl : s'.clock = now := hclock
    exact assuming_rewriteOplog h' hstale _
  | runPendingGc =>
    refine assuming_of_wp ((wp_bind _ _).2 ((wp_runOplogGc h).mono ?_))
    rintro _ s' ⟨n, rfl, h', -, -⟩
    exact ⟨rfl, h'⟩

lemma run_of_assuming {t : TabFn F D B α} {Q : Except VaultSyncError α → TabState F D → Prop}
    (h : Ensures Q t s) (envs : List (Env B))
    (hinc : OplogIncreasing (Async.run (TabState.machine B) t envs s).2) :
    Q (Async.run (TabState.machine B) t envs s).1 (Async.run (TabState.machine B) t envs s).2 :=
  wp_iff_outcome.1 h _ _ (run_outcome t envs s fun _ _ => ⟨trivial, fun _ _ => trivial⟩) hinc

lemma increasing_of_prog {t : TabFn F D B α} {envs : List (Env B)}
    (h : OplogIncreasing (Async.run (TabState.machine B) t envs s).2) : OplogIncreasing s := by
  by_contra hnot
  exact run_of_assuming (assuming_of_wp (neverRegains.wp_not t hnot)) envs h h

lemma increasing_of_run {events : List (Event B × List (Env B))}
    (h : OplogIncreasing (run lib s events)) : OplogIncreasing s := by
  induction events generalizing s with
  | nil => exact h
  | cons e events ih =>
    have hstart : OplogIncreasing (e.1.start s) := increasing_of_prog (ih h)
    rcases e with ⟨_ | _, _⟩ <;> exact hstart

lemma refines_run {events : List (Event B × List (Env B))} (h : Refines lib m s)
    (hinc : OplogIncreasing (run lib s events)) (hok : AllOk lib s events) :
    Refines lib (events.foldl (fun m e => e.1.apply m) m) (run lib s events) := by
  induction events generalizing s m with
  | nil => exact h
  | cons e events ih =>
    have hstep : OplogIncreasing (step lib s e) := increasing_of_run hinc
    exact ih (run_of_assuming (h.step hok.1) e.2 hstep).2 hinc hok.2

lemma refines_opened (withRuntime : Bool) :
    Refines lib (fun _ => none) (opened withRuntime : TabState F D) where
  holds := ⟨consistent_created, fun _ hid => absurd hid Finmap.notMem_empty, rfl⟩
  queue rt hrt := by
    cases withRuntime with
    | false => cases hrt
    | true => exact (Option.some.inj hrt) ▸ rfl

lemma exists_readBack (h : Refines lib m s) (hstale : NoStale (s.part .oplog))
    (envs : List (Env B)) :
    ∃ l, readBack lib s envs = .ok l ∧ Represents OplogEntry.id l m := by
  obtain ⟨l, hl, -, hrep⟩ := wp_iff_outcome.1 (wp_readAllOplogEntries h) _ _
    (run_outcome _ envs _ fun _ _ => ⟨trivial, fun _ _ => trivial⟩)
  exact ⟨l, hl, hrep hstale⟩

/-- In a run with page ids in increasing order, in which every mark is set, and the entries are
read, while no page below the current one has a file, the entries read are those of the map. -/
theorem readBack_represents_applyAll (lib : PageLib F D B) (withRuntime : Bool)
    (events : List (Event B × List (Env B))) (envs : List (Env B))
    (hinc : OplogIncreasing (run lib (opened withRuntime) events))
    (hok : AllOk lib (opened withRuntime) events)
    (hstale : NoStale ((run lib (opened withRuntime) events).part .oplog)) :
    ∃ l, readBack lib (run lib (opened withRuntime) events) envs = .ok l ∧
      Represents OplogEntry.id l (applyAll events) :=
  exists_readBack (refines_run (refines_opened withRuntime) hinc hok) hstale envs

def sampleEntry (id : String) : OplogEntry Unit where
  id := id
  replicaId := "r"
  «namespace» := "n"
  mutationType := .crdtInsert
  docId := "c"
  recordId := id
  yrsUpdate := ()
  encryptedBlob := none
  timestamp := 0
  sequence := none
  syncStatus := .pending
  syncedAt := none
  createdAt := 0
  schemaVersion := 1
  origin := .insert
  originContext := ""

def sampleEvents : List (Event Unit × List (Env Unit)) :=
  [(.appendOplog (sampleEntry "a"), []), (.appendOplog (sampleEntry "b"), []),
    (.markSynced "a" 1, []), (.deleteSyncedBefore "n" 10, []), (.appendOplog (sampleEntry "c"), []),
    (.runPendingGc, []), (.markFailed "c", []), (.markSynced "b" 2, [])]

instance (s : TabState F D) : Decidable (OplogIncreasing s) :=
  inferInstanceAs (Decidable (List.Pairwise (· > ·) (s.handedOut .oplog)))

theorem readBack_represents_sampleEvents :
    OplogIncreasing (run symbolic (opened true) sampleEvents) ∧
      AllOk symbolic (opened true) sampleEvents ∧
      NoStale ((run symbolic (opened true) sampleEvents).part .oplog) ∧
      ∃ l, readBack symbolic (run symbolic (opened true) sampleEvents) [] = .ok l ∧
        Represents OplogEntry.id l (applyAll sampleEvents) :=
  ⟨by decide, by decide, by decide, readBack_represents_applyAll symbolic true sampleEvents []
    (by decide) (by decide) (by decide)⟩

/-- The page left behind by the delete is read last, and brings the deleted entry back. -/
theorem readBack_after_delete :
    OplogIncreasing (run symbolic (opened false)
      [(.appendOplog (sampleEntry "a"), []), (.markSynced "a" 1, []),
        (.deleteSyncedBefore "n" 10, [])]) ∧
    readBack symbolic (run symbolic (opened false)
      [(.appendOplog (sampleEntry "a"), []), (.markSynced "a" 1, []),
        (.deleteSyncedBefore "n" 10, [])]) [] = .ok [synced 1 (sampleEntry "a")] ∧
    applyAll [(.appendOplog (sampleEntry "a"), []), (.markSynced "a" 1, []),
        (.deleteSyncedBefore "n" 10, [])] "a" = none := by
  decide

end VaultSync.Opfs.OplogRefinement
