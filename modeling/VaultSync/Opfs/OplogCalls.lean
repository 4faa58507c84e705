import VaultSync.Opfs.OplogConsistency

/-! Reading the version chain, and writing a page of entries, on the oplog's page store. -/

namespace VaultSync.Opfs

open Async StoreState PageFn PageStore VersionChain Versions List PageLib ContentIndex PageCache Finmap

variable {F D B : Type} {lib : PageLib F D B} {p : StoreState F D} {id : ℕ}

/-! ## Reading -/

def CacheOnly (p p' : StoreState F D) : Prop := ∃ c, p' = p.mapCache fun _ => c

lemma CacheOnly.refl : CacheOnly p p := ⟨p.memory.pageCache, rfl⟩

variable {p' : StoreState F D} {d : D}

lemma CacheOnly.trans {p'' : StoreState F D} (h : CacheOnly p p') (h' : CacheOnly p' p'') :
    CacheOnly p p'' := by
  obtain ⟨_, rfl⟩ := h
  obtain ⟨c, rfl⟩ := h'
  exact ⟨c, rfl⟩

lemma lookup_of_liveData (h : Formatted lib p.dir.pages)
    (hd : lib.liveData p.dir.pages id = some d) :
    p.dir.pages.lookup id = some (lib.encodeV3Page d 0) := by
  by_cases hid : id ∈ p.dir.pages
  · rcases h.mem_cases hid with ⟨d', hf⟩ | ⟨d', hf⟩
    · rw [liveData_of_live hf, Option.some.injEq] at hd
      rw [← hd]
      exact hf
    · rw [liveData_of_tombstoned hf] at hd
      cases hd
  · rw [liveData_of_missing hid] at hd
    cases hd

lemma wp_readPage_consistent (h : Consistent lib p) (id : ℕ) :
    wp (machine B) (fun r p' => ∃ d, r = .ok d ∧ Consistent lib p' ∧ CacheOnly p p' ∧
      (id ∈ p.index.livePages ∨ id = p.current → d = lib.liveData p.dir.pages id))
      (readPage lib id) p := by
  rcases hc : p.memory.pageCache.entries.lookup id with _ | d
  · rw [wp_readPage_uncached hc]
    by_cases hpage : id ∈ p.dir.pages
    · rcases h.formatted.mem_cases hpage with ⟨d, hf⟩ | ⟨d, hf⟩
      · rw [wp_readUncached_of_live hf, liveData_of_live hf]
        refine ⟨_, rfl, h.withCache fun a d' hd => ?_, ⟨_, rfl⟩, fun _ => rfl⟩
        by_cases ha : a = id
        · subst ha
          have hself : (p.memory.pageCache.insert lib.len a d).entries.lookup a = some d :=
            lookup_insert_self
          obtain rfl := Option.some.inj (hself.symm.trans hd)
          exact .inr hf
        · exact .inl (lookup_of_insert_of_ne ha hd)
      · rw [wp_readUncached_of_tombstoned hf, liveData_of_tombstoned hf]
        exact ⟨_, rfl, h, .refl, fun _ => rfl⟩
    · rw [wp_readUncached_of_missing hpage, liveData_of_missing hpage]
      exact ⟨_, rfl, h, .refl, fun _ => rfl⟩
  · rw [wp_readPage_cached hc]
    refine ⟨_, rfl, h.withCache fun a d' hd => .inl hd, ⟨_, rfl⟩, fun hid => ?_⟩
    have hf : p.dir.pages.lookup id = some (lib.encodeV3Page d 0) := by
      refine (h.cached id d hc).resolve_right fun hgone => ?_
      exact hid.elim hgone.2.1 hgone.2.2
    exact (liveData_of_live hf).symm

lemma wp_resolvePages {entries : D → List (OplogEntry B)}
    (hentries : ∀ l, entries (lib.encodeOplog l) = l) (h : Consistent lib p) {ids : List ℕ}
    (hids : ∀ id ∈ ids, id ∈ p.index.livePages ∨ id = p.current) (seen : List (OplogEntry B)) :
    wp (machine B) (fun r p' =>
      r = .ok (absorb OplogEntry.id seen (ids.flatMap (lib.entriesAt p.dir.pages))) ∧
        Consistent lib p' ∧ CacheOnly p p') (resolvePages lib entries ids seen) p := by
  induction ids generalizing p seen with
  | nil => exact ⟨rfl, h, .refl⟩
  | cons id ids ih =>
    have hrest : ∀ a ∈ ids, a ∈ p.index.livePages ∨ a = p.current := fun a ha =>
      hids a (mem_cons_of_mem id ha)
    rw [resolvePages, wp_bind, wp_attempt]
    refine (wp_readPage_consistent h id).mono ?_
    rintro _ _ ⟨_, rfl, h', ⟨c, rfl⟩, hd⟩
    obtain rfl := hd (hids id mem_cons_self)
    have hgo : ∀ seen, wp (machine B) (fun r p' =>
        r = .ok (absorb OplogEntry.id seen (ids.flatMap (lib.entriesAt p.dir.pages))) ∧
          Consistent lib p' ∧ CacheOnly p p') (resolvePages lib entries ids seen)
        (p.mapCache fun _ => c) := fun seen =>
      (ih h' hrest seen).mono fun _ _ hr => ⟨hr.1, hr.2.1, .trans ⟨c, rfl⟩ hr.2.2⟩
    cases hd : lib.liveData p.dir.pages id with
    | none =>
      have hnil : lib.entriesAt p.dir.pages id = [] := by rw [entriesAt, hd]; rfl
      rw [flatMap_cons, hnil, nil_append]
      exact hgo seen
    | some d =>
      have hfile := lookup_of_liveData h.formatted hd
      obtain ⟨l, rfl⟩ := h.oplog id d hfile
      rw [flatMap_cons, entriesAt_of_live hfile, absorb_append]
      dsimp only
      rw [hentries]
      exact hgo (absorb OplogEntry.id seen l)

def chainLog (lib : PageLib F D B) (pages : Finmap fun _ : ℕ => F) (chain : VersionChain) :
    List (OplogEntry B) :=
  (if 0 < chain.baseId then lib.entriesAt pages chain.baseId else []) ++
    (chain.deltaIds ++ chain.orphanIds).flatMap (lib.entriesAt pages)

lemma pageEntries_encodeOplog (l : List (OplogEntry B)) :
    pageEntries lib (lib.encodeOplog l) = l := by
  simp [pageEntries, lib.decodeOplog_encodeOplog]

lemma wp_resolve (h : Consistent lib p) {chain : VersionChain}
    (hbase : 0 < chain.baseId → chain.baseId ∈ p.index.livePages ∨ chain.baseId = p.current)
    (hdeltas : ∀ id ∈ chain.deltaIds, id ∈ p.index.livePages)
    (horphans : ∀ id ∈ chain.orphanIds, id ∈ p.index.livePages) :
    wp (machine B) (fun r p' =>
      r = .ok (absorb OplogEntry.id [] (chainLog lib p.dir.pages chain)) ∧ Consistent lib p' ∧
        CacheOnly p p') (chain.resolve lib) p := by
  have htail : ∀ seen c, Consistent lib (p.mapCache fun _ => c) →
      wp (machine B) (fun r p' => r = .ok (absorb OplogEntry.id seen
        ((chain.deltaIds ++ chain.orphanIds).flatMap (lib.entriesAt p.dir.pages))) ∧
          Consistent lib p' ∧ CacheOnly p p')
        (do
          let seen ← resolvePages lib (pageEntries lib) chain.deltaIds seen
          resolvePages lib (pageEntries lib) chain.orphanIds seen) (p.mapCache fun _ => c) := by
    intro seen c hc
    refine (wp_resolvePages pageEntries_encodeOplog hc (fun a ha => .inl (hdeltas a ha)) seen).then ?_
    rintro _ ⟨hc', c', rfl⟩
    refine (wp_resolvePages pageEntries_encodeOplog hc' (fun a ha => .inl (horphans a ha)) _).mono ?_
    rintro _ _ ⟨rfl, hc'', c'', rfl⟩
    refine ⟨?_, hc'', c'', rfl⟩
    rw [flatMap_append, absorb_append]
    rfl
  unfold VersionChain.resolve
  by_cases hpos : 0 < chain.baseId
  · have hids : ∀ a ∈ [chain.baseId], a ∈ p.index.livePages ∨ a = p.current := fun a ha =>
      mem_singleton.1 ha ▸ hbase hpos
    rw [if_pos hpos, wp_bind]
    have hdecode : ∀ l, baseEntries lib (lib.encodeOplog l) = l := by
      simp [baseEntries, lib.decodeOplog_encodeOplog]
    refine (wp_resolvePages hdecode h hids []).mono ?_
    rintro _ _ ⟨rfl, hc, c, rfl⟩
    rw [flatMap_singleton]
    refine (htail _ c hc).mono ?_
    rintro _ _ ⟨rfl, hc', hcache⟩
    refine ⟨?_, hc', hcache⟩
    rw [chainLog, if_pos hpos, absorb_append]
  · rw [if_neg hpos, chainLog, if_neg hpos, nil_append]
    exact htail [] p.memory.pageCache h

def NoStale (p : StoreState F D) : Prop := ∀ id ∈ p.dir.pages.keys, p.current ≤ id

instance : Decidable (NoStale p) := Finset.decidableDforallFinset

lemma entriesAt_of_notMem (h : Consistent lib p) (hid : id ∉ p.index.livePages) :
    lib.entriesAt p.dir.pages id = [] := by
  cases hd : lib.liveData p.dir.pages id with
  | none => rw [entriesAt, hd]; rfl
  | some d => exact absurd (h.live id d (lookup_of_liveData h.formatted hd)) hid

lemma chainLog_ofPages (h : Consistent lib p) (hstale : NoStale p) :
    chainLog lib p.dir.pages (ofPages p.current (ascending p.index.livePages)) =
      lib.log p.dir.pages p.current := by
  have hmem : ∀ {a}, lib.entriesAt p.dir.pages a ≠ [] →
      a ∈ p.index.livePages ∧ a ∈ p.dir.pages := by
    intro a ha
    constructor
    · by_contra hlive
      exact ha (entriesAt_of_notMem h hlive)
    · by_contra hpage
      exact ha (entriesAt_of_missing hpage)
  have hsorted : ((ascending p.dir.pages.keys).filter fun a => p.current ≤ a).Pairwise (· < ·) :=
    (sorted_ascending _).filter _
  by_cases hpos : 0 < p.current
  · -- the pages below the base have no file
    have horphans : ((ascending p.index.livePages).filter fun a => a < p.current).flatMap
        (lib.entriesAt p.dir.pages) = [] := by
      refine flatMap_eq_nil_iff.2 fun a ha => entriesAt_of_missing fun hpage => ?_
      have hlt : a < p.current := by simpa using (mem_filter.1 ha).2
      exact absurd (hstale a (mem_keys.2 hpage)) (not_le.2 hlt)
    rw [chainLog, ofPages, if_pos hpos, if_pos hpos, flatMap_append, horphans, append_nil,
      ← flatMap_cons]
    refine flatMap_eq_of_sorted ?_ hsorted fun a ha => ?_
    · refine pairwise_cons.2 ⟨fun a ha => ?_, (sorted_ascending _).filter _⟩
      simpa using (mem_filter.1 ha).2
    · obtain ⟨hlive, hpage⟩ := hmem ha
      have hle := hstale a (Finmap.mem_keys.2 hpage)
      simp only [mem_cons, mem_filter, mem_ascending, hlive, Finmap.mem_keys, hpage, hle,
        decide_true, and_true, true_and, decide_eq_true_eq, iff_true]
      omega
  · rw [chainLog, ofPages, if_neg hpos, if_neg (lt_irrefl 0), nil_append, append_nil]
    refine flatMap_eq_of_sorted (sorted_ascending _) hsorted fun a ha => ?_
    obtain ⟨hlive, hpage⟩ := hmem ha
    have hle : p.current ≤ a := by omega
    simp [hlive, Finmap.mem_keys, hpage, hle]

/-! ## Writing -/

structure Blank (id : ℕ) (p : StoreState F D) : Prop where
  live : id ∈ p.index.livePages
  handed : id ∈ p.handedOut
  pages_lt : ∀ a ∈ p.dir.pages, a < id
  cached : p.memory.pageCache.entries.lookup id = none

lemma StoreState.Tracked.blank (ht : Tracked p id p') (h : Consistent lib p)
    (hinc : p'.Increasing) : Blank id p' where
  live := by
    rw [ht.index]
    exact Finset.mem_insert_self _ _
  handed := by
    rw [ht.handedOut]
    exact mem_cons_self
  pages_lt := by
    rw [ht.pages]
    exact fun a ha => ht.lt hinc (h.page_handed a ha)
  cached := by
    rw [ht.cache]
    rcases hd : p.memory.pageCache.entries.lookup id with _ | d
    · rfl
    · exact absurd (ht.lt hinc (h.cache_handed id d hd)) (lt_irrefl id)

structure Wrote (lib : PageLib F D B) (l : List (OplogEntry B)) (id : ℕ) (p p' : StoreState F D) :
    Prop where
  consistent : Consistent lib p'
  log : ∀ c ≤ id, lib.log p'.dir.pages c = lib.log p.dir.pages c ++ l
  current : p'.current = p.current
  gcNeeded : p'.memory.gcNeeded = p.memory.gcNeeded
  kept : ∀ a ∈ p'.dir.pages, a ∈ p.dir.pages ∨ id ≤ a
  handed : id ∈ p'.handedOut
  cached : ∀ d, p'.memory.pageCache.entries.lookup id = some d →
    p'.dir.pages.lookup id = some (lib.encodeV3Page d 0)

variable {l : List (OplogEntry B)}

lemma tracked_allocated : Tracked p p.memory.manifest.nextPageId p.allocated :=
  ⟨rfl, rfl, rfl, rfl, rfl, rfl, rfl⟩

lemma log_split {pages : Finmap fun _ : ℕ => F} {c tmp : ℕ} (hlt : ∀ a ∈ pages, a < tmp)
    (hc : c ≤ tmp) {entries : List (OplogEntry B)} (mid : ℕ) :
    lib.log ((((pages.insert tmp (lib.encodeV3Page d 0)).insert (tmp + 1)
      (lib.encodeV3Page (lib.encodeOplog (entries.take mid)) 0)).insert (tmp + 2)
      (lib.encodeV3Page (lib.encodeOplog (entries.drop mid)) 0)).insert tmp
      (lib.encodeV3Page d 0x02)) c = lib.log pages c ++ entries := by
  have hswap : ((((pages.insert tmp (lib.encodeV3Page d 0)).insert (tmp + 1)
      (lib.encodeV3Page (lib.encodeOplog (entries.take mid)) 0)).insert (tmp + 2)
      (lib.encodeV3Page (lib.encodeOplog (entries.drop mid)) 0)).insert tmp
      (lib.encodeV3Page d 0x02)) = ((pages.insert tmp (lib.encodeV3Page d 0x02)).insert (tmp + 1)
      (lib.encodeV3Page (lib.encodeOplog (entries.take mid)) 0)).insert (tmp + 2)
      (lib.encodeV3Page (lib.encodeOplog (entries.drop mid)) 0) := by
    rw [insert_insert_of_ne _ (by omega : tmp + 2 ≠ tmp),
      insert_insert_of_ne _ (by omega : tmp + 1 ≠ tmp), insert_insert]
  have hlt1 : ∀ a ∈ pages.insert tmp (lib.encodeV3Page d 0x02), a < tmp + 1 := by
    intro a ha
    rcases mem_insert.1 ha with rfl | ha
    · omega
    · have := hlt a ha
      omega
  have hlt2 : ∀ a ∈ (pages.insert tmp (lib.encodeV3Page d 0x02)).insert (tmp + 1)
      (lib.encodeV3Page (lib.encodeOplog (entries.take mid)) 0), a < tmp + 2 := by
    intro a ha
    rcases mem_insert.1 ha with rfl | ha
    · omega
    · have := hlt1 a ha
      omega
  rw [hswap, log_insert hlt2 (by omega), log_insert hlt1 (by omega),
    log_insert hlt hc, entriesAt_of_tombstoned (lookup_insert _),
    entriesAt_of_live (lookup_insert _),
    entriesAt_of_live (lookup_insert _), append_nil, append_assoc,
    take_append_drop]

variable (lib p) (l)

def splitUp : StoreState F D :=
  ((p.allocated.writtenRaw lib p.memory.manifest.nextPageId (lib.encodeOplog l)).mapCache
    (·.touch p.memory.manifest.nextPageId)).splitInto lib p.memory.manifest.nextPageId l
      (lib.encodeOplog l)

lemma nextPageId_temporary (data : D) {q : StoreState F D}
    (hq : q = (p.allocated.writtenRaw lib p.memory.manifest.nextPageId data).mapCache
      (·.touch p.memory.manifest.nextPageId)) :
    q.memory.manifest.nextPageId = p.memory.manifest.nextPageId + 1 ∧
      q.allocated.memory.manifest.nextPageId = p.memory.manifest.nextPageId + 2 := by
  subst hq
  exact ⟨StoreManifest.nextPageId_allocatePageId, StoreManifest.nextPageId_allocatePageId.trans
    (congrArg (· + 1) StoreManifest.nextPageId_allocatePageId)⟩

lemma splitUp_pages :
    (splitUp lib p l).dir.pages =
      (((p.dir.pages.insert p.memory.manifest.nextPageId
          (lib.encodeV3Page (lib.encodeOplog l) 0)).insert (p.memory.manifest.nextPageId + 1)
          (lib.encodeV3Page (lib.encodeOplog (l.take (l.length / 2))) 0)).insert
        (p.memory.manifest.nextPageId + 2)
        (lib.encodeV3Page (lib.encodeOplog (l.drop (l.length / 2))) 0)).insert
        p.memory.manifest.nextPageId (lib.encodeV3Page (lib.encodeOplog l) 0x02) := by
  set q := (p.allocated.writtenRaw lib p.memory.manifest.nextPageId (lib.encodeOplog l)).mapCache
    (·.touch p.memory.manifest.nextPageId) with hq
  obtain ⟨hleft, hright⟩ := nextPageId_temporary lib p (lib.encodeOplog l) hq
  rw [← hright, ← hleft]
  rfl

variable {l} {lib p}

lemma cached_of_splitUp (hid : id < p.memory.manifest.nextPageId)
    (hd : (splitUp lib p l).memory.pageCache.entries.lookup id = some d) :
    p.memory.pageCache.entries.lookup id = some d := by
  set tmp := p.memory.manifest.nextPageId
  set q := (p.allocated.writtenRaw lib tmp (lib.encodeOplog l)).mapCache (·.touch tmp) with hq
  obtain ⟨hleft, hright⟩ := nextPageId_temporary lib p (lib.encodeOplog l) hq
  have hne : ∀ {a}, tmp ≤ a → id ≠ a := fun ha => by omega
  have hlookup : (((((p.memory.pageCache.insert lib.len tmp (lib.encodeOplog l)).touch tmp).insert
      lib.len q.memory.manifest.nextPageId (lib.encodeOplog (l.take (l.length / 2)))).insert lib.len
      q.allocated.memory.manifest.nextPageId (lib.encodeOplog (l.drop (l.length / 2)))).remove
      lib.len tmp).entries.lookup id = some d := hd
  rw [lookup_remove_of_ne (hne le_rfl)] at hlookup
  have hboth := lookup_of_insert_of_ne (hne (by omega)) hlookup
  have hone := lookup_of_insert_of_ne (hne (by omega)) hboth
  exact lookup_of_insert_of_ne (hne le_rfl) hone

section

variable (h : Consistent lib p)

include h

lemma StoreState.Consistent.commitPageWrite (hlive : id ∈ p.index.livePages)
    (hid : id ∈ p.handedOut) :
    Consistent lib (p.commit (p.memory.manifest.commitPageWrite id none)) := by
  refine h.commit rfl (fun a d hf => Finset.mem_insert_of_mem (h.live a d hf)) (fun a ha => ?_)
    h.numbered fun a ha => ?_
  · rcases Finset.mem_insert.1 ha with rfl | ha
    · exact hlive
    · exact ha
  · rcases mem_track_pageById.1 ha with rfl | ha
    · exact hid
    · exact h.index_handed a ha

lemma wrote_writtenInPlace (hb : Blank id p) :
    Wrote lib l id p (p.writtenInPlace lib id (lib.encodeOplog l)) := by
  have hself : (p.dir.pages.insert id (lib.encodeV3Page (lib.encodeOplog l) 0)).lookup id =
    some (lib.encodeV3Page (lib.encodeOplog l) 0) := lookup_insert _
  have hcache : ∀ d, (p.memory.pageCache.insert lib.len id (lib.encodeOplog l)).entries.lookup id =
      some d → (p.dir.pages.insert id (lib.encodeV3Page (lib.encodeOplog l) 0)).lookup id =
        some (lib.encodeV3Page d 0) := by
    intro d hd
    rw [lookup_insert_self, Option.some.injEq] at hd
    rw [← hd]
    exact hself
  have hlog : ∀ c ≤ id, lib.log (p.dir.pages.insert id (lib.encodeV3Page (lib.encodeOplog l) 0)) c =
      lib.log p.dir.pages c ++ l := by
    intro c hc
    rw [log_insert hb.pages_lt hc, entriesAt_of_live hself]
  have hkept : ∀ a ∈ p.dir.pages.insert id (lib.encodeV3Page (lib.encodeOplog l) 0),
      a ∈ p.dir.pages ∨ id ≤ a := fun a ha =>
    (mem_insert.1 ha).elim (fun he => .inr he.ge) .inl
  unfold writtenInPlace
  dsimp only
  split
  · have hsplit := h.withFlags p.memory.gcNeeded true p.memory.cachedPendingCount
    exact ⟨(hsplit.writtenRaw hb.live hb.handed l).commitPageWrite hb.live hb.handed, hlog, rfl, rfl,
      hkept, hb.handed, hcache⟩
  · exact ⟨(h.writtenRaw hb.live hb.handed l).commitPageWrite hb.live hb.handed, hlog, rfl, rfl,
      hkept, hb.handed, hcache⟩

lemma consistent_halved (hinc : (p.halved lib l).Increasing) : Consistent lib (p.halved lib l) := by
  have hinc' : p.allocated.Increasing := (pairwise_cons.1 hinc).2
  have hleft : p.memory.manifest.nextPageId ∈ p.allocated.allocated.handedOut :=
    mem_cons_of_mem _ mem_cons_self
  have hindex : p.memory.manifest.nextPageId ∈ p.allocated.allocated.index.livePages :=
    Finset.mem_insert_of_mem (Finset.mem_insert_self _ _)
  have h1 : Consistent lib p.allocated := h.tracked tracked_allocated hinc'
  have h2 : Consistent lib p.allocated.allocated := h1.tracked tracked_allocated hinc
  exact (h2.writtenRaw hindex hleft _).writtenRaw (Finset.mem_insert_self _ _) mem_cons_self _

lemma StoreState.Consistent.commitSplit {left right : ℕ}
    (hleft : left ∈ p.index.livePages ∧ left ∈ p.handedOut)
    (hright : right ∈ p.index.livePages ∧ right ∈ p.handedOut) (hl : id ≠ left) (hr : id ≠ right)
    (hfile : p.dir.pages.lookup id = some (lib.encodeV3Page d 0x02))
    (hkey : p.index.pageById.lookup id = some (.sequence id)) :
    Consistent lib (p.commit (p.memory.manifest.commitTx
      [.write left none, .write right none, .tombstone id])) := by
  have hindex : (p.memory.manifest.commitTx
      [.write left none, .write right none, .tombstone id]).contentIndex =
        ((p.index.track left).track right).removeByPageId id := rfl
  have hkey' : ((p.index.track left).track right).pageById.lookup id = some (.sequence id) := by
    rw [lookup_track_of_ne hr, lookup_track_of_ne hl, hkey]
  obtain ⟨hlive, hnum, hsub⟩ := removeByPageId_numbered hkey'
    (show ((p.index.track left).track right).Numbered from h.numbered)
  refine h.commit rfl (fun a d' hf => ?_) (fun a ha => ?_) ?_ fun a ha => ?_
  · rw [hindex, hlive]
    refine Finset.mem_erase.2 ⟨fun ha => ?_, Finset.mem_insert_of_mem (Finset.mem_insert_of_mem
      (h.live a d' hf))⟩
    -- the file of the page itself is tombstoned
    rw [ha, hfile, Option.some.injEq] at hf
    exact absurd (encodeV3Page_inj hf).2 (by decide)
  · rw [hindex, hlive] at ha
    rcases Finset.mem_insert.1 (Finset.mem_of_mem_erase ha) with rfl | ha
    · exact hright.1
    · rcases Finset.mem_insert.1 ha with rfl | ha
      · exact hleft.1
      · exact ha
  · rw [hindex]
    exact hnum
  · rw [hindex] at ha
    rcases mem_track_pageById.1 (hsub a ha) with rfl | ha
    · exact hright.2
    · rcases mem_track_pageById.1 ha with rfl | ha
      · exact hleft.2
      · exact h.index_handed a ha

lemma wrote_splitUp (hb : Blank id p)
    (hinc : (splitUp lib p l).Increasing) : Wrote lib l id p (splitUp lib p l) := by
  set tmp := p.memory.manifest.nextPageId with htmp
  set data := lib.encodeOplog l with hdata
  set q := (p.allocated.writtenRaw lib tmp data).mapCache (·.touch tmp) with hq
  set mid := l.length / 2
  obtain ⟨hleft, hright⟩ := nextPageId_temporary lib p data hq
  have hincq : q.allocated.allocated.Increasing := hinc
  have hincp : p.allocated.Increasing :=
    (pairwise_cons.1 (pairwise_cons.1 hincq).2).2
  have hlt : ∀ a ∈ p.handedOut, a < tmp := fun a ha => tracked_allocated.lt hincp ha
  have hpages : ∀ a ∈ p.dir.pages, a < tmp := fun a ha => hlt a (h.page_handed a ha)
  have hidlt : id < tmp := hlt id hb.handed
  -- the temporary page, then the two halves
  have hcq : Consistent lib q :=
    ((h.tracked tracked_allocated hincp).writtenRaw (Finset.mem_insert_self _ _) mem_cons_self
      l).withCache fun a d hd => .inl hd
  have hmem : tmp ∈ (q.halved lib l).handedOut :=
    mem_cons_of_mem _ (mem_cons_of_mem _ mem_cons_self)
  have hct := (consistent_halved hcq hincq).tombstoned hmem data
  have hkey : ((q.halved lib l).index).pageById.lookup tmp = some (.sequence tmp) := by
    have hindex : (q.halved lib l).index = ((p.index.track tmp).track q.memory.manifest.nextPageId).track
      q.allocated.memory.manifest.nextPageId := rfl
    have hnew : tmp ∉ p.index.pageById := fun hin => absurd (hlt tmp (h.index_handed tmp hin))
      (lt_irrefl tmp)
    rw [hindex, lookup_track_of_ne (by omega), lookup_track_of_ne (by omega),
      lookup_track_self hnew]
  refine ⟨?_, fun c hc => ?_, rfl, rfl, fun a ha => ?_, ?_, fun d hd => ?_⟩
  · refine hct.commitSplit ⟨?_, ?_⟩ ⟨?_, ?_⟩ (show tmp ≠ q.memory.manifest.nextPageId by omega)
      (show tmp ≠ q.allocated.memory.manifest.nextPageId by omega) (lookup_insert _) hkey
    · exact Finset.mem_insert_of_mem (Finset.mem_insert_self _ _)
    · exact mem_cons_of_mem _ mem_cons_self
    · exact Finset.mem_insert_self _ _
    · exact mem_cons_self
  · rw [splitUp_pages]
    exact log_split hpages (by omega) mid
  · rw [splitUp_pages, mem_insert, mem_insert, mem_insert, mem_insert] at ha
    rcases ha with rfl | rfl | rfl | rfl | ha
    · exact .inr (by omega)
    · exact .inr (by omega)
    · exact .inr (by omega)
    · exact .inr (by omega)
    · exact .inl ha
  · exact mem_cons_of_mem _ (mem_cons_of_mem _ (mem_cons_of_mem _ hb.handed))
  · -- the page itself was never written
    have hcached := cached_of_splitUp hidlt hd
    rw [hb.cached] at hcached
    cases hcached

lemma assuming_writePage (hb : Blank id p) (l : List (OplogEntry B)) :
    Assuming (machine B) Increasing (fun r p' => r = .ok () ∧ Wrote lib l id p p' ∧
      p'.memory.cachedPendingCount = p.memory.cachedPendingCount)
      (writePage lib id (lib.encodeOplog l)) p := by
  unfold writePage
  split
  · exact (wp_emergencySplit_of_some (lib.decodeOplog_encodeOplog l)).2 fun hinc =>
      ⟨rfl, wrote_splitUp h hb hinc, rfl⟩
  · exact (wp_writeInPlace id _).2 fun _ =>
      ⟨rfl, wrote_writtenInPlace h hb, by unfold writtenInPlace; dsimp only; split <;> rfl⟩

end

/-! ## Collecting -/

lemma log_dropFiles {stale : List ℕ} (hstale : ∀ a, a ∈ stale ↔ a ∈ p.dir.pages ∧ a < p.current) :
    lib.log (p.dropFiles stale).dir.pages p.current = lib.log p.dir.pages p.current := by
  have hkept : ∀ {a}, p.current ≤ a → a ∉ stale := fun hle hin =>
    absurd ((hstale _).1 hin).2 (not_lt.2 hle)
  have hlookup : ∀ {a}, p.current ≤ a →
      (p.dropFiles stale).dir.pages.lookup a = p.dir.pages.lookup a := fun hle => by
    rw [lookup_dropFiles, if_neg (hkept hle)]
  have hids : (ascending (p.dropFiles stale).dir.pages.keys).filter (fun a => p.current ≤ a) =
      (ascending p.dir.pages.keys).filter fun a => p.current ≤ a := by
    refine eq_of_sorted ((sorted_ascending _).filter _) ((sorted_ascending _).filter _) fun a => ?_
    rw [mem_filter, mem_filter, mem_ascending, mem_ascending, Finmap.mem_keys,
      Finmap.mem_keys, Finmap.mem_iff, Finmap.mem_iff, decide_eq_true_iff]
    exact and_congr_left fun hle => by rw [hlookup hle]
  unfold log
  rw [hids]
  refine flatMap_congr fun a ha => entriesAt_congr (hlookup ?_)
  simpa using (mem_filter.1 ha).2

end VaultSync.Opfs
