import VaultSync.Opfs.Documents
import VaultSync.Opfs.MetadataStore
import VaultSync.Opfs.PageIdBounds

/-! The migration of a version 1 database, one index file and a file for each document, to pages. -/

namespace VaultSync.Opfs

open Async StoreState PageStore OplogRefinement Versions List MetadataStore OpfsStorage

variable {F D B α State Schema Migration KeyRecord : Type}

/-! ## The two formats -/

structure V1Index (B State Schema Migration KeyRecord : Type) where
  docListing : List (String × List String)
  oplog : List (OplogEntry B)
  syncStates : List (String × State)
  schemas : List (String × Schema)
  migrations : List Migration
  keys : List KeyRecord

def V1Index.listed (index : V1Index B State Schema Migration KeyRecord) : List Key :=
  index.docListing.flatMap fun d => d.2.map fun record => ⟨d.1, record⟩

/-- A version 1 database: what `load_v1_index`, `read_v1_doc` and `rename_v1_system` return. -/
structure V1Database (B State Schema Migration KeyRecord : Type) where
  index : Except VaultSyncError (Option (V1Index B State Schema Migration KeyRecord))
  doc : Key → Except VaultSyncError (Option B)
  rename : Except VaultSyncError Unit

/-- How the migration encodes what it writes, and how the storage decodes what it reads: each
metadata store holds one value, of which the migration writes single parts. -/
structure V1Lib (F D B State Schema Migration KeyRecord : Type) extends DocLib F D B where
  encodeSyncState : String × State → D
  encodeSchema : String × Schema → D
  encodeMigration : Migration → D
  encodeKey : KeyRecord → D
  syncState : Codec D State
  schemas : Codec D (List (String × Schema))
  migrations : Codec D (List Migration)
  keys : Codec D (List KeyRecord)
  keyNamespace : KeyRecord → String

/-! ## The migration -/

namespace V1Migration

section functions

variable (lib : V1Lib F D B State Schema Migration KeyRecord)
  (v1 : V1Database B State Schema Migration KeyRecord) (index : V1Index B State Schema Migration KeyRecord)

def writeNewPage (lib : PageLib F D B) (data : D) : PageFn F D Unit := do
  let id ← allocatePageId
  writePage lib id data

def forEach (f : α → TabFn F D B Unit) : List α → TabFn F D B Unit
  | [] => return ()
  | a :: l => do
    f a
    forEach f l

def migrateDoc (k : Key) : TabFn F D B Unit :=
  match v1.doc k with
  | .ok (some bytes) => onStore .docData (writeNewPage lib.toPageLib (lib.docPage k bytes))
  | _ => return ()

/-- In chunks of 50, while there are entries; there are at most `rounds` chunks. -/
def migrateOplog (lib : PageLib F D B) : ℕ → List (OplogEntry B) → TabFn F D B Unit
  | 0, _ => return ()
  | rounds + 1, batch =>
    if batch.isEmpty then return ()
    else do
      onStore .oplog (writeNewPage lib (lib.encodeOplog (batch.take 50)))
      migrateOplog lib rounds (batch.drop 50)

def migrateIndexToPages : TabFn F D B Unit := do
  openStores lib.toPageLib
  forEach (migrateDoc lib v1) index.listed
  migrateOplog lib.toPageLib index.oplog.length index.oplog
  forEach (fun p => onStore .syncStates (writeNewPage lib.toPageLib (lib.encodeSyncState p)))
    index.syncStates
  forEach (fun p => onStore .schemas (writeNewPage lib.toPageLib (lib.encodeSchema p)))
    index.schemas
  forEach (fun m => onStore .migrations (writeNewPage lib.toPageLib (lib.encodeMigration m)))
    index.migrations
  forEach (fun k => onStore .keys (writeNewPage lib.toPageLib (lib.encodeKey k))) index.keys

def tryMigrateFromV1 : TabFn F D B Bool :=
  match v1.index with
  | .ok (some index) => do
    migrateIndexToPages lib v1 index
    Prog.ofExcept v1.rename
    return true
  | _ => return false

/-! ## The reads, without a metadata runtime -/

def readSyncState (_namespace : String) : TabFn F D B (Option State) :=
  onStore .syncStates (read lib.toPageLib lib.syncState)

def readSchema (docId : String) : TabFn F D B (Option Schema) := do
  let all ← onStore .schemas (read lib.toPageLib lib.schemas)
  return ((all.getD []).find? fun p => p.1 = docId).map Prod.snd

def readMigrations : TabFn F D B (List Migration) := do
  return (← onStore .migrations (read lib.toPageLib lib.migrations)).getD []

def readKeys («namespace» : String) : TabFn F D B (List KeyRecord) := do
  let all ← onStore .keys (read lib.toPageLib lib.keys)
  return (all.getD []).filter fun key => lib.keyNamespace key = «namespace»

/-- Everything that the index holds is read back. The reads of the oplog all select from
`read_all_oplog_entries`. -/
structure Preserved (s : TabState F D) : Prop where
  documents : ∀ k ∈ index.listed, ∀ bytes, v1.doc k = .ok (some bytes) →
    wp (TabState.machine B) (fun r _ => r = .ok (some bytes))
      (getDocument lib.toDocLib k) s
  oplog : ∀ e ∈ index.oplog, wp (TabState.machine B) (fun r _ => ∃ l, r = .ok l ∧ e ∈ l)
    (readAllOplogEntries lib.toPageLib) s
  syncStates : ∀ p ∈ index.syncStates, wp (TabState.machine B) (fun r _ => r = .ok (some p.2))
    (readSyncState lib p.1) s
  schemas : ∀ p ∈ index.schemas, wp (TabState.machine B) (fun r _ => r = .ok (some p.2))
    (readSchema lib p.1) s
  migrations : ∀ m ∈ index.migrations, wp (TabState.machine B) (fun r _ => ∃ l, r = .ok l ∧ m ∈ l)
    (readMigrations lib) s
  keys : ∀ key ∈ index.keys, wp (TabState.machine B) (fun r _ => ∃ l, r = .ok l ∧ key ∈ l)
    (readKeys lib (lib.keyNamespace key)) s

end functions

structure OplogOnly (index : V1Index B State Schema Migration KeyRecord) : Prop where
  documents : index.listed = []
  oplog : ∀ e ∈ index.oplog, ∀ e' ∈ index.oplog, e.id = e'.id → e = e'
  syncStates : index.syncStates = []
  schemas : index.schemas = []
  migrations : index.migrations = []
  keys : index.keys = []

/-! ## One page -/

/-- No key is in the index, the store has no current page, and its ids come in increasing order. -/
structure Unkeyed (lib : PageLib F D B) (p : StoreState F D) : Prop extends Sound lib p where
  current : p.current = 0
  entries : ∀ key, p.index.entries key = none
  documents : ∀ k, p.index.pageByDocument k = none
  increasing : p.Increasing
  handed_lt : ∀ a ∈ p.handedOut, a < p.next

variable {lib : PageLib F D B} {p : StoreState F D} {m : StoreManifest}

lemma unkeyed_created : Unkeyed lib (created : StoreState F D) where
  toSound := sound_created
  current := rfl
  entries _ := rfl
  documents _ := rfl
  increasing := List.Pairwise.nil
  handed_lt _ h := by cases h

section

variable (h : Unkeyed lib p)

include h

lemma Unkeyed.allocated : Unkeyed lib p.allocated := by
  have hnext : p.allocated.next = p.next + 1 := StoreManifest.nextPageId_allocatePageId
  refine ⟨(h.toSound.commit _).handOut _, h.current, h.entries, h.documents, ?_, ?_⟩
  · exact pairwise_cons.2 ⟨h.handed_lt, h.increasing⟩
  · intro a ha
    rcases mem_cons.1 ha with rfl | ha
    · rw [hnext]
      exact Nat.lt_succ_self _
    · rw [hnext]
      exact Nat.lt_succ_of_lt (h.handed_lt a ha)

lemma Unkeyed.writtenRaw (id : ℕ) (data : D) : Unkeyed lib (p.writtenRaw lib id data) :=
  { h with toSound := h.toSound.writtenRaw id data }

lemma Unkeyed.mapCache (f : PageCache D → PageCache D) : Unkeyed lib (p.mapCache f) :=
  { h with toSound := h.toSound.mapCache f }

lemma Unkeyed.commit (hcurrent : m.currentPage = 0)
    (hentries : ∀ key, m.contentIndex.entries key = none)
    (hdocuments : ∀ k, m.contentIndex.pageByDocument k = none) (hnext : m.nextPageId = p.next) :
    Unkeyed lib (p.commit m) where
  toSound := h.toSound.commit m
  current := hcurrent
  entries := hentries
  documents := hdocuments
  increasing := h.increasing
  handed_lt a ha := (h.handed_lt a ha).trans_eq hnext.symm

lemma Unkeyed.writtenInPlace (id : ℕ) (data : D) : Unkeyed lib (p.writtenInPlace lib id data) := by
  unfold StoreState.writtenInPlace
  dsimp only
  split
  · have hsoft : Unkeyed lib { p with memory := { p.memory with splitPending := true } } :=
      ⟨⟨h.manifest, h.formatted⟩, h.current, h.entries, h.documents, h.increasing, h.handed_lt⟩
    exact (hsoft.writtenRaw id data).commit h.current h.entries h.documents rfl
  · exact (h.writtenRaw id data).commit h.current h.entries h.documents rfl

end

lemma removeByPageId_of_unkeyed {ci : ContentIndex} (h : ∀ key, ci.entries key = none) (id : ℕ) :
    (ci.removeByPageId id).entries = ci.entries ∧
      (ci.removeByPageId id).pageByDocument = ci.pageByDocument := by
  unfold ContentIndex.removeByPageId ContentIndex.removeKeyOf
  cases ci.pageById.lookup id with
  | none => exact ⟨rfl, rfl⟩
  | some key => simp [ContentIndex.remove, h key]

lemma Unkeyed.splitInto (h : Unkeyed lib p) (id : ℕ) (entries : List (OplogEntry B)) (data : D) :
    Unkeyed lib (p.splitInto lib id entries data) := by
  have hhalved : Unkeyed lib (p.halved lib entries) :=
    (h.allocated.allocated.writtenRaw _ _).writtenRaw _ _
  have htombstoned : Unkeyed lib (((p.halved lib entries).mapCache (·.remove lib.len id)).putFile id
      (lib.encodeV3Page data 0x02)) :=
    ⟨(hhalved.toSound.mapCache _).putFile id data (.inr rfl), hhalved.current, hhalved.entries,
      hhalved.documents, hhalved.increasing, hhalved.handed_lt⟩
  set ci := ((p.halved lib entries).index.track p.memory.manifest.nextPageId).track
    p.allocated.memory.manifest.nextPageId
  have hindex := removeByPageId_of_unkeyed (show ∀ key, ci.entries key = none from hhalved.entries) id
  refine htombstoned.commit hhalved.current ?_ ?_ (StoreManifest.nextPageId_commitTx _)
  · intro key
    exact (congrFun hindex.1 key).trans (hhalved.entries key)
  · intro k
    exact (congrFun hindex.2 k).trans (hhalved.documents k)

lemma wp_writeNewPage (h : Unkeyed lib p) (data : D) :
    wp (StoreState.machine B) (fun r p' => r = .ok () ∧ Unkeyed lib p') (writeNewPage lib data)
      p := by
  rw [writeNewPage, wp_bind, wp_allocatePageId]
  dsimp only
  unfold writePage
  split
  · have hother : Unkeyed lib ((p.allocated.allocated.writtenRaw lib
        p.allocated.memory.manifest.nextPageId data).mapCache
          (·.touch p.allocated.memory.manifest.nextPageId)) :=
      (h.allocated.allocated.writtenRaw _ data).mapCache _
    cases hdecode : lib.decodeOplog data with
    | none =>
      rw [wp_emergencySplit_read, hdecode]
      exact ⟨rfl, hother⟩
    | some entries => exact (wp_emergencySplit_of_some hdecode).2 ⟨rfl, hother.splitInto _ _ _⟩
  · exact (wp_writeInPlace _ data).2 ⟨rfl, h.allocated.writtenInPlace _ data⟩

lemma wp_writeNewPage_oplog {map : OplogMap B} (h : Unkeyed lib p) (hh : Holds lib map p)
    (l : List (OplogEntry B)) :
    wp (StoreState.machine B) (fun r p' => r = .ok () ∧ Unkeyed lib p' ∧
      Holds lib (update OplogEntry.id map l) p') (writeNewPage lib (lib.encodeOplog l)) p := by
  have hinc : p.allocated.Increasing := h.allocated.increasing
  have ht := tracked_allocated (p := p)
  have hwrite : Assuming (StoreState.machine B) Increasing
      (fun _ p' => Holds lib (update OplogEntry.id map l) p')
      (writeNewPage lib (lib.encodeOplog l)) p := by
    rw [writeNewPage, Assuming, wp_bind, wp_allocatePageId]
    refine wp.mono (assuming_writePage (hh.consistent.tracked ht hinc)
      (ht.blank hh.consistent hinc) l) ?_
    intro _ p' hw hinc'
    exact hh.appended (appended_of_wrote (hw hinc').2.1 ht hh.consistent hinc)
  refine ((wp_writeNewPage h (lib.encodeOplog l)).and hwrite).mono ?_
  rintro r p' ⟨⟨rfl, hu⟩, hholds⟩
  exact ⟨rfl, hu, hholds hu.increasing⟩

/-! ## The whole index -/

structure Migrated (lib : PageLib F D B) (l : List (OplogEntry B)) (s : TabState F D) : Prop where
  unkeyed : ∀ store, Unkeyed lib (s.part store)
  holds : Holds lib (latest OplogEntry.id l) (s.part .oplog)

variable {s : TabState F D} {l l' : List (OplogEntry B)} {store : StoreName}

section

variable (h : Migrated lib l s)

include h

lemma Migrated.replace (hp : Unkeyed lib p)
    (hholds : Holds lib (latest OplogEntry.id l') ((s.replace store p).part .oplog)) :
    Migrated lib l' (s.replace store p) := by
  refine ⟨fun store' => ?_, hholds⟩
  by_cases hs : store' = store
  · subst hs
    rw [TabState.part_replace]
    exact hp
  · rw [TabState.part_replace_of_ne hs]
    exact h.unkeyed store'

lemma Migrated.newPage (hne : store ≠ .oplog) (data : D) :
    wp (TabState.machine B) (fun r s' => r = .ok () ∧ Migrated lib l s')
      (onStore store (writeNewPage lib data)) s := by
  rw [wp_onStore]
  refine (wp_writeNewPage (h.unkeyed store) data).mono ?_
  rintro r p ⟨rfl, hp⟩
  have hoplog : (s.replace store p).part .oplog = s.part .oplog :=
    TabState.part_replace_of_ne (Ne.symm hne)
  exact ⟨rfl, h.replace hp (hoplog.symm ▸ h.holds)⟩

lemma Migrated.newOplogPage (l' : List (OplogEntry B)) :
    wp (TabState.machine B) (fun r s' => r = .ok () ∧ Migrated lib (l ++ l') s')
      (onStore .oplog (writeNewPage lib (lib.encodeOplog l'))) s := by
  rw [wp_onStore]
  refine (wp_writeNewPage_oplog (h.unkeyed .oplog) h.holds l').mono ?_
  rintro r p ⟨rfl, hp, hholds⟩
  refine ⟨rfl, h.replace hp ?_⟩
  rw [TabState.part_replace, latest_append]
  exact hholds

lemma Migrated.forEach {f : α → TabFn F D B Unit} (hf : ∀ a s, Migrated lib l s →
      wp (TabState.machine B) (fun r s' => r = .ok () ∧ Migrated lib l s') (f a) s) (as : List α) :
    wp (TabState.machine B) (fun r s' => r = .ok () ∧ Migrated lib l s') (forEach f as) s := by
  induction as generalizing s with
  | nil => exact ⟨rfl, h⟩
  | cons a as ih =>
    exact (hf a s h).then fun s' hs' => ih hs'

lemma Migrated.migrateOplog {rounds : ℕ} {batch : List (OplogEntry B)}
    (hlen : batch.length ≤ rounds) :
    wp (TabState.machine B) (fun r s' => r = .ok () ∧ Migrated lib (l ++ batch) s')
      (migrateOplog lib rounds batch) s := by
  induction rounds generalizing s l batch with
  | zero =>
    obtain rfl : batch = [] := length_eq_zero_iff.1 (Nat.le_zero.1 hlen)
    rw [append_nil]
    exact ⟨rfl, h⟩
  | succ rounds ih =>
    rw [V1Migration.migrateOplog]
    split
    · rename_i hempty
      rw [isEmpty_iff.1 hempty, append_nil]
      exact ⟨rfl, h⟩
    · refine (h.newOplogPage (batch.take 50)).then fun s' hs' => ?_
      have hrest : (batch.drop 50).length ≤ rounds := by
        rw [length_drop]
        omega
      refine (ih hs' hrest).mono ?_
      rintro r s'' ⟨rfl, hs''⟩
      rw [append_assoc, take_append_drop] at hs''
      exact ⟨rfl, hs''⟩

end

def NewDirectories (s : TabState F D) : Prop :=
  ∀ store, s.disk store = ⟨∅, .missing⟩ ∧ s.handedOut store = []

lemma wp_openStores_new (h : NewDirectories s) :
    wp (TabState.machine B) (fun r s' => r = .ok () ∧ Migrated lib [] s') (openStores lib) s := by
  have hopen := wp_forStores (t := fun _ => openStore lib) (s := s)
    (fun _ p => p.dir = ⟨∅, .missing⟩ ∧ p.handedOut = []) (fun _ p => p = created)
    (by
      rintro _ ⟨memory, dir, handedOut⟩ ⟨rfl, rfl⟩
      exact (wp_openStore_empty memory).2 ⟨rfl, rfl⟩)
    (by decide : StoreName.all.Nodup) (fun store _ => h store)
  refine hopen.mono ?_
  rintro r s' ⟨rfl, hparts, -⟩
  have hpart : ∀ store, s'.part store = created := fun store => hparts store (by cases store <;> decide)
  refine ⟨rfl, fun store => hpart store ▸ unkeyed_created, ?_⟩
  rw [hpart]
  exact ⟨consistent_created, fun _ hid => absurd hid Finmap.notMem_empty, rfl⟩

lemma Unkeyed.opened (h : Unkeyed lib p) :
    Unkeyed lib { p with memory := PageStore.opened p.memory.manifest } :=
  ⟨h.toSound.opened, h.current, h.entries, h.documents, h.increasing, h.handed_lt⟩

lemma Migrated.reopen (h : Migrated lib l s) :
    wp (TabState.machine B) (fun _ s' => Migrated lib l s') (reopen lib) s := by
  have hopen := wp_forStores (t := fun _ => openStore lib) (s := s) (fun store p => p = s.part store)
    (fun store p => p = { s.part store with
      memory := PageStore.opened (s.part store).memory.manifest })
    (by
      rintro store _ rfl
      exact (wp_openStore_of_valid (h.unkeyed store).manifest).2 ⟨rfl, rfl⟩)
    (by decide : StoreName.all.Nodup) (fun _ _ => rfl)
  refine hopen.then ?_
  rintro s' ⟨hparts, -⟩
  have hpart : ∀ store, s'.part store = { s.part store with
      memory := PageStore.opened (s.part store).memory.manifest } :=
    fun store => hparts store (by cases store <;> decide)
  have hs' : Migrated lib l s' :=
    ⟨fun store => hpart store ▸ (h.unkeyed store).opened,
      hpart .oplog ▸ h.holds.opened (h.unkeyed .oplog).current⟩
  exact ⟨hs'.unkeyed, hs'.holds⟩

/-! ## What is read back -/

section reading

variable {lib : V1Lib F D B State Schema Migration KeyRecord}
  {v1 : V1Database B State Schema Migration KeyRecord}
  {index : V1Index B State Schema Migration KeyRecord}

lemma wp_migrateIndexToPages (h : NewDirectories s) :
    wp (TabState.machine B) (fun r s' => r = .ok () ∧ Migrated lib.toPageLib index.oplog s')
      (migrateIndexToPages lib v1 index) s := by
  refine (wp_openStores_new h).then fun s1 hs1 => ?_
  have hdoc : ∀ k s, Migrated lib.toPageLib [] s →
      wp (TabState.machine B) (fun r s' => r = .ok () ∧ Migrated lib.toPageLib [] s')
        (migrateDoc lib v1 k) s := by
    intro k s hs
    unfold migrateDoc
    split
    · exact hs.newPage (by decide) _
    · exact ⟨rfl, hs⟩
  refine (hs1.forEach hdoc _).then fun s2 hs2 => ?_
  refine (hs2.migrateOplog le_rfl).then fun s3 hs3 => ?_
  refine (hs3.forEach (fun _ _ hs => hs.newPage (by decide) _) _).then fun s4 hs4 => ?_
  refine (hs4.forEach (fun _ _ hs => hs.newPage (by decide) _) _).then fun s5 hs5 => ?_
  refine (hs5.forEach (fun _ _ hs => hs.newPage (by decide) _) _).then fun s6 hs6 => ?_
  exact hs6.forEach (fun _ _ hs => hs.newPage (by decide) _) _

section

variable (h : Migrated lib.toPageLib l s)

include h

lemma Migrated.documentAt (k : Key) :
    PageStore.documentAt lib.toDocLib k (s.part .docData) = .ok none := by
  have hindex : (s.part .docData).memory.manifest.contentIndex.lookupDocument k = none := by
    have hentries : (s.part .docData).memory.manifest.contentIndex.entries (.document k) = none :=
      (h.unkeyed .docData).entries _
    simp only [ContentIndex.lookupDocument, hentries]
    exact (h.unkeyed .docData).documents k
  simp only [PageStore.documentAt, hindex]

lemma Migrated.read {T : Type} (store : StoreName) (codec : Codec D T) :
    wp (TabState.machine B) (fun r _ => r = .ok none)
      (onStore store (read lib.toPageLib codec)) s :=
  wp_onStore.2 (wp_read_lost ⟨(h.unkeyed store).toSound, (h.unkeyed store).current⟩)

lemma Migrated.read_map {T : Type} (store : StoreName) (codec : Codec D T) (g : Option T → α) :
    wp (TabState.machine B) (fun r _ => r = .ok (g none))
      (do return g (← onStore store (MetadataStore.read lib.toPageLib codec))) s := by
  refine (h.read store codec).bind ?_ fun _ _ hr => nomatch hr
  intro all _ hr
  cases hr
  rfl

end

lemma not_wp_of_eq {t : TabFn F D B α} {r : Except VaultSyncError α}
    {R : Except VaultSyncError α → Prop} (h : wp (TabState.machine B) (fun r' _ => r' = r) t s)
    (hr : ¬ R r) : ¬ wp (TabState.machine B) (fun r' _ => R r') t s := by
  refine (wp_iff_of_ends (fun _ _ => trivial) (h.mono ?_)).not.2 hr
  rintro _ _ rfl
  rfl

lemma Migrated.oplog_iff (h : Migrated lib.toPageLib l s) (e : OplogEntry B) :
    wp (TabState.machine B) (fun r _ => ∃ l', r = .ok l' ∧ e ∈ l')
        (readAllOplogEntries lib.toPageLib) s ↔
      latest OplogEntry.id l e.id = some e := by
  have hstale : NoStale (s.part .oplog) := by
    intro a _
    have hzero : (s.part .oplog).current = 0 := (h.unkeyed .oplog).current
    exact hzero ▸ Nat.zero_le a
  have hrep := represents_entriesRead h.holds hstale
  rw [hrep.eq_some_iff]
  refine wp_iff_of_ends (fun _ _ => trivial)
    ((wp_readAllOplogEntries_consistent h.holds.consistent).mono ?_)
  rintro _ s' ⟨l', rfl, hl', -⟩
  constructor
  · rintro ⟨_, hr, he⟩
    cases hr
    exact ⟨hl'.mem_iff.1 he, rfl⟩
  · exact fun he => ⟨l', rfl, hl'.mem_iff.2 he.1⟩

lemma Migrated.preserved_iff (h : Migrated lib.toPageLib index.oplog s)
    (hdocs : ∀ k ∈ index.listed, ∃ bytes, v1.doc k = .ok (some bytes)) :
    Preserved lib v1 index s ↔ OplogOnly index := by
  constructor
  · intro hp
    refine ⟨?_, ?_, ?_, ?_, ?_, ?_⟩
    · refine eq_nil_iff_forall_not_mem.2 fun k hk => ?_
      obtain ⟨bytes, hb⟩ := hdocs k hk
      have hget := wp_getDocument.1 (hp.documents k hk bytes hb)
      rw [h.documentAt k] at hget
      cases hget
    · exact latest_eq_self_iff.1 fun e he => (h.oplog_iff e).1 (hp.oplog e he)
    · refine eq_nil_iff_forall_not_mem.2 fun p hmem => ?_
      exact not_wp_of_eq (h.read .syncStates lib.syncState) (by simp) (hp.syncStates p hmem)
    · refine eq_nil_iff_forall_not_mem.2 fun p hmem => ?_
      exact not_wp_of_eq (h.read_map .schemas _ _) (by simp) (hp.schemas p hmem)
    · refine eq_nil_iff_forall_not_mem.2 fun m hmem => ?_
      exact not_wp_of_eq (h.read_map .migrations _ _) (by simp) (hp.migrations m hmem)
    · refine eq_nil_iff_forall_not_mem.2 fun key hmem => ?_
      exact not_wp_of_eq (h.read_map .keys _ _) (by simp) (hp.keys key hmem)
  · intro hk
    refine ⟨?_, fun e he => (h.oplog_iff e).2 (latest_eq_self_iff.2 hk.oplog e he), ?_, ?_, ?_, ?_⟩
    · simp [hk.documents]
    · simp [hk.syncStates]
    · simp [hk.schemas]
    · simp [hk.migrations]
    · simp [hk.keys]

variable (lib v1 index)

/-- From a database whose documents are readable, with new directories for the pages: after the
migration and once the storage is open, everything is read back exactly if the index has nothing
but an oplog without repeated ids. -/
theorem preserved_iff_oplogOnly (s : TabState F D)
    (hindex : v1.index = .ok (some index)) (hrename : v1.rename = .ok ())
    (hdocs : ∀ k ∈ index.listed, ∃ bytes, v1.doc k = .ok (some bytes)) (hnew : NewDirectories s) :
    wp (TabState.machine B) (fun r s' => r = .ok true →
        wp (TabState.machine B) (fun _ s'' => Preserved lib v1 index s'') (reopen lib.toPageLib) s')
      (tryMigrateFromV1 lib v1) s ↔ OplogOnly index := by
  have hmigrate : wp (TabState.machine B)
      (fun r s' => r = .ok true ∧ Migrated lib.toPageLib index.oplog s')
      (tryMigrateFromV1 lib v1) s := by
    simp only [tryMigrateFromV1, hindex]
    refine (wp_migrateIndexToPages hnew).then fun s' hs' => ?_
    rw [hrename]
    exact ⟨rfl, hs'⟩
  refine wp_iff_of_ends (fun _ _ => trivial) (hmigrate.mono ?_)
  rintro _ s' ⟨rfl, hs'⟩
  refine (forall_prop_of_true rfl).trans ?_
  exact wp_iff_of_ends (fun _ _ => trivial)
    (hs'.reopen.mono fun _ s'' hs'' => hs''.preserved_iff hdocs)

end reading

/-! ## Samples -/

abbrev Named := List (String × ℕ)

abbrev NamedIndex := V1Index Named Named ℕ (String × ℕ) (String × ℕ)

def sampleCodec : Codec (Term Named) Named where
  encode v := .doc ⟨"", "", v⟩
  decode t := t.doc?.map (·.bytes)
  decode_encode _ := rfl

def sampleLib :
    V1Lib (PageHeader × Term Named) (Term Named) Named Named ℕ (String × ℕ) (String × ℕ) where
  toDocLib := terms fun _ => 0
  encodeSyncState p := .doc ⟨p.1, "", p.2⟩
  encodeSchema p := sampleCodec.encode [p]
  encodeMigration m := sampleCodec.encode [m]
  encodeKey key := sampleCodec.encode [key]
  syncState := sampleCodec
  schemas := sampleCodec
  migrations := sampleCodec
  keys := sampleCodec
  keyNamespace := Prod.fst

def newTab : TabState (PageHeader × Term Named) (Term Named) where
  tab := (opened false : TabState (PageHeader × Term Named) (Term Named)).tab
  disk _ := ⟨∅, .missing⟩
  handedOut _ := []
  clock := 0

def sampleDatabase (index : NamedIndex) : V1Database Named Named ℕ (String × ℕ) (String × ℕ) where
  index := .ok (some index)
  doc _ := .ok (some [("text", 1)])
  rename := .ok ()

def oplogIndex : NamedIndex where
  docListing := [("doc", [])]
  oplog := [{ sampleEntry "a" with yrsUpdate := [], encryptedBlob := none },
    { sampleEntry "b" with yrsUpdate := [], encryptedBlob := none }]
  syncStates := []
  schemas := []
  migrations := []
  keys := []

theorem preserved_oplogIndex :
    NewDirectories newTab ∧
      wp (TabState.machine Named) (fun r s' => r = .ok true →
        wp (TabState.machine Named) (fun _ s'' =>
          Preserved sampleLib (sampleDatabase oplogIndex) oplogIndex s'')
          (reopen sampleLib.toPageLib) s')
        (tryMigrateFromV1 sampleLib (sampleDatabase oplogIndex)) newTab := by
  have hnew : NewDirectories newTab := fun _ => ⟨rfl, rfl⟩
  have honly : OplogOnly oplogIndex :=
    ⟨rfl, by simp [oplogIndex, OplogRefinement.sampleEntry], rfl, rfl, rfl, rfl⟩
  exact ⟨hnew, (preserved_iff_oplogOnly sampleLib (sampleDatabase oplogIndex) oplogIndex newTab rfl
    rfl (fun _ _ => ⟨_, rfl⟩) hnew).2 honly⟩

def mixedIndex : NamedIndex where
  docListing := [("doc", ["record"])]
  oplog := []
  syncStates := [("notes", [("sequence", 1)])]
  schemas := [("doc", 1)]
  migrations := [("first", 1)]
  keys := [("notes", 1)]

def migratedTab : Except VaultSyncError Bool × TabState (PageHeader × Term Named) (Term Named) :=
  let migrated := Async.run (TabState.machine Named)
    (tryMigrateFromV1 sampleLib (sampleDatabase mixedIndex)) [] newTab
  (migrated.1, (Async.run (TabState.machine Named) (reopen sampleLib.toPageLib) [] migrated.2).2)

def readMigrated (t : TabFn (PageHeader × Term Named) (Term Named) Named α) :
    Except VaultSyncError α :=
  (Async.run (TabState.machine Named) t [] migratedTab.2).1

/-- The migration succeeds, and each read finds nothing. -/
theorem nothing_read_after_migration :
    migratedTab.1 = .ok true ∧
      readMigrated (getDocument sampleLib.toDocLib sampleKey) = .ok none ∧
      readMigrated (readSyncState sampleLib "notes") = .ok none ∧
      readMigrated (readSchema sampleLib "doc") = .ok none ∧
      readMigrated (readMigrations sampleLib) = .ok [] ∧
      readMigrated (readKeys sampleLib "notes") = .ok [] := ⟨rfl, rfl, rfl, rfl, rfl, rfl⟩

end V1Migration

end VaultSync.Opfs
