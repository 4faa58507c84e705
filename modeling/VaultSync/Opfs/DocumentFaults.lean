import VaultSync.Opfs.Documents

/-! Document writes on a disk whose operations may fail. -/

namespace VaultSync.Opfs

open Async OplogRefinement TabState PageStore StoreState

variable {F D B α : Type}

/-! ## The disk -/

/-- What the browser decides, and whether the file operation fails; a write that fails may have
been applied. -/
structure FaultEnv (B : Type) where
  env : Env B
  fault : Option FileError
  applied : Bool

instance : Inhabited (FaultEnv B) := ⟨⟨default, none, false⟩⟩

/-- A manifest file that cannot be read is taken as missing. The sections that hand out page ids
do not touch the disk. -/
def StoreState.handleFaulty : (op : FileOp F) → FaultEnv B → StoreState F D → op.Ans × StoreState F D
  | op, ⟨env, none, _⟩, s => handle op env s
  | .readManifest, ⟨_, some _, _⟩, s => (.missing, s)
  | .readFile _, ⟨_, some err, _⟩, s => (.error err, s)
  | .writeManifest m, ⟨env, some err, applied⟩, s =>
    (.error err, if applied then (handle (.writeManifest m) env s).2 else s)
  | .writeFile id f, ⟨env, some err, applied⟩, s =>
    (.error err, if applied then (handle (.writeFile id f) env s).2 else s)
  | .removeFile id, ⟨env, some err, applied⟩, s =>
    (.error err, if applied then (handle (.removeFile id) env s).2 else s)
  | .entries, ⟨env, some _, _⟩, s => handle .entries env s
  | .allocatePageId, ⟨env, some _, _⟩, s => handle .allocatePageId env s
  | .allocateAndRotate, ⟨env, some _, _⟩, s => handle .allocateAndRotate env s

def TabState.handleFaulty : (op : TabOp F B) → FaultEnv B → TabState F D → op.Ans × TabState F D
  | .file store op, e, s =>
    ((StoreState.handleFaulty op e (s.part store)).1,
      s.replace store (StoreState.handleFaulty op e (s.part store)).2)
  | .runtimeAllocate store, e, s => handle (.runtimeAllocate store) e.env s
  | .now, e, s => handle .now e.env s
  | .hashOrder entries, e, s => handle (.hashOrder entries) e.env s

def StoreState.faulty (B : Type) (spared : FileOp F → Prop) :
    Machine (FileOps F) (PageStore D) (FaultEnv B) (StoreState F D) where
  handle := handleFaulty
  allow op e _ := spared op → e.fault = none
  memory s := s.memory
  setMemory p s := { s with memory := p }

def TabState.faulty (spared : TabOp F B → Prop) :
    Machine (TabOps F B) (Tab D) (FaultEnv B) (TabState F D) where
  handle := handleFaulty
  allow op e _ := spared op → e.fault = none
  memory s := s.tab
  setMemory t s := { s with tab := t }

variable {spared : TabOp F B → Prop}

lemma TabState.lawful_faulty : (faulty spared : Machine _ (Tab D) _ _).LawfulMemory where
  memory_setMemory _ _ := rfl
  setMemory_setMemory _ _ _ := rfl
  setMemory_memory _ := rfl

lemma wp_onStore_faulty {store : StoreName} {t : PageFn F D α} {s : TabState F D}
    {Q : Except VaultSyncError α → TabState F D → Prop} :
    wp (faulty spared) Q (onStore store t) s ↔
      wp (faulty B fun op => spared (.file store op))
        (fun r p => Q r (s.replace store p)) t (s.part store) := by
  refine wp_embed (i := storeEmbedding B store) ?_ t
  exact
    { ans_handle := fun _ _ _ => rfl
      state_handle := fun _ _ _ => rfl
      allow_iff := fun _ _ _ => Iff.rfl
      get_memory := fun _ => rfl
      setMemory_put := (storeEmbedding_realizes store).setMemory_put
      part_replace := fun _ _ => part_replace
      replace_replace := fun _ _ _ => replace_replace
      replace_part := fun _ => replace_part }

namespace OpfsStorage

/-! ## The calls -/

def WritesDocument (lib : DocLib F D B) (k : Key) (bytes : B) (op : TabOp F B) : Prop :=
  ∃ id, op = .file .docData (.writeFile id (lib.encodeV3Page (lib.docPage k bytes) 0))

variable {lib : DocLib F D B} {k : Key} {bytes : B} {s : TabState F D}

lemma queueEmpty_onStore (hq : QueueEmpty s) (store : StoreName) (t : PageFn F D α) :
    wp (faulty spared) (fun _ s' => QueueEmpty s') (onStore store t) s :=
  wp_onStore_faulty.2 (wp_iff_outcome.2 fun _ _ _ => hq)

lemma queueEmpty_tombstoneExistingDocPages (hq : QueueEmpty s) :
    wp (faulty spared) (fun _ s' => QueueEmpty s') (tombstoneExistingDocPages lib k) s := by
  refine (queueEmpty_onStore hq .docData _).bind (fun entry s1 hq1 => ?_) fun _ _ h => h
  cases entry with
  | none => exact hq1
  | some entry =>
    have htombstone : wp (faulty spared) (fun _ s' => QueueEmpty s')
        (tombstoneDocPage lib entry.pageId) s1 :=
      StorageRuntime.wp_routed lawful_faulty rfl hq1 (queueEmpty_onStore hq1 .docData _)
    refine htombstone.bind (fun _ s2 hq2 => ?_) fun _ _ h => h
    exact (queueEmpty_onStore hq2 .docData _).bind (fun _ _ h => h) fun _ _ h => h

lemma queueEmpty_allocDocData (hq : QueueEmpty s) :
    wp (faulty spared) (fun _ s' => QueueEmpty s') allocDocData s := by
  have halloc : wp (faulty spared) (fun _ s' => QueueEmpty s')
      (StorageRuntime.allocatePageId .docData) s :=
    fun _ _ => queueEmpty_runtimeAllocate hq .docData
  refine halloc.bind (fun id s1 hq1 => ?_) fun _ _ h => h
  cases id with
  | none => exact queueEmpty_onStore hq1 .docData _
  | some id => exact (queueEmpty_onStore hq1 .docData _).bind (fun _ _ h => h) fun _ _ h => h

def Cached (id : ℕ) (data : D) (p : StoreState F D) : Prop :=
  p.memory.pageCache.entries.lookup id = some data

variable {id : ℕ} {data : D} {p : StoreState F D} {sparedFile : FileOp F → Prop}

lemma cached_commitManifest (h : Cached id data p) (f : StoreManifest → StoreManifest) :
    wp (faulty B sparedFile) (fun _ p' =>
      Cached id data p' ∧ p'.memory.manifest = f p.memory.manifest)
      (commitManifest f) p := by
  rintro ⟨env, _ | err, _ | _⟩ -
  · exact ⟨h, rfl⟩
  · exact ⟨h, rfl⟩
  · exact ⟨h, rfl⟩
  · exact ⟨h, rfl⟩

lemma cached_writePage (h : ¬ PageStore.Oversized lib.toPageLib data)
    (hspared : sparedFile (.writeFile id (lib.encodeV3Page data 0))) :
    wp (faulty B sparedFile) (fun _ p' => Cached id data p')
      (writePage lib.toPageLib id data) p := by
  have hraw : ∀ p, wp (faulty B sparedFile) (fun _ p' => Cached id data p')
      (writePageRaw lib.toPageLib id data) p := by
    rintro p ⟨env, fault, applied⟩ hallow
    obtain rfl : fault = none := hallow hspared
    exact PageCache.lookup_insert_self
  have hwrite : ∀ p, wp (faulty B sparedFile) (fun _ p' => Cached id data p')
      (do writePageRaw lib.toPageLib id data; commitPageWrite id none) p :=
    fun p => (hraw p).bind
      (fun _ _ hp => (cached_commitManifest hp _).mono fun _ _ h' => h'.1) fun _ _ hp => hp
  rw [writePage, if_neg h, writeInPlace]
  split
  · exact hwrite _
  · exact hwrite p

lemma cached_writeDocPage (hq : QueueEmpty s)
    (h : ¬ PageStore.Oversized lib.toPageLib (lib.docPage k bytes)) (id : ℕ) :
    wp (faulty (WritesDocument lib k bytes))
      (fun _ s' => Cached id (lib.docPage k bytes) (s'.part .docData))
      (writeDocPage lib id (lib.docPage k bytes)) s := by
  refine StorageRuntime.wp_routed lawful_faulty rfl hq (wp_onStore_faulty.2 ?_)
  refine (cached_writePage h ⟨id, rfl⟩).mono fun _ p hp => ?_
  rw [part_replace]
  exact hp

lemma wp_getDocument_cached {entry : IndexEntry}
    (hindex : (s.part .docData).memory.manifest.contentIndex.lookupDocument k = some entry)
    (hcached : Cached entry.pageId (lib.docPage k bytes) (s.part .docData)) :
    wp (faulty spared) (fun r _ => r = .ok (some bytes)) (getDocument lib k) s := by
  have hlookup : wp (faulty spared) (fun r s' => r = .ok (some entry) ∧ s' = s)
      (onStore .docData (contentIndexLookup k)) s :=
    wp_onStore_faulty.2 ⟨congrArg Except.ok hindex, replace_part⟩
  have hread : wp (faulty spared) (fun r _ => r = .ok (some (lib.docPage k bytes)))
      (onStore .docData (readPage lib.toPageLib entry.pageId)) s := by
    have hget : ((s.part .docData).memory.pageCache.get entry.pageId).1 =
        some (lib.docPage k bytes) := by
      simp only [PageCache.get, show _ = _ from hcached]
    refine wp_onStore_faulty.2 (wp.bind (Q := fun r _ => r = .ok (some (lib.docPage k bytes)))
      (congrArg Except.ok hget) (fun _ _ hr => ?_) fun _ _ hr => by cases hr)
    cases hr
    rfl
  refine hlookup.bind ?_ fun _ _ hr => by cases hr.1
  rintro _ s' ⟨hr, rfl⟩
  cases hr
  refine hread.bind ?_ fun _ _ hr => by cases hr
  intro _ s' hr
  cases hr
  exact congrArg (Except.ok ∘ some) (lib.docBytes_docPage k bytes)

def insertThenGet (lib : DocLib (PageHeader × Term ℕ) (Term ℕ) ℕ) (envs : List (FaultEnv ℕ)) :
    Except VaultSyncError Unit × Except VaultSyncError (Option ℕ) :=
  let first := Async.run (faulty fun _ => False)
    (insertDocument lib ⟨"doc", "first"⟩ 0) [] (opened true)
  let inserted := Async.run (faulty fun _ => False) (insertDocument lib sampleKey 1) envs
    first.2
  (inserted.1, (Async.run (faulty fun _ => False) (getDocument lib sampleKey) []
    inserted.2).1)

def longLength : Term ℕ → UInt32
  | .doc entry => if entry.bytes = 1 then 17000000 else 0
  | .oplog _ => 0

end OpfsStorage

end VaultSync.Opfs
