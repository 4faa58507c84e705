import VaultSync.Async.Crash
import VaultSync.Opfs.Documents

/-! Document writes that are cut short: what is read once the stores are opened again. -/

namespace VaultSync.Opfs

open Async OplogRefinement PageStore FileOp TabState StorageRuntime

variable {F D B α : Type}

def FileOp.writes : FileOp F → ℕ
  | .writeManifest _ => 1
  | .writeFile _ _ => 1
  | .removeFile _ => 1
  | _ => 0

def TabOp.docWrites : TabOp F B → ℕ
  | .file .docData op => op.writes
  | _ => 0

namespace OpfsStorage

variable (lib : DocLib F D B)

def Reads (k : Key) (bytes : B) (s : TabState F D) : Prop :=
  wp (TabState.machine B) (fun r _ => r = .ok (some bytes))
    (do reopen lib.toPageLib; getDocument lib k) s

inductive DocumentCall (B : Type) where
  | insertDocument
  | writeDocumentAndOplog (entry : OplogEntry B)

def DocumentCall.prog (k : Key) (bytes : B) : DocumentCall B → TabFn F D B Unit
  | insertDocument => OpfsStorage.insertDocument lib k bytes
  | writeDocumentAndOplog entry => OpfsStorage.writeDocumentAndOplog lib k bytes entry

abbrev crashMachine (B : Type) : Machine (TabOps F B) (Tab D) (Env B) (TabState F D × ℕ) :=
  (TabState.machine B).counting TabOp.docWrites

variable {lib} {k : Key} {bytes : B} {s : TabState F D}

/-! ## Opening the stores again -/

lemma wp_reopen_getDocument {R : Except VaultSyncError (Option B) → Prop} :
    wp (machine B) (fun r _ => R r) (do reopen lib.toPageLib; getDocument lib k) s ↔
      wp (StoreState.machine B) (fun _ p => R (documentAt lib k p))
        (openStore lib.toPageLib) (s.part .docData) := by
  simp only [reopen, openStores, wp_bind]
  exact wp_forStores_iff (fun _ p => wp_openStore_ok p) (by decide) (by decide)
    fun _ => wp_getDocument

lemma Reads.of_disk {c : TabState F D} (h : Reads lib k bytes s)
    (hdisk : c.disk .docData = s.disk .docData) : Reads lib k bytes c := by
  have hdir : (c.part .docData).dir = (s.part .docData).dir := hdisk
  refine wp_reopen_getDocument.2 ?_
  have hs := wp_reopen_getDocument.1 h
  cases hm : (s.part .docData).dir.manifest.verified with
  | some m =>
    have hvalid := ManifestFile.verified_eq_some.1 hm
    rw [wp_openStore_of_valid hvalid] at hs
    refine (wp_openStore_of_valid (hdir ▸ hvalid)).2 ?_
    refine Eq.trans ?_ hs
    exact documentAt_congr rfl hdir
  | none =>
    rw [wp_openStore_of_invalid hm] at hs
    rw [wp_openStore_of_invalid (hdir ▸ hm), hdir]
    intro ids hids
    refine Eq.trans ?_ (hs ids hids)
    refine documentAt_congr rfl ?_
    simp [StoreState.setManifestFile, hdir]

lemma reads_of_live {m : StoreManifest} {entry : IndexEntry}
    (hm : (s.disk .docData).manifest = .valid m)
    (hindex : m.contentIndex.lookupDocument k = some entry)
    (hfile : (s.disk .docData).pages.lookup entry.pageId =
      some (lib.encodeV3Page (lib.docPage k bytes) 0)) : Reads lib k bytes s := by
  have hvalid : (s.part .docData).dir.manifest = .valid m := hm
  refine wp_reopen_getDocument.2 ((wp_openStore_of_valid hvalid).2 ?_)
  rw [documentAt_of_live hindex rfl hfile, lib.docBytes_docPage]

/-! ## How many files are written -/

section counts

lemma within_ofFile (r : Except FileError α) :
    (PageFn.ofFile r : PageFn F D α).Within writes 0 := by
  cases r <;> trivial

lemma within_writeManifest (m : StoreManifest) :
    (PageFn.writeManifest m : PageFn F D Unit).Within writes 1 :=
  ⟨0, le_rfl, within_ofFile⟩

lemma within_writeFile (id : ℕ) (f : F) :
    (PageFn.writeFile id f : PageFn F D Unit).Within writes 1 :=
  ⟨0, le_rfl, within_ofFile⟩

lemma within_commitManifest (f : StoreManifest → StoreManifest) :
    (commitManifest f : PageFn F D Unit).Within writes 1 :=
  fun _ => within_writeManifest _

lemma within_tombstonePage (id : ℕ) :
    (tombstonePage lib.toPageLib id : PageFn F D Unit).Within writes 2 := by
  have hcommit : (removeFromManifestIndex id : PageFn F D Unit).Within writes 2 :=
    (within_commitManifest _).mono (by decide)
  refine ⟨2, le_rfl, fun r => ?_⟩
  rcases r with (_ | _ | _) | f
  · exact hcommit
  · exact hcommit
  · trivial
  · have hfile : (tombstoneFile lib.toPageLib id f : PageFn F D Unit).Within
        writes 1 := by
      unfold tombstoneFile
      cases lib.extractPageData f with
      | error e => trivial
      | ok data => exact within_writeFile _ _
    have hrest : (do PageFn.setCache (·.remove lib.len id)
                     removeFromManifestIndex id : PageFn F D Unit).Within
        writes 1 := fun _ => within_commitManifest _
    exact hfile.bind fun _ => hrest

lemma within_allocatePageId : (allocatePageId : PageFn F D ℕ).Within writes 1 := by
  refine ⟨1, le_rfl, fun r => ?_⟩
  have hpure : (pure r.1 : PageFn F D ℕ).Within writes 0 := trivial
  exact (within_writeManifest r.2).bind fun _ => hpure

lemma within_writePage {id : ℕ} {data : D} (h : ¬ PageStore.Oversized lib.toPageLib data) :
    (writePage lib.toPageLib id data : PageFn F D Unit).Within writes 2 := by
  have hraw : (writePageRaw lib.toPageLib id data : PageFn F D Unit).Within
      writes 1 := by
    refine Prog.Within.bind (m := 0) (within_writeFile id _) fun _ => ?_
    exact fun _ => trivial
  have hwrite : (do writePageRaw lib.toPageLib id data
                    commitPageWrite id none : PageFn F D Unit).Within writes 2 :=
    Prog.Within.bind hraw fun _ => within_commitManifest _
  rw [writePage, if_neg h, writeInPlace]
  split
  · exact fun _ => hwrite
  · exact hwrite

end counts

lemma lawful_crashMachine : (crashMachine B : Machine (TabOps F B) (Tab D) _ _).LawfulMemory :=
  lawfulMemory.counting

/-! ## The page of the document -/

def Idle (n : ℕ) (c : TabState F D × ℕ) : Prop := QueueEmpty c.1 ∧ c.2 ≤ n

variable {n m : ℕ} {c : TabState F D × ℕ}

section

variable (hc : Idle n c)

include hc

lemma Idle.mono (h : n ≤ m) : Idle m c := ⟨hc.1, hc.2.trans h⟩

lemma idle_onDocData {t : PageFn F D α} (ht : t.Within writes m) :
    wp (crashMachine B) (fun _ => Idle (n + m)) (onStore .docData t) c := by
  have h : wp (machine B) (fun _ s => QueueEmpty s) (onStore .docData t) c.1 :=
    wp_onStore.2 (wp_iff_outcome.2 fun _ _ _ => hc.1)
  exact (wp_counting h ht.embed).mono fun _ _ h' =>
    ⟨h'.1, h'.2.trans (Nat.add_le_add_right hc.2 m)⟩

lemma idle_tombstoneExistingDocPages :
    wp (crashMachine B) (fun _ => Idle (n + 3)) (tombstoneExistingDocPages lib k) c := by
  have hlookup : (contentIndexLookup k : PageFn F D _).Within writes 0 :=
    fun _ => trivial
  have hle : n ≤ n + 3 := Nat.le_add_right n 3
  refine (idle_onDocData hc hlookup).bind (fun entry c1 hc1 => ?_) fun _ _ h => h.mono hle
  cases entry with
  | none => exact hc1.mono hle
  | some entry =>
    refine (wp_routed lawful_crashMachine rfl hc1.1 (idle_onDocData hc1
      (within_tombstonePage _))).bind (fun _ c2 hc2 => ?_) fun _ _ h => h.mono (by omega)
    exact (idle_onDocData hc2 (within_commitManifest _)).bind (fun _ _ h => h) fun _ _ h => h

lemma idle_allocatePageId (store : StoreName) :
    wp (crashMachine B) (fun _ => Idle n) (allocatePageId store) c :=
  fun _ _ => ⟨queueEmpty_runtimeAllocate hc.1 store, hc.2⟩

lemma idle_allocDocData : wp (crashMachine B) (fun _ => Idle (n + 1)) allocDocData c := by
  refine (idle_allocatePageId hc .docData).bind (fun id c1 hc1 => ?_) fun _ _ h =>
    h.mono (Nat.le_succ n)
  cases id with
  | some id =>
    exact (idle_onDocData hc1 (within_commitManifest _)).bind (fun _ _ h => h) fun _ _ h => h
  | none => exact idle_onDocData hc1 within_allocatePageId

lemma wp_writeDocPage (id : ℕ) {data : D} (h : ¬ PageStore.Oversized lib.toPageLib data) :
    wp (crashMachine B) (fun _ c => Idle (n + 2) c ∧
      (c.1.disk .docData).pages.lookup id = some (lib.encodeV3Page data 0))
      (writeDocPage lib id data) c := by
  have hfile : wp (machine B) (fun _ s => QueueEmpty s ∧
      (s.disk .docData).pages.lookup id = some (lib.encodeV3Page data 0))
      (onStore .docData (writePage lib.toPageLib id data)) c.1 := by
    rw [wp_onStore, writePage, if_neg h, wp_writeInPlace]
    refine ⟨hc.1, ?_⟩
    change ((c.1.replace .docData _).part .docData).dir.pages.lookup id = _
    rw [part_replace]
    unfold StoreState.writtenInPlace
    dsimp only
    split <;> exact Finmap.lookup_insert _
  refine wp_routed lawful_crashMachine rfl hc.1
    ((wp_counting hfile (within_writePage h).embed).mono fun _ _ h' => ?_)
  exact ⟨⟨h'.1.1, h'.2.trans (Nat.add_le_add_right hc.2 2)⟩, h'.1.2⟩

lemma wp_writeNewDocPage (h : ¬ PageStore.Oversized lib.toPageLib (lib.docPage k bytes)) :
    wp (crashMachine B) (fun r c => Idle (n + 6) c ∧ ∀ id, r = .ok id →
      (c.1.disk .docData).pages.lookup id = some (lib.encodeV3Page (lib.docPage k bytes) 0))
      (writeNewDocPage lib k bytes) c := by
  refine (idle_tombstoneExistingDocPages hc).bind (fun _ c1 hc1 => ?_)
    fun _ _ h => ⟨h.mono (by omega), fun _ hr => nomatch hr⟩
  refine (idle_allocDocData hc1).bind (fun id c2 hc2 => ?_)
    fun _ _ h => ⟨h.mono (by omega), fun _ hr => nomatch hr⟩
  refine (wp_writeDocPage hc2 id h).bind (fun _ c3 hc3 => ⟨hc3.1, fun id' hr => ?_⟩)
    fun _ _ h => ⟨h.1, fun _ hr => nomatch hr⟩
  rw [← Except.ok.inj hr]
  exact hc3.2

/-! ## The change that follows -/

lemma idle_onStore (t : PageFn F D α) :
    wp (crashMachine B) (fun _ => Idle n) (onStore .oplog t) c := by
  have h : wp (machine B) (fun _ s => QueueEmpty s) (onStore .oplog t) c.1 :=
    wp_onStore.2 (wp_iff_outcome.2 fun _ _ _ => hc.1)
  have ht := t.within_zero
  exact (wp_counting h ht.embed).mono fun _ _ h' => ⟨h'.1, h'.2.trans hc.2⟩

lemma idle_allocOplog : wp (crashMachine B) (fun _ => Idle n) allocOplog c := by
  refine (idle_allocatePageId hc .oplog).bind (fun id c1 hc1 => ?_) fun _ _ h => h
  cases id with
  | some id => exact (idle_onStore hc1 _).bind (fun _ _ h => h) fun _ _ h => h
  | none => exact idle_onStore hc1 _

lemma idle_readAllOplogEntries :
    wp (crashMachine B) (fun _ => Idle n) (readAllOplogEntries lib.toPageLib) c := by
  refine (idle_onStore hc _).bind (fun current c1 hc1 => ?_) fun _ _ h => h
  refine (idle_onStore hc1 _).bind (fun pageIds c2 hc2 => ?_) fun _ _ h => h
  split
  · exact hc2
  · exact (idle_onStore hc2 _).bind (fun _ _ h _ _ => h) fun _ _ h => h

lemma idle_appendOplog (entry : OplogEntry B) :
    wp (crashMachine B) (fun _ => Idle n) (appendOplog lib.toPageLib entry) c := by
  refine (idle_allocOplog hc).bind (fun id c1 hc1 => ?_) fun _ _ h => h
  have hwrite : wp (crashMachine B) (fun _ => Idle n)
      (writeOplogPage lib.toPageLib id (lib.encodeOplog [entry])) c1 :=
    wp_routed lawful_crashMachine rfl hc1.1 (idle_onStore hc1 _)
  have hverify : ∀ c, Idle n c →
      wp (crashMachine B) (fun _ => Idle n) (verifyOplogWrite lib.toPageLib id) c := fun c hc =>
    (idle_onStore hc _).bind (fun _ _ h =>
      (idle_readAllOplogEntries h).bind (fun _ _ h => h) fun _ _ h => h) fun _ _ h => h
  refine hwrite.bind (fun _ c2 hc2 => ?_) fun _ _ h => h
  split
  · exact (idle_onStore hc2 _).bind (fun _ _ h => hverify _ h) fun _ _ h => h
  · exact hverify _ hc2

end

/-! ## Every point of a call -/

def Unwritten (s : TabState F D) (n : ℕ) (c : TabState F D × ℕ) : Prop :=
  n ≤ c.2 ∧ (c.2 = n → c.1.disk .docData = s.disk .docData)

lemma StoreState.handle_dir {op : FileOp F} (h : op.writes = 0) (e : Env B) (p : StoreState F D) :
    (StoreState.handle op e p).2.dir = p.dir := by
  cases op with
  | writeManifest m => cases h
  | writeFile id f => cases h
  | removeFile id => cases h
  | readManifest => rfl
  | readFile id => rfl
  | entries => rfl
  | allocatePageId => rfl
  | allocateAndRotate => rfl

lemma handle_disk {op : TabOp F B} (h : op.docWrites = 0) (e : Env B) (c : TabState F D) :
    (handle op e c).2.disk .docData = c.disk .docData := by
  cases op with
  | file store op =>
    by_cases hstore : store = .docData
    · subst hstore
      change Function.update c.disk .docData _ .docData = _
      rw [Function.update_self]
      exact StoreState.handle_dir h e (c.part .docData)
    · exact Function.update_of_ne (Ne.symm hstore) _ _
  | runtimeAllocate store =>
    change (c.runtimeAllocate store).2.disk .docData = _
    unfold runtimeAllocate
    split <;> rfl
  | now => rfl
  | hashOrder entries => rfl

lemma unwritten_handle (op : TabOp F B) (e : Env B) (c : TabState F D × ℕ)
    (h : Unwritten s n c) : Unwritten s n ((crashMachine B).handle op e c).2 := by
  refine ⟨h.1.trans (Nat.le_add_right _ _), fun hn => ?_⟩
  change c.2 + op.docWrites = n at hn
  have hle := h.1
  have hzero : op.docWrites = 0 := by omega
  have hcount : c.2 = n := by omega
  exact (handle_disk hzero e c.1).trans (h.2 hcount)

lemma always_unwritten (s : TabState F D) (n : ℕ) (t : TabFn F D B α) :
    Always (crashMachine B) (fun _ => Unwritten s n) t (s, n) :=
  always_of_invariant ⟨le_rfl, fun _ => rfl⟩ (fun op e c h => unwritten_handle op e c h)
    (fun _ _ h => h) t

/-- The seventh write is that of the manifest that names the new page. -/
def ReadsOnceIndexed (lib : DocLib F D B) (k : Key) (bytes : B) (c : TabState F D × ℕ) : Prop :=
  7 ≤ c.2 → Reads lib k bytes c.1

lemma upholds_updateContentIndex {id : ℕ} (hc : Idle 6 c)
    (hfile : (c.1.disk .docData).pages.lookup id =
      some (lib.encodeV3Page (lib.docPage k bytes) 0)) :
    Upholds (crashMachine B) (fun _ => ReadsOnceIndexed lib k bytes)
      (fun _ c => Idle 7 c ∧ Reads lib k bytes c.1)
      (onStore .docData (updateContentIndex (.document k) id)) c := by
  set m := (c.1.part .docData).memory.manifest.updateContentIndex (.document k) id with hm
  have hdisk : (c.1.replace .docData ((c.1.part .docData).commit m)).disk .docData =
      ((c.1.part .docData).commit m).dir := by
    simp [replace]
  have hreads : Reads lib k bytes (c.1.replace .docData ((c.1.part .docData).commit m)) := by
    refine reads_of_live (m := m) ?_ ContentIndex.lookupDocument_insert ?_
    · rw [hdisk]
      rfl
    · rw [hdisk]
      exact hfile
  -- in memory first, and then in the file
  refine (upholds_embed ((storeEmbedding_realizes .docData).counting _) _).2
    ⟨⟨fun h7 => ?_, fun e _ => ⟨fun _ => hreads, trivial⟩⟩, fun e _ => ⟨⟨hc.1, ?_⟩, hreads⟩⟩
  · have hle : c.2 ≤ 6 := hc.2
    exact absurd hle (Nat.not_le.2 h7)
  · exact Nat.succ_le_succ hc.2

lemma upholds_insertDocument (hc : Idle 0 c)
    (h : ¬ PageStore.Oversized lib.toPageLib (lib.docPage k bytes)) :
    Upholds (crashMachine B) (fun _ => ReadsOnceIndexed lib k bytes)
      (fun r c => r = .ok () → Idle 7 c ∧ Reads lib k bytes c.1) (insertDocument lib k bytes) c := by
  have hpage : wp (crashMachine B) _ (writeNewDocPage lib k bytes) c := wp_writeNewDocPage hc h
  refine upholds_bind ⟨?_, hpage.mono ?_⟩
  · refine (always_counting (fun _ _ => trivial) (hpage.mono fun _ _ hr => hr.1.2)).mono ?_
    intro _ c' hle h7
    exact absurd hle (Nat.not_le.2 h7)
  · rintro (e | id) c' ⟨hc', hfile⟩
    · exact fun hr => nomatch hr
    · exact (upholds_updateContentIndex hc' (hfile id rfl)).mono fun _ _ hr _ => hr

lemma always_appendOplog (hc : Idle 7 c) (hread : Reads lib k bytes c.1) (entry : OplogEntry B) :
    Always (crashMachine B) (fun _ => ReadsOnceIndexed lib k bytes) (appendOplog lib.toPageLib entry) c := by
  have hidle : wp (crashMachine B) (fun _ => Idle c.2) (appendOplog lib.toPageLib entry) c :=
    idle_appendOplog ⟨hc.1, le_rfl⟩ entry
  have hcount := always_counting (fun _ _ => trivial) (hidle.mono fun _ _ h => h.2)
  refine ((always_unwritten c.1 c.2 _).and hcount).mono ?_
  rintro _ c' ⟨hun, hle⟩ _
  exact hread.of_disk (hun.2 (le_antisymm hle hun.1))

lemma always_call (hq : QueueEmpty s)
    (h : ¬ PageStore.Oversized lib.toPageLib (lib.docPage k bytes)) (call : DocumentCall B) :
    Always (crashMachine B) (fun _ => ReadsOnceIndexed lib k bytes) (call.prog lib k bytes) (s, 0) := by
  have hinsert : Upholds (crashMachine B) _ _ (OpfsStorage.insertDocument lib k bytes) (s, 0) :=
    upholds_insertDocument ⟨hq, le_rfl⟩ h
  cases call with
  | insertDocument => exact hinsert.1
  | writeDocumentAndOplog entry =>
    refine always_bind hinsert.1 (hinsert.2.mono ?_)
    rintro (e | _) c' hc'
    · trivial
    · exact always_appendOplog (hc' rfl).1 (hc' rfl).2 entry

def sampleEntry : OplogEntry ℕ where
  id := "e"
  replicaId := "r"
  «namespace» := "ns"
  mutationType := .crdtUpdate
  docId := "doc"
  recordId := "record"
  yrsUpdate := 2
  encryptedBlob := none
  timestamp := 0
  sequence := none
  syncStatus := .pending
  syncedAt := none
  createdAt := 0
  schemaVersion := 1
  origin := .update
  originContext := ""

variable (withRuntime : Bool)

def sampleTab : TabState (PageHeader × Term ℕ) (Term ℕ) :=
  (Async.run (TabState.machine ℕ) (insertDocument (terms fun _ => 0) sampleKey 1) []
    (opened withRuntime)).2

def sampleCut (call : DocumentCall ℕ) (steps : ℕ) : TabState (PageHeader × Term ℕ) (Term ℕ) × ℕ :=
  (advance (crashMachine ℕ) steps (call.prog (terms fun _ => 0) sampleKey 2)
    (sampleTab withRuntime, 0)).2

def readBack (s : TabState (PageHeader × Term ℕ) (Term ℕ)) : Except VaultSyncError (Option ℕ) :=
  (Async.run (TabState.machine ℕ)
    (do reopen (terms fun _ => 0).toPageLib; getDocument (terms fun _ => 0) sampleKey) [] s).1

lemma readBack_of_reads {s : TabState (PageHeader × Term ℕ) (Term ℕ)} {b : ℕ}
    (h : Reads (terms fun _ => 0) sampleKey b s) : readBack s = .ok (some b) :=
  wp_iff_outcome.1 h _ _ (run_outcome _ [] s fun _ _ => ⟨trivial, fun _ _ => trivial⟩)

lemma reads_sampleTab : Reads (terms fun _ => 0) sampleKey 1 (sampleTab withRuntime) := by
  cases withRuntime
  · exact wp_reopen_getDocument.2 ((wp_openStore_of_valid rfl).2 rfl)
  · exact wp_reopen_getDocument.2 ((wp_openStore_of_valid rfl).2 rfl)

lemma queueEmpty_sampleTab : QueueEmpty (sampleTab withRuntime) := by
  intro rt hrt
  cases withRuntime
  · cases hrt
  · cases hrt
    rfl

lemma visits_sampleCut (call : DocumentCall ℕ) (steps : ℕ) :
    Visits (crashMachine ℕ) (call.prog (terms fun _ => 0) sampleKey 2) (sampleTab withRuntime, 0)
      (sampleCut withRuntime call steps) :=
  visits_advance (fun _ _ => trivial) steps _ _

end OpfsStorage

end VaultSync.Opfs
