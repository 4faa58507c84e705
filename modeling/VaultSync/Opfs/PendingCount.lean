import VaultSync.Opfs.Documents

/-! The pending count of the oplog against the entries that it counts. -/

namespace VaultSync.Opfs

open Async List

variable {F D B α : Type}

/-! ## Transactions and repair -/

namespace PageStore

def setPendingCount (n : ℕ) : PageFn F D Unit := .modify fun p => { p with cachedPendingCount := n }

def persistCurrentManifest : PageFn F D Unit := do
  persistManifest (← .read PageStore.manifest)

end PageStore

inductive TxOp (B : Type) where
  | markSynced (id : String) (sequence : ℕ)
  | markFailed (id : String)
  | appendOplog (entry : OplogEntry B)

/-- What a transaction has buffered, and the entries as it has read and changed them. -/
structure OpfsTransaction (B : Type) where
  ops : List (TxOp B)
  pendingEntries : List (OplogEntry B)

def uploadableCount (entries : List (OplogEntry B)) : ℕ :=
  entries.countP fun e => e.syncStatus.isUploadable

open OpfsStorage

namespace OpfsTransaction

def delta (tx : OpfsTransaction B) : List (OplogEntry B) :=
  tx.ops.filterMap fun
    | .markSynced id sequence => (tx.pendingEntries.find? (·.id = id)).map (synced sequence)
    | .markFailed id => (tx.pendingEntries.find? (·.id = id)).map failed
    | .appendOplog entry => some entry

/-- The count is taken from what is read after the write. Without operations the delta is empty. -/
def commit (lib : PageLib F D B) (tx : OpfsTransaction B) : TabFn F D B Unit := do
  if tx.delta.isEmpty then return ()
  let page ← allocOplog
  writeOplogPage lib page (lib.encodeOplog tx.delta)
  let after ← readAllOplogEntries lib
  onStore .oplog (PageStore.setPendingCount (uploadableCount after))
  scheduleOplogGc

end OpfsTransaction

def OpfsStorage.repairIfDiverged (lib : PageLib F D B) : TabFn F D B Unit := do
  let manifestPending ← .read fun t => (t.pages .oplog).cachedPendingCount
  if manifestPending = 0 then return ()
  let entries ← readAllOplogEntries lib
  if manifestPending ≠ uploadableCount entries then
    onStore .oplog (PageStore.setPendingCount (uploadableCount entries))
    onStore .oplog PageStore.persistCurrentManifest

namespace PendingCount

open OpfsStorage OplogRefinement StoreState PageStore Versions

/-! ## Runs -/

/-- A transaction is committed with whatever it holds by then. A tab that is reopened gets a
runtime, or none. -/
inductive Event (B : Type) where
  | appendOplog (entry : OplogEntry B)
  | writeDocumentAndOplog (k : Key) (bytes : B) (entry : OplogEntry B)
  | markSynced (id : String) (sequence : ℕ)
  | markFailed (id : String)
  | commit (tx : OpfsTransaction B)
  | reopen (managers : Option (StoreName → PageManager))

section runs

variable (lib : DocLib F D B)

def Event.prog : Event B → TabFn F D B Unit
  | appendOplog e => OpfsStorage.appendOplog lib.toPageLib e
  | writeDocumentAndOplog k bytes e => OpfsStorage.writeDocumentAndOplog lib k bytes e
  | markSynced id sequence => OpfsStorage.markSynced lib.toPageLib id sequence
  | markFailed id => OpfsStorage.markFailed lib.toPageLib id
  | commit tx => tx.commit lib.toPageLib
  | reopen managers => do
    Opfs.reopen lib.toPageLib
    repairIfDiverged lib.toPageLib
    .modify fun t => { t with runtime := managers.map fun ms => ⟨ms, []⟩ }

variable (s : TabState F D)

def step (e : Event B × List (Env B)) : TabState F D :=
  (Async.run (TabState.machine B) (e.1.prog lib) e.2 s).2

def run (events : List (Event B × List (Env B))) : TabState F D :=
  events.foldl (step lib) s

def stored : List (OplogEntry B) := entriesRead lib.toPageLib (s.part .oplog)

/-- No uploadable entry is replaced by another of its id; a mark is set on an uploadable entry, or
while there is none; and the tab is reopened while there is none, or the manifest has a count. -/
def Event.Ok : Event B → Prop
  | appendOplog e => ∀ x ∈ stored lib s, x.id = e.id → x.syncStatus.isUploadable = false
  | writeDocumentAndOplog _ _ e => ∀ x ∈ stored lib s, x.id = e.id → x.syncStatus.isUploadable = false
  | markSynced id _ => ∀ x ∈ stored lib s, x.id = id →
      x.syncStatus.isUploadable = true ∨ uploadableCount (stored lib s) = 0
  | markFailed id => ∀ x ∈ stored lib s, x.id = id →
      x.syncStatus.isUploadable = true ∨ uploadableCount (stored lib s) = 0
  | commit _ => True
  | reopen _ => (s.part .oplog).memory.manifest.pendingCount ≠ 0 ∨
      uploadableCount (stored lib s) = 0

def AllOk : TabState F D → List (Event B × List (Env B)) → Prop
  | _, [] => True
  | s, e :: events => e.1.Ok lib s ∧ AllOk (step lib s e) events

end runs

/-! ## The count and the map -/

variable {lib : DocLib F D B} {s s' : TabState F D} {m : OplogMap B} {l l' : List (OplogEntry B)}

lemma uploadableCount_eq (h : Represents OplogEntry.id l m) (h' : Represents OplogEntry.id l' m) :
    uploadableCount l = uploadableCount l' := by
  have hmem : ∀ a, a ∈ l ↔ a ∈ l' := by
    intro a
    have hl := h.eq_some_iff a.id a
    have hl' := h'.eq_some_iff a.id a
    simp only [and_true] at hl hl'
    rw [← hl, hl']
  have hperm := (perm_ext_iff_of_nodup (.of_map _ h.nodup) (.of_map _ h'.nodup)).2 hmem
  exact hperm.countP_eq _

variable {e : OplogEntry B}

lemma uploadableCount_update (h : Represents OplogEntry.id l m)
    (h' : Represents OplogEntry.id l' (Function.update m e.id (some e))) :
    uploadableCount l' + uploadableCount (m e.id).toList =
      uploadableCount l + uploadableCount [e] := by
  have hsplit : uploadableCount l = uploadableCount (l.filter fun a => a.id = e.id) +
      uploadableCount (l.filter fun a => !decide (a.id = e.id)) := countP_eq_countP_filter_add ..
  have hrest : uploadableCount (upsert OplogEntry.id l e) =
      uploadableCount (l.filter fun a => !decide (a.id = e.id)) + uploadableCount [e] := by
    simp [uploadableCount, upsert, countP_cons]
  rw [h.filter_key e.id] at hsplit
  rw [uploadableCount_eq h' (h.upsert e), hrest, hsplit]
  omega

structure Exact (lib : DocLib F D B) (m : OplogMap B) (s : TabState F D) : Prop
    extends Refines lib.toPageLib m s where
  current : (s.part .oplog).current = 0
  pending : pendingCount s = uploadableCount (stored lib s)

lemma represents_stored (h : Refines lib.toPageLib m s) (hcurrent : (s.part .oplog).current = 0) :
    Represents OplogEntry.id (stored lib s) m :=
  represents_entriesRead h.holds fun id _ => hcurrent ▸ Nat.zero_le id

lemma Exact.represents (h : Exact lib m s) : Represents OplogEntry.id (stored lib s) m :=
  represents_stored h.toRefines h.current

lemma Exact.of_counts {f : ℕ → ℕ} {m' : OplogMap B} (h : Exact lib m s)
    (h' : Refines lib.toPageLib m' s') (hcount : Counts f s s')
    (hf : Represents OplogEntry.id (stored lib s') m' →
      f (uploadableCount (stored lib s)) = uploadableCount (stored lib s')) : Exact lib m' s' := by
  have hcurrent := hcount.current.trans h.current
  refine ⟨h', hcurrent, ?_⟩
  rw [hcount.pending, h.pending]
  exact hf (represents_stored h' hcurrent)

/-! ## The operations -/

lemma assuming_append (h : Exact lib m s)
    (hok : ∀ x ∈ stored lib s, x.id = e.id → x.syncStatus.isUploadable = false) :
    Assuming (TabState.machine B) OplogIncreasing (fun _ s' => ∃ m', Exact lib m' s')
      (OpfsStorage.appendOplog lib.toPageLib e) s := by
  refine (assuming_appendOplog h.toRefines e).mono ?_
  rintro _ s' - ⟨-, h', hcount⟩
  refine ⟨_, h.of_counts h' hcount fun hrep => ?_⟩
  have hupdate := uploadableCount_update h.represents hrep
  have hnone : uploadableCount (m e.id).toList = 0 := by
    cases hm : m e.id with
    | none => rfl
    | some x =>
      obtain ⟨hx, hid⟩ := (h.represents.eq_some_iff e.id x).1 hm
      simp [uploadableCount, hok x hx hid]
  have hone : uploadableCount [e] = if e.syncStatus.isUploadable then 1 else 0 := by
    simp [uploadableCount, countP_cons]
  omega

lemma Exact.mark (h : Exact lib m s) {id : String} (f : OplogEntry B → OplogEntry B)
    (hf : ∀ e, (f e).id = e.id ∧ (f e).syncStatus.isUploadable = false)
    (hok : ∀ x ∈ stored lib s, x.id = id →
      x.syncStatus.isUploadable = true ∨ uploadableCount (stored lib s) = 0)
    (h' : Refines lib.toPageLib (Function.update m id ((m id).map f)) s')
    (hcount : Counts (fun n => if (m id).isSome then n - 1 else n) s s') :
    ∃ m', Exact lib m' s' := by
  refine ⟨_, h.of_counts h' hcount fun hrep => ?_⟩
  cases hm : m id with
  | none =>
    rw [hm, Option.map_none, ← hm, Function.update_eq_self] at hrep
    exact uploadableCount_eq h.represents hrep
  | some x =>
    obtain ⟨hx, rfl⟩ := (h.represents.eq_some_iff id x).1 hm
    rw [hm, Option.map_some, ← (hf x).1] at hrep
    have hupdate := uploadableCount_update h.represents hrep
    have hnew : uploadableCount [f x] = 0 := by simp [uploadableCount, (hf x).2]
    rw [(hf x).1, hm, hnew] at hupdate
    have hold : x.syncStatus.isUploadable = true → uploadableCount (some x).toList = 1 := by
      intro hup
      simp [uploadableCount, hup]
    change uploadableCount (stored lib s) - 1 = _
    rcases hok x hx rfl with hup | hzero
    · have := hold hup
      omega
    · omega

lemma wp_setPendingCount {lib : PageLib F D B} (h : Refines lib m s) (n : ℕ) :
    wp (TabState.machine B) (fun r s' => r = .ok () ∧ Refines lib m s' ∧
      Counts (fun _ => n) s s') (onStore .oplog (setPendingCount n)) s :=
  wp_setFlags h rfl id

lemma assuming_commit {lib : PageLib F D B} (h : Refines lib m s) (tx : OpfsTransaction B) :
    Assuming (TabState.machine B) OplogIncreasing (fun r s' => r = .ok () ∧
      Refines lib (update OplogEntry.id m tx.delta) s' ∧ (tx.delta = [] ∧ s' = s ∨
        ∃ l, Counts (fun _ => uploadableCount l) s s' ∧ ((s.part .oplog).current = 0 →
          Represents OplogEntry.id l (update OplogEntry.id m tx.delta)))) (tx.commit lib) s := by
  unfold OpfsTransaction.commit
  split
  · rename_i hempty
    rw [isEmpty_iff.1 hempty]
    exact assuming_of_wp ⟨rfl, h, .inl ⟨rfl, rfl⟩⟩
  · refine assuming_newPage h.holds.consistent h.queue fun page s1 ha hcount1 hq => assuming_of_wp ?_
    have h1 : Refines lib (update OplogEntry.id m tx.delta) s1 := ⟨h.holds.appended ha, hq⟩
    rw [wp_bind]
    refine (wp_readAllOplogEntries h1).mono ?_
    rintro _ s2 ⟨l, rfl, ⟨h2, hcount2⟩, hl⟩
    refine (wp_setPendingCount h2 (uploadableCount l)).then ?_
    rintro s3 ⟨h3, hcount3⟩
    refine (wp_scheduleOplogGc h3).mono ?_
    rintro _ s4 ⟨rfl, h4, hcount4⟩
    refine ⟨rfl, h4, .inr ⟨l, ((hcount1.trans hcount2).trans hcount3).trans hcount4, fun hzero => ?_⟩⟩
    exact hl fun id _ => (hcount1.current.trans hzero).symm ▸ Nat.zero_le id

lemma wp_repairIfDiverged (h : Refines lib.toPageLib m s) (hcurrent : (s.part .oplog).current = 0)
    (hok : pendingCount s ≠ 0 ∨ uploadableCount (stored lib s) = 0) :
    wp (TabState.machine B) (fun r s' => r = .ok () ∧ Exact lib m s')
      (repairIfDiverged lib.toPageLib) s := by
  change wp _ _ (if pendingCount s = 0 then _ else _) s
  rw [wp_ite]
  refine ⟨fun hzero => ?_, fun hpos => ?_⟩
  · exact ⟨rfl, h, hcurrent, hzero.trans (hok.resolve_left fun hne => hne hzero).symm⟩
  · rw [wp_bind]
    refine (wp_readAllOplogEntries h).mono ?_
    rintro _ s1 ⟨l, rfl, ⟨h1, hcount1⟩, hl⟩
    have hcurrent1 := hcount1.current.trans hcurrent
    have hstale : NoStale (s.part .oplog) := fun id _ => hcurrent ▸ Nat.zero_le id
    dsimp only
    rw [wp_ite]
    refine ⟨fun _ => ?_, fun hsame => ?_⟩
    · refine (wp_setPendingCount h1 (uploadableCount l)).then ?_
      rintro s2 ⟨h2, hcount2⟩
      have hpersist : wp (StoreState.machine B) (fun r p => r = .ok () ∧
          p = (s2.part .oplog).persist (s2.part .oplog).memory.manifest)
          persistCurrentManifest (s2.part .oplog) := (wp_persistManifest _).2 ⟨rfl, rfl⟩
      refine (wp_onOplog hpersist).mono ?_
      rintro _ s3 ⟨⟨rfl, hpart⟩, hrt⟩
      have hc := h2.holds.consistent
      have h3 : Refines lib.toPageLib m s3 := by
        refine ⟨?_, h2.queue.of_runtime hrt⟩
        rw [hpart]
        exact ⟨hc.commit rfl hc.live (fun _ ha => ha) hc.numbered hc.index_handed, h2.holds.gc,
          h2.holds.latest⟩
      have hcurrent3 : (s3.part .oplog).current = 0 := by
        rw [hpart]
        exact hcount2.current.trans hcurrent1
      have hpending3 : pendingCount s3 = pendingCount s2 := by
        rw [pendingCount, hpart]
        rfl
      refine ⟨rfl, h3, hcurrent3, hpending3.trans (hcount2.pending.trans ?_)⟩
      exact uploadableCount_eq (hl hstale) (represents_stored h3 hcurrent3)
    · refine ⟨rfl, h1, hcurrent1, hcount1.pending.trans ((not_not.1 hsame).trans ?_)⟩
      exact uploadableCount_eq (hl hstale) (represents_stored h1 hcurrent1)

lemma wp_reopen (h : Exact lib m s)
    (hok : (s.part .oplog).memory.manifest.pendingCount ≠ 0 ∨ uploadableCount (stored lib s) = 0)
    (managers : Option (StoreName → PageManager)) :
    wp (TabState.machine B) (fun _ s' => ∃ m', Exact lib m' s')
      ((Event.reopen managers).prog lib) s := by
  have hopen : wp (TabState.machine B) (fun r s' => r = .ok () ∧ s'.part .oplog =
      { s.part .oplog with memory := PageStore.opened (s.part .oplog).memory.manifest })
      (openStores lib.toPageLib) s :=
    (wp_forStores_iff (P := fun p => p = { s.part .oplog with
        memory := PageStore.opened (s.part .oplog).memory.manifest })
      (fun _ p => wp_openStore_ok p) (by decide) (by decide : StoreName.oplog ∈ StoreName.all)
      fun s' => and_iff_right rfl).2 ((wp_openStore_of_valid h.holds.consistent.manifest).2 rfl)
  simp only [Event.prog, Opfs.reopen, wp_bind]
  refine hopen.mono ?_
  rintro _ s1 ⟨rfl, hpart⟩
  set s2 : TabState F D := { s1 with tab := { s1.tab with runtime := none } } with hs2
  have hpart2 : s2.part .oplog = s1.part .oplog := rfl
  have h2 : Refines lib.toPageLib m s2 := by
    refine ⟨?_, fun rt hrt => nomatch hrt⟩
    rw [hpart2, hpart]
    exact h.holds.opened h.current
  have hcurrent2 : (s2.part .oplog).current = 0 := by
    rw [hpart2, hpart]
    exact h.current
  have hok2 : pendingCount s2 ≠ 0 ∨ uploadableCount (stored lib s2) = 0 := by
    rw [pendingCount, stored, hpart2, hpart]
    exact hok
  refine (wp_repairIfDiverged h2 hcurrent2 hok2).mono ?_
  rintro _ s3 ⟨rfl, h3⟩
  refine ⟨m, ⟨h3.holds, fun rt hrt => ?_⟩, h3.current, h3.pending⟩
  cases managers with
  | none => cases hrt
  | some ms => exact (Option.some.inj hrt) ▸ rfl

/-! ## Documents -/

def Apart (s s' : TabState F D) : Prop := s'.part .oplog = s.part .oplog ∧ QueueEmpty s'

lemma wp_onDocData (t : PageFn F D α) (h : Apart s s') :
    wp (TabState.machine B) (fun _ => Apart s) (onStore .docData t) s' := by
  rw [wp_onStore]
  refine wp_iff_outcome.2 fun _ p _ => ⟨?_, h.2.of_runtime rfl⟩
  rw [TabState.part_replace_of_ne (by decide)]
  exact h.1

lemma wp_allocDocData (h : Apart s s') :
    wp (TabState.machine B) (fun _ => Apart s) allocDocData s' := by
  have hapart : Apart s (s'.runtimeAllocate .docData).2 := by
    refine ⟨?_, queueEmpty_runtimeAllocate h.2 .docData⟩
    rw [← h.1]
    unfold TabState.runtimeAllocate
    split
    · rfl
    · simp [TabState.part, TabState.handOut, TabState.setRuntime]
  rw [allocDocData, wp_bind, StorageRuntime.wp_allocatePageId]
  cases (s'.runtimeAllocate .docData).1 with
  | none => exact wp_onDocData _ hapart
  | some id => exact (wp_onDocData _ hapart).bind (fun _ _ h' => h') fun _ _ h' => h'

lemma wp_insertDocument (h : QueueEmpty s) (k : Key) (bytes : B) :
    wp (TabState.machine B) (fun _ => Apart s) (insertDocument lib k bytes) s := by
  have hroute : ∀ {op : StorageOp D} {t : PageFn F D Unit} {u : TabState F D}, Apart s u →
      (StorageRuntime.perform lib.toPageLib op : TabFn F D B Unit) =
        (do let _ ← (onStore .docData t).attempt) →
      wp (TabState.machine B) (fun _ => Apart s) (do
        if ← .read fun tab => tab.runtime.isSome then
          (do StorageRuntime.enqueue op; StorageRuntime.processPending lib.toPageLib)
        else onStore .docData t) u := fun hu hop =>
    StorageRuntime.wp_routed StorageRuntime.lawfulMemory hop hu.2 (wp_onDocData _ hu)
  refine wp.bind (Q := fun _ => Apart s) ?_ (fun _ _ hu => wp_onDocData _ hu) fun _ _ hu => hu
  refine wp.bind (Q := fun _ => Apart s) ?_ (fun _ u hu => ?_) fun _ _ hu => hu
  · refine (wp_onDocData _ ⟨rfl, h⟩).bind (fun found u hu => ?_) fun _ _ hu => hu
    cases found with
    | none => exact hu
    | some entry =>
      refine (hroute hu rfl).bind (fun _ u hu => ?_) fun _ _ hu => hu
      exact (wp_onDocData _ hu).bind (fun _ _ hu => hu) fun _ _ hu => hu
  · refine (wp_allocDocData hu).bind (fun id u hu => ?_) fun _ _ hu => hu
    exact (hroute hu rfl).bind (fun _ _ hu => hu) fun _ _ hu => hu

lemma Exact.apart (h : Exact lib m s) (ha : Apart s s') : Exact lib m s' := by
  refine ⟨⟨ha.1 ▸ h.holds, ha.2⟩, ha.1 ▸ h.current, ?_⟩
  rw [pendingCount, stored, ha.1]
  exact h.pending

/-! ## Every run -/

lemma Exact.step {e : Event B} (h : Exact lib m s) (hok : e.Ok lib s) :
    Assuming (TabState.machine B) OplogIncreasing (fun _ s' => ∃ m', Exact lib m' s')
      (e.prog lib) s := by
  cases e with
  | appendOplog e => exact assuming_append h hok
  | writeDocumentAndOplog k bytes e =>
    refine (wp_insertDocument h.queue k bytes).bind (fun _ s1 ha => ?_) fun _ s1 ha _ => ⟨m, h.apart ha⟩
    refine assuming_append (h.apart ha) ?_
    rw [stored, ha.1]
    exact hok
  | markSynced id sequence =>
    refine (assuming_markSynced h.toRefines (fun _ _ => h.current ▸ Nat.zero_le _) id sequence).mono ?_
    rintro _ s' - ⟨-, h', hcount⟩
    exact h.mark (synced sequence) (fun _ => ⟨rfl, rfl⟩) hok h' hcount
  | markFailed id =>
    refine (assuming_markFailed h.toRefines (fun _ _ => h.current ▸ Nat.zero_le _) id).mono ?_
    rintro _ s' - ⟨-, h', hcount⟩
    exact h.mark failed (fun _ => ⟨rfl, rfl⟩) hok h' hcount
  | commit tx =>
    refine (assuming_commit h.toRefines tx).mono ?_
    rintro _ s' - ⟨-, h', ⟨-, rfl⟩ | ⟨l, hcount, hl⟩⟩
    · exact ⟨m, h⟩
    · exact ⟨_, h.of_counts h' hcount fun hrep => uploadableCount_eq (hl h.current) hrep⟩
  | reopen managers => exact assuming_of_wp (wp_reopen h hok managers)

lemma exact_run {events : List (Event B × List (Env B))} (h : Exact lib m s)
    (hinc : OplogIncreasing (run lib s events)) (hok : AllOk lib s events) :
    ∃ m', Exact lib m' (run lib s events) := by
  have hpre : ∀ {events} {s : TabState F D}, OplogIncreasing (run lib s events) → OplogIncreasing s := by
    intro events
    induction events with
    | nil => exact fun h => h
    | cons e events ih => exact fun h => increasing_of_prog (ih h)
  induction events generalizing s m with
  | nil => exact ⟨m, h⟩
  | cons e events ih =>
    obtain ⟨m', h'⟩ := run_of_assuming (h.step hok.1) e.2 (hpre hinc)
    exact ih h' hinc hok.2

/-- **The pending count.** In a run with page ids in increasing order whose steps are all `Ok`, the
count is the number of uploadable entries that are read. -/
theorem pendingCount_eq_readBack (lib : DocLib F D B) (withRuntime : Bool)
    (events : List (Event B × List (Env B))) (envs : List (Env B))
    (hinc : OplogIncreasing (run lib (opened withRuntime) events))
    (hok : AllOk lib (opened withRuntime) events) :
    ∃ l, readBack lib.toPageLib (run lib (opened withRuntime) events) envs = .ok l ∧
      pendingCount (run lib (opened withRuntime) events) = uploadableCount l := by
  obtain ⟨m, h⟩ := exact_run (m := fun _ => none) ⟨refines_opened withRuntime, rfl, rfl⟩ hinc hok
  obtain ⟨l, hl, hrep⟩ := exists_readBack h.toRefines (fun _ _ => h.current ▸ Nat.zero_le _) envs
  exact ⟨l, hl, h.pending.trans (uploadableCount_eq h.represents hrep)⟩

def twoAppended : List (Event Unit × List (Env Unit)) :=
  [(.appendOplog (sampleEntry "a"), []), (.appendOplog (sampleEntry "b"), []),
    (.markSynced "a" 1, [])]

def committed : List (Event Unit × List (Env Unit)) :=
  twoAppended ++ [(.commit ⟨[.markFailed "b"], [sampleEntry "b"]⟩, []), (.reopen none, [])]

theorem pendingCount_committed :
    ∃ l, readBack (terms fun _ => 0).toPageLib (run (terms fun _ => 0) (opened true) committed) [] =
        .ok l ∧
      pendingCount (run (terms fun _ => 0) (opened true) committed) = uploadableCount l :=
  pendingCount_eq_readBack (terms fun _ => 0) true committed [] (by decide) (by
    simp only [committed, twoAppended, cons_append, nil_append, AllOk, Event.Ok]
    decide)

/-- Marked again, an entry takes another one from the count. -/
theorem pendingCount_marked_twice :
    pendingCount (run (terms fun _ => 0) (opened true)
      (twoAppended ++ [(.markSynced "a" 1, [])])) = 0 ∧
    (readBack (terms fun _ => 0).toPageLib (run (terms fun _ => 0) (opened true)
      (twoAppended ++ [(.markSynced "a" 1, [])])) []).map uploadableCount = .ok 1 := by
  decide

end PendingCount

end VaultSync.Opfs
