import VaultSync.Opfs.PageIdCalls
import VaultSync.Opfs.StorageRuntime
import VaultSync.Opfs.Symbolic

/-! Runs of a tab on its page stores, with the store's own allocator and the runtime's, and the
freshness of the page ids that they hand out. -/

namespace VaultSync.Opfs

open Async PageStore List StorageRuntime StoreState

variable {F D B α : Type}

lemma StoreName.mem_all (store : StoreName) : store ∈ StoreName.all := by
  cases store <;> decide

/-! ## Events -/

namespace PageIds

inductive Call (D : Type) where
  | allocatePageId
  | allocateAndRotate
  | writePage (id : ℕ) (data : D)
  | writePageRaw (id : ℕ) (data : D)
  | writePageVerify (id : ℕ) (data : D)
  | transaction (steps : List (TxStep D))
  | tombstonePage (id : ℕ)
  | tombstonePageFileOnly (id : ℕ)
  | setCurrentPage (id : ℕ)
  | scheduleGc
  | cleanupTombstonedPages
  | runPendingGc

inductive Damage where
  | intact
  | missing
  | corrupt
  deriving DecidableEq

def Damage.apply : Damage → ManifestFile → ManifestFile
  | intact, f => f
  | missing, _ => .missing
  | corrupt, _ => .corrupt

inductive Event (D : Type) where
  | call (store : StoreName) (c : Call D)
  | runtimeAllocate (store : StoreName)
  | newRuntime (anyCorrupt : Bool)
  | reopen (damage : StoreName → Damage)

section functions

variable [DecidableEq D] (lib : PageLib F D B)

def Call.prog : Call D → PageFn F D Unit
  | allocatePageId => do
    let _ ← PageStore.allocatePageId
  | allocateAndRotate => do
    let _ ← PageStore.allocateAndRotate
  | writePage id data => PageStore.writePage lib id data
  | writePageRaw id data => PageStore.writePageRaw lib id data
  | writePageVerify id data => PageStore.writePageVerify lib id data
  | transaction steps => PageStore.transaction lib steps
  | tombstonePage id => PageStore.tombstonePage lib id
  | tombstonePageFileOnly id => PageStore.tombstonePageFileOnly lib id
  | setCurrentPage id => PageStore.setCurrentPage id
  | scheduleGc => PageStore.scheduleGc
  | cleanupTombstonedPages => do
    let _ ← PageStore.cleanupTombstonedPages lib
  | runPendingGc => do
    let _ ← PageStore.runPendingGc lib

def runtimeAllocate (store : StoreName) : TabFn F D B Unit := do
  match ← StorageRuntime.allocatePageId store with
  | some id => onStore store (commitAllocatedPageId id)
  | none => return ()

def Event.prog : Event D → TabFn F D B Unit
  | call store c => onStore store (c.prog lib)
  | runtimeAllocate store => PageIds.runtimeAllocate store
  | newRuntime anyCorrupt => StorageRuntime.new anyCorrupt
  | reopen _ => Opfs.reopen lib

variable (s : TabState F D)

def Event.start : Event D → TabState F D
  | reopen damage =>
    { s with disk := fun store =>
        { s.disk store with manifest := (damage store).apply (s.disk store).manifest } }
  | _ => s

def step (e : Event D × List (Env B)) : TabState F D :=
  (Async.run (TabState.machine B) (e.1.prog lib) e.2 (e.1.start s)).2

def run (events : List (Event D × List (Env B))) : TabState F D :=
  events.foldl (step lib) s

end functions

def created : TabState F D where
  tab := { pages := fun _ => StoreState.created.memory (F := F), runtime := none }
  disk _ := (StoreState.created (D := D)).dir
  handedOut _ := []
  clock := 0

/-! ## When an event keeps ids fresh -/

def counter (s : TabState F D) (store : StoreName) : ℕ :=
  match s.tab.runtime with
  | some rt => (rt.managers store).nextId
  | none => 0

def Call.Ok (lib : PageLib F D B) (n : ℕ) (s : StoreState F D) : Call D → Prop
  | allocatePageId => n ≤ s.next
  | allocateAndRotate => n ≤ s.next
  | writePage id data =>
    (Oversized lib data → n ≤ s.next) ∧ (¬ Oversized lib data → id < max n s.next)
  | writePageRaw id _ => id < max n s.next
  | writePageVerify id _ => id < max n s.next
  | transaction steps => WritesBelow (max n s.next) steps
  | cleanupTombstonedPages => CleanupKeeps lib n s.dir.pages
  | runPendingGc => GcKeeps lib n s
  | _ => True

/-- The runtime's allocator is used while the store's counter is not ahead of it, and counters
are taken from a manifest, or from a scan of the directory, only if they are above the pages in
use. -/
def Event.Ok (lib : PageLib F D B) (s : TabState F D) : Event D → Prop
  | call store c => c.Ok lib (counter s store) (s.part store)
  | runtimeAllocate store => s.tab.runtime.isSome = true → (s.part store).next ≤ counter s store
  | newRuntime _ => ∀ store ∈ StoreName.all, StoreCovers (s.part store)
  | reopen damage => ∀ store ∈ StoreName.all,
      if damage store = .intact then StoreCovers (s.part store)
      else StoreState.Covered lib 0 0 (s.part store).dir.pages

instance (bound : ℕ) (steps : List (TxStep D)) : Decidable (WritesBelow bound steps) :=
  @List.decidableBAll _ _ (fun step => match step with
    | .write id _ _ => Nat.decLt id bound
    | .tombstone _ => instDecidableTrue) steps

instance (lib : PageLib F D B) (n : ℕ) (s : StoreState F D) :
    (c : Call D) → Decidable (c.Ok lib n s)
  | .allocatePageId => Nat.decLe _ _
  | .allocateAndRotate => Nat.decLe _ _
  | .writePage _ data => inferInstanceAs (Decidable ((Oversized lib data → _) ∧ (_ → _)))
  | .writePageRaw _ _ => Nat.decLt _ _
  | .writePageVerify _ _ => Nat.decLt _ _
  | .transaction steps => inferInstanceAs (Decidable (WritesBelow _ steps))
  | .tombstonePage _ => instDecidableTrue
  | .tombstonePageFileOnly _ => instDecidableTrue
  | .setCurrentPage _ => instDecidableTrue
  | .scheduleGc => instDecidableTrue
  | .cleanupTombstonedPages => inferInstanceAs (Decidable (CleanupKeeps lib n s.dir.pages))
  | .runPendingGc => inferInstanceAs (Decidable (GcKeeps lib n s))

instance (lib : PageLib F D B) (s : TabState F D) : (e : Event D) → Decidable (e.Ok lib s)
  | .call store c => inferInstanceAs (Decidable (c.Ok lib (counter s store) (s.part store)))
  | .runtimeAllocate _ => inferInstanceAs (Decidable (_ → _))
  | .newRuntime _ => List.decidableBAll _ _
  | .reopen _ => List.decidableBAll _ _

def Fresh (s s' : TabState F D) : Prop :=
  ∀ store id, s'.handedOut store = id :: s.handedOut store → ¬ (s.part store).InUse id

section runs

variable [DecidableEq D] (lib : PageLib F D B)

def AllOk : TabState F D → List (Event D × List (Env B)) → Prop
  | _, [] => True
  | s, e :: events => e.1.Ok lib s ∧ AllOk (step lib s e) events

instance decidableAllOk : (events : List (Event D × List (Env B))) → (s : TabState F D) →
    Decidable (AllOk lib s events)
  | [], _ => instDecidableTrue
  | e :: events, s =>
    @instDecidableAnd _ _ inferInstance (decidableAllOk events (step lib s e))

instance (s : TabState F D) (events : List (Event D × List (Env B))) :
    Decidable (AllOk lib s events) := decidableAllOk lib events s

def AllFresh : TabState F D → List (Event D × List (Env B)) → Prop
  | _, [] => True
  | s, e :: events =>
    Always (TabState.machine B) Fresh (e.1.prog lib) (e.1.start s) ∧
      AllFresh (step lib s e) events

end runs

/-! ## The invariant -/

/-- In every store the pages in use are below one of its counters, and the runtime has no freed
ids. -/
structure Inv (lib : PageLib F D B) (s : TabState F D) : Prop where
  bounded : ∀ store, StoreState.Bounded lib (counter s store) (s.part store)
  freeList : ∀ rt, s.tab.runtime = some rt → ∀ store, (rt.managers store).freeList = []

variable {lib : PageLib F D B} {s : TabState F D} {store : StoreName}

lemma inv_created : Inv lib (created : TabState F D) where
  bounded _ := ⟨sound_created, fun _ hid => absurd hid.1 (Finset.notMem_empty _)⟩
  freeList _ hrt := by cases hrt

variable {p : StoreState F D} {t : PageFn F D α} {Q : Except VaultSyncError α → TabState F D → Prop}
  {n : ℕ}

lemma fresh_replace {q : StoreState F D} (h : p.Fresh q) :
    Fresh (s.replace store p) (s.replace store q) := by
  intro store' id hid
  by_cases hs : store' = store
  · subst hs
    rw [TabState.part_replace]
    exact h id (by simpa [TabState.replace] using hid)
  · simp [TabState.replace, hs] at hid

lemma Inv.replace (h : Inv lib s)
    (hp : StoreState.Bounded lib (counter s store) p) : Inv lib (s.replace store p) where
  bounded store' := by
    change StoreState.Bounded lib (counter s store') _
    by_cases hs : store' = store
    · subst hs
      rw [TabState.part_replace]
      exact hp
    · rw [TabState.part_replace_of_ne hs]
      exact h.bounded store'
  freeList := h.freeList

lemma upholds_onStore_fresh
    (h : Upholds (machine B) StoreState.Fresh (fun r p => Q r (s.replace store p)) t
      (s.part store)) : Upholds (TabState.machine B) Fresh Q (onStore store t) s :=
  upholds_onStore.2 ⟨h.1.mono fun _ _ hpq => fresh_replace hpq, h.2⟩

lemma Inv.upholds_onStore (h : Inv lib s) (ht : KeepsBound lib (counter s store) t (s.part store)) :
    Upholds (TabState.machine B) Fresh (fun _ => Inv lib) (onStore store t) s :=
  upholds_onStore_fresh (ht.mono fun _ _ hp => h.replace hp)

/-! ## Calls of a store -/

lemma upholds_discard (h : KeepsBound lib n t p) : KeepsBound lib n (do let _ ← t) p := by
  refine upholds_bind (h.mono fun r p' hp => ?_)
  cases r with
  | ok a => exact ⟨trivial, hp⟩
  | error e => exact hp

lemma upholds_call [DecidableEq D] (h : StoreState.Bounded lib n p) {c : Call D}
    (hc : c.Ok lib n p) : KeepsBound lib n (c.prog lib) p := by
  cases c with
  | allocatePageId => exact upholds_discard (upholds_allocatePageId (h.fresh hc) h.allocated)
  | allocateAndRotate => exact upholds_discard (upholds_allocateAndRotate (h.fresh hc) h.rotated)
  | writePage id data =>
    change Upholds _ _ _ (if _ then _ else _) p
    split
    · exact upholds_bounded_emergencySplit h (hc.1 ‹_›)
    · exact upholds_bounded_writeInPlace h (hc.2 ‹_›)
  | writePageRaw id data =>
    exact upholds_of_wp ((wp_writePageRaw id data).2 ⟨rfl, h.writtenRaw hc data⟩)
  | writePageVerify id data => exact upholds_bounded_writePageVerify h hc
  | transaction steps => exact upholds_bounded_transaction h hc
  | tombstonePage id => exact upholds_bounded_tombstonePage h
  | tombstonePageFileOnly id => exact upholds_bounded_tombstonePageFileOnly h
  | setCurrentPage id =>
    exact upholds_of_wp ((wp_setCurrentPage id).2 ⟨rfl, h.persist le_rfl fun _ hid => .inl hid⟩)
  | scheduleGc =>
    exact upholds_of_wp ((wp_modify _).2 ⟨rfl, ⟨h.manifest, h.formatted⟩, h.lt_max⟩)
  | cleanupTombstonedPages => exact upholds_discard (upholds_bounded_cleanup h hc)
  | runPendingGc => exact upholds_discard (upholds_bounded_runPendingGc h hc)

/-! ## The runtime's allocator -/

lemma fresh_of_handedOut_eq {s' : TabState F D} (h : s'.handedOut = s.handedOut) : Fresh s s' := by
  intro store id hid
  rw [h] at hid
  exact absurd hid (cons_ne_self id _).symm

lemma Inv.runtimeAllocate (h : Inv lib s) (store : StoreName) {rt : StorageRuntime D}
    (hrt : s.tab.runtime = some rt) :
    (s.runtimeAllocate store).1 = some (counter s store) ∧
      Inv lib (s.runtimeAllocate store).2 ∧
      counter (s.runtimeAllocate store).2 store = counter s store + 1 ∧
      (s.runtimeAllocate store).2.handedOut =
        Function.update s.handedOut store (counter s store :: s.handedOut store) := by
  have hcounter : ∀ store', counter s store' = (rt.managers store').nextId := by simp [counter, hrt]
  set id := (rt.managers store).nextId with hid
  have halloc : (rt.managers store).allocate = (id, ⟨id + 1, []⟩) := by
    rw [PageManager.allocate, h.freeList rt hrt store]
    rfl
  have hs : s.runtimeAllocate store = (some id, (s.setRuntime (some
      { rt with managers := Function.update rt.managers store ⟨id + 1, []⟩ })).handOut store id) := by
    simp only [TabState.runtimeAllocate, hrt, halloc]
  rw [hs, hcounter]
  refine ⟨rfl, ⟨fun store' => ?_, fun rt' hrt' store' => ?_⟩, ?_, rfl⟩
  · refine ((h.bounded store').of_counter_le ?_).of_same_store rfl rfl
    rw [hcounter]
    change _ ≤ (Function.update rt.managers store _ store').nextId
    rw [Function.update_apply]
    split
    · subst store'
      exact Nat.le_succ id
    · exact le_rfl
  · obtain rfl := Option.some.inj hrt'
    change (Function.update rt.managers store _ store').freeList = []
    rw [Function.update_apply]
    split
    · rfl
    · exact h.freeList rt hrt store'
  · change (Function.update rt.managers store _ store).nextId = _
    rw [Function.update_self]

lemma upholds_allocate {r : Option ℕ} {s' : TabState F D} (h : s.runtimeAllocate store = (r, s'))
    {Q : Except VaultSyncError (Option ℕ) → TabState F D → Prop} (hfresh : Fresh s s')
    (hQ : Q (.ok r) s') : Upholds (TabState.machine B) Fresh Q (allocatePageId store) s := by
  have hstep : ∀ e : Env B, (TabState.machine B).handle (.runtimeAllocate store) e s = (r, s') :=
    fun _ => h
  refine ⟨fun e _ => ?_, fun e _ => ?_⟩
  · rw [hstep e]
    exact ⟨hfresh, trivial⟩
  · rw [hstep e]
    exact hQ

lemma upholds_runtimeAllocate (h : Inv lib s)
    (hn : s.tab.runtime.isSome = true → (s.part store).next ≤ counter s store) :
    Upholds (TabState.machine B) Fresh (fun _ => Inv lib) (runtimeAllocate store) s := by
  rcases hrt : s.tab.runtime with _ | rt
  · have hnone : s.runtimeAllocate store = (none, s) := by
      simp only [TabState.runtimeAllocate, hrt]
    exact upholds_bind (upholds_allocate hnone (fresh_of_handedOut_eq rfl) ⟨trivial, h⟩)
  · obtain ⟨hid, hinv, hcounter, hout⟩ := h.runtimeAllocate store hrt
    refine upholds_bind (upholds_allocate (Prod.ext hid rfl) ?_ ?_)
    · intro store' id hid'
      rw [hout, Function.update_apply] at hid'
      split at hid'
      · subst store'
        obtain rfl := (List.cons.inj hid').1
        -- the store's own counter is not ahead, so the runtime's is above every page in use
        intro huse
        have hlt := (h.bounded store).lt_max _ huse
        have hle := hn (by rw [hrt]; rfl)
        omega
      · exact absurd hid' (cons_ne_self id _).symm
    · refine hinv.upholds_onStore (upholds_bounded_commitAllocatedPageId (hinv.bounded store) ?_)
      omega

/-! ## Opening the stores and the runtime -/

lemma nodup_all : StoreName.all.Nodup := by decide

lemma mem_repairOrphans_livePages {m : StoreManifest} {id : ℕ}
    (h : id ∈ (repairOrphans m).contentIndex.livePages) : id ∈ m.contentIndex.livePages := by
  unfold repairOrphans at h
  split at h
  · exact h
  · exact (Finset.mem_sdiff.1 h).1

lemma repairOrphans_nextPageId (m : StoreManifest) :
    (repairOrphans m).nextPageId = m.nextPageId := by
  unfold repairOrphans
  split <;> rfl

lemma upholds_repair (h : StoreState.Bounded lib n p) :
    Upholds (machine B) StoreState.Fresh
      (fun r p' => r = .ok () ∧ StoreState.Bounded lib n p') repair p := by
  have hrepaired : StoreState.Bounded lib n
      (p.commit (repairOrphans p.memory.manifest)) :=
    h.commit (repairOrphans_nextPageId _).ge fun id hid => .inl (mem_repairOrphans_livePages hid)
  refine upholds_of_wp ?_
  by_cases horphans : p.memory.manifest.contentIndex.orphans = ∅
  · have hsame : repairOrphans p.memory.manifest = p.memory.manifest :=
      if_pos horphans
    simp only [repair, wp_bind, wp_read, PageFn.wp_updateManifest, hsame, horphans,
      ne_eq, not_true_eq_false, if_false, wp_pure]
    exact ⟨rfl, trivial, h⟩
  · simp only [repair, wp_bind, wp_read, PageFn.wp_updateManifest, horphans, ne_eq,
      not_false_eq_true, if_true, wp_attempt, PageFn.wp_writeManifest, wp_pure]
    exact ⟨rfl, trivial, hrepaired⟩

lemma upholds_read {f : Tab D → α} (hQ : Q (.ok (f s.tab)) s) :
    Upholds (TabState.machine B) Fresh Q (Prog.read f) s :=
  ⟨⟨fresh_of_handedOut_eq rfl, trivial⟩, hQ⟩

lemma upholds_modify {f : Tab D → Tab D} {Q : Except VaultSyncError Unit → TabState F D → Prop}
    (hQ : Q (.ok ()) { s with tab := f s.tab }) :
    Upholds (TabState.machine B) Fresh Q (Prog.modify f) s :=
  ⟨⟨fresh_of_handedOut_eq rfl, trivial⟩, hQ⟩

lemma upholds_install (h : ∀ store, StoreState.Bounded lib 0 (s.part store))
    (highest : StoreName → ℕ) :
    Upholds (TabState.machine B) Fresh (fun _ => Inv lib)
      (Prog.modify fun t => { t with runtime := some ⟨fun store => PageManager.new (highest store), []⟩ } :
        TabFn F D B Unit) s := by
  refine upholds_modify ⟨fun store => (h store).of_counter_le (Nat.zero_le _), fun rt hrt store => ?_⟩
  obtain rfl := Option.some.inj hrt
  rfl

lemma upholds_newRuntime (h : Inv lib s)
    (hcov : ∀ store ∈ StoreName.all, StoreCovers (s.part store)) (anyCorrupt : Bool) :
    Upholds (TabState.machine B) Fresh (fun _ => Inv lib) (new anyCorrupt) s := by
  have hzero : ∀ store, StoreState.Bounded lib 0 (s.part store) := fun store =>
    ⟨(h.bounded store).toSound, fun id hid =>
      lt_max_of_lt_right (hcov store store.mem_all id hid.1 hid.2)⟩
  refine upholds_bind (upholds_read (upholds_bind (upholds_read ?_)))
  dsimp only
  split
  · refine upholds_bind ((upholds_forStores (fun _ _ _ _ => fresh_replace)
      (fun _ => StoreState.Bounded lib 0) _ (fun _ _ hp => upholds_repair hp) nodup_all
      fun store _ => hzero store).mono ?_)
    rintro _ s' ⟨rfl, hpost, -⟩
    exact upholds_install (fun store => hpost store store.mem_all) _
  · exact upholds_install hzero _

lemma upholds_reopen (h : Inv lib s) {damage : StoreName → Damage}
    (hok : (Event.reopen damage : Event D).Ok lib s) :
    Upholds (TabState.machine B) Fresh (fun _ => Inv lib) (Opfs.reopen lib)
      ((Event.reopen damage : Event D).start s) := by
  have hopen : ∀ store, Upholds (machine B) StoreState.Fresh
      (fun r p => r = .ok () ∧ StoreState.Bounded lib 0 p) (openStore lib)
      (((Event.reopen damage : Event D).start s).part store) := by
    intro store
    have hs := (h.bounded store).toSound
    have hcov := hok store store.mem_all
    change Upholds _ _ _ _ ((s.part store).setManifestFile ((damage store).apply _))
    cases hd : damage store with
    | intact =>
      rw [if_pos hd] at hcov
      refine upholds_of_wp ((wp_openStore_of_valid hs.manifest).2 ⟨rfl, rfl, hs.opened, fun id hid => ?_⟩)
      exact lt_max_of_lt_right (hcov id hid.1 hid.2)
    | missing | corrupt =>
      rw [if_neg (by simp [hd])] at hcov
      exact upholds_bounded_openStore_of_invalid hs.formatted rfl hcov
  refine upholds_bind ((upholds_forStores (fun _ _ _ _ => fresh_replace)
    (fun store p => p = ((Event.reopen damage : Event D).start s).part store) _
    (fun store p hp => hp ▸ hopen store) nodup_all fun _ _ => rfl).mono ?_)
  rintro _ s' ⟨rfl, hpost, -⟩
  refine upholds_modify ⟨fun store => hpost store store.mem_all, fun rt hrt => ?_⟩
  cases hrt

/-! ## Runs -/

lemma upholds_event [DecidableEq D] (h : Inv lib s) {e : Event D} (he : e.Ok lib s) :
    Upholds (TabState.machine B) Fresh (fun _ => Inv lib) (e.prog lib) (e.start s) := by
  cases e with
  | call store c => exact h.upholds_onStore (upholds_call (h.bounded store) he)
  | runtimeAllocate store => exact upholds_runtimeAllocate h he
  | newRuntime anyCorrupt => exact upholds_newRuntime h he anyCorrupt
  | reopen damage => exact upholds_reopen h he

lemma inv_step [DecidableEq D] (h : Inv lib s) {e : Event D × List (Env B)} (he : e.1.Ok lib s) :
    Inv lib (step lib s e) :=
  wp_iff_outcome.1 (upholds_event h he).2 _ _
    (run_outcome (e.1.prog lib) e.2 (e.1.start s) fun _ _ => ⟨trivial, fun _ _ => trivial⟩)

lemma allFresh_of_inv [DecidableEq D] (events : List (Event D × List (Env B))) (h : Inv lib s)
    (hok : AllOk lib s events) : AllFresh lib s events := by
  induction events generalizing s with
  | nil => trivial
  | cons e events ih => exact ⟨(upholds_event h hok.1).1, ih (inv_step h hok.1) hok.2⟩

/-- In a run whose events are all as required, no allocation, of the store, of the runtime or
inside a split, hands out the id of a page that is live and has a page file. -/
theorem allocations_fresh [DecidableEq D] (lib : PageLib F D B)
    (events : List (Event D × List (Env B))) (h : AllOk lib created events) :
    AllFresh lib created events :=
  allFresh_of_inv events inv_created h

def sampleEvents : List (Event Payload × List (Env Unit)) :=
  [(.call .docData .allocatePageId, []), (.call .docData (.writePage 100 (.value 1)), []),
    (.call .docData .allocatePageId, []), (.call .docData (.writePage 101 (.value 2)), []),
    (.call .docData (.tombstonePage 101), []),
    (.reopen fun store => if store = .docData then .missing else .intact, []),
    (.call .docData .allocatePageId, []), (.newRuntime true, []),
    (.runtimeAllocate .oplog, []), (.call .oplog (.writePage 100 (.value 3)), []),
    (.runtimeAllocate .oplog, []), (.call .oplog (.tombstonePage 100), []),
    (.call .oplog .cleanupTombstonedPages, []), (.call .oplog .runPendingGc, [])]

theorem allocations_fresh_sampleEvents :
    AllOk symbolic created sampleEvents ∧ AllFresh symbolic created sampleEvents :=
  ⟨by decide, allocations_fresh symbolic sampleEvents (by decide)⟩

def afterReload : TabState (PageHeader × Payload) Payload :=
  run symbolic created
    [(.newRuntime false, []), (.runtimeAllocate .docData, []),
      (.call .docData (.writePage 100 (.value 1)), []), (.reopen fun _ => .intact, []),
      (.newRuntime false, [])]

def afterRebuild : TabState (PageHeader × Payload) Payload :=
  run symbolic created
    [(.call .docData .allocatePageId, []), (.call .docData (.writePage 100 (.value 1)), []),
      (.reopen fun _ => .missing, [])]

/-- Each allocator hands out page 100 again. -/
theorem allocation_repeats :
    (afterReload.runtimeAllocate .docData).1 = some 100 ∧ (afterReload.part .docData).InUse 100 ∧
      (afterRebuild.part .docData).memory.manifest.allocatePageId.1 = 100 ∧
      (afterRebuild.part .docData).InUse 100 := by
  decide

end PageIds

end VaultSync.Opfs
