import Mathlib.Algebra.GroupWithZero.Nat
import VaultSync.Async.Embedding
import VaultSync.Opfs.PageStoreSpec

/-! The page stores of a tab, and the storage runtime over them. -/

namespace VaultSync.Opfs

open Async List StoreState

variable {F D B α : Type}

inductive StoreName where
  | docData
  | oplog
  | syncStates
  | schemas
  | migrations
  | keys
  deriving DecidableEq

def StoreName.all : List StoreName := [docData, oplog, syncStates, schemas, migrations, keys]

structure PageManager where
  nextId : ℕ
  freeList : List ℕ

namespace PageManager

def systemPageReserved : ℕ := 100

def new (highestId : ℕ) : PageManager where
  nextId := if highestId < systemPageReserved then systemPageReserved else highestId
  freeList := []

def allocate (m : PageManager) : ℕ × PageManager :=
  match m.freeList.getLast? with
  | some id => (id, { m with freeList := m.freeList.dropLast })
  | none => (m.nextId, { m with nextId := m.nextId + 1 })

end PageManager

/-! ## The scheduler -/

inductive StorageOp (D : Type) where
  | writePage (store : StoreName) (id : ℕ) (data : D)
  | readPage (store : StoreName) (id : ℕ)
  | tombstonePage (store : StoreName) (id : ℕ)
  | deletePage (store : StoreName) (id : ℕ)
  | allocatePageId (store : StoreName)
  | flushManifest (store : StoreName)
  | checkpoint (seq count : ℕ)
  | compaction («namespace» : String)

inductive StoragePriority where
  | critical
  | immediate
  | high
  | normal
  | background
  deriving DecidableEq

def StoragePriority.rank : StoragePriority → ℕ
  | critical => 0
  | immediate => 1
  | high => 2
  | normal => 3
  | background => 4

def StorageOp.priority : StorageOp D → StoragePriority
  | writePage .. => .high
  | readPage .. => .immediate
  | tombstonePage .. => .normal
  | deletePage .. => .normal
  | allocatePageId _ => .immediate
  | flushManifest _ => .normal
  | checkpoint .. => .background
  | compaction _ => .background

structure QueuedOp (D : Type) where
  op : StorageOp D
  priority : StoragePriority

def drainPending (queue : List (QueuedOp D)) : List (QueuedOp D) :=
  queue.insertionSort fun a b => a.priority.rank ≤ b.priority.rank

structure StorageRuntime (D : Type) where
  managers : StoreName → PageManager
  queue : List (QueuedOp D)

structure Tab (D : Type) where
  pages : StoreName → PageStore D
  runtime : Option (StorageRuntime D)

/-! ## The machine -/

inductive TabOp (F B : Type) where
  | file (store : StoreName) (op : FileOp F)
  | runtimeAllocate (store : StoreName)
  | now
  | hashOrder (entries : List (OplogEntry B))

/-- Without a runtime no id is handed out. -/
def TabOp.Ans : TabOp F B → Type
  | file _ op => op.Ans
  | runtimeAllocate _ => Option ℕ
  | now => ℕ
  | hashOrder entries => Order entries

abbrev TabOps (F B : Type) : Signature := ⟨TabOp F B, TabOp.Ans⟩

abbrev TabFn (F D B : Type) := Prog (TabOps F B) (Tab D) VaultSyncError

/-- The tab, the directories of its stores, for each store the ids handed out, by the store and
by the runtime, the latest first, and the time. -/
structure TabState (F D : Type) where
  tab : Tab D
  disk : StoreName → Directory F
  handedOut : StoreName → List ℕ
  clock : ℕ

namespace TabState

variable (store : StoreName) (s : TabState F D)

def part : StoreState F D where
  memory := s.tab.pages store
  dir := s.disk store
  handedOut := s.handedOut store

def replace (p : StoreState F D) (s : TabState F D) : TabState F D where
  tab := { s.tab with pages := Function.update s.tab.pages store p.memory }
  disk := Function.update s.disk store p.dir
  handedOut := Function.update s.handedOut store p.handedOut
  clock := s.clock

def setRuntime (r : Option (StorageRuntime D)) : TabState F D :=
  { s with tab := { s.tab with runtime := r } }

def handOut (store : StoreName) (id : ℕ) : TabState F D :=
  { s with handedOut := Function.update s.handedOut store (id :: s.handedOut store) }

def runtimeAllocate : Option ℕ × TabState F D :=
  match s.tab.runtime with
  | none => (none, s)
  | some rt =>
    let (id, manager) := (rt.managers store).allocate
    (some id, (s.setRuntime (some
      { rt with managers := Function.update rt.managers store manager })).handOut store id)

def handle : (op : TabOp F B) → Env B → TabState F D → op.Ans × TabState F D
  | .file store op, e, s =>
    ((StoreState.handle op e (s.part store)).1,
      s.replace store (StoreState.handle op e (s.part store)).2)
  | .runtimeAllocate store, _, s => s.runtimeAllocate store
  | .now, _, s => (s.clock, s)
  | .hashOrder entries, e, s => (e.hashOrder entries, s)

def machine (B : Type) : Machine (TabOps F B) (Tab D) (Env B) (TabState F D) where
  handle := handle
  allow _ _ _ := True
  memory s := s.tab
  setMemory t s := { s with tab := t }

variable {store store' : StoreName} {s : TabState F D} {p q : StoreState F D}

@[simp] lemma part_replace : (s.replace store p).part store = p := by
  simp [part, replace]

lemma part_replace_of_ne (h : store' ≠ store) :
    (s.replace store p).part store' = s.part store' := by
  simp [part, replace, h]

@[simp] lemma replace_replace : (s.replace store p).replace store q = s.replace store q := by
  simp [replace]

@[simp] lemma replace_part : s.replace store (s.part store) = s := by
  simp [replace, part]

end TabState

/-! ## Functions of one store -/

def storeEmbedding (B : Type) (store : StoreName) :
    Embedding (FileOps F) (PageStore D) (TabOps F B) (Tab D) where
  op := .file store
  ans _ x := x
  get t := t.pages store
  put p t := { t with pages := Function.update t.pages store p }

lemma storeEmbedding_realizes (store : StoreName) :
    (storeEmbedding B store).Realizes (machine B (F := F) (D := D)) (TabState.machine B)
      (TabState.part store) (TabState.replace store) where
  ans_handle _ _ _ := rfl
  state_handle _ _ _ := rfl
  allow_iff _ _ _ := Iff.rfl
  get_memory _ := rfl
  setMemory_put l s := by simp [TabState.machine, machine, storeEmbedding,
    TabState.replace, TabState.part]
  part_replace _ _ := TabState.part_replace
  replace_replace _ _ _ := TabState.replace_replace
  replace_part _ := TabState.replace_part

def onStore (store : StoreName) (t : PageFn F D α) : TabFn F D B α := t.embed (storeEmbedding B store)

variable {t : PageFn F D α} {Q : Except VaultSyncError α → TabState F D → Prop}
  {stores : List StoreName} {store : StoreName} {s : TabState F D}

lemma wp_onStore :
    wp (TabState.machine B) Q (onStore store t) s ↔
      wp (machine B) (fun r p => Q r (s.replace store p)) t (s.part store) :=
  wp_embed (storeEmbedding_realizes store) t

lemma upholds_onStore {G : TabState F D → TabState F D → Prop} :
    Upholds (TabState.machine B) G Q (onStore store t) s ↔
      Upholds (machine B) (fun p q => G (s.replace store p) (s.replace store q))
        (fun r p => Q r (s.replace store p)) t (s.part store) :=
  upholds_embed (storeEmbedding_realizes store) t

def forStores (f : StoreName → TabFn F D B Unit) : List StoreName → TabFn F D B Unit
  | [] => return ()
  | store :: stores => do
    f store
    forStores f stores

variable {t : StoreName → PageFn F D Unit}

lemma upholds_forStores {G : StoreState F D → StoreState F D → Prop}
    {H : TabState F D → TabState F D → Prop}
    (hG : ∀ (s : TabState F D) store p q, G p q → H (s.replace store p) (s.replace store q))
    (Pre Post : StoreName → StoreState F D → Prop)
    (ht : ∀ store p, Pre store p → Upholds (machine B) G (fun r p' => r = .ok () ∧ Post store p') (t store) p)
    (hnd : stores.Nodup) (hpre : ∀ store ∈ stores, Pre store (s.part store)) :
    Upholds (TabState.machine B) H (fun r s' => r = .ok () ∧
      (∀ store ∈ stores, Post store (s'.part store)) ∧
      ∀ store ∉ stores, s'.part store = s.part store)
      (forStores (fun store => onStore store (t store)) stores) s := by
  induction stores generalizing s with
  | nil => exact ⟨trivial, rfl, nofun, fun _ _ => rfl⟩
  | cons a stores ih =>
    rw [nodup_cons] at hnd
    have ha := ht a _ (hpre a mem_cons_self)
    refine upholds_bind (upholds_onStore.2 ⟨ha.1.mono fun p q => hG s a p q, ha.2.mono ?_⟩)
    rintro _ p ⟨rfl, hp⟩
    -- the stores to come are still as they were
    have hrest : ∀ store ∈ stores, Pre store ((s.replace a p).part store) := by
      intro store hs
      have hne : store ≠ a := fun h => hnd.1 (h ▸ hs)
      rw [TabState.part_replace_of_ne hne]
      exact hpre store (mem_cons_of_mem a hs)
    refine (ih hnd.2 hrest).mono ?_
    rintro _ s' ⟨rfl, hpost, hsame⟩
    refine ⟨rfl, fun store hs => ?_, fun store hs => ?_⟩
    · rcases mem_cons.1 hs with rfl | hs
      · rw [hsame store hnd.1, TabState.part_replace]
        exact hp
      · exact hpost store hs
    · rw [mem_cons, not_or] at hs
      rw [hsame store hs.2, TabState.part_replace_of_ne hs.1]

lemma wp_forStores (Pre Post : StoreName → StoreState F D → Prop)
    (ht : ∀ store p, Pre store p → wp (machine B) (fun r p' => r = .ok () ∧ Post store p') (t store) p)
    (hnd : stores.Nodup) (hpre : ∀ store ∈ stores, Pre store (s.part store)) :
    wp (TabState.machine B) (fun r s' => r = .ok () ∧
      (∀ store ∈ stores, Post store (s'.part store)) ∧
      ∀ store ∉ stores, s'.part store = s.part store)
      (forStores (fun store => onStore store (t store)) stores) s :=
  (upholds_forStores (G := fun _ _ => True) (H := fun _ _ => True) (fun _ _ _ _ _ => trivial)
    Pre Post (fun store p hp => ⟨always_of_invariant (P := fun _ => True) trivial
      (fun _ _ _ _ => trivial) (fun _ _ _ => trivial) _, ht store p hp⟩) hnd hpre).2

lemma wp_forStores_iff (ht : ∀ store p, wp (machine B) (fun r _ => r = .ok ()) (t store) p)
    (hnd : stores.Nodup) (h : store ∈ stores) {Q : Except VaultSyncError Unit → TabState F D → Prop}
    {P : StoreState F D → Prop} (hQ : ∀ s', Q (.ok ()) s' ↔ P (s'.part store)) :
    wp (TabState.machine B) Q (forStores (fun store => onStore store (t store)) stores) s ↔
      wp (machine B) (fun _ p => P p) (t store) (s.part store) := by
  induction stores generalizing s with
  | nil => cases h
  | cons a stores ih =>
    rw [nodup_cons] at hnd
    rw [forStores, wp_bind, wp_onStore]
    by_cases ha : a = store
    · subst ha
      refine wp_congr ((ht a _).mono ?_)
      rintro _ p rfl
      have hothers : wp (TabState.machine B) _
          (forStores (fun store => onStore store (t store)) stores) (s.replace a p) :=
        wp_forStores (fun _ _ => True) (fun _ _ => True)
          (fun store p _ => (ht store p).mono fun _ _ h => ⟨h, trivial⟩) hnd.2 fun _ _ => trivial
      refine wp_iff_of_ends (fun _ _ => trivial) (hothers.mono ?_)
      rintro _ s' ⟨rfl, -, hsame⟩
      rw [hQ, hsame a hnd.1, TabState.part_replace]
    · have hmem : store ∈ stores := mem_of_ne_of_mem (Ne.symm ha) h
      refine wp_iff_of_ends (fun _ _ => trivial) ((ht a _).mono ?_)
      rintro _ p rfl
      refine (ih hnd.2 hmem).trans ?_
      rw [TabState.part_replace_of_ne (Ne.symm ha)]

/-! ## The runtime -/

namespace StorageRuntime

variable (lib : PageLib F D B)

def allocatePageId (store : StoreName) : TabFn F D B (Option ℕ) := .call (.runtimeAllocate store) .ret

/-- Pages indexed but neither live nor tombstoned, as boot estimates them. -/
def estimatedOrphans (m : StoreManifest) : ℕ :=
  m.contentIndex.pageById.keys.card -
    (m.contentIndex.livePages.card + m.contentIndex.tombstonedPages.card)

def repairOrphans (m : StoreManifest) : StoreManifest :=
  if m.contentIndex.orphans = ∅ then m else (m.setIndex m.contentIndex.repairOrphans).recount

/-- A failure to write the repaired manifest is only logged. -/
def repair : PageFn F D Unit := do
  let orphans ← Prog.read fun p => p.manifest.contentIndex.orphans
  let m ← PageFn.updateManifest repairOrphans
  if orphans ≠ ∅ then
    let _ ← (PageFn.writeManifest m).attempt

/-- `StorageRuntime::new`, installed in the tab. Each manager starts at its store's
`highest_page_id`. `anyCorrupt` says whether a manifest in memory fails its checksum, as one
does once it has been updated since it was read. -/
def new (anyCorrupt : Bool) : TabFn F D B Unit := do
  let managers ← .read fun t store => PageManager.new (t.pages store).manifest.highestPageId
  let orphans ← .read fun t =>
    (StoreName.all.map fun store => estimatedOrphans (t.pages store).manifest).sum
  if anyCorrupt = true ∨ 50 < orphans then
    forStores (fun store => onStore store repair) StoreName.all
  .modify fun t => { t with runtime := some { managers := managers, queue := [] } }

def enqueue (op : StorageOp D) : TabFn F D B Unit :=
  .modify fun t =>
    { t with runtime := t.runtime.map fun rt =>
        { rt with queue := rt.queue ++ [{ op := op, priority := op.priority }] } }

/-- A failure of the store is only logged. -/
def perform : StorageOp D → TabFn F D B Unit
  | .writePage store id data => do
    let _ ← (onStore store (PageStore.writePage lib id data)).attempt
  | .tombstonePage store id => do
    let _ ← (onStore store (PageStore.tombstonePage lib id)).attempt
  | .deletePage store id => do
    let _ ← (onStore store (PageStore.deletePage lib id)).attempt
  | _ => return ()

def performAll : List (QueuedOp D) → TabFn F D B Unit
  | [] => return ()
  | q :: qs => do
    perform lib q.op
    performAll qs

def processPending : TabFn F D B Unit := do
  let ops ← .sync (fun t => { t with runtime := t.runtime.map fun rt => { rt with queue := [] } })
    fun t => .ret ((t.runtime.map fun rt => drainPending rt.queue).getD [])
  performAll lib ops

def enqueueWritePage (store : StoreName) (id : ℕ) (data : D) : TabFn F D B Unit := do
  enqueue (.writePage store id data)
  processPending lib

variable {lib} {store : StoreName} {s : TabState F D}

lemma wp_allocatePageId {Q : Except VaultSyncError (Option ℕ) → TabState F D → Prop} :
    wp (TabState.machine B) Q (allocatePageId store) s ↔
      Q (.ok (s.runtimeAllocate store).1) (s.runtimeAllocate store).2 :=
  ⟨fun h => h default trivial, fun h _ _ => h⟩

variable {rt : StorageRuntime D}

lemma wp_enqueue {σ ε : Type} {M : Machine (TabOps F B) (Tab D) ε σ} (hM : M.LawfulMemory)
    {Q : Except VaultSyncError Unit → σ → Prop} {u : σ}
    (hrt : (M.memory u).runtime = some rt) (hq : rt.queue = []) (op : StorageOp D) :
    wp M Q (do enqueue op; processPending lib) u ↔ wp M Q (perform lib op) u := by
  obtain ⟨managers, queue⟩ := rt
  obtain rfl : queue = [] := hq
  have hset : M.setMemory { M.memory u with runtime := some ⟨managers, []⟩ } u = u := by
    rw [← hrt]
    exact hM.setMemory_memory u
  have hone : performAll lib [{ op := op, priority := op.priority }] = perform lib op := by
    change perform lib op >>= (fun _ => pure ()) = perform lib op
    exact Prog.bind_pure _
  have hperform : wp M Q (do enqueue op; processPending lib) u ↔
      wp M Q (performAll lib [{ op := op, priority := op.priority }])
        (M.setMemory { M.memory u with runtime := some ⟨managers, []⟩ } u) := by
    simp only [enqueue, processPending, wp_bind]
    change wp M Q (performAll lib _) _ ↔ _
    simp only [hM.memory_setMemory, hM.setMemory_setMemory, hrt]
    rfl
  rw [hperform, hset, hone]

lemma lawfulMemory : (TabState.machine B : Machine (TabOps F B) (Tab D) _ _).LawfulMemory where
  memory_setMemory _ _ := rfl
  setMemory_setMemory _ _ _ := rfl
  setMemory_memory _ := rfl

end StorageRuntime

def openStores (lib : PageLib F D B) : TabFn F D B Unit :=
  forStores (fun store => onStore store (PageStore.openStore lib)) StoreName.all

/-- A new tab on the same directories, without a runtime so far. -/
def reopen (lib : PageLib F D B) : TabFn F D B Unit := do
  openStores lib
  .modify fun t => { t with runtime := none }

end VaultSync.Opfs
