import VaultSync.Async.Embedding
import VaultSync.Async.Schedule
import VaultSync.Opfs.MaintenanceSpec
import VaultSync.Opfs.Symbolic

/-! Calls on clones of one page store that interleave at their awaits. Some change the manifest
under its mutex and write the copy later, others copy it, write it and then replace it. -/

namespace VaultSync.Opfs

open Async List StoreState

variable {F D B α : Type}

/-! ## A page store with its write lock -/

/-- `lockManifest` awaits the lock and then loads the pending count; `release` replaces the manifest
in memory, if there is one, and drops the guard. -/
inductive SharedOp (F : Type) where
  | file (op : FileOp F)
  | lockManifest
  | release (m : Option StoreManifest)

def SharedOp.Ans : SharedOp F → Type
  | file op => op.Ans
  | lockManifest => ℕ
  | release _ => Unit

abbrev SharedOps (F : Type) : Signature := ⟨SharedOp F, SharedOp.Ans⟩

abbrev SharedFn (F D : Type) := Prog (SharedOps F) (PageStore D) VaultSyncError

structure SharedStore (F D : Type) where
  store : StoreState F D
  locked : Bool

namespace SharedStore

def handle : (op : SharedOp F) → Env B → SharedStore F D → op.Ans × SharedStore F D
  | .file op, e, s =>
    ((StoreState.handle op e s.store).1, { s with store := (StoreState.handle op e s.store).2 })
  | .lockManifest, _, s => (s.store.memory.cachedPendingCount, { s with locked := true })
  | .release m, _, s => ((), ⟨(m.map s.store.setManifest).getD s.store, false⟩)

def Allow (s : SharedStore F D) : SharedOp F → Prop
  | .lockManifest => s.locked = false
  | _ => True

instance (s : SharedStore F D) : (op : SharedOp F) → Decidable (s.Allow op)
  | .lockManifest => inferInstanceAs (Decidable (s.locked = false))
  | .file _ => inferInstanceAs (Decidable True)
  | .release _ => inferInstanceAs (Decidable True)

def machine (B : Type) : Machine (SharedOps F) (PageStore D) (Env B) (SharedStore F D) where
  handle := handle
  allow op _ s := s.Allow op
  memory s := s.store.memory
  setMemory p s := { s with store := { s.store with memory := p } }

instance (op : SharedOp F) (e : Env B) (s : SharedStore F D) :
    Decidable ((machine B).allow op e s) := inferInstanceAs (Decidable (s.Allow op))

end SharedStore

def shared : Embedding (FileOps F) (PageStore D) (SharedOps F) (PageStore D) where
  op := .file
  ans _ x := x
  get := id
  put p _ := p

/-! ## The calls -/

namespace SharedFn

def persistManifest (m : StoreManifest) : SharedFn F D Unit := do
  let pending ← .call .lockManifest .ret
  let m := { m with pendingCount := pending }
  match ← ((PageFn.writeManifest m).embed shared).attempt with
  | .ok () => .call (.release (some m)) .ret
  | .error e => do
    .call (.release none) .ret
    .fail e

def setCurrentPage (id : ℕ) : SharedFn F D Unit := do
  let m ← .read fun p => { p.manifest with currentPage := id }
  persistManifest m

def setManifestMeta (lastSequence : ℕ) : SharedFn F D Unit := do
  let m ← .read fun p => { p.manifest with lastSequence := lastSequence }
  persistManifest m

variable {s : SharedStore F D} {Q : Except VaultSyncError Unit → SharedStore F D → Prop}

end SharedFn

inductive StoreCall (D : Type) where
  | allocatePageId
  | writePage (id : ℕ) (data : D)
  | tombstonePage (id : ℕ)
  | setCurrentPage (id : ℕ)
  | setManifestMeta (lastSequence : ℕ)

namespace StoreCall

variable (lib : PageLib F D B)

def prog : StoreCall D → SharedFn F D (Option ℕ)
  | allocatePageId => some <$> PageStore.allocatePageId.embed shared
  | writePage id data => (fun _ => none) <$> (PageStore.writePage lib id data).embed shared
  | tombstonePage id => (fun _ => none) <$> (PageStore.tombstonePage lib id).embed shared
  | setCurrentPage id => (fun _ => none) <$> SharedFn.setCurrentPage id
  | setManifestMeta n => (fun _ => none) <$> SharedFn.setManifestMeta n

def InPlace : StoreCall D → Prop
  | writePage _ data => ¬ PageStore.Oversized lib data
  | _ => True

end StoreCall

abbrev StoreSession (F D : Type) :=
  Session (SharedOps F) (PageStore D) VaultSyncError (SharedStore F D) (StoreCall D) (Option ℕ)

/-! ## The content index under these calls -/

namespace ContentIndex

structure Keyed (ci : ContentIndex) : Prop where
  byId : ∀ {id key entry}, ci.pageById.lookup id = some key → ci.entries key = some entry →
    entry.pageId = id
  bySequence : ∀ {n entry}, ci.entries (.sequence n) = some entry → entry.pageId = n

variable {ci : ContentIndex}

lemma Keyed.track (h : ci.Keyed) (id : ℕ) : (ci.track id).Keyed where
  byId {a key entry} hlookup hentry := by
    simp only [ContentIndex.track, ContentIndex.trackAs] at hlookup hentry
    split at hlookup
    · exact h.byId hlookup hentry
    · by_cases ha : a = id
      · subst ha
        rw [Finmap.lookup_insert] at hlookup
        cases hlookup
        exact h.bySequence hentry
      · rw [Finmap.lookup_insert_of_ne _ ha] at hlookup
        exact h.byId hlookup hentry
  bySequence := h.bySequence

lemma Keyed.eraseId (h : ci.Keyed) (id : ℕ) :
    ({ ci with pageById := ci.pageById.erase id } : ContentIndex).Keyed where
  byId {a key entry} hlookup hentry := by
    by_cases ha : a = id
    · subst ha
      rw [Finmap.lookup_erase] at hlookup
      cases hlookup
    · rw [Finmap.lookup_erase_ne ha] at hlookup
      exact h.byId hlookup hentry
  bySequence := h.bySequence

lemma Keyed.remove (h : ci.Keyed) (key : IndexKey) : (ci.remove key).Keyed := by
  unfold ContentIndex.remove
  split
  · exact h
  · rename_i entry _
    have hentries : ∀ {key' entry'}, Function.update ci.entries key none key' = some entry' →
        ci.entries key' = some entry' := by
      intro key' entry' he
      by_cases hk : key' = key
      · simp [hk] at he
      · rwa [Function.update_of_ne hk] at he
    exact ⟨fun hl he => (h.eraseId entry.pageId).byId hl (hentries he),
      fun he => h.bySequence (hentries he)⟩

lemma Keyed.removeByPageId (h : ci.Keyed) (id : ℕ) : (ci.removeByPageId id).Keyed := by
  have hkey : (ci.removeKeyOf id).Keyed := by
    unfold removeKeyOf
    split
    · exact (h.eraseId id).remove _
    · exact h
  exact ⟨hkey.byId, hkey.bySequence⟩

lemma Keyed.removeByPageId_livePages (h : ci.Keyed) (id : ℕ) :
    (ci.removeByPageId id).livePages = ci.livePages.erase id := by
  have hkey : (ci.removeKeyOf id).livePages.erase id = ci.livePages.erase id := by
    unfold removeKeyOf
    split
    · rename_i key hlookup
      unfold ContentIndex.remove
      split
      · rfl
      · rename_i entry hentry
        rw [h.byId hlookup hentry]
        exact Finset.erase_idem
    · rfl
  exact hkey

end ContentIndex

/-! ## What the calls do to the manifest -/

namespace StoreCall

def currentSet : StoreCall D × Except VaultSyncError (Option ℕ) → Option ℕ
  | (setCurrentPage id, .ok _) => some id
  | _ => none

def lastCurrent (returned : List (StoreCall D × Except VaultSyncError (Option ℕ))) : Option ℕ :=
  returned.findSome? currentSet

/-- A step of the call `c`, which returns `r` in it if it returns. -/
structure Effect (c : StoreCall D) (r : Option (Except VaultSyncError (Option ℕ)))
    (m m' : StoreManifest) : Prop where
  keyed : m.contentIndex.Keyed → m'.contentIndex.Keyed
  live : m.contentIndex.Keyed → ∀ id ∈ m.contentIndex.livePages,
    id ∈ m'.contentIndex.livePages ∨ c = tombstonePage id
  current : m'.currentPage = ((r.map fun r => (c, r)).bind currentSet).getD m.currentPage
  written : ∀ id data a, c = writePage id data → r = some (.ok a) → id ∈ m'.contentIndex.livePages

def inHand : SharedFn F D α → Bool
  | .call (.file (.writeManifest _)) _ => true
  | .call .lockManifest _ => true
  | .call (.release _) _ => true
  | _ => false

/-- The manifest in memory and the manifest file, which agree when no manifest is in hand. -/
def sections (F D : Type) : Sections (SharedOps F) (PageStore D) VaultSyncError (SharedStore F D)
    (StoreCall D) (Option ℕ) (StoreManifest × ManifestFile) where
  view s := (s.store.memory.manifest, s.store.dir.manifest)
  critical := inHand
  quiet v := v.2 = .valid v.1
  effect c r v v' := Effect c r v.1 v'.1
  not_critical_of_result t r h := by
    cases t with
    | ret a => rfl
    | fail e => rfl
    | call op k => cases h
    | sync f k => cases h

variable {c : StoreCall D} {m : StoreManifest} {f : ManifestFile} {v : StoreManifest × ManifestFile}
  {a : Option ℕ}

lemma effect_refl : Effect c none m m where
  keyed h := h
  live _ _ h := .inl h
  current := rfl
  written _ _ _ _ hr := by cases hr

lemma guarded_writeManifest {k : Except FileError Unit → SharedFn F D (Option ℕ)}
    (hk : k (.ok ()) = .ret a) (h : Effect c (some (.ok a)) m m) :
    (sections F D).Guarded (SharedStore.machine B) c (.call (.file (.writeManifest m)) k) (m, f) := by
  rintro e s - ⟨hview, -⟩
  have hmemory : s.store.memory.manifest = m := congrArg Prod.fst (hview rfl)
  change (sections F D).Does c _ (k (.ok ())) _ (s.store.memory.manifest, .valid m) ∧
    (sections F D).Guarded (SharedStore.machine B) c (k (.ok ())) _
  rw [hk, hmemory]
  refine ⟨⟨?_, fun hc => (nomatch hc), fun _ _ => rfl⟩, trivial⟩
  change Effect c (some (.ok a)) s.store.memory.manifest m
  rw [hmemory]
  exact h

structure Plain (B : Type) (c : StoreCall D) (t : SharedFn F D (Option ℕ)) : Prop where
  not_inHand : inHand t = false
  effect : ∀ m, Effect c t.result? m m
  guarded : ∀ v, (sections F D).Guarded (SharedStore.machine B) c t v

lemma plain_fail (e : VaultSyncError) : Plain B c (.fail e : SharedFn F D (Option ℕ)) where
  not_inHand := rfl
  effect m := by
    refine ⟨fun h => h, fun _ _ h => .inl h, ?_, fun _ _ _ _ hr => by cases hr⟩
    cases c <;> rfl
  guarded _ := trivial

lemma plain_sync {g : PageStore D → PageStore D} {k : PageStore D → SharedFn F D (Option ℕ)}
    (hg : ∀ p, (g p).manifest = p.manifest) (hk : ∀ p, Plain B c (k p)) :
    Plain B c (.sync g k) where
  not_inHand := rfl
  effect _ := effect_refl
  guarded _ s _ := by
    have hview : (sections F D).view ((SharedStore.machine B).setMemory (g s.store.memory) s) =
        (sections F D).view s := congrArg (·, s.store.dir.manifest) (hg s.store.memory)
    have hp := hk s.store.memory
    exact ⟨⟨hview ▸ hp.effect _, fun _ _ => hview, fun h => nomatch h⟩, hp.guarded _⟩

lemma plain_file {op : FileOp F} {k : op.Ans → SharedFn F D (Option ℕ)}
    (hop : inHand (.call (.file op) k : SharedFn F D (Option ℕ)) = false)
    (hsame : ∀ (e : Env B) (s : StoreState F D),
      (s.handle op e).2.memory.manifest = s.memory.manifest ∧
        (s.handle op e).2.dir.manifest = s.dir.manifest)
    (hk : ∀ x, Plain B c (k x)) : Plain B c (.call (.file op) k) where
  not_inHand := hop
  effect _ := effect_refl
  guarded _ e s _ _ := by
    have hview : (sections F D).view ((SharedStore.machine B).handle (.file op) e s).2 =
        (sections F D).view s := Prod.ext (hsame e s.store).1 (hsame e s.store).2
    have hp := hk (s.store.handle op e).1
    exact ⟨⟨hview ▸ hp.effect _, fun _ _ => hview, fun h => nomatch hop.symm.trans h⟩, hp.guarded _⟩

variable {g : StoreManifest → StoreManifest}

lemma plain_commitManifest (h : ∀ m, Effect c none m (g m))
    (h' : ∀ m, Effect c (some (.ok a)) (g m) (g m)) :
    Plain B c ((fun _ => a) <$> (PageStore.commitManifest g : PageFn F D Unit).embed shared) where
  not_inHand := rfl
  effect _ := effect_refl
  guarded _ _ _ :=
    ⟨⟨h _, fun _ hc => (nomatch hc), fun hc => nomatch hc⟩, guarded_writeManifest rfl (h' _)⟩

lemma plain_persistManifest
    (h : ∀ m n, Effect c (some (.ok none)) m { g m with pendingCount := n }) :
    Plain B c ((fun _ => none) <$> (do
      let m ← .read fun p => g p.manifest
      SharedFn.persistManifest m : SharedFn F D Unit)) where
  not_inHand := rfl
  effect _ := effect_refl
  guarded _ s _ := by
    refine ⟨⟨effect_refl, fun _ hc => (nomatch hc), fun hc => nomatch hc⟩, ?_⟩
    rintro e1 s1 - ⟨hs1, -⟩
    refine ⟨⟨effect_refl, fun hc => (nomatch hc), fun _ hc => nomatch hc⟩, ?_⟩
    rintro e2 s2 - ⟨hs2, -⟩
    refine ⟨⟨effect_refl, fun hc => (nomatch hc), fun _ hc => nomatch hc⟩, ?_⟩
    rintro e3 s3 - ⟨hs3, -⟩
    -- the manifest in memory is still the one that was copied
    have hmemory : s3.store.memory.manifest = s.store.memory.manifest := by
      have h1 := congrArg Prod.fst (hs1 rfl)
      have h2 := congrArg Prod.fst (hs2 rfl)
      have h3 := congrArg Prod.fst (hs3 rfl)
      exact h3.trans (h2.trans h1)
    have hfile := congrArg Prod.snd (hs3 rfl)
    refine ⟨⟨?_, fun hc => (nomatch hc), fun _ _ => hfile⟩, trivial⟩
    change Effect c (some (.ok none)) s3.store.memory.manifest _
    rw [hmemory]
    exact h _ _

/-! ## One call -/

variable {lib : PageLib F D B}

lemma plain_writeInPlace (id : ℕ) (data : D) :
    Plain B (writePage id data)
      ((fun _ => none) <$> (PageStore.writeInPlace lib id data).embed shared) := by
  have hcommit : Plain B (writePage id data)
      ((fun _ => none) <$> (PageStore.commitPageWrite id none : PageFn F D Unit).embed shared) := by
    refine plain_commitManifest (fun m => ⟨(·.track id), ?_, rfl, fun _ _ _ _ hr => by cases hr⟩)
      fun m => ⟨fun h => h, fun _ _ h => .inl h, rfl, ?_⟩
    · exact fun _ a ha => .inl (Finset.mem_insert_of_mem ha)
    · rintro _ _ _ ⟨⟩ -
      exact Finset.mem_insert_self _ _
  have hwrite : Plain B (writePage id data) ((fun _ => none) <$> (do
      PageStore.writePageRaw lib id data
      PageStore.commitPageWrite id none : PageFn F D Unit).embed shared) := by
    refine plain_file rfl (fun _ _ => ⟨rfl, rfl⟩) fun x => ?_
    cases x with
    | error e => exact plain_fail _
    | ok _ => exact plain_sync (fun _ => rfl) fun _ => hcommit
  unfold PageStore.writeInPlace
  split
  · exact plain_sync (fun _ => rfl) fun _ => hwrite
  · exact hwrite

lemma plain_tombstonePage (id : ℕ) :
    Plain B (tombstonePage id)
      ((fun _ => none) <$> (PageStore.tombstonePage lib id).embed shared) := by
  have hremove : Plain B (tombstonePage id : StoreCall D)
      ((fun _ => none) <$> (PageStore.removeFromManifestIndex id : PageFn F D Unit).embed shared) := by
    refine plain_commitManifest
      (fun m => ⟨(·.removeByPageId id), ?_, rfl, fun _ _ _ _ hr => by cases hr⟩)
      fun m => ⟨fun h => h, fun _ _ h => .inl h, rfl, fun _ _ _ hc => by cases hc⟩
    intro hk a ha
    by_cases hid : a = id
    · exact .inr (hid ▸ rfl)
    · refine .inl ((hk.removeByPageId_livePages id).symm ▸ Finset.mem_erase.2 ⟨hid, ha⟩)
  refine plain_file rfl (fun _ _ => ⟨rfl, rfl⟩) fun x => ?_
  cases x with
  | error e =>
    cases e with
    | notFound | notReadable => exact hremove
    | other msg => exact plain_fail _
  | ok file =>
    have htombstone : ∀ r, Plain B (tombstonePage id : StoreCall D) ((fun _ => none) <$> (do
        Prog.ofExcept r >>= fun data => PageFn.writeFile id (lib.encodeV3Page data 0x02)
        PageFn.setCache (·.remove lib.len id)
        PageStore.removeFromManifestIndex id : PageFn F D Unit).embed shared) := by
      intro r
      cases r with
      | error e => exact plain_fail _
      | ok data =>
        refine plain_file rfl (fun _ _ => ⟨rfl, rfl⟩) fun x => ?_
        cases x with
        | error e => exact plain_fail _
        | ok _ => exact plain_sync (fun _ => rfl) fun _ => hremove
    exact htombstone (lib.extractPageData file)

lemma plain_prog (hc : InPlace lib c) : Plain B c (prog lib c) := by
  cases c with
  | allocatePageId =>
    refine ⟨rfl, fun _ => effect_refl, fun _ _ _ _ _ =>
      ⟨⟨⟨(·.track _), ?_, rfl, fun _ _ _ _ hr => by cases hr⟩, fun _ hc => (nomatch hc),
        fun hc => nomatch hc⟩, guarded_writeManifest rfl
          ⟨fun h => h, fun _ _ h => .inl h, rfl, fun _ _ _ hc => by cases hc⟩⟩⟩
    exact fun _ a ha => .inl (Finset.mem_insert_of_mem ha)
  | writePage id data =>
    have hplace : PageStore.writePage lib id data = PageStore.writeInPlace lib id data := if_neg hc
    rw [prog, hplace]
    exact plain_writeInPlace id data
  | tombstonePage id => exact plain_tombstonePage id
  | setCurrentPage id =>
    refine plain_persistManifest (g := fun m => { m with currentPage := id }) fun m n => ?_
    exact ⟨fun h => h, fun _ _ h => .inl h, rfl, fun _ _ _ hc => by cases hc⟩
  | setManifestMeta n =>
    refine plain_persistManifest (g := fun m => { m with lastSequence := n }) fun m n => ?_
    exact ⟨fun h => h, fun _ _ h => .inl h, rfl, fun _ _ _ hc => by cases hc⟩

/-! ## All calls -/

structure Ledger (started : List (StoreCall D))
    (returned : List (StoreCall D × Except VaultSyncError (Option ℕ))) (m : StoreManifest) :
    Prop where
  keyed : m.contentIndex.Keyed
  written : ∀ id data a, (writePage id data, .ok a) ∈ returned → tombstonePage id ∉ started →
    id ∈ m.contentIndex.livePages
  current : ∀ id, lastCurrent returned = some id → m.currentPage = id

variable {started : List (StoreCall D)}
  {returned : List (StoreCall D × Except VaultSyncError (Option ℕ))} {m' : StoreManifest}
  {r : Option (Except VaultSyncError (Option ℕ))}

lemma Ledger.start (h : Ledger started returned m) (c : StoreCall D) :
    Ledger (c :: started) returned m where
  keyed := h.keyed
  written id data a hr ht := h.written id data a hr fun hs => ht (mem_cons_of_mem _ hs)
  current := h.current

lemma Ledger.step (h : Ledger started returned m) (hc : c ∈ started) (he : Effect c r m m') :
    Ledger started ((r.map fun r => (c, r)).toList ++ returned) m' where
  keyed := he.keyed h.keyed
  written id data a hr ht := by
    rcases mem_append.1 hr with hr | hr
    · obtain ⟨r, rfl⟩ : ∃ r', r = some r' := by
        cases r with
        | none => cases hr
        | some r => exact ⟨r, rfl⟩
      cases mem_singleton.1 hr
      exact he.written id data a rfl rfl
    · refine (he.live h.keyed id (h.written id data a hr ht)).resolve_right ?_
      rintro rfl
      exact ht hc
  current id hid := by
    rw [he.current]
    cases r with
    | none => exact h.current id hid
    | some r =>
      simp only [Option.map_some, Option.bind_some, Option.toList_some, singleton_append,
        lastCurrent, List.findSome?_cons] at hid ⊢
      cases hset : currentSet (c, r) with
      | none =>
        rw [hset] at hid
        exact h.current id hid
      | some id' =>
        rw [hset] at hid
        exact Option.some.inj hid

variable (lib) in
def run (schedule : List (Turn (StoreCall D) (Env B))) (s : StoreState F D) : StoreSession F D :=
  Session.run (SharedStore.machine B) (prog lib) schedule (.starting ⟨s, false⟩)

end StoreCall

def StoreState.InBoth (s : StoreState F D) (P : StoreManifest → Prop) : Prop :=
  P s.memory.manifest ∧ ∃ m, s.dir.manifest = .valid m ∧ P m

namespace StoreCall

/-- No update is lost: pages that were written and not tombstoned are live, and the current page is
the one set last. -/
structure Kept (p : StoreSession F D) : Prop where
  written : ∀ id data a, (writePage id data, .ok a) ∈ p.returned → tombstonePage id ∉ p.started →
    p.state.store.InBoth fun m => id ∈ m.contentIndex.livePages
  current : ∀ id, lastCurrent p.returned = some id →
    p.state.store.InBoth fun m => m.currentPage = id

/-- If no two calls have a manifest in hand at the same time, then no update is lost once all calls
have returned. -/
theorem kept_of_exclusive (lib : PageLib F D B) (s : StoreState F D)
    (hfile : s.dir.manifest = .valid s.memory.manifest)
    (hkeyed : s.memory.manifest.contentIndex.Keyed) (schedule : List (Turn (StoreCall D) (Env B)))
    (hplace : ∀ c, .start c ∈ schedule → InPlace lib c)
    (hx : ∀ l, l <+: schedule → (sections F D).Exclusive (run lib l s))
    (hdone : (run lib schedule s).tasks = []) : Kept (run lib schedule s) := by
  have hstart : (sections F D).Holds (SharedStore.machine B)
      (fun started returned v => Ledger started returned v.1) (.starting ⟨s, false⟩) := by
    have hledger : Ledger ([] : List (StoreCall D)) [] s.memory.manifest :=
      ⟨hkeyed, fun _ _ _ hr => (nomatch hr), fun _ hid => nomatch hid⟩
    exact ⟨hledger, fun _ => hfile, fun _ ht => nomatch ht⟩
  have hend : (sections F D).Holds (SharedStore.machine B)
      (fun started returned v => Ledger started returned v.1) (run lib schedule s) := by
    refine Sections.holds_run (fun c _ _ _ h => h.start c) (fun _ _ _ _ _ _ hc he h => h.step hc he)
      (fun c hc => ?_) hx hstart
    have hp := plain_prog (hplace c hc)
    exact ⟨hp.not_inHand, hp.guarded⟩
  have hquiet : (run lib schedule s).state.store.dir.manifest =
      .valid (run lib schedule s).state.store.memory.manifest := by
    refine hend.quiet fun t ht => ?_
    rw [hdone] at ht
    cases ht
  constructor
  · intro id data a hr ht
    have hlive := hend.inv.written id data a hr ht
    exact ⟨hlive, _, hquiet, hlive⟩
  · intro id hid
    have hcurrent := hend.inv.current id hid
    exact ⟨hcurrent, _, hquiet, hcurrent⟩

/-! ## Schedules -/

def go (i : ℕ) : Turn (StoreCall Payload) (Env Unit) := .move i default

def exclusiveSchedule : List (Turn (StoreCall Payload) (Env Unit)) :=
  [.start (writePage 100 (.value 1)), .start (setCurrentPage 100), go 0, go 1, go 1, go 1, go 1,
    go 0, go 0, go 0]

theorem kept_exclusiveSchedule :
    (run symbolic exclusiveSchedule created).tasks = [] ∧
      Kept (run symbolic exclusiveSchedule StoreState.created) := by
  have hdone : (run symbolic exclusiveSchedule StoreState.created).tasks = [] := rfl
  have hplace : ∀ c, .start c ∈ exclusiveSchedule → InPlace symbolic c := by
    intro c hc
    simp only [exclusiveSchedule, go, mem_cons, Turn.start.injEq, reduceCtorEq, not_mem_nil,
      or_false] at hc
    rcases hc with rfl | rfl
    · exact (by decide : ¬ PageStore.Oversized symbolic (.value 1))
    · trivial
  have hx : ∀ l, l <+: exclusiveSchedule →
      (sections _ _).Exclusive (run symbolic l created) := by
    intro l hl
    have hall : ∀ l ∈ exclusiveSchedule.inits,
        (sections _ _).Exclusive (run symbolic l created) := by decide +kernel
    exact hall l ((mem_inits _ _).2 hl)
  exact ⟨hdone, kept_of_exclusive symbolic created rfl ⟨nofun, nofun⟩
    exclusiveSchedule hplace hx hdone⟩

def staleCopy : List (Turn (StoreCall Payload) (Env Unit)) :=
  [.start allocatePageId, go 0, go 0, .start (writePage 100 (.value 1)), go 0, go 0, go 0, go 0,
    .start (setCurrentPage 100), go 0, go 0,
    .start allocatePageId, go 1, go 1, .start (writePage 101 (.value 2)), go 1, go 1, go 1, go 1,
    go 0, go 0]

def olderLast : List (Turn (StoreCall Payload) (Env Unit)) :=
  [.start (writePage 100 (.value 1)), .start (writePage 101 (.value 2)), go 0, go 0, go 0, go 1, go 1,
    go 1, go 1, go 0]

def staleCurrent : List (Turn (StoreCall Payload) (Env Unit)) :=
  [.start (setCurrentPage 100), go 0, go 0, .start (setManifestMeta 7), go 1, go 1, go 0, go 0, go 0,
    go 0, go 0]

def resultsOf (schedule : List (Turn (StoreCall Payload) (Env Unit))) :
    Option (List (StoreCall Payload × Except VaultSyncError (Option ℕ))) :=
  let p := run symbolic schedule created
  if p.tasks.isEmpty then some p.returned else none

def leaves (get : StoreManifest → α) (schedule : List (Turn (StoreCall Payload) (Env Unit))) :
    α × Option α :=
  let s := (run symbolic schedule created).state.store
  (get s.memory.manifest, s.dir.manifest.verified.map get)

/-- Page 101 is lost in memory and on disk, or on disk only, and page 100 is not current. -/
theorem manifest_updates_lost :
    resultsOf staleCopy = some [(setCurrentPage 100, .ok none), (writePage 101 (.value 2), .ok none),
        (allocatePageId, .ok (some 101)), (writePage 100 (.value 1), .ok none),
        (allocatePageId, .ok (some 100))] ∧
      leaves (fun m => ascending m.contentIndex.livePages) staleCopy = ([100], some [100]) ∧
      resultsOf olderLast = some [(writePage 100 (.value 1), .ok none),
        (writePage 101 (.value 2), .ok none)] ∧
      leaves (fun m => ascending m.contentIndex.livePages) olderLast = ([100, 101], some [100]) ∧
      resultsOf staleCurrent = some [(setManifestMeta 7, .ok none), (setCurrentPage 100, .ok none)] ∧
      leaves StoreManifest.currentPage staleCurrent = (0, some 0) :=
  ⟨rfl, rfl, rfl, rfl, rfl, rfl⟩

end StoreCall

end VaultSync.Opfs
