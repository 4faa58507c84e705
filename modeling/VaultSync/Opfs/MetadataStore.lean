import VaultSync.Opfs.MaintenanceSpec
import VaultSync.Opfs.Symbolic

/-! The metadata store: one value in the current page of a page store, under maintenance. -/

namespace VaultSync.Opfs

open Async StoreState PageFn PageStore

variable {F D B T : Type}

structure Codec (D T : Type) where
  encode : T → D
  decode : D → Option T
  decode_encode : ∀ v, decode (encode v) = some v

namespace MetadataStore

section functions

variable (lib : PageLib F D B) (codec : Codec D T)

/-- The old page is tombstoned last, and a failure of that is ignored. -/
def write (v : T) : PageFn F D Unit := do
  let (newPage, oldPage) ← allocateAndRotate
  writePageRaw lib newPage (codec.encode v)
  if 0 < oldPage ∧ oldPage ≠ newPage then
    let _ ← (tombstonePageFileOnly lib oldPage).attempt

def read : PageFn F D (Option T) := do
  let current ← currentPage
  if current = 0 then return none
  match ← (readPage lib current).attempt with
  | .ok (some data) => return codec.decode data
  | _ => return none

inductive Maintenance where
  | cleanup
  | reopen

def Maintenance.prog : Maintenance → PageFn F D Unit
  | cleanup => do
    let _ ← cleanupTombstonedPages lib
  | reopen => openStore lib

inductive Event (T : Type) where
  | write (v : T)
  | maintain (m : Maintenance)

def Event.prog : Event T → PageFn F D Unit
  | write v => MetadataStore.write lib codec v
  | maintain m => m.prog lib

variable (s : StoreState F D)

def after (t : PageFn F D Unit) (envs : List (Env B)) : StoreState F D :=
  (Async.run (machine B) t envs s).2

def run (events : List (Event T × List (Env B))) : StoreState F D :=
  events.foldl (fun s e => after s (e.1.prog lib codec) e.2) s

def maintain (events : List (Maintenance × List (Env B))) : StoreState F D :=
  events.foldl (fun s e => after s (e.1.prog lib) e.2) s

def readBack (envs : List (Env B)) : Except VaultSyncError (Option T) :=
  (Async.run (machine B) (read lib codec) envs s).1

def Clean : Prop := ∀ id ∈ s.dir.pages.keys, lib.hasLiveFile s.dir.pages id

instance : Decidable (Clean lib s) := Finset.decidableDforallFinset

def CleanupsIdle : StoreState F D → List (Maintenance × List (Env B)) → Prop
  | _, [] => True
  | s, (.cleanup, envs) :: rest =>
    Clean lib s ∧ CleanupsIdle (after s (Maintenance.cleanup.prog lib) envs) rest
  | s, (.reopen, envs) :: rest => CleanupsIdle (after s (Maintenance.reopen.prog lib) envs) rest

end functions

/-! ## The current page holds the value -/

variable {lib : PageLib F D B} {codec : Codec D T} {s : StoreState F D} {v : T}

structure Stored (lib : PageLib F D B) (codec : Codec D T) (v : T) (s : StoreState F D) : Prop
    extends Sound lib s where
  current_pos : 0 < s.memory.manifest.currentPage
  file : s.dir.pages.lookup s.memory.manifest.currentPage =
    some (lib.encodeV3Page (codec.encode v) 0)
  cached : ∀ data, s.memory.pageCache.entries.lookup s.memory.manifest.currentPage = some data →
    data = codec.encode v

structure Lost (lib : PageLib F D B) (s : StoreState F D) : Prop extends Sound lib s where
  current : s.memory.manifest.currentPage = 0

lemma nextPageId_pos (m : StoreManifest) : 0 < m.nextPageId := by
  unfold StoreManifest.nextPageId
  split <;> omega

lemma stored_writtenRaw (hs : Sound lib s) :
    Stored lib codec v
      (s.rotated.writtenRaw lib s.memory.manifest.nextPageId (codec.encode v)) where
  toSound := ((hs.persist _).handOut _).writtenRaw _ _
  current_pos := nextPageId_pos s.memory.manifest
  file := Finmap.lookup_insert _
  cached data hdata := by
    have hself : (s.memory.pageCache.insert lib.len s.memory.manifest.nextPageId
        (codec.encode v)).entries.lookup s.memory.manifest.nextPageId = some (codec.encode v) :=
      PageCache.lookup_insert_self
    exact Option.some.inj (hdata.symm.trans hself)

section

variable {id : ℕ} (h : Stored lib codec v s) (hne : id ≠ s.memory.manifest.currentPage)

include h hne

lemma Stored.tombstone_other (data : D) :
    Stored lib codec v
      ((s.mapCache (·.remove lib.len id)).putFile id (lib.encodeV3Page data 0x02)) where
  toSound := (h.toSound.mapCache _).putFile _ _ (.inr rfl)
  current_pos := h.current_pos
  file := (Finmap.lookup_insert_of_ne _ hne.symm).trans h.file
  cached data hdata := h.cached data ((PageCache.lookup_remove_of_ne hne.symm).symm.trans hdata)

lemma Stored.forget_other : Stored lib codec v (s.mapCache (·.remove lib.len id)) where
  toSound := h.toSound.mapCache _
  current_pos := h.current_pos
  file := h.file
  cached data hdata := h.cached data ((PageCache.lookup_remove_of_ne hne.symm).symm.trans hdata)

lemma wp_tombstone_other :
    wp (machine B) (fun _ => Stored lib codec v) (tombstonePageFileOnly lib id) s := by
  by_cases hid : id ∈ s.dir.pages
  · rcases h.formatted.mem_cases hid with ⟨data, hf⟩ | ⟨data, hf⟩
    · rw [wp_tombstonePageFileOnly hf]
      exact h.tombstone_other hne data
    · rw [wp_tombstonePageFileOnly hf]
      exact h.tombstone_other hne data
  · rw [wp_tombstonePageFileOnly_of_missing hid]
    exact h.forget_other hne

end

lemma wp_write (hs : Sound lib s) (v : T) :
    wp (machine B) (fun _ => Stored lib codec v) (write lib codec v) s := by
  have hnew : Stored lib codec v
      (s.rotated.writtenRaw lib s.memory.manifest.nextPageId (codec.encode v)) :=
    stored_writtenRaw hs
  simp only [write, wp_bind, wp_allocateAndRotate, wp_writePageRaw, wp_ite, wp_attempt]
  refine ⟨fun hold => ?_, fun _ => hnew⟩
  exact (wp_tombstone_other hnew hold.2).mono fun _ _ h => h

lemma wp_cleanup (hs : Sound lib s) :
    wp (machine B) (fun _ s' => Clean lib s ∧ s' = s ∨ ¬ Clean lib s ∧ Lost lib s')
      (Maintenance.cleanup.prog lib) s := by
  rw [Maintenance.prog, wp_bind]
  refine wp_cleanupTombstonedPages hs.formatted (fun hc => .inl ⟨hc, rfl⟩) ?_
  exact fun n dead ids hc _ _ => .inr ⟨hc, (hs.dropFiles dead).persist _, rfl⟩

lemma wp_reopen (hs : Sound lib s) :
    wp (machine B) (fun _ s' => s' = { s with memory := opened s.memory.manifest })
      (Maintenance.reopen.prog lib) s := by
  rw [Maintenance.prog, wp_openStore_of_valid hs.manifest]

lemma Stored.opened (h : Stored lib codec v s) :
    Stored lib codec v { s with memory := opened s.memory.manifest } where
  toSound := h.toSound.opened
  current_pos := h.current_pos
  file := h.file
  cached _ hdata := by cases hdata

lemma Lost.opened (h : Lost lib s) : Lost lib { s with memory := opened s.memory.manifest } :=
  ⟨h.toSound.opened, h.current⟩

lemma wp_maintain {P : StoreState F D → Prop} (hs : Sound lib s) (h : P s)
    (hlost : ∀ s', Lost lib s' → P s') (hopened : P { s with memory := opened s.memory.manifest })
    (m : Maintenance) : wp (machine B) (fun _ => P) (m.prog lib) s := by
  cases m with
  | cleanup =>
    refine (wp_cleanup hs).mono fun _ s' hs' => ?_
    rcases hs' with ⟨-, rfl⟩ | ⟨-, hs'⟩
    · exact h
    · exact hlost s' hs'
  | reopen => exact (wp_reopen hs).mono fun _ _ he => he ▸ hopened

/-! ## What is read back -/

lemma wp_read_stored (h : Stored lib codec v s) :
    wp (machine B) (fun r _ => r = .ok (some v)) (read lib codec) s := by
  have hpos : ¬ s.memory.manifest.currentPage = 0 := Nat.pos_iff_ne_zero.1 h.current_pos
  simp only [read, wp_bind, wp_currentPage, h.manifest, ManifestFile.verified, Option.map_some,
    Option.getD_some, hpos, if_false, wp_attempt]
  rcases hcache : s.memory.pageCache.entries.lookup s.memory.manifest.currentPage with _ | data
  · rw [wp_readPage_uncached hcache, wp_readUncached_of_live h.file]
    exact congrArg Except.ok (codec.decode_encode v)
  · rw [wp_readPage_cached hcache, h.cached data hcache]
    exact congrArg Except.ok (codec.decode_encode v)

lemma wp_read_lost (h : Lost lib s) :
    wp (machine B) (fun r _ => r = .ok none) (read lib codec) s := by
  simp [read, wp_bind, h.manifest, ManifestFile.verified, h.current]

lemma readBack_stored (h : Stored lib codec v s) (envs : List (Env B)) :
    readBack lib codec s envs = .ok (some v) := run_of_wp (wp_read_stored h) envs

lemma readBack_lost (h : Lost lib s) (envs : List (Env B)) :
    readBack lib codec s envs = .ok none := run_of_wp (wp_read_lost h) envs

lemma lost_maintain (h : Lost lib s) (events : List (Maintenance × List (Env B))) :
    Lost lib (maintain lib s events) := by
  induction events generalizing s with
  | nil => exact h
  | cons e events ih =>
    exact ih (run_of_wp (wp_maintain h.toSound h (fun _ hs => hs) h.opened e.1) e.2)

lemma readBack_maintain_iff (h : Stored lib codec v s)
    (events : List (Maintenance × List (Env B))) (envs : List (Env B)) :
    readBack lib codec (maintain lib s events) envs = .ok (some v) ↔ CleanupsIdle lib s events := by
  induction events generalizing s with
  | nil => exact iff_of_true (readBack_stored h envs) trivial
  | cons e events ih =>
    obtain ⟨m, menvs⟩ := e
    cases m with
    | reopen =>
      have hs : after s (Maintenance.reopen.prog lib) menvs =
        { s with memory := PageStore.opened s.memory.manifest } :=
        run_of_wp (wp_reopen h.toSound) menvs
      have hstored := hs ▸ h.opened
      exact ih hstored
    | cleanup =>
      rcases run_of_wp (wp_cleanup h.toSound) menvs with ⟨hc, hs⟩ | ⟨hc, hlost⟩
      · have hstored := hs.symm ▸ h
        exact (ih hstored).trans (and_iff_right hc).symm
      · have hread : readBack lib codec (maintain lib s ((.cleanup, menvs) :: events)) envs =
          .ok none := readBack_lost (lost_maintain hlost events) envs
        rw [hread]
        exact iff_of_false (by simp) fun hidle => hc hidle.1

lemma sound_of_lost_or_stored (h : Lost lib s ∨ ∃ v, Stored lib codec v s) : Sound lib s :=
  h.elim (fun h => h.toSound) fun ⟨_, h⟩ => h.toSound

lemma lost_or_stored_run (codec : Codec D T) (h : Lost lib s ∨ ∃ v, Stored lib codec v s)
    (events : List (Event T × List (Env B))) :
    Lost lib (run lib codec s events) ∨ ∃ v, Stored lib codec v (run lib codec s events) := by
  induction events generalizing s with
  | nil => exact h
  | cons e events ih =>
    obtain ⟨event, envs⟩ := e
    have hs : Sound lib s := sound_of_lost_or_stored h
    refine ih ?_
    cases event with
    | write v => exact .inr ⟨v, run_of_wp (wp_write hs v) envs⟩
    | maintain m =>
      have hopened := h.imp Lost.opened (Exists.imp fun v => Stored.opened)
      exact run_of_wp (wp_maintain (P := fun s => Lost lib s ∨ ∃ v, Stored lib codec v s) hs h
        (fun _ => .inl) hopened m) envs

lemma lost_created : Lost lib (created : StoreState F D) := ⟨sound_created, rfl⟩

/-- After any run that ends in a write and then maintenance, the value of that write is read
back exactly if each cleanup since then found nothing to remove. -/
theorem readBack_iff_cleanupsIdle (lib : PageLib F D B) (codec : Codec D T)
    (events : List (Event T × List (Env B))) (v : T) (wenvs : List (Env B))
    (later : List (Maintenance × List (Env B))) (envs : List (Env B)) :
    let written := after (run lib codec created events) (write lib codec v) wenvs
    readBack lib codec (maintain lib written later) envs = .ok (some v) ↔
      CleanupsIdle lib written later := by
  intro written
  have hs : Sound lib (run lib codec created events) :=
    sound_of_lost_or_stored (lost_or_stored_run codec (.inl lost_created) events)
  exact readBack_maintain_iff (run_of_wp (wp_write hs v) wenvs) later envs

def numbers : Codec Payload ℕ where
  encode := .value
  decode := Payload.value?
  decode_encode _ := rfl

/-- Two writes and a cleanup: the first value's page is removed, and the second is not found. -/
theorem readBack_after_cleanup :
    readBack symbolic numbers
      (run symbolic numbers created
        [(.write 1, []), (.write 2, []), (.maintain .cleanup, [])]) [] = .ok none := rfl

end MetadataStore

end VaultSync.Opfs
