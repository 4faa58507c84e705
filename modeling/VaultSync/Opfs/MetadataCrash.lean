import VaultSync.Opfs.DocumentCrash
import VaultSync.Opfs.MetadataStore

/-! Metadata writes that are cut short: what is read once the store is opened again. -/

namespace VaultSync.Opfs.MetadataStore

open Async StoreState PageStore

variable {F D B T : Type}

abbrev crashMachine (B : Type) : Machine (FileOps F) (PageStore D) (Env B) (StoreState F D × ℕ) :=
  (machine B).counting FileOp.writes

section functions

variable (lib : PageLib F D B) (codec : Codec D T) (s : StoreState F D)

def reopenedRead (envs : List (Env B)) : Except VaultSyncError (Option T) :=
  (Async.run (machine B) (do openStore lib; read lib codec) envs s).1

def pageValue (pages : Finmap fun _ : ℕ => F) (id : ℕ) : Option T :=
  match pages.lookup id with
  | none => none
  | some f =>
    match lib.readPageFile id f with
    | .error _ => none
    | .ok (header, data) => if header.tombstoned then none else codec.decode data

def rotatedManifest : StoreManifest :=
  { s.memory.manifest.allocateAndRotate.2 with pendingCount := s.memory.cachedPendingCount }

structure Written (v : T) (c : StoreState F D × ℕ) : Prop where
  writes : 2 ≤ c.2
  sound : Sound lib c.1
  current : c.1.memory.manifest.currentPage = s.memory.manifest.nextPageId
  file : c.1.dir.pages.lookup s.memory.manifest.nextPageId =
    some (lib.encodeV3Page (codec.encode v) 0)

def Cut (v : T) (c : StoreState F D × ℕ) : Prop :=
  c.2 = 0 ∧ c.1.dir = s.dir ∨ c.2 = 1 ∧ c.1.dir = ⟨s.dir.pages, .valid (rotatedManifest s)⟩ ∨
    Written lib codec s v c

end functions

variable {lib : PageLib F D B} {codec : Codec D T} {s : StoreState F D} {v : T}

variable {id : ℕ} {c : StoreState F D × ℕ}

lemma pageValue_of_live {pages : Finmap fun _ : ℕ => F} {data : D}
    (h : pages.lookup id = some (lib.encodeV3Page data 0)) :
    pageValue lib codec pages id = codec.decode data := by
  simp [pageValue, h, lib.readPageFile_encodeV3Page, PageLib.v3Header_live]

lemma reopenedRead_eq {m : StoreManifest} (hm : s.dir.manifest = .valid m)
    (hf : Formatted lib s.dir.pages) (envs : List (Env B)) :
    reopenedRead lib codec s envs =
      .ok (if m.currentPage = 0 then none else pageValue lib codec s.dir.pages m.currentPage) := by
  have hread : wp (machine B) (fun r _ => r = .ok (if m.currentPage = 0 then none
      else pageValue lib codec s.dir.pages m.currentPage)) (do openStore lib; read lib codec) s := by
    simp only [read, wp_bind, wp_openStore_of_valid hm, wp_currentPage, hm, ManifestFile.verified,
      Option.map_some, Option.getD_some]
    by_cases hzero : m.currentPage = 0
    · simp [hzero]
    · simp only [hzero, if_false, wp_bind, wp_attempt]
      rw [wp_readPage_uncached rfl]
      by_cases hid : m.currentPage ∈ s.dir.pages
      · rcases hf.mem_cases hid with ⟨data, hdata⟩ | ⟨data, hdata⟩
        · refine (wp_readUncached_of_live (s := { s with memory := opened m }) hdata).2 ?_
          simp [pageValue_of_live hdata]
        · refine (wp_readUncached_of_tombstoned (s := { s with memory := opened m }) hdata).2 ?_
          simp [pageValue, hdata, lib.readPageFile_encodeV3Page, PageLib.v3Header_tombstoned]
      · refine (wp_readUncached_of_missing (s := { s with memory := opened m }) hid).2 ?_
        simp [pageValue, Finmap.lookup_eq_none.2 hid]
  exact run_of_wp hread envs

lemma Written.tombstone (h : Written lib codec s v c) (data : D)
    (hne : id ≠ s.memory.manifest.nextPageId) :
    Written lib codec s v (c.1.putFile id (lib.encodeV3Page data 0x02), c.2 + 1) where
  writes := Nat.le_succ_of_le h.writes
  sound := h.sound.putFile id data (.inr rfl)
  current := h.current
  file := (Finmap.lookup_insert_of_ne _ hne.symm).trans h.file

lemma always_tombstonePageFileOnly (h : Written lib codec s v c)
    (hne : id ≠ s.memory.manifest.nextPageId) :
    Always (crashMachine B) (fun _ => Written lib codec s v)
      (do let _ ← (tombstonePageFileOnly lib id).attempt : PageFn F D Unit) c := by
  have hcache : Written lib codec s v (c.1.mapCache (·.remove lib.len id), c.2) :=
    ⟨h.writes, h.sound.mapCache (·.remove lib.len id), h.current, h.file⟩
  refine ⟨hcache, fun e _ => ⟨hcache, ?_⟩⟩
  have hans : ((crashMachine B).handle (.readFile id) e
      (c.1.mapCache (·.remove lib.len id), c.2)).1 = c.1.fileAt id := rfl
  erw [hans]
  unfold fileAt
  cases hf : c.1.dir.pages.lookup id with
  | none => trivial
  | some f =>
    change Always _ _ ((tombstoneFile lib id f).attempt.bind _) _
    dsimp only [tombstoneFile]
    cases lib.extractPageData f with
    | error e => trivial
    | ok data => exact fun e _ => ⟨hcache.tombstone data hne, trivial⟩

lemma always_cut (hs : Sound lib s) (v : T) :
    Always (crashMachine B) (fun _ => Cut lib codec s v) (write lib codec v) (s, 0) := by
  have hnew : Stored lib codec v
      (s.rotated.writtenRaw lib s.memory.manifest.nextPageId (codec.encode v)) :=
    stored_writtenRaw hs
  have hwritten : ∀ cache, Written lib codec s v ((s.rotated.writtenRaw lib
      s.memory.manifest.nextPageId (codec.encode v)).mapCache cache, 2) :=
    fun _ => ⟨le_rfl, hnew.toSound.mapCache _, rfl, hnew.file⟩
  have hrest : Always (crashMachine B) (fun _ => Cut lib codec s v)
      (if 0 < s.memory.manifest.currentPage ∧
          s.memory.manifest.currentPage ≠ s.memory.manifest.nextPageId then do
        let _ ← (tombstonePageFileOnly lib s.memory.manifest.currentPage).attempt
      else pure () : PageFn F D Unit)
      (s.rotated.writtenRaw lib s.memory.manifest.nextPageId (codec.encode v), 2) := by
    split
    · next hold =>
      exact (always_tombstonePageFileOnly (hwritten id) hold.2).mono fun _ _ h => .inr (.inr h)
    · trivial
  -- the page id is taken, the manifest written and set, and the page written and cached
  exact fun e _ => ⟨.inl ⟨rfl, rfl⟩, ⟨.inl ⟨rfl, rfl⟩, fun e _ => ⟨.inr (.inl ⟨rfl, rfl⟩),
    ⟨.inr (.inl ⟨rfl, rfl⟩), fun e _ => ⟨.inr (.inr (hwritten fun _ => s.memory.pageCache)),
      .inr (.inr (hwritten id)), hrest⟩⟩⟩⟩⟩

/-- **Crashes.** A write that is cut short leaves the previous value or the new one, unless it stops
after its first file write and the page file that the manifest then names holds neither. -/
theorem reopenedRead_iff (lib : PageLib F D B) (codec : Codec D T)
    (events : List (Event T × List (Env B))) (v : T) (c : StoreState F D) (n : ℕ)
    (envs envs' : List (Env B)) :
    let s := run lib codec created events
    Visits (crashMachine B) (write lib codec v) (s, 0) (c, n) →
    ((reopenedRead lib codec c envs = readBack lib codec s envs' ∨
        reopenedRead lib codec c envs = .ok (some v)) ↔
      (n = 1 → .ok (pageValue lib codec s.dir.pages s.memory.manifest.nextPageId) =
          readBack lib codec s envs' ∨
        pageValue lib codec s.dir.pages s.memory.manifest.nextPageId = some v)) := by
  intro s hc
  have hvalue : Lost lib s ∨ ∃ v, Stored lib codec v s :=
    lost_or_stored_run codec (.inl lost_created) events
  have hs : Sound lib s := sound_of_lost_or_stored hvalue
  have hpos : s.memory.manifest.nextPageId ≠ 0 := (nextPageId_pos _).ne'
  have hcut : Cut lib codec s v (c, n) := hc.of_always (.inl ⟨rfl, rfl⟩) (always_cut hs v)
  rcases hcut with ⟨hn, hdir⟩ | ⟨hn, hdir⟩ | h
  · refine iff_of_true (.inl ?_) fun h => absurd (hn.symm.trans h) (by decide)
    have hpages : Formatted lib c.dir.pages := hdir ▸ hs.formatted
    rw [reopenedRead_eq (hdir ▸ hs.manifest) hpages, hdir]
    obtain hlost | ⟨v, hstored⟩ := hvalue
    · rw [readBack_lost hlost, if_pos hlost.current]
    · rw [readBack_stored hstored, if_neg hstored.current_pos.ne', pageValue_of_live hstored.file,
        codec.decode_encode]
  · have hn : n = 1 := hn
    rw [reopenedRead_eq (m := rotatedManifest s) (hdir ▸ rfl) (hdir ▸ hs.formatted), hdir]
    have hcurrent : (rotatedManifest s).currentPage = s.memory.manifest.nextPageId := rfl
    simp [hn, hcurrent, hpos]
  · refine iff_of_true (.inr ?_) fun hone => absurd h.writes (by simp [hone])
    rw [reopenedRead_eq h.sound.manifest h.sound.formatted, h.current, if_neg hpos,
      pageValue_of_live h.file, codec.decode_encode]

theorem reopenedRead_written :
    let s := run symbolic numbers created [(.write 1, [])]
    let c := (advance (crashMachine Unit) 5 (write symbolic numbers 2) (s, 0)).2
    c.2 = 2 ∧ (reopenedRead symbolic numbers c.1 [] = readBack symbolic numbers s [] ∨
      reopenedRead symbolic numbers c.1 [] = .ok (some 2)) := by
  refine ⟨rfl, (reopenedRead_iff symbolic numbers [(.write 1, [])] 2 _ 2 [] [] ?_).2 (by decide)⟩
  exact visits_advance (fun _ _ => trivial) 5 _ _

/-- Stopped after the manifest names the new page, before the page is written: no value is found. -/
theorem value_lost_in_rotation :
    let s := run symbolic numbers created [(.write 1, [])]
    let c := (advance (crashMachine Unit) 3 (write symbolic numbers 2) (s, 0)).2
    Visits (crashMachine Unit) (write symbolic numbers 2) (s, 0) c ∧ c.2 = 1 ∧
      readBack symbolic numbers s [] = .ok (some 1) ∧
      reopenedRead symbolic numbers c.1 [] = .ok none :=
  ⟨visits_advance (fun _ _ => trivial) 3 _ _, rfl, rfl, rfl⟩

end VaultSync.Opfs.MetadataStore
