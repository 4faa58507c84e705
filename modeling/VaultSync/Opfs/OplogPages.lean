import VaultSync.Opfs.MaintenanceSpec
import VaultSync.Opfs.OplogStorage

/-! The pages of the oplog: what they hold, and how the index and the cache agree with them. -/

namespace VaultSync.Opfs

open StoreState PageStore List Function Finmap

variable {F D B : Type}

/-! ## The index -/

namespace ContentIndex

variable {ci : ContentIndex} {id a : ℕ}

def Numbered (ci : ContentIndex) : Prop :=
  ∀ n entry, ci.entries (.sequence n) = some entry → entry.pageId = n

lemma mem_track_pageById : a ∈ (ci.track id).pageById ↔ a = id ∨ a ∈ ci.pageById := by
  unfold track trackAs
  dsimp only
  split
  · rename_i hid
    constructor
    · exact .inr
    · rintro (rfl | ha)
      · exact hid
      · exact ha
  · exact mem_insert

lemma lookup_track_self (h : id ∉ ci.pageById) :
    (ci.track id).pageById.lookup id = some (.sequence id) := by
  unfold track trackAs
  dsimp only
  rw [if_neg h]
  exact lookup_insert _

lemma lookup_track_of_ne (h : a ≠ id) : (ci.track id).pageById.lookup a = ci.pageById.lookup a := by
  unfold track trackAs
  dsimp only
  split
  · rfl
  · exact lookup_insert_of_ne _ h

lemma removeByPageId_numbered (hkey : ci.pageById.lookup id = some (.sequence id))
    (hn : ci.Numbered) :
    (ci.removeByPageId id).livePages = ci.livePages.erase id ∧ (ci.removeByPageId id).Numbered ∧
      ∀ a ∈ (ci.removeByPageId id).pageById, a ∈ ci.pageById := by
  unfold removeByPageId removeKeyOf
  simp only [hkey]
  cases he : ci.entries (.sequence id) with
  | none =>
    simp only [remove, he]
    exact ⟨trivial, hn, fun a ha => (mem_erase.1 ha).2⟩
  | some entry =>
    have hpage := hn id entry he
    simp only [remove, he, hpage, Finset.erase_idem]
    refine ⟨trivial, fun n entry' hentry => ?_, fun a ha => ?_⟩
    · change update ci.entries (.sequence id) none (.sequence n) = some entry' at hentry
      by_cases hne : IndexKey.sequence n = .sequence id
      · rw [hne, update_self] at hentry
        cases hentry
      · rw [update_of_ne hne] at hentry
        exact hn n entry' hentry
    · exact (mem_erase.1 (mem_erase.1 ha).2).2

end ContentIndex

namespace PageLib

variable {lib : PageLib F D B} {pages : Finmap fun _ : ℕ => F}

lemma encodeV3Page_inj {d d' : D} {flags flags' : UInt8}
    (h : lib.encodeV3Page d flags = lib.encodeV3Page d' flags') : d = d' ∧ flags = flags' := by
  have hread := lib.readPageFile_encodeV3Page 0 d flags
  rw [h, lib.readPageFile_encodeV3Page 0 d' flags', Except.ok.injEq, Prod.mk.injEq] at hread
  exact ⟨hread.2.symm, (congrArg PageHeader.flags hread.1).symm⟩

lemma scanPage_index (acc : ℕ × ContentIndex) (hn : acc.2.Numbered)
    (hmem : ∀ a ∈ acc.2.pageById, a ∈ pages) (id : ℕ) :
    (lib.scanPage pages acc id).2.Numbered ∧
      ∀ a ∈ (lib.scanPage pages acc id).2.pageById, a ∈ pages := by
  rcases hf : pages.lookup id with _ | f
  · simp only [scanPage, hf]
    exact ⟨hn, hmem⟩
  · have hid : id ∈ pages := mem_iff.2 ⟨f, hf⟩
    rcases hr : lib.readPageFile id f with e | ⟨header, data⟩
    · simp only [scanPage, hf, hr]
      exact ⟨hn, hmem⟩
    · simp only [scanPage, hf, hr, indexPage]
      have hinsert : ∀ key, ∀ a ∈ acc.2.pageById.insert id key, a ∈ pages := by
        intro key a ha
        rcases mem_insert.1 ha with rfl | ha
        · exact hid
        · exact hmem a ha
      split
      · exact ⟨hn, hmem⟩
      · split
        · rename_i doc _
          refine ⟨fun n entry hentry => ?_, hinsert _⟩
          have hne : IndexKey.sequence n ≠ .document doc.key := fun h => by cases h
          dsimp only [ContentIndex.insert] at hentry
          rw [update_of_ne hne] at hentry
          exact hn n entry hentry
        · refine ⟨fun n entry hentry => ?_, hinsert _⟩
          dsimp only at hentry
          by_cases hne : IndexKey.sequence n = .sequence id
          · obtain rfl := IndexKey.sequence.inj hne
            rw [update_self, Option.some.injEq] at hentry
            rw [← hentry]
          · rw [update_of_ne hne] at hentry
            exact hn n entry hentry

lemma rebuilt_index (ids : List ℕ) :
    (lib.rebuilt pages ids).contentIndex.Numbered ∧
      ∀ a ∈ (lib.rebuilt pages ids).contentIndex.pageById, a ∈ pages := by
  have hfold : ∀ (ids : List ℕ) (acc : ℕ × ContentIndex), acc.2.Numbered →
      (∀ a ∈ acc.2.pageById, a ∈ pages) → (ids.foldl (lib.scanPage pages) acc).2.Numbered ∧
        ∀ a ∈ (ids.foldl (lib.scanPage pages) acc).2.pageById, a ∈ pages := by
    intro ids
    induction ids with
    | nil => exact fun acc hn hmem => ⟨hn, hmem⟩
    | cons id ids ih =>
      intro acc hn hmem
      obtain ⟨hn', hmem'⟩ := scanPage_index acc hn hmem id
      exact ih _ hn' hmem'
  exact hfold ids (0, .new) (fun _ _ h => by cases h) fun a ha => absurd ha notMem_empty

/-! ## What the pages hold -/

variable (lib pages)

def liveData (id : ℕ) : Option D :=
  match pages.lookup id with
  | some f =>
    match lib.readPageFile id f with
    | .ok (header, data) => if header.tombstoned then none else some data
    | .error _ => none
  | none => none

def entriesAt (id : ℕ) : List (OplogEntry B) := ((lib.liveData pages id).bind lib.decodeOplog).getD []

def log (current : ℕ) : List (OplogEntry B) :=
  ((ascending pages.keys).filter fun id => current ≤ id).flatMap (lib.entriesAt pages)

variable {lib pages} {id current : ℕ} {d : D}

lemma liveData_of_missing (h : id ∉ pages) : lib.liveData pages id = none := by
  simp [liveData, lookup_eq_none.2 h]

lemma liveData_of_live (h : pages.lookup id = some (lib.encodeV3Page d 0)) :
    lib.liveData pages id = some d := by
  simp [liveData, h, readPageFile_encodeV3Page, v3Header_live]

lemma liveData_of_tombstoned (h : pages.lookup id = some (lib.encodeV3Page d 0x02)) :
    lib.liveData pages id = none := by
  simp [liveData, h, readPageFile_encodeV3Page, v3Header_tombstoned]

lemma entriesAt_of_missing (h : id ∉ pages) : lib.entriesAt pages id = [] := by
  rw [entriesAt, liveData_of_missing h]
  rfl

lemma entriesAt_of_tombstoned (h : pages.lookup id = some (lib.encodeV3Page d 0x02)) :
    lib.entriesAt pages id = [] := by
  rw [entriesAt, liveData_of_tombstoned h]
  rfl

lemma entriesAt_of_live {l : List (OplogEntry B)}
    (h : pages.lookup id = some (lib.encodeV3Page (lib.encodeOplog l) 0)) :
    lib.entriesAt pages id = l := by
  rw [entriesAt, liveData_of_live h, Option.bind_some, lib.decodeOplog_encodeOplog]
  rfl

lemma entriesAt_congr {pages' : Finmap fun _ : ℕ => F} (h : pages'.lookup id = pages.lookup id) :
    lib.entriesAt pages' id = lib.entriesAt pages id := by
  simp [entriesAt, liveData, h]

lemma log_insert {f : F} (hlt : ∀ a ∈ pages, a < id) (hcur : current ≤ id) :
    lib.log (pages.insert id f) current =
      lib.log pages current ++ lib.entriesAt (pages.insert id f) id := by
  have hkeys : (pages.insert id f).keys = insert id pages.keys := by
    ext a
    rw [Finmap.mem_keys, Finmap.mem_insert, Finset.mem_insert, Finmap.mem_keys]
  have hasc : ascending (pages.insert id f).keys = ascending pages.keys ++ [id] := by
    rw [hkeys]
    exact ascending_insert_of_lt fun a ha => hlt a (mem_keys.1 ha)
  have hold : ∀ a ∈ (ascending pages.keys).filter (fun a => current ≤ a),
      lib.entriesAt (pages.insert id f) a = lib.entriesAt pages a := by
    intro a ha
    have hmem := mem_keys.1 (mem_ascending.1 (mem_filter.1 ha).1)
    exact entriesAt_congr (lookup_insert_of_ne _ (ne_of_lt (hlt a hmem)))
  unfold log
  rw [hasc, filter_append, filter_cons_of_pos (by simpa using hcur), filter_nil,
    flatMap_append, flatMap_congr hold, flatMap_singleton]

lemma log_eq_nil (h : ∀ a ∈ pages, a < current) : lib.log pages current = [] := by
  have hnone : (ascending pages.keys).filter (fun a => current ≤ a) = [] := by
    rw [filter_eq_nil_iff]
    intro a ha
    have := h a (mem_keys.1 (mem_ascending.1 ha))
    simpa using this
  rw [log, hnone]
  rfl

end PageLib

end VaultSync.Opfs
