import VaultSync.Opfs.OplogPages
import VaultSync.Opfs.Symbolic

/-! The content index that a scan of the directory yields, in whatever order the files come. -/

namespace VaultSync.Opfs.PageLib

open Async List StoreState PageStore Function

variable {F D B : Type} (lib : PageLib F D B) (pages : Finmap fun _ : ℕ => F)

def liveKey (id : ℕ) : Option Key :=
  ((lib.liveData pages id).bind lib.decodeDoc).map DocEntry.key

/-- The index finds every record on its live page with the largest id. -/
def Latest (ci : ContentIndex) : Prop :=
  ∀ k id, (ci.entries (.document k)).map IndexEntry.pageId = some id ↔
    IsGreatest {a | lib.liveKey pages a = some k} id

variable {lib pages} {a b : ℕ} {k : Key}

lemma scanPage_comm (hkeys : ∀ k, {a | lib.liveKey pages a = some k}.Subsingleton)
    (acc : ℕ × ContentIndex) : lib.scanPage pages (lib.scanPage pages acc a) b =
      lib.scanPage pages (lib.scanPage pages acc b) a := by
  refine Prod.ext (max_right_comm _ _ _) ?_
  by_cases hne : a = b
  · rw [hne]
  have hseq : IndexKey.sequence a ≠ .sequence b := fun h => hne (IndexKey.sequence.inj h)
  simp only [scanPage]
  rcases hf : pages.lookup a with _ | f
  · rfl
  rcases hg : pages.lookup b with _ | g
  · rfl
  rcases hr : lib.readPageFile a f with _ | ⟨header, data⟩
  · simp only [hr]
  rcases hr' : lib.readPageFile b g with _ | ⟨header', data'⟩
  · simp only [hr, hr']
  simp only [hr, hr', indexPage]
  cases h : header.tombstoned <;> cases h' : header'.tombstoned <;>
    cases hd : lib.decodeDoc data <;> cases hd' : lib.decodeDoc data' <;>
    simp [ContentIndex.insert, Finset.insert_comm a, Finmap.insert_insert_of_ne _ hne,
      Finset.erase_insert_of_ne, hne, Ne.symm hne, update_comm hseq, Finset.erase_right_comm]
  · rw [update_comm (by simp)]
  · rw [update_comm (by simp)]
  · rename_i doc doc'
    have hkey : doc.key ≠ doc'.key := fun heq => hne (hkeys doc.key
      (by simp [liveKey, liveData, hf, hr, h, hd]) (by simp [liveKey, liveData, hg, hr', h', hd', heq]))
    exact ⟨update_comm (fun heq => hkey (IndexKey.document.inj heq)) _ _ _, update_comm hkey _ _ _⟩

lemma scanPage_document (acc : ℕ × ContentIndex) (id : ℕ) (k : Key) :
    ((lib.scanPage pages acc id).2.entries (.document k)).map IndexEntry.pageId =
      if lib.liveKey pages id = some k then some id
      else (acc.2.entries (.document k)).map IndexEntry.pageId := by
  unfold liveKey liveData
  simp only [scanPage, indexPage]
  cases pages.lookup id with
  | none => simp
  | some f =>
    rcases hr : lib.readPageFile id f with _ | ⟨header, data⟩
    · simp [hr]
    · cases ht : header.tombstoned <;> cases hd : lib.decodeDoc data <;>
        simp [hr, ht, hd, ContentIndex.insert, update_apply, apply_ite (Option.map _), eq_comm (a := k)]

lemma rebuilt_document (ids : List ℕ) (k : Key) :
    ((lib.rebuilt pages ids).contentIndex.entries (.document k)).map IndexEntry.pageId =
      (ids.filter fun id => lib.liveKey pages id = some k).getLast? := by
  have hfold : ∀ (ids : List ℕ) (acc : ℕ × ContentIndex),
      ((ids.foldl (lib.scanPage pages) acc).2.entries (.document k)).map IndexEntry.pageId =
        (ids.filter fun id => lib.liveKey pages id = some k).getLast?.or
          ((acc.2.entries (.document k)).map IndexEntry.pageId) := by
    intro ids
    induction ids with
    | nil => exact fun _ => rfl
    | cons id ids ih =>
      intro acc
      rw [foldl_cons, ih, scanPage_document]
      split_ifs with h
      · rw [filter_cons_of_pos (by simpa using h), getLast?_cons]
        cases (ids.filter fun id => lib.liveKey pages id = some k).getLast? <;> rfl
      · rw [filter_cons_of_neg (by simpa using h)]
  exact (hfold ids _).trans Option.or_none

lemma mem_of_liveKey (h : lib.liveKey pages a = some k) : a ∈ ascending pages.keys := by
  rw [mem_ascending, Finmap.mem_keys]
  by_contra ha
  rw [liveKey, liveData_of_missing ha] at h
  cases h

/-- All orders of the directory yield one index, and it is the latest, exactly if no record has
two live pages. -/
theorem rebuild_order_free_iff (lib : PageLib F D B) (s : StoreState F D) :
    (∃ ci, Latest lib s.dir.pages ci ∧ wp (machine B)
        (fun r _ => ∃ m, r = .ok m ∧ m.contentIndex = ci) (rebuildManifestWithIndex lib) s) ↔
      ∀ k, {a | lib.liveKey s.dir.pages a = some k}.Subsingleton := by
  constructor
  · rintro ⟨ci, hlatest, hrun⟩ k
    have hle : ∀ a b, lib.liveKey s.dir.pages a = some k → lib.liveKey s.dir.pages b = some k →
        b ≤ a := by
      intro a b ha hb
      -- the order in which `a` comes last
      have horder : ((ascending s.dir.pages.keys).erase a ++ [a]).Perm (ascending s.dir.pages.keys) :=
        (perm_append_singleton _ _).trans (perm_cons_erase (mem_of_liveKey ha)).symm
      obtain ⟨_, ⟨⟩, rfl⟩ := wp_rebuildManifestWithIndex.1 hrun _ horder
      refine ((hlatest k a).1 ?_).2 hb
      rw [rebuilt_document, filter_append, filter_cons_of_pos (by simpa using ha), filter_nil,
        getLast?_concat]
    exact fun a ha b hb => le_antisymm (hle b a hb ha) (hle a b ha hb)
  · intro hone
    refine ⟨(lib.rebuilt s.dir.pages (ascending s.dir.pages.keys)).contentIndex, fun k id => ?_,
      wp_rebuildManifestWithIndex.2 fun ids hids => ⟨_, rfl, ?_⟩⟩
    · rw [rebuilt_document]
      set found := filter (lib.liveKey s.dir.pages · = some k) (ascending s.dir.pages.keys)
      have hlive : ∀ {x}, x ∈ found → lib.liveKey s.dir.pages x = some k :=
        fun hx => of_decide_eq_true (mem_filter.1 hx).2
      constructor
      · intro hlast
        have hid := hlive (mem_of_getLast? hlast)
        exact ⟨hid, fun b hb => (hone k hb hid).le⟩
      · rintro ⟨hid, -⟩
        have hmem : id ∈ found := mem_filter.2 ⟨mem_of_liveKey hid, decide_eq_true hid⟩
        rw [getLast?_eq_some_getLast (ne_nil_of_mem hmem), hone k (hlive (getLast_mem _)) hid]
    · have hfold := hids.foldl_eq' (f := lib.scanPage s.dir.pages)
        (fun _ _ _ _ acc => scanPage_comm hone acc) (0, .new)
      exact congrArg Prod.snd hfold

def pageFound (e : Env Unit) : Except VaultSyncError (Option ℕ) :=
  let page := symbolic.encodeV3Page (.doc ⟨"d", "x", ()⟩) 0
  (run (machine Unit) (rebuildManifestWithIndex symbolic) [e]
    ((created.putFile 1 page).putFile 2 page)).1.map fun m =>
      (m.contentIndex.entries (.document ⟨"d", "x"⟩)).map IndexEntry.pageId

/-- The page that comes last is found, not the one with the largest id. -/
theorem pageFound_by_order : pageFound default = .ok (some 2) ∧
    pageFound { (default : Env Unit) with dirOrder := fun ids => ⟨ids.reverse, reverse_perm ids⟩ } =
      .ok (some 1) := by
  decide

end VaultSync.Opfs.PageLib
