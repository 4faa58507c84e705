import Mathlib.Data.Finmap
import Mathlib.Data.List.Sort
import VaultSync.Coordinator.Types

/-! The manifest of a page store: its counters and its content index. -/

namespace VaultSync.Opfs

open List

def ascending (s : Finset ℕ) : List ℕ :=
  Quot.liftOn s.val (fun l => l.insertionSort (· ≤ ·)) fun l l' h =>
    ((perm_insertionSort _ l).trans (h.trans (perm_insertionSort _ l').symm)).eq_of_sortedLE
      sortedLE_insertionSort sortedLE_insertionSort

lemma perm_ascending (s : Finset ℕ) : (ascending s : Multiset ℕ) = s.val := by
  obtain ⟨⟨l⟩, hs⟩ := s
  exact Multiset.coe_eq_coe.2 (perm_insertionSort _ l)

variable {s : Finset ℕ} {l l' : List ℕ}

@[simp] lemma mem_ascending {id : ℕ} : id ∈ ascending s ↔ id ∈ s := by
  rw [← Multiset.mem_coe, perm_ascending, Finset.mem_val]

lemma nodup_ascending (s : Finset ℕ) : (ascending s).Nodup := by
  rw [← Multiset.coe_nodup, perm_ascending]
  exact s.nodup

lemma sorted_ascending (s : Finset ℕ) : (ascending s).Pairwise (· < ·) := by
  have hle : (ascending s).Pairwise (· ≤ ·) := by
    obtain ⟨⟨l⟩, hs⟩ := s
    exact pairwise_insertionSort (· ≤ ·) l
  exact (hle.and (nodup_ascending s)).imp fun h => lt_of_le_of_ne h.1 h.2

lemma eq_of_sorted (hl : l.Pairwise (· < ·)) (hl' : l'.Pairwise (· < ·))
    (h : ∀ a, a ∈ l ↔ a ∈ l') : l = l' := by
  have hnd : ∀ {l : List ℕ}, l.Pairwise (· < ·) → l.Nodup := fun hl => hl.imp fun hlt => ne_of_lt hlt
  have hperm : l.Perm l' := (perm_ext_iff_of_nodup (hnd hl) (hnd hl')).2 h
  exact hperm.eq_of_pairwise (fun _ _ _ _ hab hba => absurd hab (lt_asymm hba)) hl hl'

lemma ascending_insert_of_lt {id : ℕ} (h : ∀ a ∈ s, a < id) :
    ascending (insert id s) = ascending s ++ [id] := by
  refine eq_of_sorted (sorted_ascending _)
    (pairwise_append.2 ⟨sorted_ascending s, pairwise_singleton _ _, ?_⟩) fun a => ?_
  · intro a ha b hb
    rw [mem_singleton.1 hb]
    exact h a (mem_ascending.1 ha)
  · rw [mem_ascending, mem_append, mem_ascending, mem_singleton, Finset.mem_insert, or_comm]

lemma flatMap_eq_of_sorted {β : Type} {f : ℕ → List β} (hl : l.Pairwise (· < ·))
    (hl' : l'.Pairwise (· < ·)) (h : ∀ a, f a ≠ [] → (a ∈ l ↔ a ∈ l')) :
    l.flatMap f = l'.flatMap f := by
  have hsupport : ∀ l : List ℕ, l.flatMap f = (l.filter fun a => !(f a).isEmpty).flatMap f := by
    intro l
    induction l with
    | nil => rfl
    | cons a l ih =>
      cases hfa : f a with
      | nil => rw [flatMap_cons, hfa, nil_append, ih, filter_cons_of_neg (by simp [hfa])]
      | cons b t =>
        rw [filter_cons_of_pos (by simp [hfa]), flatMap_cons, flatMap_cons, ih]
  have hsame : (l.filter fun a => !(f a).isEmpty) = l'.filter fun a => !(f a).isEmpty := by
    refine eq_of_sorted (hl.filter _) (hl'.filter _) fun a => ?_
    rw [mem_filter, mem_filter, Bool.not_eq_true', isEmpty_eq_false_iff]
    exact and_congr_left fun hne => h a hne
  rw [hsupport l, hsupport l', hsame]

inductive IndexKey where
  | document (k : Key)
  | sequence (n : ℕ)
  | «namespace» (name : String)
  | schema (name : String)
  | migration (name : String)
  deriving DecidableEq

structure IndexEntry where
  pageId : ℕ
  storageGen : ℕ
  checksum : UInt32
  size : ℕ
  version : ℕ
  dirty : Bool
  deriving DecidableEq

structure ContentIndex where
  entries : IndexKey → Option IndexEntry
  livePages : Finset ℕ
  pageByDocument : Key → Option IndexEntry
  pageBySequence : ℕ → Option IndexEntry
  dirtyPages : Finset ℕ
  pageById : Finmap fun _ : ℕ => IndexKey
  tombstonedPages : Finset ℕ

namespace ContentIndex

def new : ContentIndex where
  entries _ := none
  livePages := ∅
  pageByDocument _ := none
  pageBySequence _ := none
  dirtyPages := ∅
  pageById := ∅
  tombstonedPages := ∅

variable (ci : ContentIndex)

def insert (key : IndexKey) (entry : IndexEntry) : ContentIndex :=
  { ci with
    tombstonedPages := ci.tombstonedPages.erase entry.pageId
    livePages := Insert.insert entry.pageId ci.livePages
    pageById := ci.pageById.insert entry.pageId key
    entries := Function.update ci.entries key (some entry)
    pageByDocument :=
      match key with
      | .document k => Function.update ci.pageByDocument k (some entry)
      | _ => ci.pageByDocument
    pageBySequence :=
      match key with
      | .sequence n => Function.update ci.pageBySequence n (some entry)
      | _ => ci.pageBySequence }

def remove (key : IndexKey) : ContentIndex :=
  match ci.entries key with
  | none => ci
  | some entry =>
    { ci with
      entries := Function.update ci.entries key none
      livePages := ci.livePages.erase entry.pageId
      dirtyPages := ci.dirtyPages.erase entry.pageId
      pageById := ci.pageById.erase entry.pageId
      tombstonedPages := Insert.insert entry.pageId ci.tombstonedPages
      pageByDocument :=
        match key with
        | .document k => Function.update ci.pageByDocument k none
        | _ => ci.pageByDocument
      pageBySequence :=
        match key with
        | .sequence n => Function.update ci.pageBySequence n none
        | _ => ci.pageBySequence }

/-- The key under which the page is found, whatever page that key has by now, is removed. -/
def removeKeyOf (id : ℕ) : ContentIndex :=
  match ci.pageById.lookup id with
  | some key => { ci with pageById := ci.pageById.erase id }.remove key
  | none => ci

def removeByPageId (id : ℕ) : ContentIndex :=
  let ci := ci.removeKeyOf id
  { ci with
    livePages := ci.livePages.erase id
    tombstonedPages := Insert.insert id ci.tombstonedPages }

/-- The page is live; it is found under `key` unless it has a key already. -/
def trackAs (id : ℕ) (key : IndexKey) : ContentIndex :=
  { ci with
    livePages := Insert.insert id ci.livePages
    pageById := if id ∈ ci.pageById then ci.pageById else ci.pageById.insert id key }

def track (id : ℕ) : ContentIndex := ci.trackAs id (.sequence id)

def orphans : Finset ℕ :=
  if ci.pageById = ∅ then ∅ else ci.livePages.filter fun id => id ∉ ci.pageById

def repairOrphans : ContentIndex :=
  { ci with
    livePages := ci.livePages \ ci.orphans
    tombstonedPages := ci.tombstonedPages ∪ ci.orphans }

variable {ci : ContentIndex} {key : IndexKey} {entry : IndexEntry} {id : ℕ}

lemma removeByPageId_livePages_subset :
    (ci.removeByPageId id).livePages ⊆ ci.livePages.erase id := by
  refine Finset.erase_subset_erase id ?_
  unfold removeKeyOf remove
  split
  · split
    · exact Finset.Subset.refl _
    · exact Finset.erase_subset _ _
  · exact Finset.Subset.refl _

end ContentIndex

/-- `livePages` and `tombstonedPages` count; the sets are in the content index. -/
structure StoreManifest where
  generation : ℕ
  highestPageId : ℕ
  currentPage : ℕ
  lastSequence : ℕ
  pendingCount : ℕ
  livePages : ℕ
  tombstonedPages : ℕ
  contentIndex : ContentIndex

inductive PageTxOp where
  | write (id : ℕ) (key : Option IndexKey)
  | tombstone (id : ℕ)
  | delete (id : ℕ)

namespace StoreManifest

variable (m : StoreManifest) (id : ℕ)

def freshEntry : IndexEntry where
  pageId := id
  storageGen := m.generation
  checksum := 0
  size := 0
  version := 1
  dirty := true

def incrementGeneration : StoreManifest :=
  { m with generation := m.generation + 1 }

def setIndex (ci : ContentIndex) : StoreManifest :=
  { m with contentIndex := ci }

def recount : StoreManifest :=
  { m with
    livePages := m.contentIndex.livePages.card
    tombstonedPages := m.contentIndex.tombstonedPages.card }

def nextPageId : ℕ :=
  if m.highestPageId < 100 then 100 else m.highestPageId

def allocatePageId : ℕ × StoreManifest :=
  (m.nextPageId,
    { m with
      highestPageId := m.nextPageId + 1
      contentIndex := m.contentIndex.track m.nextPageId })

/-- The new page and the old current page, which leaves the index. -/
def allocateAndRotate : (ℕ × ℕ) × StoreManifest :=
  let index := m.contentIndex.track m.nextPageId
  let index :=
    if 0 < m.currentPage ∧ m.currentPage ≠ m.nextPageId then index.removeByPageId m.currentPage
    else index
  ((m.nextPageId, m.currentPage),
    { m with
      highestPageId := m.nextPageId + 1
      currentPage := m.nextPageId
      contentIndex := index }.recount)

def commitAllocatedPageId : StoreManifest :=
  { m with contentIndex := m.contentIndex.track id, livePages := m.livePages + 1 }

def removeFromIndex : StoreManifest :=
  (m.incrementGeneration.setIndex (m.contentIndex.removeByPageId id)).recount

def commitPageWrite (key : Option IndexKey) : StoreManifest :=
  let m := m.incrementGeneration
  let index := m.contentIndex.trackAs id (key.getD (.sequence id))
  let index :=
    match key with
    | some k => index.insert k (m.freshEntry id)
    | none => index
  { m with contentIndex := index, livePages := index.livePages.card }

def commitOp : PageTxOp → StoreManifest
  | .write id (some key) =>
    m.setIndex ((m.contentIndex.removeByPageId id).insert key (m.freshEntry id))
  | .write id none => m.setIndex (m.contentIndex.track id)
  | .tombstone id => m.setIndex (m.contentIndex.removeByPageId id)
  | .delete id => m.setIndex (m.contentIndex.removeByPageId id)

def commitTx (ops : List PageTxOp) : StoreManifest :=
  (ops.foldl commitOp m.incrementGeneration).recount

variable {m : StoreManifest}

lemma nextPageId_allocatePageId : m.allocatePageId.2.nextPageId = m.nextPageId + 1 := by
  have h : 100 ≤ m.nextPageId := by
    unfold nextPageId
    split <;> omega
  exact if_neg (by change ¬ m.nextPageId + 1 < 100; omega)

end StoreManifest

end VaultSync.Opfs
