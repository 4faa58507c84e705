import Mathlib.Data.Finmap
import VaultSync.Async.Along

/-! The document store: each segment counts the documents that the index puts in it. -/

namespace VaultSync

open Async List

structure Segment where
  segmentId : ℕ
  «namespace» : String
  docCount : ℕ
  byteSize : ℕ
  pageKey : String

/-- Of `(namespace, doc_id)` to the id of the segment: `insert` drops the old entry. -/
abbrev DocIndex := Finmap fun _ : String × String => ℕ

def maxDocsPerSegment : ℕ := 256

/-- What is done to the segment with the id, as found by `iter_mut`. -/
def Segment.adjust (id : ℕ) (count size : ℕ → ℕ) (g : Segment) : Segment :=
  if g.segmentId = id then { g with docCount := count g.docCount, byteSize := size g.byteSize } else g

lemma map_adjust (l : List Segment) (id : ℕ) (count size : ℕ → ℕ) :
    (l.map (Segment.adjust id count size)).map Segment.segmentId = l.map Segment.segmentId := by
  rw [map_map]
  refine map_congr_left fun g _ => ?_
  unfold Function.comp Segment.adjust
  split <;> rfl

/-- The ids count from 1, so each names one segment. -/
structure DocumentStore where
  «namespace» : String
  index : DocIndex
  segments : List Segment
  numbered : segments.map Segment.segmentId = range' 1 segments.length

namespace DocumentStore

variable {s : DocumentStore} {l : List Segment} {x : DocIndex} {k : String × String} {id sid : ℕ}

def new («namespace» : String) : DocumentStore := ⟨«namespace», ∅, [], rfl⟩

variable (s)

def addToSegment (docId pageKey : String) : DocumentStore :=
  match s.segments.find? fun g => g.docCount < maxDocsPerSegment with
  | some seg =>
    { s with
      index := s.index.insert (s.namespace, docId) seg.segmentId
      segments := s.segments.map (Segment.adjust seg.segmentId (· + 1) fun n => (n + 256) % 2 ^ 64)
      numbered := by rw [map_adjust, s.numbered, length_map] }
  | none =>
    { s with
      index := s.index.insert (s.namespace, docId) (s.segments.length + 1)
      segments := s.segments ++ [⟨s.segments.length + 1, s.namespace, 1, 256, pageKey⟩]
      numbered := by simp [s.numbered, range'_concat, Nat.add_comm] }

def removeDocument (docId : String) : DocumentStore :=
  match s.index.lookup (s.namespace, docId) with
  | some sid =>
    { s with
      index := s.index.erase (s.namespace, docId)
      segments := s.segments.map (Segment.adjust sid (· - 1) fun n => n)
      numbered := by rw [map_adjust, s.numbered, length_map] }
  | none => s

inductive Call where
  | addToSegment (docId pageKey : String)
  | removeDocument (docId : String)

def step : Call → DocumentStore
  | .addToSegment docId pageKey => s.addToSegment docId pageKey
  | .removeDocument docId => s.removeDocument docId

/-- The documents in the segment. -/
def docs (x : DocIndex) (id : ℕ) : Finset (String × String) :=
  x.keys.filter fun k => x.lookup k = some id

structure Booked : Prop where
  ids : (s.segments.map Segment.segmentId).Nodup
  points : ∀ k id, s.index.lookup k = some id → id ∈ s.segments.map Segment.segmentId
  counts : ∀ g ∈ s.segments, g.docCount = (docs s.index g.segmentId).card
  bounded : ∀ g ∈ s.segments, g.docCount ≤ maxDocsPerSegment

/-- No document is added that is in the index. -/
def IsNew : Call → Prop
  | .addToSegment docId _ => s.index.lookup (s.namespace, docId) = none
  | .removeDocument _ => True

@[grind =] lemma mem_docs : k ∈ docs x id ↔ x.lookup k = some id := by
  rw [docs, Finset.mem_filter, Finmap.mem_keys, ← Finmap.lookup_isSome]
  grind

lemma docs_insert : docs (x.insert k sid) id =
    if id = sid then insert k (docs x id) else (docs x id).erase k := by
  ext a
  by_cases ha : a = k
  · grind [Finmap.lookup_insert]
  · grind [Finmap.lookup_insert_of_ne]

lemma docs_erase : docs (x.erase k) id = (docs x id).erase k := by
  ext a
  by_cases ha : a = k
  · grind [Finmap.lookup_erase]
  · grind [Finmap.lookup_erase_ne]

/-- The count of the segment, 0 if there is none. -/
def countAt : List Segment → ℕ → ℕ
  | [], _ => 0
  | g :: l, id => if g.segmentId = id then g.docCount else countAt l id

lemma countAt_of_mem {g : Segment} (hids : (l.map Segment.segmentId).Nodup) (hg : g ∈ l) :
    countAt l g.segmentId = g.docCount := by
  induction l with
  | nil => cases hg
  | cons a l ih => grind [countAt]

lemma countAt_of_notMem (h : id ∉ l.map Segment.segmentId) : countAt l id = 0 := by
  induction l with
  | nil => rfl
  | cons a l ih => grind [countAt]

lemma countAt_adjust {count size : ℕ → ℕ} : countAt (l.map (Segment.adjust sid count size)) id =
    if id = sid ∧ sid ∈ l.map Segment.segmentId then count (countAt l id) else countAt l id := by
  induction l with
  | nil => simp [countAt]
  | cons a l ih => grind [countAt, Segment.adjust]

lemma countAt_append (g : Segment) (h : g.segmentId ∉ l.map Segment.segmentId) :
    countAt (l ++ [g]) id = countAt l id + if id = g.segmentId then g.docCount else 0 := by
  induction l with
  | nil | cons a l ih => grind [countAt]

lemma nodup_ids : (s.segments.map Segment.segmentId).Nodup :=
  s.numbered ▸ nodup_range'

variable {s}

lemma booked_iff : Booked s ↔ ∀ id, countAt s.segments id = (docs s.index id).card ∧
    countAt s.segments id ≤ maxDocsPerSegment := by
  constructor
  · intro h id
    by_cases hid : id ∈ s.segments.map Segment.segmentId
    · obtain ⟨g, hg, rfl⟩ := mem_map.1 hid
      rw [countAt_of_mem h.ids hg]
      exact ⟨h.counts g hg, h.bounded g hg⟩
    · have hnone : docs s.index id = ∅ :=
        Finset.eq_empty_of_forall_notMem fun k hk => hid (h.points k id (mem_docs.1 hk))
      rw [countAt_of_notMem hid, hnone]
      exact ⟨rfl, Nat.zero_le _⟩
  · intro h
    refine ⟨s.nodup_ids, fun k id hk => ?_, fun g hg => ?_, fun g hg => ?_⟩
    · by_contra hid
      have hcard := (h id).1
      rw [countAt_of_notMem hid, eq_comm, Finset.card_eq_zero] at hcard
      exact Finset.notMem_empty k (hcard ▸ mem_docs.2 hk)
    · rw [← countAt_of_mem s.nodup_ids hg]
      exact (h _).1
    · rw [← countAt_of_mem s.nodup_ids hg]
      exact (h _).2

lemma addToSegment_spec (s : DocumentStore) (docId pageKey : String) :
    ∃ sid, (s.addToSegment docId pageKey).index = s.index.insert (s.namespace, docId) sid ∧
      countAt s.segments sid < maxDocsPerSegment ∧
      ∀ id, countAt (s.addToSegment docId pageKey).segments id =
        countAt s.segments id + if id = sid then 1 else 0 := by
  unfold addToSegment
  split
  · rename_i seg hfind
    have hseg := mem_of_find?_eq_some hfind
    refine ⟨_, rfl, ?_, fun id => ?_⟩
    · rw [countAt_of_mem s.nodup_ids hseg]
      simpa using List.find?_some hfind
    · rw [countAt_adjust]
      grind
  · have hnew : s.segments.length + 1 ∉ s.segments.map Segment.segmentId := by
      rw [s.numbered, mem_range'_1]
      omega
    refine ⟨_, rfl, ?_, fun id => countAt_append _ hnew⟩
    rw [countAt_of_notMem hnew]
    decide

lemma Booked.addToSegment_iff (h : Booked s) (docId pageKey : String) :
    Booked (s.addToSegment docId pageKey) ↔ s.index.lookup (s.namespace, docId) = none := by
  obtain ⟨sid, hindex, hroom, hcount⟩ := s.addToSegment_spec docId pageKey
  rw [booked_iff] at h
  simp only [booked_iff, hindex, hcount, docs_insert]
  constructor
  · intro h'
    by_contra hsome
    obtain ⟨id, hid⟩ := Option.ne_none_iff_exists'.1 hsome
    have hmem := mem_docs.2 hid
    have hpos := Finset.card_pos.2 ⟨_, hmem⟩
    have heq := (h' id).1
    rw [(h id).1] at heq
    split_ifs at heq
    · rw [Finset.insert_eq_of_mem hmem] at heq
      omega
    · rw [Finset.card_erase_of_mem hmem] at heq
      omega
  · intro hnone id
    have hnot : (s.namespace, docId) ∉ docs s.index id := by grind
    rw [(h id).1]
    split_ifs with hid
    · rw [Finset.card_insert_of_notMem hnot]
      subst hid
      exact ⟨rfl, (h id).1 ▸ hroom⟩
    · rw [Finset.erase_eq_of_notMem hnot]
      exact ⟨rfl, (h id).1 ▸ (h id).2⟩

lemma Booked.removeDocument (h : Booked s) (docId : String) : Booked (s.removeDocument docId) := by
  unfold DocumentStore.removeDocument
  split
  · rename_i sid hsid
    have hmem := mem_docs.2 hsid
    have hmap := h.points _ _ hsid
    rw [booked_iff] at h ⊢
    intro id
    rw [docs_erase, countAt_adjust, (h id).1]
    have hle := (h id).2
    rw [(h id).1] at hle
    split_ifs with hid
    · rw [hid.1, Finset.card_erase_of_mem hmem]
      rw [hid.1] at hle
      exact ⟨rfl, (Nat.sub_le _ _).trans hle⟩
    · rw [Finset.erase_eq_of_notMem (by grind)]
      exact ⟨rfl, hle⟩
  · exact h

/-- The counts are right in every state exactly if no document is added while it is in the
index. -/
theorem booked_iff_isNew («namespace» : String) (calls : List Call) :
    Throughout step Booked (new «namespace») calls ↔
      Admitted step IsNew (new «namespace») calls := by
  apply always_iff_admitted
  · intro call _ s h
    cases call with
    | addToSegment docId pageKey => exact h.addToSegment_iff docId pageKey
    | removeDocument docId => exact iff_of_true (h.removeDocument docId) trivial
  · exact booked_iff.2 fun id => ⟨rfl, Nat.zero_le _⟩

/-- One document, added twice, is counted twice. -/
theorem counted_twice :
    let s := [.addToSegment "a" "p", .addToSegment "a" "p"].foldl step (new "n")
    s.segments.map (·.docCount) = [2] ∧ s.index.keys = {("n", "a")} := by
  decide

end DocumentStore

end VaultSync
