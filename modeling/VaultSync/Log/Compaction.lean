import Mathlib.Data.Set.Basic

/-! Logs whose older items are dropped on account of snapshots. An item has a key, a sequence
number and a content; a snapshot of a key is meant to contain the items of the key up to its
sequence number. -/

namespace CompactedLog

structure Item (κ β : Type) where
  key : κ
  seq : ℕ
  content : β

variable {κ β : Type}

def Item.Covers (s m : Item κ β) : Prop := m.key = s.key ∧ m.seq ≤ s.seq

/-- `history` is everything that was ever appended, `next` a bound of its numbers. -/
structure Archive (κ β : Type) where
  history : Set (Item κ β)
  log : Set (Item κ β)
  snaps : Set (Item κ β)
  next : ℕ

namespace Archive

variable {a a' : Archive κ β} {s : Item κ β}

/-! ## Steps -/

structure Appends (a a' : Archive κ β) : Prop where
  history : ∀ m ∈ a'.history, m ∈ a.history ∨ (a.next ≤ m.seq ∧ m ∈ a'.log)
  lt : ∀ m ∈ a'.history, m.seq < a'.next
  log_subset : a'.log ⊆ a'.history
  log : a.log ⊆ a'.log
  snaps : a'.snaps = a.snaps
  next : a.next ≤ a'.next

structure Stores (s : Item κ β) (a a' : Archive κ β) : Prop where
  history : a'.history = a.history
  log : a'.log = a.log
  stored : s ∈ a'.snaps
  snaps : ∀ t ∈ a'.snaps, t = s ∨ t ∈ a.snaps
  others : ∀ t ∈ a.snaps, t.key ≠ s.key → t ∈ a'.snaps
  next : a'.next = a.next

structure Compacts (a a' : Archive κ β) : Prop where
  history : a'.history = a.history
  log_subset : a'.log ⊆ a.log
  log : ∀ m ∈ a.log, m ∈ a'.log ∨ ∃ t ∈ a.snaps, t.Covers m
  snaps : a'.snaps = a.snaps
  next : a'.next = a.next

/-! ## What they keep -/

variable [Preorder β]

def Complete (a : Archive κ β) (s : Item κ β) : Prop :=
  s.seq < a.next ∧ ∀ m ∈ a.history, s.Covers m → m.content ≤ s.content

structure Sound (a : Archive κ β) : Prop where
  lt : ∀ m ∈ a.history, m.seq < a.next
  log_subset : a.log ⊆ a.history
  kept : ∀ m ∈ a.history, m ∈ a.log ∨ ∃ s ∈ a.snaps, s.Covers m
  complete : ∀ s ∈ a.snaps, a.Complete s

lemma Complete.appends (h : a.Complete s) (ha : Appends a a') : a'.Complete s := by
  refine ⟨h.1.trans_le ha.next, fun m hm hcov => ?_⟩
  rcases ha.history m hm with hold | ⟨hnew, -⟩
  · exact h.2 m hold hcov
  · exact absurd (hcov.2.trans_lt h.1) (not_lt.2 hnew)

lemma Sound.appends (h : a.Sound) (ha : Appends a a') : a'.Sound where
  lt := ha.lt
  log_subset := ha.log_subset
  kept m hm := by
    rcases ha.history m hm with hold | ⟨-, hlog⟩
    · rw [ha.snaps]
      exact (h.kept m hold).imp_left fun hm => ha.log hm
    · exact .inl hlog
  complete s hs := by
    rw [ha.snaps] at hs
    exact (h.complete s hs).appends ha

lemma Complete.congr (h : a.Complete s) (hhistory : a'.history = a.history)
    (hnext : a'.next = a.next) : a'.Complete s := by
  unfold Complete
  rw [hhistory, hnext]
  exact h

lemma Sound.stores (h : a.Sound) (hs : Stores s a a') (hcomplete : a.Complete s)
    (hnewer : ∀ t ∈ a.snaps, t.key = s.key → t.seq ≤ s.seq) : a'.Sound where
  lt := by
    rw [hs.history, hs.next]
    exact h.lt
  log_subset := by
    rw [hs.history, hs.log]
    exact h.log_subset
  kept m hm := by
    rw [hs.history] at hm
    rw [hs.log]
    refine (h.kept m hm).imp_right fun ⟨t, ht, hcov⟩ => ?_
    by_cases hkey : t.key = s.key
    · exact ⟨s, hs.stored, hcov.1.trans hkey, hcov.2.trans (hnewer t ht hkey)⟩
    · exact ⟨t, hs.others t ht hkey, hcov⟩
  complete t ht := by
    rcases hs.snaps t ht with rfl | hold
    · exact hcomplete.congr hs.history hs.next
    · exact (h.complete t hold).congr hs.history hs.next

lemma Sound.compacts (h : a.Sound) (hc : Compacts a a') : a'.Sound where
  lt := by
    rw [hc.history, hc.next]
    exact h.lt
  log_subset := by
    rw [hc.history]
    exact hc.log_subset.trans h.log_subset
  kept m hm := by
    rw [hc.history] at hm
    rw [hc.snaps]
    exact (h.kept m hm).elim (fun hlog => hc.log m hlog) .inr
  complete s hs := by
    rw [hc.snaps] at hs
    exact (h.complete s hs).congr hc.history hc.next

lemma Sound.complete_of_contains (h : a.Sound) (hlt : s.seq < a.next)
    (hlog : ∀ m ∈ a.log, s.Covers m → m.content ≤ s.content)
    (hsnaps : ∀ t ∈ a.snaps, t.key = s.key → t.content ≤ s.content) : a.Complete s := by
  refine ⟨hlt, fun m hm hcov => ?_⟩
  rcases h.kept m hm with hmem | ⟨t, ht, htcov⟩
  · exact hlog m hmem hcov
  · calc m.content ≤ t.content := (h.complete t ht).2 m hm htcov
      _ ≤ s.content := hsnaps t ht (htcov.1.symm.trans hcov.1)

lemma Sound.content_le (h : a.Sound) {k : κ} {b : β} (hlog : ∀ m ∈ a.log, m.key = k → m.content ≤ b)
    (hsnaps : ∀ s ∈ a.snaps, s.key = k → s.content ≤ b) {m : Item κ β} (hm : m ∈ a.history)
    (hkey : m.key = k) : m.content ≤ b := by
  rcases h.kept m hm with hmem | ⟨s, hs, hcov⟩
  · exact hlog m hmem hkey
  · exact ((h.complete s hs).2 m hm hcov).trans (hsnaps s hs (hcov.1.symm.trans hkey))

end Archive

end CompactedLog
