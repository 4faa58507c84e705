import Mathlib.Data.List.Infix
import Mathlib.Order.Bounds.Basic

/-! Reading an append-only log page by page, each page after the last key received. -/

namespace PagedLog

open List

variable {γ π ε μ : Type} (key : μ → ℕ)

def after (l : List μ) (c : ℕ) : List μ := l.filter fun m => c < key m

def cursor (start : ℕ) (r : List μ) : ℕ := (r.getLast?.map key).getD start

def page (l : List μ) (c limit : ℕ) : List μ := (after key l c).take limit

variable {key} {l l' r t : List μ} {start c limit : ℕ} {m : μ}

lemma mem_after : m ∈ after key l c ↔ m ∈ l ∧ c < key m := by
  simp [after]

lemma after_pairwise (hs : l.Pairwise fun a b => key a < key b) :
    (after key l c).Pairwise fun a b => key a < key b := hs.filter _

lemma after_after (hc : start ≤ c) : after key (after key l start) c = after key l c := by
  simp only [after, filter_filter]
  refine filter_congr fun m _ => ?_
  by_cases h : c < key m
  · simp [h, hc.trans_lt h]
  · simp [h]

@[simp] lemma cursor_nil : cursor key start [] = start := rfl

@[simp] lemma cursor_concat (m : μ) : cursor key start (r ++ [m]) = key m := by
  simp [cursor]

lemma cursor_append : cursor key (cursor key start r) t = cursor key start (r ++ t) := by
  rcases eq_nil_or_concat' t with rfl | ⟨t', m, rfl⟩
  · simp
  · rw [← append_assoc, cursor_concat, cursor_concat]

lemma cursor_mem (h : r ≠ []) : ∃ m ∈ r, key m = cursor key start r := by
  obtain ⟨r', m, rfl⟩ := eq_nil_or_concat' r |>.resolve_left h
  exact ⟨m, by simp, by simp⟩

section

variable (hs : l.Pairwise fun a b => key a < key b)

include hs

lemma after_cursor (h : after key l start = r ++ t) : after key l (cursor key start r) = t := by
  rcases eq_nil_or_concat' r with rfl | ⟨r', m, rfl⟩
  · simpa using h
  have hord := after_pairwise (c := start) hs
  rw [h] at hord
  have hstart : start ≤ key m := by
    have hm : m ∈ after key l start := by simp [h]
    exact (mem_after.1 hm).2.le
  rw [cursor_concat, ← after_after hstart, h]
  simp only [append_assoc, pairwise_append, pairwise_cons, singleton_append,
    mem_cons] at hord
  obtain ⟨-, ⟨hmt, -⟩, hrm⟩ := hord
  have hr' : ∀ a ∈ r', ¬ key m < key a := fun a ha => (hrm a ha m (.inl rfl)).not_gt
  simp only [after, append_assoc, singleton_append, filter_append]
  rw [filter_eq_nil_iff.2 (by simpa using hr'), nil_append,
    filter_cons_of_neg (by simp), filter_eq_self.2 (by simpa using hmt)]

lemma received_page (h : r <+: after key l start)
    (limit : ℕ) : r ++ page key l (cursor key start r) limit <+: after key l start := by
  obtain ⟨t, ht⟩ := h
  rw [page, after_cursor hs ht.symm, ← ht]
  exact (prefix_append_right_inj r).2 ( take_prefix limit t)

lemma filter_le_initial : l.filter (key · ≤ c) <+: l := by
  induction l with
  | nil => exact nil_prefix
  | cons m l ih =>
    obtain ⟨hm, hs⟩ := pairwise_cons.1 hs
    by_cases hc : key m ≤ c
    · rw [filter_cons_of_pos (by simpa using hc)]
      exact cons_prefix_cons.2 ⟨rfl, ih hs⟩
    · have hnone : (m :: l).filter (key · ≤ c) = [] := by
        rw [filter_eq_nil_iff]
        intro a ha
        rcases mem_cons.1 ha with rfl | ha
        · simpa using hc
        · simpa using (not_le.1 hc).trans (hm a ha)
      rw [hnone]
      exact nil_prefix

lemma received_eq_filter (h : r <+: after key l start) :
    r = (after key l start).filter (key · ≤ cursor key start r) := by
  obtain ⟨t, ht⟩ := h
  have hrest := after_cursor hs ht.symm
  have hlater : t.filter (key · ≤ cursor key start r) = [] := by
    rw [filter_eq_nil_iff]
    intro m hm
    rw [← hrest] at hm
    simpa using (mem_after.1 hm).2
  have hsoon : r.filter (key · ≤ cursor key start r) = r := by
    rw [filter_eq_self]
    intro a ha
    have hord := after_pairwise (c := start) hs
    rw [← ht, pairwise_append] at hord
    rcases eq_nil_or_concat' r with rfl | ⟨r', m, rfl⟩
    · cases ha
    · rw [cursor_concat]
      rcases mem_append.1 ha with ha | ha
      · have hlt := (pairwise_append.1 hord.1).2.2 a ha m mem_cons_self
        exact decide_eq_true hlt.le
      · rw [mem_singleton.1 ha]
        exact decide_eq_true le_rfl
  rw [← ht, filter_append, hlater, hsoon, append_nil]

end

lemma cursor_lt_cursor_page (hm : m ∈ l) (hlt : c < key m)
    (hlimit : limit ≠ 0) : c < cursor key c (page key l c limit) := by
  have hne : page key l c limit ≠ [] := by
    have hafter : after key l c ≠ [] := ne_nil_of_mem (mem_after.2 ⟨hm, hlt⟩)
    rwa [page, Ne, take_eq_nil_iff, not_or, and_iff_right hlimit]
  obtain ⟨a, ha, heq⟩ : ∃ a ∈ page key l c limit, key a = cursor key c (page key l c limit) :=
    cursor_mem hne
  rw [← heq]
  exact (mem_after.1 (mem_of_mem_take ha)).2

lemma cursor_le_page (l : List μ) (c : ℕ) : c ≤ cursor key c (page key l c limit) := by
  by_cases hempty : page key l c limit = []
  · rw [hempty, cursor_nil]
  · obtain ⟨m, hm, heq⟩ : ∃ m ∈ page key l c limit, key m = cursor key c (page key l c limit) :=
      cursor_mem hempty
    rw [← heq]
    exact (mem_after.1 (mem_of_mem_take hm)).2.le

lemma isGreatest_cursor_after (hs : l.Pairwise fun a b => key a < key b) :
    IsGreatest (insert start { c | ∃ m ∈ l, key m = c }) (cursor key start (after key l start)) := by
  rcases eq_nil_or_concat' (after key l start) with h | ⟨r, m, h⟩
  · rw [h, cursor_nil]
    refine ⟨Set.mem_insert _ _, ?_⟩
    rintro _ (rfl | ⟨m, hm, rfl⟩)
    · exact le_rfl
    · by_contra hlt
      have hmem : m ∈ after key l start := mem_after.2 ⟨hm, not_le.1 hlt⟩
      rw [h] at hmem
      cases hmem
  · rw [h, cursor_concat]
    have hm : m ∈ l ∧ start < key m := mem_after.1 (by simp [h])
    refine ⟨Set.mem_insert_of_mem _ ⟨m, hm.1, rfl⟩, ?_⟩
    rintro _ (rfl | ⟨m', hm', rfl⟩)
    · exact hm.2.le
    · by_contra hlt
      have hmem : m' ∈ after key l start := mem_after.2 ⟨hm', hm.2.trans (not_le.1 hlt)⟩
      have hord := after_pairwise (c := start) hs
      rw [h, pairwise_append] at hord
      rw [h, mem_append, mem_singleton] at hmem
      rcases hmem with hmem | rfl
      · exact hlt (hord.2.2 _ hmem m mem_cons_self).le
      · exact hlt le_rfl

/-! ## Positions -/

variable (key) in
def rank (l : List μ) (c : ℕ) : ℕ := (l.filter fun m => key m ≤ c).length

variable (key) in
def keyAt (l : List μ) (n : ℕ) : ℕ := cursor key 0 (l.take n)

section

variable (hs : l.Pairwise fun a b => key a < key b)

include hs

lemma after_eq_drop : after key l c = l.drop (rank key l c) := by
  induction l with
  | nil => rfl
  | cons m l ih =>
    obtain ⟨hm, hs⟩ := pairwise_cons.1 hs
    by_cases hc : c < key m
    · have hall : ∀ a ∈ m :: l, c < key a := fun a ha =>
        (mem_cons.1 ha).elim (fun h => h ▸ hc) fun ha => hc.trans (hm a ha)
      have hnone : rank key (m :: l) c = 0 := by
        rw [rank, length_eq_zero_iff, filter_eq_nil_iff]
        simpa using hall
      rw [hnone, drop_zero]
      exact filter_eq_self.2 fun a ha => decide_eq_true (hall a ha)
    · have hrank : rank key (m :: l) c = rank key l c + 1 := by
        rw [rank, filter_cons_of_pos (by simpa using hc), length_cons]
        rfl
      have hafter : after key (m :: l) c = after key l c :=
        filter_cons_of_neg (by simpa using hc)
      rw [hrank, drop_succ_cons, hafter, ih hs]

lemma rank_key {i : ℕ} (h : l[i]? = some m) : rank key l (key m) = i + 1 := by
  induction l generalizing i with
  | nil => cases h
  | cons a l ih =>
    obtain ⟨ha, hs⟩ := pairwise_cons.1 hs
    cases i with
    | zero =>
      obtain rfl : a = m := Option.some.inj h
      have hnone : (l.filter fun b => key b ≤ key a) = [] := by
        rw [filter_eq_nil_iff]
        simpa using ha
      rw [rank, filter_cons_of_pos (by simp), hnone]
      rfl
    | succ i =>
      rw [List.getElem?_cons_succ] at h
      have hle := (ha m (mem_of_getElem? h)).le
      rw [rank, filter_cons_of_pos (by simpa using hle), length_cons]
      exact congrArg (· + 1) (ih hs h)

lemma rank_keyAt (hpos : ∀ m ∈ l, 0 < key m) {n : ℕ}
    (hn : n ≤ l.length) : rank key l (keyAt key l n) = n := by
  cases n with
  | zero =>
    rw [keyAt, take_zero, cursor_nil, rank, length_eq_zero_iff, filter_eq_nil_iff]
    exact fun m hm => by simpa using (hpos m hm).ne'
  | succ n =>
    have hget : l[n]? = some (l[n]) := List.getElem?_eq_getElem hn
    rw [keyAt, take_succ_eq_append_getElem hn, cursor_concat, rank_key hs hget]

end

/-! ## Runs of a reader beside the writers -/

inductive Event (π : Type) where
  | append (p : π)
  | read (limit : ℕ)

structure Reader (γ μ : Type) where
  log : γ
  received : List μ

variable (key) in
def Reader.step (push : γ → π → γ) (pull : γ → ℕ → ℕ → Except ε (List μ)) (start : ℕ)
    (r : Reader γ μ) : Event π → Reader γ μ
  | .append p => { r with log := push r.log p }
  | .read limit =>
      match pull r.log (cursor key start r.received) limit with
      | .ok ms => { r with received := r.received ++ ms }
      | .error _ => r

variable (key) in
def Reader.run (push : γ → π → γ) (pull : γ → ℕ → ℕ → Except ε (List μ)) (start : ℕ)
    (g : γ) (events : List (Event π)) : Reader γ μ :=
  events.foldl (Reader.step key push pull start) ⟨g, []⟩

variable {push : γ → π → γ} {pull : γ → ℕ → ℕ → Except ε (List μ)}

lemma Reader.run_received (entries : γ → List μ) (Valid : γ → Prop)
    (hsorted : ∀ g, (entries g).Pairwise fun a b => key a < key b)
    (hpush : ∀ g p, entries g <+: entries (push g p)) (hvalid : ∀ g p, Valid (push g p) → Valid g)
    (hpull : ∀ g c limit ms, Valid g → (c = start ∨ ∃ m ∈ entries g, key m = c) →
      pull g c limit = .ok ms → ms = page key (entries g) c limit) (g : γ) (events : List (Event π))
    (h : Valid (Reader.run key push pull start g events).log) :
    (Reader.run key push pull start g events).received <+:
      after key (entries (Reader.run key push pull start g events).log) start := by
  induction events using List.reverseRecOn with
  | nil => exact nil_prefix
  | append_singleton events e ih =>
    simp only [Reader.run, foldl_append, foldl_cons, foldl_nil] at h ih ⊢
    generalize events.foldl (Reader.step key push pull start) ⟨g, []⟩ = r at h ih ⊢
    cases e with
    | append p => exact (ih (hvalid _ _ h)).trans ((hpush _ _).filter _)
    | read limit =>
      simp only [Reader.step] at h ⊢
      cases hp : pull r.log (cursor key start r.received) limit with
      | error e => simpa [hp] using ih (by simpa [hp] using h)
      | ok ms =>
        have hv : Valid r.log := by simpa [hp] using h
        have hc : cursor key start r.received = start ∨
            ∃ m ∈ entries r.log, key m = cursor key start r.received := by
          by_cases hr : r.received = []
          · exact .inl (by simp [hr])
          · obtain ⟨m, hm, hk⟩ : ∃ m ∈ r.received, key m = cursor key start r.received :=
              cursor_mem hr
            exact .inr ⟨m, (mem_after.1 ((ih hv).subset hm)).1, hk⟩
        have hms := hpull _ _ _ _ hv hc hp
        subst hms
        exact received_page (hsorted _) (ih hv) limit

end PagedLog
