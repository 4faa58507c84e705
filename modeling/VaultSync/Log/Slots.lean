import Mathlib.Data.List.Sort
import VaultSync.Log.Paging

/-! A log in which a writer draws a position before it knows whether it will fill it, and in which
what it has written shows when it closes. Positions count from one. -/

namespace Slots

open List

variable {κ μ ν : Type}

/-- `owner` is the writer that holds the position, until it closes. -/
structure Slot (κ μ : Type) where
  owner : Option ℕ
  topic : κ
  item : Option μ

def Slot.close (n : ℕ) (s : Slot κ μ) : Slot κ μ :=
  if s.owner = some n then { s with owner := none } else s

def Slot.discard (n : ℕ) (s : Slot κ μ) : Slot κ μ :=
  if s.owner = some n then { s with owner := none, item := none } else s

def Slot.fill (n : ℕ) (x : μ) (s : Slot κ μ) : Slot κ μ :=
  if s.owner = some n then { s with item := some x } else s

variable (l : List (Slot κ μ))

def draw (n : ℕ) (t : κ) : List (Slot κ μ) := l ++ [⟨some n, t, none⟩]

def fill (n i : ℕ) (x : μ) : List (Slot κ μ) := l.modify (i - 1) (Slot.fill n x)

def close (n : ℕ) : List (Slot κ μ) := l.map (Slot.close n)

def discard (n : ℕ) : List (Slot κ μ) := l.map (Slot.discard n)

section items

variable [DecidableEq κ] (f : ℕ → μ → ν) (t : κ)

def Slot.shown (i : ℕ) (s : Slot κ μ) : Option ν :=
  if s.owner = none ∧ s.topic = t then s.item.map (f i) else none

def shownFrom : ℕ → List (Slot κ μ) → List ν
  | _, [] => []
  | i, s :: l => (s.shown f t i).toList ++ shownFrom (i + 1) l

def shown (l : List (Slot κ μ)) : List ν := shownFrom f t 1 l

def heldFrom : ℕ → List (Slot κ μ) → List ℕ
  | _, [] => []
  | i, s :: l => (if s.owner ≠ none ∧ s.topic = t then [i] else []) ++ heldFrom (i + 1) l

def held (l : List (Slot κ μ)) : List ℕ := heldFrom t 1 l

end items

/-! ## What a writer can do -/

/-- A closed position stays as it is, and every position keeps its topic. -/
def Slot.Evolves (s s' : Slot κ μ) : Prop := s'.topic = s.topic ∧ (s.owner = none → s' = s)

def Evolves (l l' : List (Slot κ μ)) : Prop :=
  ∃ old new, l' = old ++ new ∧ List.Forall₂ Slot.Evolves l old

lemma Slot.Evolves.refl (s : Slot κ μ) : s.Evolves s := ⟨rfl, fun _ => rfl⟩

variable (l : List (Slot κ μ))

lemma Evolves.refl : Evolves l l :=
  ⟨l, [], (append_nil l).symm, List.forall₂_same.2 fun s _ => .refl s⟩

lemma evolves_draw (n : ℕ) (t : κ) : Evolves l (draw l n t) :=
  ⟨l, _, rfl, List.forall₂_same.2 fun s _ => .refl s⟩

lemma evolves_of_owned {s s' : Slot κ μ} {n : ℕ} (ht : s'.topic = s.topic) :
    s.Evolves (if s.owner = some n then s' else s) := by
  split_ifs with h
  · exact ⟨ht, fun hnone => absurd (h.symm.trans hnone) (Option.some_ne_none n)⟩
  · exact .refl s

variable {R : Slot κ μ → Slot κ μ → Prop} {g : Slot κ μ → Slot κ μ}

lemma forall₂_modify (hrefl : ∀ s, R s s)
    (hg : ∀ s, R s (g s)) (l : List (Slot κ μ)) (j : ℕ) : List.Forall₂ R l (l.modify j g) := by
  induction l generalizing j with
  | nil =>
    rw [modify_nil]
    exact .nil
  | cons s l ih =>
    cases j with
    | zero => exact .cons (hg s) (List.forall₂_same.2 fun s _ => hrefl s)
    | succ j => exact .cons (hrefl s) (ih j)

lemma forall₂_map (hg : ∀ s, R s (g s)) (l : List (Slot κ μ)) : List.Forall₂ R l (l.map g) := by
  rw [List.forall₂_map_right_iff]
  exact List.forall₂_same.2 fun s _ => hg s

lemma Evolves.of_forall₂ {l l' : List (Slot κ μ)} (h : List.Forall₂ Slot.Evolves l l') :
    Evolves l l' :=
  ⟨l', [], (append_nil _).symm, h⟩

lemma evolves_close (n : ℕ) : Evolves l (close l n) :=
  .of_forall₂ (forall₂_map (g := Slot.close n) (fun _ => evolves_of_owned rfl) l)

lemma evolves_discard (n : ℕ) : Evolves l (discard l n) :=
  .of_forall₂ (forall₂_map (g := Slot.discard n) (fun _ => evolves_of_owned rfl) l)

lemma evolves_fill (n i : ℕ) (x : μ) : Evolves l (fill l n i x) :=
  .of_forall₂ (forall₂_modify (g := Slot.fill n x) .refl (fun _ => evolves_of_owned rfl) l _)

lemma Evolves.length_le {l l' : List (Slot κ μ)} (h : Evolves l l') : l.length ≤ l'.length := by
  obtain ⟨old, new, rfl, hold⟩ := h
  rw [length_append, hold.length_eq]
  exact Nat.le_add_right _ _

lemma Evolves.get {l l' : List (Slot κ μ)} {j : ℕ} (h : Evolves l l') (hj : j < l.length) :
    ∃ s s', l[j]? = some s ∧ l'[j]? = some s' ∧ s.Evolves s' := by
  obtain ⟨old, new, rfl, hold⟩ := h
  have hj' : j < old.length := hold.length_eq ▸ hj
  refine ⟨l[j], old[j], getElem?_eq_getElem hj, ?_, hold.get hj hj'⟩
  rw [getElem?_append_left hj', getElem?_eq_getElem hj']

/-! ## What is shown -/

section shown

variable [DecidableEq κ] {f : ℕ → μ → ν} {key : ν → ℕ} {t : κ} {s : Slot κ μ} {v : ν} {c i j n : ℕ}
  {l l' : List (Slot κ μ)}

lemma closed_of_shown (h : v ∈ s.shown f t i) : s.owner = none ∧ s.topic = t := by
  unfold Slot.shown at h
  split_ifs at h with hs
  · exact hs
  · cases h

lemma mem_shownFrom :
    v ∈ shownFrom f t i l ↔ ∃ j, ∃ s : Slot κ μ, l[j]? = some s ∧ v ∈ s.shown f t (i + j) := by
  induction l generalizing i with
  | nil => simp [shownFrom]
  | cons s l ih =>
    have hnext : ∀ j, i + (j + 1) = i + 1 + j := by omega
    rw [shownFrom, mem_append, Option.mem_toList, ih]
    constructor
    · rintro (h | ⟨j, s', hs', h⟩)
      · exact ⟨0, s, rfl, h⟩
      · exact ⟨j + 1, s', hs', (hnext j).symm ▸ h⟩
    · rintro ⟨j | j, s', hs', h⟩
      · cases hs'
        exact .inl h
      · exact .inr ⟨j, s', hs', hnext j ▸ h⟩

lemma mem_heldFrom :
    j ∈ heldFrom t i l ↔ ∃ k, ∃ s : Slot κ μ, l[k]? = some s ∧ s.owner ≠ none ∧ s.topic = t ∧
      j = i + k := by
  induction l generalizing i with
  | nil => simp [heldFrom]
  | cons s l ih =>
    rw [heldFrom, mem_append, ih]
    constructor
    · rintro (h | ⟨k, s', hs', howner, ht, rfl⟩)
      · split_ifs at h with hs
        · exact ⟨0, s, rfl, hs.1, hs.2, mem_singleton.1 h⟩
        · cases h
      · exact ⟨k + 1, s', hs', howner, ht, by omega⟩
    · rintro ⟨k | k, s', hs', howner, ht, rfl⟩
      · cases hs'
        rw [if_pos ⟨howner, ht⟩]
        exact .inl (mem_singleton_self _)
      · exact .inr ⟨k, s', hs', howner, ht, by omega⟩

section

variable (hkey : ∀ i x, key (f i x) = i)

include hkey

lemma key_of_shown (h : v ∈ s.shown f t i) : key v = i := by
  unfold Slot.shown at h
  split_ifs at h
  · obtain ⟨x, -, rfl⟩ := Option.map_eq_some_iff.1 h
    exact hkey i x
  · cases h

lemma shownFrom_pairwise (l : List (Slot κ μ)) (i : ℕ) :
    (shownFrom f t i l).Pairwise fun a b => key a < key b := by
  induction l generalizing i with
  | nil => exact .nil
  | cons s l ih =>
    refine pairwise_append.2 ⟨?_, ih (i + 1), fun a ha b hb => ?_⟩
    · cases s.shown f t i with
      | none => exact .nil
      | some v => exact pairwise_singleton _ v
    · obtain ⟨j, s', -, hb⟩ := mem_shownFrom.1 hb
      rw [key_of_shown hkey (Option.mem_toList.1 ha), key_of_shown hkey hb]
      omega

lemma key_le_length (h : v ∈ shown f t l) : key v ≤ l.length := by
  obtain ⟨j, s, hs, hv⟩ := mem_shownFrom.1 h
  have hj := (List.getElem?_eq_some_iff.1 hs).1
  rw [key_of_shown hkey hv]
  omega

end

/-! ## What the writers leave alone -/

section

variable (h : Evolves l l')

include h

lemma Evolves.held (hj : j ∈ held t l') : j ∈ Slots.held t l ∨ l.length < j := by
  obtain ⟨k, s', hs', howner, ht, rfl⟩ := mem_heldFrom.1 hj
  by_cases hk : k < l.length
  · obtain ⟨s, s'', hs, hs'', hevolves⟩ := h.get hk
    cases hs'.symm.trans hs''
    refine .inl (mem_heldFrom.2 ⟨k, s, hs, fun hnone => ?_, hevolves.1 ▸ ht, rfl⟩)
    exact howner (hevolves.2 hnone ▸ hnone)
  · exact .inr (by omega)

lemma Evolves.mem_shown (hv : v ∈ shown f t l) : v ∈ shown f t l' := by
  obtain ⟨j, s, hs, hv⟩ := mem_shownFrom.1 hv
  obtain ⟨s0, s', hs0, hs', hevolves⟩ := h.get (List.getElem?_eq_some_iff.1 hs).1
  cases hs.symm.trans hs0
  exact mem_shownFrom.2 ⟨j, s', hs', (hevolves.2 (closed_of_shown hv).1).symm ▸ hv⟩

lemma Evolves.shown_upTo (hkey : ∀ i x, key (f i x) = i) (hlen : c ≤ l.length)
    (hc : ∀ j ∈ Slots.held t l, c < j) :
    (shown f t l').filter (key · ≤ c) = (shown f t l).filter (key · ≤ c) := by
  have hsorted : ∀ l : List (Slot κ μ),
      ((shown f t l).filter (key · ≤ c)).Pairwise fun a b => key a < key b :=
    fun l => (shownFrom_pairwise hkey l 1).filter _
  have : Std.Irrefl fun a b : ν => key a < key b := ⟨fun _ => lt_irrefl _⟩
  have : Std.Antisymm fun a b : ν => key a < key b := ⟨fun _ _ h h' => absurd h' h.asymm⟩
  refine (hsorted l').eq_of_mem_iff (hsorted l) fun {v} => ?_
  rw [mem_filter, mem_filter, decide_eq_true_iff]
  refine and_congr_left fun hle => ⟨fun hv => ?_, h.mem_shown⟩
  obtain ⟨j, s', hs', hv⟩ := mem_shownFrom.1 hv
  rw [key_of_shown hkey hv] at hle
  obtain ⟨s, s'', hs, hs'', hevolves⟩ := h.get (by omega : j < l.length)
  cases hs'.symm.trans hs''
  by_cases hnone : s.owner = none
  · exact mem_shownFrom.2 ⟨j, s, hs, hevolves.2 hnone ▸ hv⟩
  · -- an open position of the topic is above `c`
    have ht := hevolves.1.symm.trans (closed_of_shown hv).2
    exact absurd (hc _ (mem_heldFrom.2 ⟨j, s, hs, hnone, ht, rfl⟩)) (not_lt.2 hle)

end

lemma mem_shown_of_close (hv : v ∈ shown f t (close l n)) :
    v ∈ shown f t l ∨ ∃ s ∈ l, s.owner = some n ∧ s.topic = t := by
  obtain ⟨j, s', hs', hv⟩ := mem_shownFrom.1 hv
  rw [close, getElem?_map] at hs'
  obtain ⟨s, hs, rfl⟩ := Option.map_eq_some_iff.1 hs'
  unfold Slot.close at hv
  split_ifs at hv with howner
  · exact .inr ⟨s, mem_of_getElem? hs, howner, (closed_of_shown hv).2⟩
  · exact .inl (mem_shownFrom.2 ⟨j, s, hs, hv⟩)

lemma mem_shown_of_discard (hv : v ∈ shown f t (discard l n)) : v ∈ shown f t l := by
  obtain ⟨j, s', hs', hv⟩ := mem_shownFrom.1 hv
  rw [discard, getElem?_map] at hs'
  obtain ⟨s, hs, rfl⟩ := Option.map_eq_some_iff.1 hs'
  unfold Slot.discard at hv
  split_ifs at hv
  · simp [Slot.shown] at hv
  · exact mem_shownFrom.2 ⟨j, s, hs, hv⟩

lemma mem_shown_of_fill {x : μ} (hv : v ∈ shown f t (fill l n j x)) : v ∈ shown f t l := by
  obtain ⟨k, s', hs', hv⟩ := mem_shownFrom.1 hv
  rw [fill, getElem?_modify] at hs'
  obtain ⟨s, hs, rfl⟩ := Option.map_eq_some_iff.1 hs'
  refine mem_shownFrom.2 ⟨k, s, hs, ?_⟩
  unfold Slot.fill at hv
  split_ifs at hv with hpos howner
  · exact absurd (closed_of_shown hv).1 (howner ▸ Option.some_ne_none n)
  · exact hv
  · exact hv

lemma mem_shown_of_draw {u : κ} (hv : v ∈ shown f t (draw l n u)) : v ∈ shown f t l := by
  obtain ⟨j, s, hs, hv⟩ := mem_shownFrom.1 hv
  by_cases hj : j < l.length
  · rw [draw, getElem?_append_left hj] at hs
    exact mem_shownFrom.2 ⟨j, s, hs, hv⟩
  · rw [draw, getElem?_append_right (not_lt.1 hj)] at hs
    obtain rfl := mem_singleton.1 (mem_of_getElem? hs)
    exact absurd (closed_of_shown hv).1 (Option.some_ne_none n)

end shown

/-! ## A reader -/

section reader

open PagedLog

variable [DecidableEq κ]

structure Caught (f : ℕ → μ → ν) (key : ν → ℕ) (t : κ) (start : ℕ) (l : List (Slot κ μ))
    (received : List ν) : Prop where
  received_eq : received = (after key (shown f t l) start).filter
    (key · ≤ cursor key start received)
  free : ∀ j ∈ held t l, cursor key start received < j
  le_length : cursor key start received ≤ l.length

variable {f : ℕ → μ → ν} {key : ν → ℕ} {t : κ} {start : ℕ} {l l' : List (Slot κ μ)}
  {received : List ν}

lemma Caught.evolves (hkey : ∀ i x, key (f i x) = i) (h : Caught f key t start l received)
    (he : Evolves l l') : Caught f key t start l' received where
  received_eq := by
    have hsame := he.shown_upTo (t := t) hkey h.le_length h.free
    have hcomm : ∀ l : List (Slot κ μ), (after key (shown f t l) start).filter
        (key · ≤ cursor key start received) = after key
          ((shown f t l).filter (key · ≤ cursor key start received)) start := fun l =>
      filter_comm _ _ _
    rw [hcomm, hsame, ← hcomm]
    exact h.received_eq
  free j hj := by
    rcases he.held hj with hj | hj
    · exact h.free j hj
    · exact h.le_length.trans_lt hj
  le_length := h.le_length.trans he.length_le

lemma Caught.page (hkey : ∀ i x, key (f i x) = i) (h : Caught f key t start l received)
    (hsettled : ∀ j ∈ held t l, ∀ v ∈ shown f t l, cursor key start received < key v → key v < j)
    (limit : ℕ) : Caught f key t start l
      (received ++ page key (shown f t l) (cursor key start received) limit) := by
  have hsorted : (shown f t l).Pairwise fun a b => key a < key b := shownFrom_pairwise hkey l 1
  have hprefix : received <+: after key (shown f t l) start := by
    rw [h.received_eq]
    exact filter_le_initial (after_pairwise hsorted)
  have hnext := received_page hsorted hprefix limit
  generalize hp : PagedLog.page key (shown f t l) (cursor key start received) limit = p at hnext ⊢
  suffices h' : (∀ j ∈ held t l, cursor key start (received ++ p) < j) ∧
      cursor key start (received ++ p) ≤ l.length from
    ⟨received_eq_filter hsorted hnext, h'.1, h'.2⟩
  by_cases hempty : p = []
  · rw [hempty, append_nil]
    exact ⟨h.free, h.le_length⟩
  · obtain ⟨v, hv, hcursor⟩ : ∃ v ∈ p, key v = cursor key (cursor key start received) p :=
      cursor_mem hempty
    subst hp
    obtain ⟨hshown, hlt⟩ := mem_after.1 (mem_of_mem_take hv)
    rw [← cursor_append, ← hcursor]
    refine ⟨fun j hj => hsettled j hj v hshown hlt, ?_⟩
    exact key_le_length hkey hshown

variable {v : ν}

section

variable (h : Caught f key t start l received)

include h

lemma Caught.mem (hv : v ∈ shown f t l)
    (hstart : start < key v) (hle : key v ≤ cursor key start received) : v ∈ received := by
  rw [h.received_eq]
  exact mem_filter.2 ⟨mem_after.2 ⟨hv, hstart⟩, decide_eq_true hle⟩

lemma Caught.le_cursor (hv : v ∈ received) : key v ≤ cursor key start received := by
  have hmem := h.received_eq ▸ hv
  exact of_decide_eq_true (mem_filter.1 hmem).2

lemma Caught.complete (hnone : ∀ v ∈ shown f t l, key v ≤ cursor key start received) :
    received = after key (shown f t l) start := by
  have hall : ∀ v ∈ after key (shown f t l) start, decide (key v ≤ cursor key start received) :=
    fun v hv => decide_eq_true (hnone v (mem_after.1 hv).1)
  exact h.received_eq.trans (filter_eq_self.2 hall)

end

end reader

end Slots
