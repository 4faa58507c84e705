import VaultSync.Ipc.SharedMemory

/-! How entries lie in the ring. Live entries form one chain from the head to the tail, or two
when they wrap around: one from the head to a wrap, one from the start to the tail. -/

namespace VaultSync.SharedMemory

open Bytes List SharedMemory

variable {b b' : Buffer} {C o z : ℕ} (e : RingBufferEntry) {es : List RingBufferEntry}

def RingBufferEntry.span : ℕ := entryHeaderWireSize + e.yrsUpdate.length

lemma RingBufferEntry.span_pos : 0 < e.span :=
  Nat.lt_of_lt_of_le (by decide : 0 < entryHeaderWireSize) (Nat.le_add_right _ _)

def RingBufferEntry.IdOk : Prop :=
  e.id.length ≤ 64 ∧ e.id.getLast? ≠ some 0

variable {e}

def Holds (b : Buffer) (o : ℕ) (e : RingBufferEntry) : Prop :=
  b.slice (headerSize + o) entryHeaderWireSize =
      encodeEntryHeader (entryHeader e.id e.yrsUpdate e.timestamp) ∧
    b.slice (headerSize + o + entryHeaderWireSize) e.yrsUpdate.length = e.yrsUpdate

/-- The entries lie one after the other from `o` to `z`, inside the first `C` bytes. -/
def Chain (b : Buffer) (C : ℕ) : ℕ → List RingBufferEntry → ℕ → Prop
  | o, [], z => o = z
  | o, e :: es, z => Holds b o e ∧ o + e.span ≤ C ∧ Chain b C (o + e.span) es z

def places : ℕ → List RingBufferEntry → List (ℕ × RingBufferEntry)
  | _, [] => []
  | o, e :: es => (o, e) :: places (o + e.span) es

@[simp] lemma map_snd_places (o : ℕ) (es : List RingBufferEntry) :
    (places o es).map Prod.snd = es := by
  induction es generalizing o with
  | nil => rfl
  | cons e es ih => rw [places, map_cons, ih]

@[simp] lemma length_places (o : ℕ) (es : List RingBufferEntry) :
    (places o es).length = es.length := by
  rw [← length_map (f := Prod.snd), map_snd_places]

lemma forall_of_places {P : RingBufferEntry → Prop} (h : ∀ p ∈ places o es, P p.2) :
    ∀ e ∈ es, P e := by
  intro e he
  rw [← map_snd_places o es] at he
  obtain ⟨p, hp, rfl⟩ := mem_map.1 he
  exact h p hp

lemma places_append {x : ℕ} {pre suf : List RingBufferEntry} (h : Chain b C o pre x) :
    places o (pre ++ suf) = places o pre ++ places x suf := by
  induction pre generalizing o with
  | nil =>
    cases h
    rfl
  | cons e pre ih => rw [cons_append, places, ih h.2.2, places, cons_append]

namespace Chain

lemma le (h : Chain b C o es z) : o ≤ z := by
  induction es generalizing o with
  | nil => exact h.le
  | cons e es ih => exact (Nat.le_add_right _ _).trans (ih h.2.2)

lemma le_capacity (h : Chain b C o es z) (ho : o ≤ C) : z ≤ C := by
  induction es generalizing o with
  | nil => exact h ▸ ho
  | cons e es ih => exact ih h.2.2 h.2.1

lemma lt (h : Chain b C o es z) (hne : es ≠ []) : o < z := by
  cases es with
  | nil => exact absurd rfl hne
  | cons e es =>
    exact (Nat.lt_add_of_pos_right e.span_pos).trans_le h.2.2.le

lemma append {x : ℕ} {pre suf : List RingBufferEntry} (h : Chain b C o pre x)
    (h' : Chain b C x suf z) : Chain b C o (pre ++ suf) z := by
  induction pre generalizing o with
  | nil =>
    cases h
    exact h'
  | cons e pre ih => exact ⟨h.1, h.2.1, ih h.2.2⟩

lemma end_cases (h : Chain b C o es z) : z = o ∨ ∃ p ∈ places o es, p.1 + p.2.span = z := by
  induction es generalizing o with
  | nil => exact .inl h.symm
  | cons e es ih =>
    right
    rcases ih h.2.2 with heq | ⟨p, hp, hz⟩
    · exact ⟨(o, e), mem_cons_self, heq.symm⟩
    · exact ⟨p, mem_cons_of_mem _ hp, hz⟩

end Chain

lemma Holds.congr (h : Holds b o e)
    (heq : ∀ i, headerSize + o ≤ i → i < headerSize + o + e.span → b'.byte i = b.byte i) :
    Holds b' o e := by
  unfold RingBufferEntry.span at heq
  constructor
  · rw [← h.1]
    exact Buffer.slice_congr fun i hi => heq _ (by omega) (by omega)
  · conv_rhs => rw [← h.2]
    exact Buffer.slice_congr fun i hi => heq _ (by omega) (by omega)

lemma Chain.congr (h : Chain b C o es z)
    (heq : ∀ i, headerSize + o ≤ i → i < headerSize + z → b'.byte i = b.byte i) :
    Chain b' C o es z := by
  induction es generalizing o with
  | nil => exact h
  | cons e es ih =>
    have hle := h.2.2.le
    refine ⟨h.1.congr fun i hlo hhi => heq i hlo (by omega), h.2.1, ih h.2.2 fun i hlo hhi => ?_⟩
    exact heq i (by omega) hhi

/-! ### What the loops find -/

lemma slotAt_of_holds (h : Holds b o e) (hroom : HasRoom b C o)
    (hlen : e.yrsUpdate.length < 2 ^ 32 - 1) :
    slotAt b C o = .entry (entryHeader e.id e.yrsUpdate e.timestamp) := by
  have hne : (entryHeader e.id e.yrsUpdate e.timestamp).yrsUpdateSize ≠ sentinelSize := by
    intro heq
    have hnat := congrArg UInt32.toNat heq
    simp only [entryHeader, UInt32.toNat_ofNat', sentinelSize] at hnat
    rw [Nat.mod_eq_of_lt (by omega)] at hnat
    exact absurd hnat (by simpa using hlen.ne)
  rw [slotAt, if_pos hroom, h.1, decodeEntryHeader_encodeEntryHeader]
  exact if_neg hne

section Loops

variable {tail newTail left head : ℕ} (hb : C + headerSize ≤ b.size) (hC : C < 2 ^ 32)

lemma headIsBetween_iff (h : tail ≤ newTail) :
    headIsBetween head tail newTail = true ↔ tail ≤ head ∧ head < newTail := by
  simp [headIsBetween, h]

section Between

variable (hn : tail ≤ newTail)

include hn

lemma advanceHead_done (h : head < tail ∨ newTail ≤ head) :
    advanceHead b C tail newTail left head = (head, tail) := by
  have hout : ¬ headIsBetween head tail newTail = true := by
    rw [headIsBetween_iff hn]
    omega
  unfold advanceHead
  rw [if_neg hout]

lemma advanceHead_zero (h : tail ≤ head ∧ head < newTail) :
    advanceHead b C tail newTail 0 head = (0, 0) := by
  unfold advanceHead
  rw [if_pos ((headIsBetween_iff hn).2 h)]

lemma advanceHead_succ (h : tail ≤ head ∧ head < newTail) :
    advanceHead b C tail newTail (left + 1) head =
      advanceHead b C tail newTail left (nextHead b C head) := by
  conv_lhs => unfold advanceHead
  rw [if_pos ((headIsBetween_iff hn).2 h)]

lemma advanceHead_reset {P : ℕ → Prop}
    (hP : ∀ x, P x → (tail ≤ x ∧ x < newTail) ∧ P (nextHead b C x)) (hhead : P head) :
    advanceHead b C tail newTail left head = (0, 0) := by
  induction left generalizing head with
  | zero => exact advanceHead_zero hn (hP head hhead).1
  | succ left ih => rw [advanceHead_succ hn (hP head hhead).1, ih (hP head hhead).2]

end Between

include hb hC

lemma Chain.slotAt_head (h : Chain b C o (e :: es) z) :
    slotAt b C o = .entry (entryHeader e.id e.yrsUpdate e.timestamp) ∧
      (entryHeader e.id e.yrsUpdate e.timestamp).yrsUpdateSize.toNat = e.yrsUpdate.length := by
  have hle := h.2.1
  unfold RingBufferEntry.span at hle
  have hlen : e.yrsUpdate.length < 2 ^ 32 - 1 := by
    have : entryHeaderWireSize = 76 := rfl
    omega
  refine ⟨slotAt_of_holds h.1 ⟨by omega, by omega⟩ hlen, ?_⟩
  rw [entryHeader, UInt32.toNat_ofNat', Nat.mod_eq_of_lt (by omega)]

lemma Chain.nextHead_head (h : Chain b C o (e :: es) z) : nextHead b C o = o + e.span := by
  obtain ⟨hslot, hlen⟩ := h.slotAt_head hb hC
  rw [nextHead, hslot]
  simp only [hlen]
  exact if_pos h.2.1

lemma Chain.advanceHead (h : Chain b C o es z) (ht : tail ≤ o) (hn : tail ≤ newTail)
    (hlen : es.length ≤ left) :
    ∃ pre suf x, es = pre ++ suf ∧ Chain b C o pre x ∧ Chain b C x suf z ∧
      (newTail ≤ x ∨ suf = [] ∧ x < newTail) ∧
      advanceHead b C tail newTail left o =
        advanceHead b C tail newTail (left - pre.length) x := by
  induction es generalizing o left with
  | nil => exact ⟨[], [], o, rfl, rfl, h, (le_or_gt newTail o).imp_right fun hlt => ⟨rfl, hlt⟩, rfl⟩
  | cons e es ih =>
    rcases le_or_gt newTail o with hle | hlt
    · exact ⟨[], e :: es, o, rfl, rfl, h, .inl hle, rfl⟩
    obtain ⟨left, rfl⟩ := Nat.exists_eq_add_of_le' (Nat.lt_of_lt_of_le (Nat.succ_pos _) hlen)
    obtain ⟨pre, suf, x, rfl, hpre, hsuf, hx, heq⟩ :=
      ih (o := o + e.span) h.2.2 (ht.trans (Nat.le_add_right _ _))
        (Nat.le_of_succ_le_succ hlen)
    refine ⟨e :: pre, suf, x, rfl, ⟨h.1, h.2.1, hpre⟩, hsuf, hx, ?_⟩
    rw [advanceHead_succ hn ⟨ht, hlt⟩, h.nextHead_head hb hC, heq,
      length_cons, Nat.add_sub_add_right]

lemma Chain.advanceHead_stop (h : Chain b C o es z) (ht : tail ≤ o) (hn : tail ≤ newTail)
    (ho : o ≠ newTail) (hends : ∀ p ∈ places o es, p.1 + p.2.span ≠ newTail)
    (hlen : es.length ≤ left) :
    (∃ pre suf x, es = pre ++ suf ∧ newTail < x ∧ Chain b C x suf z ∧
      SharedMemory.advanceHead b C tail newTail left o = (x, tail)) ∨
    (z < newTail ∧ SharedMemory.advanceHead b C tail newTail left o =
      SharedMemory.advanceHead b C tail newTail (left - es.length) z) := by
  obtain ⟨pre, suf, x, rfl, hpre, hsuf, hx, heq⟩ := h.advanceHead hb hC ht hn hlen
  rcases hx with hx | ⟨rfl, hx⟩
  · left
    have hne : x ≠ newTail := by
      rcases hpre.end_cases with rfl | ⟨p, hp, rfl⟩
      · exact ho
      · exact hends p (by rw [places_append hpre]; exact mem_append_left _ hp)
    exact ⟨pre, suf, x, rfl, lt_of_le_of_ne hx hne.symm, hsuf,
      heq.trans (advanceHead_done hn (.inr hx))⟩
  · right
    cases hsuf
    rw [append_nil]
    exact ⟨hx, heq⟩

lemma Chain.readLoop (h : Chain b C o es z) (hids : ∀ e ∈ es, e.IdOk)
    (htail : z ≤ tail ∨ tail < o) (hlen : es.length ≤ left) :
    readLoop b C tail left o =
      places o es ++ readLoop b C tail (left - es.length) z := by
  induction es generalizing o left with
  | nil =>
    cases h
    rfl
  | cons e es ih =>
    obtain ⟨left, rfl⟩ := Nat.exists_eq_add_of_le' (Nat.lt_of_lt_of_le (Nat.succ_pos _) hlen)
    obtain ⟨hslot, hsize⟩ := h.slotAt_head hb hC
    have hlt : o < z := h.lt (by simp)
    have hne : o ≠ tail := by omega
    have hfit := h.2.1
    have hspan : o + entryHeaderWireSize + e.yrsUpdate.length = o + e.span := Nat.add_assoc _ _ _
    have hrest := ih (o := o + e.span) h.2.2
      (fun e he => hids e (mem_cons_of_mem _ he)) (htail.imp_right fun ht => by omega)
      (Nat.le_of_succ_le_succ hlen)
    have hid := hids e mem_cons_self
    conv_lhs => unfold readLoop
    rw [if_neg hne, hslot]
    simp only [hsize]
    rw [if_neg (by omega), if_neg (by omega), hspan, hrest, h.1.2, entryHeader,
      trim_ofId hid.1 hid.2, places, cons_append, length_cons, Nat.add_sub_add_right]

omit hb hC in
lemma readLoop_tail : readLoop b C tail left tail = [] := by
  cases left with
  | zero => rfl
  | succ left => exact if_pos rfl

omit hb hC in
lemma readLoop_wrap (hslot : slotAt b C o = .wrap) (hne : o ≠ tail) (ht : 0 < tail) :
    readLoop b C tail (left + 1) o = readLoop b C tail left 0 := by
  conv_lhs => unfold readLoop
  rw [if_neg hne, hslot]
  exact if_neg ht.ne

end Loops

end VaultSync.SharedMemory
