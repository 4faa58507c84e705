import VaultSync.Ipc.RingLayout

/-! What a write leaves in the ring. -/

namespace VaultSync.SharedMemory

open Bytes List Buffer

variable {m m' : SharedMemory} {b b' : Buffer} {C hd tl : ℕ} {e : RingBufferEntry}
  {es : List RingBufferEntry}

variable (m)

def header : Header := readHeader m.mmap

def head : ℕ := m.header.ringBufferHead.toNat

def tail : ℕ := m.header.ringBufferTail.toNat

def ringCapacity : ℕ := m.header.ringBufferCapacity.toNat

lemma ringCapacity_lt : m.ringCapacity < 2 ^ 32 := UInt32.toNat_lt _

structure Straight (b : Buffer) (C hd tl : ℕ) (es : List RingBufferEntry) : Prop where
  head_eq : hd = 0
  ne_nil : es ≠ []
  chain : Chain b C 0 es tl

/-- The older entries go from the head to a wrap at `p`, the newer ones from offset 0 to the
tail, which is below the head. -/
structure Wrapped (b : Buffer) (C hd tl p : ℕ) (up low : List RingBufferEntry) : Prop where
  upper : Chain b C hd up p
  wrap : slotAt b C p = .wrap
  le : p ≤ C
  lower : Chain b C 0 low tl
  ne_nil : low ≠ []
  lt : tl < hd

inductive Laid (b : Buffer) (C hd tl : ℕ) : List (ℕ × RingBufferEntry) → Prop
  | straight {es : List RingBufferEntry} (h : Straight b C hd tl es) :
    Laid b C hd tl (places 0 es)
  | wrapped {p : ℕ} {up low : List RingBufferEntry} (h : Wrapped b C hd tl p up low) :
    Laid b C hd tl (places hd up ++ places 0 low)

structure Live (l : List (ℕ × RingBufferEntry)) : Prop where
  fits : m.ringCapacity + headerSize ≤ m.mmap.size
  ids : ∀ p ∈ l, p.2.IdOk
  count : l.length < maxLoopCount
  laid : Laid m.mmap m.ringCapacity m.head m.tail l

variable {m}

/-! ### Reading -/

lemma Straight.bounds (h : Straight b C hd tl es) : hd < tl ∧ tl ≤ C := by
  obtain ⟨rfl, hne, hchain⟩ := h
  exact ⟨hchain.lt hne, hchain.le_capacity (Nat.zero_le _)⟩

variable {p : ℕ}

lemma Wrapped.bounds {up low : List RingBufferEntry}
    (h : Wrapped b C hd tl p up low) : 0 < tl ∧ hd ≤ p :=
  ⟨h.lower.lt h.ne_nil, h.upper.le⟩

lemma Laid.bounds {l : List (ℕ × RingBufferEntry)} (h : Laid b C hd tl l) :
    hd ≤ C ∧ tl ≤ C ∧ hd ≠ tl ∧ 0 < tl ∧ l ≠ [] := by
  cases h with
  | straight h =>
    obtain ⟨hlt, hle⟩ := h.bounds
    refine ⟨hlt.le.trans hle, hle, hlt.ne, Nat.zero_lt_of_lt hlt, fun hnil => h.ne_nil ?_⟩
    simpa using congrArg (List.map Prod.snd) hnil
  | wrapped h =>
    obtain ⟨hpos, hle⟩ := h.bounds
    have hC := hle.trans h.le
    refine ⟨hC, h.lt.le.trans hC, h.lt.ne', hpos, fun hnil => h.ne_nil ?_⟩
    simpa using congrArg (List.map Prod.snd) (append_eq_nil_iff.1 hnil).2

lemma Laid.readLoop {l : List (ℕ × RingBufferEntry)} (h : Laid b C hd tl l)
    (hb : C + headerSize ≤ b.size) (hC : C < 2 ^ 32) (hids : ∀ p ∈ l, p.2.IdOk) {left : ℕ}
    (hleft : l.length < left) : SharedMemory.readLoop b C tl left hd = l := by
  cases h with
  | @straight es h =>
    rw [length_places] at hleft
    rw [h.head_eq, h.chain.readLoop hb hC (forall_of_places hids) (.inl le_rfl) hleft.le,
      readLoop_tail, append_nil]
  | @wrapped p up low h =>
    obtain ⟨hpos, hle⟩ := h.bounds
    rw [length_append, length_places, length_places] at hleft
    have hup := forall_of_places fun p hp => hids p (mem_append_left _ hp)
    have hlow := forall_of_places fun p hp => hids p (mem_append_right _ hp)
    obtain ⟨n, hn⟩ : ∃ n, left - up.length = n + 1 := ⟨left - up.length - 1, by omega⟩
    rw [h.upper.readLoop hb hC hup (.inr h.lt) (by omega), hn,
      readLoop_wrap h.wrap (h.lt.trans_le hle).ne' hpos,
      h.lower.readLoop hb hC hlow (.inl le_rfl) (by omega), readLoop_tail, append_nil]

lemma Live.walk {l : List (ℕ × RingBufferEntry)} (h : m.Live l) : m.walk = .ok l := by
  obtain ⟨hhead, htail, hne, -⟩ := h.laid.bounds
  have hsize := h.fits
  have hloop := h.laid.readLoop h.fits m.ringCapacity_lt h.ids h.count
  unfold ringCapacity SharedMemory.head SharedMemory.tail header at *
  rw [SharedMemory.walk, if_neg (by omega), if_neg (by omega), if_neg hne, hloop]

/-! ### Writing -/

def SameOutside (b b' : Buffer) (o n : ℕ) : Prop :=
  ∀ i, headerSize ≤ i → i < headerSize + o ∨ headerSize + o + n ≤ i → b'.byte i = b.byte i

structure StoredEntry (b b' : Buffer) (h : Header) (hd tl newTail : ℕ) (e : RingBufferEntry) :
    Prop where
  size : b'.size = b.size
  header : readHeader b' =
    { h with ringBufferHead := UInt32.ofNat hd, ringBufferTail := UInt32.ofNat newTail }
  holds : Holds b' tl e
  same : SameOutside b b' tl e.span

lemma storeEntry_ok {h : Header} {newTail : ℕ}
    (hok : storeEntry b h hd tl newTail e.id e.yrsUpdate e.timestamp = .ok b') :
    StoredEntry b b' h hd tl newTail e := by
  unfold storeEntry at hok
  simp only at hok
  split_ifs at hok with hsize
  injection hok with hok
  subst hok
  have hspan : e.span = entryHeaderWireSize + e.yrsUpdate.length := rfl
  let b1 := b.copy (headerSize + tl) (encodeEntryHeader (entryHeader e.id e.yrsUpdate e.timestamp))
  let b2 := b1.copy (headerSize + tl + entryHeaderWireSize) e.yrsUpdate
  have hhead : b1.slice (headerSize + tl) entryHeaderWireSize =
      encodeEntryHeader (entryHeader e.id e.yrsUpdate e.timestamp) := by
    have hself := b.slice_copy_self (headerSize + tl)
      (encodeEntryHeader (entryHeader e.id e.yrsUpdate e.timestamp))
    rwa [length_encodeEntryHeader] at hself
  have hsize2 : headerSize ≤ b2.size := by
    change headerSize ≤ b.size
    omega
  refine ⟨size_writeHeader b2 _, readHeader_writeHeader hsize2 _, ⟨?_, ?_⟩, fun i hi hout => ?_⟩
  · refine (slice_congr fun i hi => ?_).trans hhead
    rw [byte_writeHeader _ (by omega)]
    exact byte_copy_of_outside (.inl (by omega))
  · refine (slice_congr fun i hi => ?_).trans (b1.slice_copy_self _ _)
    exact byte_writeHeader _ (by omega)
  · rw [byte_writeHeader _ hi, byte_copy_of_outside (by omega),
      byte_copy_of_outside (by rw [length_encodeEntryHeader]; omega)]

lemma markWrap_same (b : Buffer) (C tl : ℕ) :
    SameOutside b (markWrap b C tl) tl entryHeaderWireSize := by
  intro i hi hout
  unfold markWrap
  split_ifs
  · exact byte_copy_of_outside (by rw [length_encodeEntryHeader]; exact hout)
  · rfl

@[simp] lemma size_markWrap (b : Buffer) (C tl : ℕ) : (markWrap b C tl).size = b.size := by
  unfold markWrap
  split_ifs <;> rfl

lemma slotAt_markWrap (b : Buffer) (C tl : ℕ) : slotAt (markWrap b C tl) C tl = .wrap := by
  unfold slotAt
  split_ifs with hroom
  · have hmark : markWrap b C tl = b.copy (headerSize + tl) (encodeEntryHeader sentinel) :=
      if_pos hroom.1
    have hself := b.slice_copy_self (headerSize + tl) (encodeEntryHeader sentinel)
    rw [length_encodeEntryHeader] at hself
    rw [hmark, hself, decodeEntryHeader_encodeEntryHeader]
    rfl
  · rfl

lemma slotAt_congr (hsize : b'.size = b.size)
    (heq : ∀ i, headerSize + p ≤ i → b'.byte i = b.byte i) : slotAt b' C p = slotAt b C p := by
  have hslice : b'.slice (headerSize + p) entryHeaderWireSize =
      b.slice (headerSize + p) entryHeaderWireSize :=
    slice_congr fun i _ => heq _ (Nat.le_add_right _ _)
  have hroom : HasRoom b' C p ↔ HasRoom b C p := by rw [HasRoom, HasRoom, hsize]
  simp only [slotAt, hroom, hslice]

structure Wrote (m m' : SharedMemory) (e : RingBufferEntry) (b : Buffer) (tl hd tl' : ℕ) :
    Prop where
  le : tl + e.span ≤ m.ringCapacity
  advanced : advanceHead b m.ringCapacity tl (tl + e.span) maxLoopCount m.head = (hd, tl')
  stored : StoredEntry b m'.mmap m.header hd tl' (tl + e.span) e

lemma writeAt_ok (hok : m.writeAt m.header b m.head tl e.id e.yrsUpdate e.timestamp = .ok m') :
    ∃ hd tl', Wrote m m' e b tl hd tl' := by
  unfold writeAt at hok
  dsimp only at hok
  split_ifs at hok with hle
  cases hst : storeEntry b m.header
      (advanceHead b m.ringCapacity tl (tl + e.span) maxLoopCount m.head).1
      (advanceHead b m.ringCapacity tl (tl + e.span) maxLoopCount m.head).2
      (tl + e.span) e.id e.yrsUpdate e.timestamp with
  | error err =>
    have := congrArg (Except.map fun b => { m with mmap := b }) hst
    cases hok.symm.trans this
  | ok b' =>
    have := congrArg (Except.map fun b => { m with mmap := b }) hst
    cases hok.symm.trans this
    exact ⟨_, _, not_lt.1 hle, rfl, storeEntry_ok hst⟩

lemma writeEntry_ok (hhead : m.head ≤ m.ringCapacity) (htail : m.tail ≤ m.ringCapacity)
    (hok : m.writeEntry e.id e.yrsUpdate e.timestamp = .ok m') :
    (m.tail + e.span ≤ m.ringCapacity ∧ ∃ hd tl', Wrote m m' e m.mmap m.tail hd tl') ∨
    (m.ringCapacity < m.tail + e.span ∧
      ∃ hd tl', Wrote m m' e (markWrap m.mmap m.ringCapacity m.tail) 0 hd tl') := by
  have hin : ¬ (m.ringCapacity < m.head ∨ m.ringCapacity < m.tail) :=
    not_or.2 ⟨hhead.not_gt, htail.not_gt⟩
  unfold writeEntry writeFrom at hok
  dsimp only at hok
  split_ifs at hok with _ _ hout _ hwrap
  · exact absurd hout hin
  · exact absurd hout hin
  · exact .inr ⟨hwrap, writeAt_ok hok⟩
  · exact .inl ⟨not_lt.1 hwrap, writeAt_ok hok⟩

lemma Wrote.state {tl' : ℕ} (h : Wrote m m' e b tl hd tl') (hhd : hd ≤ m.ringCapacity) :
    m'.ringCapacity = m.ringCapacity ∧ m'.head = hd ∧ m'.tail = tl + e.span := by
  have hC := m.ringCapacity_lt
  have hle := h.le
  have hheader : m'.header = _ := h.stored.header
  refine ⟨?_, ?_, ?_⟩
  · rw [ringCapacity, hheader]
    rfl
  · rw [SharedMemory.head, hheader]
    exact (UInt32.toNat_ofNat').trans (Nat.mod_eq_of_lt (by omega))
  · rw [SharedMemory.tail, hheader]
    exact (UInt32.toNat_ofNat').trans (Nat.mod_eq_of_lt (by omega))

lemma Wrote.chain_single {tl' : ℕ} (h : Wrote m m' e b tl hd tl') (hle : tl' + e.span ≤ C) :
    Chain m'.mmap C tl' [e] (tl' + e.span) := ⟨h.stored.holds, hle, rfl⟩

lemma Wrote.chain_congr {tl' o z : ℕ} (h : Wrote m m' e b tl hd tl') (hc : Chain b C o es z)
    (hout : z ≤ tl' ∨ tl' + e.span ≤ o) : Chain m'.mmap C o es z :=
  hc.congr fun i hlo hhi => h.stored.same i (by omega) (by omega)

section Step

variable {l : List (ℕ × RingBufferEntry)} {hd' tl' : ℕ}

def LaidAfter (b : Buffer) (C hd tl : ℕ) (es : List RingBufferEntry) (e : RingBufferEntry) : Prop :=
  ∃ k l, k ≤ es.length ∧ Laid b C hd tl l ∧ l.map Prod.snd = es.drop k ++ [e]

lemma Straight.laidAfter (h : Straight b C hd tl (es ++ [e])) (pre : List RingBufferEntry) :
    LaidAfter b C hd tl (pre ++ es) e :=
  ⟨pre.length, _, by simp, .straight h, by simp⟩

variable {p : ℕ} {up low : List RingBufferEntry}

lemma Wrapped.laidAfter (h : Wrapped b C hd tl p up (low ++ [e])) (pre : List RingBufferEntry) :
    LaidAfter b C hd tl (pre ++ up ++ low) e :=
  ⟨pre.length, _, by simp, .wrapped h, by simp⟩

lemma Straight.append (h : Straight m.mmap m.ringCapacity m.head m.tail es)
    (hw : Wrote m m' e m.mmap m.tail hd' tl') :
    LaidAfter m'.mmap m.ringCapacity hd' (m.tail + e.span) es e := by
  have hbounds := h.bounds
  have hadv := hw.advanced
  rw [advanceHead_done (Nat.le_add_right _ _) (by omega), h.head_eq] at hadv
  cases hadv
  refine Straight.laidAfter ⟨rfl, by simp, ?_⟩ []
  exact (hw.chain_congr h.chain (.inl le_rfl)).append (hw.chain_single hw.le)

lemma Chain.advanceHead_covered (h : Chain b C 0 es tl) (hb : C + headerSize ≤ b.size)
    (hC : C < 2 ^ 32) (hwrap : slotAt b C tl = .wrap) {n left : ℕ} (hn : tl < n) :
    SharedMemory.advanceHead b C 0 n left 0 = (0, 0) := by
  refine advanceHead_reset (Nat.zero_le _)
    (P := fun x => ∃ pre suf, es = pre ++ suf ∧ Chain b C 0 pre x ∧ Chain b C x suf tl)
    ?_ ⟨[], es, rfl, rfl, h⟩
  rintro x ⟨pre, suf, rfl, hpre, hsuf⟩
  refine ⟨⟨Nat.zero_le _, hsuf.le.trans_lt hn⟩, ?_⟩
  cases suf with
  | nil =>
    cases hsuf
    refine ⟨[], pre ++ [], rfl, ?_, by simpa [nextHead, hwrap] using h⟩
    simp [nextHead, hwrap, Chain]
  | cons x' suf =>
    rw [hsuf.nextHead_head hb hC]
    exact ⟨pre ++ [x'], suf, by simp, hpre.append ⟨hsuf.1, hsuf.2.1, rfl⟩, hsuf.2.2⟩

lemma Straight.wrap (h : Straight m.mmap m.ringCapacity m.head m.tail es)
    (hw : Wrote m m' e (markWrap m.mmap m.ringCapacity m.tail) 0 hd' tl')
    (hfits : m.ringCapacity + headerSize ≤ m.mmap.size) (hlen : es.length ≤ maxLoopCount)
    (hends : ∀ p ∈ places 0 es, p.1 + p.2.span ≠ e.span) :
    LaidAfter m'.mmap m.ringCapacity hd' (0 + e.span) es e := by
  have hC := m.ringCapacity_lt
  have hslot := slotAt_markWrap m.mmap m.ringCapacity m.tail
  have hchain : Chain (markWrap m.mmap m.ringCapacity m.tail) m.ringCapacity 0 es m.tail :=
    h.chain.congr fun i hlo hhi => markWrap_same _ _ _ i (by omega) (.inl hhi)
  have hb : m.ringCapacity + headerSize ≤ (markWrap m.mmap m.ringCapacity m.tail).size := by
    rwa [size_markWrap]
  have hadv := hw.advanced
  rw [h.head_eq, Nat.zero_add] at hadv
  rcases hchain.advanceHead_stop hb hC le_rfl (Nat.zero_le _) e.span_pos.ne hends hlen with
    ⟨pre, suf, x, rfl, hlt, hsuf, heq⟩ | ⟨hlt, -⟩
  · cases heq.symm.trans hadv
    have hle := hsuf.le
    have hwr : Wrapped m'.mmap m.ringCapacity hd' (0 + e.span) m.tail suf ([] ++ [e]) := {
      upper := hw.chain_congr hsuf (.inr (by omega))
      wrap := (slotAt_congr hw.stored.size fun i hi =>
        hw.stored.same i (by omega) (.inr (by omega))).trans hslot
      le := h.bounds.2
      lower := hw.chain_single hw.le
      ne_nil := by simp
      lt := by omega }
    simpa using hwr.laidAfter pre
  · cases (hchain.advanceHead_covered hb hC hslot hlt).symm.trans hadv
    have hst : Straight m'.mmap m.ringCapacity 0 (0 + e.span) ([] ++ [e]) :=
      ⟨rfl, by simp, hw.chain_single hw.le⟩
    simpa using hst.laidAfter es

lemma Wrapped.append (h : Wrapped m.mmap m.ringCapacity m.head m.tail p up low)
    (hw : Wrote m m' e m.mmap m.tail hd' tl') (hfits : m.ringCapacity + headerSize ≤ m.mmap.size)
    (hlen : up.length < maxLoopCount) (hhead : m.head ≠ m.tail + e.span)
    (hends : ∀ q ∈ places m.head up, q.1 + q.2.span ≠ m.tail + e.span) :
    LaidAfter m'.mmap m.ringCapacity hd' (m.tail + e.span) (up ++ low) e := by
  obtain ⟨hpos, hle⟩ := h.bounds
  have htail := h.lt
  have hadv := hw.advanced
  have hlower {b : Buffer} {hd'' : ℕ} (hw : Wrote m m' e b m.tail hd'' m.tail)
      (hc : Chain b m.ringCapacity 0 low m.tail) :
      Chain m'.mmap m.ringCapacity 0 (low ++ [e]) (m.tail + e.span) :=
    (hw.chain_congr hc (.inl le_rfl)).append (hw.chain_single hw.le)
  rcases h.upper.advanceHead_stop hfits m.ringCapacity_lt h.lt.le (Nat.le_add_right _ _) hhead hends
    hlen.le with ⟨pre, suf, x, rfl, hlt, hsuf, heq⟩ | ⟨hlt, heq⟩
  · cases heq.symm.trans hadv
    have hxp := hsuf.le
    have hwr : Wrapped m'.mmap m.ringCapacity hd' (m.tail + e.span) p suf (low ++ [e]) := {
      upper := hw.chain_congr hsuf (.inr hlt.le)
      wrap := (slotAt_congr hw.stored.size fun i hi =>
        hw.stored.same i (by omega) (.inr (by omega))).trans h.wrap
      le := h.le
      lower := hlower hw h.lower
      ne_nil := by simp
      lt := hlt }
    exact hwr.laidAfter pre
  · -- all the older entries go, and the head jumps to the start
    obtain ⟨n, hn⟩ : ∃ n, maxLoopCount - up.length = n + 1 :=
      ⟨maxLoopCount - up.length - 1, by omega⟩
    have hnext : nextHead m.mmap m.ringCapacity p = 0 := by rw [nextHead, h.wrap]
    rw [heq, hn, advanceHead_succ (Nat.le_add_right _ _) ⟨by omega, hlt⟩, hnext,
      advanceHead_done (Nat.le_add_right _ _) (.inl hpos)] at hadv
    cases hadv
    exact Straight.laidAfter ⟨rfl, by simp, hlower hw h.lower⟩ up

end Step

end VaultSync.SharedMemory
