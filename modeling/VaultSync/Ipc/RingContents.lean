import VaultSync.Ipc.RingWrites

/-! What `read_uncommitted` returns after a sequence of writes. -/

namespace VaultSync.SharedMemory

open Bytes List SharedMemory

variable {m m' : SharedMemory} {e : RingBufferEntry} {es : List RingBufferEntry}
  {l : List (ℕ × RingBufferEntry)}

variable (m)

def newTail (n : ℕ) : ℕ :=
  if m.ringCapacity < m.tail + n then n else m.tail + n

/-- What the first write needs. Every header of the new buffer reads as an empty entry, so the
loop takes the head along the multiples of 76, up to the end of the entry or until it is given
up. No empty entry must remain between the head and the end of the ring. -/
def FirstOk (capacity n : ℕ) : Prop :=
  76 * 10000 < n ∨ (¬ 76 ∣ n ∧ capacity < (n + 75) / 76 * 76 + 76)

/-- What a later write needs: entries that wrap around already leave room behind the tail, the
new entry ends neither at the head nor where another entry ends, and the loops get around. -/
def LaterOk (n : ℕ) (l : List (ℕ × RingBufferEntry)) : Prop :=
  (m.ringCapacity < m.tail + n → m.head < m.tail) ∧ m.head ≠ m.newTail n ∧
    l.length + 1 < maxLoopCount ∧ ∀ p ∈ l, p.1 + p.2.span ≠ m.newTail n

def WriteOk (e : RingBufferEntry) : Prop :=
  if m.head = m.tail then FirstOk m.ringCapacity e.span
  else
    match m.walk with
    | .ok l => m.LaterOk e.span l
    | .error _ => False

def write (e : RingBufferEntry) : Except VaultSyncError SharedMemory :=
  m.writeEntry e.id e.yrsUpdate e.timestamp

variable {m}

def writeAll (m : SharedMemory) : List RingBufferEntry → Except VaultSyncError SharedMemory
  | [] => .ok m
  | e :: es =>
    match m.write e with
    | .ok m' => m'.writeAll es
    | .error err => .error err

def AllOk (m : SharedMemory) : List RingBufferEntry → Prop
  | [] => True
  | e :: es =>
    m.WriteOk e ∧
      match m.write e with
      | .ok m' => m'.AllOk es
      | .error _ => True

instance (capacity n : ℕ) : Decidable (FirstOk capacity n) := inferInstanceAs (Decidable (_ ∨ _))

instance (m : SharedMemory) (n : ℕ) (l : List (ℕ × RingBufferEntry)) : Decidable (m.LaterOk n l) :=
  inferInstanceAs (Decidable (_ ∧ _))

instance (m : SharedMemory) (e : RingBufferEntry) : Decidable (m.WriteOk e) :=
  if h : m.head = m.tail then
    decidable_of_iff (FirstOk m.ringCapacity e.span) (by rw [WriteOk, if_pos h])
  else
    match hw : m.walk with
    | .ok l => decidable_of_iff (m.LaterOk e.span l) (by rw [WriteOk, if_neg h, hw])
    | .error _ => isFalse (by rw [WriteOk, if_neg h, hw]; exact id)

instance : (m : SharedMemory) → (es : List RingBufferEntry) → Decidable (m.AllOk es)
  | _, [] => inferInstanceAs (Decidable True)
  | m, e :: es =>
    match h : m.write e with
    | .ok m' =>
      have := instDecidableAllOk m' es
      decidable_of_iff (m.WriteOk e ∧ m'.AllOk es) (by rw [AllOk, h])
    | .error _ => decidable_of_iff (m.WriteOk e) (by rw [AllOk, h, and_true])

/-! ### A write among live entries -/

lemma Wrote.live {b : Buffer} {tl hd' tl' : ℕ} (h : Wrote m m' e b tl hd' tl')
    (hfits : m.ringCapacity + headerSize ≤ b.size)
    (hl : LaidAfter m'.mmap m.ringCapacity hd' (tl + e.span) es e) (hids : ∀ x ∈ es, x.IdOk)
    (hid : e.IdOk) (hlen : es.length + 1 < maxLoopCount) :
    ∃ k l', k ≤ es.length ∧ m'.Live l' ∧ l'.map Prod.snd = es.drop k ++ [e] := by
  obtain ⟨k, l', hk, hlaid, hmap⟩ := hl
  obtain ⟨hC, hhd, htl⟩ := h.state hlaid.bounds.1
  refine ⟨k, l', hk, ⟨?_, fun p hp => ?_, ?_, ?_⟩, hmap⟩
  · rw [hC, h.stored.size]
    exact hfits
  · have hmem : p.2 ∈ es.drop k ++ [e] := hmap ▸ mem_map_of_mem hp
    rcases mem_append.1 hmem with hmem | hmem
    · exact hids _ (mem_of_mem_drop hmem)
    · exact mem_singleton.1 hmem ▸ hid
  · have hlength := congrArg List.length hmap
    simp only [length_map, length_append, length_drop, length_singleton]
      at hlength
    omega
  · rw [hC, hhd, htl]
    exact hlaid

lemma Live.write (h : m.Live l) (hid : e.IdOk) (hok : m.LaterOk e.span l)
    (hw : m.write e = .ok m') :
    ∃ k l', k ≤ (l.map Prod.snd).length ∧ m'.Live l' ∧
      l'.map Prod.snd = (l.map Prod.snd).drop k ++ [e] := by
  obtain ⟨hfit, hhead, hlen, hends⟩ := hok
  obtain ⟨hhC, htC, -⟩ := h.laid.bounds
  have hids : ∀ x ∈ l.map Prod.snd, x.IdOk := by
    intro x hx
    obtain ⟨p, hp, rfl⟩ := mem_map.1 hx
    exact h.ids p hp
  rw [← length_map (f := Prod.snd)] at hlen
  rcases writeEntry_ok hhC htC hw with ⟨hle, hd', tl', hwrote⟩ | ⟨hlt, hd', tl', hwrote⟩
  · have hnew : m.newTail e.span = m.tail + e.span := if_neg hle.not_gt
    rw [hnew] at hhead hends
    refine hwrote.live h.fits ?_ hids hid hlen
    cases h.laid with
    | straight hs => simpa using hs.append hwrote
    | wrapped hs =>
      simp only [map_append, map_snd_places, length_append] at hlen ⊢
      exact hs.append hwrote h.fits (by omega) hhead fun q hq => hends q (mem_append_left _ hq)
  · have hnew : m.newTail e.span = e.span := if_pos hlt
    rw [hnew] at hhead hends
    refine hwrote.live (by rw [size_markWrap]; exact h.fits) ?_ hids hid hlen
    cases h.laid with
    | straight hs =>
      rw [map_snd_places] at hlen ⊢
      exact hs.wrap hwrote h.fits (by omega) hends
    | wrapped hs => exact absurd (hfit hlt) hs.lt.not_gt

/-! ### The first write -/

section First

variable {size : ℕ}

lemma header_createInPath (hsize : headerSize ≤ size) : (createInPath size).header =
    ⟨.zeros, 0, 0, 0, 0, UInt32.ofNat (size - headerSize), 0, 0⟩ :=
  readHeader_writeHeader hsize _

variable {C o : ℕ}

lemma slotAt_createInPath (hroom : HasRoom (createInPath size).mmap C o) :
    ∃ h : EntryHeader, h.yrsUpdateSize = 0 ∧ slotAt (createInPath size).mmap C o = .entry h := by
  have hzero : (createInPath size).mmap.slice (headerSize + o) entryHeaderWireSize =
      List.replicate entryHeaderWireSize 0 := by
    rw [← Buffer.slice_zeros size (headerSize + o)]
    exact Buffer.slice_congr fun i _ => byte_writeHeader _ (by omega)
  refine ⟨⟨.zeros, 0, 0⟩, rfl, ?_⟩
  rw [slotAt, if_pos hroom, hzero]
  rfl

lemma nextHead_createInPath (hC : C + headerSize ≤ size) :
    nextHead (createInPath size).mmap C o = if o + 76 ≤ C then o + 76 else 0 := by
  have hroom : HasRoom (createInPath size).mmap C o ↔ o + 76 ≤ C := by
    have hsz : (createInPath size).mmap.size = size := size_writeHeader _ _
    have hws : entryHeaderWireSize = 76 := rfl
    rw [HasRoom, hsz, hws]
    omega
  by_cases ho : o + 76 ≤ C
  · obtain ⟨h, hz, hslot⟩ := slotAt_createInPath (hroom.2 ho)
    rw [nextHead, hslot, if_pos ho]
    simp only [hz]
    exact if_pos ho
  · rw [nextHead, slotAt, if_neg fun h => ho (hroom.1 h), if_neg ho]

lemma advanceHead_createInPath {n : ℕ} (hC : C + headerSize ≤ size) (left i : ℕ)
    (hi : 76 * i < n + 76) (hiC : 76 * i ≤ C) (hsum : i + left ≤ 10000) :
    advanceHead (createInPath size).mmap C 0 n left (76 * i) = (0, 0) ∨
    ∃ j, j ≤ 10000 ∧ n ≤ 76 * j ∧ 76 * j < n + 76 ∧ 76 * j ≤ C ∧
      advanceHead (createInPath size).mmap C 0 n left (76 * i) = (76 * j, 0) := by
  have hn := Nat.zero_le n
  induction left generalizing i with
  | zero =>
    rcases Nat.lt_or_ge (76 * i) n with hlt | hge
    · exact .inl (advanceHead_zero hn ⟨Nat.zero_le _, hlt⟩)
    · exact .inr ⟨i, by omega, hge, hi, hiC, advanceHead_done hn (.inr hge)⟩
  | succ left ih =>
    rcases Nat.lt_or_ge (76 * i) n with hlt | hge
    · rw [advanceHead_succ hn ⟨Nat.zero_le _, hlt⟩, nextHead_createInPath hC]
      split_ifs with hroom
      · exact ih (i + 1) (by omega) (by omega) (by omega)
      · exact ih 0 (by omega) (by omega) (by omega)
    · exact .inr ⟨i, by omega, hge, hi, hiC, advanceHead_done hn (.inr hge)⟩

lemma first_write (hsize : headerSize ≤ size) (hid : e.IdOk)
    (hok : FirstOk (createInPath size).ringCapacity e.span)
    (hw : (createInPath size).write e = .ok m') : ∃ l, m'.Live l ∧ l.map Prod.snd = [e] := by
  set m0 := createInPath size with hm0
  have hheader : m0.header = _ := header_createInPath hsize
  have hhead : m0.head = 0 := by rw [head, hheader]; rfl
  have htail : m0.tail = 0 := by rw [tail, hheader]; rfl
  have hC : m0.ringCapacity + headerSize ≤ size := by
    have hmod := Nat.mod_le (size - headerSize) (2 ^ 32)
    rw [ringCapacity, hheader]
    simp only [UInt32.toNat_ofNat']
    omega
  have hsz : m0.mmap.size = size := size_writeHeader _ _
  have hcount : maxLoopCount = 10000 := rfl
  rcases writeEntry_ok (by omega) (by omega) hw with
    ⟨hle, hd', tl', hwrote⟩ | ⟨hlt, hd', tl', hwrote⟩
  · rw [htail] at hwrote
    have hlaid : LaidAfter m'.mmap m0.ringCapacity hd' (0 + e.span) [] e := by
      have hadv := hwrote.advanced
      have hchain := hwrote.le
      rw [hhead, Nat.zero_add, hcount] at hadv
      rw [Nat.zero_add] at hchain ⊢
      rcases advanceHead_createInPath (n := e.span) hC 10000 0 (by omega) (by omega)
        (by omega) with heq | ⟨j, hj, hnj, hjn, hjC, heq⟩
      · cases heq.symm.trans hadv
        have hst : Straight m'.mmap m0.ringCapacity 0 e.span ([] ++ [e]) :=
          ⟨rfl, by simp, by simpa using hwrote.chain_single (C := m0.ringCapacity) (by omega)⟩
        exact hst.laidAfter []
      · cases heq.symm.trans hadv
        obtain hbig | ⟨hdvd, hroom⟩ := hok
        · omega
        have hnoRoom : ¬ HasRoom m'.mmap m0.ringCapacity (76 * j) := fun h => by
          have hws : entryHeaderWireSize = 76 := rfl
          have := h.1
          omega
        have hwr : Wrapped m'.mmap m0.ringCapacity (76 * j) e.span (76 * j) [] ([] ++ [e]) := {
          upper := rfl
          wrap := if_neg hnoRoom
          le := hjC
          lower := by simpa using hwrote.chain_single (C := m0.ringCapacity) (by omega)
          ne_nil := by simp
          lt := by omega }
        exact hwr.laidAfter []
    obtain ⟨k, l, -, hlive, hmap⟩ :=
      hwrote.live (hC.trans hsz.ge) hlaid (by simp) hid (by decide)
    exact ⟨l, hlive, by simpa using hmap⟩
  · have := hwrote.le
    omega

end First

lemma Live.ne (h : m.Live l) : m.head ≠ m.tail := h.laid.bounds.2.2.1

lemma AllOk.writeAll_cons (hok : m.AllOk (e :: es)) (hw : m.writeAll (e :: es) = .ok m') :
    m.WriteOk e ∧ ∃ m₁, m.write e = .ok m₁ ∧ m₁.AllOk es ∧ m₁.writeAll es = .ok m' := by
  obtain ⟨hwok, hrest⟩ := hok
  unfold writeAll at hw
  cases hwe : m.write e with
  | error err => rw [hwe] at hw; cases hw
  | ok m₁ =>
    rw [hwe] at hw hrest
    exact ⟨hwok, m₁, rfl, hrest, hw⟩

lemma Live.writeAll (h : m.Live l) (hids : ∀ e ∈ es, e.IdOk) (hok : m.AllOk es)
    (hw : m.writeAll es = .ok m') :
    ∃ k l', m'.Live l' ∧ l'.map Prod.snd = (l.map Prod.snd ++ es).drop k := by
  induction es generalizing m l with
  | nil =>
    cases hw
    exact ⟨0, l, h, by simp⟩
  | cons e es ih =>
    obtain ⟨hwok, m₁, hwe, hrest, hw⟩ := hok.writeAll_cons hw
    rw [WriteOk, if_neg h.ne, h.walk] at hwok
    obtain ⟨k, l₁, hk, hlive, hmap⟩ := h.write (hids e mem_cons_self) hwok hwe
    obtain ⟨k', l', hlive', hmap'⟩ :=
      ih hlive (fun x hx => hids x (mem_cons_of_mem _ hx)) hrest hw
    refine ⟨k + k', l', hlive', ?_⟩
    rw [hmap', hmap, ← drop_drop, drop_append_of_le_length hk, append_assoc, singleton_append]

lemma Live.readUncommitted (h : m.Live l) : m.readUncommitted = .ok (l.map Prod.snd) := by
  rw [SharedMemory.readUncommitted, h.walk]
  rfl

def threeWrites : List RingBufferEntry :=
  [⟨[1], List.replicate 24 7, 0⟩, ⟨[2], List.replicate 14 8, 0⟩, ⟨[3], List.replicate 14 9, 0⟩]

def oneWrite : RingBufferEntry := ⟨[1], List.replicate 10 7, 5⟩

def readAfter (size : ℕ) (e : RingBufferEntry) : Option (List RingBufferEntry) :=
  (((createInPath size).write e).bind readUncommitted).toOption

end VaultSync.SharedMemory
