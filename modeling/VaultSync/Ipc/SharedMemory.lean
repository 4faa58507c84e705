import Mathlib.Data.List.DropRight
import VaultSync.Bytes.Buffer
import VaultSync.Error

/-! The shared-memory ring: a header of 128 bytes, then entries of variable size, each a header
of 76 bytes and its payload. A string id is given by its UTF-8 bytes, which
`from_utf8_lossy` reads back. -/

namespace VaultSync

open Bytes List

namespace SharedMemory

def headerSize : ℕ := 128

def entryHeaderWireSize : ℕ := 76

abbrev Id64 := { l : List UInt8 // l.length = 64 }

def Id64.zeros : Id64 := ⟨List.replicate 64 0, length_replicate⟩

/-- The first 64 bytes of an id, filled up with zeros. -/
def Id64.ofId (id : List UInt8) : Id64 :=
  ⟨id.take 64 ++ List.replicate (64 - (id.take 64).length) 0, by simp⟩

/-- `from_utf8_lossy(id).trim_end_matches('\0')`. -/
def Id64.trim (id : Id64) : List UInt8 := id.1.rdropWhile (· = 0)

structure Header where
  leaderId : Id64
  leaderTimestamp : UInt64
  generation : UInt64
  ringBufferHead : UInt32
  ringBufferTail : UInt32
  ringBufferCapacity : UInt32
  snapshotOffset : UInt64
  snapshotSize : UInt64

structure EntryHeader where
  id : Id64
  yrsUpdateSize : UInt32
  timestamp : UInt64

structure RingBufferEntry where
  id : List UInt8
  yrsUpdate : List UInt8
  timestamp : UInt64
  deriving DecidableEq

def encodeHeader (h : Header) : List UInt8 :=
  h.leaderId.1 ++ toLe 8 h.leaderTimestamp.toNat ++ toLe 8 h.generation.toNat ++
    toLe 4 h.ringBufferHead.toNat ++ toLe 4 h.ringBufferTail.toNat ++
    toLe 4 h.ringBufferCapacity.toNat ++ toLe 8 h.snapshotOffset.toNat ++
    toLe 8 h.snapshotSize.toNat ++ List.replicate 20 0

variable (buf : List UInt8)

def u32At (i : ℕ) : UInt32 := UInt32.ofNat (ofLe ((buf.drop i).take 4))

def u64At (i : ℕ) : UInt64 := UInt64.ofNat (ofLe ((buf.drop i).take 8))

def decodeHeader : Header :=
  if h : buf.length < headerSize then ⟨.zeros, 0, 0, 0, 0, 0, 0, 0⟩
  else {
    leaderId := ⟨buf.take 64, by
      rw [headerSize] at h
      rw [length_take]
      omega⟩
    leaderTimestamp := u64At buf 64
    generation := u64At buf 72
    ringBufferHead := u32At buf 80
    ringBufferTail := u32At buf 84
    ringBufferCapacity := u32At buf 88
    snapshotOffset := u64At buf 92
    snapshotSize := u64At buf 100 }

def encodeEntryHeader (h : EntryHeader) : List UInt8 :=
  h.id.1 ++ toLe 4 h.yrsUpdateSize.toNat ++ toLe 8 h.timestamp.toNat

def decodeEntryHeader : Option EntryHeader :=
  if h : buf.length < entryHeaderWireSize then none
  else some {
    id := ⟨buf.take 64, by
      rw [entryHeaderWireSize] at h
      rw [length_take]
      omega⟩
    yrsUpdateSize := u32At buf 64
    timestamp := u64At buf 68 }

def readHeader (b : Buffer) : Header := decodeHeader (b.slice 0 b.size)

def writeHeader (b : Buffer) (h : Header) : Buffer :=
  if headerSize ≤ b.size then b.copy 0 (encodeHeader h) else b

def sentinelSize : UInt32 := 0xFFFFFFFF

end SharedMemory

open SharedMemory

structure SharedMemory where
  mmap : Buffer
  capacity : ℕ

namespace SharedMemory

def createInPath (size : ℕ) : SharedMemory where
  mmap := writeHeader (.zeros size)
    ⟨.zeros, 0, 0, 0, 0, UInt32.ofNat (size - headerSize), 0, 0⟩
  capacity := size - headerSize

def headIsBetween (head start «end» : ℕ) : Bool :=
  if start ≤ «end» then start ≤ head ∧ head < «end» else start ≤ head ∨ head < «end»

section

variable (b : Buffer)

def HasRoom (capacity o : ℕ) : Prop :=
  o + entryHeaderWireSize ≤ capacity ∧ headerSize + o + entryHeaderWireSize ≤ b.size

instance (b : Buffer) (capacity o : ℕ) : Decidable (HasRoom b capacity o) :=
  inferInstanceAs (Decidable (_ ∧ _))

/-- What the loops find at an offset: a wrap (the sentinel, or no room for a header), bytes that
are no header, or an entry. -/
inductive Slot where
  | wrap
  | malformed
  | entry (h : EntryHeader)

def slotAt (capacity o : ℕ) : Slot :=
  if HasRoom b capacity o then
    match decodeEntryHeader (b.slice (headerSize + o) entryHeaderWireSize) with
    | none => .malformed
    | some h => if h.yrsUpdateSize = sentinelSize then .wrap else .entry h
  else .wrap

def nextHead (capacity head : ℕ) : ℕ :=
  match slotAt b capacity head with
  | .wrap => 0
  | .malformed => 0
  | .entry h =>
    let next := head + (entryHeaderWireSize + h.yrsUpdateSize.toNat)
    if next ≤ capacity then next else 0

/-- The loop of `write_entry` that moves the head out of the way, with the iterations left. It
gives the head and the tail: both are the start when the loop is given up. -/
def advanceHead (b : Buffer) (capacity tail newTail : ℕ) : ℕ → ℕ → ℕ × ℕ
  | left, head =>
    if headIsBetween head tail newTail then
      match left with
      | 0 => (0, 0)
      | left + 1 => advanceHead b capacity tail newTail left (nextHead b capacity head)
    else (head, tail)

def maxLoopCount : ℕ := 10000

def sentinel : EntryHeader := ⟨.zeros, sentinelSize, 0⟩

def markWrap (capacity tail : ℕ) : Buffer :=
  if tail + entryHeaderWireSize ≤ capacity then
    b.copy (headerSize + tail) (encodeEntryHeader sentinel)
  else b

def entryHeader (id yrsUpdate : List UInt8) (now : UInt64) : EntryHeader :=
  ⟨.ofId id, UInt32.ofNat yrsUpdate.length, now⟩

def storeEntry (h : Header) (head tail newTail : ℕ) (id yrsUpdate : List UInt8)
    (now : UInt64) : Except VaultSyncError Buffer :=
  let tailOffset := headerSize + tail
  let payloadOffset := tailOffset + entryHeaderWireSize
  if b.size < payloadOffset + yrsUpdate.length then .error (.storage "write out of bounds")
  else
    let b := b.copy tailOffset (encodeEntryHeader (entryHeader id yrsUpdate now))
    let b := b.copy payloadOffset yrsUpdate
    .ok (writeHeader b
      { h with ringBufferHead := UInt32.ofNat head, ringBufferTail := UInt32.ofNat newTail })

end

variable (m : SharedMemory)

def writeAt (header : Header) (b : Buffer) (head tail : ℕ) (id yrsUpdate : List UInt8)
    (now : UInt64) : Except VaultSyncError SharedMemory :=
  let capacity := header.ringBufferCapacity.toNat
  let newTail := tail + (entryHeaderWireSize + yrsUpdate.length)
  if capacity < newTail then .error (.storage "calculated tail out of bounds")
  else
    let (head, tail) := advanceHead b capacity tail newTail maxLoopCount head
    (storeEntry b header head tail newTail id yrsUpdate now).map fun b => { m with mmap := b }

def writeFrom (header : Header) (head tail : ℕ) (id yrsUpdate : List UInt8)
    (now : UInt64) : Except VaultSyncError SharedMemory :=
  let capacity := header.ringBufferCapacity.toNat
  if capacity < tail + (entryHeaderWireSize + yrsUpdate.length) then
    m.writeAt header (markWrap m.mmap capacity tail) head 0 id yrsUpdate now
  else m.writeAt header m.mmap head tail id yrsUpdate now

def writeEntry (id yrsUpdate : List UInt8) (now : UInt64) : Except VaultSyncError SharedMemory :=
  if m.capacity < entryHeaderWireSize + yrsUpdate.length then
    .error (.storage "mutation too large for ring buffer")
  else
    let header := readHeader m.mmap
    let head := header.ringBufferHead.toNat
    let tail := header.ringBufferTail.toNat
    let capacity := header.ringBufferCapacity.toNat
    if m.mmap.size - headerSize < capacity then
      .error (.storage "invalid ring buffer capacity in header")
    else if capacity < head ∨ capacity < tail then m.writeFrom header 0 0 id yrsUpdate now
    else m.writeFrom header head tail id yrsUpdate now

/-- The loop of `read_uncommitted`, with the iterations left: the entries with their offsets. -/
def readLoop (b : Buffer) (capacity tail : ℕ) : ℕ → ℕ → List (ℕ × RingBufferEntry)
  | 0, _ => []
  | left + 1, head =>
    if head = tail then []
    else
      match slotAt b capacity head with
      | .wrap => if 0 = tail then [] else readLoop b capacity tail left 0
      | .malformed => []
      | .entry h =>
        let payloadStart := headerSize + head + entryHeaderWireSize
        let next := head + entryHeaderWireSize + h.yrsUpdateSize.toNat
        if capacity < next then []
        else if b.size < payloadStart + h.yrsUpdateSize.toNat then []
        else
          (head, ⟨h.id.trim, b.slice payloadStart h.yrsUpdateSize.toNat, h.timestamp⟩) ::
            readLoop b capacity tail left next

def walk : Except VaultSyncError (List (ℕ × RingBufferEntry)) :=
  let header := readHeader m.mmap
  let head := header.ringBufferHead.toNat
  let tail := header.ringBufferTail.toNat
  let capacity := header.ringBufferCapacity.toNat
  if m.mmap.size - headerSize < capacity then
    .error (.storage "invalid ring buffer capacity in header")
  else if capacity < head ∨ capacity < tail then .ok []
  else if head = tail then .ok []
  else .ok (readLoop m.mmap capacity tail maxLoopCount head)

def readUncommitted : Except VaultSyncError (List RingBufferEntry) :=
  m.walk.map fun l => l.map Prod.snd

/-! ### Encoding and decoding -/

@[simp] lemma length_encodeHeader (h : Header) : (encodeHeader h).length = headerSize := by
  simp [encodeHeader, headerSize, h.leaderId.2]

@[simp] lemma length_encodeEntryHeader (h : EntryHeader) :
    (encodeEntryHeader h).length = entryHeaderWireSize := by
  simp [encodeEntryHeader, entryHeaderWireSize, h.id.2]

variable {buf l : List UInt8} {i : ℕ} {b : Buffer}

lemma u32At_eq {n : UInt32} (hbuf : l ++ toLe 4 n.toNat <+: buf)
    (hl : l.length = i) : u32At buf i = n := by
  obtain ⟨l', rfl⟩ := hbuf
  rw [← hl, u32At, append_assoc, drop_left, take_left' (length_toLe 4 _), ofLe_toLe,
    Nat.mod_eq_of_lt (by simpa using n.toNat_lt), UInt32.ofNat_toNat]

lemma u64At_eq {n : UInt64} (hbuf : l ++ toLe 8 n.toNat <+: buf)
    (hl : l.length = i) : u64At buf i = n := by
  obtain ⟨l', rfl⟩ := hbuf
  rw [← hl, u64At, append_assoc, drop_left, take_left' (length_toLe 8 _), ofLe_toLe,
    Nat.mod_eq_of_lt (by simpa using n.toNat_lt), UInt64.ofNat_toNat]

lemma decodeEntryHeader_encodeEntryHeader (h : EntryHeader) :
    decodeEntryHeader (encodeEntryHeader h) = some h := by
  have hid := h.id.2
  rw [decodeEntryHeader, dif_neg (by rw [length_encodeEntryHeader]; exact lt_irrefl _)]
  congr
  · rw [encodeEntryHeader, append_assoc, take_left' hid]
  · exact u32At_eq (prefix_append _ _) hid
  · exact u64At_eq prefix_rfl (by simp [hid])

lemma decodeHeader_encodeHeader_append (h : Header) (rest : List UInt8) :
    decodeHeader (encodeHeader h ++ rest) = h := by
  have hid := h.leaderId.2
  -- the header up to each of its fields
  let l1 := h.leaderId.1 ++ toLe 8 h.leaderTimestamp.toNat
  let l2 := l1 ++ toLe 8 h.generation.toNat
  let l3 := l2 ++ toLe 4 h.ringBufferHead.toNat
  let l4 := l3 ++ toLe 4 h.ringBufferTail.toNat
  let l5 := l4 ++ toLe 4 h.ringBufferCapacity.toNat
  let l6 := l5 ++ toLe 8 h.snapshotOffset.toNat
  let l7 := l6 ++ toLe 8 h.snapshotSize.toNat
  have p7 : l7 <+: encodeHeader h ++ rest := (prefix_append _ _).trans (prefix_append _ _)
  have p6 := (prefix_append l6 _).trans p7
  have p5 := (prefix_append l5 _).trans p6
  have p4 := (prefix_append l4 _).trans p5
  have p3 := (prefix_append l3 _).trans p4
  have p2 := (prefix_append l2 _).trans p3
  have p1 := (prefix_append l1 _).trans p2
  rw [decodeHeader, dif_neg (by simp)]
  congr
  · simp only [encodeHeader, append_assoc]
    rw [take_left' hid]
  · exact u64At_eq p1 hid
  · exact u64At_eq p2 (by simp [l1, hid])
  · exact u32At_eq p3 (by simp [l1, l2, hid])
  · exact u32At_eq p4 (by simp [l1, l2, l3, hid])
  · exact u32At_eq p5 (by simp [l1, l2, l3, l4, hid])
  · exact u64At_eq p6 (by simp [l1, l2, l3, l4, l5, hid])
  · exact u64At_eq p7 (by simp [l1, l2, l3, l4, l5, l6, hid])

lemma readHeader_writeHeader (hb : headerSize ≤ b.size) (h : Header) :
    readHeader (writeHeader b h) = h := by
  rw [writeHeader, if_pos hb, readHeader, Buffer.size_copy]
  obtain ⟨n, hn⟩ := Nat.exists_eq_add_of_le hb
  have hslice : (b.copy 0 (encodeHeader h)).slice 0 headerSize = encodeHeader h := by
    have hself := b.slice_copy_self 0 (encodeHeader h)
    rwa [length_encodeHeader] at hself
  rw [hn, Buffer.slice_add, hslice, decodeHeader_encodeHeader_append]

lemma byte_writeHeader (h : Header) (hi : headerSize ≤ i) :
    (writeHeader b h).byte i = b.byte i := by
  rw [writeHeader]
  split_ifs
  · exact Buffer.byte_copy_of_outside (.inr (by simpa using hi))
  · rfl

@[simp] lemma size_writeHeader (b : Buffer) (h : Header) : (writeHeader b h).size = b.size := by
  rw [writeHeader]
  split_ifs <;> rfl

lemma rdropWhile_append_zeros (l : List UInt8) (k : ℕ) :
    (l ++ List.replicate k 0).rdropWhile (· = 0) = l.rdropWhile (· = 0) := by
  induction k with
  | zero => simp
  | succ k ih =>
    rw [replicate_succ', ← append_assoc, rdropWhile_concat_pos _ _ _ (by simp), ih]

lemma trim_ofId {id : List UInt8} (hlen : id.length ≤ 64) (hlast : id.getLast? ≠ some 0) :
    (Id64.ofId id).trim = id := by
  change (id.take 64 ++ List.replicate _ 0).rdropWhile (· = 0) = id
  rw [take_of_length_le hlen, rdropWhile_append_zeros, rdropWhile_eq_self_iff]
  intro hne hzero
  rw [List.getLast?_eq_getLast_of_ne_nil hne] at hlast
  exact hlast (congrArg some (of_decide_eq_true hzero))

end SharedMemory

end VaultSync
