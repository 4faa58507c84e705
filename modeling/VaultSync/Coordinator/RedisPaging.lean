import VaultSync.Coordinator.Redis

/-! Paging through a Redis stream: what `pull` returns after the sequence of an assigned id, for
entries whose fields may be anything. -/

namespace VaultSync

open List StreamEntry

variable {B : Type}

inductive RedisReply (B : Type) where
  | data (bytes : B)
  | int (i : ℤ)
  | other

structure RawEntry (B : Type) where
  streamId : StreamId
  fields : List (RedisReply B × RedisReply B)

structure TextReader (B : Type) where
  utf8 : B → Option String
  parseU64 : String → Option ℕ

structure ParsedFields (B : Type) where
  id : Option String := none
  docId : Option String := none
  recordId : Option String := none
  encryptedBlob : Option B := none
  timestamp : Option ℕ := none
  keyVersion : Option ℕ := none
  replicaId : Option String := none

namespace TextReader

variable (T : TextReader B)

/-- The outer `none` ends the parse; a value of another kind leaves the field as it is. -/
def text (old : Option String) : RedisReply B → Option (Option String)
  | .data d => (T.utf8 d).map some
  | _ => some old

def number (old : Option ℕ) : RedisReply B → Option (Option ℕ)
  | .data d => ((T.utf8 d).bind T.parseU64).map some
  | .int i => some (some (i % 2 ^ 64).toNat)
  | .other => some old

def blob (old : Option B) : RedisReply B → Option B
  | .data d => some d
  | _ => old

def parseField (p : ParsedFields B) (chunk : RedisReply B × RedisReply B) :
    Option (ParsedFields B) :=
  match chunk.1 with
  | .data d => do
    let key ← T.utf8 d
    match key with
    | "id" => (T.text p.id chunk.2).map fun v => { p with id := v }
    | "doc_id" => (T.text p.docId chunk.2).map fun v => { p with docId := v }
    | "record_id" => (T.text p.recordId chunk.2).map fun v => { p with recordId := v }
    | "blob" => some { p with encryptedBlob := blob p.encryptedBlob chunk.2 }
    | "ts" => (T.number p.timestamp chunk.2).map fun v => { p with timestamp := v }
    | "key_version" => (T.number p.keyVersion chunk.2).map fun v => { p with keyVersion := v }
    | "replica_id" => (T.text p.replicaId chunk.2).map fun v => { p with replicaId := v }
    | _ => some p
  | _ => some p

def parseStreamEntry (ns : String) (e : RawEntry B) : Option (PendingMutation B) := do
  let p ← e.fields.foldlM T.parseField {}
  return {
    id := ← p.id
    «namespace» := ns
    sequence := streamIdToSeq e.streamId
    docId := ← p.docId
    recordId := ← p.recordId
    encryptedBlob := ← p.encryptedBlob
    timestamp := p.timestamp.getD 0
    keyVersion := p.keyVersion.getD 1
    replicaId := p.replicaId.getD "" }

def pull (entries : List (RawEntry B)) (ns : String) (after limit : ℕ) : List (PendingMutation B) :=
  let start := seqToStreamId (min (after + 1) (2 ^ 64 - 1))
  ((entries.filter fun e => start ≤ e.streamId).take limit).filterMap (T.parseStreamEntry ns)

end TextReader

/-- The entry that `push` adds, its fields in the order of its `XADD`. -/
def StreamEntry.raw (encode : String → B) (e : StreamEntry B) : RawEntry B where
  streamId := e.streamId
  fields := [("id", encode e.id), ("replica_id", encode e.replicaId), ("doc_id", encode e.docId),
    ("record_id", encode e.recordId), ("blob", e.blob), ("ts", encode (toString e.ts)),
    ("schema_version", encode (toString e.schemaVersion)),
    ("key_version", encode (toString e.keyVersion))].map fun f => (.data (encode f.1), .data f.2)

namespace TextReader

variable {T : TextReader B} {encode : String → B} (hutf8 : ∀ s, T.utf8 (encode s) = some s)
  (hu64 : ∀ n < 2 ^ 64, T.parseU64 (toString n) = some n)

include hutf8 hu64

lemma parseStreamEntry_raw (ns : String) {e : StreamEntry B} (hts : e.ts < 2 ^ 64)
    (hkey : e.keyVersion < 2 ^ 64) : T.parseStreamEntry ns (e.raw encode) = some (e.parse ns) := by
  have hts : T.parseU64 e.ts.repr = some e.ts := hu64 _ hts
  have hkey : T.parseU64 e.keyVersion.repr = some e.keyVersion := hu64 _ hkey
  simp [parseStreamEntry, raw, parse, parseField, text, number, blob,
    hutf8, hts, hkey]

end TextReader

/-! ## Ids and sequences -/

variable {a : StreamId}

lemma streamIdToSeq_eq (hms : a.ms ≤ 2 ^ 44) (hseq : a.seq < 1000000) :
    streamIdToSeq a = a.ms * 1000000 + a.seq := by
  unfold streamIdToSeq
  apply Nat.mod_eq_of_lt
  omega

lemma seqToStreamId_streamIdToSeq_iff (hms : a.ms ≤ 2 ^ 44) :
    seqToStreamId (streamIdToSeq a) = a ↔ a.seq < 1000000 := by
  constructor
  · intro h
    rw [← h]
    exact Nat.mod_lt _ (by decide)
  · intro hseq
    rw [streamIdToSeq_eq hms hseq]
    obtain ⟨ms, seq⟩ := a
    have hseq : seq < 1000000 := hseq
    simp only [seqToStreamId, StreamId.mk.injEq]
    omega

lemma seqToStreamId_le_iff (hms : a.ms ≤ 2 ^ 44) (hseq : a.seq < 1000000)
    (n : ℕ) : seqToStreamId n ≤ a ↔ n ≤ streamIdToSeq a := by
  rw [streamIdToSeq_eq hms hseq, StreamId.le_iff]
  simp only [seqToStreamId]
  omega

lemma streamIdToSeq_lt_iff {b : StreamId} (ha : a.ms ≤ 2 ^ 44) (hb : b.ms ≤ 2 ^ 44)
    (haseq : a.seq < 1000000) (hbseq : b.seq < 1000000) :
    streamIdToSeq a < streamIdToSeq b ↔ a < b := by
  rw [streamIdToSeq_eq ha haseq, streamIdToSeq_eq hb hbseq, StreamId.lt_iff]
  omega

lemma filterMap_take_eq_iff {α β : Type} (f : α → Option β) (l : List α) (n : ℕ) :
    (l.take n).filterMap f = (l.filterMap f).take n ↔
      (∀ x ∈ l.take n, f x ≠ none) ∨ ∀ x ∈ l.drop n, f x = none := by
  have hle : ((l.take n).filterMap f).length ≤ n :=
    (length_filterMap_le f _).trans (length_take_le n l)
  have hsplit : (l.filterMap f).take n = (l.take n).filterMap f ++
      ((l.drop n).filterMap f).take (n - ((l.take n).filterMap f).length) := by
    conv_lhs => rw [← take_append_drop n l, filterMap_append, take_append]
    rw [take_of_length_le hle]
  have hall : (∀ x ∈ l.take n, f x ≠ none) ↔
      ((l.take n).filterMap f).length = (l.take n).length := by
    simp only [filterMap_length_eq_length, Option.isSome_iff_ne_none]
  have hnone : (∀ x ∈ l.drop n, f x = none) ↔ (l.drop n).filterMap f = [] :=
    filterMap_eq_nil_iff.symm
  rw [hsplit, self_eq_append_right, take_eq_nil_iff, hall, hnone, length_take]
  constructor
  · rintro (hn | hnil)
    · left
      have := length_filterMap_le f (l.take n)
      rw [length_take] at this
      omega
    · exact .inr hnil
  · rintro (hlen | hnil)
    · by_cases hn : n ≤ l.length
      · left
        omega
      · right
        rw [drop_of_length_le (by omega)]
        rfl
    · exact .inr hnil

namespace TextReader

variable (T : TextReader B)

lemma pull_eq {entries : List (RawEntry B)} {id : StreamId} (hid : id.ms ≤ 2 ^ 44)
    (hseq : id.seq < 1000000)
    (hentries : ∀ e ∈ entries, e.streamId.ms ≤ 2 ^ 44 ∧ e.streamId.seq < 1000000)
    (ns : String) (limit : ℕ) :
    T.pull entries ns (streamIdToSeq id) limit =
      ((entries.filter fun e => id < e.streamId).take limit).filterMap
        (T.parseStreamEntry ns) := by
  have hmin : min (streamIdToSeq id + 1) (2 ^ 64 - 1) = streamIdToSeq id + 1 := by
    rw [streamIdToSeq_eq hid hseq]
    omega
  have hfilter : entries.filter (fun e => seqToStreamId (streamIdToSeq id + 1) ≤ e.streamId) =
      entries.filter fun e => id < e.streamId := by
    apply filter_congr
    intro e he
    obtain ⟨hms, hcounter⟩ := hentries e he
    rw [decide_eq_decide, seqToStreamId_le_iff hms hcounter, Nat.succ_le_iff,
      streamIdToSeq_lt_iff hid hms hseq hcounter]
  rw [pull, hmin, hfilter]

/-- `assigned` may hold ids whose entries were deleted. -/
theorem paging_iff (ns : String) (limit : ℕ) (assigned : Set StreamId) {id : StreamId}
    {entries : List (RawEntry B)} (hms : ∀ a ∈ assigned, a.ms ≤ 2 ^ 44) (hid : id ∈ assigned)
    (hentries : ∀ e ∈ entries, e.streamId ∈ assigned) :
    ((∀ a ∈ assigned, ∀ b ∈ assigned, a < b → streamIdToSeq a < streamIdToSeq b) ∧
        (∀ a ∈ assigned, seqToStreamId (streamIdToSeq a) = a) ∧
        T.pull entries ns (streamIdToSeq id) limit =
          ((entries.filter fun e => id < e.streamId).filterMap
            (T.parseStreamEntry ns)).take limit) ↔
      (∀ a ∈ assigned, a.seq < 1000000) ∧
        ((∀ e ∈ (entries.filter fun e => id < e.streamId).take limit,
            T.parseStreamEntry ns e ≠ none) ∨
          ∀ e ∈ (entries.filter fun e => id < e.streamId).drop limit,
            T.parseStreamEntry ns e = none) := by
  have hinv : (∀ a ∈ assigned, seqToStreamId (streamIdToSeq a) = a) ↔
      ∀ a ∈ assigned, a.seq < 1000000 :=
    forall₂_congr fun a ha => seqToStreamId_streamIdToSeq_iff (hms a ha)
  rw [hinv, ← filterMap_take_eq_iff]
  constructor
  · rintro ⟨-, hseq, hpull⟩
    rw [T.pull_eq (hms id hid) (hseq id hid) fun e he =>
      ⟨hms _ (hentries e he), hseq _ (hentries e he)⟩] at hpull
    exact ⟨hseq, hpull⟩
  · rintro ⟨hseq, htake⟩
    refine ⟨fun a ha b hb hab => ?_, hseq, ?_⟩
    · exact (streamIdToSeq_lt_iff (hms a ha) (hms b hb) (hseq a ha) (hseq b hb)).2 hab
    · rw [T.pull_eq (hms id hid) (hseq id hid) fun e he =>
        ⟨hms _ (hentries e he), hseq _ (hentries e he)⟩]
      exact htake

def plain : TextReader String := ⟨some, String.toNat?⟩

def sample : StreamEntry String := ⟨⟨5, 1⟩, "m", "r", "d", "x", "", 0, 1, 1⟩

theorem paging_iff_sample :
    plain.pull [sample.raw id] "n" (streamIdToSeq ⟨5, 0⟩) 1 =
      (([sample.raw id].filter fun e => ⟨5, 0⟩ < e.streamId).filterMap
        (plain.parseStreamEntry "n")).take 1 :=
  ((paging_iff plain "n" 1 {⟨5, 0⟩, ⟨5, 1⟩} (by simp) (by simp)
    (by simp [sample, raw])).2 ⟨by simp, .inr (by decide)⟩).2.2

def decimal : TextReader String := ⟨some, fun s => some (Nat.ofDigitChars 10 s.toList 0)⟩

/-- A millisecond with a million entries and one more: the last has the sequence of the next
millisecond's first entry, and a reader that has it does not get the other. -/
theorem streamIdToSeq_million :
    (⟨5, 1000000⟩ : StreamId) < ⟨6, 0⟩ ∧
      streamIdToSeq ⟨5, 1000000⟩ = streamIdToSeq ⟨6, 0⟩ ∧
      seqToStreamId (streamIdToSeq ⟨5, 1000000⟩) ≠ ⟨5, 1000000⟩ ∧
      plain.pull [{ sample with streamId := ⟨6, 0⟩ }.raw id] "n"
        (streamIdToSeq ⟨5, 1000000⟩) 1 = [] := by
  decide

end TextReader

end VaultSync
