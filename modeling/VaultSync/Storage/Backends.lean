import Mathlib.Data.List.Sort
import VaultSync.Storage.Sqlite

/-! The in-memory and the SQLite storage behind one interface. -/

namespace VaultSync.Backends

open SQLiteCoordinator List

variable {B : Type}

inductive StorageCall (B : Type) where
  | appendOplog (e : OplogEntry B)
  | writeDocumentAndOplog (k : Key) (bytes : B) (e : OplogEntry B)
  | markSynced (id : String) (sequence : ℕ)
  | markFailed (id : String)
  | resetStalePending (ns : String) (olderThanMs : ℕ)
  | deleteSyncedBefore (ns : String) (cutoffMs : ℕ)
  | deleteSyncedOplogOlderThan (ns : String) (olderThanSecs : ℕ)
  | readPendingOplog (ns : String) (limit : ℕ)
  | getDocument (k : Key)

inductive StorageAnswer (B : Type) where
  | done
  | count (n : ℕ)
  | entries (l : List (OplogEntry B))
  | document (bytes : Option B)
  deriving DecidableEq

structure TimedCall (B : Type) where
  call : StorageCall B
  now : ℕ
  sort : Sorter B

variable (s : InMemoryStorage B)

def memoryAnswer (c : TimedCall B) : Except String (StorageAnswer B) × InMemoryStorage B :=
  match c.call with
  | .appendOplog e => (.ok .done, s.appendOplog e)
  | .writeDocumentAndOplog k bytes e => (.ok .done, s.writeDocumentAndOplog k bytes e)
  | .markSynced id sequence => (.ok .done, s.markSynced id sequence (c.now / 1000))
  | .markFailed id => (.ok .done, s.markFailed id)
  | .resetStalePending ns olderThanMs =>
    let (s', n) := s.resetStalePending ns olderThanMs c.now
    (.ok (.count n), s')
  | .deleteSyncedBefore ns cutoffMs =>
    let s' := s.deleteSyncedBefore ns cutoffMs
    (.ok (.count (s.oplog.length - s'.oplog.length)), s')
  | .deleteSyncedOplogOlderThan ns olderThanSecs =>
    let s' := s.deleteSyncedOplogOlderThan ns olderThanSecs (c.now / 1000)
    (.ok (.count (s.oplog.length - s'.oplog.length)), s')
  | .readPendingOplog ns limit => (.ok (.entries (s.readPendingOplog ns limit)), s)
  | .getDocument k => (.ok (.document (s.documents k)), s)

def sqliteAnswer (s : SQLiteStorage B) (c : TimedCall B) :
    Except String (StorageAnswer B) × SQLiteStorage B :=
  match c.call with
  | .appendOplog e =>
    let (r, s') := s.appendOplog e
    (r.map fun _ => .done, s')
  | .writeDocumentAndOplog k bytes e =>
    let (r, s') := s.writeDocumentAndOplog k bytes e
    (r.map fun _ => .done, s')
  | .markSynced id sequence => (.ok .done, s.markSynced id sequence (c.now / 1000))
  | .markFailed id => (.ok .done, s.markFailed id)
  | .resetStalePending ns olderThanMs =>
    let (n, s') := s.resetStalePending ns olderThanMs c.now
    (.ok (.count n), s')
  | .deleteSyncedBefore ns cutoffMs =>
    let (n, s') := s.deleteSyncedBefore ns cutoffMs
    (.ok (.count n), s')
  | .deleteSyncedOplogOlderThan ns olderThanSecs =>
    let (n, s') := s.deleteSyncedOplogOlderThan ns olderThanSecs (c.now / 1000)
    (.ok (.count n), s')
  | .readPendingOplog ns limit => (.ok (.entries (s.readPendingOplog c.sort ns limit)), s)
  | .getDocument k => (.ok (.document (s.documents k)), s)

def answers {σ α : Type} (answer : σ → TimedCall B → α × σ) (s : σ) : List (TimedCall B) → List α
  | [] => []
  | c :: cs => (answer s c).1 :: answers answer (answer s c).2 cs

/-! ## What both tables can hold -/

variable (e : OplogEntry B)

/-- An entry the table can hold: what an `INSERT` leaves out is at its default, and the numbers
are `i64`. -/
structure Plain : Prop where
  status : e.syncStatus = .pending ∨ e.syncStatus = .failed
  syncedAt : e.syncedAt = none
  schemaVersion : e.schemaVersion = 0
  origin : e.origin = .unknown
  originContext : e.originContext = ""
  bindable : SQLiteStorage.Bindable e

/-- An entry to append: its id is new, and it was created after the others of its namespace. -/
structure Appendable : Prop where
  plain : Plain e
  new : ∀ e' ∈ s.oplog, e'.id ≠ e.id
  later : ∀ e' ∈ s.oplog, e'.namespace = e.namespace → e'.createdAt < e.createdAt

/-- A call after which the storages cannot be told apart. Sequences are `u64`, clocks and cutoffs
below `2 ^ 63`. -/
def Usual (c : TimedCall B) : Prop :=
  match c.call with
  | .appendOplog e => Appendable s e
  | .writeDocumentAndOplog _ _ e => Appendable s e
  | .markSynced _ sequence => sequence < 2 ^ 64 ∧ c.now < 2 ^ 63
  | .markFailed _ => True
  | .resetStalePending _ _ => c.now < 2 ^ 63
  | .deleteSyncedBefore _ cutoffMs => cutoffMs < 2 ^ 63
  | .deleteSyncedOplogOlderThan _ _ => c.now < 2 ^ 63
  | .readPendingOplog _ limit => limit < 2 ^ 63 ∨ s.oplog.length ≤ limit
  | .getDocument _ => True

def AllUsual (s : InMemoryStorage B) : List (TimedCall B) → Prop
  | [] => True
  | c :: cs => Usual s c ∧ AllUsual (memoryAnswer s c).2 cs

/-! ## The simulation -/

structure Kept : Prop where
  status : e.syncStatus ≠ .optimistic
  synced : e.syncStatus = .synced → e.syncedAt ≠ none
  schemaVersion : e.schemaVersion = 0
  origin : e.origin = .unknown
  originContext : e.originContext = ""
  timestamp : e.timestamp < 2 ^ 63
  sequence : ∀ q ∈ e.sequence, q < 2 ^ 64
  syncedAt : ∀ q ∈ e.syncedAt, q < 2 ^ 63
  createdAt : e.createdAt < 2 ^ 63

def rowOf : OplogRow B :=
  { OplogRow.inserted e with
    sequence := e.sequence.map asI64
    syncedAt := e.syncedAt.map fun q => (q : ℤ) }

structure Simulates (t : SQLiteStorage B) : Prop where
  documents : t.documents = s.documents
  oplog : t.oplog = s.oplog.map rowOf
  kept : ∀ e ∈ s.oplog, Kept e
  sorted : s.oplog.Pairwise fun a b => a.namespace = b.namespace → a.createdAt < b.createdAt

lemma asU64_of_lt {n : ℕ} (h : n < 2 ^ 63) : asU64 (n : ℤ) = n := by
  rw [← asI64_of_lt h]
  exact asU64_asI64 (h.trans (by decide))

variable {e : OplogEntry B}

lemma Plain.kept (h : Plain e) : Kept e where
  status := by
    rcases h.status with hs | hs
    · simp [hs]
    · simp [hs]
  synced hs := by
    rcases h.status with h' | h'
    · cases h'.symm.trans hs
    · cases h'.symm.trans hs
  schemaVersion := h.schemaVersion
  origin := h.origin
  originContext := h.originContext
  timestamp := h.bindable.1
  sequence q hq := (h.bindable.2.1 q hq).trans (by decide)
  syncedAt := by simp [h.syncedAt]
  createdAt := h.bindable.2.2

lemma Plain.inserted_eq (h : Plain e) : OplogRow.inserted e = rowOf e := by
  have hsequence : (e.sequence.map fun q => (q : ℤ)) = e.sequence.map asI64 := by
    cases hq : e.sequence with
    | none => rfl
    | some q => exact congrArg some (asI64_of_lt (h.bindable.2.1 q hq)).symm
  unfold rowOf
  rw [← hsequence, h.syncedAt]
  rfl

lemma debug_mutationType (t : MutationType) :
    (if t.debug = "CrdtInsert" then MutationType.crdtInsert
      else if t.debug = "CrdtDelete" then .crdtDelete
      else if t.debug = "CrdtBatch" then .crdtBatch else .crdtUpdate) = t := by
  cases t <;> decide

lemma debug_syncStatus {t : SyncStatus} (h : t ≠ .optimistic) :
    (if t.debug = "Synced" then SyncStatus.synced
      else if t.debug = "Failed" then .failed else .pending) = t := by
  cases t with
  | optimistic => exact absurd rfl h
  | pending => decide
  | synced => decide
  | failed => decide

lemma Kept.toEntry_rowOf (h : Kept e) : (rowOf e).toEntry = e := by
  have hsequence : (e.sequence.map asI64).map asU64 = e.sequence := by
    cases hq : e.sequence with
    | none => rfl
    | some q => exact congrArg some (asU64_asI64 (h.sequence q hq))
  have hsyncedAt : (e.syncedAt.map fun q => (q : ℤ)).map asU64 = e.syncedAt := by
    cases hq : e.syncedAt with
    | none => rfl
    | some q => exact congrArg some (asU64_of_lt (h.syncedAt q hq))
  unfold OplogRow.toEntry rowOf OplogRow.inserted
  dsimp only
  rw [hsequence, hsyncedAt, debug_mutationType, debug_syncStatus h.status,
    asU64_of_lt h.timestamp, asU64_of_lt h.createdAt, ← h.schemaVersion, ← h.origin,
    ← h.originContext]

lemma debug_eq_iff (t : SyncStatus) : (t.debug = "Synced" ↔ t = .synced) ∧
    (t.debug = "Pending" ∨ t.debug = "Optimistic" ↔ t.isUploadable) := by
  cases t <;> decide

section steps

variable {s : InMemoryStorage B} {t : SQLiteStorage B} {e : OplogEntry B} {p : OplogRow B → Prop}
  {q : OplogEntry B → Prop} {now : ℕ}

lemma Simulates.append (h : Simulates s t) (he : Appendable s e) :
    (t.appendOplog e).1 = .ok () ∧ Simulates (s.appendOplog e) (t.appendOplog e).2 := by
  have hid : e.id ∉ t.oplog.map OplogRow.id := by
    rw [h.oplog, map_map]
    intro hmem
    obtain ⟨e', he', heq⟩ := mem_map.1 hmem
    exact he.new e' he' heq
  unfold SQLiteStorage.appendOplog
  rw [if_pos he.plain.bindable, dif_neg hid]
  refine ⟨rfl, h.documents, ?_, ?_, ?_⟩
  · unfold InMemoryStorage.appendOplog
    dsimp only
    rw [h.oplog, he.plain.inserted_eq, map_append, map_singleton]
  · intro e' he'
    rcases mem_append.1 he' with he' | he'
    · exact h.kept e' he'
    · exact mem_singleton.1 he' ▸ he.plain.kept
  · refine pairwise_append.2 ⟨h.sorted, pairwise_singleton _ _, fun a ha b hb => ?_⟩
    rw [mem_singleton.1 hb]
    exact he.later a ha

lemma Simulates.countP (h : Simulates s t) [DecidablePred p] [DecidablePred q]
    (hp : ∀ e ∈ s.oplog, p (rowOf e) ↔ q e) : t.oplog.countP p = s.oplog.countP q := by
  rw [h.oplog, countP_map]
  refine countP_congr fun e he => ?_
  simpa using hp e he

lemma Simulates.update (h : Simulates s t) [DecidablePred p] [DecidablePred q]
    {set : OplogRow B → OplogRow B} {hset : ∀ r, (set r).id = r.id}
    {f : OplogEntry B → OplogEntry B} (hp : ∀ e ∈ s.oplog, p (rowOf e) ↔ q e)
    (hf : ∀ e, rowOf (f e) = set (rowOf e)) (hkept : ∀ e, Kept e → q e → Kept (f e))
    (hkey : ∀ e, (f e).namespace = e.namespace ∧ (f e).createdAt = e.createdAt) :
    (t.update p set hset).1 = s.oplog.countP q ∧
      Simulates { s with oplog := s.oplog.map fun e => if q e then f e else e }
        (t.update p set hset).2 := by
  refine ⟨h.countP hp, h.documents, ?_, ?_, ?_⟩
  · unfold SQLiteStorage.update
    dsimp only
    rw [h.oplog, map_map, map_map]
    refine map_congr_left fun e he => ?_
    by_cases hq : q e
    · simp only [Function.comp_apply, if_pos hq, if_pos ((hp e he).2 hq), hf]
    · simp only [Function.comp_apply, if_neg hq, if_neg (mt (hp e he).1 hq)]
  · intro e he
    obtain ⟨e', he', rfl⟩ := mem_map.1 he
    split_ifs with hq
    · exact hkept e' (h.kept e' he') hq
    · exact h.kept e' he'
  · have hsame : ∀ e, (if q e then f e else e).namespace = e.namespace ∧
        (if q e then f e else e).createdAt = e.createdAt := by
      intro e
      split_ifs
      · exact hkey e
      · exact ⟨rfl, rfl⟩
    refine pairwise_map.2 (h.sorted.imp fun hab hns => ?_)
    rw [(hsame _).2, (hsame _).2]
    exact hab ((hsame _).1.symm.trans (hns.trans (hsame _).1))

lemma Simulates.delete (h : Simulates s t) [DecidablePred p] [DecidablePred q]
    (hp : ∀ e ∈ s.oplog, p (rowOf e) ↔ q e) :
    (t.delete p).1 = s.oplog.length - (s.oplog.filter fun e => ¬ q e).length ∧
      Simulates { s with oplog := s.oplog.filter fun e => ¬ q e } (t.delete p).2 := by
  refine ⟨?_, h.documents, ?_, fun e he => h.kept e (mem_of_mem_filter he), h.sorted.filter _⟩
  · have hsum := length_eq_countP_add_countP (fun e => decide (q e)) (l := s.oplog)
    simp only [decide_eq_true_eq] at hsum
    rw [← countP_eq_length_filter]
    exact (h.countP hp).trans (by omega)
  · unfold SQLiteStorage.delete
    dsimp only
    rw [h.oplog, filter_map]
    refine congrArg _ (filter_congr fun e he => ?_)
    simp only [Function.comp_apply, hp e he]

lemma sort_eq_self (sort : Sorter B) {l : List (OplogRow B)}
    (h : l.Pairwise fun a b => a.createdAt < b.createdAt) : sort.1 l = l := by
  obtain ⟨hperm, hsorted⟩ := sort.2 l
  refine List.Perm.eq_of_pairwise (fun a b ha hb hab hba => ?_) hsorted (h.imp le_of_lt) hperm
  have hnodup : (l.map OplogRow.createdAt).Nodup := pairwise_map.2 (h.imp ne_of_lt)
  exact inj_on_of_nodup_map hnodup (hperm.subset ha) hb (le_antisymm hab hba)

lemma Simulates.readPendingOplog (h : Simulates s t) (sort : Sorter B) (ns : String) {limit : ℕ}
    (hlimit : limit < 2 ^ 63 ∨ s.oplog.length ≤ limit) :
    t.readPendingOplog sort ns limit = s.readPendingOplog ns limit := by
  let l := s.oplog.filter fun e => e.namespace = ns ∧ e.syncStatus.isUploadable
  have hrows : (t.oplog.filter fun r =>
      r.namespace = ns ∧ (r.syncStatus = "Pending" ∨ r.syncStatus = "Optimistic")) = l.map rowOf := by
    rw [h.oplog, filter_map]
    refine congrArg _ (filter_congr fun e _ => ?_)
    simp only [Function.comp_apply, rowOf, OplogRow.inserted, (debug_eq_iff e.syncStatus).2]
  have hmem : ∀ e ∈ l, e ∈ s.oplog ∧ e.namespace = ns := fun e he => by
    obtain ⟨hs, hns⟩ := mem_filter.1 he
    exact ⟨hs, (of_decide_eq_true hns).1⟩
  have hstrict : (l.map rowOf).Pairwise fun a b => a.createdAt < b.createdAt := by
    rw [pairwise_map]
    refine (h.sorted.filter _).imp_of_mem fun ha hb hab => ?_
    exact Int.ofNat_lt.2 (hab ((hmem _ ha).2.trans (hmem _ hb).2.symm))
  have hback : (l.map rowOf).map OplogRow.toEntry = l := by
    rw [map_map]
    refine (map_congr_left fun e he => ?_).trans (map_id l)
    exact (h.kept e (hmem e he).1).toEntry_rowOf
  unfold SQLiteStorage.readPendingOplog InMemoryStorage.readPendingOplog
  dsimp only
  rw [hrows, sort_eq_self sort hstrict]
  split_ifs with hbig
  · have hlen : l.length ≤ limit := by
      have hle : l.length ≤ s.oplog.length := length_filter_le _ _
      omega
    rw [hback]
    exact (take_of_length_le hlen).symm
  · rw [map_take, hback]

lemma Simulates.writeDocumentAndOplog (h : Simulates s t) {k : Key} {bytes : B}
    (he : Appendable s e) : (t.writeDocumentAndOplog k bytes e).1 = .ok () ∧
      Simulates (s.writeDocumentAndOplog k bytes e) (t.writeDocumentAndOplog k bytes e).2 := by
  obtain ⟨hok, hsim⟩ := h.append he
  unfold SQLiteStorage.writeDocumentAndOplog
  generalize t.appendOplog e = a at hok hsim
  obtain ⟨r, t'⟩ := a
  cases hok
  refine ⟨rfl, ?_, hsim.oplog, hsim.kept, hsim.sorted⟩
  exact congrArg (Function.update · k (some bytes)) hsim.documents

lemma Simulates.markSynced (h : Simulates s t) (id : String) {sequence : ℕ}
    (hsequence : sequence < 2 ^ 64) (hnow : now < 2 ^ 63) :
    Simulates (s.markSynced id sequence now) (t.markSynced id sequence now) := by
  refine (h.update (q := fun e => e.id = id) (f := fun e => { e with
    syncStatus := .synced, sequence := some sequence, syncedAt := some now })
    (fun _ _ => Iff.rfl) (fun _ => rfl) (fun e he _ => ?_) fun _ => ⟨rfl, rfl⟩).2
  exact { he with
    status := nofun
    synced := fun _ => nofun
    sequence := fun q hq => Option.some.inj hq ▸ hsequence
    syncedAt := fun q hq => Option.some.inj hq ▸ hnow }

lemma Simulates.markFailed (h : Simulates s t) (id : String) :
    Simulates (s.markFailed id) (t.markFailed id) := by
  refine (h.update (q := fun e => e.id = id) (f := fun e => { e with syncStatus := .failed })
    (fun _ _ => Iff.rfl) (fun _ => rfl) (fun e he _ => ?_) fun _ => ⟨rfl, rfl⟩).2
  exact { he with status := nofun, synced := nofun }

lemma cast_lt_asI64 {n bound : ℕ} (h : bound < 2 ^ 63) : (n : ℤ) < asI64 bound ↔ n < bound := by
  rw [asI64_of_lt h, Int.ofNat_lt]

section

variable (h : Simulates s t)

include h

lemma Simulates.resetStalePending (ns : String) {olderThanMs : ℕ} (hnow : now < 2 ^ 63) :
    (t.resetStalePending ns olderThanMs now).1 = (s.resetStalePending ns olderThanMs now).2 ∧
      Simulates (s.resetStalePending ns olderThanMs now).1
        (t.resetStalePending ns olderThanMs now).2 := by
  refine h.update (q := fun e => InMemoryStorage.Stale ns olderThanMs now e)
    (f := fun e => { e with syncStatus := .pending }) (fun e _ => ?_) (fun _ => rfl)
    (fun e he _ => ?_) fun _ => ⟨rfl, rfl⟩
  · have hlt : now - olderThanMs < 2 ^ 63 := lt_of_le_of_lt (Nat.sub_le _ _) hnow
    simp only [rowOf, OplogRow.inserted, InMemoryStorage.Stale, ne_eq, (debug_eq_iff e.syncStatus).1,
      cast_lt_asI64 hlt]
  · exact { he with status := nofun, synced := nofun }

lemma Simulates.deleteSyncedBefore (ns : String) {cutoffMs : ℕ} (hcutoff : cutoffMs < 2 ^ 63) :
    (t.deleteSyncedBefore ns cutoffMs).1 =
        s.oplog.length - (s.deleteSyncedBefore ns cutoffMs).oplog.length ∧
      Simulates (s.deleteSyncedBefore ns cutoffMs) (t.deleteSyncedBefore ns cutoffMs).2 := by
  refine h.delete fun e _ => ?_
  simp only [rowOf, OplogRow.inserted, (debug_eq_iff e.syncStatus).1, cast_lt_asI64 hcutoff]

lemma Simulates.deleteSyncedOplogOlderThan (ns : String) {olderThanSecs : ℕ} (hnow : now < 2 ^ 63) :
    (t.deleteSyncedOplogOlderThan ns olderThanSecs now).1 =
        s.oplog.length - (s.deleteSyncedOplogOlderThan ns olderThanSecs now).oplog.length ∧
      Simulates (s.deleteSyncedOplogOlderThan ns olderThanSecs now)
        (t.deleteSyncedOplogOlderThan ns olderThanSecs now).2 := by
  have hlt : now - olderThanSecs < 2 ^ 63 := lt_of_le_of_lt (Nat.sub_le _ _) hnow
  refine h.delete fun e he => ?_
  simp only [rowOf, OplogRow.inserted, (debug_eq_iff e.syncStatus).1]
  refine and_congr_right fun _ => and_congr_right fun hstatus => ?_
  cases hat : e.syncedAt with
  | none => exact absurd hat ((h.kept e he).synced hstatus)
  | some at' => simp [cast_lt_asI64 hlt]

/-- **One call.** The storages answer a usual call alike and stay alike. -/
theorem Simulates.answer {c : TimedCall B} (hc : Usual s c) :
    (sqliteAnswer t c).1 = (memoryAnswer s c).1 ∧ Simulates (memoryAnswer s c).2 (sqliteAnswer t c).2 := by
  obtain ⟨call, now, sort⟩ := c
  have hsecs : now < 2 ^ 63 → now / 1000 < 2 ^ 63 := fun hnow => by omega
  cases call with
  | appendOplog e =>
    obtain ⟨hok, hsim⟩ := h.append hc
    exact ⟨congrArg (Except.map fun _ => StorageAnswer.done) hok, hsim⟩
  | writeDocumentAndOplog k bytes e =>
    obtain ⟨hok, hsim⟩ := h.writeDocumentAndOplog hc
    exact ⟨congrArg (Except.map fun _ => StorageAnswer.done) hok, hsim⟩
  | markSynced id sequence => exact ⟨rfl, h.markSynced id hc.1 (hsecs hc.2)⟩
  | markFailed id => exact ⟨rfl, h.markFailed id⟩
  | resetStalePending ns olderThanMs =>
    obtain ⟨hcount, hsim⟩ := h.resetStalePending ns hc
    exact ⟨congrArg (fun n => Except.ok (StorageAnswer.count n)) hcount, hsim⟩
  | deleteSyncedBefore ns cutoffMs =>
    obtain ⟨hcount, hsim⟩ := h.deleteSyncedBefore ns hc
    exact ⟨congrArg (fun n => Except.ok (StorageAnswer.count n)) hcount, hsim⟩
  | deleteSyncedOplogOlderThan ns olderThanSecs =>
    obtain ⟨hcount, hsim⟩ := h.deleteSyncedOplogOlderThan ns (hsecs hc)
    exact ⟨congrArg (fun n => Except.ok (StorageAnswer.count n)) hcount, hsim⟩
  | readPendingOplog ns limit =>
    exact ⟨congrArg (fun l => Except.ok (StorageAnswer.entries l)) (h.readPendingOplog sort ns hc), h⟩
  | getDocument k =>
    exact ⟨congrArg (fun d : Key → Option B => Except.ok (StorageAnswer.document (d k))) h.documents,
      h⟩

lemma Simulates.answers {cs : List (TimedCall B)} (hcs : AllUsual s cs) :
    answers sqliteAnswer t cs = answers memoryAnswer s cs := by
  induction cs generalizing s t with
  | nil => rfl
  | cons c cs ih =>
    obtain ⟨hanswer, hsim⟩ := h.answer hcs.1
    exact cons_eq_cons.2 ⟨hanswer, ih hsim hcs.2⟩

end

end steps

/-- **Interchangeable storages.** Both answer every sequence of usual calls alike. -/
theorem answers_eq_of_allUsual (cs : List (TimedCall B)) (h : AllUsual .new cs) :
    answers sqliteAnswer .new cs = answers memoryAnswer .new cs := by
  have hnew : Simulates (B := B) .new .new :=
    ⟨rfl, rfl, fun _ he => absurd he not_mem_nil, .nil⟩
  exact hnew.answers h

/-! ## Sequences of calls -/

instance : Std.Total fun a b : OplogRow B => a.createdAt ≤ b.createdAt :=
  ⟨fun a b => le_total a.createdAt b.createdAt⟩

instance : IsTrans (OplogRow B) fun a b => a.createdAt ≤ b.createdAt :=
  ⟨fun _ _ _ => le_trans⟩

def stableSorter : Sorter B :=
  ⟨List.insertionSort fun a b => a.createdAt ≤ b.createdAt, fun l =>
    ⟨perm_insertionSort _ l, pairwise_insertionSort _ l⟩⟩

def tenSeconds (call : StorageCall Unit) : TimedCall Unit := ⟨call, 10000, stableSorter⟩

def plainEntry (id : String) (createdAt : ℕ) : OplogEntry Unit :=
  ⟨id, "r", "a", .crdtInsert, "d", "x", (), none, 0, none, .pending, none, createdAt, 0, .unknown, ""⟩

def inOrder : List (TimedCall Unit) :=
  [.appendOplog (plainEntry "1" 1), .writeDocumentAndOplog ⟨"d", "x"⟩ () (plainEntry "2" 2),
    .markSynced "1" 7, .readPendingOplog "a" 10, .deleteSyncedOplogOlderThan "a" 0,
    .deleteSyncedBefore "a" 2].map tenSeconds

lemma plain_plainEntry {id : String} {createdAt : ℕ} (h : createdAt < 2 ^ 63) :
    Plain (plainEntry id createdAt) :=
  ⟨.inl rfl, rfl, rfl, rfl, rfl, Nat.two_pow_pos 63, nofun, h⟩

theorem answers_inOrder :
    answers sqliteAnswer .new inOrder = answers memoryAnswer .new inOrder ∧
      answers memoryAnswer .new inOrder = [.ok .done, .ok .done, .ok .done,
        .ok (.entries [plainEntry "2" 2]), .ok (.count 0), .ok (.count 1)] := by
  refine ⟨answers_eq_of_allUsual inOrder ?_, by decide⟩
  have hfirst : Appendable (B := Unit) .new (plainEntry "1" 1) :=
    ⟨plain_plainEntry (by decide), fun _ he => absurd he not_mem_nil,
      fun _ he => absurd he not_mem_nil⟩
  have hsecond : Appendable (InMemoryStorage.new.appendOplog (plainEntry "1" 1)) (plainEntry "2" 2) := by
    refine ⟨plain_plainEntry (by decide), fun e he => ?_, fun e he _ => ?_⟩
    · rw [mem_singleton.1 he]
      decide
    · rw [mem_singleton.1 he]
      decide
  exact ⟨hfirst, hsecond, ⟨by decide, by decide⟩, .inl (by decide), (by decide : 10000 < 2 ^ 63),
    (by decide : 2 < 2 ^ 63), trivial⟩

/-- SQLite reads entries by their time of creation. It reads an optimistic entry as pending and
without its provenance. And it keeps a synced entry that has no time of synchronisation. -/
theorem answers_differ :
    (let calls := [.appendOplog (plainEntry "1" 2), .appendOplog (plainEntry "2" 1),
      .readPendingOplog "a" 10].map tenSeconds
     answers sqliteAnswer .new calls =
        [.ok .done, .ok .done, .ok (.entries [plainEntry "2" 1, plainEntry "1" 2])] ∧
      answers memoryAnswer .new calls =
        [.ok .done, .ok .done, .ok (.entries [plainEntry "1" 2, plainEntry "2" 1])]) ∧
    (let e := { plainEntry "1" 1 with syncStatus := .optimistic, origin := .insert }
     let calls := [.appendOplog e, .readPendingOplog "a" 10].map tenSeconds
     answers sqliteAnswer .new calls = [.ok .done, .ok (.entries [plainEntry "1" 1])] ∧
      answers memoryAnswer .new calls = [.ok .done, .ok (.entries [e])]) ∧
    (let e := { plainEntry "1" 1 with syncStatus := .synced }
     let calls := [.appendOplog e, .deleteSyncedOplogOlderThan "a" 5].map tenSeconds
     answers sqliteAnswer .new calls = [.ok .done, .ok (.count 0)] ∧
      answers memoryAnswer .new calls = [.ok .done, .ok (.count 1)]) := by
  decide

end VaultSync.Backends
