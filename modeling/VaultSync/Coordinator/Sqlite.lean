import Mathlib.Algebra.Group.Nat.Defs
import VaultSync.Coordinator.Types
import VaultSync.Log.Paging

/-! The SQLite coordinator: the `mutations` table behind one connection mutex, each push one
transaction. -/

namespace VaultSync

open List

variable {B : Type}

namespace SQLiteCoordinator

structure Row (B : Type) where
  sequence : ℕ
  id : String
  «namespace» : String
  replicaId : String
  docId : String
  recordId : String
  encryptedBlob : B
  timestamp : ℤ
  keyVersion : ℤ

/-- The Rust cast `as i64` of a `u64`. -/
def asI64 (n : ℕ) : ℤ := (n : ℤ).bmod (2 ^ 64)

/-- How `AUTOINCREMENT` picks a key: above every key the table has held. -/
def AutoIncrement := { next : ℕ → ℕ // ∀ n, n < next n }

end SQLiteCoordinator

open SQLiteCoordinator

/-- `rows` in primary key order; `lastSequence` is the table's row of `sqlite_sequence`. -/
structure SQLiteCoordinator (B : Type) where
  rows : List (Row B)
  lastSequence : ℕ
  sorted : rows.Pairwise fun a b => a.sequence < b.sequence
  seq_pos : ∀ r ∈ rows, 0 < r.sequence
  seq_le : ∀ r ∈ rows, r.sequence ≤ lastSequence
  lastSequence_lt : lastSequence < 2 ^ 63

namespace SQLiteCoordinator

def new : SQLiteCoordinator B where
  rows := []
  lastSequence := 0
  sorted := .nil
  seq_pos := by simp
  seq_le := by simp
  lastSequence_lt := by decide

def row (ns : String) (seq : ℕ) (m : EncryptedMutation B) : Row B where
  sequence := seq
  id := m.id
  «namespace» := ns
  replicaId := m.replicaId
  docId := m.docId
  recordId := m.recordId
  encryptedBlob := m.encryptedBlob
  timestamp := asI64 m.timestamp
  keyVersion := asI64 m.keyVersion

variable (c : SQLiteCoordinator B) (ns : String)

def append (seq : ℕ) (m : EncryptedMutation B) (hseq : c.lastSequence < seq)
    (hmax : seq < 2 ^ 63) : SQLiteCoordinator B where
  rows := c.rows ++ [row ns seq m]
  lastSequence := seq
  sorted := by
    rw [pairwise_append]
    refine ⟨c.sorted, pairwise_singleton _ _, ?_⟩
    simpa [row] using fun r hr => (c.seq_le r hr).trans_lt hseq
  seq_pos := by
    simpa [or_imp, forall_and, row] using ⟨c.seq_pos, Nat.zero_lt_of_lt hseq⟩
  seq_le := by
    simpa [or_imp, forall_and, row] using fun r hr => (c.seq_le r hr).trans hseq.le
  lastSequence_lt := hmax

/-- `INSERT OR IGNORE`, then the rowid or the key of the row that has the id. The id is unique
over all namespaces. -/
def insertOrIgnore (auto : AutoIncrement) (ns : String)
    (m : EncryptedMutation B) : Except CoordinatorError (ℕ × SQLiteCoordinator B) :=
  match c.rows.find? fun r => r.id = m.id with
  | some r => .ok (r.sequence, c)
  | none =>
    if hmax : auto.1 c.lastSequence < 2 ^ 63 then
      .ok (auto.1 c.lastSequence, c.append ns _ m (auto.2 _) hmax)
    else
      .error (.internal "database or disk is full")

def insertAll (c : SQLiteCoordinator B) (auto : AutoIncrement) (ns : String) :
    List (EncryptedMutation B) → Except CoordinatorError (List ℕ × SQLiteCoordinator B)
  | [] => .ok ([], c)
  | m :: ms => do
    let (seq, c') ← c.insertOrIgnore auto ns m
    let (seqs, c'') ← c'.insertAll auto ns ms
    return (seq :: seqs, c'')

/-- One transaction. It is rolled back when SQLite reports the failure `fault`, the commit
included, or when a statement fails. -/
def push (auto : AutoIncrement) (fault : Option String) (ns : String)
    (ms : List (EncryptedMutation B)) : Except CoordinatorError (List ℕ) × SQLiteCoordinator B :=
  match fault, c.insertAll auto ns ms with
  | none, .ok (seqs, c') => (.ok seqs, c')
  | none, .error e => (.error e, c)
  | some msg, _ => (.error (.internal msg), c)

def Row.toPending (r : Row B) : PendingMutation B where
  id := r.id
  «namespace» := r.namespace
  sequence := r.sequence
  docId := r.docId
  recordId := r.recordId
  encryptedBlob := r.encryptedBlob
  timestamp := r.timestamp.toNat
  keyVersion := r.keyVersion.toNat
  replicaId := r.replicaId

/-- Reading a row back: a negative `INTEGER` is no `u64`. -/
def Row.decode (r : Row B) : Except CoordinatorError (PendingMutation B) :=
  if r.timestamp < 0 then .error (.internal s!"Integer {r.timestamp} out of range at index 6")
  else if r.keyVersion < 0 then
    .error (.internal s!"Integer {r.keyVersion} out of range at index 7")
  else .ok r.toPending

def decodeAll : List (Row B) → Except CoordinatorError (List (PendingMutation B))
  | [] => .ok []
  | r :: rs => do
    let m ← r.decode
    let ms ← decodeAll rs
    return m :: ms

/-- A `u64` or `usize` above `i64::MAX` cannot be bound to a statement. -/
def pull (after limit : ℕ) : Except CoordinatorError (List (PendingMutation B)) :=
  if 2 ^ 63 ≤ after ∨ 2 ^ 63 ≤ limit then
    .error (.internal "out of range integral type conversion attempted")
  else
    decodeAll ((c.rows.filter fun r => r.namespace = ns ∧ after < r.sequence).take limit)

def mutations : List (PendingMutation B) :=
  (c.rows.filter fun r => r.namespace = ns).map Row.toPending

variable {c ns} {c' : SQLiteCoordinator B} {rs : List (Row B)}
  {ms : List (EncryptedMutation B)} {auto : AutoIncrement} {m : EncryptedMutation B} {seq : ℕ}
  {seqs : List ℕ}

lemma decodeAll_ok {ms : List (PendingMutation B)}
    (h : decodeAll rs = .ok ms) : ms = rs.map Row.toPending := by
  induction rs generalizing ms with
  | nil => cases h; rfl
  | cons r rs ih =>
    unfold decodeAll Row.decode at h
    split_ifs at h
    · cases h
    · cases h
    · cases hrs : decodeAll rs with
      | error e => rw [hrs] at h; cases h
      | ok ms' =>
        rw [hrs] at h
        cases h
        rw [ih hrs, map_cons]

lemma decodeAll_eq (h : ∀ r ∈ rs, 0 ≤ r.timestamp ∧ 0 ≤ r.keyVersion) :
    decodeAll rs = .ok (rs.map Row.toPending) := by
  induction rs with
  | nil => rfl
  | cons r rs ih =>
    obtain ⟨hr, hrs⟩ := forall_mem_cons.1 h
    rw [decodeAll, Row.decode, if_neg (not_lt.2 hr.1), if_neg (not_lt.2 hr.2), ih hrs]
    rfl

lemma asI64_of_lt {n : ℕ} (h : n < 2 ^ 63) : asI64 n = n :=
  Int.bmod_eq_of_le (by omega) (by omega)

lemma bmod_le_self {z : ℤ} (hz : 0 ≤ z) (m : ℕ) : z.bmod m ≤ z := by
  have hm : (0 : ℤ) ≤ m := Int.natCast_nonneg m
  have hdiv : 0 ≤ m * (z / m) := Int.mul_nonneg hm (Int.ediv_nonneg hz hm)
  have hmod := Int.emod_add_mul_ediv z m
  rw [Int.bmod_def]
  split <;> omega

lemma asI64_le (n : ℕ) : asI64 n ≤ n := bmod_le_self (Int.natCast_nonneg n) _

lemma insertOrIgnore_ok (h : c.insertOrIgnore auto ns m = .ok (seq, c')) :
    (c' = c ∧ ∃ r ∈ c.rows, r.id = m.id ∧ r.sequence = seq) ∨
      (c'.rows = c.rows ++ [row ns seq m] ∧ c'.lastSequence = seq ∧ c.lastSequence < seq ∧
        ∀ r ∈ c.rows, r.id ≠ m.id) := by
  unfold insertOrIgnore at h
  cases hf : c.rows.find? fun r => r.id = m.id with
  | some r =>
    rw [hf] at h
    cases h
    have hid := List.find?_some hf
    exact .inl ⟨rfl, r, mem_of_find?_eq_some hf, of_decide_eq_true hid, rfl⟩
  | none =>
    rw [hf] at h
    simp only at h
    split_ifs at h with hmax
    cases h
    have hnone := List.find?_eq_none.1 hf
    exact .inr ⟨rfl, rfl, auto.2 _, by simpa using hnone⟩

lemma insertAll_cons_ok (h : c.insertAll auto ns (m :: ms) = .ok (seqs, c')) :
    ∃ seq c1 seqs', c.insertOrIgnore auto ns m = .ok (seq, c1) ∧
      c1.insertAll auto ns ms = .ok (seqs', c') ∧ seqs = seq :: seqs' := by
  unfold insertAll at h
  cases h1 : c.insertOrIgnore auto ns m with
  | error e => rw [h1] at h; cases h
  | ok x =>
    cases h2 : x.2.insertAll auto ns ms with
    | error e => simp [h1, h2, bind, Except.bind] at h
    | ok y =>
      simp only [h1, h2, bind, Except.bind, pure, Except.pure, Except.ok.injEq,
        Prod.mk.injEq] at h
      exact ⟨x.1, x.2, y.1, rfl, h.2 ▸ h2, h.1.symm⟩

lemma rows_insertOrIgnore
    (h : c.insertOrIgnore auto ns m = .ok (seq, c')) : c.rows <+: c'.rows := by
  rcases insertOrIgnore_ok h with ⟨rfl, -⟩ | ⟨hrows, -⟩
  · exact prefix_rfl
  · rw [hrows]
    exact prefix_append _ _

section

variable (h : c.insertAll auto ns ms = .ok (seqs, c'))

include h

lemma rows_insertAll : c.rows <+: c'.rows := by
  induction ms generalizing c c' seqs with
  | nil => cases h; exact prefix_rfl
  | cons m ms ih =>
    obtain ⟨seq, c1, seqs', h1, h2, rfl⟩ := insertAll_cons_ok h
    exact (rows_insertOrIgnore h1).trans (ih h2)

lemma lastSequence_insertAll : c.lastSequence ≤ c'.lastSequence := by
  induction ms generalizing c c' seqs with
  | nil => cases h; exact le_rfl
  | cons m ms ih =>
    obtain ⟨seq, c1, seqs', h1, h2, rfl⟩ := insertAll_cons_ok h
    refine le_trans ?_ (ih h2)
    rcases insertOrIgnore_ok h1 with ⟨rfl, -⟩ | ⟨-, hlast, hlt, -⟩
    · exact le_rfl
    · exact hlast ▸ hlt.le

lemma mem_rows_insertAll {r : Row B} (hr : r ∈ c'.rows) :
    r ∈ c.rows ∨ (c.lastSequence < r.sequence ∧ ∃ a ∈ ms.zip seqs, r = row ns a.2 a.1) := by
  induction ms generalizing c c' seqs with
  | nil => cases h; exact .inl hr
  | cons m ms ih =>
    obtain ⟨seq, c1, seqs', h1, h2, rfl⟩ := insertAll_cons_ok h
    rcases ih h2 hr with hold | ⟨hlt, a, ha, rfl⟩
    · rcases insertOrIgnore_ok h1 with ⟨rfl, -⟩ | ⟨hrows, -, hlt, -⟩
      · exact .inl hold
      · rw [hrows, mem_append, mem_singleton] at hold
        rcases hold with hold | rfl
        · exact .inl hold
        · exact .inr ⟨hlt, _, mem_cons_self, rfl⟩
    · refine .inr ⟨lt_of_le_of_lt ?_ hlt, a, mem_cons_of_mem _ ha, rfl⟩
      rcases insertOrIgnore_ok h1 with ⟨rfl, -⟩ | ⟨-, hlast, hlt, -⟩
      · exact le_rfl
      · exact hlast ▸ hlt.le

lemma filter_insertAll_of_ne {ns' : String} (hne : ns' ≠ ns) :
    (c'.rows.filter fun r => r.namespace = ns') = c.rows.filter fun r => r.namespace = ns' := by
  induction ms generalizing c c' seqs with
  | nil => cases h; rfl
  | cons m ms ih =>
    obtain ⟨seq, c1, seqs', h1, h2, rfl⟩ := insertAll_cons_ok h
    rw [ih h2]
    rcases insertOrIgnore_ok h1 with ⟨rfl, -⟩ | ⟨hrows, -⟩
    · rfl
    · have hnew : ¬ (row ns seq m).namespace = ns' := fun heq => hne heq.symm
      rw [hrows, filter_append, filter_cons_of_neg (by simpa using hnew), filter_nil,
        append_nil]

lemma mem_zip_insertAll {a : EncryptedMutation B × ℕ}
    (ha : a ∈ ms.zip seqs) : ∃ r ∈ c'.rows, r.id = a.1.id ∧ r.sequence = a.2 := by
  induction ms generalizing c c' seqs with
  | nil => cases ha
  | cons m ms ih =>
    obtain ⟨seq, c1, seqs', h1, h2, rfl⟩ := insertAll_cons_ok h
    rcases mem_cons.1 ha with rfl | ha
    · rcases insertOrIgnore_ok h1 with ⟨rfl, r, hr, hid, hseq⟩ | ⟨hrows, -⟩
      · exact ⟨r, (rows_insertAll h2).subset hr, hid, hseq⟩
      · refine ⟨row ns seq m, (rows_insertAll h2).subset ?_, rfl, rfl⟩
        rw [hrows]
        exact mem_append_right _ mem_cons_self
    · exact ih h2 ha

end

variable (c)

lemma rows_push (auto : AutoIncrement) (fault : Option String) (ns : String)
    (ms : List (EncryptedMutation B)) :
    c.rows <+: (c.push auto fault ns ms).2.rows := by
  unfold push
  cases fault with
  | some msg => exact prefix_rfl
  | none =>
    cases h : c.insertAll auto ns ms with
    | error e => exact prefix_rfl
    | ok x => exact rows_insertAll h

lemma mutations_pairwise (ns : String) :
    (c.mutations ns).Pairwise fun a b => a.sequence < b.sequence :=
  pairwise_map.2 (c.sorted.filter _)

lemma rows_after (ns : String) (after : ℕ) :
    (c.rows.filter fun r => r.namespace = ns ∧ after < r.sequence) =
      PagedLog.after Row.sequence (c.rows.filter fun r => r.namespace = ns) after := by
  simp only [PagedLog.after, filter_filter, Bool.decide_and, Bool.and_comm]

variable {c}

lemma pull_ok {after limit : ℕ} {ms : List (PendingMutation B)}
    (h : c.pull ns after limit = .ok ms) :
    ms = PagedLog.page PendingMutation.sequence (c.mutations ns) after limit := by
  unfold pull at h
  split_ifs at h
  rw [decodeAll_ok h, rows_after, PagedLog.page, PagedLog.after, PagedLog.after, mutations,
    filter_map, map_take]
  rfl

end SQLiteCoordinator

end VaultSync
