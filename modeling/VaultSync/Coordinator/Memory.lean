import Mathlib.Algebra.Group.Nat.Defs
import Mathlib.Data.List.Nodup
import VaultSync.Coordinator.Types
import VaultSync.Log.Paging

/-! The in-memory coordinator. `ops` lists the map in sequence order: the source orders its
keys by namespace first, and each of its readers filters by namespace. -/

namespace VaultSync

open List

structure InMemoryCoordinator (B : Type) where
  nextSeq : ℕ
  highestSeq : ℕ
  ops : List (PendingMutation B)
  snapshots : List (String × Snapshot B)
  sorted : ops.Pairwise fun a b => a.sequence < b.sequence
  seq_pos : ∀ m ∈ ops, 0 < m.sequence
  seq_lt : ∀ m ∈ ops, m.sequence < nextSeq
  nextSeq_pos : 0 < nextSeq
  one_snapshot : snapshots.Pairwise fun a b => ¬ (a.1 = b.1 ∧ a.2.key = b.2.key)

variable {B : Type}

namespace InMemoryCoordinator

def new : InMemoryCoordinator B where
  nextSeq := 1
  highestSeq := 0
  ops := []
  snapshots := []
  sorted := .nil
  seq_pos := by simp
  seq_lt := by simp
  nextSeq_pos := Nat.one_pos
  one_snapshot := .nil

variable (c : InMemoryCoordinator B) (ns : String)

def pending (seq : ℕ) (m : EncryptedMutation B) : PendingMutation B where
  id := m.id
  «namespace» := ns
  sequence := seq
  docId := m.docId
  recordId := m.recordId
  encryptedBlob := m.encryptedBlob
  timestamp := m.timestamp
  keyVersion := m.keyVersion
  replicaId := m.replicaId

variable (m : EncryptedMutation B)

def insert : InMemoryCoordinator B where
  nextSeq := c.nextSeq + 1
  highestSeq := c.nextSeq
  ops := c.ops ++ [pending ns c.nextSeq m]
  snapshots := c.snapshots
  sorted := by
    rw [pairwise_append]
    refine ⟨c.sorted, pairwise_singleton _ _, ?_⟩
    simpa [pending] using c.seq_lt
  seq_pos := by
    simpa [or_imp, forall_and, pending] using ⟨c.seq_pos, c.nextSeq_pos⟩
  seq_lt := by
    simpa [or_imp, forall_and, pending] using fun m hm => Nat.lt_succ_of_lt (c.seq_lt m hm)
  nextSeq_pos := Nat.succ_pos _
  one_snapshot := c.one_snapshot

def existing (ns id : String) : Option (PendingMutation B) :=
  c.ops.find? fun p => p.namespace = ns ∧ p.id = id

def push (c : InMemoryCoordinator B) (ns : String) :
    List (EncryptedMutation B) → List ℕ × InMemoryCoordinator B
  | [] => ([], c)
  | m :: ms =>
    match c.existing ns m.id with
    | some p =>
      let (seqs, c') := c.push ns ms
      (p.sequence :: seqs, c')
    | none =>
      let (seqs, c') := (c.insert ns m).push ns ms
      (c.nextSeq :: seqs, c')

/-- `after + 1` is a `u64` addition, which wraps. -/
def pull (after limit : ℕ) : List (PendingMutation B) :=
  (c.ops.filter fun p => p.namespace = ns ∧ (after + 1) % 2 ^ 64 ≤ p.sequence).take limit

def storeSnapshot (s : Snapshot B) : InMemoryCoordinator B :=
  { c with
    snapshots := c.snapshots.filter (fun e => ¬ (e.1 = ns ∧ e.2.key = s.key)) ++ [(ns, s)]
    one_snapshot := by
      rw [pairwise_append]
      refine ⟨c.one_snapshot.filter _, pairwise_singleton _ _, fun a ha b hb => ?_⟩
      rw [mem_singleton.1 hb]
      exact decide_eq_true_iff.1 (mem_filter.1 ha).2 }

def listSnapshots : List (Snapshot B) :=
  (c.snapshots.filter fun e => e.1 = ns).map Prod.snd

def covered (p : PendingMutation B) (s : Snapshot B) : Prop :=
  p.namespace = ns ∧ p.key = s.key ∧ p.sequence ≤ s.sequence

instance (p : PendingMutation B) (s : Snapshot B) : Decidable (covered ns p s) :=
  inferInstanceAs (Decidable (_ ∧ _ ∧ _))

def compactOplog : InMemoryCoordinator B :=
  { c with
    ops := c.ops.filter fun p => ¬ ∃ s ∈ c.listSnapshots ns, covered ns p s
    sorted := c.sorted.filter _
    seq_pos := fun m hm => c.seq_pos m (mem_of_mem_filter hm)
    seq_lt := fun m hm => c.seq_lt m (mem_of_mem_filter hm) }

def maxSequence : ℕ := c.highestSeq

def mutations : List (PendingMutation B) :=
  c.ops.filter fun p => p.namespace = ns

variable {c ns}

@[simp] lemma insert_ops :
    (c.insert ns m).ops = c.ops ++ [pending ns c.nextSeq m] := rfl

@[simp] lemma insert_nextSeq :
    (c.insert ns m).nextSeq = c.nextSeq + 1 := rfl

variable {id ns' : String} {p m : PendingMutation B} {c' : InMemoryCoordinator B}
  {ms : List (EncryptedMutation B)} {seq after limit : ℕ}

lemma existing_some (h : c.existing ns id = some p) : p ∈ c.ops ∧ p.namespace = ns ∧ p.id = id := by
  have hp := List.find?_some h
  exact ⟨mem_of_find?_eq_some h, by simpa using hp⟩

lemma existing_none (h : c.existing ns id = none) : ∀ p ∈ c.ops, p.namespace = ns → p.id ≠ id := by
  have hp := List.find?_eq_none.1 h
  simpa using hp

lemma mem_mutations : p ∈ c.mutations ns ↔ p ∈ c.ops ∧ p.namespace = ns := by
  simp [mutations]

structure Extends (c c' : InMemoryCoordinator B) : Prop where
  ops : c.ops <+: c'.ops
  mem_of_lt : ∀ m ∈ c'.ops, m.sequence < c.nextSeq → m ∈ c.ops
  nextSeq : c.nextSeq ≤ c'.nextSeq
  snapshots : c'.snapshots = c.snapshots

lemma Extends.refl (c : InMemoryCoordinator B) : c.Extends c :=
  ⟨prefix_rfl, fun _ h _ => h, le_rfl, rfl⟩

lemma Extends.trans {c'' : InMemoryCoordinator B} (h : c.Extends c') (h' : c'.Extends c'') :
    c.Extends c'' where
  ops := h.ops.trans h'.ops
  mem_of_lt m hm hlt := h.mem_of_lt m (h'.mem_of_lt m hm (hlt.trans_le h.nextSeq)) hlt
  nextSeq := h.nextSeq.trans h'.nextSeq
  snapshots := h'.snapshots.trans h.snapshots

lemma Extends.mutations (h : c.Extends c') (hm : m ∈ c.mutations ns) : m ∈ c'.mutations ns :=
  (h.ops.filter _).subset hm

lemma Extends.listSnapshots (h : c.Extends c') : c'.listSnapshots ns = c.listSnapshots ns := by
  unfold InMemoryCoordinator.listSnapshots
  rw [h.snapshots]

lemma push_induction {P : InMemoryCoordinator B → Prop} (hc : P c)
    (hinsert : ∀ c m, c.existing ns m.id = none → P c → P (c.insert ns m))
    (ms : List (EncryptedMutation B)) : P (c.push ns ms).2 := by
  induction ms generalizing c with
  | nil => exact hc
  | cons m ms ih =>
    unfold push
    cases hex : c.existing ns m.id with
    | some p => exact ih hc
    | none => exact ih (hinsert c m hex hc)

variable (c ns ms)

lemma extends_push : c.Extends (c.push ns ms).2 := by
  refine push_induction (.refl c) (fun c' m _ h => h.trans ?_) ms
  refine ⟨prefix_append _ _, fun p hp hlt => ?_, Nat.le_succ _, rfl⟩
  rw [insert_ops, mem_append, mem_singleton] at hp
  rcases hp with hp | rfl
  · exact hp
  · exact absurd hlt (lt_irrefl _)

lemma ops_push : c.ops <+: (c.push ns ms).2.ops := (c.extends_push ns ms).ops

lemma length_push : (c.push ns ms).1.length = ms.length := by
  induction ms generalizing c with
  | nil => rfl
  | cons m ms ih =>
    unfold push
    cases c.existing ns m.id with
    | some p => exact congrArg (· + 1) (ih c)
    | none => exact congrArg (· + 1) (ih (c.insert ns m))

lemma ids_push (h : ((c.mutations ns).map PendingMutation.id).Nodup) :
    (((c.push ns ms).2.mutations ns).map PendingMutation.id).Nodup := by
  refine push_induction (P := fun c => ((c.mutations ns).map PendingMutation.id).Nodup) h
    (fun c m hex h => ?_) ms
  have hnew : (c.insert ns m).mutations ns = c.mutations ns ++ [pending ns c.nextSeq m] := by
    simp [mutations, pending]
  rw [hnew, map_append]
  refine h.append (nodup_singleton _) ?_
  rintro _ hid hm
  rw [map_singleton, mem_singleton] at hm
  subst hm
  obtain ⟨p, hp, hpid⟩ := mem_map.1 hid
  exact existing_none hex p (mem_mutations.1 hp).1 (mem_mutations.1 hp).2 hpid

lemma listSnapshots_keys_nodup : ((c.listSnapshots ns).map Snapshot.key).Nodup := by
  rw [listSnapshots, map_map, List.Nodup, pairwise_map]
  have hpair := c.one_snapshot.filter fun e => decide (e.1 = ns)
  refine hpair.imp_of_mem fun {a b} ha hb hne hkey => ?_
  have hans := decide_eq_true_iff.1 (mem_filter.1 ha).2
  have hbns := decide_eq_true_iff.1 (mem_filter.1 hb).2
  exact hne ⟨hans.trans hbns.symm, hkey⟩

lemma mutations_pairwise :
    (c.mutations ns).Pairwise fun a b => a.sequence < b.sequence := c.sorted.filter _

variable {c ns ms}

lemma mem_ops_push_zip (h : p ∈ (c.push ns ms).2.ops) :
    p ∈ c.ops ∨ ∃ a ∈ ms.zip (c.push ns ms).1, p = pending ns a.2 a.1 := by
  induction ms generalizing c with
  | nil => exact .inl h
  | cons m ms ih =>
    unfold push at h ⊢
    cases hex : c.existing ns m.id with
    | some q =>
      rw [hex] at h
      refine (ih h).imp_right fun ⟨a, ha, hp⟩ => ?_
      exact ⟨a, mem_cons_of_mem _ ha, hp⟩
    | none =>
      rw [hex] at h
      obtain hp | ⟨a, ha, hp⟩ := ih h
      · rw [insert_ops, mem_append, mem_singleton] at hp
        exact hp.imp_right fun hp => ⟨_, mem_cons_self, hp⟩
      · exact .inr ⟨a, mem_cons_of_mem _ ha, hp⟩

lemma mem_ops_push
    (h : p ∈ (c.push ns ms).2.ops) : p ∈ c.ops ∨ ∃ m ∈ ms, ∃ seq, p = pending ns seq m :=
  (mem_ops_push_zip h).imp_right fun ⟨a, ha, hp⟩ => ⟨a.1, (of_mem_zip ha).1, a.2, hp⟩

lemma mem_zip_push {m : EncryptedMutation B} (h : (m, seq) ∈ ms.zip (c.push ns ms).1) :
    ∃ p ∈ (c.push ns ms).2.mutations ns, p.id = m.id ∧ p.sequence = seq := by
  induction ms generalizing c with
  | nil => simp at h
  | cons m' ms ih =>
    unfold push at h ⊢
    cases hex : c.existing ns m'.id with
    | some q =>
      rw [hex] at h
      rcases mem_cons.1 h with heq | h
      · cases heq
        obtain ⟨hq, hns, hid⟩ := existing_some hex
        exact ⟨q, mem_mutations.2 ⟨(c.ops_push ns ms).subset hq, hns⟩, hid, rfl⟩
      · exact ih h
    | none =>
      rw [hex] at h
      rcases mem_cons.1 h with heq | h
      · cases heq
        refine ⟨pending ns c.nextSeq m, mem_mutations.2 ⟨?_, rfl⟩, rfl, rfl⟩
        exact ((c.insert ns m).ops_push ns ms).subset (by simp)
      · exact ih h

lemma lt_nextSeq_push (h : seq ∈ (c.push ns ms).1) : seq < (c.push ns ms).2.nextSeq := by
  rw [← map_snd_zip (length_push c ns ms).le] at h
  obtain ⟨⟨m, seq⟩, hzip, rfl⟩ := mem_map.1 h
  obtain ⟨p, hp, -, rfl⟩ := mem_zip_push hzip
  exact seq_lt _ p (mem_mutations.1 hp).1

lemma mutations_push_of_ne (c : InMemoryCoordinator B) (h : ns' ≠ ns)
    (ms : List (EncryptedMutation B)) : (c.push ns' ms).2.mutations ns = c.mutations ns := by
  refine push_induction (P := fun c' => c'.mutations ns = c.mutations ns) rfl
    (fun c' m _ hc => Eq.trans ?_ hc) ms
  simp [mutations, pending, h]

lemma mem_listSnapshots_storeSnapshot {s t : Snapshot B} :
    t ∈ (c.storeSnapshot ns s).listSnapshots ns ↔
      t = s ∨ (t ∈ c.listSnapshots ns ∧ t.key ≠ s.key) := by
  simp only [listSnapshots, storeSnapshot, mem_map, mem_filter, mem_append,
    mem_singleton, decide_eq_true_eq]
  constructor
  · rintro ⟨⟨ns', t'⟩, ⟨⟨hmem, hne⟩ | heq, rfl⟩, rfl⟩
    · exact .inr ⟨⟨_, ⟨hmem, rfl⟩, rfl⟩, fun hkey => hne ⟨rfl, hkey⟩⟩
    · exact .inl (congrArg Prod.snd heq)
  · rintro (rfl | ⟨⟨⟨ns', t'⟩, ⟨hmem, rfl⟩, rfl⟩, hne⟩)
    · exact ⟨_, ⟨.inr rfl, rfl⟩, rfl⟩
    · exact ⟨_, ⟨.inl ⟨hmem, fun h => hne h.2⟩, rfl⟩, rfl⟩

lemma listSnapshots_storeSnapshot_of_ne (h : ns' ≠ ns) (s : Snapshot B) :
    (c.storeSnapshot ns s).listSnapshots ns' = c.listSnapshots ns' := by
  simp only [listSnapshots, storeSnapshot, filter_append, filter_filter]
  rw [filter_cons_of_neg (by simpa using h.symm), filter_nil, append_nil]
  refine congrArg _ (filter_congr fun e _ => ?_)
  by_cases he : e.1 = ns'
  · simp [he, h]
  · simp [he]

lemma mem_mutations_compactOplog :
    m ∈ (c.compactOplog ns).mutations ns ↔
      m ∈ c.mutations ns ∧ ¬ ∃ s ∈ c.listSnapshots ns, covered ns m s := by
  simp only [mutations, compactOplog, mem_filter, decide_eq_true_eq]
  tauto

lemma mem_pull_of_le {last : PendingMutation B}
    (hm : m ∈ c.mutations ns) (hafter : after < m.sequence) (hlast : last ∈ c.pull ns after limit)
    (hle : m.sequence ≤ last.sequence) : m ∈ c.pull ns after limit := by
  obtain ⟨hops, hns⟩ := mem_mutations.1 hm
  set l := c.ops.filter fun p => p.namespace = ns ∧ (after + 1) % 2 ^ 64 ≤ p.sequence with hl
  have hpull : c.pull ns after limit = l.take limit := rfl
  have hml : m ∈ l := by
    have hlo : (after + 1) % 2 ^ 64 ≤ m.sequence := (Nat.mod_le _ _).trans hafter
    exact mem_filter.2 ⟨hops, decide_eq_true ⟨hns, hlo⟩⟩
  rw [hpull] at hlast ⊢
  have hsorted : l.Pairwise fun a b => a.sequence < b.sequence := c.sorted.filter _
  rw [← take_append_drop limit l, pairwise_append] at hsorted
  rw [← take_append_drop limit l, mem_append] at hml
  rcases hml with hml | hml
  · exact hml
  · exact absurd (hsorted.2.2 last hlast m hml) (not_lt.2 hle)

lemma mem_of_mem_pull (hm : m ∈ c.pull ns after limit) : m ∈ c.mutations ns := by
  have h := mem_filter.1 (mem_of_mem_take hm)
  simp only [decide_eq_true_eq] at h
  exact mem_mutations.2 ⟨h.1, h.2.1⟩

lemma eq_of_sequence_eq {m' : PendingMutation B} (hm : m ∈ c.ops) (hm' : m' ∈ c.ops)
    (h : m.sequence = m'.sequence) : m = m' := by
  have hinj : (c.ops.map PendingMutation.sequence).Nodup := by
    rw [List.Nodup, pairwise_map]
    exact c.sorted.imp fun hlt => hlt.ne
  exact inj_on_of_nodup_map hinj hm hm' h

lemma pull_eq_page (limit : ℕ) (h : after + 1 < 2 ^ 64) :
    c.pull ns after limit = PagedLog.page PendingMutation.sequence (c.mutations ns) after limit := by
  rw [pull, Nat.mod_eq_of_lt h]
  simp only [PagedLog.page, PagedLog.after, mutations, filter_filter, Nat.succ_le_iff,
    Bool.decide_and, Bool.and_comm]

end InMemoryCoordinator

end VaultSync
