import VaultSync.Coordinator.Memory

/-! Mutations that are pushed again, on an in-memory coordinator that is compacted. -/

namespace VaultSync

open List

inductive CoordinatorEvent (B : Type) where
  | push («namespace» : String) (mutations : List (EncryptedMutation B))
  | storeSnapshot («namespace» : String) (snapshot : Snapshot B)
  | compactOplog («namespace» : String)

namespace PushRetries

open InMemoryCoordinator

variable {B : Type}

structure Answer where
  «namespace» : String
  id : String
  sequence : ℕ
  deriving DecidableEq

/-- The coordinator, what its pushes have answered, and the mutations it has put into the log and
broadcast: a subscriber or a puller sees no others. -/
structure Ledger (B : Type) where
  coordinator : InMemoryCoordinator B
  answers : List Answer
  appended : List (PendingMutation B)

namespace Ledger

def new : Ledger B := ⟨.new, [], []⟩

def push (l : Ledger B) (ns : String) (ms : List (EncryptedMutation B)) : Ledger B where
  coordinator := (l.coordinator.push ns ms).2
  answers := l.answers ++ (ms.zip (l.coordinator.push ns ms).1).map fun a => ⟨ns, a.1.id, a.2⟩
  appended := l.appended ++ (l.coordinator.push ns ms).2.ops.drop l.coordinator.ops.length

section

variable (l : Ledger B)

def step : CoordinatorEvent B → Ledger B
  | .push ns ms => l.push ns ms
  | .storeSnapshot ns s => { l with coordinator := l.coordinator.storeSnapshot ns s }
  | .compactOplog ns => { l with coordinator := l.coordinator.compactOplog ns }

def run (events : List (CoordinatorEvent B)) : Ledger B := events.foldl step l

def Distinct : Prop := (l.appended.map fun p => (p.namespace, p.id)).Nodup

def Idempotent : Prop :=
  (∀ a ∈ l.answers, ∀ b ∈ l.answers, a.namespace = b.namespace → a.id = b.id →
    a.sequence = b.sequence) ∧ l.Distinct

instance (l : Ledger B) : Decidable l.Idempotent :=
  @instDecidableAnd _ _ inferInstance
    (inferInstanceAs (Decidable (l.appended.map fun p => (p.namespace, p.id)).Nodup))

def Has (ms : List (PendingMutation B)) (ns id : String) : Prop :=
  ∃ p ∈ ms, p.namespace = ns ∧ p.id = id

instance (ms : List (PendingMutation B)) (ns id : String) : Decidable (Has ms ns id) :=
  inferInstanceAs (Decidable (∃ p ∈ ms, _))

def Retained : CoordinatorEvent B → Prop
  | .push ns ms => ∀ m ∈ ms, Has l.appended ns m.id → Has l.coordinator.ops ns m.id
  | _ => True

def AllRetained : Ledger B → List (CoordinatorEvent B) → Prop
  | _, [] => True
  | l, e :: events => l.Retained e ∧ AllRetained (l.step e) events

/-! ## What always holds -/

structure Inv : Prop where
  ids : ∀ ns, ((l.coordinator.mutations ns).map PendingMutation.id).Nodup
  subset : ∀ p ∈ l.coordinator.ops, p ∈ l.appended
  answered : ∀ a ∈ l.answers, ∃ p ∈ l.appended, p.namespace = a.namespace ∧ p.id = a.id ∧
    p.sequence = a.sequence

end

variable {l : Ledger B} {ns : String} {ms : List (EncryptedMutation B)}

lemma inv_new : Inv (new : Ledger B) where
  ids _ := nodup_nil
  subset _ hp := nomatch hp
  answered _ ha := nomatch ha

abbrev added (l : Ledger B) (ns : String) (ms : List (EncryptedMutation B)) :=
  (l.push ns ms).coordinator.ops.drop l.coordinator.ops.length

lemma ops_push_eq : (l.push ns ms).coordinator.ops = l.coordinator.ops ++ l.added ns ms := by
  obtain ⟨t, ht⟩ := l.coordinator.ops_push ns ms
  change (l.coordinator.push ns ms).2.ops =
    l.coordinator.ops ++ (l.coordinator.push ns ms).2.ops.drop l.coordinator.ops.length
  rw [← ht, drop_left]

variable {p : PendingMutation B}

lemma mem_push_appended (h : Inv l)
    (hp : p ∈ (l.push ns ms).coordinator.ops) : p ∈ (l.push ns ms).appended := by
  rw [ops_push_eq, mem_append] at hp
  exact mem_append.2 (hp.imp_left (h.subset p))

lemma Inv.push (h : Inv l) : Inv (l.push ns ms) where
  ids ns' := by
    by_cases hns : ns = ns'
    · subst hns
      exact l.coordinator.ids_push ns ms (h.ids ns)
    · change (((l.coordinator.push ns ms).2.mutations ns').map PendingMutation.id).Nodup
      rw [l.coordinator.mutations_push_of_ne hns]
      exact h.ids ns'
  subset p hp := mem_push_appended h hp
  answered a ha := by
    rcases mem_append.1 ha with ha | ha
    · obtain ⟨p, hp, heq⟩ := h.answered a ha
      exact ⟨p, mem_append_left _ hp, heq⟩
    · obtain ⟨⟨m, q⟩, hmem, rfl⟩ := mem_map.1 ha
      obtain ⟨p, hp, hid, hseq⟩ := mem_zip_push hmem
      obtain ⟨hops, hns⟩ := mem_mutations.1 hp
      exact ⟨p, mem_push_appended h hops, hns, hid, hseq⟩

lemma Inv.step (h : Inv l) (e : CoordinatorEvent B) : Inv (l.step e) := by
  cases e with
  | push ns ms => exact h.push
  | storeSnapshot ns s => exact ⟨h.ids, h.subset, h.answered⟩
  | compactOplog ns =>
    refine ⟨fun ns' => ?_, fun p hp => h.subset p (mem_of_mem_filter hp), h.answered⟩
    exact (h.ids ns').sublist ((filter_sublist.filter _).map _)

lemma idempotent_iff_distinct (h : Inv l) : l.Idempotent ↔ l.Distinct := by
  refine ⟨And.right, fun hd => ⟨fun a ha b hb hns hid => ?_, hd⟩⟩
  obtain ⟨p, hp, hpns, hpid, hpseq⟩ := h.answered a ha
  obtain ⟨q, hq, hqns, hqid, hqseq⟩ := h.answered b hb
  have hsame : (p.namespace, p.id) = (q.namespace, q.id) := by
    rw [hpns, hqns, hpid, hqid, hns, hid]
  have hpq : p = q := inj_on_of_nodup_map hd hp hq hsame
  rw [← hpseq, hpq, hqseq]

/-! ## Pushes -/

lemma lt_of_mem_drop {q : PendingMutation B} (hq : q ∈ l.coordinator.ops)
    (hp : p ∈ l.added ns ms) :
    q.sequence < p.sequence := by
  have hsorted := (l.push ns ms).coordinator.sorted
  rw [ops_push_eq, pairwise_append] at hsorted
  exact hsorted.2.2 q hq p hp

lemma of_mem_drop (h : Inv l)
    (hp : p ∈ l.added ns ms) :
    p.namespace = ns ∧ (∃ m ∈ ms, m.id = p.id) ∧ ¬ Has l.coordinator.ops ns p.id := by
  have hmem : p ∈ (l.coordinator.push ns ms).2.ops := mem_of_mem_drop hp
  have hnew : ∃ m ∈ ms, ∃ seq, p = pending ns seq m :=
    (mem_ops_push hmem).resolve_left fun hold => lt_irrefl _ (lt_of_mem_drop hold hp)
  obtain ⟨m, hm, seq, rfl⟩ := hnew
  refine ⟨rfl, ⟨m, hm, rfl⟩, fun ⟨q, hq, hns, hid⟩ => ?_⟩
  have hq' : q ∈ (l.coordinator.push ns ms).2.ops := (l.coordinator.ops_push ns ms).subset hq
  have hpush : Inv (l.push ns ms) := h.push
  have hqp := inj_on_of_nodup_map (hpush.ids ns) (mem_mutations.2 ⟨hq', hns⟩)
    (mem_mutations.2 ⟨hmem, rfl⟩) hid
  exact (lt_of_mem_drop hq hp).ne (congrArg PendingMutation.sequence hqp)

lemma has_drop {m : EncryptedMutation B} (hm : m ∈ ms) (hnot : ¬ Has l.coordinator.ops ns m.id) :
    Has (l.added ns ms) ns m.id := by
  have hfst : (ms.zip (l.coordinator.push ns ms).1).map Prod.fst = ms :=
    map_fst_zip (length_push l.coordinator ns ms).ge
  rw [← hfst] at hm
  obtain ⟨⟨_, q⟩, hq, rfl⟩ := mem_map.1 hm
  obtain ⟨p, hp, hid, -⟩ := mem_zip_push hq
  obtain ⟨hops, hns⟩ := mem_mutations.1 hp
  have hsplit : p ∈ l.coordinator.ops ++
      l.added ns ms := by
    rw [← ops_push_eq]
    exact hops
  rcases mem_append.1 hsplit with hold | hnew
  · exact absurd ⟨p, hold, hns, hid⟩ hnot
  · exact ⟨p, hnew, hns, hid⟩

lemma distinct_drop (h : Inv l) (ns : String) (ms : List (EncryptedMutation B)) :
    (((l.push ns ms).coordinator.ops.drop
    l.coordinator.ops.length).map fun p => (p.namespace, p.id)).Nodup := by
  refine List.Nodup.map_on (fun p hp q hq heq => ?_) ?_
  · have hns := (of_mem_drop h hp).1
    rw [Prod.mk.injEq] at heq
    have hmem : ∀ {a}, a ∈ l.added ns ms →
        a.namespace = ns → a ∈ (l.push ns ms).coordinator.mutations ns := fun ha hans =>
      mem_mutations.2 ⟨mem_of_mem_drop ha, hans⟩
    exact inj_on_of_nodup_map (h.push.ids ns) (hmem hp hns) (hmem hq (heq.1 ▸ hns)) heq.2
  · have hseq := (l.push ns ms).coordinator.sorted.sublist
      (drop_sublist l.coordinator.ops.length _)
    exact hseq.imp fun hlt heq => hlt.ne (congrArg PendingMutation.sequence heq)

lemma distinct_push_iff (h : Inv l) :
    (l.push ns ms).Distinct ↔ l.Distinct ∧ l.Retained (.push ns ms) := by
  have happ : (l.push ns ms).Distinct ↔ l.Distinct ∧ ∀ p ∈ l.appended,
      ∀ q ∈ l.added ns ms,
        (p.namespace, p.id) ≠ (q.namespace, q.id) := by
    have hnew := distinct_drop h ns ms
    unfold Distinct
    change (List.map _ (l.appended ++ _)).Nodup ↔ _
    rw [map_append, nodup_append]
    constructor
    · rintro ⟨hold, -, hcross⟩
      exact ⟨hold, fun p hp q hq => hcross _ (mem_map_of_mem hp) _ (mem_map_of_mem hq)⟩
    · rintro ⟨hold, hcross⟩
      refine ⟨hold, hnew, fun a ha b hb => ?_⟩
      obtain ⟨p, hp, rfl⟩ := mem_map.1 ha
      obtain ⟨q, hq, rfl⟩ := mem_map.1 hb
      exact hcross p hp q hq
  rw [happ]
  refine and_congr_right fun _ => ⟨fun hcross m hm ⟨p, hp, hns, hid⟩ => ?_,
    fun hret p hp q hq heq => ?_⟩
  · by_contra hnot
    obtain ⟨q, hq, hqns, hqid⟩ := has_drop hm hnot
    exact hcross p hp q hq (by rw [hns, hid, hqns, hqid])
  · obtain ⟨hqns, ⟨m, hm, hmid⟩, hnot⟩ := of_mem_drop h hq
    rw [Prod.mk.injEq] at heq
    refine hnot (hmid ▸ hret m hm ⟨p, hp, heq.1.trans hqns, heq.2.trans hmid.symm⟩)

/-! ## Runs -/

lemma distinct_step_iff (h : Inv l) (e : CoordinatorEvent B) :
    (l.step e).Distinct ↔ l.Distinct ∧ l.Retained e := by
  cases e with
  | push ns ms => exact distinct_push_iff h
  | storeSnapshot ns s | compactOplog ns => exact (and_iff_left trivial).symm

lemma distinct_run_iff (h : Inv l) (events : List (CoordinatorEvent B)) :
    Inv (l.run events) ∧ ((l.run events).Distinct ↔ l.Distinct ∧ l.AllRetained events) := by
  induction events generalizing l with
  | nil => exact ⟨h, (and_iff_left trivial).symm⟩
  | cons e events ih =>
    obtain ⟨hinv, hiff⟩ := ih (h.step e)
    refine ⟨hinv, hiff.trans ?_⟩
    rw [distinct_step_iff h, and_assoc]
    rfl

/-- A run answers every mutation that is pushed again with its first sequence, and appends it
once, exactly if no mutation is pushed again after compaction has dropped it. -/
theorem idempotent_run_iff_allRetained (events : List (CoordinatorEvent B)) :
    ((new : Ledger B).run events).Idempotent ↔ (new : Ledger B).AllRetained events := by
  obtain ⟨hinv, hiff⟩ := distinct_run_iff inv_new events
  have hnew : (new : Ledger B).Distinct := nodup_nil
  rw [idempotent_iff_distinct hinv, hiff, and_iff_right hnew]

def retry : List (CoordinatorEvent Unit) :=
  let m : EncryptedMutation Unit :=
    { id := "m"
      «namespace» := "n"
      replicaId := "r"
      docId := "d"
      recordId := "k"
      encryptedBlob := ()
      timestamp := 0
      schemaVersion := 1
      keyVersion := 1 }
  let s : Snapshot Unit :=
    { docId := "d"
      recordId := "k"
      schemaVersion := 1
      sequence := 1
      createdAt := 0
      bytes := () }
  [.push "n" [m], .storeSnapshot "n" s, .compactOplog "n", .push "n" [m]]

theorem retry_numbered_again :
    ((new : Ledger Unit).run retry).answers = [⟨"n", "m", 1⟩, ⟨"n", "m", 2⟩] ∧
      ((new : Ledger Unit).run retry).appended.map PendingMutation.id = ["m", "m"] ∧
      ¬ ((new : Ledger Unit).run retry).Idempotent := by
  decide

end Ledger

end PushRetries

end VaultSync
