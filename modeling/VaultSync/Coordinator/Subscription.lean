import VaultSync.Coordinator.Paging
import VaultSync.Log.Delivery

/-! The stream of `subscribe`. A push stores under the lock and broadcasts after it has released
it, so the broadcasts of two pushes can come in either order. -/

namespace VaultSync

open Feed List PendingMutation InMemoryCoordinator State

variable {B : Type}

namespace InMemoryCoordinator

def toBroadcast (c : InMemoryCoordinator B) (ns : String) :
    List (EncryptedMutation B) → List (PendingMutation B)
  | [] => []
  | m :: ms =>
    match c.existing ns m.id with
    | some _ => c.toBroadcast ns ms
    | none => pending ns c.nextSeq m :: (c.insert ns m).toBroadcast ns ms

def existingAfter (c : InMemoryCoordinator B) (ns : String) (fromSequence : ℕ) :
    List (PendingMutation B) :=
  c.ops.filter fun p => p.namespace = ns ∧ (fromSequence + 1) % 2 ^ 64 ≤ p.sequence

variable (ns : String) (c : InMemoryCoordinator B)

def feed : Source (InMemoryCoordinator B) (PushRequest B) (PendingMutation B) where
  push c r := (c.toBroadcast r.1 r.2, (c.push r.1 r.2).2)
  read c n := c.existingAfter ns n
  mine m := m.namespace = ns
  seq := sequence
  capacity := 4096
  rereads := false

def numbers : Set ℕ :=
  { q | ∃ m ∈ c.mutations ns, m.sequence = q }

lemma ops_push_eq (ms : List (EncryptedMutation B)) :
    (c.push ns ms).2.ops = c.ops ++ c.toBroadcast ns ms := by
  induction ms generalizing c with
  | nil => exact (append_nil _).symm
  | cons m ms ih =>
    unfold push toBroadcast
    cases c.existing ns m.id with
    | some p => exact ih c
    | none => exact (ih (c.insert ns m)).trans (by simp)

lemma ops_feed_push (r : PushRequest B) :
    ((feed ns).push c r).2.ops = c.ops ++ ((feed ns).push c r).1 :=
  c.ops_push_eq r.1 r.2

lemma feed_laws :
    Laws (feed ns) (numbers (B := B) ns) (fun _ _ => True) (fun _ n => n + 1 < 2 ^ 64) where
  read {c n} hn q := by
    simp only [feed, existingAfter, Nat.mod_eq_of_lt hn, numbers, mem_mutations, mem_map,
      mem_filter, decide_eq_true_eq, Set.mem_ofPred_eq, Nat.succ_le_iff]
    constructor
    · rintro ⟨m, ⟨hm, hns, hlt⟩, rfl⟩
      exact ⟨⟨m, ⟨hm, hns⟩, rfl⟩, hlt⟩
    · rintro ⟨⟨m, ⟨hm, hns⟩, rfl⟩, hlt⟩
      exact ⟨m, ⟨hm, hns, hlt⟩, rfl⟩
  kept {c r} := by
    rintro _ ⟨m, hm, rfl⟩
    exact ⟨m, (c.extends_push r.1 r.2).mutations hm, rfl⟩
  new {c r q} := by
    rintro ⟨m, hm, rfl⟩
    obtain ⟨hops, hns⟩ := mem_mutations.1 hm
    have hsorted := ((feed ns).push c r).2.sorted
    rw [ops_feed_push, pairwise_append] at hsorted
    rw [ops_feed_push, mem_append] at hops
    rcases hops with hops | hops
    · exact .inl ⟨m, mem_mutations.2 ⟨hops, hns⟩, rfl⟩
    · refine .inr ⟨?_, m, hops, decide_eq_true hns, rfl⟩
      rintro _ ⟨x, hx, rfl⟩
      exact hsorted.2.2 x (mem_mutations.1 hx).1 m hops
  stored {c r} _ m hm hmine := by
    refine ⟨m, mem_mutations.2 ⟨?_, of_decide_eq_true hmine⟩, rfl⟩
    rw [ops_feed_push]
    exact mem_append_right _ hm

lemma feed_read_pairwise (n : ℕ) : (((feed ns).read c n).map sequence).Pairwise (· < ·) :=
  pairwise_map.2 (c.sorted.filter _)

end InMemoryCoordinator

namespace SQLiteCoordinator

variable (ns : String) (c : SQLiteCoordinator B)

/-- `pending_to_broadcast`: all mutations of the push, those stored before it included, under
the namespace pushed to. -/
def pendingToBroadcast (ms : List (EncryptedMutation B)) (seqs : List ℕ) :
    List (PendingMutation B) :=
  (ms.zip seqs).map fun p => pending ns p.2 p.1

/-- The query of the subscription's task: a row that cannot be read is left out, and an
argument above `i64::MAX` cannot be bound. -/
def catchUp (c : SQLiteCoordinator B) (ns : String) (after : ℕ) : List (PendingMutation B) :=
  if 2 ^ 63 ≤ after then []
  else (c.rows.filter fun r => r.namespace = ns ∧ after < r.sequence).filterMap
    fun r => r.decode.toOption

def pushAndBroadcast (p : SQLitePush B) : List (PendingMutation B) × SQLiteCoordinator B :=
  match c.push p.auto p.fault p.request.1 p.request.2 with
  | (.ok seqs, c') => (pendingToBroadcast p.request.1 p.request.2 seqs, c')
  | (.error _, c') => ([], c')

def feed : Source (SQLiteCoordinator B) (SQLitePush B) (PendingMutation B) where
  push := pushAndBroadcast
  read c n := c.catchUp ns n
  mine m := m.namespace = ns
  seq := sequence
  capacity := 1024
  rereads := true

def numbers : Set ℕ :=
  { q | ∃ m ∈ c.mutations ns, m.sequence = q }

def NoForeignId (p : SQLitePush B) : Prop :=
  p.request.1 = ns → ∀ m ∈ p.request.2, ∀ r ∈ c.rows, r.id = m.id → r.namespace = ns

def ReadSucceeds (n : ℕ) : Prop :=
  n < 2 ^ 63 ∧ ∀ r ∈ c.rows, r.namespace = ns → n < r.sequence → 0 ≤ r.timestamp ∧ 0 ≤ r.keyVersion

instance (p : SQLitePush B) : Decidable (NoForeignId ns c p) := inferInstanceAs (Decidable (_ → _))

instance (n : ℕ) : Decidable (ReadSucceeds ns c n) :=
  inferInstanceAs (Decidable (_ ∧ _))

variable {ns c} {c' : SQLiteCoordinator B}

lemma mem_numbers {q : ℕ} : q ∈ numbers ns c ↔ ∃ r ∈ c.rows, r.namespace = ns ∧ r.sequence = q := by
  simp [numbers, mutations, Row.toPending, and_assoc]

variable {m : PendingMutation B} {auto : AutoIncrement}

lemma decode_toOption {r : Row B} :
    r.decode.toOption = some m ↔ (0 ≤ r.timestamp ∧ 0 ≤ r.keyVersion) ∧ r.toPending = m := by
  unfold Row.decode
  split_ifs with h1 h2 <;> simp [Except.toOption] <;> omega

/-- What a push leaves in the table: the old rows, and rows for some of its mutations; and each
number it answers is that of a row with the mutation's id. -/
structure Inserted (ns : String) (c c' : SQLiteCoordinator B) (ms : List (EncryptedMutation B))
    (seqs : List ℕ) (new : List (Row B)) : Prop where
  rows : c'.rows = c.rows ++ new
  new_mem : ∀ r ∈ new, r.namespace = ns ∧ ∃ m, (m, r.sequence) ∈ ms.zip seqs
  answered : ∀ p ∈ ms.zip seqs, ∃ r ∈ c'.rows, r.id = p.1.id ∧ r.sequence = p.2

lemma inserted_insertOrIgnore {m : EncryptedMutation B} {seq : ℕ}
    (h : c.insertOrIgnore auto ns m = .ok (seq, c')) : ∃ new, Inserted ns c c' [m] [seq] new := by
  unfold insertOrIgnore at h
  cases hf : c.rows.find? fun r => r.id = m.id with
  | some r =>
    rw [hf] at h
    cases h
    refine ⟨[], (append_nil _).symm, by simp, ?_⟩
    simpa using ⟨r, mem_of_find?_eq_some hf, by simpa using List.find?_some hf, rfl⟩
  | none =>
    rw [hf] at h
    simp only at h
    split_ifs at h with hmax
    cases h
    exact ⟨[row ns _ m], rfl, by simp [row], by simp [append, row]⟩

lemma inserted_insertAll {ms : List (EncryptedMutation B)} {seqs : List ℕ}
    (h : c.insertAll auto ns ms = .ok (seqs, c')) : ∃ new, Inserted ns c c' ms seqs new := by
  induction ms generalizing c c' seqs with
  | nil =>
    cases h
    exact ⟨[], (append_nil _).symm, by simp, by simp⟩
  | cons m ms ih =>
    unfold insertAll at h
    cases h1 : c.insertOrIgnore auto ns m with
    | error e => rw [h1] at h; cases h
    | ok x =>
      obtain ⟨seq, c1⟩ := x
      cases h2 : c1.insertAll auto ns ms with
      | error e => simp [h1, h2, bind, Except.bind] at h
      | ok y =>
        obtain ⟨seqs', c2⟩ := y
        simp only [h1, h2, bind, Except.bind, pure, Except.pure, Except.ok.injEq,
          Prod.mk.injEq] at h
        obtain ⟨rfl, rfl⟩ := h
        obtain ⟨new1, hrows1, hnew1, hans1⟩ := inserted_insertOrIgnore h1
        obtain ⟨new2, hrows2, hnew2, hans2⟩ := ih h2
        refine ⟨new1 ++ new2, by rw [hrows2, hrows1, append_assoc], fun r hr => ?_, fun p hp => ?_⟩
        · rcases mem_append.1 hr with hr | hr
          · obtain ⟨hns, m', hm'⟩ := hnew1 r hr
            rw [zip_cons_cons, zip_nil_left, mem_singleton] at hm'
            exact ⟨hns, m', by rw [hm']; exact mem_cons_self⟩
          · obtain ⟨hns, m', hm'⟩ := hnew2 r hr
            exact ⟨hns, m', mem_cons_of_mem _ hm'⟩
        · rcases mem_cons.1 hp with rfl | hp
          · obtain ⟨r, hr, hid⟩ := hans1 (m, seq) mem_cons_self
            exact ⟨r, by rw [hrows2]; exact mem_append_left _ hr, hid⟩
          · exact hans2 p hp

lemma push_cases (c : SQLiteCoordinator B) (auto : AutoIncrement) (fault : Option String)
    (ns : String) (ms : List (EncryptedMutation B)) :
    (∃ seqs c', c.push auto fault ns ms = (.ok seqs, c') ∧ c.insertAll auto ns ms = .ok (seqs, c')) ∨
    ∃ e, c.push auto fault ns ms = (.error e, c) := by
  unfold push
  cases fault with
  | some msg => exact .inr ⟨_, rfl⟩
  | none =>
    cases h : c.insertAll auto ns ms with
    | error e => exact .inr ⟨e, rfl⟩
    | ok x => exact .inl ⟨x.1, x.2, rfl, rfl⟩

lemma inserted_feed_push (ns : String) (c : SQLiteCoordinator B) (p : SQLitePush B) :
    ∃ ms seqs new, Inserted p.request.1 c ((feed ns).push c p).2 ms seqs new ∧
      ms ⊆ p.request.2 ∧ ((feed ns).push c p).1 = pendingToBroadcast p.request.1 ms seqs := by
  simp only [feed, pushAndBroadcast]
  rcases c.push_cases p.auto p.fault p.request.1 p.request.2 with ⟨seqs, c', heq, hins⟩ | ⟨e, heq⟩
  · rw [heq]
    obtain ⟨new, hnew⟩ := inserted_insertAll hins
    exact ⟨p.request.2, seqs, new, hnew, List.Subset.refl _, rfl⟩
  · rw [heq]
    exact ⟨[], [], [], ⟨(append_nil _).symm, by simp, by simp⟩, nil_subset _, rfl⟩

lemma feed_laws (ns : String) :
    Laws (feed ns) (numbers (B := B) ns) (NoForeignId ns) (ReadSucceeds ns) where
  read {c n} hn q := by
    obtain ⟨hn, hrows⟩ := hn
    simp only [feed, catchUp, if_neg hn.not_ge, mem_map, mem_filterMap, mem_filter,
      decide_eq_true_eq, decode_toOption, mem_numbers]
    constructor
    · rintro ⟨_, ⟨r, ⟨hr, hns, hlt⟩, -, rfl⟩, rfl⟩
      exact ⟨⟨r, hr, hns, rfl⟩, hlt⟩
    · rintro ⟨⟨r, hr, hns, rfl⟩, hlt⟩
      exact ⟨_, ⟨r, ⟨hr, hns, hlt⟩, hrows r hr hns hlt, rfl⟩, rfl⟩
  kept {c p} q hq := by
    obtain ⟨ms, seqs, new, hins, -⟩ := inserted_feed_push ns c p
    obtain ⟨r, hr, hns, rfl⟩ := mem_numbers.1 hq
    exact mem_numbers.2 ⟨r, by rw [hins.rows]; exact mem_append_left _ hr, hns, rfl⟩
  new {c p q} hq := by
    obtain ⟨ms, seqs, new, hins, -, heq⟩ := inserted_feed_push ns c p
    obtain ⟨r, hr, hns, rfl⟩ := mem_numbers.1 hq
    have hsorted := ((feed ns).push c p).2.sorted
    rw [hins.rows, pairwise_append] at hsorted
    rw [hins.rows, mem_append] at hr
    rcases hr with hr | hr
    · exact .inl (mem_numbers.2 ⟨r, hr, hns, rfl⟩)
    · refine .inr ⟨fun n hn => ?_, ?_⟩
      · obtain ⟨x, hx, -, rfl⟩ := mem_numbers.1 hn
        exact hsorted.2.2 x hx r hr
      · obtain ⟨hrns, m, hm⟩ := hins.new_mem r hr
        rw [heq]
        exact ⟨_, mem_map.2 ⟨(m, r.sequence), hm, rfl⟩, decide_eq_true (hrns.symm.trans hns), rfl⟩
  stored {c p} hok x hx hmine := by
    obtain ⟨ms, seqs, new, hins, hsub, heq⟩ := inserted_feed_push ns c p
    rw [heq] at hx
    obtain ⟨⟨m, seq⟩, hzip, rfl⟩ := mem_map.1 hx
    have hns : p.request.1 = ns := of_decide_eq_true hmine
    obtain ⟨r, hr, hid, hseq⟩ := hins.answered _ hzip
    refine mem_numbers.2 ⟨r, hr, ?_, hseq⟩
    rw [hins.rows, mem_append] at hr
    rcases hr with hr | hr
    · exact hok hns m (hsub (of_mem_zip hzip).1) r hr hid
    · exact (hins.new_mem r hr).1.trans hns

lemma mem_catchUp {n : ℕ} (h : m ∈ c.catchUp ns n) :
    ∃ r ∈ c.rows, n < r.sequence ∧ r.toPending = m := by
  unfold catchUp at h
  split_ifs at h
  · cases h
  · obtain ⟨r, hr, hdec⟩ := mem_filterMap.1 h
    obtain ⟨hr, hcond⟩ := mem_filter.1 hr
    exact ⟨r, hr, (of_decide_eq_true hcond).2, (decode_toOption.1 hdec).2⟩

lemma feed_read_pairwise (ns : String) (c : SQLiteCoordinator B) (n : ℕ) :
    (((feed ns).read c n).map sequence).Pairwise (· < ·) := by
  simp only [feed, catchUp]
  split_ifs
  · exact .nil
  · rw [pairwise_map, pairwise_filterMap]
    refine (c.sorted.filter _).imp fun hlt a ha b hb => ?_
    rw [← (decode_toOption.1 ha).2, ← (decode_toOption.1 hb).2]
    exact hlt

end SQLiteCoordinator

/-- **Subscription completeness.** In every interleaving of pushes, their broadcasts and the
subscription's task, the stream's sequences are strictly increasing. Once the broadcasts are
made and the task has drained its channel, they are the namespace's sequences above
`fromSequence`, provided that a push broadcasts a mutation of the namespace only when no push
has a smaller one of it left to broadcast. The in-memory channel must also have room for the
broadcast, and SQLite must not be pushed an id it stores in another namespace. -/
theorem subscription_complete (ns : String) (fromSequence : ℕ) :
    (∀ (c : InMemoryCoordinator B) (events : List (Event (PushRequest B))),
      let S := feed ns
      let s := (init c fromSequence).run S events
      (s.emitted.map sequence).Pairwise (· < ·) ∧
        ((init c fromSequence).Guarded S
            (State.Ok S (fun _ _ => True) fun _ n => n + 1 < 2 ^ 64) events → s.Drained →
          s.emitted.map sequence =
            ((s.store.mutations ns).map sequence).filter (fromSequence < ·))) ∧
    (∀ (c : SQLiteCoordinator B) (events : List (Event (SQLitePush B))),
      let S := SQLiteCoordinator.feed ns
      let s := (init c fromSequence).run S events
      (s.emitted.map sequence).Pairwise (· < ·) ∧
        ((init c fromSequence).Guarded S
            (State.Ok S (SQLiteCoordinator.NoForeignId ns) (SQLiteCoordinator.ReadSucceeds ns))
            events → s.Drained →
          s.emitted.map sequence =
            ((s.store.mutations ns).map sequence).filter (fromSequence < ·))) := by
  constructor
  · intro c events S s
    have hread := feed_read_pairwise (B := B) ns
    have hgt : S.rereads → ∀ c n, ∀ m ∈ S.read c n, n < S.seq m := by simp [S, feed]
    refine ⟨(increasing_init c fromSequence).emitted_run hread hgt events, fun hok hd => ?_⟩
    refine emitted_eq_of_drained hread hgt (feed_laws ns) c events hok hd
      (pairwise_map.2 (s.store.mutations_pairwise ns)) fun n => ?_
    exact mem_map
  · intro c events S s
    have hread := SQLiteCoordinator.feed_read_pairwise (B := B) ns
    have hgt : S.rereads → ∀ c n, ∀ m ∈ S.read c n, n < S.seq m := by
      intro _ c n m hm
      obtain ⟨r, -, hlt, rfl⟩ := SQLiteCoordinator.mem_catchUp hm
      exact hlt
    refine ⟨(increasing_init c fromSequence).emitted_run hread hgt events, fun hok hd => ?_⟩
    refine emitted_eq_of_drained hread hgt (SQLiteCoordinator.feed_laws ns) c events hok hd
      (pairwise_map.2 (s.store.mutations_pairwise ns)) fun n => ?_
    exact mem_map

section Runs

def pushOne (id : String) : PushRequest Unit := ("a", [⟨id, "", "r", "d", "x", (), 0, 0, 1⟩])

def pushOneRow (id : String) : SQLitePush Unit := ⟨⟨Nat.succ, Nat.lt_succ_self⟩, none, pushOne id⟩

def inOrder {ρ : Type} (push : String → ρ) : List (Event ρ) :=
  [.push (push "1"), .task, .push (push "2"), .send 0, .send 1, .task, .task, .task, .task, .task,
    .task, .push (push "3"), .send 2, .task]

theorem subscription_inOrder :
    ((init (new (B := Unit)) 0).run (feed "a")
      (inOrder pushOne)).emitted.map sequence = [1, 2, 3] ∧
    ((init (SQLiteCoordinator.new (B := Unit)) 0).run (SQLiteCoordinator.feed "a")
      (inOrder pushOneRow)).emitted.map sequence = [1, 2, 3] :=
  ⟨((subscription_complete (B := Unit) "a" 0).1 .new (inOrder pushOne)).2 (by decide)
      ⟨rfl, rfl, rfl, by decide⟩,
    ((subscription_complete (B := Unit) "a" 0).2 .new (inOrder pushOneRow)).2 (by decide)
      ⟨rfl, rfl, rfl, by decide⟩⟩

def overtaken {ρ : Type} (push : String → ρ) : List (Event ρ) :=
  [.task, .task, .task, .push (push "1"), .push (push "2"), .send 1, .send 0, .task, .task]

theorem subscription_overtaken :
    (let s := (init (new (B := Unit)) 0).run
        (feed "a") (overtaken pushOne)
     s.Drained ∧ s.emitted.map sequence = [2] ∧
      (s.store.mutations "a").map sequence = [1, 2]) ∧
    (let s := (init (SQLiteCoordinator.new (B := Unit)) 0).run
        (SQLiteCoordinator.feed "a") (overtaken pushOneRow)
     s.Drained ∧ s.emitted.map sequence = [2] ∧
      (s.store.mutations "a").map sequence = [1, 2]) := by
  refine ⟨⟨⟨rfl, rfl, rfl, by decide⟩, rfl, rfl⟩, ⟨rfl, rfl, rfl, by decide⟩, rfl, rfl⟩

end Runs

end VaultSync
