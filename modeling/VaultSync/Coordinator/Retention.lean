import Mathlib.Data.Finset.Lattice.Fold
import VaultSync.Coordinator.Paging
import VaultSync.Coordinator.PushRetries
import VaultSync.Coordinator.SqliteTables
import VaultSync.Log.Compaction

/-! What a coordinator keeps of the mutations pushed to it, in its log and in its snapshots. -/

namespace VaultSync.Retention

open CompactedLog List InMemoryCoordinator SQLiteDatabase

variable {B σ ε β : Type}

/-! ## Coordinators -/

/-- The calls of a coordinator; `ε` is what is decided outside of it. `rivals` are the mutations
whose ids a push to the namespace must not repeat, and `next` is above all sequences so far. -/
structure Backend (B σ ε : Type) where
  push : σ → ε → String → List (EncryptedMutation B) → Except CoordinatorError (List ℕ) × σ
  storeSnapshot : σ → ε → String → Snapshot B → σ
  compactOplog : σ → ε → String → σ
  pull : σ → String → ℕ → ℕ → Except CoordinatorError (List (PendingMutation B))
  mutations : σ → String → List (PendingMutation B)
  listSnapshots : σ → String → List (Snapshot B)
  rivals : σ → String → List (PendingMutation B)
  next : σ → ℕ
  accepts : EncryptedMutation B → Bool

def memory : Backend B (InMemoryCoordinator B) Unit where
  push c _ ns ms := (.ok (c.push ns ms).1, (c.push ns ms).2)
  storeSnapshot c _ ns s := c.storeSnapshot ns s
  compactOplog c _ ns := c.compactOplog ns
  pull c ns after limit := .ok (c.pull ns after limit)
  mutations c ns := c.mutations ns
  listSnapshots c ns := c.listSnapshots ns
  rivals c ns := c.mutations ns
  next c := c.nextSeq
  accepts _ := true

structure SQLiteChoice where
  auto : SQLiteCoordinator.AutoIncrement
  fault : Option String

/-- Timestamps and key versions are accepted that fit the columns they are read from. -/
def sqlite : Backend B (SQLiteDatabase B) SQLiteChoice where
  push db e ns ms := db.push e.fault ns e.auto ms
  storeSnapshot db e ns s := (db.storeSnapshot e.fault ns s).2
  compactOplog db e ns := (db.compactOplog e.fault ns).2
  pull db ns after limit := db.pull none ns after limit
  mutations db ns := db.mutations.mutations ns
  listSnapshots db ns := db.listSnapshots ns
  rivals db _ := db.mutations.rows.map SQLiteCoordinator.Row.toPending
  next db := db.mutations.lastSequence + 1
  accepts m := m.timestamp < 2 ^ 63 ∧ m.keyVersion < 2 ^ 63

/-! ## Runs -/

structure Ledger (B σ : Type) where
  state : σ
  pushed : List (PendingMutation B)

variable (b : Backend B σ ε)

def step (l : Ledger B σ) : CoordinatorEvent B × ε → Ledger B σ
  | (.push ns ms, e) =>
    match b.push l.state e ns ms with
    | (.ok seqs, s) =>
      ⟨s, l.pushed ++ (ms.zip seqs).map fun a => InMemoryCoordinator.pending ns a.2 a.1⟩
    | (.error _, s) => ⟨s, l.pushed⟩
  | (.storeSnapshot ns snap, e) => { l with state := b.storeSnapshot l.state e ns snap }
  | (.compactOplog ns, e) => { l with state := b.compactOplog l.state e ns }

def run (l : Ledger B σ) (events : List (CoordinatorEvent B × ε)) : Ledger B σ :=
  events.foldl (step b) l

structure Reading (B β : Type) where
  mutation : B → β
  snapshot : B → β

section ordered

variable [SemilatticeSup β] [OrderBot β] {α : Type} {key : α → Key} {content : α → β} {k : Key}
  {l : List α} (reading : Reading B β)

def joinAt (key : α → Key) (content : α → β) (k : Key) (l : List α) : β :=
  Multiset.sup (Multiset.ofList ((l.filter fun a => key a = k).map content))

lemma le_joinAt (content : α → β) {a : α} (ha : a ∈ l) (hkey : key a = k) :
    content a ≤ joinAt key content k l := by
  have hmem : a ∈ l.filter fun a => key a = k := mem_filter.2 ⟨ha, decide_eq_true hkey⟩
  exact Multiset.le_sup (Multiset.mem_coe.2 (mem_map_of_mem hmem))

lemma joinAt_le_iff {x : β} : joinAt key content k l ≤ x ↔ ∀ a ∈ l, key a = k → content a ≤ x := by
  refine ⟨fun h a ha hkey => (le_joinAt content ha hkey).trans h, fun h => Multiset.sup_le.2 fun y hy => ?_⟩
  obtain ⟨a, ha, rfl⟩ := mem_map.1 (Multiset.mem_coe.1 hy)
  obtain ⟨ha, hkey⟩ := mem_filter.1 ha
  exact h a ha (of_decide_eq_true hkey)

def mutationJoin : Key → List (PendingMutation B) → β :=
  joinAt PendingMutation.key fun m => reading.mutation m.encryptedBlob

def snapshotJoin : Key → List (Snapshot B) → β :=
  joinAt Snapshot.key fun s => reading.snapshot s.bytes

variable {reading} in
lemma le_snapshotJoin {s : Snapshot B} {ss : List (Snapshot B)} (hs : s ∈ ss) (hkey : s.key = k) :
    reading.snapshot s.bytes ≤ snapshotJoin reading k ss :=
  le_joinAt (fun s => reading.snapshot s.bytes) hs hkey

def Recoverable (l : Ledger B σ) : Prop :=
  ∀ ns k limit, (b.mutations l.state ns).length ≤ limit → limit < 2 ^ 63 →
    ∃ ms, b.pull l.state ns 0 limit = .ok ms ∧
      mutationJoin reading k (l.pushed.filter fun m => m.namespace = ns) ≤
        snapshotJoin reading k (b.listSnapshots l.state ns) ⊔ mutationJoin reading k ms

end ordered

def Along (P : Ledger B σ → CoordinatorEvent B → Prop) :
    Ledger B σ → List (CoordinatorEvent B × ε) → Prop
  | _, [] => True
  | l, e :: events => P l e.1 ∧ Along P (step b l e) events

instance decidableAlong (P : Ledger B σ → CoordinatorEvent B → Prop) [∀ l e, Decidable (P l e)] :
    (events : List (CoordinatorEvent B × ε)) → (l : Ledger B σ) → Decidable (Along b P l events)
  | [], _ => instDecidableTrue
  | e :: events, l => @instDecidableAnd _ _ inferInstance (decidableAlong P events (step b l e))

/-- A snapshot contains what was pushed so far for its record up to its sequence. -/
def Honest [LE β] (reading : Reading B β) (l : Ledger B σ) : CoordinatorEvent B → Prop
  | .storeSnapshot ns s => ∀ m ∈ l.pushed, m.namespace = ns → m.key = s.key →
      m.sequence ≤ s.sequence → reading.mutation m.encryptedBlob ≤ reading.snapshot s.bytes
  | _ => True

def Repeats (ns : String) (p : PendingMutation B) (m : EncryptedMutation B) : Prop :=
  p.id = m.id → p.namespace = ns ∧ p.key = m.key ∧ p.encryptedBlob = m.encryptedBlob

/-- Mutations fit, and their ids identify them. A snapshot is not numbered ahead of the log, and
not below the one it replaces. -/
def InOrder (l : Ledger B σ) : CoordinatorEvent B → Prop
  | .push ns ms => (∀ m ∈ ms, b.accepts m) ∧ (∀ m ∈ ms, ∀ p ∈ b.rivals l.state ns, Repeats ns p m) ∧
      ∀ m ∈ ms, ∀ m' ∈ ms, m'.id = m.id → m'.key = m.key ∧ m'.encryptedBlob = m.encryptedBlob
  | .storeSnapshot ns s => s.sequence < b.next l.state ∧
      ∀ t ∈ b.listSnapshots l.state ns, t.key = s.key → t.sequence ≤ s.sequence
  | .compactOplog _ => True

instance [LE β] [DecidableLE β] (reading : Reading B β) (l : Ledger B σ) :
    (e : CoordinatorEvent B) → Decidable (Honest reading l e)
  | .push _ _ => instDecidableTrue
  | .storeSnapshot _ _ => inferInstanceAs (Decidable (∀ m ∈ l.pushed, _ → _ → _ → _ ≤ _))
  | .compactOplog _ => instDecidableTrue

instance [DecidableEq B] (ns : String) (p : PendingMutation B) (m : EncryptedMutation B) :
    Decidable (Repeats ns p m) := inferInstanceAs (Decidable (_ → _))

instance [DecidableEq B] (l : Ledger B σ) : (e : CoordinatorEvent B) → Decidable (InOrder b l e)
  | .push ns ms => inferInstanceAs (Decidable ((∀ m ∈ ms, _) ∧
      (∀ m ∈ ms, ∀ p ∈ b.rivals l.state ns, _) ∧ ∀ m ∈ ms, ∀ m' ∈ ms, _ → _))
  | .storeSnapshot ns _ => inferInstanceAs (Decidable (_ ∧ ∀ t ∈ b.listSnapshots l.state ns, _ → _))
  | .compactOplog _ => instDecidableTrue

/-! ## What the calls do -/

structure Pushed (ns : String) (answers : List (EncryptedMutation B × ℕ)) (s s' : σ) : Prop where
  others : ∀ ns', ns' ≠ ns → b.mutations s' ns' = b.mutations s ns'
  kept : ∀ p ∈ b.mutations s ns, p ∈ b.mutations s' ns
  answered : ∀ a ∈ answers, ∃ p ∈ b.mutations s' ns, p.key = a.1.key ∧
    p.encryptedBlob = a.1.encryptedBlob ∧ p.sequence = a.2
  added : ∀ p ∈ b.mutations s' ns, p ∈ b.mutations s ns ∨ (b.next s ≤ p.sequence ∧
    ∃ a ∈ answers, p.key = a.1.key ∧ p.encryptedBlob = a.1.encryptedBlob ∧ p.sequence = a.2)
  snapshots : ∀ ns', b.listSnapshots s' ns' = b.listSnapshots s ns'
  next : b.next s ≤ b.next s'

structure Stored (ns : String) (snap : Snapshot B) (s s' : σ) : Prop where
  mutations : ∀ ns', b.mutations s' ns' = b.mutations s ns'
  mem_iff : ∀ t, t ∈ b.listSnapshots s' ns ↔ t = snap ∨ (t ∈ b.listSnapshots s ns ∧ t.key ≠ snap.key)
  others : ∀ ns', ns' ≠ ns → b.listSnapshots s' ns' = b.listSnapshots s ns'
  next : b.next s' = b.next s

structure Compacted (s s' : σ) : Prop where
  subset : ∀ ns, ∀ p ∈ b.mutations s' ns, p ∈ b.mutations s ns
  covered : ∀ ns, ∀ p ∈ b.mutations s ns, p ∈ b.mutations s' ns ∨
    ∃ t ∈ b.listSnapshots s ns, p.key = t.key ∧ p.sequence ≤ t.sequence
  snapshots : ∀ ns, b.listSnapshots s' ns = b.listSnapshots s ns
  next : b.next s' = b.next s

/-- What `Good` says is that everything can be pulled; a call that fails changes nothing. -/
structure Lawful (Good : σ → Prop) : Prop where
  lt_next : ∀ s ns, ∀ p ∈ b.mutations s ns, p.sequence < b.next s
  pull : ∀ {s ns limit}, Good s → (b.mutations s ns).length ≤ limit → limit < 2 ^ 63 →
    b.pull s ns 0 limit = .ok (b.mutations s ns)
  push : ∀ {s e ns ms pushed seqs s'}, InOrder b ⟨s, pushed⟩ (.push ns ms) →
    b.push s e ns ms = (.ok seqs, s') → Pushed b ns (ms.zip seqs) s s' ∧ (Good s → Good s')
  push_error : ∀ {s e ns ms err s'}, b.push s e ns ms = (.error err, s') → s' = s
  store : ∀ s e ns snap, (b.storeSnapshot s e ns snap = s ∨
    Stored b ns snap s (b.storeSnapshot s e ns snap)) ∧
      (Good s → Good (b.storeSnapshot s e ns snap))
  compact : ∀ s e ns, Compacted b s (b.compactOplog s e ns) ∧
    (Good s → Good (b.compactOplog s e ns))

/-! ## As a compacted log -/

section archive

variable (reading : Reading B β)

def mutationItem (m : PendingMutation B) : Item Key β :=
  ⟨m.key, m.sequence, reading.mutation m.encryptedBlob⟩

def snapshotItem (s : Snapshot B) : Item Key β := ⟨s.key, s.sequence, reading.snapshot s.bytes⟩

def archive (l : Ledger B σ) (ns : String) : Archive Key β where
  history := { x | ∃ m ∈ l.pushed, m.namespace = ns ∧ mutationItem reading m = x }
  log := { x | ∃ m ∈ b.mutations l.state ns, mutationItem reading m = x }
  snaps := { x | ∃ t ∈ b.listSnapshots l.state ns, snapshotItem reading t = x }
  next := b.next l.state

structure Sound [Preorder β] (Good : σ → Prop) (l : Ledger B σ) : Prop where
  good : Good l.state
  kept : ∀ ns, (archive b reading l ns).Sound

variable {b reading} {Good : σ → Prop} {l : Ledger B σ} {ns : String}

lemma sound_of_empty [Preorder β] {s : σ} (hgood : Good s) (hlog : ∀ ns, b.mutations s ns = [])
    (hsnaps : ∀ ns, b.listSnapshots s ns = []) : Sound b reading Good ⟨s, []⟩ where
  good := hgood
  kept ns := by
    have hlogged : ∀ m, m ∉ b.mutations s ns := fun m hm => by simp [hlog ns] at hm
    have hstored : ∀ t, t ∉ b.listSnapshots s ns := fun t ht => by simp [hsnaps ns] at ht
    exact ⟨fun _ ⟨_, hm, _⟩ => absurd hm not_mem_nil, fun _ ⟨m, hm, _⟩ => absurd hm (hlogged m),
      fun _ ⟨_, hm, _⟩ => absurd hm not_mem_nil, fun _ ⟨t, ht, _⟩ => absurd ht (hstored t)⟩

lemma mutationItem_eq {p m : PendingMutation B} (hkey : p.key = m.key)
    (hblob : p.encryptedBlob = m.encryptedBlob) (hseq : p.sequence = m.sequence) :
    mutationItem reading p = mutationItem reading m := by
  rw [mutationItem, mutationItem, hkey, hblob, hseq]

variable {s' : σ} {answers : List (EncryptedMutation B × ℕ)}

lemma stores_of_stored {snap : Snapshot B} (hs : Stored b ns snap l.state s') :
    Archive.Stores (snapshotItem reading snap) (archive b reading l ns)
      (archive b reading { l with state := s' } ns) where
  history := rfl
  log := by
    unfold archive
    rw [hs.mutations]
  stored := ⟨snap, (hs.mem_iff snap).2 (.inl rfl), rfl⟩
  snaps := by
    rintro _ ⟨t, ht, rfl⟩
    rcases (hs.mem_iff t).1 ht with rfl | ⟨hold, -⟩
    · exact .inl rfl
    · exact .inr ⟨t, hold, rfl⟩
  others := by
    rintro _ ⟨t, ht, rfl⟩ hne
    exact ⟨t, (hs.mem_iff t).2 (.inr ⟨ht, hne⟩), rfl⟩
  next := hs.next

lemma compacts_of_compacted (hc : Compacted b l.state s') :
    Archive.Compacts (archive b reading l ns) (archive b reading { l with state := s' } ns) where
  history := rfl
  log_subset := by
    rintro _ ⟨p, hp, rfl⟩
    exact ⟨p, hc.subset ns p hp, rfl⟩
  log := by
    rintro _ ⟨p, hp, rfl⟩
    rcases hc.covered ns p hp with hkept | ⟨t, ht, hkey, hseq⟩
    · exact .inl ⟨p, hkept, rfl⟩
    · exact .inr ⟨snapshotItem reading t, ⟨t, ht, rfl⟩, hkey, hseq⟩
  snaps := by
    unfold archive
    rw [hc.snapshots]
  next := hc.next

variable [Preorder β]

lemma appends_of_pushed (hb : Lawful b Good) {ns' : String} (h : (archive b reading l ns').Sound)
    (hp : Pushed b ns answers l.state s') :
    Archive.Appends (archive b reading l ns')
      (archive b reading ⟨s', l.pushed ++ answers.map fun a => pending ns a.2 a.1⟩ ns') := by
  have hlog : ∀ p ∈ b.mutations s' ns', mutationItem reading p ∈ (archive b reading l ns').history ∨
      (b.next l.state ≤ p.sequence ∧ ns = ns' ∧
        ∃ a ∈ answers, mutationItem reading (pending ns a.2 a.1) = mutationItem reading p) := by
    intro p hmem
    by_cases hne : ns' = ns
    · subst hne
      rcases hp.added p hmem with hold | ⟨hle, a, ha, hkey, hblob, hseq⟩
      · exact .inl (h.log_subset ⟨p, hold, rfl⟩)
      · exact .inr ⟨hle, rfl, a, ha, (mutationItem_eq hkey hblob hseq).symm⟩
    · rw [hp.others ns' hne] at hmem
      exact .inl (h.log_subset ⟨p, hmem, rfl⟩)
  have hhistory : ∀ m ∈ l.pushed ++ answers.map (fun a => pending ns a.2 a.1), m.namespace = ns' →
      m ∈ l.pushed ∨ ∃ p ∈ b.mutations s' ns', mutationItem reading p = mutationItem reading m := by
    rintro m hm rfl
    refine (mem_append.1 hm).imp_right fun hnew => ?_
    obtain ⟨a, ha, rfl⟩ := mem_map.1 hnew
    obtain ⟨p, hmem, hkey, hblob, hseq⟩ := hp.answered a ha
    exact ⟨p, hmem, mutationItem_eq hkey hblob hseq⟩
  refine ⟨?_, ?_, ?_, ?_, ?_, hp.next⟩
  · rintro _ ⟨m, hm, hns, rfl⟩
    rcases hhistory m hm hns with hold | ⟨p, hmem, heq⟩
    · exact .inl ⟨m, hold, hns, rfl⟩
    · rw [← heq]
      exact (hlog p hmem).imp_right fun hnew => ⟨hnew.1, p, hmem, rfl⟩
  · rintro _ ⟨m, hm, hns, rfl⟩
    rcases hhistory m hm hns with hold | ⟨p, hmem, heq⟩
    · exact (h.lt _ ⟨m, hold, hns, rfl⟩).trans_le hp.next
    · rw [← heq]
      exact hb.lt_next s' ns' p hmem
  · rintro _ ⟨p, hmem, rfl⟩
    rcases hlog p hmem with ⟨m, hm, hns, heq⟩ | ⟨-, hns, a, ha, heq⟩
    · exact ⟨m, mem_append_left _ hm, hns, heq⟩
    · exact ⟨_, mem_append_right _ (mem_map_of_mem ha), hns, heq⟩
  · rintro _ ⟨p, hmem, rfl⟩
    refine ⟨p, ?_, rfl⟩
    by_cases hne : ns' = ns
    · subst hne
      exact hp.kept p hmem
    · rw [hp.others ns' hne]
      exact hmem
  · unfold archive
    rw [hp.snapshots]

lemma Sound.step (hb : Lawful b Good) (h : Sound b reading Good l) {e : CoordinatorEvent B × ε}
    (hhonest : Honest reading l e.1) (hok : InOrder b l e.1) :
    Sound b reading Good (step b l e) := by
  obtain ⟨e, choice⟩ := e
  cases e with
  | push ns ms =>
    rcases hpush : b.push l.state choice ns ms with ⟨_ | seqs, s'⟩
    · rw [hb.push_error hpush] at hpush
      simp only [Retention.step, hpush]
      exact h
    · obtain ⟨hp, hgood⟩ := hb.push hok hpush
      simp only [Retention.step, hpush]
      exact ⟨hgood h.good, fun ns' => (h.kept ns').appends (appends_of_pushed hb (h.kept ns') hp)⟩
  | storeSnapshot ns snap =>
    obtain ⟨hstore, hgood⟩ := hb.store l.state choice ns snap
    refine ⟨hgood h.good, fun ns' => ?_⟩
    change (archive b reading { l with state := b.storeSnapshot l.state choice ns snap } ns').Sound
    rcases hstore with hsame | hs
    · rw [hsame]
      exact h.kept ns'
    · by_cases hns : ns' = ns
      · subst hns
        refine (h.kept ns').stores (stores_of_stored hs) ⟨hok.1, ?_⟩ ?_
        · rintro _ ⟨m, hm, hns, rfl⟩ hcov
          exact hhonest m hm hns hcov.1 hcov.2
        · rintro _ ⟨t, ht, rfl⟩ hkey
          exact hok.2 t ht hkey
      · have hsame : archive b reading { l with state := b.storeSnapshot l.state choice ns snap } ns' =
            archive b reading l ns' := by
          unfold archive
          rw [hs.mutations, hs.others ns' hns, hs.next]
        rw [hsame]
        exact h.kept ns'
  | compactOplog ns =>
    obtain ⟨hc, hgood⟩ := hb.compact l.state choice ns
    exact ⟨hgood h.good, fun ns' => (h.kept ns').compacts (compacts_of_compacted hc)⟩

lemma Sound.run (hb : Lawful b Good) {events : List (CoordinatorEvent B × ε)}
    (h : Sound b reading Good l) (hhonest : Along b (Honest reading) l events)
    (hok : Along b (InOrder b) l events) : Sound b reading Good (run b l events) := by
  induction events generalizing l with
  | nil => exact h
  | cons e events ih => exact ih (h.step hb hhonest.1 hok.1) hhonest.2 hok.2

end archive

section recoverable

variable [SemilatticeSup β] [OrderBot β] {reading : Reading B β} {Good : σ → Prop} {l : Ledger B σ}
  {b}

lemma Sound.pushed_le (h : Sound b reading Good l) (ns : String) (k : Key) :
    mutationJoin reading k (l.pushed.filter fun m => m.namespace = ns) ≤
      snapshotJoin reading k (b.listSnapshots l.state ns) ⊔
        mutationJoin reading k (b.mutations l.state ns) := by
  set bound := snapshotJoin reading k (b.listSnapshots l.state ns) ⊔
    mutationJoin reading k (b.mutations l.state ns)
  have hlog : ∀ x ∈ (archive b reading l ns).log, x.key = k → x.content ≤ bound := by
    rintro _ ⟨m, hm, rfl⟩ hkey
    exact (le_joinAt (fun m => reading.mutation m.encryptedBlob) hm (show m.key = k from hkey)).trans le_sup_right
  have hsnaps : ∀ x ∈ (archive b reading l ns).snaps, x.key = k → x.content ≤ bound := by
    rintro _ ⟨t, ht, rfl⟩ hkey
    exact (le_snapshotJoin ht hkey).trans le_sup_left
  refine joinAt_le_iff.2 fun m hm hkey => ?_
  obtain ⟨hm, hns⟩ := mem_filter.1 hm
  exact (h.kept ns).content_le hlog hsnaps ⟨m, hm, of_decide_eq_true hns, rfl⟩ hkey

lemma Sound.recoverable (hb : Lawful b Good) (h : Sound b reading Good l) :
    Recoverable b reading l := fun ns k _ hlen hlimit =>
  ⟨_, hb.pull h.good hlen hlimit, h.pushed_le ns k⟩

end recoverable

/-! What was pushed before a run adds to what is pushed in it. -/

section before

variable (s : σ) (before : List (PendingMutation B))

lemma step_before (e : CoordinatorEvent B × ε) : step b ⟨s, before⟩ e =
    ⟨(step b ⟨s, []⟩ e).state, before ++ (step b ⟨s, []⟩ e).pushed⟩ := by
  obtain ⟨_ | _ | _, choice⟩ := e
  · simp only [step]
    split <;> simp
  · simp [step]
  · simp [step]

lemma run_before (events : List (CoordinatorEvent B × ε)) : run b ⟨s, before⟩ events =
    ⟨(run b ⟨s, []⟩ events).state, before ++ (run b ⟨s, []⟩ events).pushed⟩ := by
  induction events generalizing s before with
  | nil => simp [run]
  | cons e events ih =>
    change run b (step b ⟨s, before⟩ e) events = ⟨(run b (step b ⟨s, []⟩ e) events).state,
      before ++ (run b (step b ⟨s, []⟩ e) events).pushed⟩
    rw [step_before]
    rcases step b ⟨s, []⟩ e with ⟨s', pushed⟩
    rw [ih, @ih s' pushed, append_assoc]

lemma along_inOrder_before {events : List (CoordinatorEvent B × ε)} :
    Along b (InOrder b) ⟨s, before⟩ events ↔ Along b (InOrder b) ⟨s, []⟩ events := by
  induction events generalizing s before with
  | nil => rfl
  | cons e events ih =>
    have hstep : InOrder b ⟨s, before⟩ e.1 ↔ InOrder b ⟨s, []⟩ e.1 := by
      cases e.1 <;> rfl
    refine and_congr hstep ?_
    rw [step_before]
    rcases step b ⟨s, []⟩ e with ⟨s', pushed⟩
    rw [ih, @ih s' pushed]

end before

/-! ## The in-memory coordinator -/

section memory

open InMemoryCoordinator

variable {c : InMemoryCoordinator B}

lemma pushed_memory {ns : String} {ms : List (EncryptedMutation B)}
    {pushed : List (PendingMutation B)} (h : InOrder memory ⟨c, pushed⟩ (.push ns ms)) :
    Pushed memory ns (ms.zip (c.push ns ms).1) c (c.push ns ms).2 where
  others _ hne := c.mutations_push_of_ne hne.symm ms
  kept _ hp := (c.extends_push ns ms).mutations hp
  answered a ha := by
    obtain ⟨p, hp, hid, hseq⟩ := mem_zip_push ha
    have hm : a.1 ∈ ms := (of_mem_zip ha).1
    rcases mem_ops_push_zip (mem_mutations.1 hp).1 with hold | ⟨a', ha', rfl⟩
    · obtain ⟨-, hkey, hblob⟩ := h.2.1 a.1 hm p (mem_mutations.2 ⟨hold, (mem_mutations.1 hp).2⟩) hid
      exact ⟨p, hp, hkey, hblob, hseq⟩
    · obtain ⟨hkey, hblob⟩ := h.2.2 a.1 hm a'.1 (of_mem_zip ha').1 hid
      exact ⟨_, hp, hkey, hblob, hseq⟩
  added p hp := by
    obtain ⟨hops, hns⟩ := mem_mutations.1 hp
    by_cases hold : p ∈ c.ops
    · exact .inl (mem_mutations.2 ⟨hold, hns⟩)
    · have hle : c.nextSeq ≤ p.sequence := not_lt.1 fun hlt =>
        hold ((c.extends_push ns ms).mem_of_lt p hops hlt)
      obtain ⟨a, ha, rfl⟩ := (mem_ops_push_zip hops).resolve_left hold
      exact .inr ⟨hle, a, ha, rfl, rfl, rfl⟩
  snapshots _ := (c.extends_push ns ms).listSnapshots
  next := (c.extends_push ns ms).nextSeq

lemma stored_memory (c : InMemoryCoordinator B) (ns : String) (s : Snapshot B) :
    Stored memory ns s c (c.storeSnapshot ns s) where
  mutations _ := rfl
  mem_iff _ := mem_listSnapshots_storeSnapshot
  others _ hne := listSnapshots_storeSnapshot_of_ne hne s
  next := rfl

lemma compacted_memory (c : InMemoryCoordinator B) (ns : String) :
    Compacted memory c (c.compactOplog ns) where
  subset ns' p hp := by
    obtain ⟨hops, hns⟩ := mem_mutations.1 hp
    exact mem_mutations.2 ⟨mem_of_mem_filter hops, hns⟩
  covered ns' p hp := by
    obtain ⟨hops, rfl⟩ := mem_mutations.1 hp
    by_cases hcov : ∃ s ∈ c.listSnapshots ns, covered ns p s
    · obtain ⟨s, hs, rfl, hkey, hseq⟩ := hcov
      exact .inr ⟨s, hs, hkey, hseq⟩
    · exact .inl (mem_mutations.2 ⟨mem_filter.2 ⟨hops, decide_eq_true hcov⟩, rfl⟩)
  snapshots _ := rfl
  next := rfl

lemma pull_memory {ns : String} {limit : ℕ}
    (hlen : (c.mutations ns).length ≤ limit) : c.pull ns 0 limit = c.mutations ns := by
  rw [pull_eq_page limit (by decide), PagedLog.page, c.after_zero, take_of_length_le hlen]

lemma lawful_memory : Lawful (memory (B := B)) fun _ => True where
  lt_next c ns p hp := c.seq_lt p (mem_mutations.1 hp).1
  pull _ hlen _ := congrArg Except.ok (pull_memory hlen)
  push h heq := by
    cases heq
    exact ⟨pushed_memory h, id⟩
  push_error heq := by cases heq
  store _ _ _ _ := ⟨.inr (stored_memory _ _ _), id⟩
  compact _ _ _ := ⟨compacted_memory _ _, id⟩

end memory

/-! ## The SQLite coordinator -/

section sqlite

open SQLiteCoordinator

def Readable (db : SQLiteDatabase B) : Prop :=
  ∀ r ∈ db.mutations.rows, 0 ≤ r.timestamp ∧ 0 ≤ r.keyVersion

variable {db : SQLiteDatabase B} {auto : AutoIncrement} {ms : List (EncryptedMutation B)}
  {seqs : List ℕ} {c : SQLiteCoordinator B}

lemma pushed_sqlite {ns : String} {pushed : List (PendingMutation B)}
    (h : InOrder sqlite ⟨db, pushed⟩ (.push ns ms))
    (hins : db.mutations.insertAll auto ns ms = .ok (seqs, c)) :
    Pushed sqlite ns (ms.zip seqs) db { db with mutations := c } := by
  have hrows : ∀ {r : Row B}, r ∈ c.rows → r.namespace = ns →
      r.toPending ∈ (sqlite (B := B)).mutations { db with mutations := c } ns := fun hr hns =>
    mem_map_of_mem (mem_filter.2 ⟨hr, decide_eq_true hns⟩)
  refine ⟨fun ns' hne => ?_, fun p hp => ?_, fun a ha => ?_, fun p hp => ?_, fun _ => rfl, ?_⟩
  · exact congrArg (List.map Row.toPending) (filter_insertAll_of_ne hins hne)
  · obtain ⟨r, hr, rfl⟩ := mem_map.1 hp
    obtain ⟨hr, hns⟩ := mem_filter.1 hr
    exact hrows ((rows_insertAll hins).subset hr) (of_decide_eq_true hns)
  · obtain ⟨r, hr, hid, hseq⟩ := mem_zip_insertAll hins ha
    have hm : a.1 ∈ ms := (of_mem_zip ha).1
    rcases mem_rows_insertAll hins hr with hold | ⟨-, a', ha', rfl⟩
    · obtain ⟨hns, hkey, hblob⟩ := h.2.1 a.1 hm r.toPending (mem_map_of_mem hold) hid
      exact ⟨_, hrows hr hns, hkey, hblob, hseq⟩
    · obtain ⟨hkey, hblob⟩ := h.2.2 a.1 hm a'.1 (of_mem_zip ha').1 hid
      exact ⟨_, hrows hr rfl, hkey, hblob, hseq⟩
  · obtain ⟨r, hr, rfl⟩ := mem_map.1 hp
    obtain ⟨hr, hns⟩ := mem_filter.1 hr
    rcases mem_rows_insertAll hins hr with hold | ⟨hlt, a, ha, rfl⟩
    · exact .inl (mem_map_of_mem (mem_filter.2 ⟨hold, hns⟩))
    · exact .inr ⟨hlt, a, ha, rfl, rfl, rfl⟩
  · exact Nat.succ_le_succ (lastSequence_insertAll hins)

lemma readable_insertAll {ns : String} (h : Readable db)
    (hms : ∀ m ∈ ms, (sqlite (B := B)).accepts m)
    (hins : db.mutations.insertAll auto ns ms = .ok (seqs, c)) :
    Readable { db with mutations := c } := by
  intro r hr
  rcases mem_rows_insertAll hins hr with hold | ⟨-, a, ha, rfl⟩
  · exact h r hold
  · obtain ⟨htime, hkey⟩ := of_decide_eq_true (hms a.1 (of_mem_zip ha).1)
    simp only [row, asI64_of_lt htime, asI64_of_lt hkey]
    exact ⟨Int.natCast_nonneg _, Int.natCast_nonneg _⟩

lemma pull_sqlite {ns : String} {limit : ℕ} (h : Readable db)
    (hlen : (db.mutations.mutations ns).length ≤ limit) (hlimit : limit < 2 ^ 63) :
    db.pull none ns 0 limit = .ok (db.mutations.mutations ns) := by
  have hfilter : (db.mutations.rows.filter fun r => r.namespace = ns ∧ 0 < r.sequence) =
      db.mutations.rows.filter fun r => r.namespace = ns := by
    refine filter_congr fun r hr => ?_
    rw [decide_eq_decide, and_iff_left (db.mutations.seq_pos r hr)]
  rw [SQLiteCoordinator.mutations, length_map] at hlen
  have hread : ∀ r ∈ db.mutations.rows.filter (fun r => r.namespace = ns),
      0 ≤ r.timestamp ∧ 0 ≤ r.keyVersion := fun r hr => h r (mem_of_mem_filter hr)
  have hguard : ¬ (2 ^ 63 ≤ 0 ∨ 2 ^ 63 ≤ limit) := by omega
  change SQLiteCoordinator.pull db.mutations ns 0 limit = _
  rw [SQLiteCoordinator.pull, if_neg hguard, hfilter, take_of_length_le hlen, decodeAll_eq hread]
  rfl

lemma compacted_sqlite (db : SQLiteDatabase B) (ns : String) :
    Compacted sqlite db (db.compactOplog none ns).2 where
  subset ns' p hp := by
    obtain ⟨r, hr, rfl⟩ := mem_map.1 hp
    obtain ⟨hr, hns⟩ := mem_filter.1 hr
    exact mem_map_of_mem (mem_filter.2 ⟨mem_of_mem_filter hr, hns⟩)
  covered ns' p hp := by
    obtain ⟨r, hr, rfl⟩ := mem_map.1 hp
    obtain ⟨hr, hns⟩ := mem_filter.1 hr
    by_cases hkeep : Keeps ns db.snapshots r
    · refine .inl (mem_map_of_mem (mem_filter.2 ⟨?_, hns⟩))
      exact mem_filter.2 ⟨hr, decide_eq_true hkeep⟩
    · obtain ⟨s, hs, hsns, hrns, hkey, hseq⟩ := not_not.1 hkeep
      obtain ⟨hskey, hsseq⟩ := db.columns s hs
      rw [of_decide_eq_true hns] at hrns
      refine .inr ⟨s.bytes, mem_listSnapshots.2 ⟨s, hs, ?_, rfl⟩, hkey.trans hskey, ?_⟩
      · exact hsns.trans hrns.symm
      · rw [hsseq] at hseq
        exact Int.ofNat_le.1 (hseq.trans (asI64_le _))
  snapshots _ := rfl
  next := rfl

lemma lawful_sqlite : Lawful (sqlite (B := B)) Readable where
  lt_next db ns p hp := by
    obtain ⟨r, hr, rfl⟩ := mem_map.1 hp
    exact Nat.lt_succ_of_le (db.mutations.seq_le r (mem_of_mem_filter hr))
  pull h hlen hlimit := pull_sqlite h hlen hlimit
  push h heq := by
    obtain ⟨c, hins, rfl⟩ := push_ok heq
    exact ⟨pushed_sqlite h hins, fun hread => readable_insertAll hread h.1 hins⟩
  push_error heq := push_error heq
  store db e ns s := by
    obtain ⟨auto, _ | msg⟩ := e
    · exact ⟨.inr ⟨fun _ => rfl, fun _ => mem_listSnapshots_storeSnapshot,
        fun _ hne => listSnapshots_storeSnapshot_of_ne hne s, rfl⟩, id⟩
    · exact ⟨.inl rfl, id⟩
  compact db e ns := by
    obtain ⟨auto, _ | msg⟩ := e
    · exact ⟨compacted_sqlite db ns, fun h r hr => h r (mem_of_mem_filter hr)⟩
    · exact ⟨⟨fun _ _ hp => hp, fun _ _ hp => .inl hp, fun _ => rfl, rfl⟩, id⟩

end sqlite

/-! ## Both coordinators -/

/-- In runs of pushes, stores of honest snapshots and compactions, of either coordinator, in which
ids identify mutations and no snapshot is numbered ahead of the log or below the one it replaces,
snapshots and log always hold everything pushed. -/
theorem pushed_recoverable [SemilatticeSup β] [OrderBot β] (reading : Reading B β) :
    (∀ events : List (CoordinatorEvent B × Unit),
      Along memory (Honest reading) ⟨.new, []⟩ events → Along memory (InOrder memory) ⟨.new, []⟩ events →
        Recoverable memory reading (run memory ⟨.new, []⟩ events)) ∧
    ∀ events : List (CoordinatorEvent B × SQLiteChoice),
      Along sqlite (Honest reading) ⟨.new, []⟩ events → Along sqlite (InOrder sqlite) ⟨.new, []⟩ events →
        Recoverable sqlite reading (run sqlite ⟨.new, []⟩ events) := by
  constructor
  · intro events hhonest hok
    have hnew : Sound memory reading (fun _ => True) ⟨.new, []⟩ :=
      sound_of_empty trivial (fun _ => rfl) fun _ => rfl
    exact (hnew.run lawful_memory hhonest hok).recoverable lawful_memory
  · intro events hhonest hok
    have hnew : Sound sqlite reading Readable ⟨.new, []⟩ :=
      sound_of_empty (fun _ hr => absurd hr not_mem_nil) (fun _ => rfl) fun _ => rfl
    exact (hnew.run lawful_sqlite hhonest hok).recoverable lawful_sqlite

/-! Blobs and snapshots that are sets of numbers. -/

def sets : Reading (Finset ℕ) (Finset ℕ) := ⟨id, id⟩

def sampleMutation (id : String) (n : ℕ) : EncryptedMutation (Finset ℕ) where
  id := id
  «namespace» := "n"
  replicaId := "r"
  docId := "d"
  recordId := "k"
  encryptedBlob := {n}
  timestamp := 0
  schemaVersion := 1
  keyVersion := 1

def sampleSnapshot (sequence : ℕ) (bytes : Finset ℕ) : Snapshot (Finset ℕ) where
  docId := "d"
  recordId := "k"
  schemaVersion := 1
  sequence := sequence
  createdAt := 0
  bytes := bytes

def sampleEvents : List (CoordinatorEvent (Finset ℕ)) :=
  [.push "n" [sampleMutation "a" 1, sampleMutation "b" 2],
    .storeSnapshot "n" (sampleSnapshot 1 {1}), .compactOplog "n",
    .push "n" [sampleMutation "a" 1, sampleMutation "c" 3],
    .storeSnapshot "n" (sampleSnapshot 3 {1, 2}), .compactOplog "n"]

def plain : SQLiteChoice := ⟨⟨(· + 1), Nat.lt_succ_self⟩, none⟩

theorem pushed_recoverable_sampleEvents :
    Recoverable memory sets (run memory ⟨.new, []⟩ (sampleEvents.map fun e => (e, ()))) ∧
      Recoverable sqlite sets (run sqlite ⟨.new, []⟩ (sampleEvents.map fun e => (e, plain))) :=
  ⟨(pushed_recoverable sets).1 _ (by decide) (by decide),
    (pushed_recoverable sets).2 _ (by decide) (by decide)⟩

def olderSnapshot : List (CoordinatorEvent (Finset ℕ)) :=
  [.push "n" [sampleMutation "a" 1, sampleMutation "b" 2],
    .storeSnapshot "n" (sampleSnapshot 2 {1, 2}), .compactOplog "n",
    .storeSnapshot "n" (sampleSnapshot 1 {1})]

def snapshotAhead : List (CoordinatorEvent (Finset ℕ)) :=
  [.push "n" [sampleMutation "a" 1], .storeSnapshot "n" (sampleSnapshot 2 {1}),
    .push "n" [sampleMutation "b" 2], .compactOplog "n"]

theorem mutation_lost :
    (Along memory (Honest sets) ⟨.new, []⟩ (olderSnapshot.map fun e => (e, ())) ∧
      ¬ Recoverable memory sets (run memory ⟨.new, []⟩ (olderSnapshot.map fun e => (e, ())))) ∧
    (Along sqlite (Honest sets) ⟨.new, []⟩ (olderSnapshot.map fun e => (e, plain)) ∧
      ¬ Recoverable sqlite sets (run sqlite ⟨.new, []⟩ (olderSnapshot.map fun e => (e, plain)))) ∧
    Along memory (Honest sets) ⟨.new, []⟩ (snapshotAhead.map fun e => (e, ())) ∧
      ¬ Recoverable memory sets (run memory ⟨.new, []⟩ (snapshotAhead.map fun e => (e, ()))) := by
  refine ⟨⟨by decide, fun h => ?_⟩, ⟨by decide, fun h => ?_⟩, by decide, fun h => ?_⟩
  all_goals
    obtain ⟨ms, hms, hle⟩ := h "n" ⟨"d", "k"⟩ 9 (by decide) (by decide)
    cases hms
    revert hle
    decide

end VaultSync.Retention
