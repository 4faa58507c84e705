import VaultSync.Coordinator.Retention

/-! Migration of a namespace from one in-memory coordinator to another. -/

namespace VaultSync

open List InMemoryCoordinator

variable {B : Type}

structure ReplicaRegistry (B : Type) where
  replicas : List ((String × String) × ReplicaInfo B)
  replicaKeys : String × String → Option (B × ℕ)
  schemaVersions : String → ℕ

namespace ReplicaRegistry

def new : ReplicaRegistry B := ⟨[], fun _ => none, fun _ => 0⟩

variable (r : ReplicaRegistry B)

/-- A key that is known already is kept. -/
def register (ns : String) (info : ReplicaInfo B) : ReplicaRegistry B where
  replicas := r.replicas.filter (fun e => e.1 ≠ (ns, info.replicaId)) ++ [((ns, info.replicaId), info)]
  replicaKeys := Function.update r.replicaKeys (ns, info.replicaId)
    (some ((r.replicaKeys (ns, info.replicaId)).getD (info.publicKey, 1)))
  schemaVersions := Function.update r.schemaVersions ns
    (max (r.schemaVersions ns) info.schemaVersion)

def updateReplicaKey (ns replicaId : String) (publicKey : B) (keyVersion : ℕ) : ReplicaRegistry B :=
  { r with replicaKeys := Function.update r.replicaKeys (ns, replicaId) (some (publicKey, keyVersion)) }

def listReplicas (ns : String) : List (ReplicaInfo B) :=
  (r.replicas.filter fun e => e.1.1 = ns).map Prod.snd

end ReplicaRegistry

structure InMemoryStore (B : Type) where
  log : InMemoryCoordinator B
  registry : ReplicaRegistry B

namespace CoordinatorMigrationManager

open InMemoryCoordinator

abbrev Listing {α : Type} (l : List α) := { l' : List α // l'.Perm l }

def migrateReplica (source : ReplicaRegistry B) (ns : String) (target : ReplicaRegistry B)
    (info : ReplicaInfo B) : ReplicaRegistry B :=
  let target := target.register ns info
  match source.replicaKeys (ns, info.replicaId) with
  | some (publicKey, keyVersion) => target.updateReplicaKey ns info.replicaId publicKey keyVersion
  | none => target

def migrated (schemaVersion : ℕ) (m : PendingMutation B) : EncryptedMutation B where
  id := m.id
  «namespace» := m.namespace
  replicaId := "migrated"
  docId := m.docId
  recordId := m.recordId
  encryptedBlob := m.encryptedBlob
  timestamp := m.timestamp
  schemaVersion := schemaVersion
  keyVersion := m.keyVersion

def migrateMutations (source : InMemoryCoordinator B) (ns : String) (chunkSize schemaVersion : ℕ) :
    (fuel after total : ℕ) → InMemoryCoordinator B → Option (ℕ × InMemoryCoordinator B)
  | 0, _, _, _ => none
  | fuel + 1, after, total, target =>
    let pending := source.pull ns after chunkSize
    match pending.getLast? with
    | none => some (total, target)
    | some last => migrateMutations source ns chunkSize schemaVersion fuel last.sequence
        (total + pending.length) (target.push ns (pending.map (migrated schemaVersion))).2

def progress (source : InMemoryCoordinator B) (ns : String) (chunkSize : ℕ) :
    (fuel after total : ℕ) → List ℕ
  | 0, _, _ => []
  | fuel + 1, after, total =>
    let pending := source.pull ns after chunkSize
    match pending.getLast? with
    | none => []
    | some last => (total + pending.length) ::
        progress source ns chunkSize fuel last.sequence (total + pending.length)

def migrate (source target : InMemoryStore B) (ns : String) (chunkSize fuel : ℕ)
    (replicas : Listing (source.registry.listReplicas ns))
    (snapshots : Listing (source.log.listSnapshots ns)) : Option (ℕ × InMemoryStore B) :=
  let registry := replicas.1.foldl (migrateReplica source.registry ns) target.registry
  let log := snapshots.1.foldl (fun log s => log.storeSnapshot ns s) target.log
  (migrateMutations source.log ns chunkSize (source.registry.schemaVersions ns) fuel 0 0 log).map
    fun (total, log) => (total, ⟨log, registry⟩)

/-! ## The mutations -/

variable {ns : String} {v : ℕ}

def renumbered (ns : String) (v : ℕ) : ℕ → List (PendingMutation B) → List (PendingMutation B)
  | _, [] => []
  | n, m :: ms => pending ns n (migrated v m) :: renumbered ns v (n + 1) ms

lemma renumbered_append (n : ℕ) (ms ms' : List (PendingMutation B)) :
    renumbered ns v n (ms ++ ms') = renumbered ns v n ms ++ renumbered ns v (n + ms.length) ms' := by
  induction ms generalizing n with
  | nil => rfl
  | cons m ms ih =>
    rw [cons_append, renumbered, renumbered, ih, cons_append, length_cons,
      Nat.add_right_comm]
    rfl

lemma map_renumbered {α : Type} {f : PendingMutation B → α}
    (hf : ∀ seq m, f (pending ns seq (migrated v m)) = f m) (n : ℕ)
    (ms : List (PendingMutation B)) : (renumbered ns v n ms).map f = ms.map f := by
  induction ms generalizing n with
  | nil => rfl
  | cons m ms ih => simp [renumbered, hf, ih]

variable {c : InMemoryCoordinator B} {ms done rest : List (PendingMutation B)}
  {snapshots : List (String × Snapshot B)} {chunkSize fuel : ℕ}

lemma push_migrated (ns : String) (v : ℕ)
    (hnew : ∀ m ∈ ms, ∀ p ∈ c.ops, p.id ≠ m.id) (hids : (ms.map PendingMutation.id).Nodup) :
    (c.push ns (ms.map (migrated v))).2.ops = c.ops ++ renumbered ns v c.nextSeq ms ∧
      (c.push ns (ms.map (migrated v))).2.nextSeq = c.nextSeq + ms.length := by
  induction ms generalizing c with
  | nil => exact ⟨(append_nil _).symm, rfl⟩
  | cons m ms ih =>
    rw [map_cons, nodup_cons] at hids
    have hex : c.existing ns (migrated v m).id = none := by
      refine List.find?_eq_none.2 fun p hp => ?_
      have := hnew m mem_cons_self p hp
      simp [migrated, this]
    have hrest : ∀ m' ∈ ms, ∀ p ∈ (c.insert ns (migrated v m)).ops, p.id ≠ m'.id := by
      intro m' hm' p hp
      rw [insert_ops, mem_append, mem_singleton] at hp
      rcases hp with hp | rfl
      · exact hnew m' (mem_cons_of_mem m hm') p hp
      · exact fun heq => hids.1 (heq ▸ mem_map_of_mem hm')
    obtain ⟨hops, hnext⟩ := ih hrest hids.2
    rw [map_cons, push, hex, hops, hnext, insert_ops, insert_nextSeq,
      append_assoc, length_cons, Nat.add_right_comm, Nat.add_assoc]
    exact ⟨rfl, rfl⟩

structure Migrated (ns : String) (v : ℕ) (done : List (PendingMutation B))
    (snapshots : List (String × Snapshot B)) (target : InMemoryCoordinator B) : Prop where
  ops : target.ops = renumbered ns v 1 done
  nextSeq : target.nextSeq = done.length + 1
  snapshots : target.snapshots = snapshots

lemma Migrated.push {page : List (PendingMutation B)}
    {target : InMemoryCoordinator B} (h : Migrated ns v done snapshots target)
    (hids : ((done ++ page).map PendingMutation.id).Nodup) :
    Migrated ns v (done ++ page) snapshots (target.push ns (page.map (migrated v))).2 := by
  rw [map_append, nodup_append] at hids
  have hnew : ∀ m ∈ page, ∀ p ∈ target.ops, p.id ≠ m.id := by
    intro m hm p hp
    rw [h.ops] at hp
    have hid := mem_map_of_mem (f := PendingMutation.id) hp
    rw [map_renumbered fun _ _ => rfl] at hid
    exact hids.2.2 _ hid _ (mem_map_of_mem hm)
  obtain ⟨hops, hnext⟩ := push_migrated ns v hnew hids.2.1
  refine ⟨?_, ?_, ((target.extends_push _ _).snapshots).trans h.snapshots⟩
  · rw [hops, h.ops, h.nextSeq, renumbered_append, Nat.add_comm 1]
  · rw [hnext, h.nextSeq, length_append, Nat.add_right_comm]

abbrev reached (done : List (PendingMutation B)) : ℕ :=
  PagedLog.cursor PendingMutation.sequence 0 done

lemma pull_after_done {source : InMemoryCoordinator B} (hseq : source.nextSeq < 2 ^ 64)
    (hsplit : source.mutations ns = done ++ rest) (chunkSize : ℕ) :
    source.pull ns (reached done) chunkSize = rest.take chunkSize := by
  have hcursor : reached done + 1 < 2 ^ 64 := by
    by_cases hdone : done = []
    · rw [hdone, reached, PagedLog.cursor_nil]
      decide
    · obtain ⟨m, hm, heq⟩ : ∃ m ∈ done, m.sequence = reached done := PagedLog.cursor_mem hdone
      have hmem : m ∈ source.mutations ns := hsplit ▸ mem_append_left rest hm
      have := source.seq_lt m (mem_mutations.1 hmem).1
      omega
  rw [pull_eq_page chunkSize hcursor, PagedLog.page,
    PagedLog.after_cursor (source.mutations_pairwise ns) ((source.after_zero ns).trans hsplit)]

lemma migrateMutations_eq_some {source : InMemoryCoordinator B} (hchunk : 0 < chunkSize)
    (hseq : source.nextSeq < 2 ^ 64) (hids : ((source.mutations ns).map PendingMutation.id).Nodup)
    {target : InMemoryCoordinator B} (hsplit : source.mutations ns = done ++ rest)
    (hfuel : rest.length < fuel) (h : Migrated ns v done snapshots target) (total : ℕ) :
    ∃ target', migrateMutations source ns chunkSize v fuel (reached done) total target =
        some (total + rest.length, target') ∧
      Migrated ns v (source.mutations ns) snapshots target' ∧
      (total :: progress source ns chunkSize fuel (reached done) total).IsChain (· < ·) ∧
      (progress source ns chunkSize fuel (reached done) total).getLastD total =
        total + rest.length := by
  induction fuel generalizing done rest target total with
  | zero => exact absurd hfuel (Nat.not_lt_zero _)
  | succ fuel ih =>
    have hpage := pull_after_done hseq hsplit chunkSize
    rw [migrateMutations, progress]
    simp only [hpage]
    rcases hlast : (rest.take chunkSize).getLast? with _ | last
    · have hrest : rest = [] := by
        rw [List.getLast?_eq_none_iff, take_eq_nil_iff] at hlast
        exact hlast.resolve_left hchunk.ne'
      subst hrest
      rw [append_nil] at hsplit
      exact ⟨target, rfl, hsplit ▸ h, List.IsChain.singleton _, rfl⟩
    · have hne : rest.take chunkSize ≠ [] := by
        rintro hnil
        rw [hnil] at hlast
        cases hlast
      have hpos : 0 < (rest.take chunkSize).length := length_pos_of_ne_nil hne
      have hdrop : (rest.drop chunkSize).length < fuel := by
        rw [length_take] at hpos
        rw [length_drop]
        omega
      have hsplit' : source.mutations ns = (done ++ rest.take chunkSize) ++ rest.drop chunkSize := by
        rw [append_assoc, take_append_drop, hsplit]
      have hids' : ((done ++ rest.take chunkSize).map PendingMutation.id).Nodup := by
        rw [hsplit', map_append, nodup_append] at hids
        exact hids.1
      have hnext : reached (done ++ rest.take chunkSize) = last.sequence := by
        rw [reached, ← PagedLog.cursor_append, PagedLog.cursor, hlast]
        rfl
      obtain ⟨target', heq, hm, hchain, hend⟩ := ih hsplit' hdrop (h.push hids')
        (total + (rest.take chunkSize).length)
      rw [hnext] at heq hchain hend
      have htotal : total + (rest.take chunkSize).length + (rest.drop chunkSize).length =
          total + rest.length := by
        rw [Nat.add_assoc, ← length_append, take_append_drop]
      rw [htotal] at heq hend
      refine ⟨target', heq, hm, isChain_cons_cons.2 ⟨by omega, hchain⟩, ?_⟩
      rw [getLastD_cons]
      exact hend

lemma mem_renumbered {n : ℕ} {p : PendingMutation B}
    (h : p ∈ renumbered ns v n ms) : ∃ a ∈ ms.zipIdx n, p = pending ns a.2 (migrated v a.1) := by
  induction ms generalizing n with
  | nil => cases h
  | cons m ms ih =>
    rw [zipIdx_cons]
    rcases mem_cons.1 h with rfl | h
    · exact ⟨_, mem_cons_self, rfl⟩
    · obtain ⟨a, ha, rfl⟩ := ih h
      exact ⟨a, mem_cons_of_mem _ ha, rfl⟩

lemma pending_mem_renumbered (ns : String) (v n : ℕ) {m : PendingMutation B}
    (h : m ∈ ms) : ∃ seq, pending ns seq (migrated v m) ∈ renumbered ns v n ms := by
  induction ms generalizing n with
  | nil => cases h
  | cons m' ms ih =>
    rcases mem_cons.1 h with rfl | h
    · exact ⟨n, mem_cons_self⟩
    · obtain ⟨seq, hmem⟩ := ih (n + 1) h
      exact ⟨seq, mem_cons_of_mem _ hmem⟩

/-! ## The snapshots -/

abbrev restored (ns : String) (ss : List (Snapshot B)) (c : InMemoryCoordinator B) :
    InMemoryCoordinator B := ss.foldl (fun log s => log.storeSnapshot ns s) c

lemma restored_ops (ss : List (Snapshot B)) (c : InMemoryCoordinator B) :
    (restored ns ss c).ops = c.ops ∧ (restored ns ss c).nextSeq = c.nextSeq := by
  induction ss generalizing c with
  | nil => exact ⟨rfl, rfl⟩
  | cons s ss ih => exact ih (c.storeSnapshot ns s)

lemma mem_restored {ss : List (Snapshot B)} (hkeys : (ss.map Snapshot.key).Nodup)
    {t : Snapshot B} :
    t ∈ (restored ns ss c).listSnapshots ns ↔
      t ∈ ss ∨ (t ∈ c.listSnapshots ns ∧ t.key ∉ ss.map Snapshot.key) := by
  induction ss generalizing c with
  | nil => simp
  | cons s ss ih =>
    rw [map_cons, nodup_cons] at hkeys
    refine (ih hkeys.2).trans ?_
    rw [mem_listSnapshots_storeSnapshot, mem_cons, map_cons, mem_cons, not_or]
    constructor
    · rintro (hmem | ⟨rfl | ⟨hold, hne⟩, hnot⟩)
      · exact .inl (.inr hmem)
      · exact .inl (.inl rfl)
      · exact .inr ⟨hold, hne, hnot⟩
    · rintro ((rfl | hmem) | ⟨hold, hne, hnot⟩)
      · exact .inr ⟨.inl rfl, hkeys.1⟩
      · exact .inl hmem
      · exact .inr ⟨.inr ⟨hold, hne⟩, hnot⟩

lemma listSnapshots_restored_of_ne {ns' : String} (hne : ns' ≠ ns) (ss : List (Snapshot B))
    (c : InMemoryCoordinator B) :
    (restored ns ss c).listSnapshots ns' = c.listSnapshots ns' := by
  induction ss generalizing c with
  | nil => rfl
  | cons s ss ih => exact (ih (c.storeSnapshot ns s)).trans (listSnapshots_storeSnapshot_of_ne hne s)

def copied (m : PendingMutation B) : String × String × String × B × ℕ × ℕ :=
  (m.id, m.docId, m.recordId, m.encryptedBlob, m.timestamp, m.keyVersion)

lemma Migrated.map_copied {target : InMemoryCoordinator B}
    (h : Migrated ns v done snapshots target) :
    (target.mutations ns).map copied = done.map copied := by
  have hall : ∀ n, ∀ p ∈ renumbered ns v n done, p.namespace = ns := by
    intro n p hp
    obtain ⟨a, -, rfl⟩ := mem_renumbered hp
    rfl
  have hmutations : target.mutations ns = renumbered ns v 1 done := by
    rw [mutations, h.ops]
    exact filter_eq_self.2 fun p hp => decide_eq_true (hall 1 p hp)
  rw [hmutations, map_renumbered fun _ _ => rfl]

/-! ## What is kept -/

section kept

open Retention

variable {β : Type}

/-- The snapshots contain what the log still has of their records up to their sequences. -/
def HonestSnapshots [LE β] (reading : Reading B β) (source : InMemoryCoordinator B) (ns : String) :
    Prop :=
  ∀ s ∈ source.listSnapshots ns, ∀ m ∈ source.mutations ns, m.key = s.key →
    m.sequence ≤ s.sequence → reading.mutation m.encryptedBlob ≤ reading.snapshot s.bytes

instance [LE β] [DecidableLE β] (reading : Reading B β) (source : InMemoryCoordinator B)
    (ns : String) : Decidable (HonestSnapshots reading source ns) :=
  inferInstanceAs (Decidable (∀ s ∈ source.listSnapshots ns, ∀ m ∈ source.mutations ns, _ → _ → _))

/-- Under their new numbers no mutation falls under a snapshot that it did not fall under before,
and later ones will not either. -/
def Aligned (source : InMemoryCoordinator B) (ns : String) : Prop :=
  ∀ s ∈ source.listSnapshots ns, s.sequence ≤ (source.mutations ns).length ∧
    ∀ a ∈ (source.mutations ns).zipIdx 1, a.1.key = s.key → a.2 ≤ s.sequence →
      a.1.sequence ≤ s.sequence

variable {source target : InMemoryCoordinator B} {ss : List (Snapshot B)}

lemma mem_listSnapshots_migrated (hss : ss.Perm (source.listSnapshots ns))
    (h : Migrated ns v done (restored ns ss new).snapshots target)
    {ns' : String} {t : Snapshot B} :
    t ∈ target.listSnapshots ns' ↔ ns' = ns ∧ t ∈ source.listSnapshots ns := by
  have hsnaps : target.listSnapshots ns' = (restored ns ss new).listSnapshots ns' := by
    unfold listSnapshots
    rw [h.snapshots]
  have hkeys : (ss.map Snapshot.key).Nodup :=
    (hss.map Snapshot.key).nodup_iff.2 (source.listSnapshots_keys_nodup ns)
  rw [hsnaps]
  by_cases hne : ns' = ns
  · subst hne
    rw [mem_restored hkeys, hss.mem_iff]
    simp [new, listSnapshots]
  · rw [listSnapshots_restored_of_ne hne]
    simp [new, listSnapshots, hne]

lemma sound_migrated [Preorder β] {reading : Reading B β} (hss : ss.Perm (source.listSnapshots ns))
    (hhonest : HonestSnapshots reading source ns) (haligned : Aligned source ns)
    (h : Migrated ns v (source.mutations ns) (restored ns ss new).snapshots target) :
    Sound memory reading (fun _ => True) ⟨target, renumbered ns v 1 (source.mutations ns)⟩ := by
  refine ⟨trivial, fun ns' => ⟨?_, ?_, ?_, ?_⟩⟩
  · rintro _ ⟨m, hm, -, rfl⟩
    rw [← h.ops] at hm
    exact target.seq_lt m hm
  · rintro _ ⟨m, hm, rfl⟩
    obtain ⟨hops, hmns⟩ := mem_mutations.1 hm
    exact ⟨m, h.ops ▸ hops, hmns, rfl⟩
  · rintro _ ⟨m, hm, hmns, rfl⟩
    exact .inl ⟨m, mem_mutations.2 ⟨h.ops.symm ▸ hm, hmns⟩, rfl⟩
  · rintro _ ⟨t, ht, rfl⟩
    obtain ⟨rfl, hmem⟩ := (mem_listSnapshots_migrated hss h).1 ht
    obtain ⟨hle, hfall⟩ := haligned t hmem
    refine ⟨?_, ?_⟩
    · change t.sequence < target.nextSeq
      rw [h.nextSeq]
      exact Nat.lt_succ_of_le hle
    · rintro _ ⟨m, hm, -, rfl⟩ ⟨hkey, hseq⟩
      obtain ⟨a, ha, rfl⟩ := mem_renumbered hm
      have hsource : a.1 ∈ source.mutations ns' := fst_mem_of_mem_zipIdx ha
      exact hhonest t hmem a.1 hsource hkey (hfall a ha hkey hseq)

end kept

/-! ## After the migration -/

inductive TargetEvent (B : Type) where
  | push («namespace» : String) (mutations : List (EncryptedMutation B))
  | compactOplog («namespace» : String)

def TargetEvent.call : TargetEvent B → CoordinatorEvent B × Unit
  | push ns ms => (.push ns ms, ())
  | compactOplog ns => (.compactOplog ns, ())

section later

open Retention

variable {β : Type}

def later (target : InMemoryStore B) (events : List (TargetEvent B)) :
    Ledger B (InMemoryCoordinator B) :=
  run memory ⟨target.log, []⟩ (events.map TargetEvent.call)

lemma listSnapshots_later (events : List (TargetEvent B)) (l : Ledger B (InMemoryCoordinator B)) :
    (run memory l (events.map TargetEvent.call)).state.listSnapshots ns = l.state.listSnapshots ns := by
  induction events generalizing l with
  | nil => rfl
  | cons e events ih =>
    refine (ih _).trans ?_
    cases e with
    | push ns' ms => exact (l.state.extends_push ns' ms).listSnapshots
    | compactOplog ns' => rfl

variable {reading : Reading B β}

lemma along_honest_later [LE β] (events : List (TargetEvent B))
    (l : Ledger B (InMemoryCoordinator B)) :
    Along memory (Honest reading) l (events.map TargetEvent.call) := by
  induction events generalizing l with
  | nil => trivial
  | cons e events ih =>
    refine ⟨?_, ih _⟩
    cases e <;> trivial

variable [SemilatticeSup β] [OrderBot β]

/-- Snapshot and log of the target hold what those of the source hold, and what was pushed later. -/
def Preserves (reading : Reading B β) (source : InMemoryCoordinator B) (ns : String)
    (l : Ledger B (InMemoryCoordinator B)) : Prop :=
  ∀ k limit, (l.state.mutations ns).length ≤ limit →
    snapshotJoin reading k (source.listSnapshots ns) ⊔ mutationJoin reading k (source.mutations ns) ⊔
        mutationJoin reading k (l.pushed.filter fun m => m.namespace = ns) ≤
      snapshotJoin reading k (l.state.listSnapshots ns) ⊔
        mutationJoin reading k (l.state.pull ns 0 limit)

lemma preserves_of_sound {source target : InMemoryCoordinator B}
    {l : Ledger B (InMemoryCoordinator B)} {ss : List (Snapshot B)}
    (h : Sound memory reading (fun _ => True)
      ⟨l.state, renumbered ns v 1 (source.mutations ns) ++ l.pushed⟩)
    (hsnaps : l.state.listSnapshots ns = target.listSnapshots ns)
    (hm : Migrated ns v (source.mutations ns) (restored ns ss new).snapshots target)
    (hss : ss.Perm (source.listSnapshots ns)) : Preserves reading source ns l := by
  intro k limit hlen
  have hpushed := joinAt_le_iff.1 (h.pushed_le ns k)
  rw [pull_memory hlen]
  refine sup_le (sup_le ?_ ?_) ?_
  · -- the snapshots are the source's
    refine joinAt_le_iff.2 fun s hs hkey => (le_snapshotJoin ?_ hkey).trans le_sup_left
    rw [hsnaps]
    exact (mem_listSnapshots_migrated hss hm).2 ⟨rfl, hs⟩
  · refine joinAt_le_iff.2 fun m hmem hkey => ?_
    obtain ⟨seq, hseq⟩ := pending_mem_renumbered ns v 1 hmem
    exact hpushed (pending ns seq (migrated v m))
      (mem_filter.2 ⟨mem_append_left _ hseq, decide_eq_true rfl⟩) hkey
  · refine joinAt_le_iff.2 fun m hmem hkey => ?_
    obtain ⟨hmem, hns⟩ := mem_filter.1 hmem
    exact hpushed m (mem_filter.2 ⟨mem_append_right _ hmem, hns⟩) hkey

/-! ## The whole migration -/

section whole

variable (reading : Reading B β) {before : List (CoordinatorEvent B)} {registry : ReplicaRegistry B}
  {ns : String} {chunkSize fuel : ℕ} {source : InMemoryStore B}
  (hsource : source = ⟨((PushRetries.Ledger.new : PushRetries.Ledger B).run before).coordinator,
    registry⟩) (replicas : Listing (source.registry.listReplicas ns))
  (snapshots : Listing (source.log.listSnapshots ns)) (hchunk : 0 < chunkSize)
  (hseq : source.log.nextSeq < 2 ^ 64) (hfuel : (source.log.mutations ns).length < fuel)

include hsource hchunk hseq hfuel

lemma migrate_eq_some :
    ∃ log registry', migrate source ⟨.new, .new⟩ ns chunkSize fuel replicas snapshots =
        some ((source.log.mutations ns).length, ⟨log, registry'⟩) ∧
      Migrated ns (source.registry.schemaVersions ns) (source.log.mutations ns)
        (restored ns snapshots.1 new).snapshots log ∧
      (0 :: progress source.log ns chunkSize fuel 0 0).IsChain (· < ·) ∧
      (progress source.log ns chunkSize fuel 0 0).getLastD 0 = (source.log.mutations ns).length := by
  have hids : ((source.log.mutations ns).map PendingMutation.id).Nodup := by
    rw [hsource]
    exact (PushRetries.Ledger.distinct_run_iff PushRetries.Ledger.inv_new before).1.ids ns
  have hempty : Migrated ns (source.registry.schemaVersions ns) []
      (restored ns snapshots.1 new).snapshots (restored ns snapshots.1 new) :=
    ⟨(restored_ops _ _).1, (restored_ops _ _).2, rfl⟩
  obtain ⟨log, heq, h⟩ := migrateMutations_eq_some hchunk hseq hids (nil_append _).symm hfuel
    hempty 0
  rw [Nat.zero_add, reached, PagedLog.cursor_nil] at h heq
  refine ⟨log, replicas.1.foldl (migrateReplica source.registry ns) ReplicaRegistry.new, ?_, h⟩
  rw [migrate, heq]
  rfl

variable (before registry ns chunkSize fuel source)

/-- **Chunks.** Whatever the size of the chunks, the migration ends with all mutations of the
namespace copied in their order, and its progress grows up to their number. -/
theorem migrate_chunk_independent :
    ∃ target, migrate source ⟨.new, .new⟩ ns chunkSize fuel replicas snapshots =
        some ((source.log.mutations ns).length, target) ∧
      (∀ limit, (source.log.mutations ns).length ≤ limit →
        (target.log.pull ns 0 limit).map copied = (source.log.mutations ns).map copied) ∧
      (progress source.log ns chunkSize fuel 0 0).Pairwise (· < ·) ∧
      (0 < (source.log.mutations ns).length → (progress source.log ns chunkSize fuel 0 0).getLast? =
        some (source.log.mutations ns).length) := by
  obtain ⟨log, registry', heq, hlog, hchain, hend⟩ := migrate_eq_some hsource replicas snapshots
    hchunk hseq hfuel
  refine ⟨⟨log, registry'⟩, heq, fun limit hlimit => ?_, ?_, fun hpos => ?_⟩
  · have hlen : (log.mutations ns).length = (source.log.mutations ns).length := by
      simpa using congrArg List.length hlog.map_copied
    rw [Retention.pull_memory (hlen.trans_le hlimit), hlog.map_copied]
  · exact (isChain_iff_pairwise.1 hchain).of_cons
  · cases hlast : (progress source.log ns chunkSize fuel 0 0).getLast? with
    | none => simp_all
    | some last => simp_all [getLastD_eq_getLast?]

/-- A migration in non-empty chunks into a new coordinator ends, with all mutations migrated. If the
new numbers agree with the snapshots, then nothing is lost at the target, whatever is pushed there
later, with ids that identify mutations, and compacted. -/
theorem preserves_migrate
    (hhonest : HonestSnapshots reading source.log ns) (haligned : Aligned source.log ns) :
    ∃ target, migrate source ⟨.new, .new⟩ ns chunkSize fuel replicas snapshots =
        some ((source.log.mutations ns).length, target) ∧
      ∀ events, Along memory (InOrder memory) ⟨target.log, []⟩ (events.map TargetEvent.call) →
        Preserves reading source.log ns (later target events) := by
  obtain ⟨log, registry', heq, hlog, -⟩ := migrate_eq_some hsource replicas snapshots hchunk hseq hfuel
  refine ⟨⟨log, registry'⟩, heq, fun events hok => ?_⟩
  have hsound := (sound_migrated snapshots.2 hhonest haligned hlog).run lawful_memory
    (along_honest_later events _) ((along_inOrder_before memory log _).2 hok)
  rw [run_before] at hsound
  exact preserves_of_sound hsound (listSnapshots_later events ⟨log, []⟩) hlog snapshots.2

end whole

instance (source : InMemoryCoordinator B) (ns : String) : Decidable (Aligned source ns) :=
  inferInstanceAs (Decidable (∀ s ∈ source.listSnapshots ns, _ ∧
    ∀ a ∈ (source.mutations ns).zipIdx 1, _ → _ → _))

def sourceAfter (before : List (CoordinatorEvent (Finset ℕ))) : InMemoryStore (Finset ℕ) :=
  ⟨((PushRetries.Ledger.new : PushRetries.Ledger (Finset ℕ)).run before).coordinator, .new⟩

def uncompacted : List (CoordinatorEvent (Finset ℕ)) :=
  [.push "n" [sampleMutation "a" 1, sampleMutation "b" 2],
    .storeSnapshot "n" (sampleSnapshot 1 {1})]

theorem preserves_migrate_uncompacted :
    ∃ target, migrate (sourceAfter uncompacted) ⟨.new, .new⟩ "n" 1 3 ⟨_, .refl _⟩ ⟨_, .refl _⟩ =
        some (2, target) ∧
      ∀ events, Along memory (InOrder memory) ⟨target.log, []⟩ (events.map TargetEvent.call) →
        Preserves sets (sourceAfter uncompacted).log "n" (later target events) :=
  preserves_migrate sets uncompacted .new "n" 1 3 (sourceAfter uncompacted) rfl ⟨_, .refl _⟩
    ⟨_, .refl _⟩ (by decide) (by decide) (by decide) (by decide) (by decide)

theorem migrate_chunk_independent_uncompacted :
    ∃ target, migrate (sourceAfter uncompacted) ⟨.new, .new⟩ "n" 1 3 ⟨_, .refl _⟩ ⟨_, .refl _⟩ =
        some (2, target) ∧
      (target.log.pull "n" 0 2).map copied =
        ((sourceAfter uncompacted).log.mutations "n").map copied := by
  obtain ⟨target, heq, hpull, -⟩ := migrate_chunk_independent uncompacted .new "n" 1 3
    (sourceAfter uncompacted) rfl ⟨_, .refl _⟩ ⟨_, .refl _⟩ (by decide) (by decide) (by decide)
  exact ⟨target, heq, hpull 2 (by decide)⟩

def compacted : List (CoordinatorEvent (Finset ℕ)) :=
  [.push "n" [sampleMutation "a" 1, sampleMutation "b" 2],
    .storeSnapshot "n" (sampleSnapshot 2 {1, 2}), .compactOplog "n"]

/-- The target gives the next mutation the number 1, which is below the snapshot's, and compaction
drops it. -/
theorem migrate_then_lost :
    HonestSnapshots sets (sourceAfter compacted).log "n" ∧
    ∃ target, migrate (sourceAfter compacted) ⟨.new, .new⟩ "n" 10 1 ⟨_, .refl _⟩ ⟨_, .refl _⟩ =
        some (0, target) ∧
      Along memory (InOrder memory) ⟨target.log, []⟩
        ([.push "n" [sampleMutation "c" 3], .compactOplog "n"].map TargetEvent.call) ∧
      ¬ Preserves sets (sourceAfter compacted).log "n"
        (later target [.push "n" [sampleMutation "c" 3], .compactOplog "n"]) := by
  refine ⟨by decide, _, rfl, by decide, fun h => ?_⟩
  have hle := h ⟨"d", "k"⟩ 9 (by decide)
  revert hle
  decide

end later

end CoordinatorMigrationManager

end VaultSync
