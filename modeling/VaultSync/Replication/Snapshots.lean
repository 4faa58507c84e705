import VaultSync.Log.Compaction
import VaultSync.Replication.Convergence
import VaultSync.Sync.Compaction
import VaultSync.Sync.Numbers

/-! Snapshots that replicas make of their documents, and the coordinator's log once it drops
what they stand for. -/

namespace VaultSync

open Async AsyncFn World CompactedLog CompactionEngine List InMemoryCoordinator Sym Net

variable {B ι : Type} {L : Lib B} {cfg : ι → Config} {threshold : ℕ} {ns : String}

def mutationState (L : Lib B) (ns : String) (m : PendingMutation B) : CrdtState :=
  match decryptSymmetric L m.encryptedBlob ns with
  | .ok plain => storedState L (some plain)
  | .error _ => ⊥

def snapshotState (L : Lib B) (s : Snapshot B) : CrdtState := storedState L (some s.bytes)

/-- The network, with every mutation of the namespace that was ever pushed and every snapshot
that `run_snapshot_compaction` returned. -/
structure Hub (ι B : Type) where
  net : Net ι B
  history : List (PendingMutation B)
  produced : List (Snapshot B)

def madeSnapshots : Except VaultSyncError (CompactionStats × List (Snapshot B)) → List (Snapshot B)
  | .ok (_, snapshots) => snapshots
  | .error _ => []

namespace Hub

def setLog (s : Hub ι B) (log : InMemoryCoordinator B) : Hub ι B :=
  { s with net := { s.net with service := { s.net.service with log := log } } }

variable [DecidableEq ι] [DecidableEq B]

/-- Any call of a replica; a compaction run at a replica; the upload of a snapshot that one of
them returned; and the coordinator's own compaction. -/
inductive Step (L : Lib B) (cfg : ι → Config) (threshold : ℕ) (ns : String)
    (maySnapshot : World B → Prop) (mayStore : InMemoryCoordinator B → Snapshot B → Prop) :
    Hub ι B → Hub ι B → Prop
  | call {s : Hub ι B} {net : Net ι B} : Net.Step L cfg (fun _ _ _ => True) s.net net →
      Step L cfg threshold ns maySnapshot mayStore s
        ⟨net, s.history ++ net.service.log.mutations ns, s.produced⟩
  | snapshot {s : Hub ι B} {i : ι} {r : Except VaultSyncError (CompactionStats × List (Snapshot B))}
      {w : World B} : maySnapshot (s.net.world i) →
      Outcome (machine 0 (s.net.Fresh L)) (runSnapshotCompaction L threshold ns) (s.net.world i) r w →
      Step L cfg threshold ns maySnapshot mayStore s
        ⟨s.net.after i w [], s.history, s.produced ++ madeSnapshots r⟩
  | store {s : Hub ι B} {snap : Snapshot B} : snap ∈ s.produced →
      mayStore s.net.service.log snap →
      Step L cfg threshold ns maySnapshot mayStore s
        (s.setLog (s.net.service.log.storeSnapshot ns snap))
  | compact {s : Hub ι B} : Step L cfg threshold ns maySnapshot mayStore s
      (s.setLog (s.net.service.log.compactOplog ns))

def Reachable (L : Lib B) (cfg : ι → Config) (threshold : ℕ) (ns : String)
    (maySnapshot : World B → Prop) (mayStore : InMemoryCoordinator B → Snapshot B → Prop) :
    Hub ι B → Hub ι B → Prop :=
  Relation.ReflTransGen (Step L cfg threshold ns maySnapshot mayStore)

omit [DecidableEq ι] [DecidableEq B]

def pushedState (L : Lib B) (ns : String) (s : Hub ι B) (k : Key) : CrdtState :=
  CrdtState.joinAll ((s.history.filter fun m => m.key = k).map (mutationState L ns))

def retainedState (L : Lib B) (ns : String) (s : Hub ι B) (k : Key) : CrdtState :=
  CrdtState.joinAll (((s.net.service.log.listSnapshots ns).filter fun t => t.key = k).map
    (snapshotState L)) ⊔
  CrdtState.joinAll (((s.net.service.log.mutations ns).filter fun m => m.key = k).map
    (mutationState L ns))

end Hub

/-- A record that is due for a snapshot contains the stored snapshot and what the log has of it,
up to the largest sequence of the replica's own synced entries. -/
def UpToDate (L : Lib B) (threshold : ℕ) (ns : String) (w : World B) : Prop :=
  ∀ k, threshold < (w.storage.readSyncedOplogForDocument ns k).length →
    (∀ m ∈ w.service.log.mutations ns, m.key = k →
      m.sequence ≤ maxSequence (w.storage.readSyncedOplogForDocument ns k) →
      mutationState L ns m ≤ docState L w k) ∧
    ∀ t ∈ w.service.log.listSnapshots ns, t.key = k → snapshotState L t ≤ docState L w k

def NotOlder (ns : String) (log : InMemoryCoordinator B) (s : Snapshot B) : Prop :=
  ∀ t ∈ log.listSnapshots ns, t.key = s.key → t.sequence ≤ s.sequence

/-! ## As a compacted log -/

def mutationItem (L : Lib B) (ns : String) (m : PendingMutation B) : Item Key CrdtState :=
  ⟨m.key, m.sequence, mutationState L ns m⟩

def snapshotItem (L : Lib B) (s : Snapshot B) : Item Key CrdtState :=
  ⟨s.key, s.sequence, snapshotState L s⟩

namespace Hub

variable {s : Hub ι B}

def archive (L : Lib B) (ns : String) (s : Hub ι B) : Archive Key CrdtState where
  history := { x | ∃ m ∈ s.history, mutationItem L ns m = x }
  log := { x | ∃ m ∈ s.net.service.log.mutations ns, mutationItem L ns m = x }
  snaps := { x | ∃ t ∈ s.net.service.log.listSnapshots ns, snapshotItem L t = x }
  next := s.net.service.log.nextSeq

structure Preserved (L : Lib B) (ns : String) (s : Hub ι B) : Prop where
  subset : ∀ m ∈ s.net.service.log.mutations ns, m ∈ s.history
  sound : (s.archive L ns).Sound
  produced : ∀ t ∈ s.produced, (s.archive L ns).Complete (snapshotItem L t)
  sequences : ∀ i, ∀ e ∈ (s.net.nodes i).storage.oplog, ∀ q, e.sequence = some q →
    q < s.net.service.log.nextSeq

structure Start (ns : String) (s : Hub ι B) : Prop where
  mutations : s.net.service.log.mutations ns = []
  snapshots : s.net.service.log.listSnapshots ns = []
  oplog : ∀ i, (s.net.nodes i).storage.oplog = []
  history : s.history = []
  produced : s.produced = []

lemma Start.preserved (h : Start ns s) : Preserved L ns s := by
  have hhistory : ∀ x, x ∉ (s.archive L ns).history := by
    rintro x ⟨m, hm, -⟩
    rw [h.history] at hm
    exact nomatch hm
  have hlog : ∀ m, m ∉ s.net.service.log.mutations ns := by
    intro m hm
    rw [h.mutations] at hm
    exact nomatch hm
  refine ⟨fun m hm => absurd hm (hlog m), ⟨?_, ?_, ?_, ?_⟩, ?_, ?_⟩
  · exact fun x hx => absurd hx (hhistory x)
  · rintro x ⟨m, hm, -⟩
    exact absurd hm (hlog m)
  · exact fun x hx => absurd hx (hhistory x)
  · rintro x ⟨t, ht, -⟩
    rw [h.snapshots] at ht
    exact nomatch ht
  · intro t ht
    rw [h.produced] at ht
    exact nomatch ht
  · intro i e he
    rw [h.oplog] at he
    exact nomatch he

/-! ## Steps -/

lemma Preserved.appends (h : Preserved L ns s) (net : Net ι B)
    (hlog : s.net.service.log.Extends net.service.log) :
    Archive.Appends (s.archive L ns)
      (archive L ns ⟨net, s.history ++ net.service.log.mutations ns, s.produced⟩) where
  history := by
    rintro _ ⟨m, hm, rfl⟩
    rcases mem_append.1 hm with hold | hnow
    · exact .inl ⟨m, hold, rfl⟩
    · obtain ⟨hops, hns⟩ := mem_mutations.1 hnow
      by_cases hlt : m.sequence < s.net.service.log.nextSeq
      · have hmem := mem_mutations.2 ⟨hlog.mem_of_lt m hops hlt, hns⟩
        exact .inl ⟨m, h.subset m hmem, rfl⟩
      · exact .inr ⟨not_lt.1 hlt, m, hnow, rfl⟩
  lt := by
    rintro _ ⟨m, hm, rfl⟩
    rcases mem_append.1 hm with hold | hnow
    · exact (h.sound.lt _ ⟨m, hold, rfl⟩).trans_le hlog.nextSeq
    · exact net.service.log.seq_lt m (mem_mutations.1 hnow).1
  log_subset := by
    rintro _ ⟨m, hm, rfl⟩
    exact ⟨m, mem_append_right _ hm, rfl⟩
  log := by
    rintro _ ⟨m, hm, rfl⟩
    exact ⟨m, hlog.mutations hm, rfl⟩
  snaps := by
    unfold archive
    rw [hlog.listSnapshots]
  next := hlog.nextSeq

lemma stores_storeSnapshot (snap : Snapshot B) :
    Archive.Stores (snapshotItem L snap) (s.archive L ns)
      ((s.setLog (s.net.service.log.storeSnapshot ns snap)).archive L ns) where
  history := rfl
  log := rfl
  stored := ⟨snap, mem_listSnapshots_storeSnapshot.2 (.inl rfl), rfl⟩
  snaps := by
    rintro _ ⟨t, ht, rfl⟩
    rcases mem_listSnapshots_storeSnapshot.1 ht with rfl | ⟨hold, -⟩
    · exact .inl rfl
    · exact .inr ⟨t, hold, rfl⟩
  others := by
    rintro _ ⟨t, ht, rfl⟩ hne
    exact ⟨t, mem_listSnapshots_storeSnapshot.2 (.inr ⟨ht, hne⟩), rfl⟩
  next := rfl

lemma compacts_compactOplog :
    Archive.Compacts (s.archive L ns)
      ((s.setLog (s.net.service.log.compactOplog ns)).archive L ns) where
  history := rfl
  log_subset := by
    rintro _ ⟨m, hm, rfl⟩
    exact ⟨m, (mem_mutations_compactOplog.1 hm).1, rfl⟩
  log := by
    rintro _ ⟨m, hm, rfl⟩
    by_cases hcov : ∃ t ∈ s.net.service.log.listSnapshots ns, covered ns m t
    · obtain ⟨t, ht, -, hkey, hseq⟩ := hcov
      exact .inr ⟨snapshotItem L t, ⟨t, ht, rfl⟩, hkey, hseq⟩
    · exact .inl ⟨m, mem_mutations_compactOplog.2 ⟨hm, hcov⟩, rfl⟩
  snaps := rfl
  next := rfl

variable [DecidableEq ι]

lemma sequences_after {net : Net ι B} {i : ι} {w : World B} {ms : List (PendingMutation B)}
    {next : ℕ} (hold : ∀ j, ∀ e ∈ (net.nodes j).storage.oplog, ∀ q, e.sequence = some q → q < next)
    (hnew : ∀ e ∈ w.storage.oplog, ∀ q, e.sequence = some q →
      (∃ e0 ∈ (net.nodes i).storage.oplog, e0.sequence = some q) ∨ q < next) (j : ι) :
    ∀ e ∈ ((net.after i w ms).nodes j).storage.oplog, ∀ q, e.sequence = some q → q < next := by
  intro e he q hq
  by_cases hj : j = i
  · subst hj
    rw [after_node_self] at he
    rcases hnew e he q hq with ⟨e0, he0, hq0⟩ | hlt
    · exact hold j e0 he0 q hq0
    · exact hlt
  · rw [after_node_of_ne hj] at he
    exact hold j e he q hq

end Hub

namespace Action

variable [DecidableEq B] {n : ℕ} {A : Call B → Env B → World B → Prop} {w : World B}

lemma quiet_prog {cfg : Config} {a : Action B} (h : a ≠ .upload) :
    (a.prog L cfg).Only Call.Quiet := by
  cases a with
  | insert k fields => exact (VaultSyncClient.quiet_insert k fields).bind fun _ => trivial
  | update k fields => exact (VaultSyncClient.quiet_update k fields).bind fun _ => trivial
  | delete k => exact (VaultSyncClient.quiet_delete k).bind fun _ => trivial
  | upload => exact absurd rfl h
  | download => exact DownloadQueue.quiet_processBatch
  | pushed m => exact (DownloadQueue.quiet_processPushMutation m).bind fun _ => trivial

lemma wp_numbers {cfg : Config} (a : Action B) :
    wp (machine n A) (fun _ w' => w.service.log.Extends w'.service.log ∧
      ∀ e ∈ w'.storage.oplog, ∀ q, e.sequence = some q →
        (∃ e0 ∈ w.storage.oplog, e0.sequence = some q) ∨ q < w'.service.log.nextSeq)
      (a.prog L cfg) w := by
  by_cases ha : a = .upload
  · subst ha
    exact (UploadQueue.wp_processBatch w).mono fun r w' h => ⟨h.log, h.sequences⟩
  · refine (wp_sameNumbers (quiet_prog ha) w).mono fun r w' h => ⟨?_, fun e he q hq => ?_⟩
    · rw [h.service]
      exact .refl _
    · exact .inl (h.sequences e he q hq)

end Action

namespace Hub

variable [DecidableEq ι] [DecidableEq B] {s s' : Hub ι B}

section

variable (h : Preserved L ns s)

include h

lemma Preserved.call {net : Net ι B} (hstep : Net.Step L cfg (fun _ _ _ => True) s.net net) :
    Preserved L ns ⟨net, s.history ++ net.service.log.mutations ns, s.produced⟩ := by
  obtain ⟨-, -, hout⟩ := hstep
  rename_i i a r w
  obtain ⟨hlog, hseqs⟩ := wp_iff_outcome.1 (Action.wp_numbers a) r w hout
  have happ := h.appends (s.net.after i w (a.handed (cfg i) (s.net.world i) r)) hlog
  refine ⟨fun m hm => mem_append_right _ hm, h.sound.appends happ,
    fun t ht => (h.produced t ht).appends happ, ?_⟩
  exact sequences_after (fun j e he q hq => (h.sequences j e he q hq).trans_le hlog.nextSeq) hseqs

omit [DecidableEq ι] [DecidableEq B] in
lemma Preserved.complete_of_madeOf {i : ι} {snap : Snapshot B}
    (hup : UpToDate L threshold ns (s.net.world i))
    (hmade : MadeOf L threshold ns (s.net.world i) snap) :
    (s.archive L ns).Complete (snapshotItem L snap) := by
  obtain ⟨hlog, hsnaps⟩ := hup snap.key hmade.above
  refine h.sound.complete_of_contains ?_ ?_ ?_
  · -- the sequence is that of a synced entry, or 0
    change snap.sequence < s.net.service.log.nextSeq
    rw [hmade.sequence, CompactionEngine.maxSequence]
    cases hmax : (((s.net.world i).storage.readSyncedOplogForDocument ns snap.key).filterMap
        OplogEntry.sequence).max? with
    | none => exact s.net.service.log.nextSeq_pos
    | some q =>
      obtain ⟨e, he, hq⟩ := mem_filterMap.1 (List.max?_mem hmax)
      exact h.sequences i e (mem_of_mem_filter he) q hq
  · rintro _ ⟨m, hm, rfl⟩ ⟨hkey, hseq⟩
    exact (hlog m hm hkey (hseq.trans_eq hmade.sequence)).trans_eq hmade.state.symm
  · rintro _ ⟨t, ht, rfl⟩ hkey
    exact (hsnaps t ht hkey).trans_eq hmade.state.symm

lemma Preserved.step
    (hstep : Step L cfg threshold ns (UpToDate L threshold ns) (NotOlder ns) s s') :
    Preserved L ns s' := by
  cases hstep with
  | call hcall => exact h.call hcall
  | @snapshot i r w hup hout =>
    obtain ⟨⟨hkept, -⟩, hmade⟩ :=
      wp_iff_outcome.1 (wp_runSnapshotCompaction (P := fun _ => True) _) r w hout
    have hservice : (s.net.after i w []).service = s.net.service := hkept.beside.1
    have harchive : archive L ns ⟨s.net.after i w [], s.history, s.produced ++ madeSnapshots r⟩ =
        s.archive L ns := by
      unfold archive
      rw [hservice]
    refine ⟨?_, ?_, fun t ht => ?_, ?_⟩
    · rw [hservice]
      exact h.subset
    · rw [harchive]
      exact h.sound
    · rw [harchive]
      rcases mem_append.1 ht with hold | hnew
      · exact h.produced t hold
      · cases r with
        | error err => cases hnew
        | ok made => exact h.complete_of_madeOf hup (hmade made.1 made.2 rfl t hnew)
    · rw [hservice]
      exact sequences_after h.sequences fun e he q hq => .inl ⟨e, hkept.inOrder.subset he, hq⟩
  | @store snap hsnap hnotOlder =>
    refine ⟨h.subset, ?_, fun t ht => (h.produced t ht).congr rfl rfl, h.sequences⟩
    refine h.sound.stores (stores_storeSnapshot snap) (h.produced snap hsnap) ?_
    rintro _ ⟨t, ht, rfl⟩ hkey
    exact hnotOlder t ht hkey
  | compact =>
    refine ⟨fun m hm => ?_, h.sound.compacts compacts_compactOplog,
      fun t ht => (h.produced t ht).congr rfl rfl, h.sequences⟩
    exact h.subset m (mem_mutations_compactOplog.1 hm).1

lemma Preserved.run
    (hrun : Reachable L cfg threshold ns (UpToDate L threshold ns) (NotOlder ns) s s') :
    Preserved L ns s' := by
  induction hrun with
  | refl => exact h
  | tail _ hstep ih => exact ih.step hstep

omit [DecidableEq ι] [DecidableEq B] in
lemma Preserved.pushed_le (k : Key) : s.pushedState L ns k ≤ s.retainedState L ns k := by
  refine CrdtState.joinAll_le fun u hu => ?_
  obtain ⟨m, hm, rfl⟩ := mem_map.1 hu
  obtain ⟨hmem, hkey⟩ := mem_filter.1 hm
  refine h.sound.content_le (k := k) ?_ ?_ ⟨m, hmem, rfl⟩ (decide_eq_true_iff.1 hkey)
  · rintro _ ⟨p, hp, rfl⟩ hpk
    have hin : p ∈ (s.net.service.log.mutations ns).filter fun m => m.key = k :=
      mem_filter.2 ⟨hp, decide_eq_true hpk⟩
    exact (CrdtState.le_joinAll (mem_map_of_mem hin)).trans le_sup_right
  · rintro _ ⟨t, ht, rfl⟩ htk
    have hin : t ∈ (s.net.service.log.listSnapshots ns).filter fun t => t.key = k :=
      mem_filter.2 ⟨ht, decide_eq_true htk⟩
    exact (CrdtState.le_joinAll (mem_map_of_mem hin)).trans le_sup_left

end

/-- **Compaction loses nothing** as long as snapshots are made by replicas that are up to date
and are never replaced by older ones. -/
theorem nothing_lost (hstart : Start ns s)
    (hrun : Reachable L cfg threshold ns (UpToDate L threshold ns) (NotOlder ns) s s') (k : Key) :
    s'.pushedState L ns k ≤ s'.retainedState L ns k := by
  have h : Preserved L ns s := hstart.preserved
  exact (h.run hrun).pushed_le k

/-! ## Two replicas -/

def exec (L : Lib B) (cfg : ι → Config) (ns : String) (s : Hub ι B) (i : ι) (a : Action B)
    (es : List (Env B)) : Hub ι B :=
  ⟨s.net.exec L cfg i a es, s.history ++ (s.net.exec L cfg i a es).service.log.mutations ns,
    s.produced⟩

def drawing (c : ClientId) (id : String) : List (Env Sym) :=
  List.replicate 20 { (default : Env Sym) with clientId := c, uuid := id, now := 1 }

variable (s : Hub Bool Sym)

def wrote (i : Bool) (c : ClientId) (id : String) : Hub Bool Sym :=
  s.exec lib pairConfig "ns" i create (drawing c id)

def uploaded (i : Bool) (c : ClientId) (id : String) : Hub Bool Sym :=
  (s.wrote i c id).exec lib pairConfig "ns" i .upload []

def snapshotted : Hub Bool Sym :=
  let o := run (machine 0 (s.net.Fresh lib)) (runSnapshotCompaction lib 0 "ns")
    (drawing 5 "") (s.net.world true)
  ⟨s.net.after true o.2 [], s.history, s.produced ++ madeSnapshots o.1⟩

def stored : Hub Bool Sym :=
  s.setLog (s.net.service.log.storeSnapshot "ns" (s.produced.getLastD ⟨"", "", 0, 0, 0, .empty⟩))

def compacted : Hub Bool Sym :=
  s.setLog (s.net.service.log.compactOplog "ns")

def empty : Hub Bool Sym := ⟨pair none, [], []⟩

lemma empty_start : Start "ns" empty := ⟨rfl, rfl, fun _ => rfl, rfl, rfl⟩

section Runs

variable {s₀ s : Hub Bool Sym} {maySnapshot : World Sym → Prop}
  {mayStore : InMemoryCoordinator Sym → Snapshot Sym → Prop}
  (hrun : Reachable lib pairConfig 0 "ns" maySnapshot mayStore s₀ s)

include hrun

lemma reachable_uploaded {i : Bool} {c : ClientId} {id : String} (hc : s.net.NewClient lib c)
    (hid : s.net.NewId id)
    (hes : Allowed (machine 0 ((s.wrote i c id).net.Fresh lib))
      (Action.prog lib (pairConfig i) .upload) [] ((s.wrote i c id).net.world i)) :
    Reachable lib pairConfig 0 "ns" maySnapshot mayStore s₀ (s.uploaded i c id) := by
  have hwrote : Step lib pairConfig 0 "ns" maySnapshot mayStore s (s.wrote i c id) := by
    refine .call (step_exec trivial trivial ?_)
    refine And.intro hid (And.intro hc ?_)
    cases i <;>
      exact And.intro trivial (And.intro trivial (And.intro trivial (And.intro trivial trivial)))
  exact (hrun.tail hwrote).tail (.call (step_exec trivial trivial hes))

lemma reachable_compacted (hmay : maySnapshot (s.net.world true))
    (hes : Allowed (machine 0 (s.net.Fresh lib)) (runSnapshotCompaction lib 0 "ns")
      (drawing 5 "") (s.net.world true)) (hsome : s.snapshotted.produced ≠ [])
    (hstore : mayStore s.snapshotted.net.service.log
      (s.snapshotted.produced.getLastD ⟨"", "", 0, 0, 0, .empty⟩)) :
    Reachable lib pairConfig 0 "ns" maySnapshot mayStore s₀ s.snapshotted.stored.compacted := by
  refine ((hrun.tail (.snapshot hmay hes.outcome)).tail (.store ?_ hstore)).tail .compact
  change s.snapshotted.produced.getLastD _ ∈ s.snapshotted.produced
  rw [getLastD_eq_getLast?, List.getLast?_eq_some_getLast hsome]
  exact getLast_mem hsome

end Runs

lemma newClient_once (i : Bool) {c : ClientId} (hc : c = 5 ∨ c = 9) :
    (uploaded empty i 7 "1").net.NewClient lib c := by
  refine newClient_of_written (fun j => ?_) ?_ ?_
  · cases i <;> cases j
    case false.true | true.false => exact ⟨[none], rfl⟩
    all_goals exact ⟨[none, _], rfl⟩
  all_goals rcases hc with rfl | rfl <;> cases i <;> decide

theorem alone_kept :
    let s' := compacted (stored (snapshotted (uploaded empty true 7 "1")))
    s'.net.service.log.mutations "ns" = [] ∧
      s'.pushedState lib "ns" ⟨"d", "x"⟩ ≤ s'.retainedState lib "ns" ⟨"d", "x"⟩ := by
  have hup : UpToDate lib 0 "ns" ((uploaded empty true 7 "1").net.world true) := by
    intro k hk
    obtain ⟨e, he⟩ := exists_mem_of_length_pos hk
    obtain ⟨hmem, hfilter⟩ := mem_filter.1 he
    obtain ⟨-, rfl, -⟩ := decide_eq_true_iff.1 hfilter
    rcases mem_singleton.1 hmem with rfl
    refine ⟨fun m hm _ _ => ?_, fun t ht => (by cases ht)⟩
    rcases mem_singleton.1 hm with rfl
    decide
  have hclient := newClient_once true (.inl rfl)
  have hupload : Reachable lib pairConfig 0 "ns" (UpToDate lib 0 "ns") (NotOlder "ns") empty
      (uploaded empty true 7 "1") :=
    reachable_uploaded .refl (newClient_pair (by decide)) (newId_pair none "1")
      (by repeat (first | exact trivial | refine And.intro trivial ?_))
  refine ⟨by decide, nothing_lost empty_start (reachable_compacted hupload hup ?_ nofun ?_) _⟩
  · repeat (first | exact trivial | refine And.intro hclient ?_ | refine And.intro trivial ?_)
  · exact fun t ht => (by cases ht)

/-- `b` uploads record `x` as number 1; `a`, which never downloaded it, uploads its own as number
2 and makes a snapshot numbered 2. The compaction drops both. -/
theorem unseen_mutation_lost :
    let s' := compacted (stored (snapshotted (uploaded (uploaded empty false 7 "1") true 9 "2")))
    Start "ns" empty ∧
      Reachable lib pairConfig 0 "ns" (fun _ => True) (fun _ _ => True) empty s' ∧
      ¬ s'.pushedState lib "ns" ⟨"d", "x"⟩ ≤ s'.retainedState lib "ns" ⟨"d", "x"⟩ := by
  have hid : (uploaded empty false 7 "1").net.NewId "2" := by
    change ∀ i, ∀ e ∈ _, _
    decide
  have hclient : (uploaded (uploaded empty false 7 "1") true 9 "2").net.NewClient lib 5 :=
    newClient_of_written (fun j => j.rec ⟨[none, _], rfl⟩ ⟨[none, _], rfl⟩) (by decide) (by decide)
  have hfirst : Reachable lib pairConfig 0 "ns" (fun _ => True) (fun _ _ => True) empty
      (uploaded empty false 7 "1") :=
    reachable_uploaded .refl (newClient_pair (by decide)) (newId_pair none "1")
      (by repeat (first | exact trivial | refine And.intro trivial ?_))
  have hboth := reachable_uploaded hfirst (i := true) (newClient_once false (.inr rfl)) hid
    (by repeat (first | exact trivial | refine And.intro trivial ?_))
  refine ⟨empty_start, reachable_compacted hboth trivial ?_ nofun trivial, by decide⟩
  repeat (first | exact trivial | refine And.intro hclient ?_ | refine And.intro trivial ?_)

end Hub

end VaultSync
