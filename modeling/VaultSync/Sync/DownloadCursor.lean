import VaultSync.Async.Interleaving
import VaultSync.Sync.CursorBatch

/-! The download cursor beside pushed mutations. A mutation pushed with a gap before it moves the
cursor past mutations that were never merged; in runs where pushes arrive in order the cursor
stays sound. -/

namespace VaultSync.DownloadQueue

open Async AsyncFn World Sym InMemoryCoordinator

variable {B : Type} {L : Lib B} {cfg : Config} {snaps : List (Snapshot B)} {shared : Prop}
  {n : ℕ} {A : Call B → Env B → World B → Prop} {w w' : World B} {m : PendingMutation B}

/-! ## Pushed mutations -/

/-- The mutation is stored, and where it would move the cursor, every foreign mutation before it
is merged. -/
def Expected (L : Lib B) (cfg : Config) (w : World B) (m : PendingMutation B) : Prop :=
  m ∈ w.service.log.mutations cfg.namespace ∧
    (w.lastSequence < m.sequence →
      ∀ m' ∈ foreignLog cfg w, m'.sequence < m.sequence → Merged L cfg w m')

lemma Expected.mergedUpTo (h : Expected L cfg w m) (hlt : w.lastSequence < m.sequence)
    (he : Evolves L w w') (hm : m.replicaId ≠ cfg.replicaId → Merged L cfg w' m) :
    MergedUpTo L cfg w' m.sequence := by
  have hops := (mem_mutations.1 h.1).1
  have hseq := w.service.log.seq_lt m hops
  refine ⟨hseq.trans_le he.log.nextSeq, fun m' hm' hle => ?_⟩
  have hold := he.mem_foreignLog_of_lt hm' (hle.trans_lt hseq)
  rcases hle.lt_or_eq with hless | heq
  · exact (h.2 hlt m' hold hless).mono he.grows
  · obtain ⟨hmut, hfor⟩ := mem_foreignLog.1 hold
    have hsame := eq_of_sequence_eq
      (mem_mutations.1 hmut).1 hops heq
    rw [hsame] at hfor ⊢
    exact hm hfor

variable [DecidableEq B]

structure Grants (L : Lib B) (cfg : Config) (m : PendingMutation B)
    (A : Call B → Env B → World B → Prop) : Prop where
  expected : ∀ {w e}, A .loadLastSequence e w → Expected L cfg w m
  recognised : ∀ {w env e}, EntryOf L cfg m e → A (.getDocument e.key) env w → Recognised L w e
  drawn : ∀ {w env e u}, EntryOf L cfg m e → A .newClientId env w → L.decodeV1 e.yrsUpdate = .ok u →
    env.clientId ∉ u.stateVector

section

variable (H : Merging L n A (protocol L cfg snaps shared n) (Source L cfg snaps))
  (hsnaps : DistinctIds cfg snaps) (hg : Grants L cfg m A)

include H hsnaps hg

lemma safe_pushForeign {decrypted : B} {cursor : ℕ}
    (hdec : decryptSymmetric L m.encryptedBlob cfg.namespace = .ok decrypted)
    (hi : Sound L cfg snaps shared w) (hexp : Expected L cfg w m)
    (hlt : w.lastSequence < m.sequence) :
    Safe (machine n A) (protocol L cfg snaps shared n) (fun _ _ => True)
      (pushForeign L m decrypted cursor) w := by
  have hof : EntryOf L cfg m (remoteEntry L m decrypted .pushMutation) := ⟨rfl, rfl, hdec⟩
  have hsrc : Source L cfg snaps w (remoteEntry L m decrypted .pushMutation) :=
    .inl ⟨m, hexp.1, hof⟩
  have happly := safe_applyRemoteUpdate H hsrc
    (fun w' hi' hsrc' hseen => hi'.contained_of_seen hsnaps hsrc' hseen)
    (fun w' e _ _ he => hg.recognised hof he) (fun w' e u _ _ he hu => hg.drawn hof he hu)
  refine Safe.bind hi (safe_evolves happly) (fun _ w1 hi1 hpost => ?_) fun _ _ _ _ => trivial
  have hmerged := hexp.mergedUpTo hlt hpost.2 fun _ => hof.merged_iff.2 (hpost.1 rfl)
  refine safe_modify_bind fun w2 hi2 hr2 => ?_
  have hdedup : ∀ c : Client B, (if c.replayMode then
      { c with replayChangedDocs := c.replayChangedDocs.insert m.key } else c).dedup = c.dedup := by
    intro c
    split_ifs <;> rfl
  obtain ⟨hi3, hg3⟩ := H.memory [] hi2 (by simp) (hdedup w2.client)
  refine ⟨hi3, hg3, ?_⟩
  refine safe_moveCursor ((hmerged.mono hr2.1).mono hg3.1) fun w4 => ?_
  refine safe_modify_bind fun w5 hi5 _ => ?_
  obtain ⟨hi6, hg6⟩ := H.memory (c := { w5.client with staleSkipCount := 0 }) [] hi5 (by simp) rfl
  exact ⟨hi6, hg6, safe_done⟩

lemma safe_processPushMutation :
    Safe (machine n A) (protocol L cfg snaps shared n) (fun _ _ => True)
      (processPushMutation L cfg m) w := by
  refine safe_ite (fun hown => ?_) fun _ => ?_
  · refine safe_loadLastSequence fun w1 e1 hi1 _ he1 => ?_
    refine safe_ite (fun hlt => ?_) fun _ => safe_done
    refine safe_moveCursor ?_ fun _ => safe_done
    exact (hg.expected he1).mergedUpTo hlt (.refl w1) fun hfor => absurd hown hfor
  refine safe_ofExcept_bind (fun decrypted hdec => ?_) fun _ _ _ _ _ => trivial
  refine safe_loadLastSequence fun w1 e1 hi1 _ he1 => ?_
  refine safe_ite (fun _ => ?_) fun hlt => ?_
  · refine safe_modify_bind fun w2 hi2 _ => ?_
    obtain ⟨hi3, hg3⟩ := H.memory (c := { w2.client with
      staleSkipCount := (w2.client.staleSkipCount + 1) % 2 ^ 32 }) [] hi2 (by simp) rfl
    exact ⟨hi3, hg3, safe_done⟩
  · exact safe_pushForeign H hsnaps hg hdec hi1 (hg.expected he1) (not_le.1 hlt)

end

/-! ## Any interleaving of pulls and pushes -/

inductive Job (B : Type) where
  | batch
  | pushed (m : PendingMutation B)

structure Task (B : Type) where
  number : ℕ
  job : Job B

def Job.prog (L : Lib B) (cfg : Config) : Job B → AsyncFn B Unit
  | .batch => do
    let _ ← processBatch L cfg
  | .pushed m => do
    let _ ← processPushMutation L cfg m

/-- Calls of the download queue at once, with the environment's choices limited to `A`, while
others push to the coordinator under ids that no snapshot's entry has. -/
def downloads (L : Lib B) (cfg : Config) (A : Task B → Call B → Env B → World B → Prop) :
    System (Calls B) (Client B) VaultSyncError (Env B) (World B) (Task B) Unit where
  machine t := machine t.number (A t)
  prog t := t.job.prog L cfg
  mayStart t ts _ := ∀ u ∈ ts, t.number ≠ u.number
  env w w' := ∃ ns ms, (∀ m ∈ ms, ∀ s : Snapshot B, m.id ≠ (snapshotEntry cfg s).id) ∧
    w' = w.setLog (w.service.log.push ns ms).2

def Tested (L : Lib B) (cfg : Config) (w : World B) (e : OplogEntry B) : Job B → Prop
  | .batch => ∃ s ∈ w.service.log.listSnapshots cfg.namespace, e = snapshotEntry cfg s
  | .pushed m => EntryOf L cfg m e

/-- The runs in which the cursor is sound: documents are written as they were read; a pushed
mutation finds everything foreign before it merged; snapshots cover what they let the cursor
skip; and the redundancy test only stops what is contained. -/
def InOrder (L : Lib B) (cfg : Config) (t : Task B) : Call B → Env B → World B → Prop
  | .insertDocument k _, _, w => w.storage.documents k = w.reads t.number k
  | .writeBatchReconciliation docs, _, w =>
    ∀ p ∈ docs, w.storage.documents p.1 = w.reads t.number p.1
  | .loadLastSequence, _, w => ∀ m, t.job = .pushed m → Expected L cfg w m
  | .listSnapshots _, _, w => Covers L cfg w
  | .getDocument k, _, w => ∀ e, Tested L cfg w e t.job → e.key = k → Recognised L w e
  | .newClientId, env, w => ∀ e u, Tested L cfg w e t.job → L.decodeV1 e.yrsUpdate = .ok u →
    env.clientId ∉ u.stateVector
  | _, _, _ => True

omit [DecidableEq B] in
lemma inOrder_merging (t : Task B) :
    Merging L t.number (InOrder L cfg t) (protocol L cfg snaps shared t.number)
      (Source L cfg snaps) :=
  merging (fun h => h) fun h => h

lemma safe_job (hsnaps : DistinctIds cfg snaps) (t : Task B) (hi : Sound L cfg snaps shared w) :
    Safe (machine t.number (InOrder L cfg t)) (protocol L cfg snaps shared t.number)
      (fun _ _ => True) (t.job.prog L cfg) w := by
  obtain ⟨n, job⟩ := t
  cases job with
  | batch =>
    have hbatch := safe_processBatch (inOrder_merging ⟨n, .batch⟩) hsnaps
      (fun _ => ⟨fun h => h, fun s hs h => h _ ⟨s, hs, rfl⟩ rfl,
        fun s hs h hu => h _ _ ⟨s, hs, rfl⟩ hu⟩) hi
    exact Safe.bind hi hbatch (fun _ _ _ _ => fun _ _ _ => trivial) fun _ _ _ _ => trivial
  | pushed m =>
    have hpush : Safe (machine n (InOrder L cfg ⟨n, .pushed m⟩)) (protocol L cfg snaps shared n)
        (fun _ _ => True) (processPushMutation L cfg m) w :=
      safe_processPushMutation (inOrder_merging ⟨n, .pushed m⟩) hsnaps
        ⟨fun h => h m rfl, fun he h => h _ he rfl, fun he h hu => h _ _ he hu⟩
    exact Safe.bind hi hpush (fun _ _ _ _ => fun _ _ _ => trivial) fun _ _ _ _ => trivial

def downloadsProof (hsnaps : DistinctIds cfg snaps) : (downloads L cfg (InOrder L cfg)).Proof where
  inv := Sound L cfg snaps False
  protocol t := protocol L cfg snaps False t.number
  post _ _ _ := True
  together t u := t.number ≠ u.number
  inv_iff _ _ := Iff.rfl
  env_safe := by
    rintro w _ hi ⟨ns, ms, hids, rfl⟩
    have hlog := w.service.log.extends_push ns ms
    exact ⟨hi.push fun _ m hm s _ => hids m hm s, fun _ => ⟨⟨fun _ => le_rfl, hlog⟩, rfl⟩⟩
  guar_rely t u w w' hne _ _ hg := ⟨hg.1, hg.2 u.number fun h => hne h.symm⟩
  start_together t ts w _ hstart u hu := ⟨hstart u hu, fun h => hstart u hu h.symm⟩
  safe t _ _ hi _ := safe_job hsnaps t hi

/-- **Download cursor.** Whatever pulls, pushes and restored snapshots interleave in order, every
foreign mutation up to the cursor is merged. -/
theorem merged_of_le_lastSequence (L : Lib B) (cfg : Config) (w : World B)
    {p : Pool (Calls B) (Client B) VaultSyncError (World B) (Task B) Unit}
    (hsnaps : DistinctIds cfg (w.service.log.listSnapshots cfg.namespace))
    (h : Sound L cfg (w.service.log.listSnapshots cfg.namespace) False w)
    (hr : (downloads L cfg (InOrder L cfg)).Reachable ⟨[], w⟩ p) :
    ∀ m ∈ foreignLog cfg p.state, m.sequence ≤ p.state.lastSequence → Merged L cfg p.state m :=
  ((downloadsProof hsnaps).inv_of_reachable h hr).cursor.2

/-! ## A gap, and a run without one -/

def twoForeign : World Sym :=
  .new (InMemoryCoordinator.new.push "ns"
    [mutation "1" "b" ⟨{5}, ∅⟩, mutation "2" "b" ⟨{7}, ∅⟩]).2

def secondForeign : PendingMutation Sym :=
  InMemoryCoordinator.pending "ns" 2 (mutation "2" "b" ⟨{7}, ∅⟩)

def afterGap : World Sym :=
  (run (machine 0 fun _ _ _ => True) (Job.prog lib (config 0) (.pushed secondForeign)) []
    twoForeign).2

lemma sound_twoForeign : Sound lib (config 0) [] False twoForeign :=
  sound_of_new (by decide) (by decide) (by simp) rfl rfl rfl False.elim

def afterPull : World Sym :=
  (run (machine 0 (InOrder lib (config 0) ⟨0, .batch⟩))
    (Job.prog lib (config 0) .batch) [] twoForeign).2

lemma allowed_pull : Allowed (machine 0 (InOrder lib (config 0) ⟨0, .batch⟩))
    (Job.prog lib (config 0) .batch) [] twoForeign := by
  have hnone : ∀ (e : OplogEntry Sym) (w : World Sym), w.service.log.listSnapshots "ns" = [] →
      ¬ Tested lib (config 0) w e .batch := by
    rintro e w hw ⟨s, hs, -⟩
    change s ∈ w.service.log.listSnapshots "ns" at hs
    rw [hw] at hs
    cases hs
  -- generation, cursor, page, order of the documents, then the one document
  refine And.intro trivial (And.intro (fun m h => by cases h) ?_)
  refine And.intro trivial (And.intro trivial ?_)
  refine And.intro (fun e h => absurd h (hnone e _ rfl)) ?_
  refine And.intro (fun e u h => absurd h (hnone e _ rfl)) (And.intro (fun p hp => ?_) ?_)
  · rw [List.mem_singleton.1 hp]
    rfl
  · exact And.intro trivial (And.intro trivial trivial)

theorem twoForeign_merged :
    afterPull.lastSequence = 2 ∧ ∀ m ∈ foreignLog (config 0) afterPull,
      m.sequence ≤ afterPull.lastSequence → Merged lib (config 0) afterPull m := by
  have hr : (downloads lib (config 0) (InOrder lib (config 0))).Reachable
      ⟨[], twoForeign⟩ ⟨_, afterPull⟩ :=
    System.reachable_started [] (c := Task.mk 0 .batch) (fun _ hu => by cases hu) allowed_pull.outcome
  have hsnaps : DistinctIds (config 0) (twoForeign.service.log.listSnapshots "ns") :=
    fun s hs => by cases hs
  exact ⟨by decide, merged_of_le_lastSequence lib (config 0) twoForeign hsnaps
    sound_twoForeign hr⟩

abbrev anyDownloads : System (Calls Sym) (Client Sym) VaultSyncError (Env Sym) (World Sym)
    (Task Sym) Unit := downloads lib (config 0) fun _ _ _ _ => True

lemma anyDownloads_started (t : Task Sym) (ts : List (Task Sym × AsyncFn Sym Unit))
    (w : World Sym) (h : ∀ u ∈ ts, t.number ≠ u.1.number) :
    anyDownloads.Reachable ⟨ts, w⟩ ⟨(t, .ofExcept (run (machine t.number fun _ _ _ => True)
      (t.job.prog lib (config 0)) [] w).1) :: ts,
        (run (machine t.number fun _ _ _ => True) (t.job.prog lib (config 0)) [] w).2⟩ := by
  refine System.reachable_started ts (fun u hu => ?_)
    (run_outcome _ [] _ fun _ _ => ⟨trivial, fun _ _ => trivial⟩)
  obtain ⟨v, hv, rfl⟩ := List.mem_map.1 hu
  exact h v hv

/-- The mutation pushed past the gap moves the cursor to 2, and the pull after it starts there:
the first mutation is never merged. -/
theorem gap_never_merged :
    Sound lib (config 0) [] False twoForeign ∧
      ∃ p, anyDownloads.Reachable ⟨[], twoForeign⟩ p ∧
        ∃ m ∈ foreignLog (config 0) p.state, m.sequence ≤ p.state.lastSequence ∧
          ¬ Merged lib (config 0) p.state m := by
  have hpush := anyDownloads_started ⟨0, .pushed secondForeign⟩ [] twoForeign (by simp)
  have hpull := anyDownloads_started ⟨1, .batch⟩ [(⟨0, .pushed secondForeign⟩, .ret ())] afterGap
    (by simp)
  refine ⟨sound_twoForeign, _, hpush.trans hpull,
    InMemoryCoordinator.pending "ns" 1 (mutation "1" "b" ⟨{5}, ∅⟩), ?_, ?_, ?_⟩
  · decide
  · decide
  · rintro ⟨plain, u, hplain, hu, hle⟩
    cases hplain
    cases hu
    revert hle
    decide

end VaultSync.DownloadQueue
