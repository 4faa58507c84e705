import VaultSync.Crdt.Symbolic
import VaultSync.Sync.Download
import VaultSync.Sync.ReconcilerBatch

/-! Catching up by pulls: what one `process_batch` does when no snapshot applies, and what
calling it until it returns `Ok(0)` does. -/

namespace VaultSync.DownloadQueue

open Async AsyncFn World PagedLog PendingMutation

variable {B : Type} {L : Lib B} {cfg : Config}

/-! ## The steps of a batch -/

def IsPulledEntry (L : Lib B) (cfg : Config) (m : PendingMutation B) (e : OplogEntry B) : Prop :=
  ∃ decrypted, decryptSymmetric L m.encryptedBlob cfg.namespace = .ok decrypted ∧
    e = remoteEntry L m decrypted .remotePull

def foreign (cfg : Config) (ms : List (PendingMutation B)) : List (PendingMutation B) :=
  ms.filter fun m => m.replicaId ≠ cfg.replicaId

lemma pulledEntries_ok {ms : List (PendingMutation B)} {es : List (OplogEntry B)}
    (h : pulledEntries L cfg ms = .ok es) :
    List.Forall₂ (IsPulledEntry L cfg) (foreign cfg ms) es := by
  unfold foreign
  induction ms generalizing es with
  | nil => cases h; exact .nil
  | cons m ms ih =>
    unfold pulledEntries at h
    split_ifs at h with hown
    · rw [List.filter_cons_of_neg (by simp [hown])]
      exact ih h
    · rw [List.filter_cons_of_pos (by simp [hown])]
      cases hd : decryptSymmetric L m.encryptedBlob cfg.namespace with
      | error err => rw [hd] at h; cases h
      | ok decrypted =>
        cases hes : pulledEntries L cfg ms with
        | error err => rw [hd, hes] at h; cases h
        | ok es' =>
          rw [hd, hes] at h
          cases h
          exact .cons ⟨decrypted, hd, rfl⟩ (ih hes)

variable [DecidableEq B] {n : ℕ} {A : Call B → Env B → World B → Prop} {w : World B} {β : Type}
  {Q : Except VaultSyncError β → World B → Prop} {f : Unit → AsyncFn B β}

def afterReplay (c : Client B) : Client B := if c.replayMode then c.setReplayMode false else c

omit [DecidableEq B] in
lemma wp_endReplay (h : wp (machine n A) Q (f ()) (w.setClient (afterReplay w.client))) :
    wp (machine n A) Q (endReplay L >>= f) w := by
  unfold afterReplay at h
  rw [endReplay, wp_bind, wp_read, wp_ite]
  refine ⟨fun hreplay => ?_, fun hreplay => ?_⟩
  · rw [if_pos hreplay] at h
    rw [wp_modify_bind, flushReplayNotifications, wp_read, wp_hashOrder]
    intro e _
    have hnil : (e.keyOrder (w.client.setReplayMode false).replayChangedDocs).1 = [] :=
      List.perm_nil.1 (e.keyOrder []).2
    change wp _ _
      ((e.keyOrder (w.client.setReplayMode false).replayChangedDocs).1.forM (fireDoc L) >>= _) _
    rw [hnil]
    exact h
  · rw [if_neg hreplay] at h
    exact h

omit [DecidableEq B] in
lemma wp_advanceCursor {ms : List (PendingMutation B)}
    (hok : wp (machine n A) Q (f ()) (if ms = [] then w else (w.setStoreCursor (cursor sequence w.lastSequence ms)).setLastSequence (cursor sequence w.lastSequence ms)))
    (herr : ∀ seq e err, A (.setCursor seq "download::process_batch") e w → e.cursorFault = some err → Q (.error err) w) :
    wp (machine n A) Q (advanceCursor ms >>= f) w := by
  unfold advanceCursor
  rcases List.eq_nil_or_concat' ms with rfl | ⟨ms, m, rfl⟩
  · simpa using hok
  · simp only [List.getLast?_concat]
    rw [wp_bind, wp_setCursor]
    intro e he
    refine ⟨fun err herr' => herr _ e err he herr', fun _ => ?_⟩
    rw [wp_swapLastSequence]
    intro e' _
    simpa using hok

omit [DecidableEq B] in
lemma wp_checkGeneration (hok : wp (machine n A) Q (f ()) w)
    (herr : ∀ err, Q (.error err) w) : wp (machine n A) Q (checkGeneration cfg >>= f) w := by
  rw [checkGeneration, wp_bind, wp_generationId]
  intro e _
  rw [wp_ite]
  refine ⟨fun _ => hok, fun _ => ?_⟩
  rw [wp_readSyncState]
  exact fun e' _ => ⟨fun err _ => herr err, fun _ => hok⟩

def NoSnapshots (cfg : Config) (w : World B) : Prop :=
  cfg.snapshotThreshold = 0 ∨
    ∀ s ∈ w.service.log.listSnapshots cfg.namespace, s.sequence ≤ w.lastSequence

lemma wp_snapshotCatchUp (hsnap : NoSnapshots cfg w)
    (h : wp (machine n A) Q (f ()) w) : wp (machine n A) Q (snapshotCatchUp L cfg >>= f) w := by
  rw [snapshotCatchUp, wp_bind, wp_ite]
  refine ⟨fun hpos => ?_, fun _ => h⟩
  have hold := hsnap.resolve_left hpos.ne'
  rw [wp_bind, wp_attempt, tryFetchSnapshot, wp_loadLastSequence]
  intro e _
  rw [wp_ite]
  refine ⟨fun h0 => absurd h0 hpos.ne', fun _ => ?_⟩
  rw [wp_listSnapshots]
  refine fun e' _ => ⟨fun err _ => h, fun _ => ?_⟩
  have hnone : ((e'.snapshotOrder (w.service.log.listSnapshots cfg.namespace)).1.filter
      fun s => w.lastSequence < s.sequence) = [] := by
    refine List.filter_eq_nil_iff.2 fun s hs => ?_
    have := hold s ((e'.snapshotOrder _).2.mem_iff.1 hs)
    simpa using this
  rw [wp_ite]
  exact ⟨fun _ => h, fun hne => absurd (List.isEmpty_iff.2 hnone) hne⟩

def pageAt (cfg : Config) (w : World B) : List (PendingMutation B) :=
  w.service.log.pull cfg.namespace w.lastSequence cfg.downloadBatchSize

lemma wp_processBatch {Q : Except VaultSyncError ℕ → World B → Prop}
    (hsnap : NoSnapshots cfg w) (herr : ∀ err, Q (.error err) w)
    (hna : ∀ ns after limit e, A (.pull ns after limit) e w →
      e.coordinatorFault = some .notAvailable → Q (.ok 0) w)
    (hpage : ∀ entries, pulledEntries L cfg (pageAt cfg w) = .ok entries →
      wp (machine n A) Q (do
        mergePulled L entries
        endReplay L
        advanceCursor (pageAt cfg w)
        return (pageAt cfg w).length) w) :
    wp (machine n A) Q (processBatch L cfg) w := by
  unfold processBatch
  refine wp_checkGeneration ?_ herr
  rw [wp_loadLastSequence]
  intro e _
  refine wp_snapshotCatchUp hsnap ?_
  rw [wp_pull]
  refine fun e' he' => ⟨fun err herr' => ?_, fun _ => ?_⟩
  · cases err with
    | notAvailable => exact hna _ _ _ e' he' herr'
    | _ => exact herr _
  · change wp _ _ (Prog.ofExcept (pulledEntries L cfg (pageAt cfg w)) >>= _) _
    rw [wp_ofExcept_bind]
    exact ⟨hpage, fun err _ => herr err⟩

/-! ## Calling it until nothing is left -/

def Steady : Call B → Env B → World B → Prop := fun _ e _ =>
  e.coordinatorFault = none ∧ e.cursorFault = none

def callsOf (entries : List (OplogEntry B)) : List (List (OplogEntry B)) :=
  if entries.isEmpty then [] else [entries]

omit [DecidableEq B] in
@[simp] lemma flatten_callsOf (entries : List (OplogEntry B)) :
    (callsOf entries).flatten = entries := by
  cases entries <;> simp [callsOf]

/-- What one call does: the page's foreign mutations go to `apply_batch` and the cursor moves to
the page's last mutation, or there is an error and cursor and documents stay. -/
structure PulledPage (L : Lib B) (cfg : Config) (w w' : World B) (entries : List (OplogEntry B)) :
    Prop where
  entries_ok : pulledEntries L cfg (pageAt cfg w) = .ok entries
  batches : w'.client.batches = w.client.batches ++ callsOf entries
  cursor : w'.lastSequence = cursor PendingMutation.sequence w.lastSequence (pageAt cfg w)
  service : w'.service = w.service
  replayMode : w'.client.replayMode = false

lemma wp_processBatch_steady (h0 : cfg.snapshotThreshold = 0)
    (hreplay : w.client.replayMode = false) :
    wp (machine n Steady) (fun result w' =>
      match result with
      | .ok k => k = (pageAt cfg w).length ∧ ∃ entries, PulledPage L cfg w w' entries
      | .error _ => w'.lastSequence = w.lastSequence ∧ w'.storeCursor = w.storeCursor ∧
          w'.storage.documents = w.storage.documents)
      (processBatch L cfg) w := by
  refine wp_processBatch (.inl h0) (fun err => ⟨rfl, rfl, rfl⟩) ?_ ?_
  · rintro _ _ _ e ⟨he, -⟩ hfault
    rw [he] at hfault
    cases hfault
  intro entries hentries
  -- after a successful merge only the replay flag and the cursor are left to set
  have hrest : ∀ w₁ : World B, w₁.client.batches = w.client.batches ++ callsOf entries →
      w₁.lastSequence = w.lastSequence → w₁.service = w.service →
      w₁.client.replayMode = false →
      wp (machine n Steady) (fun result w' =>
        match result with
        | .ok k => k = (pageAt cfg w).length ∧ ∃ entries, PulledPage L cfg w w' entries
        | .error _ => w'.lastSequence = w.lastSequence ∧ w'.storeCursor = w.storeCursor ∧
            w'.storage.documents = w.storage.documents)
        (do endReplay L; advanceCursor (pageAt cfg w); return (pageAt cfg w).length) w₁ := by
    intro w₁ hb hc hs hr
    refine wp_endReplay ?_
    have hclient : afterReplay w₁.client = w₁.client := by simp [afterReplay, hr]
    rw [hclient, setClient_self]
    refine wp_advanceCursor ⟨rfl, entries, hentries, ?_, ?_, ?_, ?_⟩ ?_
    · split_ifs <;> exact hb
    · split_ifs with hnil
      · rw [hnil, hc, cursor_nil]
      · rw [setLastSequence_lastSequence, hc]
    · split_ifs <;> exact hs
    · split_ifs <;> exact hr
    · rintro _ e err ⟨-, he⟩ hfault
      rw [he] at hfault
      cases hfault
  rw [wp_bind, mergePulled, wp_ite]
  refine ⟨fun hempty => ?_, fun hempty => ?_⟩
  · exact hrest w (by simp [callsOf, hempty]) rfl rfl hreplay
  · refine wp_applyBatch (fun _ => ?_) (fun r err => ⟨rfl, rfl, rfl⟩) fun r updated states _ _ _ => ?_
    · exact hrest _ (by simp [callsOf, hempty, Client.logBatch]) rfl rfl hreplay
    · exact hrest _ (by simp [callsOf, hempty, Client.logBatch, Client.commitBatch]) rfl rfl hreplay

inductive PositiveCalls (n : ℕ) (L : Lib B) (cfg : Config) (w : World B) : ℕ → World B → Prop
  | zero : PositiveCalls n L cfg w 0 w
  | succ {k m w₁ w₂} : PositiveCalls n L cfg w k w₁ →
      Outcome (machine n Steady) (processBatch L cfg) w₁ (.ok (m + 1)) w₂ →
      PositiveCalls n L cfg w (k + 1) w₂

structure CaughtUp (L : Lib B) (cfg : Config) (w w₁ : World B)
    (pulled rest : List (PendingMutation B)) : Prop where
  split : after PendingMutation.sequence (w.service.log.mutations cfg.namespace) w.lastSequence =
    pulled ++ rest
  cursor : w₁.lastSequence = cursor PendingMutation.sequence w.lastSequence pulled
  service : w₁.service = w.service
  replayMode : w₁.client.replayMode = false
  batches : ∃ bs, w₁.client.batches = w.client.batches ++ bs ∧
    List.Forall₂ (IsPulledEntry L cfg) (foreign cfg pulled) bs.flatten

section

variable {w₁ w₂ : World B} {pulled rest : List (PendingMutation B)} (h0 : cfg.snapshotThreshold = 0)
  (hc : w.lastSequence + 1 < 2 ^ 64) (hlog : w.service.log.nextSeq < 2 ^ 64)

include hc hlog

omit [DecidableEq B] in
lemma CaughtUp.pageAt_eq
    (h : CaughtUp L cfg w w₁ pulled rest) : pageAt cfg w₁ = rest.take cfg.downloadBatchSize := by
  have hlt : w₁.lastSequence + 1 < 2 ^ 64 := by
    rw [h.cursor]
    by_cases hnil : pulled = []
    · rw [hnil, cursor_nil]
      exact hc
    · obtain ⟨m, hm, hkey⟩ : ∃ m ∈ pulled, m.sequence =
          PagedLog.cursor sequence w.lastSequence pulled := cursor_mem hnil
      have hmem : m ∈ after sequence
          (w.service.log.mutations cfg.namespace) w.lastSequence := by
        rw [h.split]
        exact List.mem_append_left _ hm
      have := w.service.log.seq_lt m (InMemoryCoordinator.mem_mutations.1 (mem_after.1 hmem).1).1
      omega
  rw [pageAt, InMemoryCoordinator.pull_eq_page _ hlt, page, h.service, h.cursor,
    after_cursor (w.service.log.mutations_pairwise _) h.split]

include h0

lemma CaughtUp.step (h : CaughtUp L cfg w w₁ pulled rest) {k : ℕ}
    (ho : Outcome (machine n Steady) (processBatch L cfg) w₁ (.ok k) w₂) :
    k = (rest.take cfg.downloadBatchSize).length ∧
      CaughtUp L cfg w w₂ (pulled ++ rest.take cfg.downloadBatchSize)
        (rest.drop cfg.downloadBatchSize) := by
  have hpage := h.pageAt_eq hc hlog
  obtain ⟨hk, entries, hp⟩ := wp_iff_outcome.1 (wp_processBatch_steady h0 h.replayMode) _ _ ho
  obtain ⟨bs, hbs, hentries⟩ := h.batches
  have hnew := pulledEntries_ok hp.entries_ok
  rw [hpage] at hk hnew
  refine ⟨hk, ?_, ?_, hp.service.trans h.service, hp.replayMode, bs ++ callsOf entries, ?_, ?_⟩
  · rw [List.append_assoc, List.take_append_drop]
    exact h.split
  · rw [hp.cursor, hpage, h.cursor, cursor_append]
  · rw [hp.batches, hbs, List.append_assoc]
  · rw [List.flatten_append, flatten_callsOf, foreign, List.filter_append]
    exact List.rel_append hentries hnew

lemma PositiveCalls.caughtUp {k : ℕ} (h : PositiveCalls n L cfg w k w₁)
    (hreplay : w.client.replayMode = false) :
    ∃ pulled rest, CaughtUp L cfg w w₁ pulled rest ∧ k ≤ pulled.length := by
  induction h with
  | zero => exact ⟨[], _, ⟨rfl, rfl, rfl, hreplay, [], by simp, .nil⟩, le_rfl⟩
  | succ _ ho ih =>
    obtain ⟨pulled, rest, hup, hk⟩ := ih
    obtain ⟨hlen, hup'⟩ := hup.step h0 hc hlog ho
    refine ⟨_, _, hup', ?_⟩
    rw [List.length_append]
    omega

end

/-- **Pull catch-up.** Without snapshots and replay, calling `process_batch` until it returns
`Ok(0)` hands `apply_batch` exactly the foreign mutations after the start cursor, once each and
in ascending order, and ends at the namespace's largest sequence; at most as many calls return
a positive count as the namespace has mutations. A call that fails leaves cursor and documents
as they were. -/
theorem processBatch_catches_up (L : Lib B) (cfg : Config) (w : World B)
    (h0 : cfg.snapshotThreshold = 0) (hreplay : w.client.replayMode = false)
    (hbatch : 1 ≤ cfg.downloadBatchSize) (hc : w.lastSequence < 2 ^ 64 - 1)
    (hlog : w.service.log.nextSeq < 2 ^ 64) {k : ℕ} {w₁ : World B}
    (hcalls : PositiveCalls n L cfg w k w₁) :
    let all := w.service.log.mutations cfg.namespace
    k ≤ all.length ∧
    (∀ w', Outcome (machine n Steady) (processBatch L cfg) w₁ (.ok 0) w' →
      (∃ batches, w'.client.batches = w.client.batches ++ batches ∧
        List.Forall₂ (IsPulledEntry L cfg)
          (all.filter fun m => w.lastSequence < m.sequence ∧ m.replicaId ≠ cfg.replicaId)
          batches.flatten) ∧
      IsGreatest (insert w.lastSequence { s | ∃ m ∈ all, m.sequence = s }) w'.lastSequence) ∧
    (∀ err w', Outcome (machine n Steady) (processBatch L cfg) w₁ (.error err) w' →
      w'.lastSequence = w₁.lastSequence ∧ w'.storeCursor = w₁.storeCursor ∧
        w'.storage.documents = w₁.storage.documents) := by
  intro all
  have hc' : w.lastSequence + 1 < 2 ^ 64 := by omega
  obtain ⟨pulled, rest, hup, hk⟩ := hcalls.caughtUp h0 hc' hlog hreplay
  refine ⟨?_, fun w' ho => ?_, fun err w' ho => ?_⟩
  · have hlen : (pulled ++ rest).length ≤ all.length := by
      rw [← hup.split]
      exact List.length_filter_le _ _
    rw [List.length_append] at hlen
    omega
  · obtain ⟨hlen, hup'⟩ := hup.step h0 hc' hlog ho
    -- an empty page means that nothing was left
    have hrest : rest = [] := by
      have htake := List.length_eq_zero_iff.1 hlen.symm
      rcases List.take_eq_nil_iff.1 htake with hzero | hnil
      · omega
      · exact hnil
    have hall := hup'.split
    rw [hrest, List.take_nil, List.drop_nil, List.append_nil, List.append_nil] at hall
    rw [hrest, List.take_nil, List.append_nil] at hup'
    obtain ⟨bs, hbs, hentries⟩ := hup'.batches
    refine ⟨⟨bs, hbs, ?_⟩, ?_⟩
    · rw [← hall, foreign, after, List.filter_filter] at hentries
      simpa only [Bool.decide_and, Bool.and_comm] using hentries
    · rw [hup'.cursor, ← hall]
      exact isGreatest_cursor_after (w.service.log.mutations_pairwise _)
  · exact wp_iff_outcome.1 (wp_processBatch_steady h0 hup.replayMode) _ _ ho

def threeToPull : World Sym :=
  .new (InMemoryCoordinator.new.push "ns"
    [Sym.mutation "1" "b" ⟨{5}, ∅⟩, Sym.mutation "2" "a" ⟨{7}, ∅⟩, Sym.mutation "3" "b" ⟨{5, 5}, ∅⟩]).2

def afterCalls : ℕ → World Sym
  | 0 => threeToPull
  | k + 1 => (run (machine 0 Steady) (processBatch Sym.lib (Sym.config 0)) [] (afterCalls k)).2

lemma outcome_afterCalls (k : ℕ) :
    Outcome (machine 0 Steady) (processBatch Sym.lib (Sym.config 0)) (afterCalls k)
      (run (machine 0 Steady) (processBatch Sym.lib (Sym.config 0)) [] (afterCalls k)).1
      (afterCalls (k + 1)) :=
  run_outcome _ _ _ fun _ _ => ⟨⟨rfl, rfl⟩, by simp⟩

theorem threeToPull_catches_up :
    (afterCalls 3).client.batches.flatten.map OplogEntry.id = ["1", "3"] ∧
      IsGreatest (insert 0 { s | ∃ m ∈ threeToPull.service.log.mutations "ns", m.sequence = s })
        (afterCalls 3).lastSequence := by
  have hcalls : PositiveCalls 0 Sym.lib (Sym.config 0) threeToPull 2 (afterCalls 2) :=
    .succ (m := 0) (.succ (m := 1) .zero (outcome_afterCalls 0)) (outcome_afterCalls 1)
  have hend := (processBatch_catches_up Sym.lib (Sym.config 0) threeToPull rfl rfl (by decide)
    (by decide) (by decide) hcalls).2.1 _ (outcome_afterCalls 2)
  exact ⟨by decide, hend.2⟩

end VaultSync.DownloadQueue
