import VaultSync.Client.Initialize
import VaultSync.Sync.PullMerge

/-! A client that comes back to a server with a new history: what `initialize` makes of its
cursor, and what the `process_batch` calls after it then merge. -/

namespace VaultSync.VaultSyncClient

open Async AsyncFn World DownloadQueue PagedLog List InMemoryCoordinator Sym

variable {B : Type} {L : Lib B} {cfg : Config} {n : ℕ} {A : Call B → Env B → World B → Prop}
  {w w' w₁ w₂ : World B}

/-! ## Initialization -/

def GenerationChanged (cfg : Config) (w : World B) : Prop :=
  w.service.generationId ≠ "" ∧
    ∃ st, w.storage.syncStates cfg.namespace = some st ∧ st.generationId ≠ w.service.generationId

def Available (A : Call B → Env B → World B → Prop) : Prop :=
  ∀ op e w, A op e w → e.coordinatorFault = none

def verdict (w : World B) : CursorValidation :=
  validateCursor (w.service.maxSequence w.service.log) w.lastSequence

def startCursor (w : World B) : ℕ := if verdict w = .invalid then 0 else w.lastSequence

/-- From `w` to `w'` the cursor was validated, pending entries were materialized, and nothing
else that a batch depends on changed. -/
structure Initialized (L : Lib B) (cfg : Config) (w w' : World B) : Prop where
  grows : Grows L w w'
  service : w'.service = w.service
  dedup : w'.client.dedup = w.client.dedup
  cursor : w'.lastSequence = startCursor w
  documents : w.storage.readPendingOplog cfg.namespace 50000 = [] →
    w'.storage.documents = w.storage.documents

structure Validated (w w' : World B) : Prop where
  documents : w'.storage.documents = w.storage.documents
  oplog : w'.storage.oplog = w.storage.oplog
  service : w'.service = w.service
  dedup : w'.client.dedup = w.client.dedup
  cursor : w'.lastSequence = startCursor w

variable {Q : Except VaultSyncError Unit → World B → Prop} {m : PendingMutation B}
  {entries : List (OplogEntry B)}

lemma wp_recover {st : SyncState} {gen : String}
    (hok : ∀ w', Validated w w' → Q (.ok ()) w') (herr : ∀ err w', Q (.error err) w') :
    wp (machine n A) Q (recover cfg st gen w.lastSequence) w := by
  have hkeep : verdict w ≠ .invalid →
      wp (machine n A) Q (keepCursor st gen) (w.setClient (w.client.setReplayMode true)) := by
    intro hv
    rw [keepCursor, ← Prog.bind_pure (writeSyncState _), wp_writeSyncState]
    refine fun _ _ => ⟨fun err _ => herr err _, fun _ => hok _ ⟨rfl, rfl, rfl, rfl, ?_⟩⟩
    rw [startCursor, if_neg hv]
    rfl
  rw [recover]
  intro _ _ _ _
  change wp (machine n A) Q (.bind (.ret (verdict w)) _) w
  cases hv : verdict w with
  | unknown | valid => exact hkeep (by simp [hv])
  | invalid =>
    change wp (machine n A) Q (resetCursor cfg st gen) (w.setClient (w.client.setReplayMode true))
    rw [resetCursor, wp_writeSyncState]
    refine fun _ _ => ⟨fun err _ => herr err _, fun _ => ?_⟩
    rw [wp_swapLastSequence]
    intro _ _
    have hdone : Validated w (((w.setClient (w.client.setReplayMode true)).setStorage
        (w.storage.writeSyncState
          { st with generationId := gen, lastSyncedSequence := 0 })).setLastSequence 0) := by
      refine ⟨rfl, rfl, rfl, rfl, ?_⟩
      rw [startCursor, if_pos hv]
      rfl
    have hregister : ∀ u, Validated w u →
        wp (machine n A) Q (register cfg.namespace 0 >>= fun _ => pure ()) u := by
      intro u hu
      rw [wp_register]
      exact fun _ _ => ⟨fun _ _ => hok u hu, fun _ => hok u hu⟩
    exact fun _ _ => (wp_onCoordinator (f := fun _ => _)).2
      ⟨fun _ _ => hregister _ hdone, fun _ => hregister _ hdone⟩

lemma wp_connect (hA : Available A) (hgen : GenerationChanged cfg w)
    (hok : ∀ w', Validated w w' → Q (.ok ()) w') (herr : ∀ err w', Q (.error err) w') :
    wp (machine n A) Q (connect cfg) w := by
  obtain ⟨hne, st, hst, hchanged⟩ := hgen
  rw [connect, wp_loadLastSequence]
  intro _ _
  rw [wp_register]
  refine fun e he => ⟨fun err hfault => ?_, fun _ => ?_⟩
  · rw [hA _ _ _ he] at hfault
    cases hfault
  dsimp only
  rw [checkGeneration, wp_loadLastSequence]
  intro _ _
  rw [wp_generationId]
  intro _ _
  rw [wp_ite]
  refine ⟨fun h => absurd h hne, fun _ => ?_⟩
  rw [wp_readSyncState]
  refine fun _ _ => ⟨fun err _ => herr err _, fun _ => ?_⟩
  rw [hst]
  dsimp only
  rw [wp_ite]
  exact ⟨fun h => absurd h hchanged, fun _ => wp_recover hok herr⟩

lemma wp_initializeClient (hA : Available A) (hgen : GenerationChanged cfg w)
    (hinit : w.client.initialized = false) (honline : cfg.offline = false) :
    wp (machine n A) (fun r w' => r = .ok () → Initialized L cfg w w')
      (initializeClient L cfg) w := by
  rw [initializeClient, wp_updateClient, wp_ite]
  refine ⟨fun h => absurd (hinit.symm.trans h) Bool.false_ne_true, fun _ => ?_⟩
  rw [wp_ite]
  refine ⟨fun h => absurd (honline.symm.trans h) Bool.false_ne_true, fun _ => ?_⟩
  rw [wp_bind]
  refine wp_connect hA hgen (fun w₁ h1 => ?_) (fun err _ h => by cases h)
  dsimp only
  rw [wp_loadLastSequence]
  intro _ _
  have hmaterialize : wp (machine n A) (fun r w' => r = .ok () → Initialized L cfg w w')
      ((ViewMaterializer.materialize L cfg).attempt >>= fun _ => pure () : AsyncFn B Unit) w₁ := by
    rw [wp_bind, wp_attempt]
    refine (ViewMaterializer.wp_materialize w₁).mono fun r w' h _ => ?_
    refine ⟨fun k => ?_, h.1.service.trans h1.service, ?_, h.1.lastSequence.trans h1.cursor, ?_⟩
    · exact (grows_of_documents h1.documents k).trans (h.1.grows k)
    · rw [h.1.client]
      exact h1.dedup
    · intro hnil
      refine (h.2 ?_).trans h1.documents
      rw [← hnil, InMemoryStorage.readPendingOplog, h1.oplog]
      rfl
  exact fun _ _ => (wp_onCoordinator (f := fun _ => _)).2
    ⟨fun _ _ => hmaterialize, fun _ => hmaterialize⟩

/-! ## The calls after it -/

def Content (L : Lib B) (cfg : Config) (m : PendingMutation B) (u : CrdtState) : Prop :=
  ∃ plain, decryptSymmetric L m.encryptedBlob cfg.namespace = .ok plain ∧ L.decodeV1 plain = .ok u

structure Recovering (L : Lib B) (cfg : Config) (draw : ClientId → Prop) (start w : World B) :
    Prop where
  service : w.service = start.service
  grows : Grows L start w
  seen : ∀ id ∈ w.client.dedup.seen,
    ∃ m ∈ start.service.log.mutations cfg.namespace, m.id = id ∧ Merged L cfg w m
  merged : ∀ m ∈ foreignLog cfg start, start.lastSequence < m.sequence →
    m.sequence ≤ w.lastSequence → Merged L cfg w m
  ahead : start.lastSequence + 1 < 2 ^ 64 → start.service.log.nextSeq < 2 ^ 64 →
    start.lastSequence ≤ w.lastSequence ∧ w.lastSequence + 1 < 2 ^ 64
  within : start.lastSequence + 1 < 2 ^ 64 → start.service.log.nextSeq < 2 ^ 64 →
    ∀ k b, docState L start k ≤ b →
      (∀ m ∈ foreignLog cfg start, start.lastSequence < m.sequence → m.key = k →
        ∀ u, Content L cfg m u → u ≤ b) →
      WithinDrawn draw b (docState L w k)

variable {draw : ClientId → Prop} {start : World B}

lemma Recovering.refl (hseen : w.client.dedup.seen = ∅) : Recovering L cfg draw w w where
  service := rfl
  grows _ := le_rfl
  seen := by simp [hseen]
  merged m _ hlt hle := absurd hle (not_le.2 hlt)
  ahead h _ := ⟨le_rfl, h⟩
  within _ _ k b hle _ := .of_le hle

lemma lt_of_mem_pageAt (h : m ∈ pageAt cfg w)
    (hc : w.lastSequence + 1 < 2 ^ 64) : w.lastSequence < m.sequence := by
  have hfilter := (mem_filter.1 (mem_of_mem_take h)).2
  rw [decide_eq_true_iff, Nat.mod_eq_of_lt hc] at hfilter
  exact hfilter.2

lemma Recovering.mergedPage (h : Recovering L cfg draw start w)
    (hentries : pulledEntries L cfg (pageAt cfg w) = .ok entries)
    (hm : MergedPage L draw entries w w') (hcursor : w'.lastSequence = w.lastSequence ∨
      (w'.lastSequence = cursor PendingMutation.sequence w.lastSequence (pageAt cfg w) ∧
        ∀ m ∈ foreign cfg (pageAt cfg w), Merged L cfg w' m)) : Recovering L cfg draw start w' := by
  have hentry : ∀ e ∈ entries, ∃ m ∈ pageAt cfg w, m ∈ foreignLog cfg start ∧ EntryOf L cfg m e := by
    intro e he
    obtain ⟨m, hmem, hof⟩ := entryOf_of_mem_entries hentries he
    obtain ⟨hpage, hfor⟩ := mem_filter.1 hmem
    have hmut := mem_of_mem_pull hpage
    rw [h.service] at hmut
    exact ⟨m, hpage, mem_foreignLog.2 ⟨hmut, by simpa using hfor⟩, hof⟩
  -- the cursor stays, or it is that of a mutation of the page
  have hmoved : w'.lastSequence = w.lastSequence ∨ ∃ last ∈ pageAt cfg w,
      w'.lastSequence = last.sequence ∧ ∀ m ∈ foreign cfg (pageAt cfg w), Merged L cfg w' m := by
    refine hcursor.elim .inl fun ⟨heq, hall⟩ => ?_
    by_cases hnil : pageAt cfg w = []
    · rw [hnil, cursor_nil] at heq
      exact .inl heq
    · obtain ⟨last, hlast, hseq⟩ : ∃ m ∈ pageAt cfg w, m.sequence =
          PagedLog.cursor PendingMutation.sequence w.lastSequence (pageAt cfg w) := cursor_mem hnil
      exact .inr ⟨last, hlast, heq.trans hseq.symm, hall⟩
  refine ⟨hm.service.trans h.service, h.grows.trans hm.grows, fun id hid => ?_,
    fun m hmem hlt hle => ?_, fun hc hlog => ?_, fun hc hlog k b hle hms => ?_⟩
  · rcases hm.seen id hid with hold | ⟨e, he, rfl, hcont⟩
    · obtain ⟨m, hmem, hid, hmerged⟩ := h.seen id hold
      exact ⟨m, hmem, hid, hmerged.mono hm.grows⟩
    · obtain ⟨m, -, hfor, hof⟩ := hentry e he
      exact ⟨m, (mem_foreignLog.1 hfor).1, hof.id.symm, hof.merged_iff.2 hcont⟩
  · by_cases hold : m.sequence ≤ w.lastSequence
    · exact (h.merged m hmem hlt hold).mono hm.grows
    · rcases hmoved with hsame | ⟨last, hlast, hseq, hall⟩
      · exact absurd (hle.trans_eq hsame) hold
      · obtain ⟨hmut, hfor⟩ := mem_foreignLog.1 hmem
        rw [← h.service] at hmut
        rw [hseq] at hle
        have hin := mem_pull_of_le hmut (not_le.1 hold) hlast hle
        exact hall m (mem_filter.2 ⟨hin, by simpa using hfor⟩)
  · obtain ⟨hahead, hnext⟩ := h.ahead hc hlog
    rcases hmoved with hsame | ⟨last, hlast, hseq, -⟩
    · rw [hsame]
      exact ⟨hahead, hnext⟩
    · have hlt := lt_of_mem_pageAt hlast hnext
      have hbound := w.service.log.seq_lt last
        (mem_mutations.1 (mem_of_mem_pull hlast)).1
      rw [← h.service] at hlog
      rw [hseq]
      exact ⟨by omega, by omega⟩
  · obtain ⟨v, hv, hbefore⟩ := h.within hc hlog k b hle hms
    obtain ⟨hahead, hnext⟩ := h.ahead hc hlog
    refine .trans hv (.mono (hm.within k _ hbefore fun e he hkey _ u hu => ?_) fun _ hc => hc.1)
    obtain ⟨m, hpage, hfor, hof⟩ := hentry e he
    refine (hms m hfor ?_ (hof.key.symm.trans hkey) u ⟨_, hof.update, hu⟩).trans le_sup_left
    exact hahead.trans_lt (lt_of_mem_pageAt hpage hnext)

lemma Recovering.merged_of_entries
    (hids : ((start.service.log.mutations cfg.namespace).map PendingMutation.id).Nodup)
    (h : Recovering L cfg draw start w)
    (hentries : pulledEntries L cfg (pageAt cfg w) = .ok entries) (hg : Grows L w w')
    (hall : ∀ e ∈ entries, e.id ∈ w.client.dedup.seen ∨ Contained L w' e) :
    ∀ m ∈ foreign cfg (pageAt cfg w), Merged L cfg w' m := by
  intro m hmem
  obtain ⟨e, he, hof⟩ := entryOf_of_mem_foreign hentries hmem
  rcases hall e he with hold | hcont
  · obtain ⟨m', hm', hid, hmerged⟩ := h.seen _ hold
    have hmut := mem_of_mem_pull (mem_of_mem_filter hmem)
    rw [h.service] at hmut
    have heq := inj_on_of_nodup_map hids hm' hmut (hid.trans hof.id)
    rw [heq] at hmerged
    exact hmerged.mono hg
  · exact hof.merged_iff.2 hcont

def WithoutSnapshots (cfg : Config) (w : World B) : Prop :=
  cfg.snapshotThreshold = 0 ∨ w.service.log.listSnapshots cfg.namespace = []

/-! ## When the whole new history is merged -/

lemma verdict_eq_invalid_iff :
    verdict w = .invalid ↔ 0 < w.service.maxSequence w.service.log ∧
      w.service.maxSequence w.service.log < w.lastSequence := by
  unfold verdict validateCursor
  split_ifs with h0 hle
  · simp [h0]
  · simp [hle]
  · simp only [true_iff]
    omega

lemma le_of_pageAt_nil (h : pageAt cfg w = []) (hbatch : 1 ≤ cfg.downloadBatchSize)
    (hm : m ∈ w.service.log.mutations cfg.namespace) : m.sequence ≤ w.lastSequence := by
  obtain ⟨hops, hns⟩ := mem_mutations.1 hm
  have hnil := (take_eq_nil_iff.1 h).resolve_left (by omega)
  have hnot := filter_eq_nil_iff.1 hnil m hops
  rw [decide_eq_true_iff, not_and] at hnot
  have hlt := not_le.1 (hnot hns)
  have hmod := Nat.mod_le (w.lastSequence + 1) (2 ^ 64)
  omega

/-- The content is below the join of the stored document and the foreign mutations of the same
record behind the cursor. -/
def Redundant (L : Lib B) (cfg : Config) (w : World B) (m : PendingMutation B) : Prop :=
  ∃ u, Content L cfg m u ∧ ∀ b, docState L w m.key ≤ b →
    (∀ m' ∈ foreignLog cfg w, w.lastSequence < m'.sequence → m'.key = m.key →
      ∀ u', Content L cfg m' u' → u' ≤ b) → u ≤ b

/-- The old cursor is beyond the server's largest sequence, and that is not reported as zero;
or what the new history numbers up to the old cursor is redundant. -/
def Recoverable (L : Lib B) (cfg : Config) (w : World B) : Prop :=
  (0 < w.service.maxSequence w.service.log ∧
    w.service.maxSequence w.service.log < w.lastSequence) ∨
  ∀ m ∈ foreignLog cfg w, m.sequence ≤ w.lastSequence → Redundant L cfg w m

lemma merged_of_recoverable (hi : Initialized L cfg w w₁) (h : Recovering L cfg draw w₁ w')
    (hnil : pageAt cfg w' = []) (hbatch : 1 ≤ cfg.downloadBatchSize)
    (hrec : Recoverable L cfg w) : ∀ m ∈ foreignLog cfg w', Merged L cfg w' m := by
  intro m hm
  have hm1 : m ∈ foreignLog cfg w₁ := by
    rw [foreignLog, ← h.service]
    exact hm
  have hm0 : m ∈ foreignLog cfg w := by
    rw [foreignLog, ← hi.service]
    exact hm1
  have hlater : ∀ m' ∈ foreignLog cfg w, w₁.lastSequence < m'.sequence → Merged L cfg w' m' := by
    intro m' hm' hlt
    rw [foreignLog, ← hi.service] at hm'
    refine h.merged m' hm' hlt (le_of_pageAt_nil hnil hbatch ?_)
    rw [h.service]
    exact (mem_foreignLog.1 hm').1
  by_cases hlt : w₁.lastSequence < m.sequence
  · exact hlater m hm0 hlt
  by_cases hv : verdict w = .invalid
  · have hpos := w.service.log.seq_pos m
      (mem_mutations.1 (mem_foreignLog.1 hm0).1).1
    rw [hi.cursor, startCursor, if_pos hv] at hlt
    omega
  · rw [hi.cursor, startCursor, if_neg hv] at hlt hlater
    obtain ⟨u, hu, hle⟩ := (hrec.resolve_left (hv ∘ verdict_eq_invalid_iff.2)) m hm0 (not_lt.1 hlt)
    obtain ⟨plain, hplain, hdec⟩ := hu
    refine ⟨plain, u, hplain, hdec, hle _ (hi.grows.trans h.grows m.key) ?_⟩
    intro m' hm' hlt' hkey u' hu'
    rw [← hkey]
    obtain ⟨plain, d, hplain, hd, hle⟩ := hlater m' hm' hlt'
    obtain ⟨plain', hplain', hu'⟩ := hu'
    rw [hplain] at hplain'
    cases hplain'
    rw [hd] at hu'
    cases hu'
    exact hle

lemma recoverable_of_merged (hi : Initialized L cfg w w₁) (h : Recovering L cfg draw w₁ w')
    (hc : w.lastSequence + 1 < 2 ^ 64) (hlog : w.service.log.nextSeq < 2 ^ 64)
    (hpending : w.storage.readPendingOplog cfg.namespace 50000 = [])
    (hfresh : ∀ m ∈ foreignLog cfg w, ∀ u, Content L cfg m u → ∀ c ∈ u.stateVector, ¬ draw c)
    (hmerged : ∀ m ∈ foreignLog cfg w', Merged L cfg w' m) : Recoverable L cfg w := by
  by_cases hv : verdict w = .invalid
  · exact .inl (verdict_eq_invalid_iff.1 hv)
  have hcursor : w₁.lastSequence = w.lastSequence := by
    rw [hi.cursor, startCursor, if_neg hv]
  refine .inr fun m hm _ => ?_
  have hlogEq : foreignLog cfg w' = foreignLog cfg w := by
    rw [foreignLog, h.service, hi.service, foreignLog]
  obtain ⟨plain, u, hplain, hu, hle⟩ := hmerged m (by rw [hlogEq]; exact hm)
  refine ⟨u, ⟨plain, hplain, hu⟩, fun b hdoc hms => ?_⟩
  have hwithin : WithinDrawn draw b (docState L w' m.key) := by
    refine h.within (by rwa [hcursor]) (by rwa [hi.service]) m.key b ?_ ?_
    · rw [docState, hi.documents hpending]
      exact hdoc
    · rw [hcursor, foreignLog, hi.service]
      exact hms
  exact hwithin.le hle (hfresh m hm u ⟨plain, hplain, hu⟩)

variable [DecidableEq B]

def BatchCalls (n : ℕ) (A : Call B → Env B → World B → Prop) (L : Lib B) (cfg : Config) :
    World B → World B → Prop :=
  Relation.ReflTransGen fun w w' => ∃ r, Outcome (machine n A) (processBatch L cfg) w r w'

section

variable (hA : Available A)
  (hids : ((start.service.log.mutations cfg.namespace).map PendingMutation.id).Nodup)
  (hsnap : WithoutSnapshots cfg start) (h : Recovering L cfg (Drawn A) start w)

include hA hids hsnap h

lemma Recovering.processBatch :
    wp (machine n A) (fun r w' => Recovering L cfg (Drawn A) start w' ∧
      (r = .ok 0 → pageAt cfg w' = [])) (processBatch L cfg) w := by
  have hsnap' : NoSnapshots cfg w := by
    rcases hsnap with h0 | hnil
    · exact .inl h0
    · refine .inr ?_
      rw [h.service, hnil]
      simp
  refine wp_processBatch_merged hsnap' (fun err => ⟨h, nofun⟩) (fun ns after limit e he hfault => ?_)
    (fun entries err w' hentries hm hlast => ⟨h.mergedPage hentries hm (.inl hlast), nofun⟩)
    fun entries w' hentries hm hall hcursor => ?_
  · rw [hA _ _ _ he] at hfault
    cases hfault
  · have hpage := h.merged_of_entries hids hentries hm.grows hall
    refine ⟨h.mergedPage hentries hm (.inr ⟨hcursor, hpage⟩), fun hzero => ?_⟩
    have hnil := length_eq_zero_iff.1 (Except.ok.inj hzero)
    rw [hnil, cursor_nil] at hcursor
    rw [pageAt, hm.service, hcursor]
    exact hnil

lemma Recovering.batchCalls
    (hcalls : BatchCalls n A L cfg w w') : Recovering L cfg (Drawn A) start w' := by
  induction hcalls with
  | refl => exact h
  | tail _ hcall ih =>
    obtain ⟨r, ho⟩ := hcall
    exact (wp_iff_outcome.1 (ih.processBatch hA hids hsnap) _ _ ho).1

end

/-- **Restart recovery.** A client meets a server of another generation. After `initialize`
and `process_batch` until it returns `Ok(0)`, every foreign mutation of the new history is
merged if the history was recoverable; and only then, unless entries of its own were pending or
a drawn client id occurs in the history. -/
theorem newHistory_merged_iff (L : Lib B) (cfg : Config) (hA : Available A)
    (hgen : GenerationChanged cfg w) (hinit : w.client.initialized = false)
    (honline : cfg.offline = false) (hseen : w.client.dedup.seen = ∅)
    (hids : ((w.service.log.mutations cfg.namespace).map PendingMutation.id).Nodup)
    (hsnap : WithoutSnapshots cfg w) (hbatch : 1 ≤ cfg.downloadBatchSize)
    (ho : Outcome (machine n A) (initializeClient L cfg) w (.ok ()) w₁)
    (hcalls : BatchCalls n A L cfg w₁ w₂)
    (hlast : Outcome (machine n A) (processBatch L cfg) w₂ (.ok 0) w') :
    (Recoverable L cfg w → ∀ m ∈ foreignLog cfg w', Merged L cfg w' m) ∧
    (w.lastSequence + 1 < 2 ^ 64 → w.service.log.nextSeq < 2 ^ 64 →
      w.storage.readPendingOplog cfg.namespace 50000 = [] →
      (∀ m ∈ foreignLog cfg w, ∀ u, Content L cfg m u → ∀ c ∈ u.stateVector, ¬ Drawn A c) →
      (∀ m ∈ foreignLog cfg w', Merged L cfg w' m) → Recoverable L cfg w) := by
  have hi := wp_iff_outcome.1 (wp_initializeClient hA hgen hinit honline) _ _ ho rfl
  rw [← hi.service] at hids
  have hsnap₁ : WithoutSnapshots cfg w₁ := by
    rw [WithoutSnapshots, hi.service]
    exact hsnap
  have hstart : Recovering L cfg (Drawn A) w₁ w₁ := .refl (by rw [hi.dedup, hseen])
  have h₂ := hstart.batchCalls hA hids hsnap₁ hcalls
  obtain ⟨h, hnil⟩ := wp_iff_outcome.1 (h₂.processBatch hA hids hsnap₁) _ _ hlast
  exact ⟨merged_of_recoverable hi h (hnil rfl) hbatch, recoverable_of_merged hi h⟩

def restarted (cursor : ℕ) : World Sym :=
  let w : World Sym := .new (InMemoryCoordinator.new.push "ns"
    [mutation "1" "b" ⟨{5}, ∅⟩, mutation "2" "b" ⟨{5, 5}, ∅⟩]).2
  { w with
    lastSequence := cursor
    storage := w.storage.writeSyncState ⟨"ns", cursor, "g1"⟩
    service := { w.service with generationId := "g2" } }

def noFault : Call Sym → Env Sym → World Sym → Prop := fun _ e _ => e.coordinatorFault = none

def afterRestart (cursor : ℕ) : ℕ → World Sym
  | 0 => (run (machine 0 noFault) (initializeClient lib (config 0)) [] (restarted cursor)).2
  | k + 1 => (run (machine 0 noFault) (processBatch lib (config 0)) []
      (afterRestart cursor k)).2

lemma outcome_afterRestart (cursor k : ℕ) :
    Outcome (machine 0 noFault) (processBatch lib (config 0)) (afterRestart cursor k)
      (run (machine 0 noFault) (processBatch lib (config 0)) [] (afterRestart cursor k)).1
      (afterRestart cursor (k + 1)) :=
  run_outcome _ _ _ fun _ _ => ⟨rfl, by simp⟩

lemma initialize_afterRestart (cursor : ℕ) :
    Outcome (machine 0 noFault) (initializeClient lib (config 0)) (restarted cursor)
      (run (machine 0 noFault) (initializeClient lib (config 0)) [] (restarted cursor)).1
      (afterRestart cursor 0) :=
  run_outcome _ _ _ fun _ _ => ⟨rfl, by simp⟩

lemma restarted_generationChanged (cursor : ℕ) : GenerationChanged (config 0) (restarted cursor) :=
  ⟨by simp [restarted], ⟨"ns", cursor, "g1"⟩, rfl, by simp [restarted]⟩

theorem restarted_five_merged :
    (afterRestart 5 1).lastSequence = 2 ∧
      ∀ m ∈ foreignLog (config 0) (afterRestart 5 2),
        Merged lib (config 0) (afterRestart 5 2) m := by
  refine ⟨by decide, ?_⟩
  have hcalls : BatchCalls 0 noFault lib (config 0) (afterRestart 5 0) (afterRestart 5 1) :=
    .single ⟨_, outcome_afterRestart 5 0⟩
  refine (newHistory_merged_iff lib (config 0) (fun _ _ _ h => h)
    (restarted_generationChanged 5) rfl rfl rfl (by decide) (.inl rfl) (by decide)
    (initialize_afterRestart 5) hcalls (outcome_afterRestart 5 1)).1 (.inl ?_)
  decide

/-- A cursor within the new history is kept, and what the history has up to it is never
pulled. -/
theorem restarted_two_skips :
    GenerationChanged (config 0) (restarted 2) ∧ (restarted 2).service.historyPreserved = false ∧
      Outcome (machine 0 noFault) (initializeClient lib (config 0)) (restarted 2) (.ok ())
        (afterRestart 2 0) ∧
      Outcome (machine 0 noFault) (processBatch lib (config 0)) (afterRestart 2 0) (.ok 0)
        (afterRestart 2 1) ∧
      ∃ m ∈ foreignLog (config 0) (afterRestart 2 1),
        ¬ Merged lib (config 0) (afterRestart 2 1) m := by
  refine ⟨restarted_generationChanged 2, rfl, initialize_afterRestart 2,
    outcome_afterRestart 2 0, ?_⟩
  refine ⟨InMemoryCoordinator.pending "ns" 1 (mutation "1" "b" ⟨{5}, ∅⟩), by decide, ?_⟩
  rintro ⟨plain, u, hplain, hu, hle⟩
  have hdec : decryptSymmetric lib (blob "ns" ⟨{5}, ∅⟩) "ns" = .ok (.update ⟨{5}, ∅⟩) := rfl
  cases hplain.symm.trans hdec
  cases hu
  exact absurd hle (by decide)

end VaultSync.VaultSyncClient
