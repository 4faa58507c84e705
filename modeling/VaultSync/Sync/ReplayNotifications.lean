import VaultSync.Sync.DownloadCursor

/-! Notifications of a replay. While replay mode is on none is fired, and the records to notify at
its end are cleared right before they are: a call that ends replay mode notifies nothing. -/

namespace VaultSync

open Async AsyncFn World List Prog Prog.Sections Function Safe

variable {B α β : Type} {L : Lib B} {cfg : Config} {n : ℕ}

lemma World.handle_client (op : Call B) (e : Env B) (w : World B) :
    (handle n op e w).2.client = w.client := by
  cases op <;> first
    | rfl
    | (simp only [handle, onStorage, onCoordinator, onCursor]; split <;> first | rfl | split <;> rfl)

def Call.touched : Call B → List Key
  | .insertDocument k _ | .writeDocumentAndOplog k _ _ | .deleteDocument k => [k]
  | .writeBatchReconciliation docs => docs.map Prod.fst
  | _ => []

/-- Sections that leave replay mode on or off, notify nothing while that is suppressed, and record
no changed document when replay mode is off. -/
structure Tame (f : Client B → Client B) : Prop where
  mode : ∀ c, (f c).replayMode = c.replayMode
  suppressed : ∀ c, (f c).fireSuppressed = c.fireSuppressed
  fired : ∀ c, ∃ l, (f c).fired = c.fired ++ l ∧ (c.fireSuppressed = true → l = [])
  changed : ∀ c, c.replayMode = false → (f c).replayChangedDocs = c.replayChangedDocs

variable {f : Client B → Client B}

lemma tame_of_eq (hmode : ∀ c, (f c).replayMode = c.replayMode)
    (hsupp : ∀ c, (f c).fireSuppressed = c.fireSuppressed) (hfired : ∀ c, (f c).fired = c.fired)
    (hchanged : ∀ c, c.replayMode = false → (f c).replayChangedDocs = c.replayChangedDocs) :
    Tame f :=
  ⟨hmode, hsupp, fun c => ⟨[], (hfired c).trans (append_nil _).symm, fun _ => rfl⟩, hchanged⟩

lemma tame_id : Tame (id : Client B → Client B) :=
  tame_of_eq (fun _ => rfl) (fun _ => rfl) (fun _ => rfl) fun _ _ => rfl

lemma tame_read {g : Client B → α} : (AsyncFn.read g).Sections Tame :=
  ⟨tame_id, fun _ => trivial⟩

lemma tame_loadOrNew (k : Key) (existing : Option B) : (loadOrNew L k existing).Sections Tame := by
  cases existing with
  | none => exact fun _ => trivial
  | some bytes => exact fun _ => sections_ofExcept _

lemma tame_modify (h : Tame f) : (AsyncFn.modify f).Sections Tame :=
  ⟨h, fun _ => trivial⟩

lemma DownloadQueue.tame_noteReplayed (k : Key) : Tame fun c : Client B =>
    if c.replayMode then { c with replayChangedDocs := c.replayChangedDocs.insert k } else c := by
  refine tame_of_eq (fun c => ?_) (fun c => ?_) (fun c => ?_) fun c h => ?_
  · split <;> rfl
  · split <;> rfl
  · split <;> rfl
  · rw [if_neg (by simp [h])]

section

lemma tame_logBatch (entries : List (OplogEntry B)) : Tame fun c => c.logBatch entries :=
  tame_of_eq (fun _ => rfl) (fun _ => rfl) (fun _ => rfl) fun _ _ => rfl

variable [DecidableEq B]

lemma tame_mergeDocs (groups : List (Key × List (OplogEntry B))) (ks : List Key) :
    (mergeDocs L groups ks).Sections Tame := by
  induction ks with
  | nil => trivial
  | cons k ks ih =>
    refine fun r => (sections_ofExcept r).bind fun _ => (tame_loadOrNew _ _).bind fun doc => ?_
    exact (sections_ofExcept _).bind fun _ => ih.bind fun _ => trivial

lemma tame_applyBatch (entries : List (OplogEntry B)) : (applyBatch L entries).Sections Tame := by
  refine (tame_modify (tame_logBatch entries)).bind fun _ => ite trivial ?_
  refine tame_read.bind fun seen => ite trivial fun keys => ?_
  refine (tame_mergeDocs _ _).bind fun merged r => ?_
  refine (sections_ofExcept r).bind fun _ => tame_modify ⟨fun _ => rfl, fun _ => rfl, fun c => ?_,
    fun _ _ => rfl⟩
  by_cases h : c.fireSuppressed
  · exact ⟨[], by simp [Client.commitBatch, h], fun _ => rfl⟩
  · refine ⟨merged.2.map fun s => (.reconcilerPull, s.1, s.2), ?_, fun h' => absurd h' h⟩
    exact if_neg h

end

namespace DownloadQueue

/-! ## Who notifies what -/

/-- What is recorded of a replay: the records whose stored document changed while replay mode was
on, what each call notified, and which call ended replay mode. -/
structure ReplayRecord where
  changed : List Key
  notes : ℕ → List Notification
  endedBy : Option ℕ

abbrev Replayed (B : Type) := World B × ReplayRecord

def noteChange [DecidableEq B] (n : ℕ) (op : Call B) (e : Env B) (w : World B) (r : ReplayRecord) :
    ReplayRecord :=
  { r with
    changed := r.changed ++ op.touched.filter fun k => w.client.replayMode ∧
      (handle n op e w).2.storage.documents k ≠ w.storage.documents k }

def noteFired (n : ℕ) (c : Client B) (w : World B) (r : ReplayRecord) : ReplayRecord :=
  { r with
    notes := Function.update r.notes n (r.notes n ++ c.fired.drop w.client.fired.length)
    endedBy := if w.client.replayMode ∧ ¬ c.replayMode then some n else r.endedBy }

def replayMachine [DecidableEq B] (n : ℕ) : Machine (Calls B) (Client B) (Env B) (Replayed B) :=
  (machine n fun _ _ _ => True).noting (noteChange n) (noteFired n) fun _ _ _ => True

structure Silent (fired : List Notification) (s : Replayed B) : Prop where
  made : ∃ l, s.1.client.fired = fired ++ l ∧ ∀ x, x ∈ l ↔ ∃ n, x ∈ s.2.notes n
  during : s.1.client.replayMode = true →
    s.1.client.fireSuppressed = true ∧ (∀ n, s.2.notes n = []) ∧ s.2.endedBy = none
  after : s.1.client.replayMode = false → s.1.client.replayChangedDocs = []

def replayProtocol (fired : List Notification) (n : ℕ) : Protocol (Replayed B) where
  inv := Silent fired
  rely s s' := (s'.1.client.replayMode = true → s.1.client.replayMode = true) ∧
    s'.2.notes n = s.2.notes n ∧ (s'.2.endedBy = some n ↔ s.2.endedBy = some n)
  guar s s' := (s'.1.client.replayMode = true → s.1.client.replayMode = true) ∧
    ∀ n' ≠ n, s'.2.notes n' = s.2.notes n' ∧ (s'.2.endedBy = some n' ↔ s.2.endedBy = some n')
  rely_refl _ := ⟨fun h => h, rfl, Iff.rfl⟩
  rely_trans h h' := ⟨fun hm => h.1 (h'.1 hm), h'.2.1.trans h.2.1, h'.2.2.trans h.2.2⟩
  guar_refl _ := ⟨fun h => h, fun _ _ => ⟨rfl, Iff.rfl⟩⟩

variable {fired : List Notification} {s : Replayed B}

def Continues (n : ℕ) (s : Replayed B) : Prop := s.2.endedBy ≠ some n

def EndsSilently (n : ℕ) (s : Replayed B) : Prop := s.2.endedBy = some n → s.2.notes n = []

lemma Continues.endsSilently (h : Continues n s) : EndsSilently n s := fun h' => absurd h' h

lemma EndsSilently.rely {s' : Replayed B} (h : EndsSilently n s)
    (hr : (replayProtocol fired n).rely s s') : EndsSilently n s' :=
  fun hend => hr.2.1.trans (h (hr.2.2.1 hend))

variable [DecidableEq B] {c : Client B} {t : AsyncFn B α} {f : α → AsyncFn B β}

abbrev Replayed.set (n : ℕ) (s : Replayed B) (c : Client B) : Replayed B :=
  (replayMachine n).setMemory c s

lemma Silent.section {l : List Notification}
    (h : Silent fired s) (hfired : c.fired = s.1.client.fired ++ l)
    (hmode : c.replayMode = true → s.1.client.replayMode = true)
    (hduring : c.replayMode = true → c.fireSuppressed = true ∧ l = [])
    (hafter : c.replayMode = false → c.replayChangedDocs = []) :
    Silent fired (s.set n c) ∧
      (replayProtocol fired n).guar s (s.set n c) ∧
      (s.set n c).2.notes n = s.2.notes n ++ l := by
  have hnotes : (s.set n c).2.notes =
      update s.2.notes n (s.2.notes n ++ l) := by
    change update s.2.notes n (s.2.notes n ++ c.fired.drop _) = _
    rw [hfired, drop_left]
  have hself : (s.set n c).2.notes n = s.2.notes n ++ l := by
    rw [hnotes, update_self]
  have hother : ∀ n' ≠ n, (s.set n c).2.notes n' = s.2.notes n' := by
    intro n' hn
    rw [hnotes, update_of_ne hn]
  have hended : ∀ n' ≠ n, (s.set n c).2.endedBy = some n' ↔
      s.2.endedBy = some n' := by
    intro n' hn
    change (if s.1.client.replayMode ∧ ¬ c.replayMode then some n else s.2.endedBy) = _ ↔ _
    split_ifs with hend
    · rw [(h.during hend.1).2.2]
      exact iff_of_false (fun h' => hn (Option.some.inj h').symm) nofun
    · exact Iff.rfl
  refine ⟨⟨?_, fun hc => ?_, hafter⟩, ⟨hmode, fun n' hn => ⟨hother n' hn, hended n' hn⟩⟩, hself⟩
  · obtain ⟨l0, hl0, hmem⟩ := h.made
    refine ⟨l0 ++ l, ?_, fun x => ?_⟩
    · change c.fired = _
      rw [hfired, hl0, append_assoc]
    · rw [mem_append, hmem]
      constructor
      · rintro (⟨n', hx⟩ | hx)
        · by_cases hn : n' = n
          · subst hn
            exact ⟨n', hself ▸ mem_append_left _ hx⟩
          · exact ⟨n', (hother n' hn).symm ▸ hx⟩
        · exact ⟨n, hself ▸ mem_append_right _ hx⟩
      · rintro ⟨n', hx⟩
        by_cases hn : n' = n
        · subst hn
          rw [hself, mem_append] at hx
          exact hx.imp_left fun hx => ⟨n', hx⟩
        · exact .inl ⟨n', (hother n' hn) ▸ hx⟩
  · obtain ⟨-, hnone, hend⟩ := h.during (hmode hc)
    refine ⟨(hduring hc).1, fun n' => ?_, ?_⟩
    · by_cases hn : n' = n
      · subst hn
        rw [hself, hnone, (hduring hc).2, append_nil]
      · rw [hother n' hn, hnone]
    · change (if s.1.client.replayMode ∧ ¬ c.replayMode then some n else s.2.endedBy) = none
      rw [if_neg fun h' => h'.2 hc, hend]

lemma Silent.noted (h : Silent fired s) (hfired : c.fired = s.1.client.fired)
    (hmode : c.replayMode = true → s.1.client.replayMode = true)
    (hsupp : c.replayMode = true → c.fireSuppressed = true)
    (hafter : c.replayMode = false → c.replayChangedDocs = []) (hs : s.2.notes n = []) :
    Silent fired (s.set n c) ∧
      (replayProtocol fired n).guar s (s.set n c) ∧
      (s.set n c).2.notes n = [] := by
  obtain ⟨hi, hg, hnotes⟩ := h.section (n := n) (hfired.trans (append_nil _).symm) hmode
    (fun hc => ⟨hsupp hc, rfl⟩) hafter
  exact ⟨hi, hg, by rw [hnotes, hs, append_nil]⟩

lemma endedBy_setMemory (hmode : s.1.client.replayMode = true → c.replayMode = true) :
    (s.set n c).2.endedBy = s.2.endedBy :=
  if_neg fun h => h.2 (hmode h.1)

lemma Silent.tame {f : Client B → Client B} (h : Silent fired s) (hf : Tame f) :
    Silent fired (s.set n (f s.1.client)) ∧
      (replayProtocol fired n).guar s (s.set n (f s.1.client)) ∧
      (s.set n (f s.1.client)).2.endedBy = s.2.endedBy := by
  obtain ⟨l, hl, hnone⟩ := hf.fired s.1.client
  have hmode := hf.mode s.1.client
  have hduring : (f s.1.client).replayMode = true →
      (f s.1.client).fireSuppressed = true ∧ l = [] := by
    intro hc
    have hsupp := (h.during (hmode ▸ hc)).1
    exact ⟨(hf.suppressed _).trans hsupp, hnone hsupp⟩
  have hafter : (f s.1.client).replayMode = false → (f s.1.client).replayChangedDocs = [] := by
    intro hc
    rw [hf.changed _ (hmode ▸ hc)]
    exact h.after (hmode ▸ hc)
  obtain ⟨hi, hg, -⟩ := h.section (n := n) hl (fun hc => hmode ▸ hc) hduring hafter
  exact ⟨hi, hg, endedBy_setMemory fun hc => hmode.trans hc⟩

lemma Silent.call (h : Silent fired s) (op : Call B) (e : Env B) :
    Silent fired ((replayMachine n).handle op e s).2 ∧
      (replayProtocol fired n).guar s ((replayMachine n).handle op e s).2 := by
  have hclient : ((replayMachine n).handle op e s).2.1.client = s.1.client := handle_client op e s.1
  refine ⟨⟨?_, ?_, ?_⟩, fun h' => hclient ▸ h', fun _ _ => ⟨rfl, Iff.rfl⟩⟩
  · rw [hclient]
    exact h.made
  · rw [hclient]
    exact h.during
  · rw [hclient]
    exact h.after

abbrev Replays (fired : List Notification) (n : ℕ)
    (Q : Except VaultSyncError α → Replayed B → Prop) (t : AsyncFn B α) (s : Replayed B) : Prop :=
  Safe (replayMachine n) (replayProtocol fired n) Q t s

abbrev Proceeds (fired : List Notification) (n : ℕ) (t : AsyncFn B α) (s : Replayed B) : Prop :=
  Replays fired n (fun _ => Continues n) t s

/-! ## The end of the replay -/

lemma safe_flushReplayNotifications (hoff : ¬ s.1.client.replayMode = true)
    (hs : s.2.notes n = []) :
    Replays fired n (fun _ s' => s'.2.notes n = []) (flushReplayNotifications L) s := by
  intro s1 hi1 hr1
  have hoff1 : s1.1.client.replayMode = false := Bool.eq_false_iff.2 fun h => hoff (hr1.1 h)
  obtain ⟨hi2, hg2, hs2⟩ := hi1.noted (n := n) rfl (fun h => h) (fun h => (hi1.during h).1)
    hi1.after (hr1.2.1.trans hs)
  refine ⟨hi2, hg2, ?_⟩
  change Safe _ _ _ (hashOrder s1.1.client.replayChangedDocs >>= _) _
  rw [hi1.after hoff1]
  intro s3 hi3 hr3 e _
  obtain ⟨hi4, hg4⟩ := Silent.call (n := n) hi3 (.hashOrder []) e
  refine ⟨hi4, hg4, ?_⟩
  have hkeys : (e.keyOrder []).1 = [] := (e.keyOrder []).2.eq_nil
  change Safe _ _ _ ((e.keyOrder []).1.forM (fireDoc L) >>= _) _
  rw [hkeys]
  intro s5 hi5 hr5
  have hs5 : s5.2.notes n = [] := hr5.2.1.trans (hr3.2.1.trans hs2)
  obtain ⟨hi6, hg6, hs6⟩ := hi5.noted (n := n)
    (c := { s5.1.client with replayChangedDocs := [] }) rfl (fun h => h)
    (fun h => (hi5.during h).1) (fun _ => rfl) hs5
  exact ⟨hi6, hg6, fun s7 _ hr7 => hr7.2.1.trans hs6⟩

lemma safe_endReplay_replay (hs : Continues n s) :
    Replays fired n (fun _ => EndsSilently n) (endReplay L) s := by
  intro s1 hi1 hr1
  have hs1 : Continues n s1 := fun h => hs (hr1.2.2.1 h)
  obtain ⟨hi2, hg2, hend2⟩ := Silent.tame (n := n) hi1 tame_id
  refine ⟨hi2, hg2, ?_⟩
  refine safe_ite (fun hon s3 hi3 hr3 => ?_) fun _ s3 _ hr3 h => ?_
  · have hon : s1.1.client.replayMode = true := hon
    have hs2 := (hi1.noted (n := n) rfl (fun h => h) (fun h => (hi1.during h).1) hi1.after
      ((hi1.during hon).2.1 n)).2.2
    have hs3 : s3.2.notes n = [] := hr3.2.1.trans hs2
    obtain ⟨hi4, hg4, hs4⟩ := hi3.noted (n := n) (c := s3.1.client.setReplayMode false) rfl
      nofun nofun (fun _ => rfl) hs3
    refine ⟨hi4, hg4, ?_⟩
    have hoff : ¬ (s3.1.client.setReplayMode false).replayMode = true := Bool.false_ne_true
    exact (safe_flushReplayNotifications hoff hs4).mono fun _ _ _ h _ => h
  · exact absurd (hend2 ▸ hr3.2.2.1 h) hs1

lemma safe_advanceCursor_replay {ms : List (PendingMutation B)} (hs : EndsSilently n s) :
    Replays fired n (fun _ => EndsSilently n) (advanceCursor ms) s := by
  have hnone : (advanceCursor ms).Sections fun _ : Client B → Client B => False := by
    unfold advanceCursor
    cases ms.getLast? with
    | none => trivial
    | some last => exact fun r => (sections_ofExcept r).bind fun _ _ => trivial
  refine hnone.safe (fun _ _ hr h => h.rely hr) (fun op e s' hi h => ?_) (fun _ _ h => h.elim) hs
  obtain ⟨hi', hg⟩ := Silent.call (n := n) hi op e
  exact ⟨hi', hg, h⟩

/-! ## Calls -/

section

variable (hi : Silent fired s) (hs : Continues n s)

include hs

lemma safe_tame (ht : t.Sections Tame) : Proceeds fired n t s := by
  have hrely : ∀ s s' : Replayed B, (replayProtocol fired n).rely s s' →
      Continues n s → Continues n s' := fun s s' hr h h' => h (hr.2.2.1 h')
  refine ht.safe hrely (fun op e s' hi h => ?_) (fun f s' hf hi h => ?_) hs
  · obtain ⟨hi', hg⟩ := Silent.call hi op e
    exact ⟨hi', hg, h⟩
  · obtain ⟨hi', hg, hend⟩ := Silent.tame (n := n) hi hf
    exact ⟨hi', hg, fun h' => h (hend ▸ h')⟩

lemma safe_done {a : α} : Proceeds fired n (pure a : AsyncFn B α) s :=
  fun _ _ hr h => hs (hr.2.2.1 h)

lemma safe_fireUnlessSuppressed (source : FireSource) (k : Key) (st : CrdtState) :
    Proceeds fired n
      (do
        if ← AsyncFn.read (·.fireSuppressed) then
          return ()
        fire source k st : AsyncFn B Unit) s := by
  intro s1 hi1 hr1
  have hs1 : Continues n s1 := fun h => hs (hr1.2.2.1 h)
  obtain ⟨hi2, hg2, hend2⟩ := Silent.tame (n := n) hi1 tame_id
  refine ⟨hi2, hg2, ?_⟩
  have hs2 : ((replayMachine n).setMemory (id s1.1.client) s1).2.endedBy ≠ some n := hend2 ▸ hs1
  refine safe_ite (fun _ s3 _ hr3 h => hs2 (hr3.2.2.1 h)) fun hsupp s3 hi3 hr3 => ?_
  -- replay mode was off when the section was entered, and is off since
  have hoff : ¬ s3.1.client.replayMode = true :=
    fun h => hsupp (hi1.during (hr3.1 h)).1
  have hs3 : Continues n s3 := fun h => hs2 (hr3.2.2.1 h)
  obtain ⟨hi4, hg4, -⟩ := hi3.section (n := n)
    (c := { s3.1.client with fired := s3.1.client.fired ++ [(source, k, st)] }) rfl
    (fun h => h) (fun h => absurd h hoff) hi3.after
  refine ⟨hi4, hg4, fun s5 _ hr5 h => ?_⟩
  have hend := endedBy_setMemory (n := n) (s := s3)
    (c := { s3.1.client with fired := s3.1.client.fired ++ [(source, k, st)] }) fun h => h
  exact hs3 (hend ▸ hr5.2.2.1 h)

include hi

lemma safe_tame_then {Q : Except VaultSyncError β → Replayed B → Prop} (ht : t.Sections Tame)
    (h : ∀ a s', Silent fired s' → Continues n s' → Replays fired n Q (f a) s')
    (herr : ∀ err s', Continues n s' → Q (.error err) s') : Replays fired n Q (t >>= f) s :=
  bind hi (safe_tame hs ht) h fun err s' _ hs' => herr err s' hs'

lemma safe_tame_bind (ht : t.Sections Tame)
    (h : ∀ a s', Silent fired s' → Continues n s' → Proceeds fired n (f a) s') :
    Proceeds fired n (t >>= f) s :=
  safe_tame_then hi hs ht h fun _ _ hs' => hs'

lemma safe_storeMerged_replay (entry : OplogEntry B) (existing : Option B) (doc : CRDTDocument) :
    Proceeds fired n (storeMerged L entry existing doc) s := by
  unfold storeMerged
  refine safe_tame_bind (t := insertDocument _ _) hi hs (fun r => sections_ofExcept r)
    fun _ s1 hi1 hs1 => ?_
  refine safe_tame_bind hi1 hs1 (tame_modify (tame_of_eq (fun _ => rfl) (fun _ => rfl) (fun _ => rfl)
    fun _ _ => rfl)) fun _ s2 hi2 hs2 => ?_
  exact safe_ite (fun _ => safe_fireUnlessSuppressed hs2 _ _ _) fun _ => safe_done hs2

lemma safe_applyRemoteUpdate_replay (entry : OplogEntry B) :
    Proceeds fired n (applyRemoteUpdate L entry) s := by
  unfold applyRemoteUpdate
  refine safe_tame_bind hi hs tame_read fun seen s1 hi1 hs1 => ?_
  refine safe_ite (fun _ => safe_done hs1) fun _ => ?_
  refine safe_tame_bind (t := getDocument _) hi1 hs1 (fun r => sections_ofExcept r)
    fun existing s2 hi2 hs2 => ?_
  refine safe_tame_bind hi2 hs2 (tame_loadOrNew _ _) fun doc s3 hi3 hs3 => ?_
  refine safe_ite (fun _ => safe_storeMerged_replay hi3 hs3 entry existing doc) fun _ => ?_
  exact safe_tame_bind hi3 hs3 (sections_ofExcept _) fun doc s4 hi4 hs4 =>
    safe_storeMerged_replay hi4 hs4 entry existing doc

lemma safe_applySnapshots_replay (snaps : List (Snapshot B)) :
    Proceeds fired n (applySnapshots L cfg snaps) s := by
  induction snaps generalizing s with
  | nil => exact safe_done hs
  | cons snap snaps ih =>
    exact bind hi (safe_applyRemoteUpdate_replay hi hs _) (fun _ _ hi1 hs1 => ih hi1 hs1)
      fun _ _ _ h => h

lemma safe_tryFetchSnapshot_replay : Proceeds fired n (tryFetchSnapshot L cfg) s := by
  unfold tryFetchSnapshot
  refine safe_tame_bind (t := loadLastSequence) hi hs (fun _ => trivial) fun after s1 hi1 hs1 => ?_
  refine safe_ite (fun _ => safe_done hs1) fun _ => ?_
  refine safe_tame_bind (t := listSnapshots _) hi1 hs1 (fun _ => trivial)
    fun answer s2 hi2 hs2 => ?_
  cases answer with
  | error err => exact safe_done hs2
  | ok listed =>
    refine safe_ite (fun _ => safe_done hs2) fun _ => ?_
    refine safe_tame_bind (t := hashOrder _) hi2 hs2 (fun _ => trivial) fun keys s3 hi3 hs3 => ?_
    refine bind hi3 (safe_applySnapshots_replay hi3 hs3 _) (fun _ s4 hi4 hs4 => ?_)
      fun _ _ _ h => h
    refine safe_tame hs4 ?_
    exact fun r => (sections_ofExcept r).bind fun _ _ => trivial

lemma safe_processBatch_replay :
    Replays fired n (fun _ => EndsSilently n) (processBatch L cfg) s := by
  unfold processBatch
  have hcatch : ∀ s', Silent fired s' → Continues n s' →
      Proceeds fired n (snapshotCatchUp L cfg) s' := by
    intro s' hi' hs'
    refine safe_ite (fun _ => ?_) fun _ => safe_done hs'
    have hfetch : Proceeds fired n ((tryFetchSnapshot L cfg).attempt : AsyncFn B _) s' :=
      attempt (safe_tryFetchSnapshot_replay hi' hs')
    exact bind hi' hfetch (fun _ _ _ h => safe_done h) fun _ _ _ h => h
  have herr : ∀ (err : VaultSyncError) (s' : Replayed B), Continues n s' →
      EndsSilently n s' := fun _ _ h => h.endsSilently
  refine safe_tame_then (t := checkGeneration cfg) hi hs ?_ (fun _ s1 hi1 hs1 => ?_) herr
  · refine fun g => ite trivial fun r => ?_
    exact (sections_ofExcept r).bind fun _ => trivial
  refine safe_tame_then (t := loadLastSequence) hi1 hs1 (fun _ => trivial)
    (fun after s2 hi2 hs2 => ?_) herr
  refine bind hi2 (hcatch s2 hi2 hs2) (fun _ s3 hi3 hs3 => ?_) fun err s' _ => herr err s'
  refine safe_tame_then (t := pull _ _ _) hi3 hs3 (fun _ => trivial)
    (fun answer s4 hi4 hs4 => ?_) herr
  cases answer with
  | error err => cases err <;> exact fun s' _ hr => hs4.endsSilently.rely hr
  | ok page =>
    refine safe_tame_then hi4 hs4 (sections_ofExcept _) (fun entries s5 hi5 hs5 => ?_) herr
    have hmerge : (mergePulled L entries).Sections Tame :=
      ite trivial (tame_applyBatch entries)
    refine safe_tame_then hi5 hs5 hmerge (fun _ s6 hi6 hs6 => ?_) herr
    refine bind hi6 (safe_endReplay_replay hs6) (fun _ s7 hi7 hs7 => ?_) fun _ _ _ h => h
    exact bind hi7 (safe_advanceCursor_replay hs7) (fun _ _ _ h => fun _ _ hr => h.rely hr)
      fun _ _ _ h => h

lemma safe_processPushMutation_replay (m : PendingMutation B) :
    Proceeds fired n (processPushMutation L cfg m) s := by
  unfold processPushMutation
  refine safe_ite (fun _ => safe_tame hs ?_) fun _ => ?_
  · refine fun after => ite (fun r => ?_) trivial
    exact (sections_ofExcept r).bind fun _ _ => trivial
  refine safe_tame_bind hi hs (sections_ofExcept _) fun decrypted s1 hi1 hs1 => ?_
  refine safe_tame_bind (t := loadLastSequence) hi1 hs1 (fun _ => trivial) fun after s2 hi2 hs2 => ?_
  refine safe_ite (fun _ => ?_) fun _ => ?_
  · refine safe_tame hs2 ((tame_modify (tame_of_eq ?_ ?_ ?_ ?_)).bind fun _ => trivial)
    all_goals intros; rfl
  unfold pushForeign
  refine bind hi2 (safe_applyRemoteUpdate_replay hi2 hs2 _) (fun _ s3 hi3 hs3 => ?_)
    fun _ _ _ h => h
  refine safe_tame_bind hi3 hs3 (tame_modify (tame_noteReplayed m.key)) fun _ s4 hi4 hs4 => ?_
  refine safe_tame hs4 ?_
  refine fun r => (sections_ofExcept r).bind fun _ _ => ?_
  refine (tame_modify (tame_of_eq ?_ ?_ ?_ ?_)).bind fun _ => trivial
  all_goals intros; rfl

end

/-- Calls of the download queue at once, while everything but the client's memory changes as it
likes. No call has the number of the one that ended replay mode. -/
def replays (L : Lib B) (cfg : Config) :
    System (Calls B) (Client B) VaultSyncError (Env B) (Replayed B) (Task B) Unit where
  machine t := replayMachine t.number
  prog t := t.job.prog L cfg
  mayStart t ts s := (∀ u ∈ ts, t.number ≠ u.number) ∧ s.2.endedBy ≠ some t.number
  env s s' := s'.1.client = s.1.client ∧ s'.2 = s.2

def replaysProof (L : Lib B) (cfg : Config) (fired : List Notification) :
    (replays L cfg).Proof where
  inv := Silent fired
  protocol t := replayProtocol fired t.number
  post t _ := EndsSilently t.number
  together t u := t.number ≠ u.number
  inv_iff _ _ := Iff.rfl
  env_safe s s' hi h := by
    obtain ⟨hclient, hrecord⟩ := h
    refine ⟨⟨?_, ?_, ?_⟩, fun t => ⟨fun h => hclient ▸ h, by rw [hrecord], by rw [hrecord]⟩⟩
    · rw [hclient, hrecord]
      exact hi.made
    · rw [hclient, hrecord]
      exact hi.during
    · rw [hclient]
      exact hi.after
  guar_rely t u s s' hne _ _ hg := ⟨hg.1, hg.2 u.number fun h => hne h.symm⟩
  start_together t ts s _ hstart u hu := ⟨hstart.1 u hu, fun h => hstart.1 u hu h.symm⟩
  safe t _ _ hi hstart := by
    obtain ⟨n, job⟩ := t
    cases job with
    | batch =>
      exact bind hi (safe_processBatch_replay hi hstart.2) (fun _ _ _ h _ _ hr => h.rely hr)
        fun _ _ _ h => h
    | pushed m =>
      exact bind hi (safe_processPushMutation_replay hi hstart.2 m)
        (fun _ _ _ h _ _ hr => h.endsSilently.rely hr) fun _ _ _ h => h.endsSilently

def startReplay (w : World B) : Replayed B :=
  (w.setClient (w.client.setReplayMode true), ⟨[], fun _ => [], none⟩)

omit [DecidableEq B] in
lemma silent_startReplay (w : World B) : Silent w.client.fired (startReplay w) where
  made := ⟨[], (append_nil _).symm, fun _ => by simp [startReplay]⟩
  during _ := ⟨rfl, fun _ => rfl, rfl⟩
  after h := by cases h

def Notified (L : Lib B) (fired : List Notification) (w : World B) (k : Key) : Prop :=
  ∃ source, (source, k, docState L w k) ∈ w.client.fired.drop fired.length

namespace ReplayNotifications

abbrev symReplays := replays Sym.lib (Sym.config 0)

def batch : AsyncFn Sym Unit := Job.prog Sym.lib (Sym.config 0) .batch

def pushed (m : PendingMutation Sym) : AsyncFn Sym Unit := Job.prog Sym.lib (Sym.config 0) (.pushed m)

def mutation (id : String) (sequence client : ℕ) : PendingMutation Sym :=
  InMemoryCoordinator.pending "ns" sequence (Sym.mutation id "b" ⟨{client}, ∅⟩)

def behind : World Sym :=
  .new (InMemoryCoordinator.new.push "ns" [Sym.mutation "1" "b" ⟨{5}, ∅⟩]).2

def ended : AsyncFn Sym Unit × Replayed Sym := advance (replayMachine 0) 15 batch (startReplay behind)

def besidePushed : AsyncFn Sym Unit × Replayed Sym :=
  advance (replayMachine 1) 30 (pushed (mutation "2" 2 7)) ended.2

def returned : AsyncFn Sym Unit × Replayed Sym :=
  advance (replayMachine 0) 10 ended.1 besidePushed.2

lemma reachable_returned : symReplays.Reachable ⟨[], startReplay behind⟩
    ⟨[(⟨1, .pushed (mutation "2" 2 7)⟩, besidePushed.1), (⟨0, .batch⟩, returned.1)],
      returned.2⟩ := by
  have hbatch := symReplays.reachable_started_advance ⟨0, .batch⟩ 15 [] (startReplay behind)
    ⟨nofun, nofun⟩ fun _ _ => trivial
  have hpush := symReplays.reachable_started_advance ⟨1, .pushed (mutation "2" 2 7)⟩ 30
    [(⟨0, .batch⟩, ended.1)] ended.2
    ⟨fun u hu => by rw [mem_singleton.1 hu]; decide, by decide⟩ fun _ _ => trivial
  have hrest : symReplays.Reachable
      ⟨[(⟨1, .pushed (mutation "2" 2 7)⟩, besidePushed.1)] ++ [(⟨0, .batch⟩, ended.1)],
        besidePushed.2⟩
      ⟨[(⟨1, .pushed (mutation "2" 2 7)⟩, besidePushed.1)] ++ [(⟨0, .batch⟩, returned.1)],
        returned.2⟩ :=
    System.reachable_advance 10 _ ended.1 [] besidePushed.2 fun _ _ => trivial
  exact (hbatch.trans hpush).trans hrest

def replayed : AsyncFn Sym Unit × Replayed Sym :=
  advance (replayMachine 0) 30 (pushed (mutation "1" 1 5)) (startReplay (.new .new))

def flushed : AsyncFn Sym Unit × Replayed Sym := advance (replayMachine 1) 30 batch replayed.2

end ReplayNotifications

end DownloadQueue

end VaultSync
