import VaultSync.Sync.DownloadCursor
import VaultSync.Sync.SnapshotCatchUp

/-! The order of the cursors. Every call writes them unconditionally, with a sequence it compared
with the cursor before its last await; in runs where nobody else has moved the cursor since, and
where no page ends behind it, neither cursor goes back. -/

namespace VaultSync

open Async AsyncFn World List Function Call.Merges Sym

variable {B α : Type} {L : Lib B} {cfg : Config} {n : ℕ}

def Call.Steady : Call B → Prop
  | .setCursor _ _ | .loadLastSequence | .swapLastSequence _ => False
  | _ => True

lemma Call.Merges.steady (op : Call B) (h : op.Merges) : op.Steady := by
  cases op <;> trivial

lemma Call.Steady.cursors {op : Call B} (h : op.Steady) (e : Env B) (w : World B) :
    (handle n op e w).2.lastSequence = w.lastSequence ∧
      (handle n op e w).2.storeCursor = w.storeCursor := by
  cases op <;> first
    | exact h.elim
    | exact ⟨rfl, rfl⟩
    | (simp only [handle, onStorage, onCoordinator, onCursor]
       split <;> first | exact ⟨rfl, rfl⟩ | (split <;> exact ⟨rfl, rfl⟩))

namespace DownloadQueue

/-! ## What a call has seen of the cursor -/

abbrev Watched (B : Type) := World B × (ℕ → ℕ)

variable (n)

def noteLook : Call B → Env B → World B → (ℕ → ℕ) → ℕ → ℕ
  | .loadLastSequence, _, w, looks => Function.update looks n w.lastSequence
  | .swapLastSequence seq, _, _, looks => Function.update looks n seq
  | _, _, _, looks => looks

def watch (A : Call B → Env B → Watched B → Prop) :
    Machine (Calls B) (Client B) (Env B) (Watched B) :=
  (machine n fun _ _ _ => True).noting (noteLook n) (fun _ _ looks => looks) A

/-- The calls whose writes are in order: nobody else has moved `last_sequence` since call `n` last
read or wrote it, the store is not ahead of it, and a page that is pulled does not end behind it. -/
def Undisturbed : Call B → Env B → Watched B → Prop
  | .setCursor _ _, _, s => s.1.lastSequence = s.2 n ∧ s.1.storeCursor ≤ s.1.lastSequence
  | .swapLastSequence _, _, s => s.1.lastSequence = s.2 n
  | .pull ns after limit, _, s =>
    ∀ m ∈ (s.1.service.log.pull ns after limit).getLast?, s.1.lastSequence ≤ m.sequence
  | _, _, _ => True

def Ahead (s s' : Watched B) : Prop :=
  s.1.lastSequence ≤ s'.1.lastSequence ∧ s.1.storeCursor ≤ s'.1.storeCursor

lemma Ahead.refl (s : Watched B) : Ahead s s := ⟨le_rfl, le_rfl⟩

lemma Ahead.trans {s t u : Watched B} (h : Ahead s t) (h' : Ahead t u) : Ahead s u :=
  ⟨h.1.trans h'.1, h.2.trans h'.2⟩

def ordered : Protocol (Watched B) where
  inv s := ∀ n, s.2 n ≤ s.1.lastSequence
  rely s s' := Ahead s s' ∧ s'.2 n = s.2 n
  guar s s' := Ahead s s' ∧ ∀ n' ≠ n, s'.2 n' = s.2 n'
  rely_refl s := ⟨.refl s, rfl⟩
  rely_trans h h' := ⟨h.1.trans h'.1, h'.2.trans h.2⟩
  guar_refl s := ⟨.refl s, fun _ _ => rfl⟩

abbrev Orderly (Q : Except VaultSyncError α → Watched B → Prop) (t : AsyncFn B α)
    (s : Watched B) : Prop := Safe (watch n (Undisturbed n)) (ordered n) Q t s

/-- The writes of a call are in order, whatever it returns. -/
abbrev Forward (t : AsyncFn B α) (s : Watched B) : Prop := Orderly n (fun _ _ => True) t s

variable {n} {β : Type} {s : Watched B}

lemma guar_of_same (s' : Watched B) (hlast : s'.1.lastSequence = s.1.lastSequence)
    (hstore : s'.1.storeCursor = s.1.storeCursor) (hlooks : s'.2 = s.2) (hi : (ordered n).inv s) :
    (ordered n).inv s' ∧ (ordered n).guar s s' := by
  have hinv : (ordered n).inv s' := by
    intro n'
    rw [hlast, hlooks]
    exact hi n'
  exact ⟨hinv, ⟨hlast.ge, hstore.ge⟩, fun _ _ => by rw [hlooks]⟩

lemma step_steady {op : Call B} (hop : op.Steady) (e : Env B) (hi : (ordered n).inv s) :
    (ordered n).inv ((watch n (Undisturbed n)).handle op e s).2 ∧
      (ordered n).guar s ((watch n (Undisturbed n)).handle op e s).2 ∧
      ((watch n (Undisturbed n)).handle op e s).2.2 n = s.2 n := by
  have hlooks : noteLook n op e s.1 s.2 = s.2 := by
    cases op <;> first | rfl | exact hop.elim
  obtain ⟨hi', hg⟩ := guar_of_same ((watch n (Undisturbed n)).handle op e s).2
    (hop.cursors e s.1).1 (hop.cursors e s.1).2 hlooks hi
  exact ⟨hi', hg, congrFun hlooks n⟩

lemma safe_steady {t : AsyncFn B α} (ht : t.Only Call.Steady) :
    Orderly n (fun _ s' => s'.2 n = s.2 n) t s := by
  refine ht.safe (fun _ _ hr h => hr.2.trans h) (fun op e s' hop hi _ h => ?_)
    (fun c s' hi h => ?_) rfl
  · obtain ⟨hi', hg, hlook⟩ := step_steady hop e hi
    exact ⟨hi', hg, hlook.trans h⟩
  · obtain ⟨hi', hg⟩ := guar_of_same (s'.1.setClient c, s'.2) rfl rfl rfl hi
    exact ⟨hi', hg, h⟩

lemma safe_steady_bind {t : AsyncFn B α} {f : α → AsyncFn B β} (ht : t.Only Call.Steady)
    (hi : (ordered n).inv s)
    (h : ∀ a s', (ordered n).inv s' → s'.2 n = s.2 n → Forward n (f a) s') :
    Forward n (t >>= f) s :=
  Safe.bind hi (safe_steady ht) h fun _ _ _ _ => trivial

lemma forward_done {a : α} : Forward n (pure a : AsyncFn B α) s := fun _ _ _ => trivial

lemma Forward.bind {t : AsyncFn B α} {f : α → AsyncFn B β} (hi : (ordered n).inv s)
    (ht : Forward n t s) (h : ∀ a s', (ordered n).inv s' → Forward n (f a) s') :
    Forward n (t >>= f) s :=
  Safe.bind hi ht (fun a s' hi' _ => h a s' hi') fun _ _ _ _ => trivial

lemma safe_ask {op : Call B} {k : op.Ans → AsyncFn B β} (hop : op.Steady)
    (h : ∀ s' e s'', (ordered n).inv s' → Undisturbed n op e s' → (ordered n).inv s'' →
      s''.2 n = s'.2 n → s''.2 n = s.2 n →
      Forward n (k (handle n op e s'.1).1) s'') : Forward n (.call op k) s := by
  intro s' hi hr e he
  obtain ⟨hi', hg, hlook⟩ := step_steady hop e hi
  exact ⟨hi', hg, h s' e _ hi he hi' hlook (hlook.trans hr.2)⟩

lemma safe_ask_order {keys : List Key} {f : List Key → AsyncFn B β}
    (h : ∀ (o : Call.Order keys) s', (ordered n).inv s' → s'.2 n = s.2 n → Forward n (f o.1) s') :
    Forward n (hashOrder keys >>= f) s :=
  safe_ask trivial fun _ e s' _ _ hi _ hlook => h (e.keyOrder keys) s' hi hlook

lemma safe_ask_page {ns : String} {after limit : ℕ}
    {f : Except CoordinatorError (List (PendingMutation B)) → AsyncFn B β}
    (h : ∀ r s', (ordered n).inv s' →
      (∀ page, r = .ok page → ∀ m ∈ page.getLast?, s'.2 n ≤ m.sequence) →
      Forward n (f r) s') : Forward n (pull ns after limit >>= f) s := by
  refine safe_ask trivial fun s' e s'' hi' hpage hi hlook _ => h _ s'' hi fun page hr m hm => ?_
  change (onCoordinator e s'.1 _ s'.1.service.log).1 = _ at hr
  unfold onCoordinator at hr
  cases hfault : e.coordinatorFault with
  | some err =>
    rw [hfault] at hr
    cases hr
  | none =>
    rw [hfault] at hr
    cases hr
    have hlast : s'.1.lastSequence ≤ m.sequence := hpage m hm
    exact hlook.le.trans ((hi' n).trans hlast)

lemma inv_noted {w : World B} (hi : (ordered n).inv s) (hle : s.1.lastSequence ≤ w.lastSequence) :
    (ordered n).inv (w, update s.2 n w.lastSequence) := by
  intro n'
  by_cases hn : n' = n
  · subst hn
    exact (update_self ..).le
  · exact (update_of_ne hn ..).le.trans ((hi n').trans hle)

lemma safe_look {f : ℕ → AsyncFn B β}
    (h : ∀ s' : Watched B, (ordered n).inv s' → Forward n (f (s'.2 n)) s') :
    Forward n (loadLastSequence >>= f) s := by
  intro s' hi _ e _
  have hnext : ((watch n (Undisturbed n)).handle .loadLastSequence e s').2 =
      (s'.1, update s'.2 n s'.1.lastSequence) := rfl
  have hinv := inv_noted hi le_rfl
  rw [hnext]
  refine ⟨hinv, ⟨⟨le_rfl, le_rfl⟩, fun n' hn => update_of_ne hn ..⟩, ?_⟩
  have hsafe := h _ hinv
  dsimp only at hsafe
  rw [update_self] at hsafe
  exact hsafe

lemma safe_advance {seq : ℕ} {caller : String} {f : ℕ → AsyncFn B β} (hseq : s.2 n ≤ seq)
    (h : ∀ v s', (ordered n).inv s' → Forward n (f v) s') :
    Forward n (setCursor seq caller >>= fun _ => swapLastSequence seq >>= f) s := by
  intro s1 hi1 hr1 e1 he1
  have hseq1 : s1.2 n ≤ seq := hr1.2.trans_le hseq
  obtain ⟨hlast1, hstore1⟩ : s1.1.lastSequence = s1.2 n ∧ s1.1.storeCursor ≤ s1.1.lastSequence := he1
  have hhandle : (watch n (Undisturbed n)).handle (.setCursor seq caller) e1 s1 =
      ((onCursor e1 s1.1 () seq).1, (onCursor e1 s1.1 () seq).2, s1.2) := rfl
  rw [hhandle]
  unfold onCursor
  cases e1.cursorFault with
  | some err => exact ⟨hi1, (ordered n).guar_refl s1, fun _ _ _ => trivial⟩
  | none =>
    have hstored : s1.1.storeCursor ≤ seq := hstore1.trans (hlast1.trans_le hseq1)
    refine ⟨hi1, ⟨⟨le_rfl, hstored⟩, fun _ _ => rfl⟩, ?_⟩
    intro s2 hi2 hr2 e2 he2
    have hseq2 : s2.2 n ≤ seq := hr2.2.trans_le hseq1
    have hlast2 : s2.1.lastSequence ≤ seq := (show s2.1.lastSequence = s2.2 n from he2).trans_le hseq2
    have hnext : ((watch n (Undisturbed n)).handle (.swapLastSequence seq) e2 s2).2 =
      (s2.1.setLastSequence seq, update s2.2 n seq) := rfl
    have hinv := inv_noted (w := s2.1.setLastSequence seq) hi2 hlast2
    rw [hnext]
    exact ⟨hinv, ⟨⟨hlast2, le_rfl⟩, fun n' hn => update_of_ne hn ..⟩, h _ _ hinv⟩

/-! ## The calls -/

lemma steady_checkGeneration : (checkGeneration (B := B) cfg).Only Call.Steady :=
  ⟨trivial, fun _ => Prog.Only.ite trivial ⟨trivial, fun r =>
    (Prog.only_ofExcept r).bind fun _ => trivial⟩⟩

lemma safe_pushOwn_ordered {m : PendingMutation B} : Forward n (pushOwn m) s := by
  refine safe_look fun s1 _ => ?_
  exact safe_ite (fun hlt => safe_advance hlt.le fun _ _ _ => forward_done) fun _ => forward_done

lemma safe_advanceCursor_ordered {ms : List (PendingMutation B)}
    (h : ∀ m ∈ ms.getLast?, s.2 n ≤ m.sequence) :
    Forward n (advanceCursor ms) s := by
  unfold advanceCursor
  cases hlast : ms.getLast? with
  | none => exact forward_done
  | some last => exact safe_advance (h last hlast) fun _ _ _ => forward_done

lemma lt_maxSeq {cursor : ℕ} {latest : List (Snapshot B)} {order : List Key}
    (horder : order.Perm (latest.map Snapshot.key)) (hkeys : (latest.map Snapshot.key).Nodup)
    (hne : latest ≠ []) (habove : ∀ s ∈ latest, cursor < s.sequence) :
    cursor < ((inSequenceOrder latest order).getLast?.map Snapshot.sequence).getD 0 := by
  have hmem : ∀ s, s ∈ inSequenceOrder latest order ↔ s ∈ latest :=
    fun s => mem_inSequenceOrder horder hkeys
  cases hlast : (inSequenceOrder latest order).getLast? with
  | none =>
    obtain ⟨s, hs⟩ := exists_mem_of_ne_nil _ hne
    have hs' := (hmem s).2 hs
    rw [List.getLast?_eq_none_iff.1 hlast] at hs'
    cases hs'
  | some last => exact habove last ((hmem last).1 (mem_of_getLast? hlast))

variable [DecidableEq B]

lemma safe_processPushMutation_ordered {m : PendingMutation B} (hi : (ordered n).inv s) :
    Forward n (processPushMutation L cfg m) s := by
  unfold processPushMutation
  refine safe_ite (fun _ => safe_pushOwn_ordered) fun _ => ?_
  refine safe_steady_bind (Prog.only_ofExcept _) hi fun decrypted s1 _ _ => ?_
  refine safe_look fun s2 hi2 => safe_ite (fun _ => ?_) fun hle => ?_
  · exact safe_steady_bind (fun _ => trivial) hi2 fun _ _ _ _ => forward_done
  · have hmerge := (merges_applyRemoteUpdate (L := L)
      (remoteEntry L m decrypted .pushMutation)).mono steady
    refine safe_steady_bind hmerge hi2 fun _ s3 hi3 hlook3 => ?_
    refine safe_steady_bind (fun _ => trivial) hi3 fun _ s4 _ hlook4 => ?_
    have hseq : s4.2 n ≤ m.sequence := by
      rw [hlook4, hlook3]
      exact (not_le.1 hle).le
    refine safe_advance hseq fun _ s5 hi5 => ?_
    exact safe_steady_bind (fun _ => trivial) hi5 fun _ _ _ _ => forward_done

lemma safe_restoreSnapshots_ordered {latest : List (Snapshot B)}
    (hkeys : (latest.map Snapshot.key).Nodup) (hne : latest ≠ [])
    (habove : ∀ t ∈ latest, s.2 n < t.sequence) :
    Forward n (restoreSnapshots L cfg latest) s := by
  unfold restoreSnapshots
  refine safe_ask_order fun order s1 hi1 hlook1 => ?_
  have hmerge : (applySnapshots L cfg (inSequenceOrder latest order.1)).Only Call.Steady :=
    (merges_applySnapshots _).mono steady
  have hlt := lt_maxSeq order.2 hkeys hne habove
  refine safe_steady_bind hmerge hi1 fun _ s2 _ hlook2 => ?_
  have hle := (hlook2.trans hlook1).trans_le hlt.le
  exact safe_advance hle fun _ _ _ => forward_done

lemma safe_tryFetchSnapshot_ordered : Forward n (tryFetchSnapshot L cfg) s := by
  refine safe_look fun s1 _ => safe_ite (fun _ => forward_done) fun _ => ?_
  refine safe_ask trivial fun s' e s2 _ _ _ _ hlook2 => ?_
  cases (handle n (.listSnapshots cfg.namespace) e s'.1).1 with
  | error err => exact forward_done
  | ok listed =>
    have hlatest := isLatest_latestSnapshots (listed.filter fun t => s1.2 n < t.sequence)
    refine safe_ite (fun _ => forward_done) fun hnone => ?_
    refine safe_restoreSnapshots_ordered hlatest.keys (fun hnil => ?_) fun t ht => ?_
    · obtain ⟨t, ht⟩ := exists_mem_of_ne_nil _ (fun h => hnone (isEmpty_iff.2 h))
      obtain ⟨t', ht', -⟩ := hlatest.covers t ht
      rw [hnil] at ht'
      cases ht'
    · rw [hlook2]
      exact of_decide_eq_true (mem_filter.1 (hlatest.mem t ht)).2

lemma safe_processBatch_ordered (hi : (ordered n).inv s) : Forward n (processBatch L cfg) s := by
  unfold processBatch
  refine safe_steady_bind steady_checkGeneration hi fun _ s1 _ _ => ?_
  refine safe_look fun s2 hi2 => ?_
  have hcatch : Forward n (snapshotCatchUp L cfg) s2 := by
    refine safe_ite (fun _ => ?_) fun _ => forward_done
    have hfetch : Forward n ((tryFetchSnapshot L cfg).attempt : AsyncFn B _) s2 :=
      Safe.attempt safe_tryFetchSnapshot_ordered
    exact hfetch.bind hi2 fun _ _ _ => forward_done
  refine hcatch.bind hi2 fun _ s3 _ => ?_
  refine safe_ask_page fun answer s4 hi4 hpage => ?_
  cases answer with
  | error err => cases err <;> exact fun _ _ _ => trivial
  | ok page =>
    have hlast := hpage page rfl
    refine safe_steady_bind (Prog.only_ofExcept _) hi4
      fun entries s5 hi5 hlook5 => ?_
    have hmerge : (mergePulled L entries).Only Call.Steady :=
      (merges_mergePulled entries).mono steady
    refine safe_steady_bind hmerge hi5 fun _ s6 hi6 hlook6 => ?_
    have hend : (endReplay L).Only Call.Steady := merges_endReplay.mono steady
    refine safe_steady_bind hend hi6 fun _ s7 hi7 hlook7 => ?_
    have hlook : s7.2 n = s4.2 n := hlook7.trans (hlook6.trans hlook5)
    have hadvance := safe_advanceCursor_ordered fun m hm => hlook.trans_le (hlast m hm)
    exact hadvance.bind hi7 fun _ _ _ => forward_done

lemma safe_job_ordered (t : Task B) (hi : (ordered t.number).inv s) :
    Forward t.number (t.job.prog L cfg) s := by
  obtain ⟨n, job⟩ := t
  cases job with
  | batch => exact (safe_processBatch_ordered hi).bind hi fun _ _ _ => forward_done
  | pushed m => exact (safe_processPushMutation_ordered hi).bind hi fun _ _ _ => forward_done

/-! ## Any interleaving of pulls and pushes -/

/-- Calls of the download queue at once, while the coordinator and everything else of the client
change as they like. -/
def watchedDownloads (L : Lib B) (cfg : Config) (A : ℕ → Call B → Env B → Watched B → Prop) :
    System (Calls B) (Client B) VaultSyncError (Env B) (Watched B) (Task B) Unit where
  machine t := watch t.number (A t.number)
  prog t := t.job.prog L cfg
  mayStart t ts _ := ∀ u ∈ ts, t.number ≠ u.number
  env s s' := s'.1.lastSequence = s.1.lastSequence ∧ s'.1.storeCursor = s.1.storeCursor ∧ s'.2 = s.2

def orderedProof (L : Lib B) (cfg : Config) : (watchedDownloads L cfg Undisturbed).Proof where
  inv s := ∀ n, s.2 n ≤ s.1.lastSequence
  protocol t := ordered t.number
  post _ _ _ := True
  together t u := t.number ≠ u.number
  inv_iff _ _ := Iff.rfl
  env_safe s s' hi h := by
    refine ⟨(guar_of_same (n := 0) s' h.1 h.2.1 h.2.2 hi).1, fun t => ?_⟩
    exact ⟨⟨h.1.ge, h.2.1.ge⟩, congrFun h.2.2 _⟩
  guar_rely t u s s' hne _ _ hg := ⟨hg.1, hg.2 u.number fun h => hne h.symm⟩
  start_together t ts s _ hstart u hu := ⟨hstart u hu, fun h => hstart u hu h.symm⟩
  safe t _ _ hi _ := safe_job_ordered t hi

/-- **Cursor order.** In runs in which no call moves the cursor between another's look at it and
its write, and no page ends behind it, neither cursor ever goes back. -/
theorem cursors_ahead_of_undisturbed (L : Lib B) (cfg : Config) (w : World B)
    {p q : Pool (Calls B) (Client B) VaultSyncError (Watched B) (Task B) Unit}
    (hp : (watchedDownloads L cfg Undisturbed).Reachable ⟨[], w, fun _ => 0⟩ p)
    (hq : (watchedDownloads L cfg Undisturbed).Reachable p q) :
    p.state.1.lastSequence ≤ q.state.1.lastSequence ∧
      p.state.1.storeCursor ≤ q.state.1.storeCursor := by
  have hstart : (orderedProof L cfg).inv (w, fun _ => 0) := fun _ => Nat.zero_le _
  have hholds := System.Proof.holds_of_reachable (System.Proof.holds_empty hstart) hp
  exact hholds.rel hq Ahead.refl Ahead.trans (fun _ _ _ _ hg => hg.1)
    fun _ _ _ he => ⟨he.1.ge, he.2.1.ge⟩

/-! ## A page behind the snapshots, and one that is not -/

namespace CursorOrder

def beside (ms : List (EncryptedMutation Sym)) (sequence : ℕ) : World Sym :=
  .new ((InMemoryCoordinator.new.push "ns" ms).2.storeSnapshot "ns"
    ⟨"d", "x", 0, sequence, 0, .update ⟨{5}, ∅⟩⟩)

def two : World Sym :=
  beside [mutation "1" "b" ⟨{5}, ∅⟩, mutation "2" "b" ⟨{7}, ∅⟩] 1

def three : World Sym :=
  beside [mutation "1" "b" ⟨{5}, ∅⟩, mutation "2" "b" ⟨{7}, ∅⟩,
    mutation "3" "b" ⟨{9}, ∅⟩] 3

def batch : AsyncFn Sym Unit := Job.prog lib (config 1) .batch

variable (A : Call Sym → Env Sym → Watched Sym → Prop)

def restored (w : World Sym) : AsyncFn Sym Unit × Watched Sym :=
  advance (watch 0 A) 14 batch (w, fun _ => 0)

def pulled (w : World Sym) : AsyncFn Sym Unit × Watched Sym :=
  advance (watch 0 A) 11 (restored A w).1 (restored A w).2

variable {A : ℕ → Call Sym → Env Sym → Watched Sym → Prop} {w : World Sym}

section

variable (h : AllowedSteps (watch 0 (A 0)) (14 + 11) batch (w, fun _ => 0))

include h

lemma reachable_restored :
    (watchedDownloads lib (config 1) A).Reachable ⟨[], w, fun _ => 0⟩
      ⟨[(⟨0, .batch⟩, (restored (A 0) w).1)], (restored (A 0) w).2⟩ := by
  have hmay : (watchedDownloads lib (config 1) A).mayStart ⟨0, .batch⟩ [] (w, fun _ => 0) :=
    fun u hu => by cases hu
  exact .head (.start hmay) (System.reachable_advance_of_allowed 14 [] batch [] _ h.split.1)

lemma reachable_pulled :
    (watchedDownloads lib (config 1) A).Reachable
      ⟨[(⟨0, .batch⟩, (restored (A 0) w).1)], (restored (A 0) w).2⟩
      ⟨[(⟨0, .batch⟩, (pulled (A 0) w).1)], (pulled (A 0) w).2⟩ :=
  System.reachable_advance_of_allowed 11 [] _ [] _ h.split.2

end

lemma allowed_two : AllowedSteps (watch 0 (Undisturbed 0)) (14 + 11) batch (two, fun _ => 0) := by
  -- generation and cursor; cursor, list, order; read, client id, write
  refine And.intro trivial (And.intro trivial ?_)
  refine And.intro trivial (And.intro trivial (And.intro trivial ?_))
  refine And.intro trivial (And.intro trivial (And.intro trivial ?_))
  refine And.intro ⟨rfl, Nat.zero_le _⟩ (And.intro rfl ?_)
  -- page, order of the documents; read, client id, write
  refine And.intro (fun m hm => ?_) (And.intro trivial ?_)
  · have hlast : m.sequence = 2 := by
      cases hm
      rfl
    rw [hlast]
    decide
  refine And.intro trivial (And.intro trivial (And.intro trivial ?_))
  exact And.intro ⟨rfl, by decide⟩ (And.intro rfl trivial)

theorem two_ahead :
    (restored (Undisturbed 0) two).2.1.lastSequence = 1 ∧
      (pulled (Undisturbed 0) two).2.1.lastSequence = 2 ∧
      (restored (Undisturbed 0) two).2.1.lastSequence ≤ (pulled (Undisturbed 0) two).2.1.lastSequence ∧
      (restored (Undisturbed 0) two).2.1.storeCursor ≤ (pulled (Undisturbed 0) two).2.1.storeCursor :=
  ⟨by decide, by decide, cursors_ahead_of_undisturbed lib (config 1) two
    (reachable_restored allowed_two) (reachable_pulled allowed_two)⟩

/-- One call, alone: it restores the snapshot of sequence 3, and then merges the page after the
cursor it began with, which ends at 2. -/
theorem page_behind_snapshot :
    ∃ p q, (watchedDownloads lib (config 1) fun _ _ _ _ => True).Reachable
        ⟨[], three, fun _ => 0⟩ p ∧
      (watchedDownloads lib (config 1) fun _ _ _ _ => True).Reachable p q ∧
      q.state.1.lastSequence < p.state.1.lastSequence ∧
      q.state.1.storeCursor < p.state.1.storeCursor := by
  have hany : AllowedSteps (watch 0 fun _ _ _ => True) (14 + 11) batch (three, fun _ => 0) :=
    allowedSteps_of_forall (fun _ _ => trivial) _ _ _
  refine ⟨_, _, reachable_restored hany, reachable_pulled hany, ?_, ?_⟩
  · decide
  · decide

end CursorOrder

end DownloadQueue

end VaultSync
