import VaultSync.Async.Interleaving
import VaultSync.Client.Write
import VaultSync.Crdt.Symbolic
import VaultSync.Sync.Download
import VaultSync.Sync.Merging

/-! Local writes beside remote ones. Both read a document, merge in memory and write it back, so
one can undo the other; in runs where each write finds what its call read, nothing is lost. -/

namespace VaultSync.VaultSyncClient

open Async AsyncFn World List Sym

variable {B : Type} {L : Lib B} {cfg : Config} {remote : OplogEntry B → Prop} {n : ℕ}
  {A : Call B → Env B → World B → Prop} {w w' w₀ : World B} {k : Key}

/-- Since `w₀` nothing was lost: the documents have grown, they contain every local update, and
every remote one that is marked as seen. -/
structure Kept (L : Lib B) (remote : OplogEntry B → Prop) (w₀ w : World B) : Prop where
  grows : Grows L w₀ w
  localWrites : ∀ e ∈ w.storage.oplog, e ∈ w₀.storage.oplog ∨ Contained L w e
  seen : ∀ e, remote e → e.id ∈ w.client.dedup.seen → Contained L w e

lemma Kept.step (h : Kept L remote w₀ w) (hg : Grows L w w')
    (hoplog : w'.storage.oplog = w.storage.oplog) (hdedup : w'.client.dedup = w.client.dedup) :
    Kept L remote w₀ w' := by
  refine ⟨h.grows.trans hg, fun e he => ?_, fun e he hseen => ?_⟩
  · rw [hoplog] at he
    exact (h.localWrites e he).imp_right fun hc => hc.mono hg
  · rw [hdedup] at hseen
    exact (h.seen e he hseen).mono hg

def writeProtocol (L : Lib B) (remote : OplogEntry B → Prop) (w₀ : World B) (n : ℕ) :
    Protocol (World B) where
  inv := Kept L remote w₀
  rely w w' := Grows L w w' ∧ w'.reads n = w.reads n
  guar w w' := Grows L w w' ∧ ∀ n' ≠ n, w'.reads n' = w.reads n'
  rely_refl _ := ⟨fun _ => le_rfl, rfl⟩
  rely_trans h h' := ⟨h.1.trans h'.1, h'.2.trans h.2⟩
  guar_refl _ := ⟨fun _ => le_rfl, fun _ _ => rfl⟩

def IdsNameUpdates (remote : OplogEntry B → Prop) : Prop :=
  ∀ e e', remote e → remote e' → e.id = e'.id → e.key = e'.key ∧ e.yrsUpdate = e'.yrsUpdate

lemma IdsNameUpdates.contained (h : IdsNameUpdates remote) {e e' : OplogEntry B} (he : remote e)
    (he' : remote e') (hid : e.id = e'.id) (hc : Contained L w e') : Contained L w e := by
  obtain ⟨hkey, hupdate⟩ := h e e' he he' hid
  rw [Contained, hkey, hupdate]
  exact hc

lemma write_merging (hids : IdsNameUpdates remote)
    (hfresh : ∀ {w e docs}, A (.writeBatchReconciliation docs) e w →
      ∀ p ∈ docs, w.storage.documents p.1 = w.reads n p.1)
    (hinsert : ∀ {w e k b}, A (.insertDocument k b) e w → w.storage.documents k = w.reads n k) :
    Merging L n A (writeProtocol L remote w₀ n) fun _ e => remote e where
  reads h := h.2
  grows h := h.elim (fun h => h.1) fun h => h.1
  source_stable _ h := h
  read k hi := by
    refine ⟨hi.step (grows_of_documents rfl) rfl rfl, grows_of_documents rfl, fun n' hn => ?_⟩
    exact recordRead_reads_of_ne hn k _
  write docs hi hg := by
    refine ⟨hi.step hg ?_ rfl, hg, fun _ _ => rfl⟩
    exact InMemoryStorage.writeBatchReconciliation_oplog docs
  memory {w c} es hi hes hc := by
    refine ⟨⟨hi.grows, hi.localWrites, fun e he hseen => ?_⟩, fun _ => le_rfl, fun _ _ => rfl⟩
    rw [setClient_client, hc] at hseen
    rcases DedupCache.mem_seen_foldl_mark hseen with hmem | hold
    · obtain ⟨e', he', hid⟩ := mem_map.1 hmem
      exact hids.contained he (hes e' he').1 hid.symm (hes e' he').2
    · exact hi.seen e he hold
  fresh := hfresh
  fresh_insert := hinsert

/-! ## Local writes -/

variable {d : CrdtState} {doc : CRDTDocument} {fields : List (String × CrdtValue)}

lemma docState_writeLocal (bytes : B) (entry : OplogEntry B) (hd : L.decodeV1 bytes = .ok d) :
    docState L (w.setStorage (w.storage.writeDocumentAndOplog k bytes entry)) k = d :=
  docState_of_some (Function.update_self _ _ _) hd

lemma grows_writeLocal {bytes : B} (entry : OplogEntry B)
    (hd : L.decodeV1 bytes = .ok d) (hle : docState L w k ≤ d) :
    Grows L w (w.setStorage (w.storage.writeDocumentAndOplog k bytes entry)) := by
  intro k'
  by_cases hk : k' = k
  · subst hk
    rw [docState_writeLocal bytes entry hd]
    exact hle
  · exact (congrArg (storedState L) (Function.update_of_ne hk _ _)).ge

structure Publishes (L : Lib B) (k : Key) (doc : CRDTDocument) (entry : OplogEntry B) : Prop where
  key : entry.key = k
  update : ∃ u, L.decodeV1 entry.yrsUpdate = .ok u ∧ u ≤ doc.state

lemma safe_storeLocal {entry : OplogEntry B}
    (hfresh : ∀ {w e b}, A (.writeDocumentAndOplog k b entry) e w →
      w.storage.documents k = w.reads n k)
    (hle : storedState L (w.reads n k) ≤ doc.state) (hpub : Publishes L k doc entry) :
    Safe (machine n A) (writeProtocol L remote w₀ n) (fun _ _ => True) (storeLocal L k doc entry)
      w := by
  refine safe_call fun w1 e1 hi1 hr1 he1 => safe_onStorage hi1 (fun _ _ _ _ _ => trivial) fun _ => ?_
  have hd : L.decodeV1 (doc.toSnapshot L) = .ok doc.state := L.decode_encode doc.state
  have hdoc : docState L w1 k ≤ doc.state := by
    rw [docState, hfresh he1, hr1.2]
    exact hle
  have hg := grows_writeLocal entry hd hdoc
  refine ⟨⟨hi1.grows.trans hg, fun e he => ?_, fun e he hseen => ?_⟩, ⟨hg, fun _ _ => rfl⟩, ?_⟩
  · rcases mem_append.1 he with hold | hnew
    · exact (hi1.localWrites e hold).imp_right fun hc => hc.mono hg
    · rw [mem_singleton.1 hnew]
      obtain ⟨u, hu, hule⟩ := hpub.update
      refine .inr ⟨u, hu, ?_⟩
      rw [hpub.key, docState_writeLocal _ entry hd]
      exact hule
  · exact (hi1.seen e he hseen).mono hg
  · refine safe_modify fun w2 hi2 _ => ⟨?_, ⟨fun _ => le_rfl, fun _ _ => rfl⟩, fun _ _ _ => trivial⟩
    exact hi2.step (fun _ => le_rfl) rfl rfl

lemma safe_clockNow {β : Type} {Q : Except VaultSyncError β → World B → Prop}
    {f : ℕ → AsyncFn B β} (h : ∀ wall w', w'.reads n = w.reads n →
      Safe (machine n A) (writeProtocol L remote w₀ n) Q (f wall) w') :
    Safe (machine n A) (writeProtocol L remote w₀ n) Q (clockNow >>= f) w := by
  refine safe_query (fun _ _ => rfl) fun w1 e1 _ hr1 _ => ?_
  refine safe_update fun w2 hi2 hr2 => ⟨?_, ⟨fun _ => le_rfl, fun _ _ => rfl⟩, ?_⟩
  · exact hi2.step (fun _ => le_rfl) rfl rfl
  · exact h _ _ (hr2.2.trans hr1.2)

def WritesFresh (n : ℕ) (A : Call B → Env B → World B → Prop) : Prop :=
  ∀ {w e k b entry}, A (.writeDocumentAndOplog k b entry) e w →
    w.storage.documents k = w.reads n k

section

variable (hfresh : WritesFresh n A) (hle : storedState L (w.reads n k) ≤ doc.state)

include hfresh hle

lemma safe_writeFields {id : String} {type : MutationType} {origin : MutationOrigin} {wall : ℕ} :
    Safe (machine n A) (writeProtocol L remote w₀ n) (fun _ _ => True)
      (writeFields L cfg id type origin k doc fields wall) w := by
  refine safe_query (fun _ _ => rfl) fun w1 e1 _ hr1 _ => ?_
  refine safe_ite (fun _ _ _ _ => trivial) fun _ => ?_
  refine safe_query (fun _ _ => rfl) fun w2 e2 _ hr2 _ => ?_
  refine safe_ofExcept_bind (fun blob _ => ?_) fun _ _ _ _ _ => trivial
  refine safe_storeLocal (fun he => hfresh he) ?_ ⟨rfl, _, L.decode_encode _, le_rfl⟩
  rw [hr2.2, hr1.2]
  exact hle.trans (CRDTDocument.le_setFields _)

lemma safe_deleteDocument :
    Safe (machine n A) (writeProtocol L remote w₀ n) (fun _ _ => True)
      (deleteDocument L cfg k doc) w := by
  refine safe_ofExcept_bind (fun _ _ => ?_) fun _ _ _ _ _ => trivial
  refine safe_query (fun _ _ => rfl) fun w1 e1 _ hr1 _ => ?_
  refine safe_query (fun _ _ => rfl) fun w2 e2 _ hr2 _ => ?_
  refine safe_ofExcept_bind (fun blob _ => ?_) fun _ _ _ _ _ => trivial
  refine safe_clockNow fun wall w3 hreads => ?_
  refine safe_storeLocal (fun he => hfresh he) ?_
    ⟨rfl, _, L.decode_encode _, CrdtState.diff_le _ _⟩
  rw [hreads, hr2.2, hr1.2]
  exact hle.trans (CRDTDocument.le_setField _ _)

end

lemma safe_loadForUpdate {existing : Option B} {f : CRDTDocument → AsyncFn B Unit}
    (hreads : w.reads n k = existing)
    (hf : ∀ (doc : CRDTDocument) w', storedState L (w'.reads n k) ≤ doc.state →
      Safe (machine n A) (writeProtocol L remote w₀ n) (fun _ _ => True) (f doc) w') :
    Safe (machine n A) (writeProtocol L remote w₀ n) (fun _ _ => True)
      (loadForUpdate L cfg k existing >>= f) w := by
  cases existing with
  | none =>
    refine safe_query (fun _ _ => rfl) fun w1 e1 _ hr1 _ => hf _ w1 ?_
    rw [hr1.2, hreads]
    exact bot_le
  | some bytes =>
    refine safe_query (fun _ _ => rfl) fun w1 e1 _ hr1 _ => ?_
    refine safe_ofExcept_bind (fun doc hdoc => hf doc w1 ?_) fun _ _ _ _ _ => trivial
    rw [hr1.2, hreads, storedState_some (CRDTDocument.fromSnapshot_ok hdoc).1]

/-! ## Any interleaving of them -/

inductive WriteJob (B : Type) where
  | update (k : Key) (fields : List (String × CrdtValue))
  | delete (k : Key)
  | remoteUpdate (entry : OplogEntry B)
  | remoteBatch (entries : List (OplogEntry B))

structure Writer (B : Type) where
  number : ℕ
  job : WriteJob B

def WriteJob.entries : WriteJob B → List (OplogEntry B)
  | .update _ _ => []
  | .delete _ => []
  | .remoteUpdate entry => [entry]
  | .remoteBatch entries => entries

variable [DecidableEq B]

def WriteJob.prog (L : Lib B) (cfg : Config) : WriteJob B → AsyncFn B Unit
  | .update k fields => VaultSyncClient.update L cfg k fields
  | .delete k => VaultSyncClient.delete L cfg k
  | .remoteUpdate entry => applyRemoteUpdate L entry
  | .remoteBatch entries => applyBatch L entries

/-- Writes at once, with the environment's choices limited to `A`; the remote entries are those
of `remote`. -/
def writers (L : Lib B) (cfg : Config) (remote : OplogEntry B → Prop)
    (A : Writer B → Call B → Env B → World B → Prop) :
    System (Calls B) (Client B) VaultSyncError (Env B) (World B) (Writer B) Unit where
  machine t := machine t.number (A t)
  prog t := t.job.prog L cfg
  mayStart t ts _ := (∀ u ∈ ts, t.number ≠ u.number) ∧ ∀ e ∈ t.job.entries, remote e
  env _ _ := False

/-- The runs in which nothing is lost: each write finds the document as its call last read it,
and the redundancy test of `apply_remote_update` only stops what is contained. -/
def Unraced (L : Lib B) (t : Writer B) : Call B → Env B → World B → Prop
  | .writeDocumentAndOplog k _ _, _, w => w.storage.documents k = w.reads t.number k
  | .insertDocument k _, _, w => w.storage.documents k = w.reads t.number k
  | .writeBatchReconciliation docs, _, w =>
    ∀ p ∈ docs, w.storage.documents p.1 = w.reads t.number p.1
  | .getDocument k, _, w => ∀ e, t.job = .remoteUpdate e → e.key = k → Recognised L w e
  | .newClientId, env, _ => ∀ e u, t.job = .remoteUpdate e → L.decodeV1 e.yrsUpdate = .ok u →
    env.clientId ∉ u.stateVector
  | _, _, _ => True

def RemoteKept (L : Lib B) (t : Writer B) (r : Except VaultSyncError Unit) (w : World B) : Prop :=
  r = .ok () → ∀ e ∈ t.job.entries, Contained L w e

lemma safe_writer (hids : IdsNameUpdates remote) (t : Writer B)
    (hremote : ∀ e ∈ t.job.entries, remote e) :
    Safe (machine t.number (Unraced L t)) (writeProtocol L remote w₀ t.number) (RemoteKept L t)
      (t.job.prog L cfg) w := by
  obtain ⟨n, job⟩ := t
  have H : Merging L n (Unraced L ⟨n, job⟩) (writeProtocol L remote w₀ n) fun _ e => remote e :=
    write_merging hids (fun h => h) fun h => h
  cases job with
  | update k fields =>
    refine Safe.mono (Q := fun _ _ => True) ?_ fun _ _ _ _ _ e he => by cases he
    refine safe_getDocument (fun _ _ _ _ => trivial) fun w1 e1 hi1 _ _ => ?_
    refine ⟨(H.read k hi1).1, (H.read k hi1).2, ?_⟩
    refine safe_loadForUpdate (recordRead_reads_self n k w1) fun doc w' hle => ?_
    refine safe_ofExcept_bind (fun _ _ => ?_) fun _ _ _ _ _ => trivial
    refine safe_ite (fun _ => ?_) fun _ => safe_done
    refine safe_query (fun _ _ => rfl) fun w1 e1 _ hr1 _ => ?_
    refine safe_clockNow fun wall w2 hreads => safe_writeFields (fun he => he) ?_
    rw [hreads, hr1.2]
    exact hle
  | delete k =>
    refine Safe.mono (Q := fun _ _ => True) ?_ fun _ _ _ _ _ e he => by cases he
    refine safe_getDocument (fun _ _ _ _ => trivial) fun w1 e1 hi1 _ _ => ?_
    refine ⟨(H.read k hi1).1, (H.read k hi1).2, ?_⟩
    cases hdoc : w1.storage.documents k with
    | none => exact safe_done
    | some bytes =>
      refine safe_loadForUpdate ?_ fun doc w' hle => safe_deleteDocument (fun he => he) hle
      rw [recordRead_reads_self, hdoc]
  | remoteUpdate entry =>
    have hjob := safe_applyRemoteUpdate (w := w) H (hremote entry mem_cons_self)
      (fun w' hi hs hseen => Kept.seen hi entry hs hseen) (fun w' e _ _ he => he entry rfl rfl)
      fun w' e u _ _ he hu => he entry u rfl hu
    refine hjob.mono fun r w' _ hpost hr e he => ?_
    rw [mem_singleton.1 he]
    exact hpost hr
  | remoteBatch entries =>
    exact safe_applyBatch H hremote fun w' hi e he hs hseen => Kept.seen hi e hs hseen

def writersProof (hids : IdsNameUpdates remote) (w₀ : World B) :
    (writers L cfg remote (Unraced L)).Proof where
  inv := Kept L remote w₀
  protocol t := writeProtocol L remote w₀ t.number
  post := RemoteKept L
  together t u := t.number ≠ u.number
  inv_iff _ _ := Iff.rfl
  env_safe _ _ _ h := h.elim
  guar_rely _ u _ _ hne _ _ hg := ⟨hg.1, hg.2 u.number fun h => hne h.symm⟩
  start_together _ _ _ _ hstart u hu := ⟨hstart.1 u hu, fun h => hstart.1 u hu h.symm⟩
  safe t _ _ _ hstart := safe_writer hids t hstart.2

/-- **No lost update.** However updates, deletes, remote updates and remote batches interleave,
as long as each write finds what its call read, the documents contain what was stored at the
start, every local update, and every remote update of a call that has returned `Ok`. -/
theorem no_update_lost (L : Lib B) (cfg : Config) (w : World B)
    {p : Pool (Calls B) (Client B) VaultSyncError (World B) (Writer B) Unit}
    (hids : IdsNameUpdates remote)
    (hseen : ∀ e, remote e → e.id ∈ w.client.dedup.seen → Contained L w e)
    (hr : (writers L cfg remote (Unraced L)).Reachable ⟨[], w⟩ p) :
    (∀ k, docState L w k ≤ docState L p.state k) ∧
    (∀ e ∈ p.state.storage.oplog, e ∉ w.storage.oplog → Contained L p.state e) ∧
    ∀ t, (t, .ret ()) ∈ p.tasks → ∀ e ∈ t.job.entries, Contained L p.state e := by
  have hstart : Kept L remote w w := ⟨fun _ => le_rfl, fun e he => .inl he, hseen⟩
  have hkept := (writersProof hids w).inv_of_reachable hstart hr
  refine ⟨hkept.grows, fun e he hnew => (hkept.localWrites e he).resolve_left hnew, ?_⟩
  intro t ht
  exact (writersProof hids w).post_of_reachable hstart hr (r := .ok ()) ht rfl

/-! ## A lost update, and a run without a race -/

def oneStored : World Sym :=
  let w : World Sym := .new .new
  w.setStorage (w.storage.insertDocument ⟨"d", "x"⟩ (.update ⟨{5}, ∅⟩))

def remoteWrite : OplogEntry Sym :=
  DownloadQueue.remoteEntry lib
    (InMemoryCoordinator.pending "ns" 1 (mutation "1" "b" ⟨{7}, ∅⟩)) (.update ⟨{7}, ∅⟩) .remotePull

def localWrite : WriteJob Sym := .update ⟨"d", "x"⟩ [("title", .string "t")]

lemma remote_ids : IdsNameUpdates (· = remoteWrite) := by
  rintro e e' rfl rfl -
  exact ⟨rfl, rfl⟩

def afterRemote : World Sym :=
  (run (machine 0 (Unraced lib ⟨0, .remoteUpdate remoteWrite⟩))
    (WriteJob.prog lib (config 0) (.remoteUpdate remoteWrite)) [] oneStored).2

def afterBoth : World Sym :=
  (run (machine 1 (Unraced lib ⟨1, localWrite⟩)) (localWrite.prog lib (config 0)) []
    afterRemote).2

lemma allowed_remote : Allowed (machine 0 (Unraced lib ⟨0, .remoteUpdate remoteWrite⟩))
    (WriteJob.prog lib (config 0) (.remoteUpdate remoteWrite)) [] oneStored := by
  -- the read, the draw of a client id, the write
  refine And.intro ?_ (And.intro ?_ (And.intro rfl trivial))
  · intro e he _ u hu hcov
    cases he
    cases hu
    exact absurd hcov (by decide)
  · intro e u he hu
    cases he
    cases hu
    decide

lemma allowed_local : Allowed (machine 1 (Unraced lib ⟨1, localWrite⟩))
    (localWrite.prog lib (config 0)) [] afterRemote := by
  refine And.intro (fun e he => by cases he) (And.intro (fun e u he => by cases he) ?_)
  -- id, clock, order of the fields and nonce, then the write
  exact And.intro trivial (And.intro trivial (And.intro trivial (And.intro trivial
    (And.intro rfl trivial))))

def remoteWriter (n : ℕ) : Writer Sym := ⟨n, .remoteUpdate remoteWrite⟩

def localWriter (n : ℕ) : Writer Sym := ⟨n, localWrite⟩

abbrev unracedWriters : System (Calls Sym) (Client Sym) VaultSyncError (Env Sym) (World Sym)
    (Writer Sym) Unit := writers lib (config 0) (· = remoteWrite) (Unraced lib)

theorem oneByOne_kept :
    afterBoth.storage.oplog.length = 1 ∧ Contained lib afterBoth remoteWrite ∧
      ∀ e ∈ afterBoth.storage.oplog, Contained lib afterBoth e := by
  have hremote : Outcome (unracedWriters.machine (remoteWriter 0))
      (unracedWriters.prog (remoteWriter 0)) oneStored (.ok ()) afterRemote :=
    allowed_remote.outcome
  have hlocal : Outcome (unracedWriters.machine (localWriter 1))
      (unracedWriters.prog (localWriter 1)) afterRemote (.ok ()) afterBoth :=
    allowed_local.outcome
  have hfirst : unracedWriters.Reachable ⟨[], oneStored⟩
      ⟨[(remoteWriter 0, .ret ())], afterRemote⟩ := by
    refine System.reachable_started [] ?_ hremote
    exact ⟨fun _ hu => (by cases hu), fun e he => mem_singleton.1 he⟩
  have hsecond : unracedWriters.Reachable ⟨[(remoteWriter 0, .ret ())], afterRemote⟩
      ⟨[(localWriter 1, .ret ()), (remoteWriter 0, .ret ())], afterBoth⟩ := by
    refine System.reachable_started [(remoteWriter 0, .ret ())] ?_ hlocal
    refine ⟨fun u hu => ?_, fun e he => (by cases he)⟩
    rw [mem_singleton.1 hu]
    decide
  obtain ⟨-, hown, hother⟩ := no_update_lost lib (config 0) oneStored remote_ids
    (fun e _ hseen => absurd hseen (Finset.notMem_empty _)) (hfirst.trans hsecond)
  refine ⟨by decide, ?_, fun e he => hown e he nofun⟩
  exact hother (remoteWriter 0) (mem_cons_of_mem _ mem_cons_self) remoteWrite
    mem_cons_self

abbrev anyWriters : System (Calls Sym) (Client Sym) VaultSyncError (Env Sym) (World Sym)
    (Writer Sym) Unit := writers lib (config 0) (· = remoteWrite) fun _ _ _ _ => True

def halfLocal : Prog (Calls Sym) (Client Sym) VaultSyncError Unit × World Sym :=
  advance (machine 0 fun _ _ _ => True) 2 (localWrite.prog lib (config 0)) oneStored

def remoteBetween : Prog (Calls Sym) (Client Sym) VaultSyncError Unit × World Sym :=
  advance (machine 1 fun _ _ _ => True) 20
    (WriteJob.prog lib (config 0) (.remoteUpdate remoteWrite)) halfLocal.2

def bothDone : Prog (Calls Sym) (Client Sym) VaultSyncError Unit × World Sym :=
  advance (machine 0 fun _ _ _ => True) 20 halfLocal.1 remoteBetween.2

/-- The local update writes back the document it read before, and the remote one is lost. -/
theorem stale_write_loses_remote :
    ∃ p, anyWriters.Reachable ⟨[], oneStored⟩ p ∧
      p.tasks = [(remoteWriter 1, .ret ()), (localWriter 0, .ret ())] ∧
      ¬ Contained lib p.state remoteWrite := by
  have hread := anyWriters.reachable_started_advance (localWriter 0) 2 [] oneStored
    ⟨fun _ hu => (by cases hu), fun e he => (by cases he)⟩ fun _ _ => trivial
  have hremote := anyWriters.reachable_started_advance (remoteWriter 1) 20
    [(localWriter 0, halfLocal.1)] halfLocal.2
    ⟨fun u hu => by rw [mem_singleton.1 hu]; decide, fun e he => mem_singleton.1 he⟩
    fun _ _ => trivial
  have hwrite : anyWriters.Reachable
      ⟨[(remoteWriter 1, remoteBetween.1), (localWriter 0, halfLocal.1)], remoteBetween.2⟩
      ⟨[(remoteWriter 1, remoteBetween.1), (localWriter 0, bothDone.1)], bothDone.2⟩ :=
    System.reachable_advance 20 [(remoteWriter 1, remoteBetween.1)] _ [] remoteBetween.2
      fun _ _ => trivial
  refine ⟨_, hread.trans (hremote.trans hwrite), rfl, ?_⟩
  rintro ⟨u, hu, hle⟩
  cases hu
  exact absurd hle (by decide)

end VaultSync.VaultSyncClient
