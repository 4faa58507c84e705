import VaultSync.Client.WriteSpec
import VaultSync.Crdt.Fields
import VaultSync.Replication.Network

/-! What holds of the log and of one record between the calls of a network. It is said over the
entries ever written and the state the record had when one replica removed it, not over what is
still stored. -/

namespace VaultSync

open Async AsyncFn World DownloadQueue List OplogEntry CrdtState

variable {B ι : Type}

/-- One namespace, distinct replica ids, and key versions of 64 bits. -/
structure Deployment (cfg : ι → Config) (ns : String) : Prop where
  namespace_eq : ∀ i, (cfg i).namespace = ns
  replica_injective : ∀ i j, (cfg i).replicaId = (cfg j).replicaId → i = j
  keyVersion_lt : ∀ i, (cfg i).keyVersion < 2 ^ 64

structure Past (ι B : Type) where
  entries : ι → List (OplogEntry B)
  removed : CrdtState

namespace Past

def updates (L : Lib B) (k : Key) (p : Past ι B) : Set CrdtState :=
  { u | ∃ j, ∃ e ∈ p.entries j, e.key = k ∧ L.decodeV1 e.yrsUpdate = .ok u }

variable [DecidableEq ι] {p : Past ι B} {i j : ι} {e entry : OplogEntry B}

def write (p : Past ι B) (i : ι) (entry : OplogEntry B) : Past ι B :=
  { p with entries := Function.update p.entries i (p.entries i ++ [entry.written]) }

lemma mem_write : e ∈ (p.write i entry).entries j ↔
    e ∈ p.entries j ∨ j = i ∧ e ∈ ({entry.written} : Set (OplogEntry B)) := by
  unfold write
  dsimp only
  by_cases hj : j = i
  · subst hj
    rw [Function.update_self, mem_append, mem_singleton]
    simp
  · rw [Function.update_of_ne hj]
    simp [hj]

end Past

def HasMutation (L : Lib B) (ns : String) (d : CrdtState) (m : PendingMutation B) : Prop :=
  ∃ plain u, decryptSymmetric L m.encryptedBlob ns = .ok plain ∧ L.decodeV1 plain = .ok u ∧ u ≤ d

lemma HasMutation.mono {L : Lib B} {ns : String} {d d' : CrdtState} {m : PendingMutation B}
    (h : HasMutation L ns d m) (hle : d ≤ d') : HasMutation L ns d' m := by
  obtain ⟨plain, u, hplain, hu, hud⟩ := h
  exact ⟨plain, u, hplain, hu, hud.trans hle⟩

namespace Net

def state (L : Lib B) (s : Net ι B) (i : ι) (k : Key) : CrdtState := docState L (s.world i) k

/-- What holds of the log and the oplogs. An entry that is no longer in its oplog is in the
log. -/
structure LogSound (L : Lib B) (cfg : ι → Config) (ns : String) (p : Past ι B) (s : Net ι B) :
    Prop where
  logIds : ((s.service.log.mutations ns).map PendingMutation.id).Nodup
  noSnapshots : s.service.log.snapshots = []
  sealed : ∀ j, ∀ e ∈ p.entries j, e.replicaId = (cfg j).replicaId ∧
    ∃ blob, e.encryptedBlob = some blob ∧ decryptSymmetric L blob ns = .ok e.yrsUpdate
  recorded : ∀ j, ∀ e ∈ s.entries j, e ∈ p.entries j
  kept : ∀ j, ∀ e ∈ p.entries j, e ∈ s.entries j ∨
    e.id ∈ (s.service.log.mutations ns).map PendingMutation.id
  synced : ∀ j, UploadQueue.SyncedLogged ns (s.world j)
  ids : ∀ i j, ∀ e ∈ p.entries i, ∀ e' ∈ p.entries j, e.id = e'.id → i = j ∧ e = e'
  logged : ∀ m ∈ s.service.log.mutations ns, ∃ j, ∃ e ∈ p.entries j,
    EntryOf L (cfg j) m e ∧ m.replicaId = (cfg j).replicaId

variable {L : Lib B} {cfg : ι → Config} {ns : String} {p p' : Past ι B} {s : Net ι B} {i j : ι}
  {w : World B} {m : PendingMutation B} {e entry : OplogEntry B} {k : Key}

lemma state_congr (h : w.storage.documents k = (s.nodes i).storage.documents k) :
    docState L w k = s.state L i k := by
  unfold state docState world
  rw [h]

lemma state_of_none (h : (s.nodes i).storage.documents k = none) : s.state L i k = ⊥ := by
  unfold state docState world
  rw [h]
  rfl

section

variable (h : LogSound L cfg ns p s) (D : Deployment cfg ns)

include h D

lemma LogSound.published (hm : m ∈ s.service.log.mutations ns) (he : EntryOf L (cfg i) m e) :
    ∃ j, ∃ e0 ∈ p.entries j, e0.id = m.id ∧ e0.key = e.key ∧ e0.yrsUpdate = e.yrsUpdate ∧
      m.replicaId = (cfg j).replicaId := by
  obtain ⟨j, e0, he0, hof, hreplica⟩ := h.logged m hm
  have hupdate := he.update
  rw [D.namespace_eq i, ← D.namespace_eq j, hof.update] at hupdate
  exact ⟨j, e0, he0, hof.id, hof.key.trans he.key.symm, Except.ok.inj hupdate, hreplica⟩

lemma LogSound.mutation_of_entry (he : e ∈ p.entries j)
    (hid : e.id ∈ (s.service.log.mutations ns).map PendingMutation.id) :
    ∃ m ∈ s.service.log.mutations ns, m.id = e.id ∧ m.key = e.key ∧
      m.replicaId = (cfg j).replicaId ∧
      decryptSymmetric L m.encryptedBlob ns = .ok e.yrsUpdate := by
  obtain ⟨m, hm, hmid⟩ := mem_map.1 hid
  obtain ⟨j', e', he', hof, hreplica⟩ := h.logged m hm
  obtain ⟨rfl, rfl⟩ := h.ids j' j e' he' e he (hof.id.trans hmid)
  have hupdate := hof.update
  rw [D.namespace_eq] at hupdate
  exact ⟨m, hm, hmid, hof.key.symm, hreplica, hupdate⟩

end

section After

variable [DecidableEq ι] {ms : List (PendingMutation B)}

lemma state_after_self (k : Key) : (s.after i w ms).state L i k = docState L w k := by
  simp [state, docState, world]

lemma state_after_of_ne (h : j ≠ i) (k : Key) : (s.after i w ms).state L j k = s.state L j k := by
  simp [state, docState, world, after_node_of_ne h]

lemma entries_after_self : (s.after i w ms).entries i = w.storage.oplog.map written := by
  simp [entries]

lemma entries_after_of_ne (h : j ≠ i) : (s.after i w ms).entries j = s.entries j := by
  simp [entries, after_node_of_ne h]

lemma entries_after (h : w.storage.oplog.map written = s.entries i) (j : ι) :
    (s.after i w ms).entries j = s.entries j := by
  by_cases hj : j = i
  · subst hj
    rw [entries_after_self, h]
  · exact entries_after_of_ne hj

/-- The oplog of one replica gains at most the entries `new`, and loses none that is not in the
log; the log gains mutations of the replica's entries. -/
lemma LogSound.after (h : LogSound L cfg ns p s) (new : Set (OplogEntry B))
    (hp : ∀ j e, e ∈ p'.entries j ↔ e ∈ p.entries j ∨ j = i ∧ e ∈ new) (hone : new.Subsingleton)
    (hnew : ∀ e ∈ new, e ∈ w.storage.oplog.map written ∧ (e.replicaId = (cfg i).replicaId ∧
      ∃ blob, e.encryptedBlob = some blob ∧ decryptSymmetric L blob ns = .ok e.yrsUpdate) ∧
      ∀ j, ∀ e' ∈ p.entries j, e'.id ≠ e.id)
    (hnodup : ((w.service.log.mutations ns).map PendingMutation.id).Nodup)
    (hsnaps : w.service.log.snapshots = [])
    (hlog : s.service.log.mutations ns ⊆ w.service.log.mutations ns)
    (hlogged : ∀ m ∈ w.service.log.mutations ns, m ∈ s.service.log.mutations ns ∨
      ∃ e ∈ p.entries i, EntryOf L (cfg i) m e ∧ m.replicaId = (cfg i).replicaId)
    (hrecorded : ∀ e ∈ w.storage.oplog.map written, e ∈ p'.entries i)
    (hkept : ∀ e ∈ s.entries i, e ∈ w.storage.oplog.map written ∨
      e.id ∈ (w.service.log.mutations ns).map PendingMutation.id)
    (hsynced : UploadQueue.SyncedLogged ns w) : LogSound L cfg ns p' (s.after i w ms) := by
  refine ⟨hnodup, hsnaps, fun j e he => ?_, fun j e he => ?_, fun j e he => ?_, fun j e he hsync => ?_,
    fun j j' e he e' he' heq => ?_, fun m hm => ?_⟩
  · rcases (hp j e).1 he with hold | ⟨rfl, he⟩
    · exact h.sealed j e hold
    · exact (hnew e he).2.1
  · by_cases hj : j = i
    · subst hj
      rw [entries_after_self] at he
      exact hrecorded e he
    · rw [entries_after_of_ne hj] at he
      exact (hp j e).2 (.inl (h.recorded j e he))
  · rw [after_service]
    rcases (hp j e).1 he with hold | ⟨rfl, he⟩
    · have hin := (h.kept j e hold).imp_right fun hid => map_subset _ hlog hid
      by_cases hj : j = i
      · subst hj
        rw [entries_after_self]
        exact hin.elim (hkept e) .inr
      · rwa [entries_after_of_ne hj]
    · rw [entries_after_self]
      exact .inl (hnew e he).1
  · unfold world at he
    by_cases hj : j = i
    · subst hj
      rw [after_node_self] at he
      exact hsynced e he hsync
    · rw [after_node_of_ne hj] at he
      exact map_subset _ hlog (h.synced j e he hsync)
  · rcases (hp j e).1 he with hold | ⟨rfl, hin⟩ <;> rcases (hp j' e').1 he' with hold' | ⟨rfl, hin'⟩
    · exact h.ids j j' e hold e' hold' heq
    · exact absurd heq ((hnew e' hin').2.2 j e hold)
    · exact absurd heq.symm ((hnew e hin).2.2 j' e' hold')
    · exact ⟨rfl, hone hin hin'⟩
  · rcases hlogged m hm with hold | ⟨e, he, hof⟩
    · obtain ⟨j, e, he, hof⟩ := h.logged m hold
      exact ⟨j, e, (hp j e).2 (.inl he), hof⟩
    · exact ⟨i, e, (hp i e).2 (.inl he), hof⟩

/-- An entry may leave its oplog once it is in the log. -/
lemma LogSound.shrunk (h : LogSound L cfg ns p s) (hservice : w.service = s.service)
    (hsub : w.storage.oplog ⊆ (s.nodes i).storage.oplog)
    (hkept : ∀ e ∈ (s.nodes i).storage.oplog, e ∈ w.storage.oplog ∨
      e.id ∈ (s.service.log.mutations ns).map PendingMutation.id) :
    LogSound L cfg ns p (s.after i w ms) := by
  rw [← hservice] at hkept
  refine h.after ∅ (by simp) Set.subsingleton_empty (by simp) ?_ ?_ ?_ ?_
    (fun e he => h.recorded i e (map_subset _ hsub he)) (fun e he => ?_) fun e he => ?_
  · rw [hservice]
    exact h.logIds
  · rw [hservice]
    exact h.noSnapshots
  · rw [hservice]
    exact fun _ hm => hm
  · rw [hservice]
    exact fun _ hm => .inl hm
  · obtain ⟨e0, he0, rfl⟩ := mem_map.1 he
    exact (hkept e0 he0).imp_left mem_map_of_mem
  · rw [hservice]
    exact h.synced i e (hsub he)

lemma LogSound.same (h : LogSound L cfg ns p s) (hservice : w.service = s.service)
    (hoplog : w.storage.oplog = (s.nodes i).storage.oplog) :
    LogSound L cfg ns p (s.after i w ms) := by
  refine h.shrunk hservice (fun e he => hoplog ▸ he) fun e he => .inl ?_
  rwa [hoplog]

section

variable (D : Deployment cfg ns) (h : LogSound L cfg ns p s)

include D h

lemma LogSound.uploaded (hu : UploadQueue.Uploaded L (cfg i) (s.world i) w)
    (hsynced : UploadQueue.SyncedLogged ns w) : LogSound L cfg ns p (s.after i w []) := by
  have hentries : w.storage.oplog.map written = s.entries i := hu.oplog
  have hids := hu.ids
  rw [D.namespace_eq] at hids
  refine h.after ∅ (by simp) Set.subsingleton_empty (by simp) (hids h.logIds)
    (hu.log.snapshots.trans h.noSnapshots) (fun _ hm => hu.log.mutations hm) (fun m hm => ?_)
    (fun e he => h.recorded i e (hentries ▸ he)) (fun e he => .inl (hentries ▸ he)) hsynced
  obtain ⟨hops, hmns⟩ := InMemoryCoordinator.mem_mutations.1 hm
  rcases hu.pushed m hops with hold | ⟨e, he, hens, seq, rfl⟩
  · exact .inl (InMemoryCoordinator.mem_mutations.2 ⟨hold, hmns⟩)
  · -- the new mutation is the entry's
    have hmem : e.written ∈ p.entries i := h.recorded i _ (mem_map_of_mem he)
    obtain ⟨hreplica, blob, hblob, hdec⟩ := h.sealed i _ hmem
    refine .inr ⟨e.written, hmem, ⟨rfl, rfl, ?_⟩, hreplica⟩
    have hsome : e.encryptedBlob = some blob := hblob
    change decryptSymmetric L (e.encryptedBlob.getD L.empty) (cfg i).namespace = _
    rw [hsome, D.namespace_eq]
    exact hdec

variable {A : Call B → Env B → World B → Prop} {u base : CrdtState} {c : ClientId}

lemma LogSound.wrote (hentry : VaultSyncClient.NewEntry L (cfg i) A k base entry u c)
    (hid : ∀ j, ∀ e ∈ p.entries j, e.id ≠ entry.id) (hservice : w.service = s.service)
    (hoplog : w.storage.oplog = (s.nodes i).storage.oplog ++ [entry]) :
    LogSound L cfg ns (p.write i entry) (s.after i w []) := by
  have hentries : w.storage.oplog.map written = s.entries i ++ [entry.written] := by
    rw [hoplog, map_append]
    rfl
  have hblob := hentry.blob (D.keyVersion_lt i)
  rw [D.namespace_eq] at hblob
  refine h.after {entry.written} (fun j e => Past.mem_write) Set.subsingleton_singleton
    (fun e he => ?_) ?_ ?_ ?_ ?_ (fun e he => ?_) (fun e he => .inl ?_) fun e he hsync => ?_
  · rw [Set.mem_singleton_iff.1 he, hentries]
    exact ⟨mem_append_right _ mem_cons_self, ⟨hentry.replicaId, hblob⟩, hid⟩
  · rw [hservice]
    exact h.logIds
  · rw [hservice]
    exact h.noSnapshots
  · rw [hservice]
    exact fun _ hm => hm
  · rw [hservice]
    exact fun _ hm => .inl hm
  · rw [hentries] at he
    rcases mem_append.1 he with hold | hnew
    · exact Past.mem_write.2 (.inl (h.recorded i e hold))
    · exact Past.mem_write.2 (.inr ⟨rfl, mem_singleton.1 hnew⟩)
  · rw [hentries]
    exact mem_append_left _ he
  · rw [hservice]
    rw [hoplog] at he
    rcases mem_append.1 he with hold | hnew
    · exact h.synced i e hold hsync
    · rw [mem_singleton.1 hnew, hentry.pending] at hsync
      cases hsync

end

/-! ## One record -/

variable {α : Type} [SemilatticeSup α] [OrderBot α] {f : SupBotHom CrdtState α}
  {docs₀ : Key → Option B} {a : ι} {u : CrdtState} {c : ClientId}

omit [DecidableEq ι] in
lemma map_joinAll_le {l : List CrdtState} {b : α} (h : ∀ d ∈ l, f d ≤ b) : f (joinAll l) ≤ b := by
  induction l with
  | nil => exact (map_bot f).trans_le bot_le
  | cons d l ih =>
    rw [forall_mem_cons] at h
    exact (map_sup f d (joinAll l)).trans_le (sup_le h.1 (ih h.2))

def view (L : Lib B) (a : ι) (k : Key) (p : Past ι B) (s : Net ι B) (i : ι) : CrdtState :=
  (if i = a then p.removed else ⊥) ⊔ s.state L i k

lemma view_self : view L a k p s a = p.removed ⊔ s.state L a k := by rw [view, if_pos rfl]

lemma view_of_ne (h : i ≠ a) : view L a k p s i = s.state L i k := by
  rw [view, if_neg h, bot_sup_eq]

omit [DecidableEq ι] in
/-- Every update has an author, and whatever holds the author's items holds the update. -/
def Authored (L : Lib B) (k : Key) (p : Past ι B) (s : Net ι B) : Prop :=
  ∀ u ∈ p.updates L k, ∃ c ∈ u.stateVector,
    (∀ i, c ∈ (s.state L i k).stateVector → u ≤ s.state L i k) ∧
      ∀ u' ∈ p.updates L k, c ∈ u'.stateVector → u ≤ u'

/-- What holds of record `k`, which replica `a` may have removed; `f` is what of the documents is
followed. -/
structure Tracked (L : Lib B) (cfg : ι → Config) (ns : String) (f : SupBotHom CrdtState α)
    (docs₀ : Key → Option B) (a : ι) (k : Key) (p : Past ι B) (s : Net ι B) : Prop where
  own : ∀ j, ∀ e ∈ p.entries j, e.key = k →
    ∃ u, L.decodeV1 e.yrsUpdate = .ok u ∧ u ≤ view L a k p s j
  seen : ∀ i, ∀ id ∈ (s.nodes i).client.dedup.seen, ∃ m ∈ s.service.log.mutations ns, m.id = id ∧
    (m.key = k → HasMutation L ns (view L a k p s i) m)
  delivered : ∀ i, ∀ m ∈ s.delivered i, m.replicaId ≠ (cfg i).replicaId → m.key = k →
    HasMutation L ns (view L a k p s i) m
  start : ∀ i, storedState L (docs₀ k) ≤ view L a k p s i
  least : ∀ i b, f (storedState L (docs₀ k)) ≤ b → (∀ u ∈ p.updates L k, f u ≤ b) →
    f (view L a k p s i) ≤ b
  authors : Authored L k p s
  /-- What the others write after a removal, and so what can still reach `a`, knows the removed
  document. -/
  passed : p.removed ≠ ⊥ → ∀ j, j ≠ a → ∀ e ∈ p.entries j, e.key = k →
    (∃ m ∈ s.service.log.mutations ns, m.id = e.id ∧ m.sequence ≤ (s.nodes a).lastSequence) ∨
      ∃ u, L.decodeV1 e.yrsUpdate = .ok u ∧ f p.removed ≤ f u
  others : ∀ j, j ≠ a → f p.removed ≤ f (s.state L j k)
  restored : (s.nodes a).storage.documents k ≠ none → f p.removed ≤ f (s.state L a k)
  gone : (s.nodes a).storage.documents k = none →
    (L.Tombstone p.removed ∧ ∃ m ∈ s.service.log.mutations ns, m.key = k) ∨
      p.removed = ⊥ ∧ docs₀ k = none
  known : ∀ i, (s.nodes i).storage.documents k ≠ none →
    docs₀ k ≠ none ∨ ∃ j, ∃ e ∈ p.entries j, e.key = k
  stays : ∀ j, j ≠ a → docs₀ k ≠ none → (s.nodes j).storage.documents k ≠ none

lemma Authored.after (h : Authored L k p s) (hsame : p'.updates L k = p.updates L k)
    (hheld : ∀ u ∈ p.updates L k, ∀ c ∈ u.stateVector,
      (c ∈ (s.state L i k).stateVector → u ≤ s.state L i k) →
      (∀ u' ∈ p.updates L k, c ∈ u'.stateVector → u ≤ u') →
      c ∈ (docState L w k).stateVector → u ≤ docState L w k) :
    Authored L k p' (s.after i w ms) := by
  intro u hu
  rw [hsame] at hu ⊢
  obtain ⟨c, hc, hdocs, hothers⟩ := h u hu
  refine ⟨c, hc, fun j hmem => ?_, hothers⟩
  by_cases hj : j = i
  · subst hj
    rw [state_after_self] at hmem ⊢
    exact hheld u hu c hc (hdocs j) hothers hmem
  · rw [state_after_of_ne hj] at hmem ⊢
    exact hdocs j hmem

section

variable (h : Tracked L cfg ns f docs₀ a k p s)

include h

/-- A step of one replica that removes nothing: its document grows, and it may write the entries
`new`. -/
lemma Tracked.after (new : Set (OplogEntry B)) (hp : p'.removed = p.removed)
    (hentries : ∀ j e, e.key = k → (e ∈ p'.entries j ↔ e ∈ p.entries j ∨ j = i ∧ e ∈ new))
    (hnew : ∀ e ∈ new, ∃ u, L.decodeV1 e.yrsUpdate = .ok u ∧ u ≤ docState L w k ∧
      (i ≠ a → f p.removed ≤ f u))
    (hlog : s.service.log.mutations ns ⊆ w.service.log.mutations ns)
    (hgrows : s.state L i k ≤ docState L w k)
    (hseen : ∀ id ∈ w.client.dedup.seen, id ∈ (s.nodes i).client.dedup.seen ∨
      ∃ m ∈ w.service.log.mutations ns, m.id = id ∧
        (m.key = k → HasMutation L ns (docState L w k) m))
    (hms : ∀ m ∈ ms, m.replicaId ≠ (cfg i).replicaId → m.key = k →
      HasMutation L ns (view L a k p s i ⊔ docState L w k) m)
    (hleast : ∀ b, f (s.state L i k) ≤ b → (∀ u ∈ p'.updates L k, f u ≤ b) →
      f (docState L w k) ≤ b)
    (hauthors : Authored L k p' (s.after i w ms))
    (hlast : p.removed ≠ ⊥ → i = a → (s.nodes i).lastSequence ≤ w.lastSequence)
    (hrestored : i = a → w.storage.documents k ≠ none → f p.removed ≤ f (docState L w k))
    (hstored : w.storage.documents k = none → (s.nodes i).storage.documents k = none)
    (hknown : w.storage.documents k ≠ none → (s.nodes i).storage.documents k ≠ none ∨
      ∃ j, ∃ e ∈ p'.entries j, e.key = k) :
    Tracked L cfg ns f docs₀ a k p' (s.after i w ms) := by
  have hviewi : view L a k p' (s.after i w ms) i = view L a k p s i ⊔ docState L w k := by
    rw [view, state_after_self, hp, view, sup_assoc, sup_eq_right.2 hgrows]
  have hviewj : ∀ j, j ≠ i → view L a k p' (s.after i w ms) j = view L a k p s j := by
    intro j hj
    rw [view, state_after_of_ne hj, hp, view]
  have hview : ∀ j, view L a k p s j ≤ view L a k p' (s.after i w ms) j := by
    intro j
    by_cases hj : j = i
    · subst hj
      exact le_sup_left.trans_eq hviewi.symm
    · exact (hviewj j hj).ge
  have hstate : ∀ j, s.state L j k ≤ (s.after i w ms).state L j k := by
    intro j
    by_cases hj : j = i
    · subst hj
      exact hgrows.trans_eq (state_after_self k).symm
    · exact (state_after_of_ne hj k).ge
  have hnone : ∀ j, ((s.after i w ms).nodes j).storage.documents k = none →
      (s.nodes j).storage.documents k = none := by
    intro j hdoc
    by_cases hj : j = i
    · subst hj
      rw [after_node_self] at hdoc
      exact hstored hdoc
    · rwa [after_node_of_ne hj] at hdoc
  refine ⟨fun j e he hek => ?_, fun j id hid => ?_, fun j m hm hfor hmk => ?_,
    fun j => (h.start j).trans (hview j), fun j b hstart hpub => ?_, hauthors,
    fun hbot j hj e he hek => ?_, fun j hj => ?_, fun hdoc => ?_, fun hdoc => ?_, fun j hdoc => ?_,
    fun j hj hdoc hgone => h.stays j hj hdoc (hnone j hgone)⟩
  · rcases (hentries j e hek).1 he with hold | ⟨rfl, he⟩
    · obtain ⟨u, hu, hle⟩ := h.own j e hold hek
      exact ⟨u, hu, hle.trans (hview j)⟩
    · obtain ⟨u, hu, hle, -⟩ := hnew e he
      exact ⟨u, hu, hle.trans (le_sup_right.trans_eq hviewi.symm)⟩
  · have hold : id ∈ (s.nodes j).client.dedup.seen → ∃ m ∈ w.service.log.mutations ns, m.id = id ∧
        (m.key = k → HasMutation L ns (view L a k p' (s.after i w ms) j) m) := by
      intro hid
      obtain ⟨m, hm, hmid, hhas⟩ := h.seen j id hid
      exact ⟨m, hlog hm, hmid, fun hmk => (hhas hmk).mono (hview j)⟩
    by_cases hj : j = i
    · subst hj
      rw [after_node_self] at hid
      rcases hseen id hid with hid | ⟨m, hm, hmid, hhas⟩
      · exact hold hid
      · exact ⟨m, hm, hmid, fun hmk => (hhas hmk).mono (le_sup_right.trans_eq hviewi.symm)⟩
    · rw [after_node_of_ne hj] at hid
      exact hold hid
  · by_cases hj : j = i
    · subst hj
      rw [after_delivered_self] at hm
      rcases mem_append.1 hm with hold | hnow
      · exact (h.delivered j m hold hfor hmk).mono (hview j)
      · exact (hms m hnow hfor hmk).mono hviewi.ge
    · rw [after_delivered_of_ne hj] at hm
      exact (h.delivered j m hm hfor hmk).mono (hview j)
  · have hold : f (view L a k p s j) ≤ b := by
      refine h.least j b hstart ?_
      rintro u ⟨j', e, he, hek, hu⟩
      exact hpub u ⟨j', e, (hentries j' e hek).2 (.inl he), hek, hu⟩
    by_cases hj : j = i
    · subst hj
      rw [hviewi, map_sup]
      refine sup_le hold (hleast b ?_ hpub)
      exact (OrderHomClass.mono f le_sup_right).trans hold
    · rwa [hviewj j hj]
  · rw [hp] at hbot ⊢
    rcases (hentries j e hek).1 he with hold | ⟨rfl, he⟩
    · refine (h.passed hbot j hj e hold hek).imp_left ?_
      rintro ⟨m, hm, hmid, hseq⟩
      refine ⟨m, hlog hm, hmid, hseq.trans ?_⟩
      by_cases hai : a = i
      · subst hai
        rw [after_node_self]
        exact hlast hbot rfl
      · rw [after_node_of_ne hai]
    · obtain ⟨u, hu, -, hle⟩ := hnew e he
      exact .inr ⟨u, hu, hle hj⟩
  · rw [hp]
    exact (h.others j hj).trans (OrderHomClass.mono f (hstate j))
  · rw [hp]
    by_cases hai : a = i
    · subst hai
      rw [after_node_self] at hdoc
      rw [state_after_self]
      exact hrestored rfl hdoc
    · rw [after_node_of_ne hai] at hdoc
      rw [state_after_of_ne hai]
      exact h.restored hdoc
  · rw [hp]
    refine (h.gone (hnone a hdoc)).imp_left ?_
    rintro ⟨htomb, m, hm, hmk⟩
    exact ⟨htomb, m, hlog hm, hmk⟩
  · have hold : (s.nodes j).storage.documents k ≠ none →
        docs₀ k ≠ none ∨ ∃ j, ∃ e ∈ p'.entries j, e.key = k := by
      intro hne
      refine (h.known j hne).imp_right ?_
      rintro ⟨j, e, he, hek⟩
      exact ⟨j, e, (hentries j e hek).2 (.inl he), hek⟩
    by_cases hj : j = i
    · subst hj
      rw [after_node_self] at hdoc
      exact (hknown hdoc).elim hold .inr
    · rw [after_node_of_ne hj] at hdoc
      exact hold hdoc

lemma Tracked.aside (hstate : docState L w k = s.state L i k)
    (hdoc : w.storage.documents k = none ↔ (s.nodes i).storage.documents k = none)
    (hlog : s.service.log.mutations ns ⊆ w.service.log.mutations ns)
    (hdedup : w.client.dedup = (s.nodes i).client.dedup)
    (hlast : w.lastSequence = (s.nodes i).lastSequence) (hremoved : p'.removed = p.removed)
    (hentries : ∀ j e, e.key = k → (e ∈ p'.entries j ↔ e ∈ p.entries j)) :
    Tracked L cfg ns f docs₀ a k p' (s.after i w []) := by
  have hsame : p'.updates L k = p.updates L k := by
    ext u
    refine exists_congr fun j => exists_congr fun e => ⟨?_, ?_⟩
    · rintro ⟨he, hek, hu⟩
      exact ⟨(hentries j e hek).1 he, hek, hu⟩
    · rintro ⟨he, hek, hu⟩
      exact ⟨(hentries j e hek).2 he, hek, hu⟩
  refine h.after ∅ hremoved (fun j e hek => (hentries j e hek).trans (by simp)) (by simp) hlog
    hstate.ge (fun id hid => .inl (hdedup ▸ hid)) (by simp) (fun b hb _ => hstate ▸ hb)
    (h.authors.after hsame fun u _ c _ hheld _ hc => ?_) (fun _ _ => hlast.ge) ?_ hdoc.1
    fun hne => .inl fun hnone => hne (hdoc.2 hnone)
  · rw [hstate] at hc ⊢
    exact hheld hc
  · rintro rfl hne
    rw [hstate]
    exact h.restored fun hnone => hne (hdoc.2 hnone)

section

variable {A : Call B → Env B → World B → Prop}
  (hentry : VaultSyncClient.NewEntry L (cfg i) A k (s.state L i k) entry u c)
  (hdocs : ∀ j, c ∉ (s.state L j k).stateVector)
  (hnew : ∀ v ∈ p.updates L k, c ∉ v.stateVector)

include hentry hdocs hnew

lemma Tracked.authors_wrote (hnow : docState L w k = s.state L i k ⊔ u) :
    Authored L k (p.write i entry) (s.after i w []) := by
  have hupdates : ∀ v ∈ (p.write i entry).updates L k, v ∈ p.updates L k ∨ v = u := by
    rintro v ⟨j, e, he, hek, hv⟩
    rcases Past.mem_write.1 he with he | ⟨-, rfl⟩
    · exact .inl ⟨j, e, he, hek, hv⟩
    · exact .inr (Except.ok.inj (hv.symm.trans hentry.update))
  intro v hv
  rcases hupdates v hv with hold | rfl
  · obtain ⟨x, hx, hheld, hothers⟩ := h.authors v hold
    have hxu : x ∈ u.stateVector → v ≤ u := by
      intro hxu
      rcases hentry.others x hxu with rfl | ⟨hbase, hle⟩
      · exact absurd hx (hnew v hold)
      · exact (hheld i hbase).trans hle
    refine ⟨x, hx, fun j hmem => ?_, fun v' hv' hxv => ?_⟩
    · by_cases hj : j = i
      · subst hj
        rw [state_after_self, hnow] at hmem ⊢
        rcases mem_sup.1 hmem with hmem | hmem
        · exact (hheld j hmem).trans le_sup_left
        · exact (hxu hmem).trans le_sup_right
      · rw [state_after_of_ne hj] at hmem ⊢
        exact hheld j hmem
    · rcases hupdates v' hv' with hold' | rfl
      · exact hothers v' hold' hxv
      · exact hxu hxv
  · refine ⟨c, hentry.author, fun j hmem => ?_, fun v' hv' hcv => ?_⟩
    · by_cases hj : j = i
      · subst hj
        rw [state_after_self, hnow]
        exact le_sup_right
      · rw [state_after_of_ne hj] at hmem
        exact absurd hmem (hdocs j)
    · rcases hupdates v' hv' with hold' | rfl
      · exact absurd hcv (hnew v' hold')
      · exact le_rfl

lemma Tracked.wrote (hbase : i ≠ a → f p.removed ≤ f u)
    (hself : i = a → f p.removed ≤ f (s.state L a k)) (hservice : w.service = s.service)
    (hdedup : w.client.dedup = (s.nodes i).client.dedup)
    (hlast : w.lastSequence = (s.nodes i).lastSequence)
    (hstorage : w.storage = (s.nodes i).storage.writeDocumentAndOplog k
      (L.encodeV1 (s.state L i k ⊔ u)) entry) :
    Tracked L cfg ns f docs₀ a k (p.write i entry) (s.after i w []) := by
  have hdoc : w.storage.documents k = some (L.encodeV1 (s.state L i k ⊔ u)) := by
    rw [hstorage]
    exact Function.update_self ..
  have hnow : docState L w k = s.state L i k ⊔ u := docState_of_some hdoc (L.decode_encode _)
  have hmem : entry.written ∈ (p.write i entry).entries i := Past.mem_write.2 (.inr ⟨rfl, rfl⟩)
  refine h.after {entry.written} rfl (fun j e _ => Past.mem_write) (fun e he => ?_) ?_
    (hnow ▸ le_sup_left) (fun id hid => .inl (hdedup ▸ hid)) (by simp) (fun b hb hpub => ?_)
    (h.authors_wrote hentry hdocs hnew hnow) (fun _ _ => hlast.ge) ?_ ?_
    fun _ => .inr ⟨i, entry.written, hmem, hentry.key⟩
  · rw [Set.mem_singleton_iff.1 he, hnow]
    exact ⟨u, hentry.update, le_sup_right, hbase⟩
  · rw [hservice]
    exact fun _ hm => hm
  · rw [hnow, map_sup]
    exact sup_le hb (hpub u ⟨i, entry.written, hmem, hentry.key, hentry.update⟩)
  · rintro rfl -
    rw [hnow]
    exact (hself rfl).trans (OrderHomClass.mono f le_sup_left)
  · rw [hdoc]
    exact fun hnone => absurd hnone (Option.some_ne_none _)

end

variable {draw : ClientId → Prop} {es : List (OplogEntry B)}

lemma Tracked.removed_le (D : Deployment cfg ns) (hlog : LogSound L cfg ns p s)
    (hm : MergedAt L draw es k (s.world a) w)
    (hes : ∀ e ∈ es, ∃ m ∈ s.service.log.mutations ns, EntryOf L (cfg a) m e ∧
      m.replicaId ≠ (cfg a).replicaId ∧ (p.removed ≠ ⊥ → (s.nodes a).lastSequence < m.sequence))
    (hdoc : w.storage.documents k ≠ none) : f p.removed ≤ f (docState L w k) := by
  by_cases hbot : p.removed = ⊥
  · rw [hbot, map_bot]
    exact bot_le
  rcases hm.stored with hsame | ⟨-, e, he, hek, u, hu, hule⟩
  · rw [hsame] at hdoc
    exact (h.restored hdoc).trans (OrderHomClass.mono f hm.grows)
  · obtain ⟨m, hmem, hof, hfor, hseq⟩ := hes e he
    obtain ⟨j, e0, he0, hid, hkey, hsame, hreplica⟩ := hlog.published D hmem hof
    have hja : j ≠ a := fun hja => hfor (hja ▸ hreplica)
    rw [hek] at hule
    rcases h.passed hbot j hja e0 he0 (hkey.trans hek) with ⟨m', hmem', hmid, hold⟩ | ⟨u', hu', hknows⟩
    · have heq : m' = m := inj_on_of_nodup_map hlog.logIds hmem' hmem (hmid.trans hid)
      rw [heq] at hold
      exact absurd hold (hseq hbot).not_ge
    · rw [hsame, hu] at hu'
      cases hu'
      exact hknows.trans (OrderHomClass.mono f hule)

lemma Tracked.merged (D : Deployment cfg ns) (hlog : LogSound L cfg ns p s)
    (hm : MergedAt L draw es k (s.world i) w)
    (hes : ∀ e ∈ es, ∃ m ∈ s.service.log.mutations ns, EntryOf L (cfg i) m e ∧
      m.replicaId ≠ (cfg i).replicaId ∧
      (p.removed ≠ ⊥ → i = a → (s.nodes i).lastSequence < m.sequence))
    (hdraw : ∀ c, draw c → ∀ u ∈ p.updates L k, c ∉ u.stateVector)
    (hsilent : ∀ v : StateVector, (∀ c ∈ v, NewDocBy draw es (s.world i) k c) → f ⟨v, ∅⟩ = ⊥)
    (hlast : p.removed ≠ ⊥ → i = a → (s.nodes i).lastSequence ≤ w.lastSequence)
    (hms : ∀ m ∈ ms, m.replicaId ≠ (cfg i).replicaId → m.key = k →
      HasMutation L ns (view L a k p s i ⊔ docState L w k) m) :
    Tracked L cfg ns f docs₀ a k p (s.after i w ms) := by
  obtain ⟨us, hus, v, hv, hle⟩ := hm.bound
  -- what was merged had been published
  have hpub : ∀ u ∈ us, u ∈ p.updates L k ∧ u ≤ docState L w k := by
    intro u hu
    obtain ⟨e, he, hek, hdec, hule⟩ := hus u hu
    obtain ⟨m, hmem, hof, -⟩ := hes e he
    obtain ⟨j, e0, he0, -, hkey, hsame, -⟩ := hlog.published D hmem hof
    exact ⟨⟨j, e0, he0, hkey.trans hek, hsame ▸ hdec⟩, hule⟩
  have hstored : w.storage.documents k = none → (s.world i).storage.documents k = none := by
    intro hnone
    rcases hm.stored with hsame | ⟨hne, -⟩
    · exact hsame.symm.trans hnone
    · exact absurd hnone hne
  refine h.after ∅ rfl (by simp) (by simp) ?_ hm.grows (fun id hid => ?_) hms (fun b hb hu => ?_)
    (h.authors.after rfl fun u hu c hc hheld hothers hmem => ?_) hlast ?_ hstored fun hdoc => ?_
  · rw [hm.service]
    exact fun _ hm => hm
  · refine (hm.seen id hid).imp_right ?_
    rintro ⟨e, he, rfl, hcont⟩
    obtain ⟨m, hmem, hof, -⟩ := hes e he
    refine ⟨m, hm.service ▸ hmem, hof.id.symm, fun hmk => ?_⟩
    have hek : e.key = k := hof.key.trans hmk
    obtain ⟨u, hu, hule⟩ := hcont hek
    rw [hek] at hule
    have hplain := hof.update
    rw [D.namespace_eq] at hplain
    exact ⟨e.yrsUpdate, u, hplain, hu, hule⟩
  · refine (OrderHomClass.mono f hle).trans ?_
    rw [map_sup, map_sup, hsilent v hv]
    exact sup_le (sup_le hb (map_joinAll_le fun u hmem => hu u (hpub u hmem).1)) bot_le
  · rcases mem_sup.1 (Multiset.mem_of_le hle.1 hmem) with hmem | hmem
    · rcases mem_sup.1 hmem with hmem | hmem
      · exact (hheld hmem).trans hm.grows
      · obtain ⟨u', hu', hcu⟩ := mem_joinAll hmem
        exact (hothers u' (hpub u' hu').1 hcu).trans (hpub u' hu').2
    · exact absurd hc (hdraw c (hv c hmem).1 u hu)
  · rintro rfl hdoc
    refine h.removed_le D hlog hm (fun e he => ?_) hdoc
    obtain ⟨m, hmem, hof, hfor, hseq⟩ := hes e he
    exact ⟨m, hmem, hof, hfor, fun hbot => hseq hbot rfl⟩
  · rcases hm.stored with hsame | ⟨-, e, he, hek, -⟩
    · rw [hsame] at hdoc
      exact .inl hdoc
    · obtain ⟨m, hmem, hof, -⟩ := hes e he
      obtain ⟨j, e0, he0, -, hkey, -⟩ := hlog.published D hmem hof
      exact .inr ⟨j, e0, he0, hkey.trans hek⟩

end

/-! ## When everybody has everything -/

structure Exchanged (cfg : ι → Config) (ns : String) (k : Key) (s : Net ι B) : Prop where
  uploaded : ∀ j, ∀ e ∈ s.entries j, e.key = k →
    e.id ∈ (s.service.log.mutations ns).map PendingMutation.id
  delivered : ∀ i, ∀ m ∈ s.service.log.mutations ns, m.key = k →
    m.replicaId ≠ (cfg i).replicaId → m ∈ s.delivered i

section

variable (D : Deployment cfg ns) (hlog : LogSound L cfg ns p s) (hx : Exchanged cfg ns k s)

include D hlog hx

omit [DecidableEq ι] in
lemma LogSound.logged_of_exchanged (he : e ∈ p.entries j) (hek : e.key = k) :
    ∃ m ∈ s.service.log.mutations ns, m.id = e.id ∧ m.key = k ∧
      (∀ i, j ≠ i → m.replicaId ≠ (cfg i).replicaId) ∧
      decryptSymmetric L m.encryptedBlob ns = .ok e.yrsUpdate := by
  have hid : e.id ∈ (s.service.log.mutations ns).map PendingMutation.id :=
    (hlog.kept j e he).elim (fun hin => hx.uploaded j e hin hek) id
  obtain ⟨m, hm, hmid, hmk, hreplica, hplain⟩ := hlog.mutation_of_entry D he hid
  refine ⟨m, hm, hmid, hmk.trans hek, fun i hi heq => hi ?_, hplain⟩
  exact D.replica_injective _ _ (hreplica.symm.trans heq)

lemma Tracked.le_view (h : Tracked L cfg ns f docs₀ a k p s) (i : ι) (he : e ∈ p.entries j)
    (hek : e.key = k) (hu : L.decodeV1 e.yrsUpdate = .ok u) :
    u ≤ view L a k p s i := by
  by_cases hij : j = i
  · subst hij
    obtain ⟨u', hu', hle⟩ := h.own j e he hek
    cases hu.symm.trans hu'
    exact hle
  · obtain ⟨m, hm, -, hmk, hothers, hplain⟩ := hlog.logged_of_exchanged D hx he hek
    have hfor := hothers i hij
    obtain ⟨plain, u', hplain', hu', hle⟩ := h.delivered i m (hx.delivered i m hm hmk hfor) hfor hmk
    cases hplain.symm.trans hplain'
    cases hu.symm.trans hu'
    exact hle

lemma Tracked.map_view_le (h : Tracked L cfg ns f docs₀ a k p s)
    (i j : ι) : f (view L a k p s i) ≤ f (view L a k p s j) := by
  refine h.least i _ (OrderHomClass.mono f (h.start j)) ?_
  rintro u ⟨j', e, he, hek, hu⟩
  exact OrderHomClass.mono f (h.le_view D hlog hx j he hek hu)

end

end After

end Net

end VaultSync
