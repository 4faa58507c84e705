import Mathlib.Order.CompletePartialOrder
import VaultSync.Client.Read
import VaultSync.Replication.Convergence
import VaultSync.Sync.RunCompaction

/-! Tombstone removal beside replication. Replica `a` deletes records and compacts; all of them
write, upload, pull and are pushed to, in any order. -/

namespace VaultSync

open Async AsyncFn World DownloadQueue List VaultSyncClient Sym Action CompactionEngine

variable {B ι : Type}

def Action.Delivers : Action B → Prop
  | .download | .pushed _ => True
  | _ => False

/-- The next call: one of a replica's, or a compaction at `a` that lists tombstones at `now`. -/
inductive Move (ι B : Type) where
  | call (i : ι) (act : Action B)
  | compact (config : CompactionConfig) (now : ℕ)

namespace Net

def Unused (L : Lib B) (ns : String) (s : Net ι B) (c : ClientId) : Prop :=
  s.NewClient L c ∧ ∀ m ∈ s.service.log.mutations ns, ∀ plain u,
    decryptSymmetric L m.encryptedBlob ns = .ok plain → L.decodeV1 plain = .ok u →
    c ∉ u.stateVector

/-- Ids are drawn new; a document that a delivery creates has the items of `new`, and `_deleted`
is not among them. -/
def Draws (L : Lib B) (ns : String) (content : Content) (s : Net ι B) (act : Action B) :
    Call B → Env B → World B → Prop
  | .newClientId, env, _ => s.Unused L ns env.clientId ∧
      (act.Delivers → CrdtState.Silent content "_deleted" env.clientId)
  | .newUuid, env, _ => s.NewId env.uuid ∧
      env.uuid ∉ (s.service.log.mutations ns).map PendingMutation.id
  | _, _, _ => True

section Moves

variable [DecidableEq ι] [DecidableEq B] (L : Lib B) (cfg : ι → Config) (ns : String)
  (content : Content) (a : ι) (may : Net ι B → Move ι B → Prop)

inductive MoveStep : Net ι B → Net ι B → Prop
  | call {s : Net ι B} {i : ι} {act : Action B} {r : Except VaultSyncError ℕ} {w : World B} :
      act.Possible (cfg i) (s.world i) → may s (.call i act) →
      Outcome (machine 0 (s.Draws L ns content act)) (act.prog L (cfg i)) (s.world i) r w →
      MoveStep s (s.after i w (act.handed (cfg i) (s.world i) r))
  | compact {s : Net ι B} {config : CompactionConfig} {now : ℕ}
      {r : Except VaultSyncError CompactionStats} {w : World B} :
      may s (.compact config now) →
      Outcome (machine 0 (ListedAt now))
        (runCompaction L config ns) (s.world a) r w →
      MoveStep s (s.after a w [])

def Run : Net ι B → Net ι B → Prop :=
  Relation.ReflTransGen (MoveStep L cfg ns content a may)

def play (s : Net ι B) (i : ι) (act : Action B) (es : List (Env B)) : Net ι B :=
  let o := run (machine 0 (s.Draws L ns content act)) (act.prog L (cfg i)) es (s.world i)
  s.after i o.2 (act.handed (cfg i) (s.world i) o.1)

def playCompaction (s : Net ι B) (config : CompactionConfig) (now : ℕ)
    (es : List (Env B)) : Net ι B :=
  s.after a (run (machine 0 (ListedAt now))
    (runCompaction L config ns) es (s.world a)).2 []

variable {L cfg ns content a may} {i : ι} {s : Net ι B} {act : Action B} {es : List (Env B)}

lemma moveStep_play (hpossible : act.Possible (cfg i) (s.world i)) (hmay : may s (.call i act))
    (hes : Allowed (machine 0 (s.Draws L ns content act)) (act.prog L (cfg i)) es (s.world i)) :
    MoveStep L cfg ns content a may s (s.play L cfg ns content i act es) :=
  .call hpossible hmay hes.outcome

lemma moveStep_playCompaction {config : CompactionConfig} {now : ℕ}
    (hmay : may s (.compact config now))
    (hes : Allowed (machine 0 (ListedAt now)) (runCompaction L config ns) es (s.world a)) :
    MoveStep L cfg ns content a may s (s.playCompaction L ns a config now es) :=
  .compact hmay hes.outcome

end Moves

def Deletes (a : ι) (k : Key) : Move ι B → Prop
  | .call i (.delete k') => k' = k → i = a
  | _ => True

def Writable (ns : String) (a : ι) (k : Key) (s : Net ι B) (i : ι) : Prop :=
  i = a → (s.nodes a).storage.documents k = none → ∀ m ∈ s.service.log.mutations ns, m.key ≠ k

structure Settled (cfg : ι → Config) (ns : String) (a : ι) (k : Key) (s : Net ι B) : Prop
    extends Exchanged cfg ns k s where
  read : ∀ m ∈ s.service.log.mutations ns, m.key = k → m.replicaId ≠ (cfg a).replicaId →
    m.sequence ≤ (s.nodes a).lastSequence

/-- When a move leaves the deletion of record `k` to all replicas: `a` removes it only when
everybody has everything of it; what `a` writes continues it; no insert replaces it, no push
behind the cursor is new and the cursor of `a` does not wrap. -/
def Orderly (L : Lib B) (cfg : ι → Config) (ns : String) (a : ι) (k : Key) (s : Net ι B) :
    Move ι B → Prop
  | .call i (.insert k' _) => k' = k →
      (s.nodes i).storage.documents k = none ∧ s.Writable ns a k i
  | .call i (.update k' _) => k' = k → s.Writable ns a k i
  | .call _ (.delete _) | .call _ .upload => True
  | .call i .download => i = a → (s.nodes i).lastSequence + 1 < 2 ^ 64
  | .call i (.pushed m) => m.key = k → m.replicaId ≠ (cfg i).replicaId →
      m.sequence ≤ (s.nodes i).lastSequence → m ∈ s.delivered i
  | .compact config now =>
      k ∈ (s.nodes a).storage.listTombstonedDocuments ns config.tombstoneGraceSecs now →
      (∃ bytes, (s.nodes a).storage.documents k = some bytes ∧ CompactionEngine.Deleted L bytes) →
      Settled cfg ns a k s

variable [DecidableEq ι]

variable {L : Lib B} {cfg : ι → Config} {ns : String} {content : Content}
  {docs₀ : Key → Option B} {a i : ι} {k : Key} {p : Past ι B} {s s' : Net ι B} {w : World B}

/-! ## What is drawn -/

section Drawn

variable {act : Action B} {c : ClientId} {id : String} {j : ι} {e : OplogEntry B}

omit [DecidableEq ι] in
lemma unused_of_drawn (h : Drawn (s.Draws L ns content act) c) :
    s.Unused L ns c ∧ (act.Delivers → CrdtState.Silent content "_deleted" c) := by
  obtain ⟨e, w, hdraw, rfl⟩ := h
  exact hdraw

omit [DecidableEq ι] in
lemma LogSound.newDraws (D : Deployment cfg ns) (h : LogSound L cfg ns p s) :
    NewDraws L k (s.Draws L ns content act) p s := by
  refine ⟨fun c hc j => (unused_of_drawn hc).1.1.1 j k, ?_, ?_⟩
  · rintro c hc u ⟨j, e, he, -, hu⟩
    have hunused := (unused_of_drawn hc).1
    rcases h.kept j e he with hin | hid
    · exact hunused.1.2 j e hin u hu
    · obtain ⟨m, hm, -, -, -, hplain⟩ := h.mutation_of_entry D he hid
      exact hunused.2 m hm e.yrsUpdate u hplain hu
  · rintro id ⟨env, w, ⟨hnew, hlogged⟩, rfl⟩ j e he
    rcases h.kept j e he with hin | hmem
    · exact hnew j e hin
    · exact fun heq => hlogged (heq ▸ hmem)

end Drawn

/-! ## Compaction -/

def marks (content : Content) : SupBotHom CrdtState (Set ItemId × Set ItemId) where
  toFun := CrdtState.itemsOf content "_deleted"
  map_sup' := CrdtState.itemsOf_sup
  map_bot' := le_bot_iff.1 (CrdtState.itemsOf_silent (by simp) ⊥)

lemma LogSound.compacted {P : Key → Prop} (h : LogSound L cfg ns p s)
    (hk : CompactionEngine.Kept L ns P (s.world i) w) : LogSound L cfg ns p (s.after i w []) := by
  refine h.shrunk hk.beside.1 hk.inOrder.subset fun e he => ?_
  by_cases hprot : CompactionEngine.Protected ns e
  · left
    have hmem : e ∈ (s.world i).storage.oplog.filter (fun e => CompactionEngine.Protected ns e) :=
      mem_filter.2 ⟨he, decide_eq_true hprot⟩
    rw [← hk.kept] at hmem
    exact mem_of_mem_filter hmem
  · right
    unfold CompactionEngine.Protected at hprot
    push Not at hprot
    exact h.synced i e he hprot.2

lemma Tracked.tombstone_view (hmaps : L.Maps content)
    (h : Tracked L cfg ns (marks content) docs₀ a k p s)
    (hdoc : (s.nodes a).storage.documents k ≠ none) :
    L.Tombstone (view L a k p s a) ↔ L.Tombstone (s.state L a k) := by
  refine hmaps.tombstone_congr ?_
  rw [view_self, CrdtState.itemsOf_sup]
  exact sup_eq_right.2 (h.restored hdoc)

lemma Tracked.removed (D : Deployment cfg ns) (hmaps : L.Maps content)
    (hlog : LogSound L cfg ns p s) (h : Tracked L cfg ns (marks content) docs₀ a k p s)
    (hset : Settled cfg ns a k s) (htomb : L.Tombstone (s.state L a k))
    (hdoc : (s.nodes a).storage.documents k ≠ none)
    (hmut : ∃ m ∈ s.service.log.mutations ns, m.key = k) (hservice : w.service = s.service)
    (hdedup : w.client.dedup = (s.nodes a).client.dedup)
    (hlast : w.lastSequence = (s.nodes a).lastSequence) (hgone : w.storage.documents k = none) :
    Tracked L cfg ns (marks content) docs₀ a k { p with removed := view L a k p s a }
      (s.after a w []) := by
  have hbot : docState L w k = ⊥ := by
    rw [docState, hgone]
    rfl
  have hview : ∀ j, view L a k { p with removed := view L a k p s a } (s.after a w []) j =
      view L a k p s j := by
    intro j
    by_cases hj : j = a
    · subst hj
      rw [view_self, state_after_self, hbot, sup_bot_eq]
    · rw [view_of_ne hj, view_of_ne hj, state_after_of_ne hj]
  refine ⟨fun j e he hek => ?_, fun j id hid => ?_, fun j m hm => ?_, fun j => ?_, fun j b => ?_,
    h.authors.after rfl fun u _ c _ _ _ hc => ?_, fun _ j hj e he hek => .inl ?_, fun j hj => ?_,
    fun hne => ?_, fun _ => .inl ?_, fun j hne => ?_, fun j hj hne => ?_⟩
  · rw [hview]
    exact h.own j e he hek
  · rw [after_service, hservice, hview]
    refine h.seen j id ?_
    by_cases hj : j = a
    · subst hj
      rwa [after_node_self, hdedup] at hid
    · rwa [after_node_of_ne hj] at hid
  · rw [hview]
    refine h.delivered j m ?_
    by_cases hj : j = a
    · subst hj
      rwa [after_delivered_self, append_nil] at hm
    · rwa [after_delivered_of_ne hj] at hm
  · rw [hview]
    exact h.start j
  · rw [hview]
    exact h.least j b
  · rw [hbot] at hc
    exact absurd hc (Multiset.notMem_zero c)
  · -- `a` has read every entry of the others
    obtain ⟨m, hm, hmid, hmk, hothers, -⟩ := hlog.logged_of_exchanged D hset.toExchanged he hek
    rw [after_service, hservice, after_node_self, hlast]
    exact ⟨m, hm, hmid, hset.read m hm hmk (hothers a hj)⟩
  · rw [state_after_of_ne hj, ← view_of_ne (L := L) (a := a) (p := p) hj]
    exact h.map_view_le D hlog hset.toExchanged a j
  · rw [after_node_self] at hne
    exact absurd hgone hne
  · rw [after_service, hservice]
    exact ⟨(h.tombstone_view hmaps hdoc).2 htomb, hmut⟩
  · by_cases hj : j = a
    · subst hj
      rw [after_node_self] at hne
      exact absurd hgone hne
    · rw [after_node_of_ne hj] at hne
      exact h.known j hne
  · rw [after_node_of_ne hj]
    exact h.stays j hj hne

section Steps

variable (D : Deployment cfg ns)
  (h : Recorded L cfg ns (marks content) docs₀ a k False p s)

include D h

lemma Recorded.compacted (hmaps : L.Maps content) {secs now : ℕ} (hkept : CompactionEngine.Kept L ns
      (fun k => k ∈ (s.nodes a).storage.listTombstonedDocuments ns secs now) (s.world a) w)
    (hset : k ∈ (s.nodes a).storage.listTombstonedDocuments ns secs now →
      (∃ bytes, (s.nodes a).storage.documents k = some bytes ∧ CompactionEngine.Deleted L bytes) →
      Settled cfg ns a k s) :
    ∃ p', Recorded L cfg ns (marks content) docs₀ a k False p' (s.after a w []) := by
  obtain ⟨hlog, htrack, -⟩ := h
  obtain ⟨hservice, hlast, hclient⟩ := hkept.beside
  have hdedup : w.client.dedup = (s.nodes a).client.dedup := by rw [hclient]; rfl
  have hmuts : s.service.log.mutations ns ⊆ w.service.log.mutations ns := by
    rw [hservice]
    exact fun _ hm => hm
  have hsound := hlog.compacted hkept
  cases hdoc : (s.nodes a).storage.documents k with
  | none =>
    have hsame : w.storage.documents k = (s.nodes a).storage.documents k :=
      (hkept.absent k hdoc).trans hdoc.symm
    exact ⟨p, hsound, htrack.aside (state_congr hsame) (by rw [hsame]) hmuts hdedup hlast rfl
      fun _ _ _ => Iff.rfl, False.elim⟩
  | some bytes =>
    rcases hkept.stored k bytes hdoc with ⟨bytes', hdoc', hsame⟩ | ⟨hgone, ⟨d, hdec, htomb⟩, hlisted⟩
    · have hstate : docState L w k = s.state L a k := by
        rcases hsame with rfl | ⟨d, hdec, hdec'⟩
        · exact state_congr (hdoc'.trans hdoc.symm)
        · exact (docState_of_some hdoc' hdec').trans (docState_of_some hdoc hdec).symm
      exact ⟨p, hsound, htrack.aside hstate (by simp [hdoc, hdoc']) hmuts hdedup hlast rfl
        fun _ _ _ => Iff.rfl, False.elim⟩
    · have hstate : s.state L a k = d := docState_of_some hdoc hdec
      have hstored : (s.nodes a).storage.documents k ≠ none := by
        rw [hdoc]
        exact Option.some_ne_none bytes
      have hmut : ∃ m ∈ s.service.log.mutations ns, m.key = k := by
        obtain ⟨e, he, rfl⟩ := mem_map.1 (mem_dedup.1 hlisted)
        obtain ⟨hmem, hcond⟩ := mem_filter.1 he
        obtain ⟨m, hm, -, hmk, -⟩ := hlog.mutation_of_entry D (hlog.recorded a _ (mem_map_of_mem hmem))
          (hlog.synced a e hmem (of_decide_eq_true hcond).2.2.1)
        exact ⟨m, hm, hmk⟩
      exact ⟨{ p with removed := view L a k p s a }, { hsound with }, htrack.removed D hmaps hlog
        (hset hlisted ⟨bytes, hdoc, d, hdec, htomb⟩) (hstate ▸ htomb) hstored hmut hservice hdedup
        hlast hgone, False.elim⟩

omit D in
lemma Recorded.removed_le_of_writable (hw : s.Writable ns a k i) (hi : i = a) :
    marks content p.removed ≤ marks content (s.state L a k) := by
  by_cases hdoc : (s.nodes a).storage.documents k = none
  · -- nothing was removed yet
    rcases h.record.gone hdoc with ⟨-, m, hm, hmk⟩ | ⟨hbot, -⟩
    · exact absurd hmk (hw hi hdoc m hm)
    · rw [hbot]
      exact OrderHomClass.mono _ bot_le
  · exact h.record.restored hdoc

omit D in
lemma Recorded.suits {act : Action B} (hdeletes : Deletes a k (.call i act))
    (horderly : s.Orderly L cfg ns a k (.call i act)) :
    Suits L cfg ns (marks content) a k (s.Draws L ns content act) p s i act := by
  have hsilent : act.Delivers → StartsSilent (marks content) (s.Draws L ns content act) k s i :=
    fun hact _ v hv => le_bot_iff.1
      (CrdtState.itemsOf_silent (fun c hc => (unused_of_drawn (hv c hc)).2 hact) ⊥)
  cases act with
  | insert k' fields =>
    exact fun hk => ⟨(horderly hk).1, h.removed_le_of_writable (horderly hk).2⟩
  | update k' fields => exact fun hk => h.removed_le_of_writable (horderly hk)
  | delete k' => exact fun hk => .inl (hdeletes hk)
  | upload => trivial
  | download => exact ⟨fun _ => horderly, fun _ _ _ => hsilent trivial⟩
  | pushed m =>
    exact fun hmk hfor => ⟨hsilent trivial, fun hseq =>
      h.record.delivered i m (horderly hmk hfor hseq) hfor hmk⟩

variable [DecidableEq B]

lemma Recorded.move (hmaps : L.Maps content) (hstep : MoveStep L cfg ns content a
      (fun s move => Deletes a k move ∧ s.Orderly L cfg ns a k move) s s') :
    ∃ p', Recorded L cfg ns (marks content) docs₀ a k False p' s' := by
  cases hstep with
  | @compact config now r w hmay hout =>
    have hkept := wp_iff_outcome.1 (accounts_runCompaction
      (P := fun k => k ∈ (s.nodes a).storage.listTombstonedDocuments ns config.tombstoneGraceSecs now)
      fun e w1 hlisted hkept k' hk' => ?_) r w hout
    · exact h.compacted D hmaps hkept.1 hmay.2
    · -- the entries that are left are among those the compaction began with
      have hnow : e.now = now := hlisted
      rw [hnow] at hk'
      obtain ⟨e', he', rfl⟩ := mem_map.1 (mem_dedup.1 hk')
      refine mem_dedup.2 (mem_map_of_mem (mem_filter.2 ⟨?_, ?_⟩))
      · exact hkept.inOrder.subset (mem_of_mem_filter he')
      · exact (mem_filter.1 he').2
  | @call i act r w hpossible hmay hout =>
    exact wp_iff_outcome.1 (h.call D (h.log.newDraws D) hpossible (h.suits hmay.1 hmay.2)) r w hout

lemma Recorded.moves (hmaps : L.Maps content)
    (hrun : Run L cfg ns content a (fun s move => Deletes a k move ∧ s.Orderly L cfg ns a k move)
      s s') : ∃ p', Recorded L cfg ns (marks content) docs₀ a k False p' s' := by
  induction hrun with
  | refl => exact ⟨p, h⟩
  | tail _ hstep ih =>
    obtain ⟨p', h'⟩ := ih
    exact h'.move D hmaps hstep

end Steps

/-! ## At the end of a run -/

def IsDeleted (L : Lib B) (s : Net ι B) (i : ι) (k : Key) : Prop :=
  (s.nodes i).storage.documents k = none ∨ L.Tombstone (s.state L i k)

variable {j : ι} {may : Net Bool Sym → Move Bool Sym → Prop}

section

variable (D : Deployment cfg ns) (hlog : LogSound L cfg ns p s)
  (h : Tracked L cfg ns (marks content) docs₀ a k p s) (hx : Exchanged cfg ns k s)

include D hlog h hx

lemma Tracked.view_ne_bot {e : OplogEntry B}
    (he : e ∈ p.entries j) (hek : e.key = k) (i : ι) : view L a k p s i ≠ ⊥ := by
  intro hbot
  obtain ⟨u, hu, -⟩ := h.own j e he hek
  obtain ⟨c, hc, -⟩ := h.authors u ⟨j, e, he, hek, hu⟩
  have hle := h.le_view D hlog hx i he hek hu
  rw [hbot] at hle
  exact Multiset.notMem_zero c (Multiset.mem_of_le hle.1 hc)

lemma Tracked.stored_of_stored (hj : j ≠ a)
    (hi : (s.nodes i).storage.documents k ≠ none) : (s.nodes j).storage.documents k ≠ none := by
  rcases h.known i hi with hdoc | ⟨j', e, he, hek⟩
  · exact h.stays j hj hdoc
  · intro hnone
    refine h.view_ne_bot D hlog hx he hek j ?_
    rw [view_of_ne hj, state_of_none hnone]

end

section

variable (hmaps : L.Maps content) (D : Deployment cfg ns) (hlog : LogSound L cfg ns p s)
  (h : Tracked L cfg ns (marks content) docs₀ a k p s)

include hmaps D hlog h

lemma Tracked.tombstone_iff (hx : Exchanged cfg ns k s) (hi : i ≠ a) :
    L.Tombstone (view L a k p s a) ↔ L.Tombstone (s.state L i k) := by
  rw [← view_of_ne (L := L) (a := a) (p := p) hi]
  exact hmaps.tombstone_congr
    (le_antisymm (h.map_view_le D hlog hx a i) (h.map_view_le D hlog hx i a))

lemma Tracked.isDeleted_iff
    (hx : Exchanged cfg ns k s) (i : ι) : s.IsDeleted L i k ↔ s.IsDeleted L a k := by
  by_cases hi : i = a
  · rw [hi]
  have hiff := h.tombstone_iff hmaps D hlog hx hi
  unfold IsDeleted
  by_cases hdoc : (s.nodes a).storage.documents k = none
  · refine iff_of_true ?_ (.inl hdoc)
    rcases h.gone hdoc with ⟨htomb, -⟩ | ⟨hbot, hdocs⟩
    · refine .inr (hiff.1 ?_)
      rwa [view_self, state_of_none hdoc, sup_bot_eq]
    · -- nothing was ever removed or written
      by_contra hne
      rcases h.known i fun hnone => hne (.inl hnone) with hstart | ⟨j, e, he, hek⟩
      · exact hstart hdocs
      · refine h.view_ne_bot D hlog hx he hek a ?_
        rw [view_self, hbot, bot_sup_eq, state_of_none hdoc]
  · have hi' := h.stored_of_stored D hlog hx hi hdoc
    rw [or_iff_right hi', or_iff_right hdoc, ← hiff]
    exact h.tombstone_view hmaps hdoc

end

variable [DecidableEq B]

/-- **Tombstone removal.** Whatever the replicas call, as long as `a` removes the record only
when everybody has everything of it and no call starts it afresh, once all is uploaded and
delivered `get` shows the record at all replicas or at none. -/
theorem get_eq_none_iff (hmaps : L.Maps content) (D : Deployment cfg ns) (hstart : Start ns docs₀ s)
    (hrun : Run L cfg ns content a (fun s move => Deletes a k move ∧ s.Orderly L cfg ns a k move)
      s s') (hq : Quiescent cfg ns s') {A : Call B → Env B → World B → Prop} {i j : ι}
    {x y : Option (String → Option CrdtValue)} {w w' : World B}
    (hi : Outcome (machine 0 A) (get L k) (s'.world i) (.ok x) w)
    (hj : Outcome (machine 0 A) (get L k) (s'.world j) (.ok y) w') :
    x = none ↔ y = none := by
  obtain ⟨p, hlog, htrack, -⟩ := (hstart.recorded (L := L) (k := k) (a := a)).moves D hmaps hrun
  have hdeleted := htrack.isDeleted_iff hmaps D hlog (hq.exchanged k)
  have hx := eq_none_iff_of_shown
    (wp_iff_outcome.1 wp_get_ok _ _ hi x rfl)
  have hy := eq_none_iff_of_shown
    (wp_iff_outcome.1 wp_get_ok _ _ hj y rfl)
  calc x = none ↔ s'.IsDeleted L i k := hx
    _ ↔ s'.IsDeleted L a k := hdeleted i
    _ ↔ s'.IsDeleted L j k := (hdeleted j).symm
    _ ↔ y = none := hy.symm

/-! ## Two replicas -/

def oneDeletes : Content := fun i =>
  if i.1 = 1 then ("_deleted", .boolean true) else if i.1 = 2 then ("title", .string "t")
  else ("doc_id", .string "d")

def drawing (c : ClientId) (id : String) (now : ℕ) : List (Env Sym) :=
  List.replicate 20 { (default : Env Sym) with clientId := c, uuid := id, now := now }

def turn (s : Net Bool Sym) (i : Bool) (act : Action Sym) (es : List (Env Sym)) : Net Bool Sym :=
  s.play (Sym.mapLib oneDeletes) pairConfig "ns" oneDeletes i act es

def compacted (s : Net Bool Sym) : Net Bool Sym :=
  s.playCompaction (Sym.mapLib oneDeletes) "ns" true ⟨0, 0, 100⟩ 10 (drawing 0 "" 10)

def deletedUploaded : Net Bool Sym :=
  turn (turn (pair five) true (.delete ⟨"d", "x"⟩) (drawing 1 "e1" 1)) true .upload []

def getsDelete : Net Bool Sym := turn deletedUploaded false .download (drawing 9 "" 0)

def updatedBeside : Net Bool Sym := turn deletedUploaded false setTitle (drawing 2 "e2" 1)

def updateUploaded : Net Bool Sym := turn (compacted updatedBeside) false .upload []

def updateReturned : Net Bool Sym := turn updateUploaded true .download (drawing 9 "" 0)

def undeleted : Net Bool Sym := turn updateReturned false .download (drawing 8 "" 0)

lemma unused_of_written {s : Net Bool Sym} {c : ClientId}
    (hdocs : ∀ i, ∃ docs, (s.nodes i).storage.documents = written docs)
    (hstate : ∀ i, c ∉ (s.state lib i ⟨"d", "x"⟩).stateVector)
    (hentries : ∀ i, ∀ e ∈ s.entries i, Lacks c e.yrsUpdate)
    (hlog : ∀ m ∈ s.service.log.mutations "ns",
      ∀ plain ∈ (decryptSymmetric lib m.encryptedBlob "ns").toOption, Lacks c plain) :
    s.Unused (mapLib oneDeletes) "ns" c := by
  refine ⟨newClient_of_written hdocs hstate hentries, fun m hm plain u hplain hu => ?_⟩
  have hplain : decryptSymmetric lib m.encryptedBlob "ns" = .ok plain := hplain
  exact (hlog m hm plain (by rw [hplain]; rfl)).notMem hu

lemma run_deletedUploaded (hdelete : may (pair five) (.call true (.delete ⟨"d", "x"⟩)))
    (hupload : may (turn (pair five) true (.delete ⟨"d", "x"⟩) (drawing 1 "e1" 1))
      (.call true .upload)) :
    Run (mapLib oneDeletes) pairConfig "ns" oneDeletes true may (pair five) deletedUploaded := by
  have hunused : (pair five).Unused (mapLib oneDeletes) "ns" 1 :=
    ⟨newClient_pair (by decide), fun m hm => absurd hm not_mem_nil⟩
  have hid : (pair five).NewId "e1" ∧ "e1" ∉ ((pair five).service.log.mutations "ns").map
      PendingMutation.id := ⟨newId_pair five "e1", not_mem_nil⟩
  refine .tail (.single (moveStep_play ?_ hdelete ?_)) (moveStep_play ?_ hupload ?_) <;>
    repeat (first | exact trivial | refine And.intro trivial ?_ |
      refine And.intro ⟨hunused, False.elim⟩ ?_ | refine And.intro hid ?_)

lemma unused_deletedUploaded {c : ClientId} (hc : c = 2 ∨ c = 9) :
    deletedUploaded.Unused (mapLib oneDeletes) "ns" c := by
  have hdocs : ∀ i, ∃ docs, (deletedUploaded.nodes i).storage.documents = written docs :=
    fun i => i.rec ⟨[five], rfl⟩ ⟨[five, _], rfl⟩
  rcases hc with rfl | rfl <;>
    exact unused_of_written hdocs (by decide) (by decide) (by decide)

lemma silent_of_ne {c : ClientId} (hone : c ≠ 1) : CrdtState.Silent oneDeletes "_deleted" c := by
  intro m
  unfold oneDeletes
  dsimp only
  rw [if_neg hone]
  split_ifs <;> decide

lemma step_getsDelete (hmay : may deletedUploaded (.call false .download)) :
    MoveStep (mapLib oneDeletes) pairConfig "ns" oneDeletes true may deletedUploaded
      getsDelete := by
  have hunused := unused_deletedUploaded (.inr rfl)
  have hsilent := silent_of_ne (c := 9) (by decide)
  refine moveStep_play trivial hmay ?_
  repeat (first | exact trivial | refine And.intro trivial ?_ |
    refine And.intro ⟨hunused, fun _ => hsilent⟩ ?_)

theorem get_eq_none_iff_getsDelete :
    ∃ w w' y, Outcome (machine 0 StorageUp) (get (Sym.mapLib oneDeletes) ⟨"d", "x"⟩)
        ((compacted getsDelete).world true) (.ok none) w ∧
      Outcome (machine 0 StorageUp) (get (Sym.mapLib oneDeletes) ⟨"d", "x"⟩)
        ((compacted getsDelete).world false) (.ok y) w' ∧ y = none := by
  have hrun : Run (Sym.mapLib oneDeletes) pairConfig "ns" oneDeletes true (fun s move =>
      Deletes true ⟨"d", "x"⟩ move ∧
        s.Orderly (Sym.mapLib oneDeletes) pairConfig "ns" true ⟨"d", "x"⟩ move)
      (pair five) (compacted getsDelete) := by
    refine .tail (.tail (run_deletedUploaded ⟨fun _ => rfl, trivial⟩ ⟨trivial, trivial⟩)
      (step_getsDelete ⟨trivial, nofun⟩)) (moveStep_playCompaction ⟨trivial, ?_⟩ ?_)
    · exact fun _ _ => ⟨⟨by decide, by decide⟩, by decide⟩
    · repeat (first | exact trivial | refine And.intro trivial ?_ | refine And.intro rfl ?_)
  have hq : Quiescent pairConfig "ns" (compacted getsDelete) := ⟨by decide, by decide⟩
  obtain ⟨w, hw⟩ := exists_get (L := Sym.mapLib oneDeletes) (n := 0)
    (k := ⟨"d", "x"⟩) ((compacted getsDelete).world true)
  obtain ⟨w', hw'⟩ := exists_get (L := Sym.mapLib oneDeletes) (n := 0)
    (k := ⟨"d", "x"⟩) ((compacted getsDelete).world false)
  exact ⟨w, w', _, hw, hw', (get_eq_none_iff (Sym.maps_mapLib oneDeletes) pair_deployment
    (pair_start five) hrun hq hw hw').1 rfl⟩

lemma allowed_updatedBeside : Allowed (machine 0 (deletedUploaded.Draws (mapLib oneDeletes)
    "ns" oneDeletes setTitle)) (setTitle.prog (mapLib oneDeletes) (pairConfig false))
    (drawing 2 "e2" 1) (deletedUploaded.world false) := by
  have hunused := unused_deletedUploaded (.inl rfl)
  have hid : deletedUploaded.NewId "e2" ∧ "e2" ∉ (deletedUploaded.service.log.mutations "ns").map
      PendingMutation.id := ⟨by unfold NewId; decide, by decide⟩
  repeat (first | exact trivial | refine And.intro trivial ?_ |
    refine And.intro ⟨hunused, False.elim⟩ ?_ | refine And.intro hid ?_)

lemma unused_updateUploaded : updateUploaded.Unused (mapLib oneDeletes) "ns" 9 :=
  unused_of_written (fun i => i.rec ⟨[five, _], rfl⟩ ⟨[five, _, none], rfl⟩) (by decide) (by decide)
    (by decide)

lemma unused_updateReturned : updateReturned.Unused (mapLib oneDeletes) "ns" 8 :=
  unused_of_written (fun i => i.rec ⟨[five, _], rfl⟩ ⟨[five, _, none, _], rfl⟩) (by decide)
    (by decide) (by decide)

lemma run_undeleted : Run (mapLib oneDeletes) pairConfig "ns" oneDeletes true
    (fun _ move => Deletes true ⟨"d", "x"⟩ move) (pair five) undeleted := by
  have hsilent : ∀ c : ClientId, c ≠ 1 → True → CrdtState.Silent oneDeletes "_deleted" c :=
    fun c hc _ => silent_of_ne hc
  have hreturn : Allowed (machine 0 (updateUploaded.Draws (mapLib oneDeletes) "ns" oneDeletes
      .download)) (download.prog (mapLib oneDeletes) (pairConfig true)) (drawing 9 "" 0)
      (updateUploaded.world true) := by
    repeat (first | exact trivial | refine And.intro trivial ?_ |
      refine And.intro ⟨unused_updateUploaded, hsilent 9 (by decide)⟩ ?_)
  have hdownload : Allowed (machine 0 (updateReturned.Draws (mapLib oneDeletes) "ns" oneDeletes
      .download)) (download.prog (mapLib oneDeletes) (pairConfig false)) (drawing 8 "" 0)
      (updateReturned.world false) := by
    repeat (first | exact trivial | refine And.intro trivial ?_ |
      refine And.intro ⟨unused_updateReturned, hsilent 8 (by decide)⟩ ?_)
  refine .tail (.tail (.tail (.tail (.tail (run_deletedUploaded (fun _ => rfl) trivial)
    (moveStep_play ?_ ?_ allowed_updatedBeside)) (moveStep_playCompaction ?_ ?_))
    (moveStep_play ?_ ?_ ?_)) (moveStep_play ?_ ?_ hreturn)) (moveStep_play ?_ ?_ hdownload) <;>
    repeat (first | exact trivial | refine And.intro trivial ?_ | refine And.intro rfl ?_)

/-- A tombstone that is removed while an update is on its way no longer deletes the record: `a`
shows it, `b` does not. -/
theorem removed_tombstone_undeletes :
    Start "ns" (Function.update (fun _ => none) ⟨"d", "x"⟩ five) (pair five) ∧
    Run (Sym.mapLib oneDeletes) pairConfig "ns" oneDeletes true
      (fun _ move => Deletes true ⟨"d", "x"⟩ move) (pair five) undeleted ∧
    Quiescent pairConfig "ns" undeleted ∧
    (∃ x w, Outcome (machine 0 StorageUp) (get (Sym.mapLib oneDeletes) ⟨"d", "x"⟩)
      (undeleted.world true) (.ok (some x)) w) ∧
    ∃ w, Outcome (machine 0 StorageUp) (get (Sym.mapLib oneDeletes) ⟨"d", "x"⟩)
      (undeleted.world false) (.ok none) w := by
  refine ⟨pair_start five, run_undeleted, ⟨by decide, by decide⟩, ?_, ?_⟩
  · obtain ⟨w, hw⟩ := exists_get (L := Sym.mapLib oneDeletes) (n := 0)
      (k := ⟨"d", "x"⟩) (undeleted.world true)
    exact ⟨_, w, hw⟩
  · exact exists_get (undeleted.world false)

end Net

end VaultSync
