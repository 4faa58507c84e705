import VaultSync.Replication.Consistency

/-! Convergence. Once everything is uploaded and delivered, the documents of all replicas are
the join of what was published. -/

namespace VaultSync

open Async AsyncFn World DownloadQueue List Sym Action

variable {B ι : Type} {L : Lib B} {cfg : ι → Config} {ns : String} {docs₀ : Key → Option B}
  {s s' : Net ι B} {i : ι}

/-- A record is inserted where none is stored and delivered where one is, and no pushed mutation
is behind the cursor that was not merged. -/
def Action.Prepared (L : Lib B) (cfg : Config) (a : Action B) (w : World B) : Prop :=
  match a with
  | .insert k _ => w.storage.documents k = none
  | .update _ _ | .delete _ | .upload => True
  | .download => ∀ m ∈ foreign cfg (pageAt cfg w), w.storage.documents m.key ≠ none
  | .pushed m => m.replicaId ≠ cfg.replicaId →
      w.storage.documents m.key ≠ none ∧ (m.sequence ≤ w.lastSequence → Merged L cfg w m)

namespace Net

/-- Every replica stores the same documents and has written and seen nothing yet; nothing of the
namespace is at the coordinator. -/
structure Start (ns : String) (docs₀ : Key → Option B) (s : Net ι B) : Prop where
  mutations : s.service.log.mutations ns = []
  snapshots : s.service.log.snapshots = []
  documents : ∀ i, (s.nodes i).storage.documents = docs₀
  oplog : ∀ i, (s.nodes i).storage.oplog = []
  dedup : ∀ i, (s.nodes i).client.dedup.seen = ∅
  delivered : ∀ i, s.delivered i = []

structure Quiescent (cfg : ι → Config) (ns : String) (s : Net ι B) : Prop where
  uploaded : ∀ i, ∀ e ∈ (s.nodes i).storage.oplog,
    e.id ∈ (s.service.log.mutations ns).map PendingMutation.id
  delivered : ∀ i, ∀ m ∈ s.service.log.mutations ns, m.replicaId ≠ (cfg i).replicaId →
    m ∈ s.delivered i

lemma Start.entries (h : Start ns docs₀ s) (i : ι) : s.entries i = [] := by
  rw [Net.entries, h.oplog, map_nil]

lemma Start.state (h : Start ns docs₀ s) (i : ι) (k : Key) :
    s.state L i k = storedState L (docs₀ k) := by
  unfold Net.state docState world
  rw [h.documents]

section

variable {α : Type} [SemilatticeSup α] [OrderBot α] {f : SupBotHom CrdtState α} {a : ι} {k : Key}
  {all : Prop} {p : Past ι B} {w : World B} {A : Call B → Env B → World B → Prop}
  {m : PendingMutation B} {es : List (OplogEntry B)}

lemma Start.logSound (h : Start ns docs₀ s) : LogSound L cfg ns ⟨fun _ => [], ⊥⟩ s := by
  refine ⟨?_, h.snapshots, fun j e he => absurd he not_mem_nil, fun j e he => ?_,
    fun j e he => absurd he not_mem_nil, fun j e he => ?_,
    fun i j e he => absurd he not_mem_nil, fun m hm => ?_⟩
  · rw [h.mutations]
    exact nodup_nil
  · rw [h.entries] at he
    exact absurd he not_mem_nil
  · have hnil : (s.world j).storage.oplog = [] := h.oplog j
    rw [hnil] at he
    exact absurd he not_mem_nil
  · rw [h.mutations] at hm
    exact absurd hm not_mem_nil

variable [DecidableEq ι]

lemma Start.tracked (h : Start ns docs₀ s) : Tracked L cfg ns f docs₀ a k ⟨fun _ => [], ⊥⟩ s := by
  have hview : ∀ i, view L a k ⟨fun _ => [], ⊥⟩ s i = storedState L (docs₀ k) := by
    intro i
    rw [view, h.state, ite_self, bot_sup_eq]
  have hbot : ∀ d, f ⊥ ≤ f d := fun _ => OrderHomClass.mono f bot_le
  refine ⟨fun j e he => absurd he not_mem_nil, fun i id hid => ?_, fun i m hm => ?_,
    fun i => (hview i).ge, fun i b hstart _ => ?_, fun u hu => ?_, fun hne => absurd rfl hne,
    fun j _ => hbot _, fun _ => hbot _, fun hdoc => .inr ⟨rfl, ?_⟩, fun i hdoc => .inl ?_,
    fun j _ hdoc => ?_⟩
  · rw [h.dedup] at hid
    exact absurd hid (Finset.notMem_empty id)
  · rw [h.delivered] at hm
    exact absurd hm not_mem_nil
  · rwa [hview]
  · obtain ⟨j, e, he, -⟩ := hu
    exact absurd he not_mem_nil
  · rwa [h.documents] at hdoc
  · rwa [h.documents] at hdoc
  · rwa [h.documents]

/-! ## Calls -/

omit [DecidableEq ι] in
/-- What is drawn is new to record `k` and to the ids. -/
structure NewDraws (L : Lib B) (k : Key) (A : Call B → Env B → World B → Prop) (p : Past ι B)
    (s : Net ι B) : Prop where
  docs : ∀ c, Drawn A c → ∀ j, c ∉ (s.state L j k).stateVector
  updates : ∀ c, Drawn A c → ∀ u ∈ p.updates L k, c ∉ u.stateVector
  ids : ∀ id, VaultSyncClient.DrawnId A id → ∀ j, ∀ e ∈ p.entries j, e.id ≠ id

/-- What is known of record `k`. If `all`, nothing was removed from documents or oplogs. -/
structure Recorded (L : Lib B) (cfg : ι → Config) (ns : String) (f : SupBotHom CrdtState α)
    (docs₀ : Key → Option B) (a : ι) (k : Key) (all : Prop) (p : Past ι B) (s : Net ι B) :
    Prop where
  log : LogSound L cfg ns p s
  record : Tracked L cfg ns f docs₀ a k p s
  kept : all → p.removed = ⊥ ∧ ∀ j, p.entries j ⊆ s.entries j

lemma Start.recorded (h : Start ns docs₀ s) :
    Recorded L cfg ns f docs₀ a k all ⟨fun _ => [], ⊥⟩ s :=
  ⟨h.logSound, h.tracked, fun _ => ⟨rfl, fun _ => nil_subset _⟩⟩

omit [DecidableEq ι] in
/-- A document that a delivery starts at `i` shows nothing of what is followed. -/
def StartsSilent (f : SupBotHom CrdtState α) (A : Call B → Env B → World B → Prop) (k : Key)
    (s : Net ι B) (i : ι) : Prop :=
  (s.nodes i).storage.documents k = none → ∀ v : StateVector, (∀ c ∈ v, Drawn A c) → f ⟨v, ∅⟩ = ⊥

/-- When a call keeps what is known of record `k`. -/
def Suits (L : Lib B) (cfg : ι → Config) (ns : String) (f : SupBotHom CrdtState α) (a : ι) (k : Key)
    (A : Call B → Env B → World B → Prop) (p : Past ι B) (s : Net ι B) (i : ι) : Action B → Prop
  | .insert k' _ => k' = k → (s.nodes i).storage.documents k = none ∧
      (i = a → f p.removed ≤ f (s.state L a k))
  | .update k' _ => k' = k → i = a → f p.removed ≤ f (s.state L a k)
  | .delete k' => k' = k → i = a ∨ p.removed = ⊥
  | .upload => True
  | .download => (p.removed ≠ ⊥ → i = a → (s.nodes i).lastSequence + 1 < 2 ^ 64) ∧
      ∀ m ∈ foreign (cfg i) (pageAt (cfg i) (s.world i)), m.key = k → StartsSilent f A k s i
  | .pushed m => m.key = k → m.replicaId ≠ (cfg i).replicaId → StartsSilent f A k s i ∧
      (m.sequence ≤ (s.nodes i).lastSequence → HasMutation L ns (view L a k p s i) m)

section

variable (h : Recorded L cfg ns f docs₀ a k all p s)

include h

lemma Recorded.of_entries {ms : List (PendingMutation B)}
    (hentries : w.storage.oplog.map OplogEntry.written = s.entries i)
    (hlog : LogSound L cfg ns p (s.after i w ms))
    (htrack : Tracked L cfg ns f docs₀ a k p (s.after i w ms)) :
    Recorded L cfg ns f docs₀ a k all p (s.after i w ms) := by
  refine ⟨hlog, htrack, fun hall => ⟨(h.kept hall).1, fun j => ?_⟩⟩
  rw [entries_after hentries]
  exact (h.kept hall).2 j

lemma Recorded.unchanged (hsame : VaultSyncClient.Untouched (s.world i) w) :
    Recorded L cfg ns f docs₀ a k all p (s.after i w []) := by
  have hdoc : w.storage.documents k = (s.nodes i).storage.documents k := by rw [hsame.storage]; rfl
  refine h.of_entries (by rw [hsame.storage]; rfl)
    (h.log.same hsame.service (congrArg _ hsame.storage)) (h.record.aside (state_congr hdoc)
    (by rw [hdoc]) ?_ hsame.dedup hsame.lastSequence rfl fun _ _ _ => Iff.rfl)
  rw [hsame.service]
  exact fun _ hm => hm

variable (D : Deployment cfg ns)

include D

lemma Recorded.upload (hu : UploadQueue.Uploaded L (cfg i) (s.world i) w)
    (hsynced : UploadQueue.SyncedLogged ns w) :
    Recorded L cfg ns f docs₀ a k all p (s.after i w []) := by
  have hdoc : w.storage.documents k = (s.nodes i).storage.documents k := by rw [hu.documents]; rfl
  exact h.of_entries hu.oplog (h.log.uploaded D hu hsynced) (h.record.aside (state_congr hdoc)
    (by rw [hdoc]) (fun m hm => hu.log.mutations hm) hu.dedup hu.lastSequence rfl
    fun _ _ _ => Iff.rfl)

variable (hA : NewDraws L k A p s)

include hA

lemma Recorded.wrote {k' : Key} {base u : CrdtState} {c : ClientId} {entry : OplogEntry B}
    (hstep : VaultSyncClient.LocalStep L (cfg i) A k' base (s.world i) w)
    (hentry : VaultSyncClient.NewEntry L (cfg i) A k' base entry u c)
    (hbase : k' = k → base = s.state L i k) (hothers : k' = k → i ≠ a → f p.removed ≤ f u)
    (hself : k' = k → i = a → f p.removed ≤ f (s.state L a k))
    (hstorage : w.storage = (s.nodes i).storage.writeDocumentAndOplog k' (L.encodeV1 (base ⊔ u)) entry) :
    Recorded L cfg ns f docs₀ a k all (p.write i entry) (s.after i w []) := by
  have hoplog : w.storage.oplog = (s.nodes i).storage.oplog ++ [entry] := by rw [hstorage]; rfl
  refine ⟨h.log.wrote D hentry (hA.ids _ hentry.id) hstep.service hoplog, ?_,
    fun hall => ⟨(h.kept hall).1, fun j e he => ?_⟩⟩
  · by_cases hk : k' = k
    · subst hk
      rw [hbase rfl] at hentry hstorage
      exact h.record.wrote hentry (hA.docs c hentry.client) (hA.updates c hentry.client)
        (hothers rfl) (hself rfl) hstep.service hstep.dedup hstep.lastSequence hstorage
    · have hdoc : w.storage.documents k = (s.nodes i).storage.documents k := by
        rw [hstorage]
        exact Function.update_of_ne (Ne.symm hk) _ _
      refine h.record.aside (state_congr hdoc) (by rw [hdoc]) ?_ hstep.dedup hstep.lastSequence rfl
        fun j e hek => ?_
      · rw [hstep.service]
        exact fun _ hm => hm
      · rw [Past.mem_write]
        refine ⟨fun he => he.resolve_right ?_, .inl⟩
        rintro ⟨-, rfl⟩
        exact hk (hentry.key.symm.trans hek)
  · by_cases hj : j = i
    · subst hj
      rw [entries_after_self, hoplog, map_append]
      rcases Past.mem_write.1 he with hold | ⟨-, rfl⟩
      · exact mem_append_left _ ((h.kept hall).2 j hold)
      · exact mem_append_right _ mem_cons_self
    · rw [entries_after_of_ne hj]
      exact (h.kept hall).2 j ((Past.mem_write.1 he).resolve_right fun heq => hj heq.1)

lemma Recorded.localStep {k' : Key} {base : CrdtState}
    (hstep : VaultSyncClient.LocalStep L (cfg i) A k' base (s.world i) w)
    (hbase : k' = k → base = s.state L i k)
    (habove : k' = k → i ≠ a → p.removed = ⊥ ∨ base = ⊥ ∨
      VaultSyncClient.PublishesAbove L base (s.world i) w)
    (hself : k' = k → i = a → f p.removed ≤ f (s.state L a k)) :
    ∃ p', Recorded L cfg ns f docs₀ a k all p' (s.after i w []) := by
  rcases hstep.storage with hsame | ⟨entry, u, c, hentry, hstorage⟩
  · exact ⟨p, h.unchanged ⟨hstep.service, hstep.lastSequence, hstep.dedup, hsame⟩⟩
  refine ⟨_, h.wrote D hA hstep hentry hbase (fun hk hi => ?_) hself hstorage⟩
  have hbelow : base ≤ u → f p.removed ≤ f u := by
    intro hle
    refine (h.record.others i hi).trans (OrderHomClass.mono f ?_)
    rwa [← hbase hk]
  rcases habove hk hi with hbot | rfl | hpub
  · rw [hbot, map_bot]
    exact bot_le
  · exact hbelow bot_le
  · have hmem : entry ∈ w.storage.oplog := by
      rw [hstorage]
      exact mem_append_right _ mem_cons_self
    rcases hpub entry hmem with hold | ⟨u', hu', hle⟩
    · -- the entry's id is new
      have hpast : entry.written ∈ p.entries i := h.log.recorded i _ (mem_map_of_mem hold)
      have hne := hA.ids _ hentry.id i _ hpast
      exact absurd rfl hne
    · cases hentry.update.symm.trans hu'
      exact hbelow hle

lemma Recorded.merged {ms : List (PendingMutation B)}
    (hm : MergedAt L (Drawn A) es k (s.world i) w)
    (hes : ∀ e ∈ es, ∃ m ∈ s.service.log.mutations ns, EntryOf L (cfg i) m e ∧
      m.replicaId ≠ (cfg i).replicaId ∧
      (p.removed ≠ ⊥ → i = a → (s.nodes i).lastSequence < m.sequence))
    (hsilent : ∀ e ∈ es, e.key = k → StartsSilent f A k s i)
    (hlast : p.removed ≠ ⊥ → i = a → (s.nodes i).lastSequence ≤ w.lastSequence)
    (hms : ∀ m ∈ ms, m.replicaId ≠ (cfg i).replicaId → m.key = k →
      HasMutation L ns (view L a k p s i) m ∨ m ∈ s.service.log.mutations ns ∧
        (m.id ∈ (s.nodes i).client.dedup.seen ∨ Merged L (cfg i) w m)) :
    Recorded L cfg ns f docs₀ a k all p (s.after i w ms) := by
  refine h.of_entries (by rw [hm.oplog]; rfl) (h.log.same hm.service hm.oplog)
    (h.record.merged D h.log hm hes hA.updates (fun v hv => ?_) hlast fun m hmem hfor hmk => ?_)
  · rcases v.empty_or_exists_mem with rfl | ⟨c, hc⟩
    · exact map_bot f
    · obtain ⟨-, hnone, e, he, hek⟩ := hv c hc
      exact hsilent e he hek hnone v fun c hc => (hv c hc).1
  · rcases hms m hmem hfor hmk with hold | ⟨hlogged, hseen | hmerged⟩
    · exact hold.mono le_sup_left
    · obtain ⟨m', hm', hid, hhas⟩ := h.record.seen i m.id hseen
      cases inj_on_of_nodup_map h.log.logIds hm' hlogged hid
      exact (hhas hmk).mono le_sup_left
    · obtain ⟨plain, u, hplain, hu, hle⟩ := hmerged
      rw [D.namespace_eq] at hplain
      rw [hmk] at hle
      exact ⟨plain, u, hplain, hu, hle.trans le_sup_right⟩

lemma Recorded.covered (hm : m ∈ s.service.log.mutations ns) (hmk : m.key = k) {e : OplogEntry B}
    {base u : CrdtState} (he : EntryOf L (cfg i) m e)
    (hbase : BaseState L (Drawn A) k ((s.world i).storage.documents k) base)
    (hu : L.decodeV1 e.yrsUpdate = .ok u) (hcov : u.stateVector ≤ base.stateVector) : u ≤ base := by
  obtain ⟨j, e0, he0, -, hkey, hsame, -⟩ := h.log.published D hm he
  have hmem : u ∈ p.updates L k := ⟨j, e0, he0, hkey.trans (he.key.trans hmk), hsame ▸ hu⟩
  obtain ⟨c, hc, hheld, -⟩ := h.record.authors u hmem
  have hcb : c ∈ base.stateVector := Multiset.mem_of_le hcov hc
  cases hdoc : (s.world i).storage.documents k with
  | some bytes =>
    rw [hdoc] at hbase
    have hstate : s.state L i k = base := docState_of_some hdoc hbase
    rw [← hstate] at hcb ⊢
    exact hheld i hcb
  | none =>
    rw [hdoc] at hbase
    obtain ⟨client, hdrawn, rfl⟩ := hbase
    have hclient : c = client := CRDTDocument.eq_of_mem_new hcb
    exact absurd hc (hA.updates c (hclient ▸ hdrawn) u hmem)

variable [DecidableEq B]

lemma Recorded.download (hsuits : Suits L cfg ns f a k A p s i .download) :
    wp (machine 0 A) (fun r w => Recorded L cfg ns f docs₀ a k all p
      (s.after i w (handed (cfg i) (s.world i) .download r))) (processBatch L (cfg i))
      (s.world i) := by
  obtain ⟨hcursor, hsilent⟩ := hsuits
  have hlogged : ∀ m ∈ pageAt (cfg i) (s.world i), m ∈ s.service.log.mutations ns := by
    intro m hm
    rw [← D.namespace_eq i]
    exact InMemoryCoordinator.mem_of_mem_pull hm
  have hafter : p.removed ≠ ⊥ → i = a → ∀ m ∈ pageAt (cfg i) (s.world i),
      (s.nodes i).lastSequence < m.sequence := by
    intro hbot hi m hm
    have hlt : (s.world i).lastSequence + 1 < 2 ^ 64 := hcursor hbot hi
    rw [pageAt, InMemoryCoordinator.pull_eq_page _ hlt] at hm
    exact of_decide_eq_true (mem_filter.1 (mem_of_mem_take hm)).2
  -- whatever part of the page was merged
  have hpage : ∀ es w ms, pulledEntries L (cfg i) (pageAt (cfg i) (s.world i)) = .ok es →
      MergedPage L (Drawn A) es (s.world i) w →
      (p.removed ≠ ⊥ → i = a → (s.nodes i).lastSequence ≤ w.lastSequence) →
      (∀ m ∈ ms, m.replicaId ≠ (cfg i).replicaId → m.key = k →
        HasMutation L ns (view L a k p s i) m ∨ m ∈ s.service.log.mutations ns ∧
          (m.id ∈ (s.nodes i).client.dedup.seen ∨ Merged L (cfg i) w m)) →
      Recorded L cfg ns f docs₀ a k all p (s.after i w ms) := by
    intro es w ms hes hm hlast hms
    refine h.merged D hA (hm.at k) (fun e he => ?_) (fun e he hek => ?_) hlast hms
    · obtain ⟨m, hmem, hof⟩ := entryOf_of_mem_entries hes he
      obtain ⟨hin, hfor⟩ := mem_filter.1 hmem
      exact ⟨m, hlogged m hin, hof, by simpa using hfor, fun hbot hi => hafter hbot hi m hin⟩
    · obtain ⟨m, hmem, hof⟩ := entryOf_of_mem_entries hes he
      exact hsilent m hmem (hof.key.symm.trans hek)
  have hidle : Recorded L cfg ns f docs₀ a k all p (s.after i (s.world i) []) :=
    h.unchanged ⟨rfl, rfl, rfl, rfl⟩
  have hnosnap : NoSnapshots (cfg i) (s.world i) := by
    refine .inr fun snap hsnap => ?_
    have hnil : (s.world i).service.log.snapshots = [] := h.log.noSnapshots
    rw [InMemoryCoordinator.listSnapshots, hnil] at hsnap
    exact absurd hsnap not_mem_nil
  refine wp_processBatch_merged hnosnap (fun err => hidle) (fun _ _ _ _ _ _ => hidle)
    (fun es err w hes hm hlast => hpage es w [] hes hm (fun _ _ => hlast.ge) (by simp))
    fun es w hes hm hall hlast => ?_
  rw [handed, take_length]
  refine hpage es w _ hes hm (fun hbot hi => ?_) fun m hmem hfor _ => .inr ⟨hlogged m hmem, ?_⟩
  · have hlt : (s.world i).lastSequence + 1 < 2 ^ 64 := hcursor hbot hi
    rw [hlast, pageAt, InMemoryCoordinator.pull_eq_page _ hlt]
    exact PagedLog.cursor_le_page _ _
  · obtain ⟨e, he, hof⟩ := entryOf_of_mem_foreign hes (mem_filter.2 ⟨hmem, by simpa using hfor⟩)
    rw [← hof.id]
    exact (hall e he).imp_right hof.merged_iff.2

lemma Recorded.pushed (hmem : m ∈ s.service.log.mutations ns)
    (hsuits : Suits L cfg ns f a k A p s i (.pushed m)) :
    wp (machine 0 A) (fun r w => Recorded L cfg ns f docs₀ a k all p
      (s.after i w (handed (cfg i) (s.world i) (.pushed m) r)))
      (prog L (cfg i) (.pushed m)) (s.world i) := by
  rw [prog, wp_bind]
  refine (wp_processPushMutation fun hmk e he base hbase u hu hcov =>
    h.covered D hA hmem hmk he hbase hu hcov).mono fun r w ⟨⟨es, hes, hm⟩, hlast, hok⟩ => ?_
  have hafter : ∀ ms, (∀ m' ∈ ms, m'.replicaId ≠ (cfg i).replicaId → m'.key = k →
      HasMutation L ns (view L a k p s i) m' ∨ m' ∈ s.service.log.mutations ns ∧
        (m'.id ∈ (s.nodes i).client.dedup.seen ∨ Merged L (cfg i) w m')) →
      Recorded L cfg ns f docs₀ a k all p (s.after i w ms) := by
    refine fun ms => h.merged D hA hm (fun e he => ?_) (fun e he hek => ?_) fun _ _ => hlast
    · obtain ⟨hof, hfor, hseq⟩ := hes e he
      exact ⟨m, hmem, hof, hfor, fun _ _ => hseq⟩
    · obtain ⟨hof, hfor, -⟩ := hes e he
      exact (hsuits (hof.key.symm.trans hek) hfor).1
  cases r with
  | error err => exact hafter [] (by simp)
  | ok o =>
    refine hafter [m] fun m' hm' hfor hmk => ?_
    rw [mem_singleton.1 hm'] at hfor hmk ⊢
    rcases hok o rfl with hown | hstale | hdone
    · exact absurd hown hfor
    · exact .inl ((hsuits hmk hfor).2 hstale)
    · exact .inr ⟨hmem, hdone hmk⟩

lemma Recorded.call {act : Action B} (hpossible : act.Possible (cfg i) (s.world i))
    (hsuits : Suits L cfg ns f a k A p s i act) :
    wp (machine 0 A) (fun r w => ∃ p', Recorded L cfg ns f docs₀ a k all p'
      (s.after i w (act.handed (cfg i) (s.world i) r))) (act.prog L (cfg i)) (s.world i) := by
  cases act with
  | insert k' fields =>
    rw [prog, wp_bind]
    refine (VaultSyncClient.wp_insert fields).mono fun r w hlocal => ?_
    have hafter := h.localStep D hA hlocal (fun hk => (state_of_none (hsuits hk).1).symm)
      (fun _ _ => .inr (.inl rfl)) fun hk => (hsuits hk).2
    cases r <;> exact hafter
  | update k' fields =>
    rw [prog, wp_bind]
    refine ((VaultSyncClient.wp_update fields).and
      (VaultSyncClient.wp_update_publishes fields)).mono fun r w ⟨hlocal, hpub⟩ => ?_
    have hafter := h.localStep D hA hlocal (fun hk => hk ▸ rfl) (fun _ _ => .inr (.inr hpub)) hsuits
    cases r <;> exact hafter
  | delete k' =>
    rw [prog, wp_bind]
    by_cases hdoc : (s.world i).storage.documents k' = none
    · refine (VaultSyncClient.wp_delete_absent hdoc).mono fun r w hsame => ?_
      cases r <;> exact ⟨p, h.unchanged hsame⟩
    · refine VaultSyncClient.wp_delete.mono fun r w hlocal => ?_
      have hafter : ∃ p', Recorded L cfg ns f docs₀ a k all p' (s.after i w []) := by
        refine h.localStep D hA hlocal (fun hk => hk ▸ rfl)
          (fun hk hi => .inl ((hsuits hk).resolve_left hi)) ?_
        rintro rfl rfl
        exact h.record.restored hdoc
      cases r <;> exact hafter
  | upload =>
    have hsynced : UploadQueue.SyncedLogged (cfg i).namespace (s.world i) := by
      rw [D.namespace_eq]
      exact h.log.synced i
    refine ((UploadQueue.wp_processBatch _).and (UploadQueue.wp_processBatch_synced hsynced)).mono
      fun r w ⟨hu, hs⟩ => ?_
    rw [D.namespace_eq] at hs
    exact ⟨p, h.upload D hu hs⟩
  | download => exact (h.download D hA hsuits).mono fun _ _ h => ⟨p, h⟩
  | pushed m =>
    have hmem : m ∈ s.service.log.mutations ns := by
      rw [← D.namespace_eq i]
      exact hpossible
    exact (h.pushed D hA hmem hsuits).mono fun _ _ h => ⟨p, h⟩

end

/-! ## At the end of a run -/

omit [DecidableEq ι] in
lemma Quiescent.exchanged (h : Quiescent cfg ns s) (k : Key) : Exchanged cfg ns k s where
  uploaded j e he _ := by
    obtain ⟨e0, he0, rfl⟩ := mem_map.1 he
    exact h.uploaded j e0 he0
  delivered i m hm _ := h.delivered i m hm

end

variable [DecidableEq ι] [DecidableEq B]

lemma Recorded.step {a : ι} {k : Key} {p : Past ι B} (D : Deployment cfg ns)
    (h : Recorded L cfg ns (SupBotHom.id CrdtState) docs₀ a k True p s)
    (hstep : Step L cfg (fun i => Action.Prepared L (cfg i)) s s') :
    ∃ p', Recorded L cfg ns (SupBotHom.id CrdtState) docs₀ a k True p' s' := by
  obtain ⟨hbot, hsub⟩ := h.kept trivial
  obtain ⟨hpossible, hprep, hout⟩ := hstep
  rename_i i act r w
  have hA : NewDraws L k (s.Fresh L) p s := by
    refine ⟨?_, ?_, ?_⟩
    · rintro c ⟨env, w, henv, rfl⟩ j
      exact henv.1 j k
    · rintro c ⟨env, w, henv, rfl⟩ u ⟨j, e, he, -, hu⟩
      exact henv.2 j e (hsub j he) u hu
    · rintro id ⟨env, w, henv, rfl⟩ j e he
      exact henv j e (hsub j he)
  have hle : p.removed ≤ s.state L a k := hbot.trans_le bot_le
  refine wp_iff_outcome.1 (h.call D hA hpossible ?_) r w hout
  cases act with
  | insert k' fields =>
    rintro rfl
    exact ⟨hprep, fun _ => hle⟩
  | update k' fields => exact fun _ _ => hle
  | delete k' => exact fun _ => .inr hbot
  | upload => trivial
  | download =>
    refine ⟨fun hne => absurd hbot hne, ?_⟩
    rintro m hm rfl hnone
    exact absurd hnone (hprep m hm)
  | pushed m =>
    rintro rfl hfor
    obtain ⟨hstored, hstale⟩ := hprep hfor
    refine ⟨fun hnone => absurd hnone hstored, fun hseq => ?_⟩
    obtain ⟨plain, u, hplain, hu, hle⟩ := hstale hseq
    rw [D.namespace_eq] at hplain
    exact ⟨plain, u, hplain, hu, hle.trans le_sup_right⟩

lemma Recorded.run {a : ι} {k : Key} {p : Past ι B} (D : Deployment cfg ns)
    (h : Recorded L cfg ns (SupBotHom.id CrdtState) docs₀ a k True p s)
    (hrun : Reachable L cfg (fun i => Action.Prepared L (cfg i)) s s') :
    ∃ p', Recorded L cfg ns (SupBotHom.id CrdtState) docs₀ a k True p' s' := by
  induction hrun with
  | refl => exact ⟨p, h⟩
  | tail _ hstep ih =>
    obtain ⟨p', h'⟩ := ih
    exact h'.step D hstep

/-- **Convergence.** Whatever the replicas wrote, once every entry is uploaded and delivered to
every other replica they all store the same state. -/
theorem converged (D : Deployment cfg ns) (hstart : Start ns docs₀ s)
    (hrun : Reachable L cfg (fun i => Action.Prepared L (cfg i)) s s')
    (hq : Quiescent cfg ns s') (i j : ι) (k : Key) : s'.state L i k = s'.state L j k := by
  obtain ⟨p, h⟩ := (hstart.recorded (a := i) (k := k)).run D hrun
  have hview : ∀ j, view L i k p s' j = s'.state L j k := by
    intro j
    rw [view, (h.kept trivial).1, ite_self, bot_sup_eq]
  have hle := h.record.map_view_le D h.log (hq.exchanged k)
  simp only [hview] at hle
  exact le_antisymm (hle i j) (hle j i)

/-! ## At every moment -/

/-- What replica `i` can rely on of record `k`: it has the document of the start, its own writes
and what was delivered, and nothing that nobody wrote; nor has the log. -/
structure Faithful (L : Lib B) (cfg : ι → Config) (ns : String) (docs₀ : Key → Option B)
    (s : Net ι B) (i : ι) (k : Key) : Prop where
  start : storedState L (docs₀ k) ≤ s.state L i k
  own : ∀ e ∈ s.entries i, e.key = k → ∃ u, L.decodeV1 e.yrsUpdate = .ok u ∧ u ≤ s.state L i k
  delivered : ∀ m ∈ s.delivered i, m.replicaId ≠ (cfg i).replicaId → m.key = k →
    HasMutation L ns (s.state L i k) m
  least : ∀ b, storedState L (docs₀ k) ≤ b → (∀ j, ∀ e ∈ s.entries j, e.key = k →
    ∀ u, L.decodeV1 e.yrsUpdate = .ok u → u ≤ b) → s.state L i k ≤ b
  logged : ∀ m ∈ s.service.log.mutations ns, ∃ j, ∃ e ∈ s.entries j,
    EntryOf L (cfg j) m e ∧ m.replicaId = (cfg j).replicaId

/-- Whatever was called and whatever failed, every replica is faithful. -/
theorem faithful_of_reachable (D : Deployment cfg ns) (hstart : Start ns docs₀ s)
    (hrun : Reachable L cfg (fun i => Action.Prepared L (cfg i)) s s') (i : ι) (k : Key) :
    Faithful L cfg ns docs₀ s' i k := by
  obtain ⟨p, h⟩ := (hstart.recorded (a := i) (k := k)).run D hrun
  obtain ⟨hbot, hsub⟩ := h.kept trivial
  have hview : view L i k p s' i = s'.state L i k := by rw [view_self, hbot, bot_sup_eq]
  constructor
  · exact hview ▸ h.record.start i
  · intro e he hek
    exact hview ▸ h.record.own i e (h.log.recorded i e he) hek
  · intro m hm hfor hmk
    exact hview ▸ h.record.delivered i m hm hfor hmk
  · intro b hb hall
    rw [← hview]
    apply h.record.least i b hb
    rintro u ⟨j, e, he, hek, hu⟩
    exact hall j e (hsub j he) hek u hu
  · intro m hm
    obtain ⟨j, e, he, hof⟩ := h.log.logged m hm
    exact ⟨j, e, hsub j he, hof⟩

/-! ## Two replicas -/

def pairConfig : Bool → Config
  | true => config 0
  | false => { config 0 with replicaId := "b" }

variable (doc : Option Sym)

def pair : Net Bool Sym where
  service := (World.new .new).service
  nodes _ := ⟨.new, 0, { InMemoryStorage.new with
    documents := Function.update (fun _ => none) ⟨"d", "x"⟩ doc }, 0⟩
  delivered _ := []

variable (a : Action Sym)

def wrote : Net Bool Sym :=
  (pair doc).exec lib pairConfig true a []

def uploaded : Net Bool Sym :=
  (wrote doc a).exec lib pairConfig true .upload []

def shared : Net Bool Sym :=
  (uploaded doc a).exec lib pairConfig false .download
    (List.replicate 20 { (default : Env Sym) with clientId := 9 })

def five : Option Sym := some (.update ⟨{5}, ∅⟩)

def setTitle : Action Sym := .update ⟨"d", "x"⟩ [("title", .string "t")]

def create : Action Sym := .insert ⟨"d", "x"⟩ [("title", .string "t")]

lemma pair_deployment : Deployment pairConfig "ns" where
  namespace_eq := by decide
  replica_injective := by decide
  keyVersion_lt := by decide

lemma pair_start : Start "ns" (Function.update (fun _ => none) ⟨"d", "x"⟩ doc) (pair doc) :=
  ⟨rfl, rfl, fun _ => rfl, fun _ => rfl, fun _ => rfl, fun _ => rfl⟩

def written (docs : List (Option Sym)) : Key → Option Sym :=
  docs.foldl (fun d v => Function.update d ⟨"d", "x"⟩ v) fun _ => none

lemma written_of_ne (docs : List (Option Sym)) (hk : k ≠ ⟨"d", "x"⟩) : written docs k = none := by
  induction docs using List.reverseRecOn with
  | nil => rfl
  | append_singleton docs v ih =>
    rw [written, foldl_append, foldl_cons, foldl_nil, Function.update_of_ne hk]
    exact ih

def Lacks (c : ClientId) (update : Sym) : Prop :=
  ∀ u ∈ (lib.decodeV1 update).toOption, c ∉ u.stateVector

instance (c : ClientId) (update : Sym) : Decidable (Lacks c update) :=
  inferInstanceAs (Decidable (∀ u ∈ (lib.decodeV1 update).toOption, _))

lemma Lacks.notMem {update : Sym} (h : Lacks c update) {u : CrdtState}
    (hu : lib.decodeV1 update = .ok u) : c ∉ u.stateVector :=
  h u (by rw [hu]; rfl)

lemma newClient_of_written {s : Net Bool Sym}
    (hdocs : ∀ i, ∃ docs, (s.nodes i).storage.documents = written docs)
    (hstate : ∀ i, c ∉ (s.state lib i ⟨"d", "x"⟩).stateVector)
    (hentries : ∀ i, ∀ e ∈ s.entries i, Lacks c e.yrsUpdate) : s.NewClient lib c := by
  refine ⟨fun i k => ?_, fun i e he u hu => (hentries i e he).notMem hu⟩
  by_cases hk : k = ⟨"d", "x"⟩
  · rw [hk]
    exact hstate i
  · obtain ⟨docs, hdocs⟩ := hdocs i
    have hnone : (s.world i).storage.documents k = none :=
      (congrFun hdocs k).trans (written_of_ne docs hk)
    rw [docState, hnone]
    exact Multiset.notMem_zero c

lemma newClient_pair {doc : Option Sym}
    (h : c ∉ (storedState lib doc).stateVector) : (pair doc).NewClient lib c := by
  refine newClient_of_written (fun _ => ⟨[doc], rfl⟩) (fun i => ?_) fun i e he =>
    absurd he not_mem_nil
  rwa [(pair_start doc).state, Function.update_self]

lemma newId_pair (id : String) : (pair doc).NewId id :=
  fun _ _ he => absurd he not_mem_nil

lemma reachable_uploaded_setTitle :
    Reachable lib pairConfig (fun i => Action.Prepared lib (pairConfig i)) (pair five)
      (uploaded five setTitle) := by
  have hclient : (pair five).NewClient lib 0 := newClient_pair (by decide)
  have hid := newId_pair five ""
  -- an upload draws nothing
  refine .tail (.single (step_exec ?_ ?_ ?_)) (step_exec ?_ ?_ ?_) <;>
    repeat (first | exact trivial | refine And.intro trivial ?_ | refine And.intro hclient ?_ |
      refine And.intro hid ?_)

theorem faithful_uploaded_setTitle : (uploaded five setTitle).entries true ≠ [] ∧
    Faithful lib pairConfig "ns" (Function.update (fun _ => none) ⟨"d", "x"⟩ five)
      (uploaded five setTitle) true ⟨"d", "x"⟩ :=
  ⟨by decide,
    faithful_of_reachable pair_deployment (pair_start five) reachable_uploaded_setTitle _ _⟩

lemma reachable_uploaded_create :
    Reachable lib pairConfig (fun _ _ _ => True) (pair none) (uploaded none create) := by
  have hclient : (pair none).NewClient lib 0 := newClient_pair (by decide)
  have hid := newId_pair none ""
  refine .tail (.single (step_exec ?_ ?_ ?_)) (step_exec ?_ ?_ ?_) <;>
    repeat (first | exact trivial | refine And.intro trivial ?_ | refine And.intro hclient ?_ |
      refine And.intro hid ?_)

lemma newClient_uploaded_setTitle : (uploaded five setTitle).NewClient lib 9 :=
  newClient_of_written (fun i => i.rec ⟨[five], rfl⟩ ⟨[five, _], rfl⟩) (by decide) (by decide)

lemma newClient_uploaded_create : (uploaded none create).NewClient lib 9 :=
  newClient_of_written (fun i => i.rec ⟨[none], rfl⟩ ⟨[none, _], rfl⟩) (by decide) (by decide)

theorem converged_setTitle :
    (shared five setTitle).delivered false ≠ [] ∧
      (shared five setTitle).state lib true ⟨"d", "x"⟩ =
        (shared five setTitle).state lib false ⟨"d", "x"⟩ := by
  have hdownload : Allowed (machine 0 ((uploaded five setTitle).Fresh lib))
      (Action.download.prog lib (pairConfig false))
      (List.replicate 20 { (default : Env Sym) with clientId := 9 })
      ((uploaded five setTitle).world false) := by
    repeat (first | exact trivial | refine And.intro newClient_uploaded_setTitle ?_ |
      refine And.intro trivial ?_)
  have hprepared : Action.Prepared lib (pairConfig false) .download
      ((uploaded five setTitle).world false) := by
    intro m hm
    rcases mem_singleton.1 hm with rfl
    nofun
  have hrun := reachable_uploaded_setTitle.tail (step_exec (by trivial) hprepared hdownload)
  exact ⟨by decide, converged pair_deployment (pair_start five) hrun ⟨by decide, by decide⟩ _ _ _⟩

/-- Where the record was not stored, the reconciler starts a document with items of its own,
which no other replica ever gets. -/
theorem delivered_create_differs :
    Start "ns" (Function.update (fun _ => none) ⟨"d", "x"⟩ none) (pair none) ∧
      Reachable lib pairConfig (fun _ _ _ => True) (pair none) (shared none create) ∧
      Quiescent pairConfig "ns" (shared none create) ∧
      (shared none create).state lib true ⟨"d", "x"⟩ ≠
        (shared none create).state lib false ⟨"d", "x"⟩ := by
  have hdownload : Allowed (machine 0 ((uploaded none create).Fresh lib))
      (Action.download.prog lib (pairConfig false))
      (List.replicate 20 { (default : Env Sym) with clientId := 9 })
      ((uploaded none create).world false) := by
    repeat (first | exact trivial | refine And.intro newClient_uploaded_create ?_ |
      refine And.intro trivial ?_)
  refine ⟨pair_start none, ?_, ⟨by decide, by decide⟩, by decide⟩
  exact reachable_uploaded_create.tail (step_exec (by trivial) trivial hdownload)

end Net

end VaultSync
