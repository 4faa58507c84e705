import Mathlib.Data.Set.Finite.Basic
import VaultSync.Async.Along
import VaultSync.Client.Materialize

/-! Materializing record by record: what the replay of an entry makes of the record's stored
bytes, and `materialize` as a run of such steps. -/

namespace VaultSync

open Async AsyncFn World MutationEngine

variable {B : Type}

namespace ViewMaterializer

variable (L : Lib B)

def readable (bytes : B) : Option CrdtState :=
  if CRDTDocument.maxSnapshotSize < L.len bytes then none else (L.decodeV1 bytes).toOption

def carried (e : OplogEntry B) : Option CrdtState :=
  match e.mutationType with
  | .crdtUpdate | .crdtInsert => readable L e.yrsUpdate
  | .crdtDelete | .crdtBatch => none

def effect (c : ClientId) (e : OplogEntry B) (d : CrdtState) : Option CrdtState :=
  if e.mutationType = .crdtDelete then some (d.insertItem c (L.itemAt d "_deleted"))
  else (carried L e).map (d ⊔ ·)

def newState (c : ClientId) : CrdtState := ⟨{c, c, c}, ∅⟩

def replayed (c : ClientId) (e : OplogEntry B) : Option B → Option B
  | none =>
    if e.mutationType = .crdtInsert then
      (carried L e).map fun u => L.encodeV1 (newState c ⊔ u)
    else none
  | some bytes =>
    match readable L bytes with
    | none => some bytes
    | some d => some ((effect L c e d).elim bytes L.encodeV1)

def Fresh (es : List (OplogEntry B)) (docs : Key → Option B) (c : ClientId) : Prop :=
  ∀ e ∈ es, c ∉ (storedState L (docs e.key)).stateVector ∧
    ∀ u, L.decodeV1 e.yrsUpdate = .ok u → c ∉ u.stateVector

/-- No storage call fails, and yrs draws client ids that are fresh for the pending entries. -/
def FreshDraws (cfg : Config) : Call B → Env B → World B → Prop
  | .newClientId, e, w =>
    Fresh L (w.storage.readPendingOplog cfg.namespace 50000) w.storage.documents e.clientId
  | _, e, _ => e.storageFault = none

lemma exists_fresh (es : List (OplogEntry B)) (docs : Key → Option B)
    (avoid : Finset ClientId) : ∃ c, Fresh L es docs c ∧ c ∉ avoid := by
  classical
  let clients (e : OplogEntry B) : Finset ClientId :=
    (storedState L (docs e.key)).stateVector.toFinset ∪
      (storedState L (some e.yrsUpdate)).stateVector.toFinset
  obtain ⟨c, hc⟩ := Infinite.exists_notMem_finset (es.toFinset.biUnion clients ∪ avoid)
  rw [Finset.mem_union, not_or] at hc
  refine ⟨c, fun e he => ?_, hc.2⟩
  have hnot : c ∉ clients e := fun h =>
    hc.1 (Finset.mem_biUnion.2 ⟨e, List.mem_toFinset.2 he, h⟩)
  rw [Finset.mem_union, not_or, Multiset.mem_toFinset, Multiset.mem_toFinset] at hnot
  refine ⟨hnot.1, fun u hu => ?_⟩
  have hstate := hnot.2
  rwa [storedState_some hu] at hstate

/-! ## Loading and merging -/

variable {L} {cfg : Config} {n : ℕ} {w : World B} {k : Key} {bytes : B} {d : CrdtState}
  {e : OplogEntry B} {c : ClientId}

lemma readable_eq_some : readable L bytes = some d ↔
    L.len bytes ≤ CRDTDocument.maxSnapshotSize ∧ L.decodeV1 bytes = .ok d := by
  unfold readable
  split_ifs with h
  · exact ⟨nofun, fun hle => absurd hle.1 (not_le.2 h)⟩
  · cases hdec : L.decodeV1 bytes with
    | error err => exact ⟨nofun, nofun⟩
    | ok u =>
      constructor
      · rintro ⟨⟩
        exact ⟨not_lt.1 h, rfl⟩
      · rintro ⟨-, ⟨⟩⟩
        rfl

lemma fromSnapshot_of_readable (h : readable L bytes = some d) :
    ∃ doc, CRDTDocument.fromSnapshot L c bytes = .ok doc ∧ doc.state = d ∧ doc.client = c := by
  obtain ⟨hlen, hdec⟩ := readable_eq_some.1 h
  unfold CRDTDocument.fromSnapshot
  rw [if_neg (not_lt.2 hlen), hdec]
  exact ⟨_, rfl, rfl, rfl⟩

lemma fromSnapshot_of_not_readable (h : readable L bytes = none) :
    ∃ err, CRDTDocument.fromSnapshot L c bytes = .error err := by
  cases hload : CRDTDocument.fromSnapshot L c bytes with
  | error err => exact ⟨err, rfl⟩
  | ok doc =>
    obtain ⟨hdec, -, hlen⟩ := CRDTDocument.fromSnapshot_ok hload
    rw [readable_eq_some.2 ⟨hlen, hdec⟩] at h
    cases h

variable {doc : CRDTDocument}

lemma applyUpdate_of_readable {u : CrdtState} (h : readable L bytes = some u) :
    doc.applyUpdate L bytes = .ok { doc with state := doc.state ⊔ u } := by
  obtain ⟨hlen, hdec⟩ := readable_eq_some.1 h
  unfold CRDTDocument.applyUpdate
  rw [if_neg (not_lt.2 hlen), hdec]

lemma applyUpdate_of_not_readable (doc : CRDTDocument) (h : readable L bytes = none) :
    ∃ err, doc.applyUpdate L bytes = .error err := by
  unfold readable at h
  unfold CRDTDocument.applyUpdate
  split_ifs at h ⊢ with hlen
  · exact ⟨_, rfl⟩
  · cases hdec : L.decodeV1 bytes with
    | error err => exact ⟨_, rfl⟩
    | ok u =>
      rw [hdec] at h
      cases h

/-! ## One entry -/

def putDocument (st : InMemoryStorage B) (k : Key) (stored : Option B) : InMemoryStorage B :=
  { st with documents := Function.update st.documents k stored }

lemma putDocument_self (st : InMemoryStorage B) (k : Key) :
    putDocument st k (st.documents k) = st := by
  rw [putDocument, Function.update_eq_self]

section Executed

variable {A : Call B → Env B → World B → Prop} {env : Env B} {w₁ : World B}

/-- A storage call fails, or there is nothing to replay; or the client that is drawn replays the
entry. -/
structure Executed (L : Lib B) (A : Call B → Env B → World B → Prop) (e : OplogEntry B)
    (w w' : World B) : Prop where
  client : w'.client = w.client
  lastSequence : w'.lastSequence = w.lastSequence
  service : w'.service = w.service
  storage : (((∃ op env w₁, A op env w₁ ∧ op ≠ .newClientId ∧ env.storageFault ≠ none) ∨
      ∀ c, replayed L c e (w.storage.documents e.key) = w.storage.documents e.key) ∧
        w'.storage = w.storage) ∨
    ∃ env w₁, A .newClientId env w₁ ∧ w₁.storage = w.storage ∧
      w'.storage = putDocument w.storage e.key
        (replayed L env.clientId e (w.storage.documents e.key))

lemma Executed.unchanged (henv : A .newClientId env w₁) (hw1 : w₁.storage = w.storage)
    (h : replayed L env.clientId e (w.storage.documents e.key) = w.storage.documents e.key) :
    Executed L A e w (w.recordRead n e.key) := by
  refine ⟨rfl, rfl, rfl, .inr ⟨env, w₁, henv, hw1, ?_⟩⟩
  rw [h, putDocument_self]
  rfl

lemma wp_getDocument_executed {f : Option B → AsyncFn B B}
    (hf : wp (machine n A) (fun _ w' => Executed L A e w w') (f (w.storage.documents e.key))
      (w.recordRead n e.key)) :
    wp (machine n A) (fun _ w' => Executed L A e w w') (getDocument e.key >>= f) w := by
  rw [wp_getDocument]
  refine fun env henv => ⟨fun err herr => ⟨rfl, rfl, rfl, .inl ⟨.inl ?_, rfl⟩⟩, fun _ => hf⟩
  exact ⟨_, env, w, henv, nofun, herr ▸ Option.some_ne_none err⟩

lemma wp_writeSnapshot_executed (henv : A .newClientId env w₁) (hw1 : w₁.storage = w.storage)
    (hdoc : replayed L env.clientId e (w.storage.documents e.key) = some (L.encodeV1 doc.state)) :
    wp (machine n A) (fun _ w' => Executed L A e w w') (writeSnapshot L e.key doc)
      (w.recordRead n e.key) := by
  rw [writeSnapshot, wp_insertDocument]
  refine fun env' henv' => ⟨fun err herr => ⟨rfl, rfl, rfl, .inl ⟨.inl ?_, rfl⟩⟩,
    fun _ => ⟨rfl, rfl, rfl, .inr ⟨env, w₁, henv, hw1, ?_⟩⟩⟩
  · exact ⟨_, env', _, henv', nofun, herr ▸ Option.some_ne_none err⟩
  · rw [hdoc]
    rfl

lemma wp_load_executed {f : CRDTDocument → AsyncFn B B}
    (hstored : w.storage.documents e.key = some bytes)
    (hf : ∀ doc env w₁, A .newClientId env w₁ → w₁.storage = w.storage → doc.client = env.clientId →
      readable L bytes = some doc.state →
      wp (machine n A) (fun _ w' => Executed L A e w w') (f doc) (w.recordRead n e.key)) :
    wp (machine n A) (fun _ w' => Executed L A e w w') (loadSnapshot L bytes >>= f)
      (w.recordRead n e.key) := by
  rw [wp_bind, loadSnapshot, wp_newClientId]
  intro env henv
  rw [wp_ofExcept]
  cases hread : readable L bytes with
  | none =>
    obtain ⟨err, herr⟩ := fromSnapshot_of_not_readable (c := env.clientId) hread
    rw [herr]
    refine .unchanged henv rfl ?_
    simp [hstored, replayed, hread]
  | some d =>
    obtain ⟨doc, hdoc, rfl, hclient⟩ := fromSnapshot_of_readable (c := env.clientId) hread
    rw [hdoc]
    exact hf doc env _ henv rfl hclient hread

lemma wp_merge_executed (henv : A .newClientId env w₁) (hw1 : w₁.storage = w.storage)
    (hdoc : replayed L env.clientId e (w.storage.documents e.key) =
      (readable L e.yrsUpdate).elim (w.storage.documents e.key)
        fun u => some (L.encodeV1 (doc.state ⊔ u))) :
    wp (machine n A) (fun _ w' => Executed L A e w w')
      (Prog.ofExcept (doc.applyUpdate L e.yrsUpdate) >>= writeSnapshot L e.key)
      (w.recordRead n e.key) := by
  rw [wp_bind, wp_ofExcept]
  cases hread : readable L e.yrsUpdate with
  | none =>
    obtain ⟨err, herr⟩ := applyUpdate_of_not_readable doc hread
    rw [hread] at hdoc
    rw [herr]
    exact .unchanged henv hw1 hdoc
  | some u =>
    rw [hread] at hdoc
    rw [applyUpdate_of_readable hread]
    exact wp_writeSnapshot_executed henv hw1 hdoc

lemma wp_execute (e : OplogEntry B) :
    wp (machine n A) (fun _ w' => Executed L A e w w') (execute L e) w := by
  have hnothing (w' : World B) (hw' : w' = w ∨ w' = w.recordRead n e.key)
      (hsame : ∀ c, replayed L c e (w.storage.documents e.key) = w.storage.documents e.key) :
      Executed L A e w w' := by
    rcases hw' with rfl | rfl <;> exact ⟨rfl, rfl, rfl, .inl ⟨.inr hsame, rfl⟩⟩
  unfold execute
  cases htype : e.mutationType with
  | crdtBatch =>
    refine hnothing w (.inl rfl) fun c => ?_
    cases w.storage.documents e.key with
    | none => simp [replayed, htype]
    | some bytes =>
      simp only [replayed, effect, carried, htype]
      cases readable L bytes <;> rfl
  | crdtDelete =>
    refine wp_getDocument_executed ?_
    cases hstored : w.storage.documents e.key with
    | none => exact hnothing _ (.inr rfl) fun c => by simp [hstored, replayed, htype]
    | some bytes =>
      refine wp_load_executed hstored fun doc env w₁ henv hw1 hclient hread => ?_
      refine wp_writeSnapshot_executed henv hw1 ?_
      simp only [hstored, ← hclient, replayed, effect, hread, if_pos htype, Option.elim_some]
      rfl
  | crdtUpdate =>
    refine wp_getDocument_executed ?_
    cases hstored : w.storage.documents e.key with
    | none => exact hnothing _ (.inr rfl) fun c => by simp [hstored, replayed, htype]
    | some bytes =>
      refine wp_load_executed hstored fun doc env w₁ henv hw1 _ hread => ?_
      refine wp_merge_executed henv hw1 ?_
      simp only [hstored, replayed, effect, carried, htype, hread]
      cases readable L e.yrsUpdate <;> rfl
  | crdtInsert =>
    refine wp_getDocument_executed ?_
    cases hstored : w.storage.documents e.key with
    | none =>
      rw [loadForInsert, wp_bind, wp_newClientId]
      refine fun env henv => wp_merge_executed henv rfl ?_
      simp only [hstored, replayed, carried, htype, if_true]
      cases readable L e.yrsUpdate <;> rfl
    | some bytes =>
      refine wp_load_executed hstored fun doc env w₁ henv hw1 _ hread => ?_
      refine wp_merge_executed henv hw1 ?_
      simp only [hstored, replayed, effect, carried, htype, hread]
      cases readable L e.yrsUpdate <;> rfl

end Executed

/-! ## Materializing only adds -/

lemma effect_ge {d' : CrdtState} (h : effect L c e d = some d') : d ≤ d' := by
  unfold effect at h
  split_ifs at h
  · exact Option.some.inj h ▸ CrdtState.le_insertItem _ _ _
  · obtain ⟨u, -, rfl⟩ := Option.map_eq_some_iff.1 h
    exact le_sup_left

lemma storedState_le_replayed {s : Option B} :
    storedState L s ≤ storedState L (replayed L c e s) := by
  cases s with
  | none => exact bot_le
  | some bytes =>
    cases hread : readable L bytes with
    | none => simp [replayed, hread]
    | some d =>
      cases heff : effect L c e d with
      | none => simp [replayed, hread, heff, Option.elim_none]
      | some d' =>
        simp only [replayed, hread, heff, Option.elim_some]
        rw [storedState_some (readable_eq_some.1 hread).2, storedState_some (L.decode_encode d')]
        exact effect_ge heff

end ViewMaterializer

/-- From `w₀` to `w` only documents and the record of reads changed, and documents grew. -/
structure Materialized (L : Lib B) (w₀ w : World B) : Prop where
  client : w.client = w₀.client
  lastSequence : w.lastSequence = w₀.lastSequence
  service : w.service = w₀.service
  grows : Grows L w₀ w

namespace ViewMaterializer

variable {L : Lib B} {cfg : Config} {n : ℕ} {A : Call B → Env B → World B → Prop} {w w' : World B}
  {e : OplogEntry B}

lemma Executed.materialized (h : Executed L A e w w') : Materialized L w w' := by
  refine ⟨h.client, h.lastSequence, h.service, fun k => ?_⟩
  unfold docState
  rcases h.storage with ⟨-, hsame⟩ | ⟨env, w₁, -, -, hput⟩
  · rw [hsame]
  · rw [hput, putDocument]
    by_cases hk : k = e.key
    · subst hk
      dsimp only
      rw [Function.update_self]
      exact storedState_le_replayed
    · dsimp only
      rw [Function.update_of_ne hk]

lemma wp_replay (es : List (OplogEntry B)) :
    wp (machine n A) (fun _ w' => Materialized L w w') (replay L es) w := by
  induction es generalizing w with
  | nil => exact ⟨rfl, rfl, rfl, fun _ => le_rfl⟩
  | cons e es ih =>
    rw [replay, wp_bind, wp_attempt]
    refine (wp_execute e).mono fun _ w₁ h => ih.mono fun _ w2 h2 => ?_
    have h1 := h.materialized
    exact ⟨h2.client.trans h1.client, h2.lastSequence.trans h1.lastSequence,
      h2.service.trans h1.service, h1.grows.trans h2.grows⟩

lemma wp_materialize_of_replay {Q : World B → Prop} (hsame : Q w)
    (hreplay : w.storage.readPendingOplog cfg.namespace 50000 ≠ [] →
      wp (machine n A) (fun _ w' => Q w')
        (replay L (plan (w.storage.readPendingOplog cfg.namespace 50000))) w) :
    wp (machine n A) (fun _ w' => Q w') (materialize L cfg) w := by
  rw [materialize, wp_readPendingOplog]
  refine fun _ _ => ⟨fun _ _ => hsame, fun _ => ?_⟩
  rw [wp_ite]
  refine ⟨fun _ => hsame, fun hne => ?_⟩
  change wp _ _ (replay L _ >>= fun _ => verify cfg) w
  rw [wp_bind]
  refine (hreplay (by simpa using hne)).mono fun r w' h => ?_
  cases r with
  | error err => exact h
  | ok _ =>
    change wp _ _ (verify cfg) w'
    rw [verify, wp_bind, wp_attempt, ← Prog.bind_pure (readPendingOplog _ _), wp_readPendingOplog]
    exact fun _ _ => ⟨fun _ _ => h, fun _ => h⟩

lemma wp_materialize (w : World B) :
    wp (machine n A) (fun _ w' => Materialized L w w' ∧
      (w.storage.readPendingOplog cfg.namespace 50000 = [] →
        w'.storage.documents = w.storage.documents)) (materialize L cfg) w := by
  refine wp_materialize_of_replay ⟨⟨rfl, rfl, rfl, fun _ => le_rfl⟩, fun _ => rfl⟩ fun hne => ?_
  exact (wp_replay _).mono fun _ w' h => ⟨h, fun hnil => absurd hnil hne⟩

/-! ## When no call fails -/

/-- The draws in which the entry is replayed by `c`. -/
def Drawing (L : Lib B) (cfg : Config) (w : World B) (c : ClientId) (op : Call B) (env : Env B)
    (w₁ : World B) : Prop :=
  FreshDraws L cfg op env w₁ ∧ (op = .newClientId → w₁.storage = w.storage → env.clientId = c)

variable {Q : InMemoryStorage B → Prop} {c : ClientId}

lemma exists_drawing
    (hc : Fresh L (w.storage.readPendingOplog cfg.namespace 50000) w.storage.documents c)
    (op : Call B) (w₁ : World B) : ∃ env, Drawing L cfg w c op env w₁ := by
  by_cases hop : op = .newClientId
  · subst hop
    by_cases hw : w₁.storage = w.storage
    · refine ⟨{ (default : Env B) with clientId := c }, ?_, fun _ _ => rfl⟩
      rw [← hw] at hc
      exact hc
    · obtain ⟨a, ha, -⟩ := exists_fresh L (w₁.storage.readPendingOplog cfg.namespace 50000)
        w₁.storage.documents ∅
      exact ⟨{ (default : Env B) with clientId := a }, ha, fun _ h => absurd h hw⟩
  · refine ⟨default, ?_, fun h => absurd h hop⟩
    cases op <;> first | rfl | exact absurd rfl hop

lemma wp_execute_iff (e : OplogEntry B) :
    wp (machine n (FreshDraws L cfg)) (fun _ w' => Q w'.storage) (execute L e) w ↔
      ∀ c, Fresh L (w.storage.readPendingOplog cfg.namespace 50000) w.storage.documents c →
        Q (putDocument w.storage e.key (replayed L c e (w.storage.documents e.key))) := by
  have hup : ¬ ∃ op env w₁, FreshDraws L cfg op env w₁ ∧ op ≠ .newClientId ∧
      env.storageFault ≠ none := by
    rintro ⟨op, env, w₁, hallow, hne, hfault⟩
    cases op <;> first | exact hfault hallow | exact hne rfl
  constructor
  · intro h c hc
    obtain ⟨r, w', hQ, hexec⟩ := exists_of_wp (exists_drawing hc) (fun _ _ _ h => h.1) h
      (wp_execute e)
    rcases hexec.storage with ⟨hfault | hsame, hw'⟩ | ⟨env, w₁, henv, hw1, hw'⟩
    · obtain ⟨op, env, w₁, hallow, hrest⟩ := hfault
      exact absurd ⟨op, env, w₁, hallow.1, hrest⟩ hup
    · rwa [hsame, putDocument_self, ← hw']
    · rwa [← henv.2 rfl hw1, ← hw']
  · intro h
    refine (wp_execute e).mono fun _ w' hexec => ?_
    rcases hexec.storage with ⟨hfault | hsame, hw'⟩ | ⟨env, w₁, henv, hw1, hw'⟩
    · exact absurd hfault hup
    · obtain ⟨c, hc, -⟩ := exists_fresh L (w.storage.readPendingOplog cfg.namespace 50000)
        w.storage.documents ∅
      have hQ := h c hc
      rwa [hsame, putDocument_self, ← hw'] at hQ
    · rw [hw']
      refine h env.clientId ?_
      rw [← hw1]
      exact henv

lemma wp_readPendingOplog_draws {ns : String} {limit : ℕ} {β : Type}
    {Q : Except VaultSyncError β → World B → Prop} (f : List (OplogEntry B) → AsyncFn B β) :
    wp (machine n (FreshDraws L cfg)) Q (readPendingOplog ns limit >>= f) w ↔
      wp (machine n (FreshDraws L cfg)) Q (f (w.storage.readPendingOplog ns limit)) w := by
  rw [wp_readPendingOplog]
  exact forall_up_iff

/-! ## The whole replay -/

def Replays (L : Lib B) (pending : List (OplogEntry B)) :
    List (OplogEntry B) → (Key → Option B) → (Key → Option B) → Prop :=
  Along fun e docs docs' => ∃ c, Fresh L pending docs c ∧
    docs' = Function.update docs e.key (replayed L c e (docs e.key))

lemma wp_replay_iff (es : List (OplogEntry B)) :
    wp (machine n (FreshDraws L cfg)) (fun _ w' => Q w'.storage) (replay L es) w ↔
      ∀ docs, Replays L (w.storage.readPendingOplog cfg.namespace 50000) es w.storage.documents docs →
        Q { w.storage with documents := docs } := by
  induction es generalizing w with
  | nil =>
    constructor
    · rintro h _ rfl
      exact h
    · exact fun h => h _ rfl
  | cons e es ih =>
    rw [replay, wp_bind, wp_attempt]
    simp only [ih]
    refine (wp_execute_iff (Q := fun st => ∀ docs, Replays L (st.readPendingOplog cfg.namespace 50000)
      es st.documents docs → Q { st with documents := docs }) e).trans ?_
    constructor
    · rintro h docs ⟨_, ⟨c, hc, rfl⟩, hrest⟩
      exact h c hc docs hrest
    · exact fun h c hc docs hrest => h docs ⟨_, ⟨c, hc, rfl⟩, hrest⟩

lemma wp_materialize_iff :
    wp (machine n (FreshDraws L cfg)) (fun _ w' => Q w'.storage) (materialize L cfg) w ↔
      ∀ docs, Replays L (w.storage.readPendingOplog cfg.namespace 50000)
        (plan (w.storage.readPendingOplog cfg.namespace 50000)) w.storage.documents docs →
          Q { w.storage with documents := docs } := by
  rw [materialize, wp_readPendingOplog_draws]
  cases hpending : w.storage.readPendingOplog cfg.namespace 50000 with
  | nil =>
    constructor
    · rintro h _ rfl
      exact h
    · exact fun h => h _ rfl
  | cons e es =>
    have hreplay : wp (machine n (FreshDraws L cfg)) (fun _ w' => Q w'.storage)
        (replay L (plan (e :: es))) w ↔ _ := wp_replay_iff _
    rw [hpending] at hreplay
    rw [← hreplay]
    change wp _ _ (replay L _ >>= fun _ => verify cfg) w ↔ _
    rw [wp_bind]
    refine wp_congr (wp_iff_outcome.2 fun r w' _ => ?_)
    cases r with
    | ok _ =>
      dsimp only
      rw [verify, wp_bind, wp_attempt, ← Prog.bind_pure (readPendingOplog _ _),
        wp_readPendingOplog_draws]
      exact Iff.rfl
    | error err => exact Iff.rfl

end ViewMaterializer

end VaultSync
