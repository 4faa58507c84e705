import Mathlib.Tactic.SplitIfs
import VaultSync.Server.Router

/-! Which coordinator operations a peer without a token for a namespace gets the server to
execute there. -/

namespace VaultSync.Server

open List

variable {B P : Type}

/-- The connections by number, each with its peer, and the operations executed so far with the
peer each was executed for. -/
structure Running (B P : Type) where
  app : AppState
  ws : ℕ → Option (P × String × WsPhase)
  mux : ℕ → Option (P × MuxState)
  executed : List (P × String × Op B)

inductive Event (B P : Type) where
  | http (p : P) (auth : Option Authorization) (r : Request B) (a : Answers)
  | openWs (c : ℕ) (p : P) (ns : String)
  | openMux (c : ℕ) (p : P)
  | wsMessage (c : ℕ) (m : Incoming B) (a : Answers)
  | muxMessage (c : ℕ) (m : Incoming B) (a : Answers)

namespace Running

def new (app : AppState) : Running B P := ⟨app, fun _ => none, fun _ => none, []⟩

def execute (s : Running B P) (p : P) (ops : Executed B) : Running B P :=
  { s with executed := s.executed ++ ops.map fun o => (p, o) }

section

variable (hashToken : String → String)

def step (s : Running B P) : Event B P → Running B P
  | .http p auth r a =>
    let (reply, app) := route hashToken s.app auth a r
    { s with app := app }.execute p reply.2
  | .openWs c p ns =>
    { s with ws := fun c' => if c' = c then some (p, ns, .auth) else s.ws c' }
  | .openMux c p =>
    { s with mux := fun c' => if c' = c then some (p, ⟨[], false⟩) else s.mux c' }
  | .wsMessage c m a =>
    match s.ws c with
    | none => s
    | some (p, ns, phase) =>
      let (phase, ops) := handleWsSession hashToken s.app ns a m phase
      { s with ws := fun c' => if c' = c then some (p, ns, phase) else s.ws c' }.execute p ops
  | .muxMessage c m a =>
    match s.mux c with
    | none => s
    | some (p, state) =>
      let (state, ops) := Server.muxMessage a state m
      { s with mux := fun c' => if c' = c then some (p, state) else s.mux c' }.execute p ops

def run (s : Running B P) (es : List (Event B P)) : Running B P := es.foldl (step hashToken) s

end

end Running

/-- A global token, or a token store with an admin token. -/
def AppState.Configured (st : AppState) : Prop :=
  st.config.authToken.isSome ∨ (st.tokenStore.isSome ∧ st.config.adminToken.isSome)

section

variable (hashToken : String → String) (st : AppState)

def AppState.Opens (ns token : String) : Prop :=
  validateToken hashToken st ns token ⟨false, true, true, true, ""⟩ ∨
    st.config.adminToken = some token

instance (st : AppState) (ns token : String) : Decidable (st.Opens hashToken ns token) :=
  inferInstanceAs (Decidable (_ ∨ _))

variable (ns : String)

def TokenOk : Option Authorization → Prop
  | some (.bearer token) => ¬ st.Opens hashToken ns token
  | _ => True

def FrameTokenOk : Incoming B → Prop
  | .binary (some (.auth (some p))) => ¬ st.Opens hashToken ns p.token
  | _ => True

def Frame.Names : Frame B → Prop
  | .namespaceAdd (some p) => p.namespace = ns
  | .push (some mutations) => firstNamespace mutations = ns
  | .pull (some (ns', _, _)) => ns' = ns
  | .schemaSync (some (ns', _)) => ns' = ns
  | .subscribe (some (ns', _)) => ns' = ns
  | .heartbeat (some (_, ns')) => ns' = ns
  | .snapshot _ (some (ns', _)) => ns' = ns
  | _ => False

def MuxSilent : Incoming B → Prop
  | .binary (some frame) => ¬ frame.Names ns
  | _ => True

def Withholds (p : P) (ns : String) (s : Running B P) : Event B P → Prop
  | .http p' auth _ _ => p' = p → TokenOk hashToken s.app ns auth
  | .wsMessage c m _ =>
    match s.ws c with
    | some (p', _, _) => p' = p → FrameTokenOk hashToken s.app ns m
    | none => True
  | _ => True

def Silent (p : P) (ns : String) (s : Running B P) : Event B P → Prop
  | .muxMessage c m _ =>
    match s.mux c with
    | some (p', _) => p' = p → MuxSilent ns m
    | none => True
  | _ => True

def AllWithheld (p : P) (ns : String) (ok : Running B P → Event B P → Prop) (s : Running B P) :
    List (Event B P) → Prop
  | [] => True
  | e :: es => Withholds hashToken p ns s e ∧ ok s e ∧
      AllWithheld p ns ok (s.step hashToken e) es

end

/-! ### Requests without a token -/

variable {hashToken : String → String} {st : AppState} {ns ns' : String} {a : Answers}
  {auth : Option Authorization}

lemma validateToken_fault {token : String} (h : validateToken hashToken st ns token a = true) :
    validateToken hashToken st ns token ⟨false, true, true, true, ""⟩ = true := by
  unfold validateToken storeValidates at h ⊢
  revert h
  cases st.config.authToken with
  | some globalToken => exact id
  | none =>
    cases st.tokenStore with
    | none => exact fun _ => rfl
    | some store =>
      intro h
      dsimp only at h ⊢
      by_cases hadmin : st.config.adminToken.isSome = true
      · rw [if_pos hadmin] at h ⊢
        cases hfails : a.storeFails with
        | true =>
          rw [hfails] at h
          cases h
        | false =>
          rw [hfails] at h
          exact h
      · exact if_neg hadmin

lemma authorizeNamespace_error (hcfg : st.Configured) (hauth : TokenOk hashToken st ns auth) :
    ∃ status, authorizeNamespace hashToken st auth ns a = .error status := by
  unfold authorizeNamespace
  cases htoken : st.config.authToken with
  | some globalToken =>
    dsimp only
    split_ifs with heq
    · subst heq
      refine absurd (.inl ?_) hauth
      simp [validateToken, htoken]
    · exact ⟨_, rfl⟩
  | none =>
    rw [AppState.Configured, htoken] at hcfg
    obtain ⟨hstore, hadmin⟩ := hcfg.resolve_left Bool.false_ne_true
    obtain ⟨store, hstore⟩ := Option.isSome_iff_exists.1 hstore
    rw [hstore]
    dsimp only
    rw [if_pos hadmin]
    split
    · rename_i token
      split
      · rename_i hvalid
        refine absurd (.inl (validateToken_fault (a := a) ?_)) hauth
        simp [validateToken, htoken, hstore, hadmin, hvalid]
      · exact ⟨_, rfl⟩
    · exact ⟨_, rfl⟩

lemma authorizeAdmin_error (hauth : TokenOk hashToken st ns auth) :
    ∃ status, authorizeAdmin st auth = .error status := by
  unfold authorizeAdmin
  cases hadmin : st.config.adminToken with
  | none => exact ⟨_, rfl⟩
  | some adminToken =>
    dsimp only
    split_ifs with heq
    · subst heq
      exact absurd (.inr hadmin) hauth
    · exact ⟨_, rfl⟩

section

variable (hcfg : st.Configured)

include hcfg

lemma namespaceRoute_notMem (hauth : TokenOk hashToken st ns auth)
    (op op' : Op B) : (ns, op') ∉ (namespaceRoute hashToken op st auth ns' a).2 := by
  unfold namespaceRoute
  by_cases hns : ns' = ns
  · subst hns
    obtain ⟨status, herr⟩ := authorizeNamespace_error (a := a) hcfg hauth
    rw [herr]
    exact not_mem_nil
  · split
    · exact not_mem_nil
    · intro hmem
      cases mem_singleton.1 hmem
      exact hns rfl

lemma route_notMem (hauth : TokenOk hashToken st ns auth) (r : Request B)
    (op : Op B) : (ns, op) ∉ (route hashToken st auth a r).1.2 := by
  obtain ⟨status, herr⟩ := authorizeAdmin_error hauth
  cases r with
  | health | adminNamespace ns' token => exact not_mem_nil
  | adminCompact ns' =>
    rw [route, adminCompact, herr]
    exact not_mem_nil
  | adminSnapshot ns' docId recordId =>
    rw [route, adminGetSnapshot, herr]
    exact not_mem_nil
  | _ => exact namespaceRoute_notMem hcfg hauth _ op

lemma route_configured (r : Request B) : (route hashToken st auth a r).2.Configured := by
  cases r with
  | adminNamespace ns' token =>
    change (adminRegisterNamespace hashToken st auth ns' token a).2.Configured
    unfold adminRegisterNamespace
    split
    · exact hcfg
    · split
      · exact hcfg
      · split_ifs
        · exact hcfg
        · exact hcfg.imp_right fun h => ⟨rfl, h.2⟩
  | _ => exact hcfg

end

/-! ### Frames without a token -/

variable {o : String × Op B} {m : Incoming B} {phase : WsPhase} {p' : P}

lemma registered_ns {p : RegisterPayload B} (h : o ∈ registered ns p a) : o.1 = ns := by
  rcases mem_cons.1 h with rfl | h
  · rfl
  · split_ifs at h
    · rcases mem_cons.1 h with rfl | h
      · rfl
      · cases mem_singleton.1 h
        rfl
    · cases h

lemma handleWsSession_auth (m : Incoming B) (hm : FrameTokenOk hashToken st ns m) :
    handleWsSession hashToken st ns a m .auth = (.closed, []) := by
  unfold handleWsSession
  dsimp only
  split
  · rename_i p
    split_ifs with hns hvalid hsent
    · rfl
    · exact absurd (.inl (validateToken_fault hvalid)) hm
    · rfl
    · rfl
  · rfl

lemma wsServe_ns {replicaId : String} (h : o ∈ (wsServe ns replicaId m).2) : o.1 = ns := by
  unfold wsServe at h
  split at h
  all_goals first
    | (cases mem_singleton.1 h; rfl)
    | cases h

lemma handleWsSession_ns (h : o ∈ (handleWsSession hashToken st ns a m phase).2) : o.1 = ns := by
  cases phase with
  | auth =>
    unfold handleWsSession at h
    dsimp only at h
    split at h
    · split_ifs at h <;> cases h
    · cases h
  | register =>
    unfold handleWsSession at h
    dsimp only at h
    split at h
    · exact registered_ns h
    · cases h
  | serving replicaId => exact wsServe_ns h
  | closed => cases h

lemma handleWsMuxSession_silent {s : MuxState} {frame : Frame B} (hf : ¬ frame.Names ns)
    (hs : ns ∉ s.registeredNamespaces.map Prod.fst) :
    ns ∉ (handleWsMuxSession a s frame).1.registeredNamespaces.map Prod.fst ∧
      ∀ op, (ns, op) ∉ (handleWsMuxSession a s frame).2 := by
  have hfilter (ns' : String) :
      ns ∉ (s.registeredNamespaces.filter fun r => r.1 ≠ ns').map Prod.fst := fun h => by
    obtain ⟨r, hr, rfl⟩ := mem_map.1 h
    exact hs (mem_map_of_mem (mem_filter.1 hr).1)
  have hone {ns' : String} (hne : ns' ≠ ns) (op op' : Op B) : (ns, op) ∉ [(ns', op')] := fun h => by
    cases mem_singleton.1 h
    exact hne rfl
  unfold handleWsMuxSession
  split
  · refine ⟨?_, fun op h => hf (registered_ns h).symm⟩
    split_ifs
    · rw [MuxState.insert, map_cons, mem_cons, not_or]
      exact ⟨fun h => hf h.symm, hfilter _⟩
    · exact hs
  · exact ⟨hfilter _, fun _ => not_mem_nil⟩
  · refine ⟨hs, fun op => ?_⟩
    dsimp only
    split_ifs
    · exact not_mem_nil
    · exact hone hf op _
  · exact ⟨hs, fun op => hone hf op _⟩
  · exact ⟨hs, fun op => hone hf op _⟩
  · exact ⟨hs, fun op => hone hf op _⟩
  · refine ⟨hs, fun op => ?_⟩
    dsimp only
    split_ifs
    · exact hone hf op _
    · intro h
      obtain ⟨r, hr, heq⟩ := mem_map.1 h
      cases heq
      exact hs (mem_map_of_mem (mem_filter.1 hr).1)
  · exact ⟨hs, fun op => hone hf op _⟩
  · exact ⟨hs, fun _ => not_mem_nil⟩

lemma muxMessage_silent {s : MuxState} (hm : MuxSilent ns m)
    (hs : ns ∉ s.registeredNamespaces.map Prod.fst) :
    ns ∉ (muxMessage a s m).1.registeredNamespaces.map Prod.fst ∧
      ∀ op, (ns, op) ∉ (muxMessage a s m).2 := by
  unfold muxMessage
  split
  · exact ⟨hs, fun _ => not_mem_nil⟩
  · split_ifs
    · exact ⟨hs, fun _ => not_mem_nil⟩
    · exact handleWsMuxSession_silent hm hs
  · exact ⟨hs, fun _ => not_mem_nil⟩
  · exact ⟨hs, fun _ => not_mem_nil⟩

/-! ### Runs -/

/-- The server is configured, the peer's sessions for the namespace are not past their
handshake, none of its multiplexed connections has the namespace, and nothing was executed
there for it. -/
structure Shut (p : P) (ns : String) (s : Running B P) : Prop where
  configured : s.app.Configured
  ws : ∀ c phase, s.ws c = some (p, ns, phase) → phase = .auth ∨ phase = .closed
  mux : ∀ c state, s.mux c = some (p, state) → ns ∉ state.registeredNamespaces.map Prod.fst
  executed : ∀ op, (p, ns, op) ∉ s.executed

variable {p : P} {s : Running B P}

lemma Shut.new (hcfg : st.Configured) : Shut p ns (.new st : Running B P) where
  configured := hcfg
  ws _ _ := nofun
  mux _ _ := nofun
  executed _ := not_mem_nil

section

variable (h : Shut p ns s)

include h

lemma Shut.execute {ops : Executed B}
    (hops : p' = p → ∀ op, (ns, op) ∉ ops) : Shut p ns (s.execute p' ops) where
  configured := h.configured
  ws := h.ws
  mux := h.mux
  executed op hmem := by
    rcases mem_append.1 hmem with hmem | hmem
    · exact h.executed op hmem
    · obtain ⟨o, ho, heq⟩ := mem_map.1 hmem
      cases heq
      exact hops rfl op ho

lemma Shut.setWs (c : ℕ) (hphase : p' = p → ns' = ns → phase = .auth ∨ phase = .closed) :
    Shut p ns { s with ws := fun c' => if c' = c then some (p', ns', phase) else s.ws c' } where
  configured := h.configured
  ws c' phase' hc := by
    dsimp only at hc
    split_ifs at hc
    · cases hc
      exact hphase rfl rfl
    · exact h.ws c' phase' hc
  mux := h.mux
  executed := h.executed

lemma Shut.setMux (c : ℕ) {state : MuxState}
    (hstate : p' = p → ns ∉ state.registeredNamespaces.map Prod.fst) :
    Shut p ns { s with mux := fun c' => if c' = c then some (p', state) else s.mux c' } where
  configured := h.configured
  ws := h.ws
  mux c' state' hc := by
    dsimp only at hc
    split_ifs at hc
    · cases hc
      exact hstate rfl
    · exact h.mux c' state' hc
  executed := h.executed

lemma Shut.step {e : Event B P} (he : Withholds hashToken p ns s e)
    (hsilent : Silent p ns s e) : Shut p ns (s.step hashToken e) := by
  cases e with
  | http p' auth r a =>
    have happ : Shut p ns { s with app := (route hashToken s.app auth a r).2 } :=
      ⟨route_configured h.configured r, h.ws, h.mux, h.executed⟩
    exact happ.execute fun hp => route_notMem h.configured (he hp) r
  | openWs c p' ns' => exact h.setWs c fun _ _ => .inl rfl
  | openMux c p' => exact h.setMux c fun _ => not_mem_nil
  | wsMessage c m a =>
    rw [Running.step]
    split
    · exact h
    · rename_i p' ns' phase hc
      dsimp only
      rw [Withholds, hc] at he
      have hclosed : p' = p → ns' = ns →
          handleWsSession hashToken s.app ns' a m phase = (.closed, []) := by
        rintro rfl rfl
        rcases h.ws c phase hc with rfl | rfl
        · exact handleWsSession_auth m (he rfl)
        · rfl
      refine (h.setWs c fun hp hns => .inr ?_).execute fun hp op hmem => ?_
      · rw [hclosed hp hns]
      · have hns := handleWsSession_ns hmem
        rw [hclosed hp hns.symm] at hmem
        cases hmem
  | muxMessage c m a =>
    rw [Running.step]
    split
    · exact h
    · rename_i p' state hc
      dsimp only
      rw [Silent, hc] at hsilent
      have hmux (hp : p' = p) := muxMessage_silent (a := a) (hsilent hp) (h.mux c state (hp ▸ hc))
      exact (h.setMux c fun hp => (hmux hp).1).execute fun hp => (hmux hp).2

lemma Shut.run {es : List (Event B P)}
    (hes : AllWithheld hashToken p ns (Silent p ns) s es) : Shut p ns (s.run hashToken es) := by
  induction es generalizing s with
  | nil => exact h
  | cons e es ih => exact ih (h.step hes.1 hes.2.1) hes.2.2

end

/-- **Authorization.** A configured server executes no operation on a namespace for a peer that
never presents a token for it, in any run in which the peer does not name the namespace on the
multiplexed WebSocket. -/
theorem unauthorized_executes_nothing (hashToken : String → String) (app : AppState)
    (hcfg : app.Configured) (p : P) (ns : String) (es : List (Event B P))
    (hes : AllWithheld hashToken p ns (Silent p ns) (.new app) es) (op : Op B) :
    (p, ns, op) ∉ ((Running.new app).run hashToken es).executed :=
  ((Shut.new hcfg).run hes).executed op

/-! ### A server with a global token -/

def answers : Answers := ⟨false, true, true, true, "uuid"⟩

def secretApp : AppState := ⟨⟨some "secret", none⟩, none⟩

def attempts : List (Event Unit Bool) :=
  [.http false (some (.bearer "guess")) (.pull "ns" 0 10) answers, .openWs 0 false "ns",
    .wsMessage 0 (.binary (some (.auth (some ⟨"guess", "ns"⟩)))) answers,
    .http true (some (.bearer "secret")) (.pull "ns" 0 10) answers, .openMux 1 false,
    .muxMessage 1 (.binary (some (.pull (some ("other", 0, 10))))) answers]

theorem unauthorized_executes_nothing_attempts :
    (false, "ns", .pull 0 10) ∉ ((Running.new secretApp).run id attempts).executed := by
  have hguess : ¬ secretApp.Opens id "ns" "guess" := by decide
  refine unauthorized_executes_nothing id secretApp (.inl rfl) false "ns" attempts ?_ (.pull 0 10)
  exact ⟨fun _ => hguess, trivial, trivial, trivial, fun _ => hguess, trivial, nofun, trivial,
    trivial, trivial, trivial, fun _ => (by decide : "other" ≠ "ns"), trivial⟩

def muxed (frame : Frame Unit) : List (Event Unit Bool) :=
  [.openMux 0 false, .muxMessage 0 (.binary (some frame)) answers]

/-- Without any token a peer pulls and registers there. -/
theorem mux_executes :
    ((Running.new secretApp).run id (muxed (.pull (some ("ns", 0, 10))))).executed =
      [(false, "ns", .pull 0 10)] ∧
    ((Running.new secretApp).run id
      (muxed (.namespaceAdd (some ⟨"ns", "r", (), 0, 0⟩)))).executed =
      [(false, "ns", .register ⟨"r", "ns", (), 0⟩ 0), (false, "ns", .schemaVersion),
        (false, "ns", .listSnapshots)] :=
  ⟨rfl, rfl⟩

end VaultSync.Server
