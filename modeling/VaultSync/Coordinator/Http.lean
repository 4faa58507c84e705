import VaultSync.Async.Registry
import VaultSync.Server.Authorization

/-! `HttpCoordinator` and the server it talks to. The client has one slot for a WebSocket, which
the reader task of each of its connections empties when it ends, and registers its replica over the
WebSocket in the slot, where the server takes a registration only as the second frame. -/

namespace VaultSync.HttpCoordinator

open Async Server List

variable {B P : Type}

structure HttpCoordinatorConfig (P : Type) where
  authToken : Option String
  peer : P

/-- `wsClient` is a table with one key. A handle is the number of its connection. -/
structure State (B P : Type) where
  server : Running B P
  wsClient : Table Unit ℕ

/-- A new connection with what the handshake draws and is answered, the end of a connection, the
end of its reader task, or anything that reaches the server. -/
inductive Event (B P : Type) where
  | subscribe (c : ℕ) (ns replicaId : String) (after : ℕ) (a a' : Answers)
  | close (c : ℕ)
  | readerEnds (c : ℕ)
  | receive (e : Server.Event B P)

def new (app : AppState) : State B P := ⟨.new app, .new⟩

variable (s : Running B P)

def Fresh : Server.Event B P → Bool
  | .openWs c _ _ => (s.ws c).isNone
  | _ => true

def Serves (c : ℕ) : Bool :=
  match s.ws c with
  | some (_, _, .serving _) => true
  | _ => false

def change (server : Running B P) : Event B P → Table.Change Unit ℕ
  | .subscribe c .. => if Serves server c then .register c () else .idle
  | .close c => .leave c (fun _ => false) fun _ => true
  | .readerEnds c => .leave c (fun _ => true) fun _ => false
  | .receive _ => .idle

/-- What keeps the newest connection in the slot: no reader task ends while it is open. -/
def Keeps (s : State B P) : Event B P → Prop
  | .readerEnds _ => s.wsClient.latest () = none
  | _ => True

/-! ### The server after the handshakes -/

/-- `register` of the client, by the message it sends: whatever the namespace of the WebSocket,
unless the writer task of that has ended and takes no frame. -/
def register (cfg : HttpCoordinatorConfig P) (s : State B P) (ns : String)
    (info : Server.ReplicaInfo B) (lastSequence : ℕ) (taken : Bool) (a : Answers) :
    Server.Event B P :=
  let post := .http cfg.peer (cfg.authToken.map .bearer) (.register ns info) a
  match s.wsClient.entry () with
  | some c =>
    if taken then
      .wsMessage c (.binary (some (.register (some
        ⟨ns, info.replicaId, info.publicKey, info.schemaVersion, lastSequence⟩)))) a
    else post
  | none => post

def ReturnsOk (hashToken : String → String) (app : AppState) : Server.Event B P → Prop
  | .http _ auth r a => (route hashToken app auth a r).1.1 = .ok
  | _ => True

def Executes (ns : String) (info : Server.ReplicaInfo B) : Prop :=
  ∃ p info' lastSequence, (p, ns, Op.register info' lastSequence) ∈ s.executed ∧
    info'.replicaId = info.replicaId ∧ info'.publicKey = info.publicKey ∧
      info'.schemaVersion = info.schemaVersion

def Served : WsPhase → Prop
  | .serving _ | .closed => True
  | _ => False

def Established (c : ℕ) : Prop :=
  ∃ p ns phase, s.ws c = some (p, ns, phase) ∧ Served phase

section

variable {hashToken : String → String} {s : Running B P} {ns : String} {a : Answers} {c : ℕ}

lemma served_handleWsSession {st : AppState} {phase : WsPhase}
    (h : Served phase) (m : Incoming B) : Served (handleWsSession hashToken st ns a m phase).1 := by
  cases phase with
  | auth => cases h
  | register => cases h
  | closed => trivial
  | serving replicaId =>
    change Served (wsServe ns replicaId m).1
    unfold wsServe
    split <;> trivial

lemma Established.step (h : Established s c) {e : Server.Event B P}
    (hfresh : Fresh s e) : Established (s.step hashToken e) c := by
  obtain ⟨p, ns, phase, hc, hphase⟩ := h
  cases e with
  | http p' auth r a | openMux c' p' => exact ⟨p, ns, phase, hc, hphase⟩
  | openWs c' p' ns' =>
    have hne : c ≠ c' := by
      rintro rfl
      rw [Fresh, hc] at hfresh
      cases hfresh
    exact ⟨p, ns, phase, (if_neg hne).trans hc, hphase⟩
  | wsMessage c' m a =>
    by_cases hcc : c = c'
    · subst hcc
      refine ⟨p, ns, (handleWsSession hashToken s.app ns a m phase).1, ?_,
        served_handleWsSession hphase m⟩
      simp [Running.step, Running.execute, hc]
    · refine ⟨p, ns, phase, ?_, hphase⟩
      rw [← hc]
      unfold Running.step
      dsimp only
      split
      · rfl
      · exact if_neg hcc
  | muxMessage c' m a =>
    refine ⟨p, ns, phase, ?_, hphase⟩
    rw [← hc]
    unfold Running.step
    dsimp only
    split <;> rfl

lemma step_register (h : Established s c) (p : Option (RegisterPayload B)) (a : Answers) :
    s.step hashToken (.wsMessage c (.binary (some (.register p))) a) = s := by
  obtain ⟨peer, ns, phase, hc, hphase⟩ := h
  have hignored : handleWsSession hashToken s.app ns a (.binary (some (.register p))) phase =
      (phase, []) := by
    cases phase with
    | auth | register => cases hphase
    | serving replicaId => rfl
    | closed => rfl
  have hws : (fun c' => if c' = c then some (peer, ns, phase) else s.ws c') = s.ws := by
    funext c'
    split_ifs with hcc
    · rw [hcc, hc]
    · rfl
  simp [Running.step, hc, hignored, hws, Running.execute]

lemma Serves.established (h : Serves s c) : Established s c := by
  unfold Serves at h
  split at h
  · rename_i p ns replicaId hc
    exact ⟨p, ns, .serving replicaId, hc, trivial⟩
  · cases h

lemma executed_subset_step (e : Server.Event B P) : s.executed ⊆ (s.step hashToken e).executed := by
  cases e with
  | http p auth r a => exact subset_append_left _ _
  | openWs c p ns | openMux c p => exact List.Subset.refl _
  | wsMessage c m a | muxMessage c m a =>
    unfold Running.step
    dsimp only
    split
    · exact List.Subset.refl _
    · exact subset_append_left _ _

lemma authorizeNamespace_ne_ok (st : AppState) (auth : Option Authorization) (ns : String)
    (a : Answers) : authorizeNamespace hashToken st auth ns a ≠ .error .ok := by
  unfold authorizeNamespace
  intro herr
  split at herr
  · split_ifs at herr
    cases herr
  · split at herr
    · split_ifs at herr
      split at herr
      · split at herr <;> cases herr
      · cases herr
    · cases herr

lemma executes_register {info : Server.ReplicaInfo B} {p : P} {auth : Option Authorization}
    (hok : (route hashToken s.app auth a (.register ns info)).1.1 = .ok) :
    Executes (s.step hashToken (.http p auth (.register ns info) a)) ns info := by
  have hops : (registerReplica hashToken info s.app auth ns a).2 = [(ns, .register info 0)] := by
    change (namespaceRoute hashToken (.register info 0) s.app auth ns a).1 = .ok at hok
    unfold registerReplica namespaceRoute at *
    split at hok
    · rename_i status herr
      cases (hok : status = .ok)
      exact absurd herr (authorizeNamespace_ne_ok s.app auth ns a)
    · rfl
  refine ⟨p, info, 0, mem_append_right _ ?_, rfl, rfl, rfl⟩
  rw [hops]
  exact mem_cons_self

end

/-! ### The client and the server -/

variable [EmptyCollection B] (cfg : HttpCoordinatorConfig P)

/-- The handshakes of `try_connect_ws`. A server that refuses the first frame takes no other. -/
def handshakes (c : ℕ) (ns replicaId : String) (after : ℕ)
    (a a' : Answers) : List (Server.Event B P) :=
  [.wsMessage c (.binary (some (.auth (some ⟨cfg.authToken.getD "", ns⟩)))) a,
    .wsMessage c (.binary (some (.register (some ⟨ns, replicaId, ∅, 0, after⟩)))) a']

def serverEvents : Event B P → List (Server.Event B P)
  | .subscribe c ns replicaId after a a' =>
    .openWs c cfg.peer ns :: handshakes cfg c ns replicaId after a a'
  | .receive e => [e]
  | _ => []

section

variable (hashToken : String → String) (cfg : HttpCoordinatorConfig P)

def step (s : State B P) (e : Event B P) : State B P :=
  if (serverEvents cfg e).all (Fresh s.server) then
    let server := s.server.run hashToken (serverEvents cfg e)
    ⟨server, s.wsClient.apply (change server e)⟩
  else s

def run (app : AppState) (events : List (Event B P)) : State B P :=
  events.foldl (step hashToken cfg) (new app)

end

/-! ### The newest connection -/

omit [EmptyCollection B] in
lemma owned_change (s : State B P) (server : Running B P) (e : Event B P) :
    s.wsClient.Owned (change server e) ↔ Keeps s e := by
  cases e with
  | subscribe c ns replicaId after a a' =>
    refine iff_of_true ?_ trivial
    dsimp only [change]
    split_ifs <;> trivial
  | close c => exact iff_of_true (fun _ h => nomatch h) trivial
  | readerEnds c =>
    constructor
    · intro h
      refine Option.eq_none_iff_forall_ne_some.2 fun j hj => ?_
      cases (h () rfl j hj).2
    · intro h k _ j hj
      cases h.symm.trans hj
  | receive e => exact Iff.rfl

/-- **Newest connection.** In every state of a run the slot holds the connection made last, as long
as that is open, exactly if no reader task of the client ends while it is. -/
theorem newest_kept_iff (hashToken : String → String) (cfg : HttpCoordinatorConfig P)
    (app : AppState) (events : List (Event B P)) :
    (∀ pre post, events = pre ++ post → ∀ c, (run hashToken cfg app pre).wsClient.latest () = some c →
        (run hashToken cfg app pre).wsClient.entry () = some c) ↔
      ∀ pre e post, events = pre ++ e :: post → Keeps (run hashToken cfg app pre) e := by
  have hstep : ∀ (s : State B P) (e : Event B P), s.wsClient.Live →
      ((step hashToken cfg s e).wsClient.Live ↔ Keeps s e) := by
    intro s e hs
    unfold step
    split_ifs with hfresh
    · exact (Table.live_apply_iff hs _).trans (owned_change s _ e)
    · cases e with
      | readerEnds c => exact absurd rfl hfresh
      | close c | subscribe c ns replicaId after a a' | receive e => exact iff_of_true hs trivial
  have hnew : (new app : State B P).wsClient.Live := Table.live_new
  refine Iff.trans ?_ (forall_run_iff hstep hnew events)
  exact ⟨fun h pre post hl _ => h pre post hl, fun h pre post hl => h pre post hl ()⟩

def openServer : AppState := ⟨⟨none, none⟩, none⟩

def answered : Answers := ⟨false, true, true, true, ""⟩

def subscribed (c : ℕ) : Event (List ℕ) Unit := .subscribe c "n" "client" 0 answered answered

/-- The first of two connections closes, and its reader task empties the slot of the second. -/
theorem newest_lost :
    (run id ⟨none, ()⟩ openServer
      [subscribed 0, subscribed 1, .close 0, .readerEnds 0]).wsClient.latest () = some 1 ∧
    (run id ⟨none, ()⟩ openServer
      [subscribed 0, subscribed 1, .close 0, .readerEnds 0]).wsClient.entry () = none := by
  decide

/-! ### Registration -/

section

variable {hashToken : String → String} {cfg : HttpCoordinatorConfig P} {s : Running B P} {c : ℕ}
  {t : State B P}

section

variable {Q : Running B P → Prop}
  (hstep : ∀ {s e}, Fresh s e → Q s → Q (s.step hashToken e))

include hstep

lemma holds_serverEvents (h : Q s) {e : Event B P} (hfresh : (serverEvents cfg e).all (Fresh s)) :
    Q (s.run hashToken (serverEvents cfg e)) := by
  cases e with
  | close c' => exact h
  | readerEnds c' => exact h
  | receive e => exact hstep (all_eq_true.1 hfresh e mem_cons_self) h
  | subscribe c' ns replicaId after a a' =>
    have hopen : Q (s.step hashToken (.openWs c' cfg.peer ns)) :=
      hstep (all_eq_true.1 hfresh _ mem_cons_self) h
    simp only [serverEvents, handshakes, Running.run, foldl_cons, foldl_nil]
    exact hstep rfl (hstep rfl hopen)

lemma holds_step (h : Q t.server) (e : Event B P) : Q (step hashToken cfg t e).server := by
  unfold step
  split_ifs with hfresh
  · exact holds_serverEvents hstep h hfresh
  · exact h

lemma holds_foldl (h : Q t.server) (events : List (Event B P)) :
    Q (events.foldl (step hashToken cfg) t).server := by
  induction events generalizing t with
  | nil => exact h
  | cons e events ih => exact ih (holds_step hstep h e)

end

lemma established_slot (app : AppState) (events : List (Event B P))
    (hc : (run hashToken cfg app events).wsClient.entry () = some c) :
    Established (run hashToken cfg app events).server c := by
  induction events using List.reverseRecOn generalizing c with
  | nil => cases hc
  | append_singleton events e ih =>
    unfold run at hc ⊢
    rw [foldl_append] at hc ⊢
    change (step hashToken cfg (run hashToken cfg app events) e).wsClient.entry () = some c at hc
    change Established (step hashToken cfg (run hashToken cfg app events) e).server c
    by_cases hold : (run hashToken cfg app events).wsClient.entry () = some c
    · exact holds_step (Q := (Established · c)) (fun hfresh h => h.step hfresh) (ih hold) e
    · unfold step at hc ⊢
      split_ifs at hc ⊢ with hfresh
      · cases e with
        | subscribe c' ns replicaId after a a' =>
          dsimp only [change] at hc
          split_ifs at hc with hserves
          · obtain rfl : c' = c := Option.some.inj hc
            exact Serves.established hserves
          · exact absurd hc hold
        | close c' | receive e => exact absurd hc hold
        | readerEnds c' => cases hc
      · exact absurd hc hold

lemma executed_subset_foldl (t : State B P) (events : List (Event B P)) :
    t.server.executed ⊆ (events.foldl (step hashToken cfg) t).server.executed :=
  holds_foldl (Q := fun s => t.server.executed ⊆ s.executed)
    (fun _ h => List.Subset.trans h (executed_subset_step _)) (List.Subset.refl _) events

end

/-- **Registration.** Of a call that returns `Ok`, once the server has got its message, among any
others: the registration is executed exactly if the slot was empty, or the writer task had ended, or
the other messages make the server execute it. -/
theorem register_executed_iff (hashToken : String → String) (cfg : HttpCoordinatorConfig P)
    (app : AppState) (pre mid post : List (Event B P)) (ns : String) (info : Server.ReplicaInfo B)
    (lastSequence : ℕ) (taken : Bool) (a : Answers)
    (hok : ReturnsOk hashToken (run hashToken cfg app (pre ++ mid)).server.app
      (register cfg (run hashToken cfg app pre) ns info lastSequence taken a)) :
    Executes (run hashToken cfg app (pre ++ mid ++ .receive
        (register cfg (run hashToken cfg app pre) ns info lastSequence taken a) :: post)).server
        ns info ↔
      (run hashToken cfg app pre).wsClient.entry () = none ∨ taken = false ∨
        Executes (run hashToken cfg app (pre ++ mid ++ post)).server ns info := by
  generalize hmsg : register cfg (run hashToken cfg app pre) ns info lastSequence taken a = msg
    at hok ⊢
  have hpost : run hashToken cfg app (pre ++ mid ++ .receive msg :: post) =
      post.foldl (step hashToken cfg)
        (step hashToken cfg (run hashToken cfg app (pre ++ mid)) (.receive msg)) := by
    rw [run, foldl_append]
    rfl
  have hhttp (hreg : msg = .http cfg.peer (cfg.authToken.map .bearer) (.register ns info) a) :
      Executes (run hashToken cfg app (pre ++ mid ++ .receive msg :: post)).server ns info := by
    rw [hreg] at hok hpost ⊢
    rw [hpost]
    obtain ⟨p, info', lastSequence', hmem, hinfo⟩ := executes_register (p := cfg.peer) hok
    exact ⟨p, info', lastSequence', executed_subset_foldl _ post hmem, hinfo⟩
  cases hslot : (run hashToken cfg app pre).wsClient.entry () with
  | none => exact iff_of_true (hhttp (by simp [← hmsg, register, hslot])) (.inl rfl)
  | some c =>
    cases taken with
    | false =>
      exact iff_of_true (hhttp (by simp only [← hmsg, register, hslot]; rfl)) (.inr (.inl rfl))
    | true =>
      have hc : Established (run hashToken cfg app (pre ++ mid)).server c := by
        rw [run, foldl_append]
        exact holds_foldl (Q := (Established · c)) (fun hfresh h => h.step hfresh)
          (established_slot app pre hslot) mid
      have hsame : step hashToken cfg (run hashToken cfg app (pre ++ mid)) (.receive msg) =
          run hashToken cfg app (pre ++ mid) := by
        simp only [← hmsg, register, hslot, if_true]
        unfold step
        refine (if_pos rfl).trans ?_
        simp only [serverEvents, Running.run, foldl_cons, foldl_nil, step_register hc]
        rfl
      have hrun : run hashToken cfg app (pre ++ mid ++ post) =
          post.foldl (step hashToken cfg) (run hashToken cfg app (pre ++ mid)) :=
        foldl_append
      rw [hpost, hsame, ← hrun]
      simp

theorem register_executed_over_http :
    (run id ⟨none, ()⟩ openServer [subscribed 0]).wsClient.entry () = some 0 ∧
      Executes (run id ⟨none, ()⟩ openServer ([subscribed 0] ++ [] ++ [.receive
        (register ⟨none, ()⟩ (run id ⟨none, ()⟩ openServer [subscribed 0]) "n"
          ⟨"r", "n", [7], 1⟩ 0 false answered)])).server "n" ⟨"r", "n", [7], 1⟩ :=
  ⟨by decide, (register_executed_iff id ⟨none, ()⟩ openServer [subscribed 0] [] [] "n"
    ⟨"r", "n", [7], 1⟩ 0 false answered rfl).2 (.inr (.inl rfl))⟩

/-- With the WebSocket open, the call returns `Ok` and the server drops the frame. -/
theorem register_dropped :
    ReturnsOk id (run id ⟨none, ()⟩ openServer [subscribed 0]).server.app
      (register ⟨none, ()⟩ (run id ⟨none, ()⟩ openServer [subscribed 0]) "n"
        ⟨"r", "n", [7], 1⟩ 0 true answered) ∧
    ¬ Executes (run id ⟨none, ()⟩ openServer [subscribed 0, .receive
      (register ⟨none, ()⟩ (run id ⟨none, ()⟩ openServer [subscribed 0]) "n"
        ⟨"r", "n", [7], 1⟩ 0 true answered)]).server "n" ⟨"r", "n", [7], 1⟩ := by
  have hexecuted : (run id ⟨none, ()⟩ openServer [subscribed 0, .receive
      (register ⟨none, ()⟩ (run id ⟨none, ()⟩ openServer [subscribed 0]) "n"
        ⟨"r", "n", [7], 1⟩ 0 true answered)]).server.executed =
      [((), "n", .register ⟨"client", "n", [], 0⟩ 0), ((), "n", .schemaVersion),
        ((), "n", .listSnapshots)] := rfl
  refine ⟨trivial, ?_⟩
  rintro ⟨p, info, lastSequence, hmem, hid, -⟩
  rw [hexecuted] at hmem
  cases hmem with
  | head => exact absurd hid (by decide)
  | tail _ hmem => exact nomatch hmem

end VaultSync.HttpCoordinator
