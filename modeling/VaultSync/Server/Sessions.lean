import VaultSync.Async.Registry
import VaultSync.Server.Router

/-! The sessions map of the server, by which signals find the connection of a replica. A session
that ends removes the entries of its replicas, whoever has registered them since. -/

namespace VaultSync.Server

open Async

variable {B : Type}

inductive Connection where
  | ws (c : ℕ)
  | mux (c : ℕ)
  deriving DecidableEq

/-- What each handler has come to, and the map from namespace and replica to connection. -/
structure SessionRegistry where
  ws : ℕ → WsPhase
  mux : ℕ → MuxState
  sessions : Table (String × String) Connection

namespace SessionRegistry

def new : SessionRegistry := ⟨fun _ => .auth, fun _ => ⟨[], false⟩, .new⟩

def wsChange (c : ℕ) (ns : String) : WsPhase → WsPhase → Table.Change (String × String) Connection
  | .register, .serving replicaId => .register (.ws c) (ns, replicaId)
  | .serving replicaId, .closed => .leave (.ws c) (· = (ns, replicaId)) fun _ => true
  | _, _ => .idle

/-- The map after a message of `handle_ws_mux_session`. A namespace that is added again under
another replica keeps the entry of the first. -/
def muxChange (c : ℕ) (s s' : MuxState) (m : Incoming B) :
    Table.Change (String × String) Connection :=
  if s.closed then .idle
  else if s'.closed then .leave (.mux c) (· ∈ s.registeredNamespaces) fun _ => true
  else
    match m with
    | .binary (some (.namespaceAdd (some p))) => .register (.mux c) (p.namespace, p.replicaId)
    | .binary (some (.namespaceDrop (some ns))) =>
      .leave (.mux c) (fun k => k.1 = ns ∧ k ∈ s.registeredNamespaces) (·.1 = ns)
    | _ => .idle

inductive Event (B : Type) where
  | ws (c : ℕ) (st : AppState) (a : Answers) (m : Incoming B)
  | mux (c : ℕ) (a : Answers) (m : Incoming B)

section

variable (hashToken : String → String) (path : ℕ → String)

def change (r : SessionRegistry) : Event B → Table.Change (String × String) Connection
  | .ws c st a m =>
    wsChange c (path c) (r.ws c) (handleWsSession hashToken st (path c) a m (r.ws c)).1
  | .mux c a m => muxChange c (r.mux c) (muxMessage a (r.mux c) m).1 m

def step (r : SessionRegistry) (e : Event B) : SessionRegistry :=
  let sessions := r.sessions.apply (r.change hashToken path e)
  match e with
  | .ws c st a m =>
    { r with
      ws := Function.update r.ws c (handleWsSession hashToken st (path c) a m (r.ws c)).1
      sessions }
  | .mux c a m =>
    { r with
      mux := Function.update r.mux c (muxMessage a (r.mux c) m).1
      sessions }

def run (events : List (Event B)) : SessionRegistry := events.foldl (step hashToken path) new

variable {hashToken path}

/-- **Session registry.** The map sends the signals for a replica to the connection that registered
it last, in every state of a run in which that is still open and has not dropped the namespace,
exactly if no session that closes or drops a namespace removes an entry of a later one. -/
theorem sessions_live_iff (hashToken : String → String) (path : ℕ → String)
    (events : List (Event B)) :
    (∀ pre post, events = pre ++ post → (run hashToken path pre).sessions.Live) ↔
      ∀ pre e post, events = pre ++ e :: post → (run hashToken path pre).sessions.Owned
        ((run hashToken path pre).change hashToken path e) := by
  have hstep : ∀ (r : SessionRegistry) (e : Event B), r.sessions.Live →
      ((r.step hashToken path e).sessions.Live ↔
        r.sessions.Owned (r.change hashToken path e)) := by
    intro r e hr
    have hsessions : (r.step hashToken path e).sessions =
        r.sessions.apply (r.change hashToken path e) := by cases e <;> rfl
    rw [hsessions]
    exact Table.live_apply_iff hr _
  exact forall_run_iff hstep Table.live_new events

end

/-! ## An older session that closes -/

def fine : Answers := ⟨false, true, true, true, ""⟩

def openServer : AppState := ⟨⟨none, none⟩, none⟩

def connects (c : ℕ) : List (Event Unit) :=
  [.ws c openServer fine (.binary (some (.auth (some ⟨"", "n"⟩)))),
    .ws c openServer fine (.binary (some (.register (some ⟨"n", "r", (), 0, 0⟩))))]

/-- It connects once more before the end of the first connection is noticed. -/
theorem reconnected_not_live :
    (run id (fun _ => "n") (connects 0 ++ connects 1)).sessions.entry ("n", "r") = some (.ws 1) ∧
      ¬ (run id (fun _ => "n")
        (connects 0 ++ connects 1 ++ [.ws 0 openServer fine .ended])).sessions.Live := by
  refine ⟨by decide, fun h => ?_⟩
  have hentry := h ("n", "r") (.ws 1) (by decide)
  revert hentry
  decide

end SessionRegistry

end VaultSync.Server
