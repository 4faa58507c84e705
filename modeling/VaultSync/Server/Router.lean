import VaultSync.Coordinator.Types

/-! The coordinator server: its HTTP routes, the WebSocket of one namespace and the multiplexed
WebSocket, down to the coordinator operations they execute. -/

namespace VaultSync.Server

structure ReplicaInfo (B : Type) where
  replicaId : String
  «namespace» : String
  publicKey : B
  schemaVersion : ℕ

inductive Op (B : Type) where
  | push (mutations : List (EncryptedMutation B))
  | pull (after limit : ℕ)
  | subscribe (after : ℕ)
  | register (info : ReplicaInfo B) (lastSequence : ℕ)
  | listReplicas
  | updateReplicaKey (replicaId : String) (publicKey : B) (keyVersion : ℕ)
  | getReplicaKey (replicaId : String)
  | heartbeat (replicaId : String)
  | schemaVersion
  | getSnapshot (docId recordId : String)
  | storeSnapshot (snapshot : Snapshot B)
  | listSnapshots
  | compactOplog

abbrev Executed (B : Type) := List (String × Op B)

/-! ### Tokens -/

structure ServerConfig where
  authToken : Option String
  adminToken : Option String

structure AppState where
  config : ServerConfig
  tokenStore : Option (String → Option String)

inductive Authorization where
  | bearer (token : String)
  | other
  deriving DecidableEq

inductive StatusCode where
  | ok
  | unauthorized
  | notFound
  | internalServerError
  deriving DecidableEq

/-- What the environment decides while a request is handled: whether the token store fails,
whether the coordinator reports success, whether it found a snapshot, whether the socket takes
an answer, and the token drawn for a namespace. -/
structure Answers where
  storeFails : Bool
  succeeds : Bool
  found : Bool
  sent : Bool
  uuid : String

section

variable (hashToken : String → String)

def storeValidates (store : String → Option String) (ns token : String) (a : Answers) :
    Except String Bool :=
  if a.storeFails then .error "token store"
  else .ok (store ns = some (hashToken token))

def validateToken (st : AppState) (ns token : String) (a : Answers) : Bool :=
  match st.config.authToken with
  | some globalToken => token = globalToken
  | none =>
    match st.tokenStore with
    | some store =>
      if st.config.adminToken.isSome then
        match storeValidates hashToken store ns token a with
        | .ok valid => valid
        | .error _ => false
      else true
    | none => true

def authorizeNamespace (st : AppState) (auth : Option Authorization) (ns : String) (a : Answers) :
    Except StatusCode Unit :=
  match st.config.authToken with
  | some globalToken =>
    if auth = some (.bearer globalToken) then .ok () else .error .unauthorized
  | none =>
    match st.tokenStore with
    | some store =>
      if st.config.adminToken.isSome then
        match auth with
        | some (.bearer token) =>
          match storeValidates hashToken store ns token a with
          | .ok true => .ok ()
          | _ => .error .unauthorized
        | _ => .error .unauthorized
      else .ok ()
    | none => .ok ()

/-! ### HTTP -/

abbrev Reply (B : Type) := StatusCode × Executed B

variable {B : Type}

def namespaceRoute (op : Op B) (st : AppState) (auth : Option Authorization) (ns : String)
    (a : Answers) : Reply B :=
  match authorizeNamespace hashToken st auth ns a with
  | .error status => (status, [])
  | .ok () => (if a.succeeds then .ok else .internalServerError, [(ns, op)])

def pushMutations (mutations : List (EncryptedMutation B)) :=
  namespaceRoute hashToken (.push mutations)

def pullMutations (after limit : ℕ) := namespaceRoute hashToken (.pull after limit : Op B)

def registerReplica (info : ReplicaInfo B) := namespaceRoute hashToken (.register info 0)

def listReplicas := namespaceRoute hashToken (.listReplicas : Op B)

variable (replicaId : String)

def heartbeat := namespaceRoute hashToken (.heartbeat replicaId : Op B)

def getSchemaVersion := namespaceRoute hashToken (.schemaVersion : Op B)

def eventsStream (after : ℕ) := namespaceRoute hashToken (.subscribe after : Op B)

def updateReplicaKey (publicKey : B) (keyVersion : ℕ) :=
  namespaceRoute hashToken (.updateReplicaKey replicaId publicKey keyVersion)

def getReplicaKey := namespaceRoute hashToken (.getReplicaKey replicaId : Op B)

def getSnapshot (docId recordId : String) :=
  namespaceRoute hashToken (.getSnapshot docId recordId : Op B)

/-- The document in the path is not compared with the one in the snapshot. -/
def storeSnapshot (_docId _recordId : String) (snapshot : Snapshot B) :=
  namespaceRoute hashToken (.storeSnapshot snapshot)

def listSnapshots := namespaceRoute hashToken (.listSnapshots : Op B)

def compactOplog := namespaceRoute hashToken (.compactOplog : Op B)

end

section

variable {B : Type} (hashToken : String → String) (st : AppState) (auth : Option Authorization)

def authorizeAdmin : Except StatusCode Unit :=
  match st.config.adminToken with
  | none => .error .notFound
  | some adminToken =>
    if auth = some (.bearer adminToken) then .ok () else .error .unauthorized

def adminRegisterNamespace (ns : String) (token : Option String) (a : Answers) : StatusCode × AppState :=
  match authorizeAdmin st auth with
  | .error status => (status, st)
  | .ok () =>
    match st.tokenStore with
    | none => (.internalServerError, st)
    | some store =>
      if a.storeFails then (.internalServerError, st)
      else
        let hash := hashToken (token.getD a.uuid)
        (.ok, { st with tokenStore := some fun n => if n = ns then some hash else store n })

def adminCompact (ns : String) (a : Answers) : Reply B :=
  match authorizeAdmin st auth with
  | .error status => (status, [])
  | .ok () => (if a.succeeds then .ok else .internalServerError, [(ns, .compactOplog)])

def adminGetSnapshot (ns docId recordId : String) (a : Answers) : Reply B :=
  match authorizeAdmin st auth with
  | .error status => (status, [])
  | .ok () =>
    (if a.succeeds then (if a.found then .ok else .notFound) else .internalServerError,
      [(ns, .getSnapshot docId recordId)])

/-- The routes with what their extractors take from the request. -/
inductive Request (B : Type) where
  | health
  | push (ns : String) (mutations : List (EncryptedMutation B))
  | pull (ns : String) (after limit : ℕ)
  | register (ns : String) (info : ReplicaInfo B)
  | replicas (ns : String)
  | putKey (ns replicaId : String) (publicKey : B) (keyVersion : ℕ)
  | getKey (ns replicaId : String)
  | heartbeat (ns replicaId : String)
  | schemaVersion (ns : String)
  | getSnapshot (ns docId recordId : String)
  | postSnapshot (ns docId recordId : String) (snapshot : Snapshot B)
  | snapshots (ns : String)
  | compact (ns : String)
  | events (ns : String) (after : ℕ)
  | adminNamespace (ns : String) (token : Option String)
  | adminCompact (ns : String)
  | adminSnapshot (ns docId recordId : String)

/-- `build_router`, the WebSocket routes apart: the answer and the state after it. -/
def route (a : Answers) : Request B → Reply B × AppState
  | .health => ((.ok, []), st)
  | .push ns mutations => (pushMutations hashToken mutations st auth ns a, st)
  | .pull ns after limit => (pullMutations hashToken after limit st auth ns a, st)
  | .register ns info => (registerReplica hashToken info st auth ns a, st)
  | .replicas ns => (listReplicas hashToken st auth ns a, st)
  | .putKey ns replicaId publicKey keyVersion =>
    (updateReplicaKey hashToken replicaId publicKey keyVersion st auth ns a, st)
  | .getKey ns replicaId => (getReplicaKey hashToken replicaId st auth ns a, st)
  | .heartbeat ns replicaId => (heartbeat hashToken replicaId st auth ns a, st)
  | .schemaVersion ns => (getSchemaVersion hashToken st auth ns a, st)
  | .getSnapshot ns docId recordId => (getSnapshot hashToken docId recordId st auth ns a, st)
  | .postSnapshot ns docId recordId snapshot =>
    (storeSnapshot hashToken docId recordId snapshot st auth ns a, st)
  | .snapshots ns => (listSnapshots hashToken st auth ns a, st)
  | .compact ns => (compactOplog hashToken st auth ns a, st)
  | .events ns after => (eventsStream hashToken after st auth ns a, st)
  | .adminNamespace ns token =>
    let (status, st) := adminRegisterNamespace hashToken st auth ns token a
    ((status, []), st)
  | .adminCompact ns => (adminCompact st auth ns a, st)
  | .adminSnapshot ns docId recordId => (adminGetSnapshot st auth ns docId recordId a, st)

end

/-! ### Frames -/

structure AuthPayload where
  token : String
  «namespace» : String

structure RegisterPayload (B : Type) where
  «namespace» : String
  replicaId : String
  publicKey : B
  schemaVersion : ℕ
  lastSequence : ℕ

/-- A decoded frame; a payload that does not parse is `none`. The two protocols read a SNAPSHOT
payload as different types. -/
inductive Frame (B : Type) where
  | auth (p : Option AuthPayload)
  | register (p : Option (RegisterPayload B))
  | namespaceAdd (p : Option (RegisterPayload B))
  | namespaceDrop (ns : Option String)
  | push (mutations : Option (List (EncryptedMutation B)))
  | pull (p : Option (String × ℕ × ℕ))
  | schemaSync (p : Option (String × ℕ))
  | subscribe (p : Option (String × ℕ))
  | heartbeat (p : Option (String × String))
  | snapshot (snapshot : Option (Snapshot B)) (p : Option (String × Snapshot B))
  | p2pSignal
  | unknown

/-- What the receiver gets: a binary message, which may not decode, or the end of the
connection (a close, an error or a timeout), or a message of another kind. -/
inductive Incoming (B : Type) where
  | binary (frame : Option (Frame B))
  | ended
  | other

variable {B : Type}

def registered (ns : String) (p : RegisterPayload B) (a : Answers) : Executed B :=
  (ns, .register ⟨p.replicaId, ns, p.publicKey, p.schemaVersion⟩ p.lastSequence) ::
    if a.succeeds then [(ns, .schemaVersion), (ns, .listSnapshots)] else []

/-! ### The WebSocket of a namespace -/

inductive WsPhase where
  | auth
  | register
  | serving (replicaId : String)
  | closed
  deriving DecidableEq

def wsServe (ns replicaId : String) : Incoming B → WsPhase × Executed B
  | .ended => (.closed, [])
  | .binary (some (.push (some mutations))) => (.serving replicaId, [(ns, .push mutations)])
  | .binary (some (.pull (some (_, after, limit)))) => (.serving replicaId, [(ns, .pull after limit)])
  | .binary (some (.schemaSync (some _))) => (.serving replicaId, [(ns, .schemaVersion)])
  | .binary (some (.subscribe (some (_, after)))) => (.serving replicaId, [(ns, .subscribe after)])
  | .binary (some (.heartbeat (some (id, _)))) => (.serving replicaId, [(ns, .heartbeat id)])
  | .binary (some (.snapshot (some s) _)) => (.serving replicaId, [(ns, .storeSnapshot s)])
  | _ => (.serving replicaId, [])

/-- `handle_ws_session`: what a message does in each phase. -/
def handleWsSession (hashToken : String → String) (st : AppState) (ns : String) (a : Answers)
    (m : Incoming B) : WsPhase → WsPhase × Executed B
  | .auth =>
    match m with
    | .binary (some (.auth (some p))) =>
      if p.namespace ≠ ns then (.closed, [])
      else if ¬ validateToken hashToken st ns p.token a then (.closed, [])
      else if a.sent then (.register, [])
      else (.closed, [])
    | _ => (.closed, [])
  | .register =>
    match m with
    | .binary (some (.register (some p))) =>
      (if a.sent then .serving p.replicaId else .closed, registered ns p a)
    | _ => (.closed, [])
  | .serving replicaId => wsServe ns replicaId m
  | .closed => (.closed, [])

/-! ### The multiplexed WebSocket -/

structure MuxState where
  registeredNamespaces : List (String × String)
  closed : Bool

def MuxState.insert (s : MuxState) (ns replicaId : String) : MuxState :=
  { s with registeredNamespaces :=
      (ns, replicaId) :: s.registeredNamespaces.filter fun r => r.1 ≠ ns }

def MuxState.remove (s : MuxState) (ns : String) : MuxState :=
  { s with registeredNamespaces := s.registeredNamespaces.filter fun r => r.1 ≠ ns }

def firstNamespace : List (EncryptedMutation B) → String
  | [] => ""
  | m :: _ => m.namespace

/-- `handle_ws_mux_session`: no frame is authorized. -/
def handleWsMuxSession (a : Answers) (s : MuxState) : Frame B → MuxState × Executed B
  | .namespaceAdd (some p) =>
    (if a.sent then s.insert p.namespace p.replicaId else { s with closed := true },
      registered p.namespace p a)
  | .namespaceDrop (some ns) => (s.remove ns, [])
  | .push (some mutations) =>
    (s, if firstNamespace mutations = "" then [] else [(firstNamespace mutations, .push mutations)])
  | .pull (some (ns, after, limit)) => (s, [(ns, .pull after limit)])
  | .schemaSync (some (ns, _)) => (s, [(ns, .schemaVersion)])
  | .subscribe (some (ns, after)) => (s, [(ns, .subscribe after)])
  | .heartbeat (some (replicaId, ns)) =>
    (s, if ns ≠ "" then [(ns, .heartbeat replicaId)]
      else (s.registeredNamespaces.filter fun r => r.2 = replicaId).map fun r =>
        (r.1, .heartbeat r.2))
  | .snapshot _ (some (ns, snapshot)) =>
    (s, [(ns, .storeSnapshot { snapshot with schemaVersion := 0, createdAt := 0 })])
  | _ => (s, [])

def muxMessage (a : Answers) (s : MuxState) : Incoming B → MuxState × Executed B
  | .ended => ({ s with closed := true }, [])
  | .binary (some frame) => if s.closed then (s, []) else handleWsMuxSession a s frame
  | .binary none | .other => (s, [])

end VaultSync.Server
