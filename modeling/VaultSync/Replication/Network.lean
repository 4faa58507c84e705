import VaultSync.Client.Write
import VaultSync.Sync.PullMerge
import VaultSync.Sync.UploadSpec

/-! Any number of replicas around one coordinator. A step is one call at one replica. -/

namespace VaultSync

open Async AsyncFn World

variable {B ι : Type}

structure Node (B : Type) where
  client : Client B
  lastSequence : ℕ
  storage : InMemoryStorage B
  storeCursor : ℕ

/-- `delivered` records what calls that returned `Ok` handed to each replica. -/
structure Net (ι B : Type) where
  service : Service B
  nodes : ι → Node B
  delivered : ι → List (PendingMutation B)

namespace Net

def world (s : Net ι B) (i : ι) : World B where
  client := (s.nodes i).client
  lastSequence := (s.nodes i).lastSequence
  storage := (s.nodes i).storage
  storeCursor := (s.nodes i).storeCursor
  service := s.service
  reads _ _ := none

variable [DecidableEq ι]

def after (s : Net ι B) (i : ι) (w : World B) (ms : List (PendingMutation B)) : Net ι B where
  service := w.service
  nodes := Function.update s.nodes i ⟨w.client, w.lastSequence, w.storage, w.storeCursor⟩
  delivered := Function.update s.delivered i (s.delivered i ++ ms)

variable {s : Net ι B} {i j : ι} {w : World B} {ms : List (PendingMutation B)}

@[simp] lemma after_service : (s.after i w ms).service = w.service := rfl

@[simp] lemma after_node_self :
    (s.after i w ms).nodes i = ⟨w.client, w.lastSequence, w.storage, w.storeCursor⟩ :=
  Function.update_self _ _ _

lemma after_node_of_ne (h : j ≠ i) : (s.after i w ms).nodes j = s.nodes j :=
  Function.update_of_ne h _ _

@[simp] lemma after_delivered_self : (s.after i w ms).delivered i = s.delivered i ++ ms :=
  Function.update_self _ _ _

lemma after_delivered_of_ne (h : j ≠ i) : (s.after i w ms).delivered j = s.delivered j :=
  Function.update_of_ne h _ _

end Net

inductive Action (B : Type) where
  | insert (k : Key) (fields : List (String × CrdtValue))
  | update (k : Key) (fields : List (String × CrdtValue))
  | delete (k : Key)
  | upload
  | download
  | pushed (m : PendingMutation B)

namespace Action

variable [DecidableEq B]

def prog (L : Lib B) (cfg : Config) : Action B → AsyncFn B ℕ
  | insert k fields => do
    VaultSyncClient.insert L cfg k fields
    return 0
  | update k fields => do
    VaultSyncClient.update L cfg k fields
    return 0
  | delete k => do
    VaultSyncClient.delete L cfg k
    return 0
  | upload => UploadQueue.processBatch L cfg
  | download => DownloadQueue.processBatch L cfg
  | pushed m => do
    let _ ← DownloadQueue.processPushMutation L cfg m
    return 1

omit [DecidableEq B] in
def handed (cfg : Config) (w : World B) : Action B → Except VaultSyncError ℕ → List (PendingMutation B)
  | download, .ok n => (DownloadQueue.pageAt cfg w).take n
  | pushed m, .ok _ => [m]
  | _, _ => []

omit [DecidableEq B] in
def Possible (cfg : Config) (w : World B) : Action B → Prop
  | pushed m => m ∈ w.service.log.mutations cfg.namespace
  | _ => True

end Action

namespace Net

def entries (s : Net ι B) (i : ι) : List (OplogEntry B) :=
  (s.nodes i).storage.oplog.map OplogEntry.written

def NewClient (L : Lib B) (s : Net ι B) (c : ClientId) : Prop :=
  (∀ i k, c ∉ (docState L (s.world i) k).stateVector) ∧
    ∀ i, ∀ e ∈ s.entries i, ∀ u, L.decodeV1 e.yrsUpdate = .ok u → c ∉ u.stateVector

def NewId (s : Net ι B) (id : String) : Prop := ∀ i, ∀ e ∈ s.entries i, e.id ≠ id

def Fresh (L : Lib B) (s : Net ι B) : Call B → Env B → World B → Prop
  | .newClientId, env, _ => s.NewClient L env.clientId
  | .newUuid, env, _ => s.NewId env.uuid
  | _, _, _ => True

variable [DecidableEq ι] [DecidableEq B]

/-- One call at one replica, if `may` allows it there. The storage, the coordinator and the
cursor store may fail at any point. -/
inductive Step (L : Lib B) (cfg : ι → Config) (may : ι → Action B → World B → Prop) :
    Net ι B → Net ι B → Prop
  | call {s : Net ι B} {i : ι} {a : Action B} {r : Except VaultSyncError ℕ} {w : World B} :
      a.Possible (cfg i) (s.world i) → may i a (s.world i) →
      Outcome (machine 0 (s.Fresh L)) (a.prog L (cfg i)) (s.world i) r w →
      Step L cfg may s (s.after i w (a.handed (cfg i) (s.world i) r))

def exec (L : Lib B) (cfg : ι → Config) (s : Net ι B) (i : ι) (a : Action B) (es : List (Env B)) :
    Net ι B :=
  let o := run (machine 0 (s.Fresh L)) (a.prog L (cfg i)) es (s.world i)
  s.after i o.2 (a.handed (cfg i) (s.world i) o.1)

lemma step_exec {L : Lib B} {cfg : ι → Config} {may : ι → Action B → World B → Prop}
    {s : Net ι B} {i : ι} {a : Action B} {es : List (Env B)}
    (hpossible : a.Possible (cfg i) (s.world i)) (hmay : may i a (s.world i))
    (hes : Allowed (machine 0 (s.Fresh L)) (a.prog L (cfg i)) es (s.world i)) :
    Step L cfg may s (s.exec L cfg i a es) := .call hpossible hmay hes.outcome

def Reachable (L : Lib B) (cfg : ι → Config) (may : ι → Action B → World B → Prop) :
    Net ι B → Net ι B → Prop := Relation.ReflTransGen (Step L cfg may)

end Net

end VaultSync
