import VaultSync.Sync.UploadOnce

/-! Which uploads a batch pushes when some of the waiting entries are backed off. -/

namespace VaultSync.UploadQueue

open Async AsyncFn World RetryEngine List

variable {B α : Type} {L : Lib B} {cfg : Config} {n : ℕ} {w : World B} {now : String → ℕ}

def UpAt (now : String → ℕ) (_ : Call B) (e : Env B) (_ : World B) : Prop :=
  e.storageFault = none ∧ e.instants = now

def IsPush (ns : String) : Call B → Prop
  | .push ns' ms => ns' = ns ∧ ms ≠ []
  | _ => False

/-- Some upload of a batch begun in `w` at `now` is pushed, whatever the coordinator answers. -/
def Pushes (L : Lib B) (cfg : Config) (n : ℕ) (now : String → ℕ) (w : World B) : Prop :=
  Awaits (machine n (UpAt now)) (IsPush cfg.namespace) (processBatch L cfg) w

section Rules

variable {p : Call B → Prop}

lemma awaits_readPendingOplog {ns : String} {limit : ℕ} {f : List (OplogEntry B) → AsyncFn B α}
    (hp : ¬ p (.readPendingOplog ns limit)) :
    Awaits (machine n (UpAt now)) p (readPendingOplog ns limit >>= f) w ↔
      Awaits (machine n (UpAt now)) p (f (w.storage.readPendingOplog ns limit)) w := by
  have hanswer : ∀ e : Env B, e.storageFault = none →
      handle n (.readPendingOplog ns limit) e w =
        (.ok (w.storage.readPendingOplog ns limit), w) := by
    intro e he
    simp only [handle, onStorage, he]
    rfl
  constructor
  · intro h
    have hrun := h.resolve_left hp { (default : Env B) with instants := now } ⟨rfl, rfl⟩
    exact hrun
  · intro h
    refine .inr fun e he => ?_
    change Awaits _ p ((Prog.ofExcept (handle n (.readPendingOplog ns limit) e w).1) >>= f)
      (handle n (.readPendingOplog ns limit) e w).2
    rw [hanswer e he.1]
    exact h

lemma awaits_instants {f : (String → ℕ) → AsyncFn B α} (hp : ¬ p .instants) :
    Awaits (machine n (UpAt now)) p (instants >>= f) w ↔
      Awaits (machine n (UpAt now)) p (f now) w := by
  constructor
  · exact fun h => h.resolve_left hp { (default : Env B) with instants := now } ⟨rfl, rfl⟩
  · rintro h
    refine .inr fun e he => ?_
    change Awaits _ p (f e.instants) w
    rw [he.2]
    exact h

end Rules

lemma pushes_iff (honline : w.client.online ≠ some false) :
    Pushes L cfg n now w ↔
      ∃ e ∈ w.storage.readPendingOplog cfg.namespace cfg.uploadBatchSize,
        canRetry cfg w.client now e.id := by
  unfold Pushes
  rw [processBatch]
  change Awaits _ _ (if w.client.online = some false then _ else _) w ↔ _
  rw [if_neg honline, awaits_readPendingOplog id]
  generalize w.storage.readPendingOplog cfg.namespace cfg.uploadBatchSize = raw
  by_cases hraw : raw.isEmpty = true
  · rw [if_pos hraw, isEmpty_iff.1 hraw]
    exact ⟨False.elim, fun ⟨_, he, _⟩ => nomatch he⟩
  rw [if_neg hraw, awaits_instants id]
  set entries := raw.filter fun e => canRetry cfg w.client now e.id with hentries
  change Awaits _ _ (if entries.isEmpty = true then _ else _) w ↔ _
  by_cases hempty : entries.isEmpty = true
  · rw [if_pos hempty]
    refine ⟨False.elim, fun ⟨e, he, hcan⟩ => ?_⟩
    exact filter_eq_nil_iff.1 (hentries ▸ isEmpty_iff.1 hempty) e he hcan
  · rw [if_neg hempty]
    have hne : entries ≠ [] := fun h => hempty (isEmpty_iff.2 h)
    refine ⟨fun _ => ?_, fun _ =>
      .inl ⟨rfl, fun hnil => hne (map_eq_nil_iff.1 hnil)⟩⟩
    obtain ⟨e, he⟩ := exists_mem_of_ne_nil _ hne
    exact ⟨e, mem_filter.1 he⟩

def Ready (cfg : Config) (now : String → ℕ) (w : World B) (e : OplogEntry B) : Prop :=
  e.namespace = cfg.namespace ∧ e.syncStatus.isUploadable ∧ canRetry cfg w.client now e.id

/-- **Backed-off entries.** A client that is online pushes something whenever an entry is ready,
exactly if a ready one is among the first `batch_size` entries that wait for their upload. -/
theorem pushes_of_ready_iff (L : Lib B) (cfg : Config) (n : ℕ) (now : String → ℕ) (w : World B)
    (honline : w.client.online ≠ some false) :
    ((∃ e ∈ w.storage.oplog, Ready cfg now w e) → Pushes L cfg n now w) ↔
      ((∃ e ∈ w.storage.oplog, Ready cfg now w e) →
        ∃ e ∈ (w.storage.oplog.filter fun e =>
          e.namespace = cfg.namespace ∧ e.syncStatus.isUploadable).take cfg.uploadBatchSize,
          Ready cfg now w e) := by
  rw [pushes_iff honline]
  refine imp_congr_right fun _ => exists_congr fun e => and_congr_right fun he => ?_
  have hwaits := decide_eq_true_iff.1 (mem_filter.1 (mem_of_mem_take he)).2
  exact ⟨fun hcan => ⟨hwaits.1, hwaits.2, hcan⟩, fun h => h.2.2⟩

def oneByOne : Config := { Sym.config 0 with uploadBatchSize := 1, maxAttempts := 1 }

theorem twoWaiting_pushes : Pushes Sym.lib oneByOne 0 (fun _ => 0) twoWaiting := by
  refine (pushes_of_ready_iff Sym.lib oneByOne 0 (fun _ => 0) twoWaiting nofun).2
    (fun _ => ?_) ⟨waiting "1" ⟨{5}, ∅⟩, mem_cons_self, rfl, rfl, rfl⟩
  exact ⟨waiting "1" ⟨{5}, ∅⟩, mem_cons_self, rfl, rfl, rfl⟩

def unreachable : Env Sym := { (default : Env Sym) with coordinatorFault := some .notAvailable }

def storageDown : Env Sym := { (default : Env Sym) with storageFault := some (.storage "down") }

def afterMarkFailed : World Sym :=
  (run (machine 0 fun _ _ _ => True) (processBatch Sym.lib oneByOne)
    [default, default, unreachable, default, storageDown] twoWaiting).2

theorem exhausted_blocks :
    Outcome (machine 0 fun _ _ _ => True) (processBatch Sym.lib oneByOne) twoWaiting
        (.error (.storage "down")) afterMarkFailed ∧
      (∀ now, ∃ e ∈ afterMarkFailed.storage.oplog, Ready oneByOne now afterMarkFailed e) ∧
      afterMarkFailed.client.online ≠ some false ∧
      ∀ n now, ¬ Pushes Sym.lib oneByOne n now afterMarkFailed := by
  have honline : afterMarkFailed.client.online ≠ some false := nofun
  have hrun := run_outcome (M := machine 0 fun _ _ _ => True) (processBatch Sym.lib oneByOne)
    [default, default, unreachable, default, storageDown] twoWaiting fun _ _ =>
      ⟨trivial, fun _ _ => trivial⟩
  refine ⟨hrun, fun now => ?_, honline, fun n now h => ?_⟩
  · exact ⟨waiting "2" ⟨{5, 5}, ∅⟩, mem_cons_of_mem _ mem_cons_self, rfl, rfl, rfl⟩
  · obtain ⟨e, he, hcan⟩ := (pushes_iff honline).1 h
    -- the only entry read is the one that ran out of attempts
    obtain rfl : e = waiting "1" ⟨{5}, ∅⟩ := mem_singleton.1 he
    have hexhausted : canRetry oneByOne afterMarkFailed.client now "1" = false := rfl
    exact absurd (hexhausted.symm.trans hcan) Bool.false_ne_true

end VaultSync.UploadQueue
