import VaultSync.Coordinator.Trait

/-! The failover wrapper over a list of coordinators. -/

namespace VaultSync

open List

variable {B Sub ε σ α : Type}

/-- The atomics of the wrapper. `current` is an index of a candidate, so there is one. -/
structure FailoverCoordinator (B Sub ε σ : Type) where
  candidates : List (Coordinator B Sub ε σ)
  current : ℕ
  failureCount : ℕ
  maxFailuresBeforeFailover : ℕ
  current_lt : current < candidates.length

namespace FailoverCoordinator

def new (candidates : List (Coordinator B Sub ε σ)) (h : candidates ≠ []) :
    FailoverCoordinator B Sub ε σ where
  candidates := candidates
  current := 0
  failureCount := 0
  maxFailuresBeforeFailover := 3
  current_lt := length_pos_iff.2 h

variable (f : FailoverCoordinator B Sub ε σ)

def withMaxFailures (n : ℕ) : FailoverCoordinator B Sub ε σ :=
  { f with maxFailuresBeforeFailover := n }

lemma length_pos : 0 < f.candidates.length :=
  Nat.zero_lt_of_lt f.current_lt

def failover : FailoverCoordinator B Sub ε σ :=
  if (f.current + 1) % f.candidates.length ≠ f.current then
    { f with
      current := (f.current + 1) % f.candidates.length
      failureCount := 0
      current_lt := Nat.mod_lt _ f.length_pos }
  else f

/-- The counter is a `u32`; the flag that the source returns is not used. -/
def recordFailure (idx : ℕ) : FailoverCoordinator B Sub ε σ :=
  if idx ≠ f.current then f
  else
    let count := (f.failureCount + 1) % 2 ^ 32
    let f := { f with failureCount := count }
    if f.maxFailuresBeforeFailover ≤ count then f.failover else f

def recordSuccess (idx : ℕ) : FailoverCoordinator B Sub ε σ :=
  if idx = f.current then { f with failureCount := 0 } else f

/-- The loop of `try_coord!` with `remaining` candidates left after this one. -/
def attempts (ask : Coordinator B Sub ε σ → Method ε σ (Except CoordinatorError α)) (es : ℕ → ε)
    (start retries : ℕ) : ℕ → FailoverCoordinator B Sub ε σ → σ →
      Except CoordinatorError α × FailoverCoordinator B Sub ε σ × σ
  | remaining, f, s =>
    let idx := (start + retries) % f.candidates.length
    let coord := f.candidates.get ⟨idx, Nat.mod_lt _ f.length_pos⟩
    match ask coord (es retries) s with
    | (.ok val, s) => (.ok val, f.recordSuccess idx, s)
    | (.error err, s) =>
      if err = .notAvailable ∨ err = .timeout then
        match remaining with
        | 0 => (.error err, f.recordFailure idx, s)
        | n + 1 => attempts ask es start (retries + 1) n (f.recordFailure idx) s
      else (.error err, f, s)

def tryCoord (ask : Coordinator B Sub ε σ → Method ε σ (Except CoordinatorError α)) :
    Method (ℕ → ε) (FailoverCoordinator B Sub ε σ × σ) (Except CoordinatorError α) :=
  fun es s => attempts ask es s.1.current 0 (s.1.candidates.length - 1) s.1 s.2

/-- `impl Coordinator for FailoverCoordinator`: thirteen methods are given. -/
def coordinator : Coordinator B Sub (ℕ → ε) (FailoverCoordinator B Sub ε σ × σ) where
  push ns mutations := tryCoord fun c => c.push ns mutations
  pull ns after limit := tryCoord fun c => c.pull ns after limit
  subscribe ns fromSequence := tryCoord fun c => c.subscribe ns fromSequence
  register ns info lastSequence := tryCoord fun c => c.register ns info lastSequence
  heartbeat ns replicaId := tryCoord fun c => c.heartbeat ns replicaId
  schemaVersion ns := tryCoord fun c => c.schemaVersion ns
  updateReplicaKey ns replicaId publicKey keyVersion :=
    tryCoord fun c => c.updateReplicaKey ns replicaId publicKey keyVersion
  getReplicaKey ns replicaId := tryCoord fun c => c.getReplicaKey ns replicaId
  listReplicas ns := tryCoord fun c => c.listReplicas ns
  getSnapshot ns docId recordId := tryCoord fun c => c.getSnapshot ns docId recordId
  storeSnapshot ns snapshot := tryCoord fun c => c.storeSnapshot ns snapshot
  compactOplog ns := tryCoord fun c => c.compactOplog ns
  listSnapshots ns := tryCoord fun c => c.listSnapshots ns

end FailoverCoordinator

namespace Coordinator

/-- The method itself does what the trait's default body does. -/
def AsDefault (c : Coordinator B Sub ε σ) (e : ε) (s : σ) : Request B → Prop
  | .disconnect => c.disconnect e s = (.ok (), s)
  | .generationId => c.generationId e s = ("", s)
  | .historyPreserved => c.historyPreserved e s = (false, s)
  | .maxSequence => c.maxSequence e s = (0, s)
  | .cursorValidation cursor => c.cursorValidation cursor e s = (.unknown, s)
  | _ => True

def AllAsDefault (c : Coordinator B Sub ε σ) : List (Request B × ε) → σ → Prop
  | [], _ => True
  | (r, e) :: rs, s => c.AsDefault e s r ∧ AllAsDefault c rs (c.call r e s).2

end Coordinator

namespace FailoverCoordinator

/-! ## One candidate -/

variable {c : Coordinator B Sub ε σ} {f : FailoverCoordinator B Sub ε σ}

lemma recordFailure_candidates (idx : ℕ) : (f.recordFailure idx).candidates = f.candidates := by
  unfold recordFailure
  split_ifs
  · rfl
  · dsimp only
    split_ifs
    · unfold failover
      split_ifs <;> rfl
    · rfl

lemma recordSuccess_candidates (idx : ℕ) : (f.recordSuccess idx).candidates = f.candidates := by
  unfold recordSuccess
  split_ifs <;> rfl

lemma tryCoord_single (hf : f.candidates = [c])
    (ask : Coordinator B Sub ε σ → Method ε σ (Except CoordinatorError α)) (es : ℕ → ε) (s : σ) :
    ∃ f' : FailoverCoordinator B Sub ε σ, f'.candidates = [c] ∧
      tryCoord ask es (f, s) = ((ask c (es 0) s).1, f', (ask c (es 0) s).2) := by
  obtain ⟨candidates, current, failureCount, maxFailures, hlt⟩ := f
  subst hf
  have hcoord : (start : ℕ) → [c].get ⟨(start + 0) % [c].length, Nat.mod_lt _ Nat.one_pos⟩ = c := by
    intro start
    exact mem_singleton.1 (get_mem _ _)
  unfold tryCoord attempts
  simp only [hcoord]
  obtain ⟨r, s'⟩ := ask c (es 0) s
  cases r with
  | ok val => exact ⟨_, recordSuccess_candidates _, rfl⟩
  | error err =>
    dsimp only [length_singleton, Nat.sub_self]
    split_ifs
    · exact ⟨_, recordFailure_candidates _, rfl⟩
    · exact ⟨_, rfl, rfl⟩

lemma call_single (hf : f.candidates = [c]) (r : Request B) (es : ℕ → ε) (s : σ) :
    ∃ f' : FailoverCoordinator B Sub ε σ, ∃ a s', f'.candidates = [c] ∧
      coordinator.call r es (f, s) = (a, f', s') ∧
      (c.AsDefault (es 0) s r ↔ (a, s') = c.call r (es 0) s) := by
  -- a method that is given goes to `c`
  have hgiven : ∀ {α : Type} (ask : Coordinator B Sub ε σ → Method ε σ (Except CoordinatorError α)),
      ∃ f' : FailoverCoordinator B Sub ε σ, ∃ a s', f'.candidates = [c] ∧
        tryCoord ask es (f, s) = (a, f', s') ∧ (True ↔ (a, s') = ask c (es 0) s) := by
    intro α ask
    obtain ⟨f', hf', heq⟩ := tryCoord_single hf ask es s
    exact ⟨f', _, _, hf', heq, iff_of_true trivial rfl⟩
  cases r with
  | disconnect | generationId | historyPreserved | maxSequence | cursorValidation cursor =>
    exact ⟨f, _, s, hf, rfl, eq_comm⟩
  | _ => exact hgiven _

def behind (o : (r : Request B) × r.Answer Sub × FailoverCoordinator B Sub ε σ × σ) :
    (r : Request B) × r.Answer Sub × σ := ⟨o.1, o.2.1, o.2.2.2⟩

def direct (rs : List (Request B × (ℕ → ε))) : List (Request B × ε) :=
  rs.map fun p => (p.1, p.2 0)

lemma trace_single_iff (hf : f.candidates = [c]) (rs : List (Request B × (ℕ → ε))) (s : σ) :
    (coordinator.trace rs (f, s)).map behind = c.trace (direct rs) s ↔
      c.AllAsDefault (direct rs) s := by
  induction rs generalizing f s with
  | nil => exact iff_of_true rfl trivial
  | cons p rs ih =>
    obtain ⟨r, es⟩ := p
    obtain ⟨f', a, s', hf', hcall, hiff⟩ := call_single hf r es s
    change _ :: _ = _ :: _ ↔ c.AsDefault (es 0) s r ∧ c.AllAsDefault (direct rs) (c.call r (es 0) s).2
    rw [cons_eq_cons, hcall, hiff]
    -- the first call is the same on both sides, and then the rest starts from the same state
    have hhead : behind ⟨r, a, f', s'⟩ = ⟨r, c.call r (es 0) s⟩ ↔ (a, s') = c.call r (es 0) s := by
      rw [behind, Sigma.mk.injEq]
      exact ⟨fun h => eq_of_heq h.2, fun h => ⟨rfl, heq_of_eq h⟩⟩
    rw [hhead]
    refine and_congr_right fun hsame => ?_
    have hs : (c.call r (es 0) s).2 = s' := (congrArg Prod.snd hsame).symm
    rw [hs]
    exact ih hf' s'

/-- **One candidate.** A sequence of calls goes through the wrapper as it goes to the coordinator
itself, answers and states alike, if and only if the coordinator answers every call of a method
that the wrapper does not give as the trait's default body does. -/
theorem transparent_iff_allAsDefault (c : Coordinator B Sub ε σ) (rs : List (Request B × (ℕ → ε)))
    (s : σ) :
    (coordinator.trace rs (new [c] (cons_ne_nil c []), s)).map behind = c.trace (direct rs) s ↔
      c.AllAsDefault (direct rs) s :=
  trace_single_iff rfl rs s

def asListed : HashOrders Unit := ⟨fun l => ⟨l, .refl l⟩, fun l => ⟨l, .refl l⟩⟩

def pushThenMax : List (Request Unit × (ℕ → HashOrders Unit)) :=
  [(.push "a" [⟨"m", "a", "r", "d", "x", (), 0, 0, 1⟩], fun _ => asListed),
    (.maxSequence, fun _ => asListed)]

/-- The in-memory coordinator reports 1, the wrapper over it 0. -/
theorem max_sequence_hidden :
    (coordinator.trace pushThenMax
        (new [InMemoryState.coordinator] (cons_ne_nil _ []), .new)).map behind ≠
      InMemoryState.coordinator.trace (direct pushThenMax) .new := by
  intro hsame
  obtain ⟨-, hmax, -⟩ := (trace_single_iff rfl pushThenMax InMemoryState.new).1 hsame
  exact Nat.one_ne_zero (congrArg Prod.fst hmax)

end FailoverCoordinator

end VaultSync
