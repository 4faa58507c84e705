import Mathlib.Data.Nat.ModEq
import VaultSync.Coordinator.Failover

/-! When the wrapper moves on, told by what the candidates have answered so far. -/

namespace VaultSync.FailoverCoordinator

open List Nat

variable {B Sub ε σ α : Type}

/-! ## The policy -/

inductive Reply where
  | ok
  | unavailable
  | refused
  deriving DecidableEq

def Reply.of : Except CoordinatorError α → Reply
  | .ok _ => .ok
  | .error err => if err = .notAvailable ∨ err = .timeout then .unavailable else .refused

abbrev Attempt := ℕ × Reply

def failures (i : ℕ) (h : List Attempt) : ℕ :=
  (h.reverse.takeWhile (· ≠ (i, .ok))).count (i, .unavailable)

structure Active where
  index : ℕ
  since : List Attempt

/-- The active one of `n` candidates gives way to the next when it has been unavailable `m`
times. -/
def Active.next (n m : ℕ) (p : Active) (t : Attempt) : Active :=
  if failures p.index (p.since ++ [t]) = m then ⟨(p.index + 1) % n, []⟩
  else ⟨p.index, p.since ++ [t]⟩

variable {t : Attempt} {n : ℕ} {p : Active}

/-! ## What the wrapper does with an answer -/

variable {f : FailoverCoordinator B Sub ε σ}

def record (f : FailoverCoordinator B Sub ε σ) (t : Attempt) : FailoverCoordinator B Sub ε σ :=
  match t.2 with
  | .ok => f.recordSuccess t.1
  | .unavailable => f.recordFailure t.1
  | .refused => f

lemma record_candidates (t : Attempt) : (f.record t).candidates = f.candidates := by
  obtain ⟨idx, reply⟩ := t
  cases reply with
  | ok => exact recordSuccess_candidates idx
  | unavailable => exact recordFailure_candidates idx
  | refused => rfl

structure Agrees (n m : ℕ) (f : FailoverCoordinator B Sub ε σ) (p : Active) : Prop where
  length : f.candidates.length = n
  max : f.maxFailuresBeforeFailover = m
  index : f.current = p.index
  count : f.failureCount = failures p.index p.since
  lt : f.failureCount < m

section

variable {m : ℕ} (h : Agrees n m f p)

include h

omit h in
lemma next_of_ne (h : failures p.index (p.since ++ [t]) ≠ m) :
    p.next n m t = ⟨p.index, p.since ++ [t]⟩ := if_neg h

lemma Agrees.other (hok : t ≠ (p.index, .ok)) (hun : t ≠ (p.index, .unavailable)) :
    Agrees n m f (p.next n m t) := by
  have hsame : failures p.index (p.since ++ [t]) = failures p.index p.since := by
    simp [failures, hok, hun]
  have hlt := h.lt
  rw [h.count] at hlt
  rw [next_of_ne (by rw [hsame]; exact hlt.ne)]
  exact ⟨h.length, h.max, h.index, h.count.trans hsame.symm, h.lt⟩

lemma Agrees.success : Agrees n m (f.recordSuccess p.index) (p.next n m (p.index, .ok)) := by
  have hpos : 0 < m := zero_lt_of_lt h.lt
  have hzero : failures p.index (p.since ++ [(p.index, .ok)]) = 0 := by simp [failures]
  rw [next_of_ne (by rw [hzero]; exact hpos.ne), recordSuccess, if_pos h.index.symm]
  exact ⟨h.length, h.max, h.index, hzero.symm, hpos⟩

variable (hn : 2 ≤ n) (hm : m < 2 ^ 32)

include hn hm

lemma Agrees.failure :
    Agrees n m (f.recordFailure p.index) (p.next n m (p.index, .unavailable)) := by
  have hlt := h.lt
  have hcount : (f.failureCount + 1) % 2 ^ 32 = f.failureCount + 1 := mod_eq_of_lt (by omega)
  have hfail : failures p.index (p.since ++ [(p.index, .unavailable)]) = f.failureCount + 1 := by
    simp [failures, h.count]
  unfold recordFailure
  rw [if_neg (not_not.2 h.index.symm)]
  dsimp only
  rw [hcount, h.max]
  by_cases hlast : f.failureCount + 1 = m
  · -- the next candidate is another one
    have hne : (f.current + 1) % f.candidates.length ≠ f.current := by
      have hcur := f.current_lt
      rw [h.length] at hcur ⊢
      rcases lt_or_ge (f.current + 1) n with hin | hend
      · rw [mod_eq_of_lt hin]
        exact succ_ne_self _
      · have heq : f.current + 1 = n := by omega
        rw [heq, mod_self]
        omega
    rw [if_pos hlast.ge, failover, if_pos hne, Active.next, if_pos (hfail.trans hlast)]
    refine ⟨h.length, rfl, ?_, rfl, zero_lt_of_lt hlt⟩
    dsimp only
    rw [h.length, h.index]
  · rw [if_neg (by omega), next_of_ne (by rw [hfail]; exact hlast)]
    exact ⟨h.length, rfl, h.index, hfail.symm, by dsimp only; omega⟩

lemma Agrees.record (t : Attempt) : Agrees n m (f.record t) (p.next n m t) := by
  obtain ⟨idx, reply⟩ := t
  by_cases hidx : idx = p.index
  · subst hidx
    cases reply with
    | ok => exact h.success
    | unavailable => exact h.failure hn hm
    | refused => exact h.other nofun nofun
  · have hsame : f.record (idx, reply) = f := by
      have hne : idx ≠ f.current := h.index ▸ hidx
      cases reply with
      | ok => exact if_neg hne
      | unavailable => exact if_pos hne
      | refused => rfl
    rw [hsame]
    exact h.other (fun heq => hidx (congrArg Prod.fst heq)) fun heq => hidx (congrArg Prod.fst heq)

lemma Agrees.foldl (l : List Attempt) :
    Agrees n m (l.foldl FailoverCoordinator.record f) (l.foldl (Active.next n m) p) := by
  induction l generalizing f p with
  | nil => exact h
  | cons t l ih => exact ih (h.record hn hm t)

end

/-! ## One call -/

section OneCall

variable (ask : Coordinator B Sub ε σ → Method ε σ (Except CoordinatorError α)) (es : ℕ → ε)
  (f : FailoverCoordinator B Sub ε σ) (s : σ)

def candidate (i : ℕ) : Coordinator B Sub ε σ :=
  f.candidates.get ⟨i % f.candidates.length, mod_lt _ f.length_pos⟩

def stateAfter : ℕ → σ
  | 0 => s
  | j + 1 => (ask (f.candidate (f.current + j)) (es j) (stateAfter j)).2

def answer (j : ℕ) : Except CoordinatorError α :=
  (ask (f.candidate (f.current + j)) (es j) (stateAfter ask es f s j)).1

def attemptAt (j : ℕ) : Attempt :=
  ((f.current + j) % f.candidates.length, .of (answer ask es f s j))

/-- The candidates are asked in cyclic order from the active one, each at most once, up to the
first answer that is not `unavailable`; that answer, or the last of all, is returned. -/
def Follows (log : List Attempt) : Prop :=
  ∃ k, k < f.candidates.length ∧
    (∀ j < k, Reply.of (answer ask es f s j) = .unavailable) ∧
    (Reply.of (answer ask es f s k) = .unavailable → k + 1 = f.candidates.length) ∧
    log = (List.range (k + 1)).map (attemptAt ask es f s) ∧ (log.map Prod.fst).Nodup ∧
    tryCoord ask es (f, s) = (answer ask es f s k, log.foldl record f, stateAfter ask es f s (k + 1))

structure EndsAt (g : FailoverCoordinator B Sub ε σ) (retries remaining k : ℕ) : Prop where
  le : retries ≤ k
  bound : k ≤ retries + remaining
  unavailable : ∀ j, retries ≤ j → j < k → Reply.of (answer ask es f s j) = .unavailable
  last : Reply.of (answer ask es f s k) = .unavailable → k = retries + remaining
  result : attempts ask es f.current retries remaining g (stateAfter ask es f s retries) =
    (answer ask es f s k,
      ((List.range' retries (k + 1 - retries)).map (attemptAt ask es f s)).foldl record g,
      stateAfter ask es f s (k + 1))

variable {ask es f s} {g : FailoverCoordinator B Sub ε σ} {retries remaining : ℕ}

section

variable (hg : g.candidates = f.candidates)

include hg

lemma asked (s : σ) (retries : ℕ) : ask (g.candidate (f.current + retries)) (es retries)
      (stateAfter ask es f s retries) =
        (answer ask es f s retries, stateAfter ask es f s (retries + 1)) := by
  obtain ⟨cs, current, failureCount, maxFailures, hlt⟩ := g
  subst hg
  rfl

lemma attempts_eq :
    attempts ask es f.current retries remaining g (stateAfter ask es f s retries) =
      match Reply.of (answer ask es f s retries), remaining with
      | .unavailable, n + 1 => attempts ask es f.current (retries + 1) n
          (g.record (attemptAt ask es f s retries)) (stateAfter ask es f s (retries + 1))
      | _, _ => (answer ask es f s retries, g.record (attemptAt ask es f s retries),
          stateAfter ask es f s (retries + 1)) := by
  have hasked : ask (g.candidate (f.current + retries)) (es retries) _ = _ := asked hg s retries
  unfold attemptAt
  rw [← hg, attempts]
  unfold candidate at hasked
  rw [hasked]
  cases answer ask es f s retries with
  | ok val => rfl
  | error err =>
    unfold Reply.of
    dsimp only
    by_cases hun : err = .notAvailable ∨ err = .timeout
    · simp only [if_pos hun]
      cases remaining <;> rfl
    · simp only [if_neg hun]
      rfl

lemma endsAt_stop (h : Reply.of (answer ask es f s retries) = .unavailable → remaining = 0) :
    EndsAt ask es f s g retries remaining retries where
  le := le_rfl
  bound := le_add_right _ _
  unavailable j hj hlt := absurd hj (not_le.2 hlt)
  last hun := by rw [h hun, add_zero]
  result := by
    rw [attempts_eq hg, Nat.add_sub_cancel_left]
    cases hreply : Reply.of (answer ask es f s retries) with
    | unavailable =>
      obtain rfl := h hreply
      rfl
    | ok | refused => rfl

lemma EndsAt.retry {k : ℕ} (hun : Reply.of (answer ask es f s retries) = .unavailable)
    (h : EndsAt ask es f s (g.record (attemptAt ask es f s retries)) (retries + 1) remaining k) :
    EndsAt ask es f s g retries (remaining + 1) k where
  le := le_of_succ_le h.le
  bound := h.bound.trans (by omega)
  unavailable j hj hlt := by
    rcases eq_or_lt_of_le hj with rfl | hj
    · exact hun
    · exact h.unavailable j hj hlt
  last hlast := (h.last hlast).trans (by omega)
  result := by
    have hle := h.le
    have hrange : List.range' retries (k + 1 - retries) =
        retries :: List.range' (retries + 1) (k + 1 - (retries + 1)) := by
      rw [← List.range'_succ]
      congr 1
      omega
    rw [attempts_eq hg, hun, hrange]
    exact h.result

lemma exists_endsAt (retries remaining : ℕ) : ∃ k, EndsAt ask es f s g retries remaining k := by
  induction remaining generalizing g retries with
  | zero => exact ⟨retries, endsAt_stop hg fun _ => rfl⟩
  | succ remaining ih =>
    by_cases hun : Reply.of (answer ask es f s retries) = .unavailable
    · obtain ⟨k, hk⟩ := ih (g := g.record (attemptAt ask es f s retries))
        ((record_candidates _).trans hg) (retries + 1)
      exact ⟨k, hk.retry hg hun⟩
    · exact ⟨retries, endsAt_stop hg fun h => absurd h hun⟩

end

lemma nodup_cyclic (n start k : ℕ) (hk : k ≤ n) :
    ((List.range k).map fun j => (start + j) % n).Nodup := by
  refine nodup_range.map_on fun i hi j hj heq => ?_
  rw [mem_range] at hi hj
  have hmod : Nat.ModEq n i j := Nat.ModEq.add_left_cancel' start heq
  exact hmod.eq_of_lt_of_lt (by omega) (by omega)

lemma exists_follows (f : FailoverCoordinator B Sub ε σ) (s : σ) :
    ∃ log, Follows ask es f s log := by
  obtain ⟨k, hk⟩ : ∃ k, EndsAt ask es f s f 0 (f.candidates.length - 1) k := exists_endsAt rfl 0 _
  have hpos := f.length_pos
  have hbound := hk.bound
  have hresult := hk.result
  rw [Nat.sub_zero, ← range_eq_range'] at hresult
  refine ⟨_, k, by omega, fun j hj => hk.unavailable j (Nat.zero_le j) hj, fun h => ?_, rfl, ?_,
    hresult⟩
  · have hlast := hk.last h
    omega
  · rw [map_map]
    exact nodup_cyclic f.candidates.length f.current (k + 1) (by omega)

end OneCall

/-! ## Sequences of calls -/

/-- The attempts of a call. A method that the wrapper does not give asks no candidate. -/
def CallFollows (es : ℕ → ε) (f : FailoverCoordinator B Sub ε σ) (s : σ) (log : List Attempt) :
    Request B → Prop
  | .push ns mutations => Follows (fun c => c.push ns mutations) es f s log
  | .pull ns after limit => Follows (fun c => c.pull ns after limit) es f s log
  | .subscribe ns fromSequence => Follows (fun c => c.subscribe ns fromSequence) es f s log
  | .register ns info lastSequence => Follows (fun c => c.register ns info lastSequence) es f s log
  | .heartbeat ns replicaId => Follows (fun c => c.heartbeat ns replicaId) es f s log
  | .schemaVersion ns => Follows (fun c => c.schemaVersion ns) es f s log
  | .updateReplicaKey ns replicaId publicKey keyVersion =>
    Follows (fun c => c.updateReplicaKey ns replicaId publicKey keyVersion) es f s log
  | .getReplicaKey ns replicaId => Follows (fun c => c.getReplicaKey ns replicaId) es f s log
  | .listReplicas ns => Follows (fun c => c.listReplicas ns) es f s log
  | .getSnapshot ns docId recordId => Follows (fun c => c.getSnapshot ns docId recordId) es f s log
  | .storeSnapshot ns snapshot => Follows (fun c => c.storeSnapshot ns snapshot) es f s log
  | .compactOplog ns => Follows (fun c => c.compactOplog ns) es f s log
  | .listSnapshots ns => Follows (fun c => c.listSnapshots ns) es f s log
  | .disconnect | .generationId | .historyPreserved | .maxSequence | .cursorValidation _ => log = []

/-- Each call of the sequence makes its attempts as it should, and after each attempt the active
index is the policy's. -/
def RunFollows (m : ℕ) : List (Request B × (ℕ → ε)) → FailoverCoordinator B Sub ε σ → σ → Active →
    Prop
  | [], _, _, _ => True
  | (r, es) :: rs, f, s, p => ∃ log, CallFollows es f s log r ∧
      (∀ j ≤ log.length, ((log.take j).foldl record f).current =
        ((log.take j).foldl (Active.next f.candidates.length m) p).index) ∧
      (coordinator.call r es (f, s)).2.1 = log.foldl record f ∧
      RunFollows m rs (coordinator.call r es (f, s)).2.1 (coordinator.call r es (f, s)).2.2
        (log.foldl (Active.next f.candidates.length m) p)

lemma exists_callFollows (es : ℕ → ε) (f : FailoverCoordinator B Sub ε σ) (s : σ) (r : Request B) :
    ∃ log, CallFollows es f s log r ∧ (coordinator.call r es (f, s)).2.1 = log.foldl record f := by
  have hgiven : ∀ {α : Type} (ask : Coordinator B Sub ε σ → Method ε σ (Except CoordinatorError α)),
      ∃ log, Follows ask es f s log ∧ (tryCoord ask es (f, s)).2.1 = log.foldl record f := by
    intro α ask
    obtain ⟨log, hlog⟩ : ∃ log, Follows ask es f s log := exists_follows f s
    refine ⟨log, hlog, ?_⟩
    obtain ⟨k, -, -, -, -, -, heq⟩ := hlog
    rw [heq]
  cases r with
  | disconnect | generationId | historyPreserved | maxSequence | cursorValidation cursor =>
    exact ⟨[], rfl, rfl⟩
  | _ => exact hgiven _

lemma Agrees.run {m : ℕ} (h : Agrees n m f p) (hn : 2 ≤ n) (hm : m < 2 ^ 32)
    (rs : List (Request B × (ℕ → ε))) (s : σ) : RunFollows m rs f s p := by
  induction rs generalizing f s p with
  | nil => trivial
  | cons q rs ih =>
    obtain ⟨r, es⟩ := q
    obtain ⟨log, hlog, hcall⟩ := exists_callFollows es f s r
    refine ⟨log, hlog, fun j _ => ?_, hcall, ?_⟩
    · rw [h.length]
      exact (h.foldl hn hm (log.take j)).index
    · rw [hcall, h.length]
      exact ih (h.foldl hn hm log) _

/-- **Failover.** In every sequence of calls each call asks the candidates in cyclic order from
the active one, and the active one gives way to the next exactly when it has been unavailable `m`
times since it became active or last replied `ok`. -/
theorem run_follows_policy (candidates : List (Coordinator B Sub ε σ)) (hn : 2 ≤ candidates.length)
    (m : ℕ) (hm : 1 ≤ m) (hu32 : m < 2 ^ 32) (rs : List (Request B × (ℕ → ε))) (s : σ) :
    RunFollows m rs ((new candidates (ne_nil_of_length_pos (by omega))).withMaxFailures m) s
      ⟨0, []⟩ := by
  have hstart : Agrees candidates.length m ((new candidates (ne_nil_of_length_pos
      (by omega))).withMaxFailures m) ⟨0, []⟩ := ⟨rfl, rfl, rfl, rfl, hm⟩
  exact hstart.run hn hu32 rs s

def unreachable : Coordinator Unit InMemorySubscription (HashOrders Unit) (InMemoryState Unit) :=
  { InMemoryState.coordinator with push := fun _ _ _ s => (.error .notAvailable, s) }

theorem run_follows_policy_unreachable :
    RunFollows 1 pushThenMax
        ((new [unreachable, InMemoryState.coordinator] (cons_ne_nil _ _)).withMaxFailures 1) .new
        ⟨0, []⟩ ∧
      (coordinator.call (.push "a" []) (fun _ => asListed)
        ((new [unreachable, InMemoryState.coordinator] (cons_ne_nil _ _)).withMaxFailures 1,
          .new)).2.1.current = 1 :=
  ⟨run_follows_policy [unreachable, InMemoryState.coordinator] (by decide) 1 (by decide) (by decide)
    pushThenMax .new, by decide +kernel⟩

end VaultSync.FailoverCoordinator
