import Mathlib.Data.Fintype.Basic

/-! `LeaderElection` on Unix: the instances `I` for one namespace and storage, called by threads
`T`, around one `flock`. Each step is one atomic action of a call: what happens under the mutex
of `lock_handle` is cut where another instance could act. -/

namespace VaultSync.LeaderElection

open Function

inductive AcquireMode where
  | immediate
  | wait

inductive Call (I : Type) where
  | acquire (mode : AcquireMode) (i : I)
  | tryAcquire (i : I)
  | tryAcquireImmediateSync (i : I)
  | release (i : I)

/-- What a call of `acquire_immediate_sync` does with its lease: `acquire` returns it,
`try_acquire_immediate_sync` drops it. -/
inductive Purpose where
  | keep
  | check

inductive Pc (I : Type) where
  | idle
  /-- `acquire` reads `is_leader`. -/
  | acquire (i : I)
  /-- `acquire` takes the stored handle. -/
  | takeStored (i : I)
  /-- `try_acquire` looks for a stored handle. -/
  | tryAcquire (i : I)
  /-- The mutex is locked and the stored handle taken. -/
  | acquireImmediateSync (i : I) (p : Purpose)
  | flock (i : I) (p : Purpose)
  /-- The lock is held by `h`; `is_leader` is set next. -/
  | setLeader (i : I) (p : Purpose) (h : ℕ)
  | dropLease (i : I) (h : ℕ)
  | release (i : I)
  | clearLeader (i : I)

structure State (I T : Type) where
  isLeader : I → Bool
  lockHandle : I → Option ℕ
  mutex : I → Option T
  /-- The open file that holds the `flock`. -/
  lock : Option ℕ
  /-- The leases in the hands of callers, with the instance each is from. -/
  leases : List (I × ℕ)
  pc : T → Pc I
  /-- The next file to be opened. -/
  files : ℕ

inductive Event (I T : Type) where
  | call (t : T) (c : Call I)
  /-- The next action of a thread; with `fault` opening or locking the file fails. -/
  | advance (t : T) (fault : Bool)
  /-- A caller drops its lease. -/
  | dropLease (i : I) (h : ℕ)

variable {I T : Type}

namespace State

section

variable [DecidableEq I] [DecidableEq T]

def new : State I T := ⟨fun _ => false, fun _ => none, fun _ => none, none, [], fun _ => .idle, 0⟩

variable (s : State I T)

def goto (t : T) (p : Pc I) : State I T :=
  { s with pc := Function.update s.pc t p }

def lockMutex (i : I) (t : T) : State I T :=
  { s with mutex := Function.update s.mutex i (some t) }

def unlockMutex (i : I) : State I T :=
  { s with mutex := Function.update s.mutex i none }

def setLeader (i : I) (leader : Bool) : State I T :=
  { s with isLeader := Function.update s.isLeader i leader }

def takeHandle (i : I) : State I T :=
  { s with lockHandle := Function.update s.lockHandle i none }

def close (h : ℕ) : State I T :=
  { s with lock := if s.lock = some h then none else s.lock }

def lease (i : I) (h : ℕ) : State I T := { s with leases := (i, h) :: s.leases }

def start (t : T) : Call I → State I T
  | .acquire _ i => s.goto t (.acquire i)
  | .tryAcquire i => s.goto t (.tryAcquire i)
  | .tryAcquireImmediateSync i => s.goto t (.acquireImmediateSync i .check)
  | .release i => s.goto t (.release i)

def advance (t : T) (fault : Bool) : State I T :=
  match s.pc t with
  | .idle => s
  | .acquire i => s.goto t (if s.isLeader i then .takeStored i else .acquireImmediateSync i .keep)
  | .takeStored i =>
    if s.mutex i ≠ none then s
    else
      match s.lockHandle i with
      | some h => ((s.takeHandle i).lease i h).goto t .idle
      | none => s.goto t (.acquireImmediateSync i .keep)
  | .tryAcquire i =>
    if s.mutex i ≠ none then s
    else
      match s.lockHandle i with
      | some _ => s.goto t .idle
      | none => s.goto t (.acquireImmediateSync i .check)
  | .acquireImmediateSync i p =>
    if s.mutex i ≠ none then s
    else
      match s.lockHandle i with
      | some h => ((s.lockMutex i t).takeHandle i).goto t (.setLeader i p h)
      | none => (s.lockMutex i t).goto t (.flock i p)
  | .flock i p =>
    if fault ∨ s.lock ≠ none then (s.unlockMutex i).goto t .idle
    else { s with lock := some s.files, files := s.files + 1 }.goto t (.setLeader i p s.files)
  | .setLeader i p h =>
    let s := (s.setLeader i true).unlockMutex i
    match p with
    | .keep => (s.lease i h).goto t .idle
    | .check => s.goto t (.dropLease i h)
  | .dropLease _ h => (s.close h).goto t .idle
  | .release i =>
    if s.mutex i ≠ none then s
    else
      match s.lockHandle i with
      | some h => (((s.lockMutex i t).takeHandle i).close h).goto t (.clearLeader i)
      | none => (s.lockMutex i t).goto t (.clearLeader i)
  | .clearLeader i => ((s.setLeader i false).unlockMutex i).goto t .idle

def step : Event I T → State I T
  | .call t c =>
    match s.pc t with
    | .idle => s.start t c
    | _ => s
  | .advance t fault => s.advance t fault
  | .dropLease i h =>
    if (i, h) ∈ s.leases then { s with leases := s.leases.erase (i, h) }.close h else s

def run (es : List (Event I T)) : State I T := es.foldl step s

/-- A lease that is dropped is of an instance that does not pass for the leader any more. -/
def EventOk : Event I T → Prop
  | .call _ _ => True
  | .advance t _ =>
    match s.pc t with
    | .dropLease i _ => s.isLeader i = false
    | _ => True
  | .dropLease i _ => s.isLeader i = false

def AllOk (s : State I T) : List (Event I T) → Prop
  | [] => True
  | e :: es => s.EventOk e ∧ (s.step e).AllOk es

instance : (e : Event I T) → Decidable (s.EventOk e)
  | .call _ _ => inferInstanceAs (Decidable True)
  | .advance t _ =>
    match h : s.pc t with
    | .dropLease i _ => decidable_of_iff (s.isLeader i = false) (by rw [EventOk, h])
    | .idle | .acquire _ | .takeStored _ | .tryAcquire _ | .acquireImmediateSync _ _ | .flock _ _
    | .setLeader _ _ _ | .release _ | .clearLeader _ => isTrue (by rw [EventOk, h]; trivial)
  | .dropLease i _ => inferInstanceAs (Decidable (s.isLeader i = false))

instance : (s : State I T) → (es : List (Event I T)) → Decidable (s.AllOk es)
  | _, [] => inferInstanceAs (Decidable True)
  | s, e :: es =>
    have := instDecidableAllOk (s.step e) es
    inferInstanceAs (Decidable (_ ∧ _))

end

end State

/-! ### Who owns the lock -/

def Pc.handle : Pc I → Option (I × ℕ)
  | .setLeader i _ h | .dropLease i h => some (i, h)
  | _ => none

inductive Owner (I T : Type) where
  | nobody
  | call (t : T) (i : I) (h : ℕ)
  | lease (i : I) (h : ℕ)

namespace Owner

def handle : Owner I T → Option ℕ
  | nobody => none
  | call _ _ h | lease _ h => some h

def leases : Owner I T → List (I × ℕ)
  | lease i h => [(i, h)]
  | _ => []

def instance? : Owner I T → Option I
  | nobody => none
  | call _ i _ | lease i _ => some i

end Owner

/-- The owner has the only open file, only its instance can pass for the leader, and no instance
stores a handle. -/
structure Owned (s : State I T) (o : Owner I T) : Prop where
  lock : s.lock = o.handle
  leases : s.leases = o.leases
  calls : ∀ t i h, (s.pc t).handle = some (i, h) ↔ o = .call t i h
  leader : ∀ i, s.isLeader i = true → o.instance? = some i
  stored : ∀ i, s.lockHandle i = none

variable {s : State I T} {o : Owner I T} {t : T} {i : I} {h : ℕ}

lemma Owned.new : Owned (.new : State I T) .nobody where
  lock := rfl
  leases := rfl
  calls _ _ _ := ⟨nofun, nofun⟩
  leader _ := nofun
  stored _ := rfl

lemma Owned.ne_call (ho : Owned s o) (hpc : (s.pc t).handle = none) : o ≠ .call t i h := by
  intro heq
  have hcall := (ho.calls t i h).2 heq
  rw [hpc] at hcall
  cases hcall

lemma Owned.no_leader (ho : Owned s o) (hi : o.instance? = some i) (hflag : s.isLeader i = false)
    (j : I) : s.isLeader j ≠ true := by
  intro hj
  have heq : some i = some j := hi.symm.trans (ho.leader j hj)
  cases heq
  rw [hflag] at hj
  cases hj

lemma close_lock (hlock : s.lock = some h) : (s.close h).lock = none := if_pos hlock

section

variable [DecidableEq T] {p : Pc I}

lemma Owned.goto (ho : Owned s o) (hpc : (s.pc t).handle = none)
    (hp : p.handle = none) : Owned (s.goto t p) o where
  lock := ho.lock
  leases := ho.leases
  calls t' i h := by
    by_cases heq : t' = t
    · subst heq
      change (update s.pc t' p t').handle = _ ↔ _
      rw [update_self, hp]
      exact ⟨nofun, fun heq => absurd heq (ho.ne_call hpc)⟩
    · change (update s.pc t p t').handle = _ ↔ _
      rw [update_of_ne heq]
      exact ho.calls t' i h
  leader := ho.leader
  stored := ho.stored

lemma Owned.calls_goto (ho : Owned s o) (hown : ∀ t' i h, o = .call t' i h → t' = t)
    {o' : Owner I T} (hown' : ∀ t' i h, o' = .call t' i h → t' = t)
    (hp : ∀ i h, p.handle = some (i, h) ↔ o' = .call t i h) (t' : T) (i : I) (h : ℕ) :
    (update s.pc t p t').handle = some (i, h) ↔ o' = .call t' i h := by
  by_cases heq : t' = t
  · subst heq
    rw [update_self]
    exact hp i h
  · rw [update_of_ne heq, ho.calls]
    exact iff_of_false (heq ∘ hown t' i h) (heq ∘ hown' t' i h)

lemma Owned.acquired (ho : Owned s .nobody) (t : T) (i : I) (p : Purpose) (h files : ℕ) :
    Owned ({ s with lock := some h, files := files }.goto t (.setLeader i p h)) (.call t i h) where
  lock := rfl
  leases := ho.leases
  calls := ho.calls_goto nofun (by rintro _ _ _ ⟨⟩; rfl)
    (fun _ _ => ⟨by rintro ⟨⟩; rfl, by rintro ⟨⟩; rfl⟩)
  leader j hj := by cases ho.leader j hj
  stored := ho.stored

lemma Owned.checked (ho : Owned s (.call t i h)) :
    Owned (s.goto t (.dropLease i h)) (.call t i h) where
  lock := ho.lock
  leases := ho.leases
  calls := ho.calls_goto (by rintro _ _ _ ⟨⟩; rfl) (by rintro _ _ _ ⟨⟩; rfl)
    (fun _ _ => ⟨by rintro ⟨⟩; rfl, by rintro ⟨⟩; rfl⟩)
  leader := ho.leader
  stored := ho.stored

lemma Owned.leased (ho : Owned s (.call t i h)) :
    Owned ((s.lease i h).goto t .idle) (.lease i h) where
  lock := ho.lock
  leases := congrArg (List.cons (i, h)) ho.leases
  calls := ho.calls_goto (by rintro _ _ _ ⟨⟩; rfl) nofun (fun _ _ => ⟨nofun, nofun⟩)
  leader := ho.leader
  stored := ho.stored

lemma Owned.dropped (ho : Owned s (.call t i h)) (hflag : s.isLeader i = false) :
    Owned ((s.close h).goto t .idle) .nobody where
  lock := close_lock ho.lock
  leases := ho.leases
  calls := ho.calls_goto (by rintro _ _ _ ⟨⟩; rfl) nofun (fun _ _ => ⟨nofun, nofun⟩)
  leader j hj := absurd hj (ho.no_leader rfl hflag j)
  stored := ho.stored

lemma Owned.start (ho : Owned s o) (hpc : s.pc t = .idle) (c : Call I) : Owned (s.start t c) o := by
  have hnone : (s.pc t).handle = none := by rw [hpc]; rfl
  cases c with
  | acquire mode i | tryAcquire i | tryAcquireImmediateSync i | release i => exact ho.goto hnone rfl

end

variable [DecidableEq I]

lemma Owned.lockMutex (ho : Owned s o) (i : I) (t : T) : Owned (s.lockMutex i t) o :=
  { ho with }

lemma Owned.unlockMutex (ho : Owned s o) (i : I) : Owned (s.unlockMutex i) o :=
  { ho with }

lemma Owned.setLeader (ho : Owned s o) (b : Bool) (hi : b = true → o.instance? = some i) :
    Owned (s.setLeader i b) o where
  lock := ho.lock
  leases := ho.leases
  calls := ho.calls
  leader j hj := by
    change update s.isLeader i b j = true at hj
    by_cases heq : j = i
    · subst heq
      rw [update_self] at hj
      exact hi hj
    · rw [update_of_ne heq] at hj
      exact ho.leader j hj
  stored := ho.stored

lemma Owned.leaseDropped (ho : Owned s o) (hmem : (i, h) ∈ s.leases)
    (hflag : s.isLeader i = false) :
    Owned ({ s with leases := s.leases.erase (i, h) }.close h) .nobody := by
  rw [ho.leases] at hmem
  cases o with
  | nobody | call t i' h' => cases hmem
  | lease i' h' =>
    obtain ⟨rfl, rfl⟩ : i = i' ∧ h = h' := by simpa [Owner.leases] using hmem
    refine ⟨close_lock ho.lock, ?_, fun t j k => ?_, fun j hj => ?_, ho.stored⟩
    · change s.leases.erase (i, h) = []
      rw [ho.leases]
      exact List.erase_cons_head _ _
    · exact (ho.calls t j k).trans ⟨nofun, nofun⟩
    · exact absurd hj (ho.no_leader rfl hflag j)

variable [DecidableEq T]

/-! ### Every interleaving -/

lemma Owned.advance (ho : Owned s o) (fault : Bool) (hok : s.EventOk (.advance t fault)) :
    ∃ o', Owned (s.advance t fault) o' := by
  unfold State.advance
  have hnone {p : Pc I} (hpc : s.pc t = p) (hp : p.handle = none) : (s.pc t).handle = none := by
    rw [hpc, hp]
  cases hpc : s.pc t with
  | idle => exact ⟨o, ho⟩
  | acquire i =>
    refine ⟨o, ho.goto (hnone hpc rfl) ?_⟩
    split_ifs <;> rfl
  | takeStored i | tryAcquire i =>
    dsimp only
    rw [ho.stored i]
    split_ifs
    · exact ⟨o, ho⟩
    · exact ⟨o, ho.goto (hnone hpc rfl) rfl⟩
  | acquireImmediateSync i p | release i =>
    dsimp only
    rw [ho.stored i]
    split_ifs
    · exact ⟨o, ho⟩
    · exact ⟨o, (ho.lockMutex i t).goto (hnone hpc rfl) rfl⟩
  | flock i p =>
    dsimp only
    split_ifs with hfail
    · exact ⟨o, (ho.unlockMutex i).goto (hnone hpc rfl) rfl⟩
    · rw [not_or, not_not] at hfail
      have hfree := ho.lock.symm.trans hfail.2
      cases o with
      | nobody => exact ⟨_, ho.acquired t i p s.files (s.files + 1)⟩
      | call t' i' h' | lease i' h' => cases hfree
  | setLeader i p h =>
    obtain rfl := (ho.calls t i h).1 (by rw [hpc]; rfl)
    have hset := (ho.setLeader true fun _ => rfl).unlockMutex i
    cases p with
    | keep => exact ⟨_, hset.leased⟩
    | check => exact ⟨_, hset.checked⟩
  | dropLease i h =>
    obtain rfl := (ho.calls t i h).1 (by rw [hpc]; rfl)
    rw [State.EventOk, hpc] at hok
    exact ⟨_, ho.dropped hok⟩
  | clearLeader i => exact ⟨o, ((ho.setLeader false nofun).unlockMutex i).goto (hnone hpc rfl) rfl⟩

lemma Owned.step (ho : Owned s o) {e : Event I T} (hok : s.EventOk e) :
    ∃ o', Owned (s.step e) o' := by
  cases e with
  | call t c =>
    rw [State.step]
    split
    · exact ⟨o, ho.start (by assumption) c⟩
    · exact ⟨o, ho⟩
  | advance t fault => exact ho.advance fault hok
  | dropLease i h =>
    rw [State.step]
    split_ifs with hmem
    · exact ⟨_, ho.leaseDropped hmem hok⟩
    · exact ⟨o, ho⟩

lemma Owned.run {es : List (Event I T)} (ho : Owned s o) (hok : s.AllOk es) :
    ∃ o', Owned (s.run es) o' := by
  induction es generalizing s o with
  | nil => exact ⟨o, ho⟩
  | cons e es ih =>
    obtain ⟨o', ho'⟩ := ho.step hok.1
    exact ih ho' hok.2

/-- **At most one leader.** In every interleaving in which each lease is dropped, by its caller or
by the `try_acquire` calls, only when `is_leader` of its instance is false, at most one instance
passes for the leader. -/
theorem leader_unique {es : List (Event I T)} (hok : (State.new : State I T).AllOk es) {i j : I}
    (hi : (State.new.run es).isLeader i = true) (hj : (State.new.run es).isLeader j = true) :
    i = j := by
  obtain ⟨o, ho⟩ := Owned.new.run hok
  have heq : some i = some j := (ho.leader i hi).symm.trans (ho.leader j hj)
  exact Option.some.inj heq

def calls (c : Call Bool) (n : ℕ) : List (Event Bool Unit) :=
  .call () c :: List.replicate n (.advance () false)

theorem leader_unique_handover :
    (State.new.run (calls (.acquire .immediate false) 4 ++ calls (.release false) 2 ++
      [.dropLease false 0] ++ calls (.acquire .immediate true) 4)).isLeader true = true ∧
    ∀ i, (State.new.run (calls (.acquire .immediate false) 4 ++ calls (.release false) 2 ++
      [.dropLease false 0] ++ calls (.acquire .immediate true) 4)).isLeader i = true → i = true :=
  ⟨by decide, fun _ hi => leader_unique (by decide) hi (by decide)⟩

/-- In these interleavings the lock is held for every instance that passes for the leader, by its
lease or the call that acquires it, and there is no other lease. -/
theorem leader_has_lock {es : List (Event I T)} (hok : (State.new : State I T).AllOk es) :
    let s : State I T := State.new.run es
    (∀ i, s.isLeader i = true → ∃ h, s.lock = some h ∧
      ((i, h) ∈ s.leases ∨ ∃ t, (s.pc t).handle = some (i, h))) ∧
    ∀ l ∈ s.leases, s.leases = [l] ∧ s.lock = some l.2 := by
  intro s
  obtain ⟨o, ho⟩ := Owned.new.run hok
  constructor
  · intro i hi
    have howner := ho.leader i hi
    cases o with
    | nobody => cases howner
    | call t i' h =>
      cases howner
      exact ⟨h, ho.lock, .inr ⟨t, (ho.calls t _ h).2 rfl⟩⟩
    | lease i' h =>
      cases howner
      exact ⟨h, ho.lock, .inl (ho.leases ▸ List.mem_singleton_self _)⟩
  · intro l hl
    rw [ho.leases] at hl ⊢
    cases o with
    | lease i h =>
      cases List.mem_singleton.1 hl
      exact ⟨rfl, ho.lock⟩
    | nobody | call t i h => cases hl

theorem leader_has_lock_acquired :
    let s := State.new.run (calls (.acquire .immediate false) 4)
    s.isLeader false = true ∧ ∃ h, s.lock = some h ∧
      ((false, h) ∈ s.leases ∨ ∃ t, (s.pc t).handle = some (false, h)) :=
  ⟨by decide, (leader_has_lock (by decide)).1 false (by decide)⟩

/-- Two instances, one after the other: without a release between them a lease that is dropped
leaves its instance the leader, and `try_acquire_immediate_sync` drops the lease it got. -/
theorem leaders_two :
    (∀ i, (State.new.run (calls (.acquire .immediate false) 4 ++ [.dropLease false 0] ++
      calls (.acquire .immediate true) 4)).isLeader i = true) ∧
    ∀ i, (State.new.run (calls (.tryAcquireImmediateSync false) 4 ++
      calls (.tryAcquireImmediateSync true) 4)).isLeader i = true := by
  decide

end VaultSync.LeaderElection
