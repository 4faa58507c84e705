import Mathlib.Data.List.Sort

/-! A log whose new items are broadcast after its lock is released, and one listener that first
reads the log and then receives from a bounded broadcast queue. Requests, broadcasts and the
listener's steps interleave in any order. -/

namespace Feed

open List

variable {σ ρ α : Type}

/-- `push` gives the items a request broadcasts and the store after it. A listener that
`rereads` reads the store again when its queue has dropped items. -/
structure Source (σ ρ α : Type) where
  push : σ → ρ → List α × σ
  read : σ → ℕ → List α
  mine : α → Bool
  seq : α → ℕ
  capacity : ℕ
  rereads : Bool

inductive Task (α : Type) where
  | unsubscribed
  | starting
  | sending (rest : List α)
  | listening
  | querying
  deriving DecidableEq

/-- `unsent` has, for each request so far, what it has still to broadcast; `missed` counts the
items dropped from the queue since the listener last looked. -/
structure State (σ α : Type) where
  store : σ
  unsent : List (List α)
  queue : List α
  missed : ℕ
  task : Task α
  lastSent : ℕ
  emitted : List α

inductive Event (ρ : Type) where
  | push (r : ρ)
  | send (i : ℕ)
  | task

namespace State

def init (c : σ) (start : ℕ) : State σ α := ⟨c, [], [], 0, .unsubscribed, start, []⟩

variable (S : Source σ ρ α) (s : State σ α)

def next (i : ℕ) : Option (α × List α) :=
  match s.unsent[i]? with
  | some (m :: rest) => some (m, rest)
  | _ => none

def enqueue (m : α) : State σ α :=
  if s.task matches .unsubscribed then s
  else if s.queue.length < S.capacity then { s with queue := s.queue ++ [m] }
  else { s with queue := s.queue.tail ++ [m], missed := s.missed + 1 }

def emit (m : α) : State σ α :=
  { s with lastSent := max s.lastSent (S.seq m), emitted := s.emitted ++ [m] }

def receive : State σ α :=
  if s.missed = 0 then
    match s.queue with
    | [] => s
    | m :: q =>
      if S.mine m ∧ s.lastSent < S.seq m then { s with queue := q }.emit S m
      else { s with queue := q }
  else { s with missed := 0, task := if S.rereads then .querying else .listening }

def resume : State σ α :=
  match s.task with
  | .unsubscribed => { s with task := .starting }
  | .starting => { s with task := .sending (S.read s.store s.lastSent) }
  | .sending [] => { s with task := .listening }
  | .sending (m :: rest) => { s with task := .sending rest }.emit S m
  | .listening => s.receive S
  | .querying => { s with task := .sending (S.read s.store s.lastSent) }

def step : Event ρ → State σ α
  | .push r => { s with store := (S.push s.store r).2, unsent := s.unsent ++ [(S.push s.store r).1] }
  | .send i =>
    match s.next i with
    | some (m, rest) => { s with unsent := s.unsent.set i rest }.enqueue S m
    | none => s
  | .task => s.resume S

def run (events : List (Event ρ)) : State σ α :=
  events.foldl (step S) s

def Guarded (S : Source σ ρ α) (ok : State σ α → Event ρ → Prop) :
    State σ α → List (Event ρ) → Prop
  | _, [] => True
  | s, e :: es => ok s e ∧ Guarded S ok (s.step S e) es

def Drained : Prop :=
  s.task = .listening ∧ s.missed = 0 ∧ s.queue = [] ∧ ∀ l ∈ s.unsent, l = []

def inFlight : List α := s.queue ++ s.unsent.flatten

/-- No request in progress has a smaller number of the topic still to broadcast than the next
one of the `i`-th request, and the queue has room for it unless the listener rereads. -/
def SendOk (i : ℕ) : Prop :=
  ∀ p ∈ s.next i, (S.rereads ∨ s.queue.length < S.capacity) ∧
    (S.mine p.1 → ∀ m ∈ s.unsent.flatten, S.mine m → S.seq p.1 ≤ S.seq m)

def Ok (pushOk : σ → ρ → Prop) (readOk : σ → ℕ → Prop) (s : State σ α) :
    Event ρ → Prop
  | .push r => pushOk s.store r
  | .send i => s.SendOk S i
  | .task => s.task matches .starting | .querying → readOk s.store s.lastSent

instance (i : ℕ) : Decidable (s.SendOk S i) :=
  inferInstanceAs (Decidable (∀ p ∈ s.next i, _))

instance (pushOk : σ → ρ → Prop) (readOk : σ → ℕ → Prop)
    [∀ c r, Decidable (pushOk c r)] [∀ c n, Decidable (readOk c n)] (s : State σ α) (e : Event ρ) :
    Decidable (s.Ok S pushOk readOk e) :=
  match e with
  | .push r => inferInstanceAs (Decidable (pushOk s.store r))
  | .send i => inferInstanceAs (Decidable (s.SendOk S i))
  | .task => inferInstanceAs (Decidable (_ → readOk s.store s.lastSent))

instance (S : Source σ ρ α) (ok : State σ α → Event ρ → Prop) [∀ s e, Decidable (ok s e)] :
    (s : State σ α) → (es : List (Event ρ)) → Decidable (s.Guarded S ok es)
  | _, [] => inferInstanceAs (Decidable True)
  | s, e :: es =>
    have := instDecidableGuarded S ok (s.step S e) es
    inferInstanceAs (Decidable (_ ∧ _))

lemma step_send_cases (i : ℕ) :
    (s.next i = none ∧ s.step S (.send i) = s) ∨
    ∃ m rest, s.next i = some (m, rest) ∧
      s.step S (.send i) = { s with unsent := s.unsent.set i rest }.enqueue S m := by
  simp only [step]
  cases hn : s.next i with
  | none => exact .inl ⟨rfl, rfl⟩
  | some p => exact .inr ⟨p.1, p.2, rfl, rfl⟩

lemma enqueue_cases (m : α) :
    (s.task = .unsubscribed ∧ s.enqueue S m = s) ∨
    (s.queue.length < S.capacity ∧ s.enqueue S m = { s with queue := s.queue ++ [m] }) ∨
    (¬ s.queue.length < S.capacity ∧
      s.enqueue S m = { s with queue := s.queue.tail ++ [m], missed := s.missed + 1 }) := by
  unfold enqueue
  split_ifs with htask hroom
  · refine .inl ⟨?_, rfl⟩
    cases h : s.task <;> simp_all
  · exact .inr (.inl ⟨hroom, rfl⟩)
  · exact .inr (.inr ⟨hroom, rfl⟩)

lemma receive_cases :
    (s.missed = 0 ∧ s.queue = [] ∧ s.receive S = s) ∨
    (s.missed = 0 ∧ ∃ m q, s.queue = m :: q ∧ (S.mine m ∧ s.lastSent < S.seq m) ∧
      s.receive S = { s with queue := q }.emit S m) ∨
    (s.missed = 0 ∧ ∃ m q, s.queue = m :: q ∧ ¬ (S.mine m ∧ s.lastSent < S.seq m) ∧
      s.receive S = { s with queue := q }) ∨
    (s.missed ≠ 0 ∧ s.receive S =
      { s with missed := 0, task := if S.rereads then .querying else .listening }) := by
  unfold receive
  by_cases hm : s.missed = 0
  · rw [if_pos hm]
    cases hq : s.queue with
    | nil => exact .inl ⟨hm, rfl, rfl⟩
    | cons m q =>
      by_cases hmine : S.mine m ∧ s.lastSent < S.seq m
      · exact .inr (.inl ⟨hm, m, q, rfl, hmine, if_pos hmine⟩)
      · exact .inr (.inr (.inl ⟨hm, m, q, rfl, hmine, if_neg hmine⟩))
  · exact .inr (.inr (.inr ⟨hm, if_neg hm⟩))

def remaining : Option (List α) :=
  match s.task with
  | .sending rest => some rest
  | .listening => some []
  | _ => none

def scheduled : List α := s.emitted ++ s.remaining.getD []

structure Increasing : Prop where
  sorted : (s.scheduled.map S.seq).Pairwise (· < ·)
  le_lastSent : ∀ m ∈ s.emitted, S.seq m ≤ s.lastSent
  fresh : s.task = .unsubscribed ∨ s.task = .starting → s.emitted = []
  rereads : s.task = .querying → S.rereads

section Order

variable {S : Source σ ρ α} {s : State σ α}

lemma Increasing.congr {s' : State σ α} (h : s.Increasing S) (htask : s'.task = s.task)
    (hlast : s'.lastSent = s.lastSent) (hemitted : s'.emitted = s.emitted) : s'.Increasing S where
  sorted := by
    have hs : s'.scheduled = s.scheduled := by
      rw [scheduled, scheduled, remaining, remaining, htask, hemitted]
    rw [hs]
    exact h.sorted
  le_lastSent := by
    rw [hemitted, hlast]
    exact h.le_lastSent
  fresh := by
    rw [htask, hemitted]
    exact h.fresh
  rereads := by
    rw [htask]
    exact h.rereads

lemma increasing_init (c : σ) (start : ℕ) : (init c start : State σ α).Increasing S :=
  ⟨.nil, by simp [init], fun _ => rfl, by simp [init]⟩

lemma Increasing.le_lastSent_emit (h : s.Increasing S) (m : α) :
    ∀ x ∈ (s.emit S m).emitted, S.seq x ≤ (s.emit S m).lastSent := by
  intro x hx
  rcases mem_append.1 hx with hx | hx
  · exact (h.le_lastSent x hx).trans (le_max_left _ _)
  · rw [mem_singleton.1 hx]
    exact le_max_right _ _

lemma Increasing.receive (h : s.Increasing S) (htask : s.task = .listening) :
    (s.receive S).Increasing S := by
  have hsched : s.scheduled = s.emitted := by simp [scheduled, remaining, htask]
  rcases s.receive_cases S with
    ⟨-, -, heq⟩ | ⟨-, m, q, -, ⟨-, hlt⟩, heq⟩ | ⟨-, m, q, -, -, heq⟩ | ⟨-, heq⟩
  · rw [heq]
    exact h
  · rw [heq]
    refine ⟨?_, ?_, by simp [emit, htask], by simp [emit, htask]⟩
    · have hsorted := h.sorted
      rw [hsched] at hsorted
      simp only [scheduled, remaining, emit, htask, Option.getD_some, append_nil, map_append, map_cons,
        map_nil, pairwise_append, pairwise_singleton, true_and, hsorted]
      intro a ha b hb
      obtain ⟨x, hx, rfl⟩ := mem_map.1 ha
      rw [mem_singleton.1 hb]
      exact (h.le_lastSent x hx).trans_lt hlt
    · exact h.le_lastSent_emit m
  · rw [heq]
    exact h.congr rfl rfl rfl
  · rw [heq]
    cases hr : S.rereads with
    | false => exact h.congr (by simp [htask]) rfl rfl
    | true =>
      refine ⟨?_, h.le_lastSent, by simp, fun _ => hr⟩
      simpa [scheduled, remaining, htask] using h.sorted

variable (hread : ∀ c n, ((S.read c n).map S.seq).Pairwise (· < ·))
  (hgt : S.rereads → ∀ c n, ∀ m ∈ S.read c n, n < S.seq m)

include hread hgt

section

variable (h : s.Increasing S)

include h

lemma Increasing.read (htask : s.task = .starting ∨ s.task = .querying) :
    { s with task := .sending (S.read s.store s.lastSent) : State σ α }.Increasing S := by
  refine ⟨?_, h.le_lastSent, by simp, by simp⟩
  have hsorted : (s.emitted.map S.seq).Pairwise (· < ·) := by
    have hs := h.sorted
    rw [scheduled, map_append, pairwise_append] at hs
    exact hs.1
  simp only [scheduled, remaining, Option.getD_some, map_append, pairwise_append]
  refine ⟨hsorted, hread _ _, fun a ha b hb => ?_⟩
  rcases htask with htask | htask
  · rw [h.fresh (.inr htask)] at ha
    cases ha
  · obtain ⟨x, hx, rfl⟩ := mem_map.1 ha
    obtain ⟨y, hy, rfl⟩ := mem_map.1 hb
    exact (h.le_lastSent x hx).trans_lt (hgt (h.rereads htask) _ _ y hy)

lemma Increasing.resume : (s.resume S).Increasing S := by
  have hsched := h.sorted
  unfold State.resume
  cases htask : s.task with
  | unsubscribed =>
    rw [scheduled, remaining, htask] at hsched
    exact ⟨hsched, h.le_lastSent, fun _ => h.fresh (.inl htask), by simp⟩
  | starting => exact h.read hread hgt (.inl htask)
  | sending l =>
    rw [scheduled, remaining, htask] at hsched
    cases l with
    | nil => exact ⟨hsched, h.le_lastSent, by simp, by simp⟩
    | cons m rest =>
      refine ⟨?_, ?_, by simp [emit], by simp [emit]⟩
      · simpa [scheduled, remaining, emit] using hsched
      · exact h.le_lastSent_emit m
  | listening => exact h.receive htask
  | querying => exact h.read hread hgt (.inr htask)

lemma Increasing.step (e : Event ρ) : (s.step S e).Increasing S := by
  cases e with
  | push r => exact h.congr rfl rfl rfl
  | send i =>
    rcases s.step_send_cases S i with ⟨-, heq⟩ | ⟨m, rest, -, heq⟩
    · rw [heq]
      exact h
    · rw [heq]
      rcases enqueue_cases S { s with unsent := s.unsent.set i rest } m with
        ⟨-, heq⟩ | ⟨-, heq⟩ | ⟨-, heq⟩ <;> rw [heq] <;> exact h.congr rfl rfl rfl
  | task => exact h.resume hread hgt

lemma Increasing.run (events : List (Event ρ)) : (s.run S events).Increasing S := by
  induction events generalizing s with
  | nil => exact h
  | cons e es ih => exact ih (h.step hread hgt e)

lemma Increasing.emitted_run (events : List (Event ρ)) :
    ((s.run S events).emitted.map S.seq).Pairwise (· < ·) := by
  have hsorted := (h.run hread hgt events).sorted
  rw [scheduled, map_append, pairwise_append] at hsorted
  exact hsorted.1

end

end Order

end State

end Feed
