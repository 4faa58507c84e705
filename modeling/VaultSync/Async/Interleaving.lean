import Mathlib.Tactic.Tauto
import VaultSync.Async.Sequential

/-! Pools of computations that interleave at their operations over one shared state, and
the rely–guarantee rule for them. -/

namespace Async

open List

variable {S : Signature} {L E ε σ τ α : Type}

/-- Tags `τ` name the computations that may be started, `mayStart` when a computation may
start beside those in flight, and `env` what happens to the state from outside. -/
structure System (S : Signature) (L E ε σ τ α : Type) where
  machine : τ → Machine S L ε σ
  prog : τ → Prog S L E α
  mayStart : τ → List τ → σ → Prop
  env : σ → σ → Prop

structure Pool (S : Signature) (L E σ τ α : Type) where
  tasks : List (τ × Prog S L E α)
  state : σ

def Pool.inFlight (p : Pool S L E σ τ α) : List τ := p.tasks.map Prod.fst

namespace System

inductive Step (Y : System S L E ε σ τ α) : Pool S L E σ τ α → Pool S L E σ τ α → Prop
  | env {ts s s'} : Y.env s s' → Step Y ⟨ts, s⟩ ⟨ts, s'⟩
  | start {ts s c} : Y.mayStart c (ts.map Prod.fst) s → Step Y ⟨ts, s⟩ ⟨(c, Y.prog c) :: ts, s⟩
  | finish {pre post c r s} : Step Y ⟨pre ++ (c, .ofExcept r) :: post, s⟩ ⟨pre ++ post, s⟩
  | call {pre post c op k e s} : (Y.machine c).allow op e s →
      Step Y ⟨pre ++ (c, .call op k) :: post, s⟩
        ⟨pre ++ (c, k ((Y.machine c).handle op e s).1) :: post, ((Y.machine c).handle op e s).2⟩
  | sync {pre post c f k s} :
      Step Y ⟨pre ++ (c, .sync f k) :: post, s⟩
        ⟨pre ++ (c, k ((Y.machine c).memory s)) :: post,
          (Y.machine c).setMemory (f ((Y.machine c).memory s)) s⟩

def Reachable (Y : System S L E ε σ τ α) : Pool S L E σ τ α → Pool S L E σ τ α → Prop :=
  Relation.ReflTransGen Y.Step

variable {Y : System S L E ε σ τ α} {r : Except E α}

lemma reachable_of_outcome {c : τ} {t : Prog S L E α} {pre post : List (τ × Prog S L E α)}
    {s s' : σ} (h : Outcome (Y.machine c) t s r s') :
    Y.Reachable ⟨pre ++ (c, t) :: post, s⟩ ⟨pre ++ (c, .ofExcept r) :: post, s'⟩ := by
  induction t generalizing s with
  | ret a | fail e =>
    obtain ⟨rfl, rfl⟩ := h
    exact .refl
  | call op k ih =>
    obtain ⟨e, he, ho⟩ := h
    exact .head (.call he) (ih _ ho)
  | sync f k ih => exact .head .sync (ih _ h)

lemma reachable_started (ts : List (τ × Prog S L E α)) {c : τ} {s s' : σ}
    (hc : Y.mayStart c (ts.map Prod.fst) s) (h : Outcome (Y.machine c) (Y.prog c) s r s') :
    Y.Reachable ⟨ts, s⟩ ⟨(c, .ofExcept r) :: ts, s'⟩ := by
  have hrun : Y.Reachable ⟨[] ++ (c, Y.prog c) :: ts, s⟩ ⟨[] ++ (c, .ofExcept r) :: ts, s'⟩ :=
    reachable_of_outcome h
  exact .head (.start hc) hrun

section

variable (k : Nat) (pre : List (τ × Prog S L E α)) (t : Prog S L E α)
  (post : List (τ × Prog S L E α))

include k pre t post

lemma reachable_advance_of_allowed [Inhabited ε] {c : τ} (s : σ)
    (h : AllowedSteps (Y.machine c) k t s) :
    Y.Reachable ⟨pre ++ (c, t) :: post, s⟩
      ⟨pre ++ (c, (advance (Y.machine c) k t s).1) :: post, (advance (Y.machine c) k t s).2⟩ := by
  induction k generalizing t s with
  | zero => exact .refl
  | succ k ih =>
    cases t with
    | ret a | fail e => exact .refl
    | call op f => exact .head (.call h.1) (ih _ _ h.2)
    | sync f g => exact .head .sync (ih _ _ h)

lemma reachable_advance [Inhabited ε] {c : τ} (s : σ)
    (h : ∀ op s, (Y.machine c).allow op default s) :
    Y.Reachable ⟨pre ++ (c, t) :: post, s⟩
      ⟨pre ++ (c, (advance (Y.machine c) k t s).1) :: post, (advance (Y.machine c) k t s).2⟩ :=
  reachable_advance_of_allowed k pre t post s (allowedSteps_of_forall h k t s)

end

lemma reachable_started_advance [Inhabited ε] (c : τ) (k : Nat) (ts : List (τ × Prog S L E α)) (s : σ)
    (hc : Y.mayStart c (ts.map Prod.fst) s) (h : ∀ op s, (Y.machine c).allow op default s) :
    Y.Reachable ⟨ts, s⟩ ⟨(c, (advance (Y.machine c) k (Y.prog c) s).1) :: ts,
      (advance (Y.machine c) k (Y.prog c) s).2⟩ :=
  .head (.start hc) (reachable_advance k [] _ ts s h)

lemma reachable_of_env (ts : List (τ × Prog S L E α)) {s s' : σ}
    (h : Relation.ReflTransGen Y.env s s') : Y.Reachable ⟨ts, s⟩ ⟨ts, s'⟩ := by
  induction h with
  | refl => exact .refl
  | tail _ hstep ih => exact ih.tail (.env hstep)

/-- What every operation, every section and every step from outside keeps, whichever computations
they belong to, holds in every state reached. -/
lemma invariant_of_reachable {inv : σ → Prop} (henv : ∀ s s', inv s → Y.env s s' → inv s')
    (hcall : ∀ c op e s, inv s → (Y.machine c).allow op e s → inv ((Y.machine c).handle op e s).2)
    (hsync : ∀ c l s, inv s → inv ((Y.machine c).setMemory l s)) {p q : Pool S L E σ τ α}
    (hp : inv p.state) (hr : Y.Reachable p q) : inv q.state := by
  induction hr with
  | refl => exact hp
  | tail _ hs ih =>
    cases hs with
    | env he => exact henv _ _ ih he
    | start _ => exact ih
    | finish => exact ih
    | call ha => exact hcall _ _ _ _ ih ha
    | sync => exact hsync _ _ _ ih

structure Proof (Y : System S L E ε σ τ α) where
  inv : σ → Prop
  protocol : τ → Protocol σ
  post : τ → Except E α → σ → Prop
  together : τ → τ → Prop
  inv_iff : ∀ c s, (protocol c).inv s ↔ inv s
  env_safe : ∀ s s', inv s → Y.env s s' → inv s' ∧ ∀ c, (protocol c).rely s s'
  guar_rely : ∀ c d s s', together c d → inv s → inv s' →
    (protocol c).guar s s' → (protocol d).rely s s'
  start_together : ∀ c ds s, inv s → Y.mayStart c ds s → ∀ d ∈ ds, together c d ∧ together d c
  safe : ∀ c ds s, inv s → Y.mayStart c ds s →
    Safe (Y.machine c) (protocol c) (post c) (Y.prog c) s

namespace Proof

structure Holds (π : Proof Y) (p : Pool S L E σ τ α) : Prop where
  inv : π.inv p.state
  safe : ∀ t ∈ p.tasks, Safe (Y.machine t.1) (π.protocol t.1) (π.post t.1) t.2 p.state
  together : p.inFlight.Pairwise fun c d => π.together c d ∧ π.together d c

variable {π : Proof Y} {pre post : List (τ × Prog S L E α)} {c : τ} {t t' : Prog S L E α} {s s' : σ}

lemma Holds.move (h : π.Holds ⟨pre ++ (c, t) :: post, s⟩) (hi : π.inv s')
    (hg : (π.protocol c).guar s s') (ht : Safe (Y.machine c) (π.protocol c) (π.post c) t' s') :
    π.Holds ⟨pre ++ (c, t') :: post, s'⟩ := by
  have htog := h.together
  simp only [Pool.inFlight, map_append, map_cons] at htog
  refine ⟨hi, ?_, by simpa [Pool.inFlight] using htog⟩
  have hother : ∀ u ∈ pre ++ post,
      Safe (Y.machine u.1) (π.protocol u.1) (π.post u.1) u.2 s' := by
    intro u hu
    have hcu : π.together c u.1 := by
      rw [pairwise_append, pairwise_cons] at htog
      rcases mem_append.1 hu with hu | hu
      · exact (htog.2.2 _ (mem_map_of_mem hu) _ mem_cons_self).2
      · exact (htog.2.1.1 _ (mem_map_of_mem hu)).1
    have hmem : u ∈ pre ++ (c, t) :: post := by
      simp only [mem_append, mem_cons] at hu ⊢
      tauto
    exact (h.safe u hmem).rely (π.guar_rely _ _ _ _ hcu h.inv hi hg)
  intro u hu
  simp only [mem_append, mem_cons] at hu
  rcases hu with hu | rfl | hu
  · exact hother u (mem_append_left _ hu)
  · exact ht
  · exact hother u (mem_append_right _ hu)

variable {p q : Pool S L E σ τ α}

lemma holds_step (h : π.Holds p) (hs : Y.Step p q) : π.Holds q := by
  cases hs with
  | env he =>
    obtain ⟨hi, hr⟩ := π.env_safe _ _ h.inv he
    exact ⟨hi, fun t ht => (h.safe t ht).rely (hr t.1), h.together⟩
  | start ha =>
    refine ⟨h.inv, ?_, pairwise_cons.2 ⟨?_, h.together⟩⟩
    · intro t ht
      rcases mem_cons.1 ht with rfl | ht
      · exact π.safe _ _ _ h.inv ha
      · exact h.safe t ht
    · exact π.start_together _ _ _ h.inv ha
  | finish =>
    refine ⟨h.inv, fun t ht => h.safe t ?_, ?_⟩
    · simp only [mem_append, mem_cons] at ht ⊢
      tauto
    · refine h.together.sublist ?_
      exact ((sublist_cons_self _ _).append_left _).map _
  | call ha =>
    obtain ⟨hi, hg, hk⟩ := h.safe _ (mem_append_right _ mem_cons_self) _
      ((π.inv_iff _ _).2 h.inv) ((π.protocol _).rely_refl _) _ ha
    exact h.move ((π.inv_iff _ _).1 hi) hg hk
  | sync =>
    obtain ⟨hi, hg, hk⟩ := h.safe _ (mem_append_right _ mem_cons_self) _
      ((π.inv_iff _ _).2 h.inv) ((π.protocol _).rely_refl _)
    exact h.move ((π.inv_iff _ _).1 hi) hg hk

lemma holds_of_reachable (h : π.Holds p) (hr : Y.Reachable p q) : π.Holds q := by
  induction hr with
  | refl => exact h
  | tail _ hs ih => exact holds_step ih hs

lemma Holds.rel {R : σ → σ → Prop} (h : π.Holds p)
    (hr : Y.Reachable p q) (hrefl : ∀ s, R s s) (htrans : ∀ {s t u}, R s t → R t u → R s u)
    (hguar : ∀ c s s', π.inv s → (π.protocol c).guar s s' → R s s')
    (henv : ∀ s s', π.inv s → Y.env s s' → R s s') : R p.state q.state := by
  induction hr with
  | refl => exact hrefl _
  | tail hpq hs ih =>
    have hq := holds_of_reachable h hpq
    refine htrans ih ?_
    cases hs with
    | env he => exact henv _ _ hq.inv he
    | start _ | finish => exact hrefl _
    | call ha =>
      obtain ⟨-, hg, -⟩ := hq.safe _ (mem_append_right _ mem_cons_self) _
        ((π.inv_iff _ _).2 hq.inv) ((π.protocol _).rely_refl _) _ ha
      exact hguar _ _ _ hq.inv hg
    | sync =>
      obtain ⟨-, hg, -⟩ := hq.safe _ (mem_append_right _ mem_cons_self) _
        ((π.inv_iff _ _).2 hq.inv) ((π.protocol _).rely_refl _)
      exact hguar _ _ _ hq.inv hg

lemma holds_empty (h : π.inv s) : π.Holds ⟨[], s⟩ :=
  ⟨h, by simp, List.Pairwise.nil⟩

/-- **Rely–guarantee.** The invariant holds in every state reached. -/
theorem inv_of_reachable (h : π.inv s) (hr : Y.Reachable ⟨[], s⟩ q) : π.inv q.state :=
  (holds_of_reachable (holds_empty h) hr).inv

lemma post_of_reachable (h : π.inv s) (hr : Y.Reachable ⟨[], s⟩ q)
    (hc : (c, .ofExcept r) ∈ q.tasks) : π.post c r q.state := by
  have hq := holds_of_reachable (holds_empty h) hr
  have hsafe := hq.safe _ hc
  cases r with
  | ok a | error e => exact hsafe _ ((π.inv_iff _ _).2 hq.inv) ((π.protocol c).rely_refl _)

end Proof

end System

end Async
