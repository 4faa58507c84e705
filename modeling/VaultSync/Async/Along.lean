import Mathlib.Data.List.Basic

/-! Runs of a step relation along a list of inputs. -/

namespace Async

variable {α σ : Type} {R R' : α → σ → σ → Prop} {s s' : σ}

def Along (R : α → σ → σ → Prop) : List α → σ → σ → Prop
  | [], s, s' => s' = s
  | a :: as, s, s' => ∃ s₁, R a s s₁ ∧ Along R as s₁ s'

variable {as : List α} {I : σ → Prop}

lemma along_append {bs : List α} :
    Along R (as ++ bs) s s' ↔ ∃ s1, Along R as s s1 ∧ Along R bs s1 s' := by
  induction as generalizing s with
  | nil => exact ⟨fun h => ⟨s, rfl, h⟩, by rintro ⟨_, rfl, h⟩; exact h⟩
  | cons a as ih =>
    constructor
    · rintro ⟨s1, hstep, hrun⟩
      obtain ⟨s2, hleft, hright⟩ := ih.1 hrun
      exact ⟨s2, ⟨s1, hstep, hleft⟩, hright⟩
    · rintro ⟨s2, ⟨s1, hstep, hleft⟩, hright⟩
      exact ⟨s1, hstep, ih.2 ⟨s2, hleft, hright⟩⟩

lemma Along.invariant
    (hstep : ∀ a ∈ as, ∀ s s', I s → R a s s' → I s') (h : Along R as s s') (hs : I s) : I s' := by
  induction as generalizing s with
  | nil => exact h ▸ hs
  | cons a as ih =>
    obtain ⟨s1, hfirst, hrest⟩ := h
    rw [List.forall_mem_cons] at hstep
    exact ih hstep.2 hrest (hstep.1 s s1 hs hfirst)

lemma Along.mono (h : Along R as s s') (himp : ∀ a s s', R a s s' → R' a s s') :
    Along R' as s s' := by
  induction as generalizing s with
  | nil => exact h
  | cons a as ih =>
    obtain ⟨s1, hfirst, hrest⟩ := h
    exact ⟨s1, himp a s s1 hfirst, ih hrest⟩

/-- Along an invariant under which each input can take a step there is a run. -/
lemma exists_along (as : List α) (hstep : ∀ a ∈ as, ∀ s, I s → ∃ s', R a s s' ∧ I s') (hs : I s) :
    ∃ s', Along R as s s' ∧ I s' := by
  induction as generalizing s with
  | nil => exact ⟨s, rfl, hs⟩
  | cons a as ih =>
    rw [List.forall_mem_cons] at hstep
    obtain ⟨s1, hfirst, hs1⟩ := hstep.1 s hs
    obtain ⟨s', hrest, hs'⟩ := ih hstep.2 hs1
    exact ⟨s', ⟨s1, hfirst, hrest⟩, hs'⟩

section Function

variable {step : σ → α → σ} {Ok : σ → α → Prop}

/-- `I` holds in every state of the run on `as`. -/
def Throughout (step : σ → α → σ) (I : σ → Prop) : σ → List α → Prop
  | s, [] => I s
  | s, a :: as => I s ∧ Throughout step I (step s a) as

/-- Each input of the run is `Ok` in the state that takes it. -/
def Admitted (step : σ → α → σ) (Ok : σ → α → Prop) : σ → List α → Prop
  | _, [] => True
  | s, a :: as => Ok s a ∧ Admitted step Ok (step s a) as

lemma Throughout.head (h : Throughout step I s as) : I s := by
  cases as with
  | nil => exact h
  | cons a as => exact h.1

/-- If the `Ok` inputs are those that keep `I`, then `I` holds throughout a run exactly when
the run has no other inputs. -/
lemma always_iff_admitted (hstep : ∀ a ∈ as, ∀ s, I s → (I (step s a) ↔ Ok s a)) (hs : I s) :
    Throughout step I s as ↔ Admitted step Ok s as := by
  induction as generalizing s with
  | nil => exact iff_true_intro hs
  | cons a as ih =>
    rw [List.forall_mem_cons] at hstep
    have hfirst := hstep.1 s hs
    constructor
    · intro h
      exact ⟨hfirst.1 h.2.head, (ih hstep.2 h.2.head).1 h.2⟩
    · intro h
      exact ⟨hs, (ih hstep.2 (hfirst.2 h.1)).2 h.2⟩

/-- Under an invariant that the `P` inputs keep, two conditions on inputs that agree admit the same
runs. -/
lemma admitted_iff {P : σ → α → Prop} (hstep : ∀ a ∈ as, ∀ s, I s → (P s a ↔ Ok s a))
    (hI : ∀ s a, P s a → I (step s a)) (hs : I s) :
    Admitted step P s as ↔ Admitted step Ok s as := by
  induction as generalizing s with
  | nil => exact Iff.rfl
  | cons a as ih =>
    rw [List.forall_mem_cons] at hstep
    refine (and_congr_left' (hstep.1 s hs)).trans (and_congr_right fun hok => ?_)
    exact ih hstep.2 (hI s a ((hstep.1 s hs).2 hok))

end Function

end Async
