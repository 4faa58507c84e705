import Mathlib.Data.List.Induction

/-! Tables that name, under each key, the last one to register, and whose entries are removed by
those who leave. -/

namespace Async

open List

/-- If a step from `inv` keeps it exactly when it may be taken, a run keeps `inv` throughout exactly
when each of its steps may be taken. -/
lemma forall_run_iff {α σ : Type} {step : σ → α → σ} {inv : σ → Prop} {may : σ → α → Prop}
    (hstep : ∀ s a, inv s → (inv (step s a) ↔ may s a)) {s : σ} (hs : inv s) (l : List α) :
    (∀ pre post, l = pre ++ post → inv (pre.foldl step s)) ↔
      ∀ pre a post, l = pre ++ a :: post → may (pre.foldl step s) a := by
  constructor
  · intro h pre a post hl
    have hnext := h (pre ++ [a]) post (by rw [hl, append_assoc, singleton_append])
    rw [foldl_append] at hnext
    exact (hstep _ a (h pre (a :: post) hl)).1 hnext
  · intro h pre
    induction pre using List.reverseRecOn with
    | nil => exact fun _ _ => hs
    | append_singleton pre a ih =>
      intro post hl
      rw [append_assoc, singleton_append] at hl
      rw [foldl_append]
      exact (hstep _ a (ih (a :: post) hl)).2 (h pre a post hl)

/-- `latest` records who registered the key last, unless it has left the key since. -/
structure Table (K I : Type) where
  entry : K → Option I
  latest : K → Option I

/-- `leave i removed left`: the entries of `removed` go, and `i` leaves the keys of `left`. -/
inductive Table.Change (K I : Type) where
  | idle
  | register (i : I) (k : K)
  | leave (i : I) (removed left : K → Bool)

namespace Table

variable {K I : Type} [DecidableEq K] [DecidableEq I]

def new : Table K I := ⟨fun _ => none, fun _ => none⟩

def apply (t : Table K I) : Change K I → Table K I
  | .idle => t
  | .register i k => ⟨Function.update t.entry k (some i), Function.update t.latest k (some i)⟩
  | .leave i removed left =>
    ⟨fun k => if removed k then none else t.entry k,
      fun k => if left k ∧ t.latest k = some i then none else t.latest k⟩

def Live (t : Table K I) : Prop := ∀ k i, t.latest k = some i → t.entry k = some i

def Owned (t : Table K I) : Change K I → Prop
  | .leave i removed left => ∀ k, removed k → ∀ j, t.latest k = some j → j = i ∧ left k
  | _ => True

omit [DecidableEq K] [DecidableEq I] in
lemma live_new : (new : Table K I).Live := nofun

lemma live_apply_iff {t : Table K I} (h : t.Live) (c : Change K I) :
    (t.apply c).Live ↔ t.Owned c := by
  cases c with
  | idle => exact iff_of_true h trivial
  | register i k =>
    refine iff_of_true (fun k' j hj => ?_) trivial
    change Function.update t.latest k (some i) k' = some j at hj
    change Function.update t.entry k (some i) k' = some j
    by_cases hk : k' = k
    · subst hk
      rwa [Function.update_self] at hj ⊢
    · rw [Function.update_of_ne hk] at hj ⊢
      exact h k' j hj
  | leave i removed left =>
    constructor
    · intro hlive k hk j hj
      by_contra hne
      have hstays : (t.apply (.leave i removed left)).latest k = some j := by
        refine (if_neg ?_).trans hj
        rintro ⟨hleft, hi⟩
        exact hne ⟨Option.some.inj (hj.symm.trans hi), hleft⟩
      have hgone : (t.apply (.leave i removed left)).entry k = none := if_pos hk
      have hentry := hlive k j hstays
      rw [hgone] at hentry
      cases hentry
    · intro howned k j hj
      have hold : ¬ (left k = true ∧ t.latest k = some i) ∧ t.latest k = some j := by
        change (if left k ∧ t.latest k = some i then none else t.latest k) = some j at hj
        split_ifs at hj with hleft
        exact ⟨hleft, hj⟩
      refine (if_neg fun hk => ?_).trans (h k j hold.2)
      obtain ⟨rfl, hleft⟩ := howned k hk j hold.2
      exact hold.1 ⟨hleft, hold.2⟩

end Table

end Async
