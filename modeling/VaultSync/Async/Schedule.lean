import Mathlib.Data.List.Induction
import VaultSync.Async.Program

/-! Schedules of computations over one shared state, with what was started and what has returned,
and a rule for schedules in which the computations' critical sections do not overlap. -/

namespace Async

open List

variable {S : Signature} {L E ε σ τ α V : Type}

inductive Turn (τ ε : Type) where
  | start (c : τ)
  | move (i : ℕ) (e : ε)

def Prog.result? : Prog S L E α → Option (Except E α)
  | ret a => some (.ok a)
  | fail e => some (.error e)
  | _ => none

def Prog.move (M : Machine S L ε σ) [∀ op e s, Decidable (M.allow op e s)] (e : ε) (s : σ) :
    Prog S L E α → Option (Prog S L E α × σ)
  | ret _ => none
  | fail _ => none
  | call op k => if M.allow op e s then some (k (M.handle op e s).1, (M.handle op e s).2) else none
  | sync f k => some (k (M.memory s), M.setMemory (f (M.memory s)) s)

structure Session (S : Signature) (L E σ τ α : Type) where
  tasks : List (τ × Prog S L E α)
  state : σ
  started : List τ
  returned : List (τ × Except E α)

namespace Session

def inFlight (c : τ) (t : Prog S L E α) : List (τ × Prog S L E α) :=
  match t.result? with
  | none => [(c, t)]
  | some _ => []

def results (c : τ) (t : Prog S L E α) : List (τ × Except E α) :=
  (t.result?.map fun r => (c, r)).toList

variable (M : Machine S L ε σ) [∀ op e s, Decidable (M.allow op e s)] (prog : τ → Prog S L E α)
  (p : Session S L E σ τ α)

def turn : Turn τ ε → Session S L E σ τ α
  | .start c => { p with tasks := p.tasks ++ [(c, prog c)], started := c :: p.started }
  | .move i e =>
    match p.tasks[i]? with
    | none => p
    | some (c, t) =>
      match t.move M e p.state with
      | none => p
      | some (t', s') =>
        { p with
          tasks := p.tasks.take i ++ inFlight c t' ++ p.tasks.drop (i + 1)
          state := s'
          returned := results c t' ++ p.returned }

def run (schedule : List (Turn τ ε)) (p : Session S L E σ τ α) : Session S L E σ τ α :=
  schedule.foldl (turn M prog) p

def starting (s : σ) : Session S L E σ τ α := ⟨[], s, [], []⟩

variable {M prog}

lemma turn_move (i : ℕ) (e : ε) :
    turn M prog p (.move i e) = p ∨
      ∃ pre c t post t' s', p.tasks = pre ++ (c, t) :: post ∧ t.move M e p.state = some (t', s') ∧
        turn M prog p (.move i e) =
          ⟨pre ++ inFlight c t' ++ post, s', p.started, results c t' ++ p.returned⟩ := by
  cases hi : p.tasks[i]? with
  | none => exact .inl (by simp only [turn, hi])
  | some task =>
    obtain ⟨c, t⟩ := task
    cases hm : t.move M e p.state with
    | none => exact .inl (by simp only [turn, hi, hm])
    | some next =>
      obtain ⟨t', s'⟩ := next
      obtain ⟨hlt, hget⟩ := List.getElem?_eq_some_iff.1 hi
      refine .inr ⟨p.tasks.take i, c, t, p.tasks.drop (i + 1), t', s', ?_, hm, ?_⟩
      · rw [← hget, ← drop_eq_getElem_cons hlt, take_append_drop]
      · simp only [turn, hi, hm]

end Session

open Session

/-! ## Critical sections -/

/-- A computation may change the `view` of the state from the step that enters a critical section
to the step that leaves it. The view is `quiet` when no computation is in one, and `effect` says
what a step, with the result it may give, does to it. -/
structure Sections (S : Signature) (L E σ τ α V : Type) where
  view : σ → V
  critical : Prog S L E α → Bool
  quiet : V → Prop
  effect : τ → Option (Except E α) → V → V → Prop
  not_critical_of_result : ∀ t r, t.result? = some r → critical t = false

namespace Sections

variable (Z : Sections S L E σ τ α V)

def Found (t t' : Prog S L E α) (v v' : V) : Prop :=
  (Z.critical t = true → v' = v) ∧ (Z.critical t = false → Z.critical t' = true → Z.quiet v')

def Does (c : τ) (t t' : Prog S L E α) (v v' : V) : Prop :=
  Z.effect c t'.result? v v' ∧ (Z.critical t = false → Z.critical t' = false → v' = v) ∧
    (Z.critical t = true → Z.critical t' = false → Z.quiet v')

def Guarded (M : Machine S L ε σ) (c : τ) : Prog S L E α → V → Prop
  | .ret _, _ => True
  | .fail _, _ => True
  | .call op k, v => ∀ e s, M.allow op e s →
      Z.Found (.call op k) (k (M.handle op e s).1) v (Z.view s) →
      Z.Does c (.call op k) (k (M.handle op e s).1) (Z.view s) (Z.view (M.handle op e s).2) ∧
        Guarded M c (k (M.handle op e s).1) (Z.view (M.handle op e s).2)
  | .sync f k, v => ∀ s, Z.Found (.sync f k) (k (M.memory s)) v (Z.view s) →
      Z.Does c (.sync f k) (k (M.memory s)) (Z.view s)
          (Z.view (M.setMemory (f (M.memory s)) s)) ∧
        Guarded M c (k (M.memory s)) (Z.view (M.setMemory (f (M.memory s)) s))

def Exclusive (p : Session S L E σ τ α) : Prop :=
  p.tasks.Pairwise fun t u => ¬ (Z.critical t.2 = true ∧ Z.critical u.2 = true)

instance : DecidablePred Z.Exclusive := fun _ => inferInstanceAs (Decidable (List.Pairwise _ _))

variable {Z} {M : Machine S L ε σ} {c : τ} {t t' : Prog S L E α} {v v' : V}

lemma Guarded.of_not_critical (h : Z.Guarded M c t v) (ht : Z.critical t = false) (v' : V) :
    Z.Guarded M c t v' := by
  have hfound : ∀ {t' w}, Z.Found t t' v' w → Z.Found t t' v w := fun hf =>
    ⟨fun hc => absurd hc (by simp [ht]), hf.2⟩
  cases t with
  | ret a => trivial
  | fail e => trivial
  | call op k => exact fun e s he hf => h e s he (hfound hf)
  | sync f k => exact fun s hf => h s (hfound hf)

variable [∀ op e s, Decidable (M.allow op e s)]

lemma Guarded.move {e : ε} {s s' : σ} (h : Z.Guarded M c t v)
    (hm : t.move M e s = some (t', s')) (hf : Z.Found t t' v (Z.view s)) :
    Z.Does c t t' (Z.view s) (Z.view s') ∧ Z.Guarded M c t' (Z.view s') := by
  cases t with
  | ret a => cases hm
  | fail e => cases hm
  | call op k =>
    simp only [Prog.move] at hm
    split at hm
    · rename_i he
      cases hm
      exact h e s he hf
    · cases hm
  | sync f k =>
    cases hm
    exact h s hf

structure Holds (Z : Sections S L E σ τ α V) (M : Machine S L ε σ)
    (J : List τ → List (τ × Except E α) → V → Prop) (p : Session S L E σ τ α) : Prop where
  inv : J p.started p.returned (Z.view p.state)
  quiet : (∀ t ∈ p.tasks, Z.critical t.2 = false) → Z.quiet (Z.view p.state)
  guarded : ∀ t ∈ p.tasks, t.1 ∈ p.started ∧ Z.Guarded M t.1 t.2 (Z.view p.state)

variable {J : List τ → List (τ × Except E α) → V → Prop} {p : Session S L E σ τ α}
  {pre post : List (τ × Prog S L E α)} {u : τ × Prog S L E α} {e : ε} {s s' : σ} {st : List τ}
  {rt : List (τ × Except E α)} {prog : τ → Prog S L E α}

lemma Exclusive.other (h : Z.Exclusive ⟨pre ++ (c, t) :: post, s, st, rt⟩) (hu : u ∈ pre ++ post)
    (ht : Z.critical t = true) : Z.critical u.2 = false := by
  have hp := pairwise_append.1 h
  rw [pairwise_cons] at hp
  rcases mem_append.1 hu with hu | hu
  · exact Bool.eq_false_iff.2 fun hc => hp.2.2 u hu _ mem_cons_self ⟨hc, ht⟩
  · exact Bool.eq_false_iff.2 fun hc => hp.2.1.1 u hu ⟨ht, hc⟩

lemma inFlight_of_critical (ht : Z.critical t = true) : inFlight c t = [(c, t)] := by
  unfold inFlight
  cases hr : t.result? with
  | none => rfl
  | some r => exact absurd ht (by simp [Z.not_critical_of_result t r hr])

lemma mem_moved (hu : u ∈ pre ++ inFlight c t ++ post) : u ∈ pre ++ post ∨ u = (c, t) := by
  unfold inFlight at hu
  cases hr : t.result? with
  | none =>
    simp only [hr, mem_append, mem_singleton] at hu ⊢
    tauto
  | some r =>
    simp only [hr, append_nil] at hu
    exact .inl hu

/-- A computation moves while the sections do not overlap. -/
lemma Holds.move (hstep : ∀ c r st rt v v', c ∈ st → Z.effect c r v v' → J st rt v →
      J st ((r.map fun r => (c, r)).toList ++ rt) v')
    (h : Z.Holds M J ⟨pre ++ (c, t) :: post, s, st, rt⟩)
    (hx : Z.Exclusive ⟨pre ++ (c, t) :: post, s, st, rt⟩)
    (hx' : Z.Exclusive ⟨pre ++ inFlight c t' ++ post, s', st, results c t' ++ rt⟩)
    (hm : t.move M e s = some (t', s')) :
    Z.Holds M J ⟨pre ++ inFlight c t' ++ post, s', st, results c t' ++ rt⟩ := by
  have hother : ∀ u ∈ pre ++ post, Z.critical t = true → Z.critical u.2 = false :=
    fun u hu ht => hx.other hu ht
  have hother' : ∀ u ∈ pre ++ post, Z.critical t' = true → Z.critical u.2 = false := by
    intro u hu ht'
    rw [inFlight_of_critical ht', append_assoc, singleton_append] at hx'
    exact hx'.other hu ht'
  have hquiet : Z.critical t = false → (∀ u ∈ pre ++ post, Z.critical u.2 = false) →
      Z.quiet (Z.view s) := by
    intro ht hall
    rw [forall_mem_append] at hall
    refine h.quiet (forall_mem_append.2 ⟨hall.1, forall_mem_cons.2 ⟨ht, hall.2⟩⟩)
  obtain ⟨hst, hg⟩ := h.guarded (c, t) (mem_append_right _ mem_cons_self)
  obtain ⟨⟨heffect, hsame, hleft⟩, hg'⟩ := hg.move hm
    ⟨fun _ => rfl, fun ht ht' => hquiet ht fun u hu => hother' u hu ht'⟩
  refine ⟨hstep _ _ _ _ _ _ hst heffect h.inv, fun hall => ?_, fun u hu => ?_⟩
  · have ht' : Z.critical t' = false := by
      by_contra hc
      rw [Bool.not_eq_false] at hc
      have hmem : (c, t') ∈ pre ++ inFlight c t' ++ post := by simp [inFlight_of_critical hc]
      exact absurd (hall _ hmem) (by simp [hc])
    cases ht : Z.critical t with
    | true => exact hleft ht ht'
    | false =>
      rw [hsame ht ht']
      rw [forall_mem_append, forall_mem_append] at hall
      exact hquiet ht (forall_mem_append.2 ⟨hall.1.1, hall.2⟩)
  · rcases mem_moved hu with hu | rfl
    · have hmem : u ∈ pre ++ (c, t) :: post :=
        (sublist_cons_self (c, t) post).append_left pre |>.subset hu
      obtain ⟨hust, hug⟩ := h.guarded u hmem
      refine ⟨hust, ?_⟩
      cases hc : Z.critical u.2 with
      | false => exact hug.of_not_critical hc _
      | true =>
        -- the others do not change the view of the computation in its section
        have ht : Z.critical t = false := Bool.eq_false_iff.2 fun ht => by simp [hother u hu ht] at hc
        have ht' : Z.critical t' = false :=
          Bool.eq_false_iff.2 fun ht' => by simp [hother' u hu ht'] at hc
        have hview : Z.view s' = Z.view s := hsame ht ht'
        exact hview ▸ hug
    · exact ⟨hst, hg'⟩

/-- **Critical sections.** `J` holds after every schedule in which the sections do not overlap, and
the view is quiet when no computation is in its section. -/
theorem holds_run (hstart : ∀ c st rt v, J st rt v → J (c :: st) rt v)
    (hstep : ∀ c r st rt v v', c ∈ st → Z.effect c r v v' → J st rt v →
      J st ((r.map fun r => (c, r)).toList ++ rt) v') {schedule : List (Turn τ ε)}
    (hprog : ∀ c, .start c ∈ schedule → Z.critical (prog c) = false ∧ ∀ v, Z.Guarded M c (prog c) v)
    (hx : ∀ l, l <+: schedule → Z.Exclusive (run M prog l p)) (hp : Z.Holds M J p) :
    Z.Holds M J (run M prog schedule p) := by
  induction schedule using List.reverseRecOn with
  | nil => exact hp
  | append_singleton schedule x ih =>
    have hprev : Z.Holds M J (run M prog schedule p) :=
      ih (fun c hc => hprog c (mem_append_left _ hc))
        fun l hl => hx l (hl.trans (prefix_append _ _))
    have hbefore := hx schedule (prefix_append _ _)
    have hafter := hx _ (prefix_refl (schedule ++ [x]))
    have hrun : run M prog (schedule ++ [x]) p = turn M prog (run M prog schedule p) x :=
      foldl_append
    rw [hrun] at hafter ⊢
    generalize run M prog schedule p = q at hprev hbefore hafter ⊢
    cases x with
    | start c =>
      obtain ⟨hc, hg⟩ := hprog c (by simp)
      refine ⟨hstart _ _ _ _ hprev.inv, fun hall => ?_, fun u hu => ?_⟩
      · exact hprev.quiet (forall_mem_append.1 hall).1
      · rcases mem_append.1 hu with hu | hu
        · exact ⟨mem_cons_of_mem _ (hprev.guarded u hu).1, (hprev.guarded u hu).2⟩
        · obtain rfl := mem_singleton.1 hu
          exact ⟨mem_cons_self, hg _⟩
    | move i e =>
      have hmove : turn M prog q (.move i e) = q ∨ _ := turn_move q i e
      rcases hmove with heq | ⟨pre, c, t, post, t', s', htasks, hm, heq⟩
      · rw [heq]
        exact hprev
      · rw [heq] at hafter ⊢
        obtain ⟨tasks, s, st, rt⟩ := q
        obtain rfl : tasks = _ := htasks
        exact hprev.move hstep hbefore hafter hm

end Sections

end Async
