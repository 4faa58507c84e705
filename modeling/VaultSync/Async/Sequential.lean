import VaultSync.Async.Program

/-! Computations that run alone: weakest preconditions, and the outcomes they are about. -/

namespace Async

variable {S : Signature} {L E E' ε σ τ α β : Type}

/-- Every way to answer the operations of a computation that runs alone ends in `Q`. -/
def wp (M : Machine S L ε σ) (Q : Except E α → σ → Prop) : Prog S L E α → σ → Prop
  | .ret a, s => Q (.ok a) s
  | .fail e, s => Q (.error e) s
  | .call op k, s => ∀ e, M.allow op e s → wp M Q (k (M.handle op e s).1) (M.handle op e s).2
  | .sync f k, s => wp M Q (k (M.memory s)) (M.setMemory (f (M.memory s)) s)

def Outcome (M : Machine S L ε σ) : Prog S L E α → σ → Except E α → σ → Prop
  | .ret a, s, r, s' => r = .ok a ∧ s' = s
  | .fail e, s, r, s' => r = .error e ∧ s' = s
  | .call op k, s, r, s' =>
      ∃ e, M.allow op e s ∧ Outcome M (k (M.handle op e s).1) (M.handle op e s).2 r s'
  | .sync f k, s, r, s' => Outcome M (k (M.memory s)) (M.setMemory (f (M.memory s)) s) r s'

def run [Inhabited ε] (M : Machine S L ε σ) : Prog S L E α → List ε → σ → Except E α × σ
  | .ret a, _, s => (.ok a, s)
  | .fail e, _, s => (.error e, s)
  | .call op k, es, s =>
      run M (k (M.handle op (es.headD default) s).1) es.tail (M.handle op (es.headD default) s).2
  | .sync f k, es, s => run M (k (M.memory s)) es (M.setMemory (f (M.memory s)) s)

variable {M : Machine S L ε σ} {Q Q' : Except E α → σ → Prop} {s s' : σ}

@[simp] lemma wp_pure (a : α) : wp M Q (pure a : Prog S L E α) s ↔ Q (.ok a) s := Iff.rfl

@[simp] lemma wp_ofExcept (r : Except E α) : wp M Q (.ofExcept r) s ↔ Q r s := by
  cases r <;> rfl

lemma wp_bind (t : Prog S L E α) (f : α → Prog S L E β) {Q : Except E β → σ → Prop} :
    wp M Q (t >>= f) s ↔
      wp M (fun r s' =>
        match r with
        | .ok a => wp M Q (f a) s'
        | .error e => Q (.error e) s') t s := by
  induction t generalizing s with
  | ret a => rfl
  | fail e => rfl
  | call op k ih => exact forall₂_congr fun e _ => ih _
  | sync g k ih => exact ih _

lemma wp_attempt (t : Prog S L E α) {Q : Except E' (Except E α) → σ → Prop} :
    wp M Q t.attempt s ↔ wp M (fun r => Q (.ok r)) t s := by
  induction t generalizing s with
  | ret a => rfl
  | fail e => rfl
  | call op k ih => exact forall₂_congr fun e _ => ih _
  | sync g k ih => exact ih _

variable {c : Prop} {t : Prog S L E α} {f : α → Prog S L E β} {P : Protocol σ}
  {M' : Machine S L ε σ}

lemma wp_ite [Decidable c] (t u : Prog S L E α) :
    wp M Q (if c then t else u) s ↔ (c → wp M Q t s) ∧ (¬ c → wp M Q u s) := by
  by_cases h : c <;> simp [h]

lemma wp_iff_outcome : wp M Q t s ↔ ∀ r s', Outcome M t s r s' → Q r s' := by
  induction t generalizing s with
  | ret a | fail e => exact ⟨by rintro h _ _ ⟨rfl, rfl⟩; exact h, fun h => h _ _ ⟨rfl, rfl⟩⟩
  | call op k ih =>
    constructor
    · rintro h a s' ⟨e, he, ho⟩
      exact (ih _).1 (h e he) a s' ho
    · exact fun h e he => (ih _).2 fun a s' ho => h a s' ⟨e, he, ho⟩
  | sync f k ih => exact ih _

lemma wp.mono (h : wp M Q t s) (hQ : ∀ r s, Q r s → Q' r s) : wp M Q' t s :=
  wp_iff_outcome.2 fun r s' ho => hQ r s' (wp_iff_outcome.1 h r s' ho)

lemma wp.bind {Q' : Except E β → σ → Prop}
    (h : wp M Q t s) (hok : ∀ a s', Q (.ok a) s' → wp M Q' (f a) s')
    (herr : ∀ e s', Q (.error e) s' → Q' (.error e) s') : wp M Q' (t >>= f) s := by
  refine (wp_bind t f).2 (h.mono fun r s' hr => ?_)
  cases r with
  | ok a => exact hok a s' hr
  | error e => exact herr e s' hr

lemma wp.then {Q' : Except E β → σ → Prop} {R : σ → Prop} {a : α}
    (h : wp M (fun r s' => r = .ok a ∧ R s') t s) (hR : ∀ s', R s' → wp M Q' (f a) s') :
    wp M Q' (t >>= f) s := by
  refine h.bind ?_ fun _ _ hr => nomatch hr.1
  rintro _ s' ⟨⟨⟩, hs'⟩
  exact hR s' hs'

lemma wp.and (h : wp M Q t s) (h' : wp M Q' t s) : wp M (fun r s' => Q r s' ∧ Q' r s') t s :=
  wp_iff_outcome.2 fun r s' ho => ⟨wp_iff_outcome.1 h r s' ho, wp_iff_outcome.1 h' r s' ho⟩

lemma exists_of_wp {A : S.Op → ε → σ → Prop}
    (hsome : ∀ op s, ∃ e, A op e s) (hsub : ∀ op e s, A op e s → M.allow op e s) (h : wp M Q t s)
    (h' : wp { M with allow := A } Q' t s) : ∃ r s', Q r s' ∧ Q' r s' := by
  induction t generalizing s with
  | ret a => exact ⟨.ok a, s, h, h'⟩
  | fail e => exact ⟨.error e, s, h, h'⟩
  | call op k ih =>
    obtain ⟨e, he⟩ := hsome op s
    exact ih _ (h e (hsub op e s he)) (h' e he)
  | sync f k ih => exact ih _ h h'

lemma wp_congr (h : wp M (fun r s' => Q r s' ↔ Q' r s') t s) : wp M Q t s ↔ wp M Q' t s := by
  simp only [wp_iff_outcome] at h ⊢
  exact forall₂_congr fun r s' => forall_congr' fun ho => h r s' ho

lemma Safe.wp (h : Safe M P Q t s) (hi : P.inv s) : wp M (fun r s' => P.inv s' ∧ Q r s') t s := by
  induction t generalizing s with
  | ret a | fail e => exact ⟨hi, h s hi (P.rely_refl s)⟩
  | call op k ih =>
    intro e he
    obtain ⟨hi', -, hk⟩ := h s hi (P.rely_refl s) e he
    exact ih _ hk hi'
  | sync f k ih =>
    obtain ⟨hi', -, hk⟩ := h s hi (P.rely_refl s)
    exact ih _ hk hi'

/-! ## Which operations are awaited -/

def Awaits (M : Machine S L ε σ) (p : S.Op → Prop) : Prog S L E α → σ → Prop
  | .ret _, _ => False
  | .fail _, _ => False
  | .call op k, s =>
      p op ∨ ∀ e, M.allow op e s → Awaits M p (k (M.handle op e s).1) (M.handle op e s).2
  | .sync f k, s => Awaits M p (k (M.memory s)) (M.setMemory (f (M.memory s)) s)

def Prog.Only (p : S.Op → Prop) : Prog S L E α → Prop
  | .ret _ => True
  | .fail _ => True
  | .call op k => p op ∧ ∀ x, (k x).Only p
  | .sync _ k => ∀ l, (k l).Only p

variable {p : S.Op → Prop}

lemma Prog.Only.bind (ht : t.Only p) (hf : ∀ a, (f a).Only p) : (t >>= f).Only p := by
  induction t with
  | ret a => exact hf a
  | fail e => trivial
  | call op k ih => exact ⟨ht.1, fun x => ih x (ht.2 x)⟩
  | sync g k ih => exact fun l => ih l (ht l)

lemma Prog.Only.attempt (ht : t.Only p) : (t.attempt : Prog S L E' (Except E α)).Only p := by
  induction t with
  | ret a => trivial
  | fail e => trivial
  | call op k ih => exact ⟨ht.1, fun x => ih x (ht.2 x)⟩
  | sync g k ih => exact fun l => ih l (ht l)

lemma Prog.only_ofExcept (r : Except E α) : (Prog.ofExcept r : Prog S L E α).Only p := by
  cases r <;> trivial

lemma Prog.Only.ite {_ : Decidable c} {u : Prog S L E α} (ht : t.Only p)
    (hu : u.Only p) : (if c then t else u).Only p := by
  split
  · exact ht
  · exact hu

lemma Prog.Only.mono {q : S.Op → Prop} (ht : t.Only p) (h : ∀ op, p op → q op) : t.Only q := by
  induction t with
  | ret a => trivial
  | fail e => trivial
  | call op k ih => exact ⟨h op ht.1, fun x => ih x (ht.2 x)⟩
  | sync g k ih => exact fun l => ih l (ht l)

lemma Prog.Only.safe {F : σ → Prop} (ht : t.Only p) (hrely : ∀ s s', P.rely s s' → F s → F s')
    (hcall : ∀ op e s, p op → P.inv s → M.allow op e s → F s →
      P.inv (M.handle op e s).2 ∧ P.guar s (M.handle op e s).2 ∧ F (M.handle op e s).2)
    (hsync : ∀ l s, P.inv s → F s →
      P.inv (M.setMemory l s) ∧ P.guar s (M.setMemory l s) ∧ F (M.setMemory l s)) (hF : F s) :
    Safe M P (fun _ => F) t s := by
  induction t generalizing s with
  | ret a | fail e => exact fun s' _ hr => hrely s s' hr hF
  | call op k ih =>
    intro s' hs' hr e he
    obtain ⟨hi, hg, hF'⟩ := hcall op e s' ht.1 hs' he (hrely s s' hr hF)
    exact ⟨hi, hg, ih _ (ht.2 _) hF'⟩
  | sync f k ih =>
    intro s' hs' hr
    obtain ⟨hi, hg, hF'⟩ := hsync (f (M.memory s')) s' hs' (hrely s s' hr hF)
    exact ⟨hi, hg, ih _ (ht _) hF'⟩

def Prog.Sections (g : (L → L) → Prop) : Prog S L E α → Prop
  | .ret _ => True
  | .fail _ => True
  | .call _ k => ∀ x, (k x).Sections g
  | .sync f k => g f ∧ ∀ l, (k l).Sections g

section Sections

variable {g : (L → L) → Prop} {t : Prog S L E α}

lemma Prog.Sections.bind (ht : t.Sections g)
    (hf : ∀ a, (f a).Sections g) : (t >>= f).Sections g := by
  induction t with
  | ret a => exact hf a
  | fail e => trivial
  | call op k ih => exact fun x => ih x (ht x)
  | sync f' k ih => exact ⟨ht.1, fun l => ih l (ht.2 l)⟩

lemma Prog.sections_ofExcept (r : Except E α) : (Prog.ofExcept r : Prog S L E α).Sections g := by
  cases r <;> trivial

lemma Prog.Sections.ite {_ : Decidable c} {u : Prog S L E α} (ht : t.Sections g)
    (hu : u.Sections g) : (if c then t else u).Sections g := by
  split
  · exact ht
  · exact hu

lemma Prog.Sections.safe {F : σ → Prop} (ht : t.Sections g)
    (hrely : ∀ s s', P.rely s s' → F s → F s') (hcall : ∀ op e s, P.inv s → F s →
      P.inv (M.handle op e s).2 ∧ P.guar s (M.handle op e s).2 ∧ F (M.handle op e s).2)
    (hsync : ∀ f s, g f → P.inv s → F s → P.inv (M.setMemory (f (M.memory s)) s) ∧
      P.guar s (M.setMemory (f (M.memory s)) s) ∧ F (M.setMemory (f (M.memory s)) s)) (hF : F s) :
    Safe M P (fun _ => F) t s := by
  induction t generalizing s with
  | ret a | fail e => exact fun s' _ hr => hrely s s' hr hF
  | call op k ih =>
    intro s' hs' hr e _
    obtain ⟨hi, hg, hF'⟩ := hcall op e s' hs' (hrely s s' hr hF)
    exact ⟨hi, hg, ih _ (ht _) hF'⟩
  | sync f k ih =>
    intro s' hs' hr
    obtain ⟨hi, hg, hF'⟩ := hsync f s' ht.1 hs' (hrely s s' hr hF)
    exact ⟨hi, hg, ih _ (ht.2 _) hF'⟩

end Sections

lemma Prog.Only.wp {inv : σ → Prop} (ht : t.Only p) (hs : inv s)
    (hcall : ∀ op e s, p op → inv s → inv (M.handle op e s).2)
    (hsync : ∀ l s, inv s → inv (M.setMemory l s)) : wp M (fun _ s' => inv s') t s := by
  induction t generalizing s with
  | ret a => exact hs
  | fail e => exact hs
  | call op k ih => exact fun e _ => ih _ (ht.2 _) (hcall op e s ht.1 hs)
  | sync f k ih => exact ih _ (ht _) (hsync _ s hs)

lemma Prog.Only.wp_iff (ht : t.Only p) (hallow : ∀ op, p op → M.allow op = M'.allow op)
    (hhandle : ∀ op, p op → M.handle op = M'.handle op) (hmemory : M.memory = M'.memory)
    (hset : M.setMemory = M'.setMemory) : Async.wp M Q t s ↔ Async.wp M' Q t s := by
  induction t generalizing s with
  | ret a => rfl
  | fail e => rfl
  | call op k ih =>
    rw [Async.wp, Async.wp, hallow op ht.1, hhandle op ht.1]
    exact forall₂_congr fun e _ => ih _ (ht.2 _)
  | sync f k ih =>
    rw [Async.wp, Async.wp, hmemory, hset]
    exact ih _ (ht _)

variable (M)

structure Machine.LawfulMemory : Prop where
  memory_setMemory : ∀ l s, M.memory (M.setMemory l s) = l
  setMemory_setMemory : ∀ l l' s, M.setMemory l (M.setMemory l' s) = M.setMemory l s
  setMemory_memory : ∀ s, M.setMemory (M.memory s) s = s

/-! ## Assumptions about a run -/

structure Machine.NeverRegains (A : σ → Prop) : Prop where
  of_handle : ∀ op e s, A (M.handle op e s).2 → A s
  of_setMemory : ∀ l s, A (M.setMemory l s) → A s

def Assuming (A : σ → Prop) (Q : Except E α → σ → Prop) (t : Prog S L E α) (s : σ) : Prop :=
  wp M (fun r s' => A s' → Q r s') t s

variable {M} {A : σ → Prop}

lemma Machine.NeverRegains.wp_not (hA : M.NeverRegains A) (t : Prog S L E α) (hs : ¬ A s) :
    wp M (fun _ s' => ¬ A s') t s := by
  induction t generalizing s with
  | ret a => exact hs
  | fail e => exact hs
  | call op k ih => exact fun e _ => ih _ fun h => hs (hA.of_handle op e s h)
  | sync f k ih => exact ih _ fun h => hs (hA.of_setMemory _ s h)

lemma Assuming.mono (h : Assuming M A Q t s)
    (hQ : ∀ r s, A s → Q r s → Q' r s) : Assuming M A Q' t s :=
  wp.mono h fun r s' hr hA => hQ r s' hA (hr hA)

lemma assuming_of_wp (h : wp M Q t s) : Assuming M A Q t s :=
  h.mono fun _ _ hr _ => hr

lemma assuming_bind (hA : M.NeverRegains A)
    {Q : Except E β → σ → Prop}
    (h : Assuming M A (fun r s' =>
      match r with
      | .ok a => Assuming M A Q (f a) s'
      | .error e => Q (.error e) s') t s) : Assuming M A Q (t >>= f) s := by
  refine (wp_bind t f).2 (wp.mono h fun r s' hr => ?_)
  cases r with
  | error e => exact hr
  | ok a =>
    by_cases hs : A s'
    · exact hr hs
    · exact (hA.wp_not (f a) hs).mono fun _ _ hn hA' => absurd hA' hn

def advance [Inhabited ε] (M : Machine S L ε σ) : Nat → Prog S L E α → σ → Prog S L E α × σ
  | k + 1, .call op f, s =>
    advance M k (f (M.handle op default s).1) (M.handle op default s).2
  | k + 1, .sync g f, s => advance M k (f (M.memory s)) (M.setMemory (g (M.memory s)) s)
  | _, t, s => (t, s)

lemma advance_congr [Inhabited ε] (hhandle : M.handle = M'.handle)
    (hmemory : M.memory = M'.memory) (hset : M.setMemory = M'.setMemory) (k : Nat)
    (t : Prog S L E α) (s : σ) : advance M k t s = advance M' k t s := by
  induction k generalizing t s with
  | zero => rfl
  | succ k ih =>
    cases t with
    | ret a => rfl
    | fail e => rfl
    | call op f =>
      rw [advance, advance, hhandle]
      exact ih _ _
    | sync g f =>
      rw [advance, advance, hmemory, hset]
      exact ih _ _

def AllowedSteps [Inhabited ε] (M : Machine S L ε σ) : Nat → Prog S L E α → σ → Prop
  | k + 1, .call op f, s => M.allow op default s ∧
    AllowedSteps M k (f (M.handle op default s).1) (M.handle op default s).2
  | k + 1, .sync g f, s => AllowedSteps M k (f (M.memory s)) (M.setMemory (g (M.memory s)) s)
  | _, _, _ => True

lemma allowedSteps_of_forall [Inhabited ε] (h : ∀ op s, M.allow op default s) (k : Nat)
    (t : Prog S L E α) (s : σ) : AllowedSteps M k t s := by
  induction k generalizing t s with
  | zero => exact trivial
  | succ k ih =>
    cases t with
    | ret a | fail e => exact trivial
    | call op f => exact ⟨h op s, ih _ _⟩
    | sync f g => exact ih _ _

lemma AllowedSteps.split [Inhabited ε] {j k : Nat} (h : AllowedSteps M (j + k) t s) :
    AllowedSteps M j t s ∧ AllowedSteps M k (advance M j t s).1 (advance M j t s).2 := by
  induction j generalizing t s with
  | zero =>
    rw [Nat.zero_add] at h
    exact ⟨trivial, h⟩
  | succ j ih =>
    rw [Nat.succ_add] at h
    cases t with
    | ret a | fail e => exact ⟨trivial, by cases k <;> trivial⟩
    | call op f =>
      obtain ⟨hj, hk⟩ := ih h.2
      exact ⟨⟨h.1, hj⟩, hk⟩
    | sync g f => exact ih (t := f (M.memory s)) h

def Allowed [Inhabited ε] (M : Machine S L ε σ) : Prog S L E α → List ε → σ → Prop
  | .ret _, _, _ => True
  | .fail _, _, _ => True
  | .call op k, es, s => M.allow op (es.headD default) s ∧
      Allowed M (k (M.handle op (es.headD default) s).1) es.tail (M.handle op (es.headD default) s).2
  | .sync f k, es, s => Allowed M (k (M.memory s)) es (M.setMemory (f (M.memory s)) s)

lemma Allowed.outcome [Inhabited ε] {es : List ε}
    (h : Allowed M t es s) : Outcome M t s (run M t es s).1 (run M t es s).2 := by
  induction t generalizing es s with
  | ret a | fail e => exact ⟨rfl, rfl⟩
  | call op k ih => exact ⟨es.headD default, h.1, ih _ h.2⟩
  | sync f k ih => exact ih _ h

lemma run_outcome [Inhabited ε] (t : Prog S L E α) (es : List ε) (s : σ)
    (h : ∀ op s, M.allow op default s ∧ ∀ e ∈ es, M.allow op e s) :
    Outcome M t s (run M t es s).1 (run M t es s).2 := by
  apply Allowed.outcome
  induction t generalizing es s with
  | ret a => trivial
  | fail e => trivial
  | call op k ih =>
    refine ⟨?_, ih _ es.tail _ fun op s => ?_⟩
    · cases es with
      | nil => exact (h op s).1
      | cons e es => exact (h op s).2 e List.mem_cons_self
    · exact ⟨(h op s).1, fun e he => (h op s).2 e (List.mem_of_mem_tail he)⟩
  | sync f k ih => exact ih _ es _ h

lemma wp_iff_of_ends [Inhabited ε] (hallow : ∀ op s, M.allow op default s)
    {P : Prop} (h : wp M (fun r s' => Q r s' ↔ P) t s) : wp M Q t s ↔ P := by
  have hrun : Outcome M t s (run M t [] s).1 (run M t [] s).2 :=
    run_outcome t [] s fun op s => ⟨hallow op s, fun e he => by cases he⟩
  constructor
  · exact fun hQ => (wp_iff_outcome.1 h _ _ hrun).1 (wp_iff_outcome.1 hQ _ _ hrun)
  · exact fun hP => h.mono fun _ _ hr => hr.2 hP

/-- A machine that keeps a record `γ` of its calls and sections. The record decides nothing but,
through `allow`, which choices are looked at. -/
def Machine.noting {γ : Type} (M : Machine S L ε σ) (note : S.Op → ε → σ → γ → γ)
    (mark : L → σ → γ → γ) (allow : S.Op → ε → σ × γ → Prop) : Machine S L ε (σ × γ) where
  handle op e s := ((M.handle op e s.1).1, (M.handle op e s.1).2, note op e s.1 s.2)
  allow := allow
  memory s := M.memory s.1
  setMemory l s := (M.setMemory l s.1, mark l s.1 s.2)

end Async
