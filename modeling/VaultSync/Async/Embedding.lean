import Mathlib.Data.Nat.Notation
import VaultSync.Async.Sequential

/-! Computations on a part of a larger process, and what each of their steps does. -/

namespace Async

variable {S S' : Signature} {L L' E ε σ σ' α β : Type}

/-- How the operations and the memory of a part lie in those of the whole. -/
structure Embedding (S : Signature) (L : Type) (S' : Signature) (L' : Type) where
  op : S.Op → S'.Op
  ans : (o : S.Op) → S'.Ans (op o) → S.Ans o
  get : L' → L
  put : L → L' → L'

def Prog.embed (i : Embedding S L S' L') : Prog S L E α → Prog S' L' E α
  | .ret a => .ret a
  | .fail e => .fail e
  | .call o k => .call (i.op o) fun x => (k (i.ans o x)).embed i
  | .sync f k => .sync (fun l => i.put (f (i.get l)) l) fun l => (k (i.get l)).embed i

structure Embedding.Realizes (i : Embedding S L S' L') (M : Machine S L ε σ)
    (M' : Machine S' L' ε σ') (part : σ' → σ) (replace : σ → σ' → σ') : Prop where
  ans_handle : ∀ o e s, i.ans o (M'.handle (i.op o) e s).1 = (M.handle o e (part s)).1
  state_handle : ∀ o e s, (M'.handle (i.op o) e s).2 = replace (M.handle o e (part s)).2 s
  allow_iff : ∀ o e s, M'.allow (i.op o) e s ↔ M.allow o e (part s)
  get_memory : ∀ s, i.get (M'.memory s) = M.memory (part s)
  setMemory_put : ∀ l s, M'.setMemory (i.put l (M'.memory s)) s =
    replace (M.setMemory l (part s)) s
  part_replace : ∀ p s, part (replace p s) = p
  replace_replace : ∀ p q s, replace q (replace p s) = replace q s
  replace_part : ∀ s, replace (part s) s = s

variable {i : Embedding S L S' L'} {M : Machine S L ε σ} {M' : Machine S' L' ε σ'} {part : σ' → σ}
  {replace : σ → σ' → σ'} {Q : Except E α → σ' → Prop} {t : Prog S L E α} {f : α → Prog S L E β}

lemma wp_embed (h : i.Realizes M M' part replace) (t : Prog S L E α) {s : σ'} :
    wp M' Q (t.embed i) s ↔ wp M (fun r p => Q r (replace p s)) t (part s) := by
  induction t generalizing s with
  | ret a =>
    change Q (.ok a) s ↔ Q (.ok a) (replace (part s) s)
    rw [h.replace_part]
  | fail e =>
    change Q (.error e) s ↔ Q (.error e) (replace (part s) s)
    rw [h.replace_part]
  | call o k ih =>
    refine forall_congr' fun e => imp_congr (h.allow_iff o e s) ?_
    dsimp only
    rw [h.ans_handle, h.state_handle, ih]
    simp only [h.part_replace, h.replace_replace]
  | sync f k ih =>
    change wp M' Q ((k (i.get (M'.memory s))).embed i) _ ↔ wp M _ (k (M.memory (part s))) _
    rw [h.setMemory_put, h.get_memory, ih]
    simp only [h.part_replace, h.replace_replace]

/-! ## Every step -/

def Always (M : Machine S L ε σ) (G : σ → σ → Prop) : Prog S L E α → σ → Prop
  | .ret _, _ => True
  | .fail _, _ => True
  | .call op k, s => ∀ e, M.allow op e s →
      G s (M.handle op e s).2 ∧ Always M G (k (M.handle op e s).1) (M.handle op e s).2
  | .sync f k, s => G s (M.setMemory (f (M.memory s)) s) ∧
      Always M G (k (M.memory s)) (M.setMemory (f (M.memory s)) s)

variable {G G' : σ → σ → Prop} {s : σ}

lemma always_bind (ht : Always M G t s)
    (hf : wp M (fun r s' =>
      match r with
      | .ok a => Always M G (f a) s'
      | .error _ => True) t s) : Always M G (t >>= f) s := by
  induction t generalizing s with
  | ret a => exact hf
  | fail e => trivial
  | call op k ih => exact fun e he => ⟨(ht e he).1, ih _ (ht e he).2 (hf e he)⟩
  | sync g k ih => exact ⟨ht.1, ih _ ht.2 hf⟩

lemma Always.mono (h : Always M G t s) (hG : ∀ s s', G s s' → G' s s') : Always M G' t s := by
  induction t generalizing s with
  | ret a => trivial
  | fail e => trivial
  | call op k ih => exact fun e he => ⟨hG _ _ (h e he).1, ih _ (h e he).2⟩
  | sync g k ih => exact ⟨hG _ _ h.1, ih _ h.2⟩

lemma always_of_invariant {P : σ → Prop} (hs : P s) (hcall : ∀ op e s, P s → P (M.handle op e s).2)
    (hsync : ∀ l s, P s → P (M.setMemory l s)) (t : Prog S L E α) :
    Always M (fun _ s' => P s') t s := by
  induction t generalizing s with
  | ret a => trivial
  | fail e => trivial
  | call op k ih => exact fun e _ => ⟨hcall op e s hs, ih _ (hcall op e s hs)⟩
  | sync f k ih => exact ⟨hsync _ s hs, ih _ (hsync _ s hs)⟩

lemma always_of_wp_le [Inhabited ε] (μ : σ → ℕ) (hallow : ∀ op s, M.allow op default s)
    (hcall : ∀ op e s, μ s ≤ μ (M.handle op e s).2) (hsync : ∀ l s, μ s ≤ μ (M.setMemory l s))
    {n : ℕ} (hn : n ≤ μ s) (h : wp M (fun _ s' => μ s' ≤ n) t s) :
    Always M (fun s s' => μ s' = μ s) t s := by
  -- the run with the default choices bounds the start by the end
  have hstart : ∀ (t : Prog S L E α) (s : σ), wp M (fun _ s' => μ s' ≤ n) t s → μ s ≤ n := by
    intro t
    induction t with
    | ret a | fail e => exact fun s h => h
    | call op k ih =>
      exact fun s h => Nat.le_trans (hcall op default s) (ih _ _ (h default (hallow op s)))
    | sync f k ih => exact fun s h => Nat.le_trans (hsync _ s) (ih _ _ h)
  induction t generalizing s with
  | ret a => trivial
  | fail e => trivial
  | call op k ih =>
    intro e he
    have hle := hcall op e s
    have hge := hstart _ _ (h e he)
    exact ⟨Nat.le_antisymm (Nat.le_trans hge hn) hle, ih _ (Nat.le_trans hn hle) (h e he)⟩
  | sync f k ih =>
    have hle := hsync (f (M.memory s)) s
    have hge := hstart (k (M.memory s)) _ h
    exact ⟨Nat.le_antisymm (Nat.le_trans hge hn) hle, ih _ (Nat.le_trans hn hle) h⟩

lemma always_embed (h : i.Realizes M M' part replace) {G : σ' → σ' → Prop} (t : Prog S L E α)
    {s : σ'} :
    Always M' G (t.embed i) s ↔ Always M (fun p q => G (replace p s) (replace q s)) t (part s) := by
  induction t generalizing s with
  | ret a => rfl
  | fail e => rfl
  | call o k ih =>
    refine forall_congr' fun e => imp_congr (h.allow_iff o e s) ?_
    dsimp only
    rw [h.ans_handle, h.state_handle, ih, h.replace_part]
    simp only [h.part_replace, h.replace_replace]
  | sync f k ih =>
    change _ ∧ Always M' G ((k (i.get (M'.memory s))).embed i) _ ↔ _ ∧ _
    dsimp only
    rw [h.setMemory_put, h.get_memory, ih, h.replace_part]
    simp only [h.part_replace, h.replace_replace]

def Upholds (M : Machine S L ε σ) (G : σ → σ → Prop) (Q : Except E α → σ → Prop)
    (t : Prog S L E α) (s : σ) : Prop :=
  Always M G t s ∧ wp M Q t s

lemma Upholds.mono {Q Q' : Except E α → σ → Prop}
    (h : Upholds M G Q t s) (hQ : ∀ r s, Q r s → Q' r s) : Upholds M G Q' t s :=
  ⟨h.1, h.2.mono hQ⟩

lemma upholds_bind {Q : Except E β → σ → Prop}
    (h : Upholds M G (fun r s' =>
      match r with
      | .ok a => Upholds M G Q (f a) s'
      | .error e => Q (.error e) s') t s) : Upholds M G Q (t >>= f) s := by
  refine ⟨always_bind h.1 (h.2.mono fun r s' hr => ?_), (wp_bind t f).2 (h.2.mono fun r s' hr => ?_)⟩
  · cases r with
    | ok a => exact hr.1
    | error e => trivial
  · cases r with
    | ok a => exact hr.2
    | error e => exact hr

lemma upholds_embed (h : i.Realizes M M' part replace) {G : σ' → σ' → Prop} (t : Prog S L E α)
    {s : σ'} :
    Upholds M' G Q (t.embed i) s ↔
      Upholds M (fun p q => G (replace p s) (replace q s)) (fun r p => Q r (replace p s)) t
        (part s) :=
  and_congr (always_embed h t) (wp_embed h t)

end Async
