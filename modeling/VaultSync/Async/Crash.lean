import VaultSync.Async.Embedding

/-! Computations cut short: the states in which a run may stop, and how many of a kind of
operation it has done by then. -/

namespace Async

variable {S S' : Signature} {L L' E ε σ σ' α β : Type}

/-- Run alone from `s`, the computation is in the state `c` between two of its steps, before the
first or after the last. -/
def Visits (M : Machine S L ε σ) : Prog S L E α → σ → σ → Prop
  | .ret _, s, c => c = s
  | .fail _, s, c => c = s
  | .call op k, s, c => c = s ∨
      ∃ e, M.allow op e s ∧ Visits M (k (M.handle op e s).1) (M.handle op e s).2 c
  | .sync f k, s, c => c = s ∨ Visits M (k (M.memory s)) (M.setMemory (f (M.memory s)) s) c

variable {M : Machine S L ε σ} {M' : Machine S' L' ε σ'} {s c : σ} {t : Prog S L E α}

lemma visits_self (t : Prog S L E α) (s : σ) : Visits M t s s := by
  cases t with
  | ret a => rfl
  | fail e => rfl
  | call op k | sync f k => exact .inl rfl

variable {P : σ → Prop} {i : Embedding S L S' L'}

lemma Visits.of_always (hc : Visits M t s c) (hs : P s)
    (ht : Always M (fun _ s' => P s') t s) : P c := by
  induction t generalizing s with
  | ret a | fail e => exact hc ▸ hs
  | call op k ih =>
    rcases hc with rfl | ⟨e, he, hc⟩
    · exact hs
    · exact ih _ hc (ht e he).1 (ht e he).2
  | sync f k ih =>
    rcases hc with rfl | hc
    · exact hs
    · exact ih _ hc ht.1 ht.2

lemma Always.and {G G' : σ → σ → Prop} (h : Always M G t s) (h' : Always M G' t s) :
    Always M (fun s s' => G s s' ∧ G' s s') t s := by
  induction t generalizing s with
  | ret a => trivial
  | fail e => trivial
  | call op k ih => exact fun e he => ⟨⟨(h e he).1, (h' e he).1⟩, ih _ (h e he).2 (h' e he).2⟩
  | sync f k ih => exact ⟨⟨h.1, h'.1⟩, ih _ h.2 h'.2⟩

lemma visits_advance [Inhabited ε] (hallow : ∀ op s, M.allow op default s) (n : ℕ)
    (t : Prog S L E α) (s : σ) : Visits M t s (advance M n t s).2 := by
  induction n generalizing t s with
  | zero => exact visits_self t s
  | succ n ih =>
    cases t with
    | ret a => rfl
    | fail e => rfl
    | call op k => exact .inr ⟨default, hallow op s, ih _ _⟩
    | sync f k => exact .inr (ih _ _)

/-! ## Counting operations -/

def Machine.counting (M : Machine S L ε σ) (cost : S.Op → ℕ) : Machine S L ε (σ × ℕ) where
  handle op e s := ((M.handle op e s.1).1, (M.handle op e s.1).2, s.2 + cost op)
  allow op e s := M.allow op e s.1
  memory s := M.memory s.1
  setMemory l s := (M.setMemory l s.1, s.2)

variable {cost : S.Op → ℕ} {n m : ℕ}

lemma Machine.LawfulMemory.counting (h : M.LawfulMemory) : (M.counting cost).LawfulMemory where
  memory_setMemory l s := h.memory_setMemory l s.1
  setMemory_setMemory l l' s := by simp [Machine.counting, h.setMemory_setMemory]
  setMemory_memory s := by simp [Machine.counting, h.setMemory_memory]

lemma Embedding.Realizes.counting {part : σ' → σ}
    {replace : σ → σ' → σ'} (h : i.Realizes M M' part replace) (cost' : S'.Op → ℕ) :
    i.Realizes (M.counting fun o => cost' (i.op o)) (M'.counting cost')
      (fun s => (part s.1, s.2)) (fun p s => (replace p.1 s.1, p.2)) where
  ans_handle o e s := h.ans_handle o e s.1
  state_handle o e s := by simp [Machine.counting, h.state_handle]
  allow_iff o e s := h.allow_iff o e s.1
  get_memory s := h.get_memory s.1
  setMemory_put l s := by simp [Machine.counting, h.setMemory_put]
  part_replace p s := by simp only [h.part_replace]
  replace_replace p q s := by simp only [h.replace_replace]
  replace_part s := by simp only [h.replace_part]

def Prog.Within (cost : S.Op → ℕ) : ℕ → Prog S L E α → Prop
  | _, .ret _ => True
  | _, .fail _ => True
  | m, .call op k => ∃ m', cost op + m' ≤ m ∧ ∀ x, (k x).Within cost m'
  | m, .sync _ k => ∀ l, (k l).Within cost m

lemma Prog.Within.mono (ht : t.Within cost n) (h : n ≤ m) : t.Within cost m := by
  induction t generalizing n m with
  | ret a => trivial
  | fail e => trivial
  | call op k ih =>
    obtain ⟨n', hn, hk⟩ := ht
    exact ⟨n', Nat.le_trans hn h, hk⟩
  | sync f k ih => exact fun l => ih l (ht l) h

lemma Prog.Within.bind {f : α → Prog S L E β} (ht : t.Within cost n)
    (hf : ∀ a, (f a).Within cost m) : (t >>= f).Within cost (n + m) := by
  induction t generalizing n with
  | ret a => exact (hf a).mono (Nat.le_add_left m n)
  | fail e => trivial
  | call op k ih =>
    obtain ⟨n', hn, hk⟩ := ht
    have hle : cost op + (n' + m) ≤ n + m := by omega
    exact ⟨n' + m, hle, fun x => ih x (hk x)⟩
  | sync g k ih => exact fun l => ih l (ht l)

lemma Prog.Within.embed {cost' : S'.Op → ℕ}
    (ht : t.Within (fun o => cost' (i.op o)) n) : (t.embed i).Within cost' n := by
  induction t generalizing n with
  | ret a => trivial
  | fail e => trivial
  | call o k ih =>
    obtain ⟨n', hn, hk⟩ := ht
    exact ⟨n', hn, fun x => ih _ (hk _)⟩
  | sync g k ih => exact fun l => ih _ (ht _)

lemma Prog.within_zero (t : Prog S L E α) : t.Within (fun _ => 0) 0 := by
  induction t with
  | ret a => trivial
  | fail e => trivial
  | call op k ih => exact ⟨0, Nat.le_refl 0, ih⟩
  | sync f k ih => exact ih

lemma wp_counting {Q : Except E α → σ → Prop} (h : wp M Q t s) (ht : t.Within cost m) :
    wp (M.counting cost) (fun r p => Q r p.1 ∧ p.2 ≤ n + m) t (s, n) := by
  induction t generalizing s n m with
  | ret a | fail e => exact ⟨h, Nat.le_add_right n m⟩
  | call op k ih =>
    intro e he
    obtain ⟨m', hm, hk⟩ := ht
    have hle : n + cost op + m' ≤ n + m := by omega
    exact (ih _ (h e he) (hk _)).mono fun r p hr => ⟨hr.1, Nat.le_trans hr.2 hle⟩
  | sync f k ih => exact ih _ h (ht _)

lemma always_counting [Inhabited ε] (hallow : ∀ op s, M.allow op default s)
    (h : wp (M.counting cost) (fun _ p => p.2 ≤ m) t (s, n)) :
    Always (M.counting cost) (fun _ p => p.2 ≤ m) t (s, n) := by
  have hstart : ∀ (t : Prog S L E α) (p : σ × ℕ),
      wp (M.counting cost) (fun _ p => p.2 ≤ m) t p → p.2 ≤ m := by
    intro t
    induction t with
    | ret a | fail e => exact fun p h => h
    | call op k ih =>
      exact fun p h => Nat.le_trans (Nat.le_add_right _ _) (ih _ _ (h default (hallow op p.1)))
    | sync f k ih => exact fun p h => ih (M.memory p.1) (M.setMemory (f (M.memory p.1)) p.1, p.2) h
  generalize (s, n) = p at h
  induction t generalizing p with
  | ret a => trivial
  | fail e => trivial
  | call op k ih => exact fun e he => ⟨hstart _ _ (h e he), ih _ _ (h e he)⟩
  | sync f k ih => exact ⟨hstart (k (M.memory p.1)) _ h, ih (M.memory p.1) _ h⟩

end Async
