import Mathlib.Logic.Relation

/-! Asynchronous computations that may fail: trees of awaited operations and of synchronous
sections on the memory of their process. A machine answers the operations; a protocol says
what other computations may do between two of them. -/

namespace Async

structure Signature where
  Op : Type
  Ans : Op → Type

/-- A computation over process memory `L`: `call` awaits an operation, `sync` runs a section
without an await and goes on with the memory it found. -/
inductive Prog (S : Signature) (L E α : Type) where
  | ret (a : α)
  | fail (e : E)
  | call (op : S.Op) (k : S.Ans op → Prog S L E α)
  | sync (f : L → L) (k : L → Prog S L E α)

variable {S : Signature} {L E E' ε σ α β : Type}

namespace Prog

def bind : Prog S L E α → (α → Prog S L E β) → Prog S L E β
  | ret a, f => f a
  | fail e, _ => fail e
  | call op k, f => call op fun x => (k x).bind f
  | sync g k, f => sync g fun l => (k l).bind f

instance : Monad (Prog S L E) where
  pure := ret
  bind := bind

lemma bind_pure (t : Prog S L E α) : t >>= pure = t := by
  induction t with
  | ret a => rfl
  | fail e => rfl
  | call op k ih => exact congrArg (call op) (funext ih)
  | sync g k ih => exact congrArg (sync g) (funext ih)

lemma bind_assoc {γ : Type} (t : Prog S L E α) (f : α → Prog S L E β) (g : β → Prog S L E γ) :
    t >>= f >>= g = t >>= fun a => f a >>= g := by
  induction t with
  | ret a => rfl
  | fail e => rfl
  | call op k ih => exact congrArg (call op) (funext ih)
  | sync h k ih => exact congrArg (sync h) (funext ih)

def attempt : Prog S L E α → Prog S L E' (Except E α)
  | ret a => ret (.ok a)
  | fail e => ret (.error e)
  | call op k => call op fun x => (k x).attempt
  | sync g k => sync g fun l => (k l).attempt

def ofExcept : Except E α → Prog S L E α
  | .ok a => ret a
  | .error e => fail e

def read (f : L → α) : Prog S L E α := sync id fun l => ret (f l)

def modify (f : L → L) : Prog S L E Unit := sync f fun _ => ret ()

end Prog

/-- Who answers the operations: `handle op e s` is the answer and the next state when the
environment chooses `e`, and `allow` says which choices it has. -/
structure Machine (S : Signature) (L ε σ : Type) where
  handle : (op : S.Op) → ε → σ → S.Ans op × σ
  allow : (op : S.Op) → ε → σ → Prop
  memory : σ → L
  setMemory : L → σ → σ

/-- What every state satisfies, what the others may do between two operations of a
computation, and what each operation of the computation does. -/
structure Protocol (σ : Type) where
  inv : σ → Prop
  rely : σ → σ → Prop
  guar : σ → σ → Prop
  rely_refl : ∀ s, rely s s
  rely_trans : ∀ {s t u}, rely s t → rely t u → rely s u
  guar_refl : ∀ s, guar s s

/-- Whatever the others do within the protocol, every operation of the computation keeps the
invariant and the guarantee, and every result satisfies `Q`. -/
def Safe (M : Machine S L ε σ) (P : Protocol σ) (Q : Except E α → σ → Prop) :
    Prog S L E α → σ → Prop
  | .ret a, s => ∀ s', P.inv s' → P.rely s s' → Q (.ok a) s'
  | .fail e, s => ∀ s', P.inv s' → P.rely s s' → Q (.error e) s'
  | .call op k, s => ∀ s', P.inv s' → P.rely s s' → ∀ e, M.allow op e s' →
      P.inv (M.handle op e s').2 ∧ P.guar s' (M.handle op e s').2 ∧
        Safe M P Q (k (M.handle op e s').1) (M.handle op e s').2
  | .sync f k, s => ∀ s', P.inv s' → P.rely s s' →
      P.inv (M.setMemory (f (M.memory s')) s') ∧ P.guar s' (M.setMemory (f (M.memory s')) s') ∧
        Safe M P Q (k (M.memory s')) (M.setMemory (f (M.memory s')) s')

/-- A step from `s` to `s'` within the protocol, after which `t` is safe. -/
abbrev SafeStep (M : Machine S L ε σ) (P : Protocol σ) (Q : Except E α → σ → Prop)
    (t : Prog S L E α) (s s' : σ) : Prop :=
  P.inv s' ∧ P.guar s s' ∧ Safe M P Q t s'

variable {M : Machine S L ε σ} {P : Protocol σ} {Q Q' : Except E α → σ → Prop} {s s' : σ}
  {t : Prog S L E α}

lemma Safe.rely (h : Safe M P Q t s) (hr : P.rely s s') : Safe M P Q t s' := by
  cases t with
  | ret a | fail e | call op k | sync f k => exact fun u hu hs => h u hu (P.rely_trans hr hs)

lemma Safe.mono (h : Safe M P Q t s) (hQ : ∀ a s, P.inv s → Q a s → Q' a s) : Safe M P Q' t s := by
  induction t generalizing s with
  | ret a | fail e => exact fun s' hs' hr => hQ _ s' hs' (h s' hs' hr)
  | call op k ih =>
    intro s' hs' hr e he
    obtain ⟨hi, hg, hk⟩ := h s' hs' hr e he
    exact ⟨hi, hg, ih _ hk⟩
  | sync f k ih =>
    intro s' hs' hr
    obtain ⟨hi, hg, hk⟩ := h s' hs' hr
    exact ⟨hi, hg, ih _ hk⟩

lemma Safe.frame {F : σ → Prop} (hstable : ∀ s s', P.rely s s' ∨ P.guar s s' → F s → F s')
    (h : Safe M P Q t s) (hF : F s) : Safe M P (fun r s' => Q r s' ∧ F s') t s := by
  induction t generalizing s with
  | ret a | fail e => exact fun s' hs' hr => ⟨h s' hs' hr, hstable s s' (.inl hr) hF⟩
  | call op k ih =>
    intro s' hs' hr e he
    obtain ⟨hi, hg, hk⟩ := h s' hs' hr e he
    have hF' := hstable s s' (.inl hr) hF
    exact ⟨hi, hg, ih _ hk (hstable _ _ (.inr hg) hF')⟩
  | sync f k ih =>
    intro s' hs' hr
    obtain ⟨hi, hg, hk⟩ := h s' hs' hr
    have hF' := hstable s s' (.inl hr) hF
    exact ⟨hi, hg, ih _ hk (hstable _ _ (.inr hg) hF')⟩

lemma Safe.bind {f : α → Prog S L E β} {Q' : Except E β → σ → Prop} (hs : P.inv s)
    (ht : Safe M P Q t s) (hok : ∀ a s, P.inv s → Q (.ok a) s → Safe M P Q' (f a) s)
    (herr : ∀ e s, P.inv s → Q (.error e) s → Q' (.error e) s) : Safe M P Q' (t >>= f) s := by
  induction t generalizing s with
  | ret a => exact hok a s hs (ht s hs (P.rely_refl s))
  | fail e => exact fun s' hs' hr => herr e s' hs' (ht s' hs' hr)
  | call op k ih =>
    intro s' hs' hr e he
    obtain ⟨hi, hg, hk⟩ := ht s' hs' hr e he
    exact ⟨hi, hg, ih _ hi hk⟩
  | sync g k ih =>
    intro s' hs' hr
    obtain ⟨hi, hg, hk⟩ := ht s' hs' hr
    exact ⟨hi, hg, ih _ hi hk⟩

lemma safe_ite {c : Prop} [Decidable c] {t u : Prog S L E α} (ht : c → Safe M P Q t s)
    (hu : ¬ c → Safe M P Q u s) : Safe M P Q (if c then t else u) s := by
  by_cases h : c
  · rw [if_pos h]
    exact ht h
  · rw [if_neg h]
    exact hu h

lemma Safe.attempt {Q : Except E' (Except E α) → σ → Prop}
    (h : Safe M P (fun r => Q (.ok r)) t s) : Safe M P Q t.attempt s := by
  induction t generalizing s with
  | ret a => exact h
  | fail e => exact h
  | call op k ih =>
    intro s' hs' hr e he
    obtain ⟨hi, hg, hk⟩ := h s' hs' hr e he
    exact ⟨hi, hg, ih _ hk⟩
  | sync f k ih =>
    intro s' hs' hr
    obtain ⟨hi, hg, hk⟩ := h s' hs' hr
    exact ⟨hi, hg, ih _ hk⟩

end Async
