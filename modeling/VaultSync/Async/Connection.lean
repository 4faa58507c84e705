import VaultSync.Async.Sequential

/-! Requests over a connection that may fail, with the work done or not. -/

namespace Async

variable {S : Signature} {L E E' ε σ α β : Type}

structure Connection (E : Type) where
  fault : Option E
  happened : Bool

instance : Inhabited (Connection E) := ⟨⟨none, false⟩⟩

namespace Connection

def reply (c : Connection E) (s : σ) (a : Except E α × σ) : Except E α × σ :=
  match c.fault with
  | none => a
  | some err => (.error err, if c.happened then a.2 else s)

variable {c : Connection E} {s : σ} {a : Except E α × σ}

lemma reply_of_none (h : c.fault = none) : c.reply s a = a := by
  rw [reply, h]

lemma reply_holds {p : σ → Prop} (hs : p s) (ha : p a.2) : p (c.reply s a).2 := by
  unfold reply
  cases c.fault with
  | none => exact ha
  | some err =>
    dsimp only
    split
    · exact ha
    · exact hs

end Connection

def Prog.ofReply (g : E' → E) : Except E' α → Prog S L E α
  | .ok a => .ret a
  | .error err => .fail (g err)

variable {M : Machine S L ε σ} {Q : Except E β → σ → Prop} {f : α → Prog S L E β} {g : E' → E}

lemma wp_reply {c : Connection E'} {s : σ} {a : Except E' α × σ}
    (hfault : ∀ err, c.fault = some err → Q (.error (g err)) s ∧ Q (.error (g err)) a.2)
    (herr : ∀ err, a.1 = .error err → Q (.error (g err)) a.2)
    (hok : ∀ v, a.1 = .ok v → wp M Q (f v) a.2) :
    wp M Q (Prog.ofReply g (c.reply s a).1 >>= f) (c.reply s a).2 := by
  unfold Connection.reply
  cases hc : c.fault with
  | none =>
    obtain ⟨r, s'⟩ := a
    cases r with
    | error err => exact herr err rfl
    | ok v => exact hok v rfl
  | some err =>
    dsimp only
    split
    · exact (hfault err hc).2
    · exact (hfault err hc).1

lemma safe_reply {P : Protocol σ} {c : Connection E'} {s : σ} {a : Except E' α × σ}
    (hfail : ∀ err s', Q (.error (g err)) s') (hok : ∀ v, a.1 = .ok v → Safe M P Q (f v) a.2) :
    Safe M P Q (Prog.ofReply g (c.reply s a).1 >>= f) (c.reply s a).2 := by
  unfold Connection.reply
  cases c.fault with
  | none =>
    obtain ⟨r, s'⟩ := a
    cases r with
    | error err => exact fun _ _ _ => hfail err _
    | ok v => exact hok v rfl
  | some err => exact fun _ _ _ => hfail err _

end Async
