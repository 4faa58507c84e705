import Mathlib.Algebra.Group.Nat.Defs
import Mathlib.Data.Prod.Lex

/-! The hybrid logical clock, whose calls do not overlap. -/

namespace VaultSync

structure HlcTimestamp where
  wall : ℕ
  logical : ℕ
  deriving DecidableEq, Repr

namespace HlcTimestamp

instance : Preorder HlcTimestamp := Preorder.lift fun t => toLex (t.wall, t.logical)

variable {a b : HlcTimestamp}

lemma le_iff : a ≤ b ↔ a.wall < b.wall ∨ a.wall = b.wall ∧ a.logical ≤ b.logical :=
  Prod.Lex.toLex_le_toLex

lemma lt_iff : a < b ↔ a.wall < b.wall ∨ a.wall = b.wall ∧ a.logical < b.logical :=
  Prod.Lex.toLex_lt_toLex

end HlcTimestamp

structure HybridLogicalClock extends HlcTimestamp where
  wrapped : Bool
  deriving DecidableEq, Repr

/-- `u32::wrapping_add(1)`. -/
def wrappingSucc (l : ℕ) : ℕ := (l + 1) % 2 ^ 32

lemma wrappingSucc_of_lt {l : ℕ} (h : l < 2 ^ 32 - 1) : wrappingSucc l = l + 1 :=
  Nat.mod_eq_of_lt (by omega)

namespace HybridLogicalClock

def new (sys : ℕ) : HybridLogicalClock := ⟨⟨sys, 0⟩, false⟩

variable (c : HybridLogicalClock)

def now (sys : ℕ) : HlcTimestamp × HybridLogicalClock :=
  let t : HlcTimestamp := if c.wall < sys then ⟨sys, 0⟩ else ⟨c.wall, wrappingSucc c.logical⟩
  (t, ⟨t, if t.logical = 0 ∧ 0 < c.logical then true else c.wrapped⟩)

def updateWithReceived (received : HlcTimestamp) (sys : ℕ) : HybridLogicalClock :=
  let wall := max (max c.wall received.wall) sys
  let logical :=
    if wall = c.wall then wrappingSucc (max c.logical received.logical)
    else if wall = received.wall then wrappingSucc received.logical
    else 0
  { c with wall, logical }

inductive Call where
  | now (sys : ℕ)
  | updateWithReceived (received : HlcTimestamp) (sys : ℕ)

def step : Call → HlcTimestamp × HybridLogicalClock
  | .now sys => c.now sys
  | .updateWithReceived received sys => (received, c.updateWithReceived received sys)

def run (calls : List Call) : HybridLogicalClock :=
  calls.foldl (fun c call => (c.step call).2) c

def stamps (c : HybridLogicalClock) : List Call → List HlcTimestamp
  | [] => []
  | call :: calls => (c.step call).1 :: stamps (c.step call).2 calls

/-- The call does not add one to a counter that is at `u32::MAX`. -/
def Counts : Call → Prop
  | .now sys => sys ≤ c.wall → c.logical < 2 ^ 32 - 1
  | .updateWithReceived received sys =>
    (max received.wall sys ≤ c.wall → max c.logical received.logical < 2 ^ 32 - 1) ∧
      (c.wall < received.wall → sys ≤ received.wall → received.logical < 2 ^ 32 - 1)

variable {c} {sys : ℕ}

lemma lt_now (h : c.Counts (.now sys)) : c.toHlcTimestamp < (c.now sys).1 := by
  rw [HlcTimestamp.lt_iff]
  unfold now
  by_cases hsys : c.wall < sys
  · simp [hsys]
  · have hcount := wrappingSucc_of_lt (h (not_lt.1 hsys))
    simp [hsys, hcount]

lemma le_step {call : Call} (h : c.Counts call) :
    c.toHlcTimestamp ≤ (c.step call).2.toHlcTimestamp ∧
      (c.step call).1 ≤ (c.step call).2.toHlcTimestamp := by
  cases call with
  | now sys => exact ⟨(lt_now h).le, le_rfl⟩
  | updateWithReceived received sys =>
    have hsame := fun hle => wrappingSucc_of_lt (h.1 hle)
    have hahead := fun hlt hle => wrappingSucc_of_lt (h.2 hlt hle)
    simp only [HlcTimestamp.le_iff, step, updateWithReceived]
    split_ifs <;> omega

lemma le_run {calls : List Call} {t : HlcTimestamp}
    (h : ∀ pre call post, calls = pre ++ call :: post → (c.run pre).Counts call)
    (ht : t ≤ c.toHlcTimestamp ∨ t ∈ c.stamps calls) : t ≤ (c.run calls).toHlcTimestamp := by
  induction calls generalizing c with
  | nil => simpa [stamps, run] using ht
  | cons call calls ih =>
    have hfirst := le_step (h [] call calls rfl)
    refine ih (fun pre next post hsplit => h (call :: pre) next post (by simp [hsplit])) ?_
    rcases ht with hle | hmem
    · exact .inl (hle.trans hfirst.1)
    · rcases List.mem_cons.1 hmem with rfl | hmem
      · exact .inl hfirst.2
      · exact .inr hmem

/-- **The clock.** As long as no counter at `u32::MAX` is incremented, what `now` returns is greater
than everything that was returned or received before. -/
theorem stamps_lt_now (c : HybridLogicalClock) (calls : List Call)
    (h : ∀ pre call post, calls = pre ++ call :: post → (c.run pre).Counts call) (pre : List Call)
    (sys : ℕ) (post : List Call) (hsplit : calls = pre ++ .now sys :: post) :
    ∀ t ∈ c.stamps pre, t < ((c.run pre).now sys).1 := by
  intro t ht
  have hpre : ∀ first call rest, pre = first ++ call :: rest → (c.run first).Counts call :=
    fun first call rest hpre => h first call (rest ++ .now sys :: post) (by simp [hsplit, hpre])
  exact (le_run hpre (.inr ht)).trans_lt (lt_now (h pre (.now sys) post hsplit))

theorem stamps_lt_now_received :
    ⟨9, 3⟩ < ((run (new 5) [.updateWithReceived ⟨9, 3⟩ 5]).now 7).1 := by
  refine stamps_lt_now (new 5) [.updateWithReceived ⟨9, 3⟩ 5, .now 7] ?_ _ 7 [] rfl _
    List.mem_cons_self
  rintro (_ | ⟨_, _ | ⟨_, pre⟩⟩) call post hsplit
  · obtain ⟨rfl, -⟩ := List.cons.inj hsplit
    exact ⟨by decide, by decide⟩
  · obtain ⟨rfl, hrest⟩ := List.cons.inj hsplit
    obtain ⟨rfl, -⟩ := List.cons.inj hrest
    exact fun _ => by decide
  · simp at hsplit

/-- A received counter of `u32::MAX` wraps around. -/
theorem now_lt_received :
    ((run (new 5) [.updateWithReceived ⟨5, 2 ^ 32 - 1⟩ 5]).now 5).1 < ⟨5, 2 ^ 32 - 1⟩ := by
  decide

end HybridLogicalClock

end VaultSync
