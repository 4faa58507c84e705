import Mathlib.Data.List.Basic

/-! A buffer that is emptied up to each separator in it while its contents arrive in chunks. -/

namespace Bytes

open List

variable {α σ : Type} (sep : α → Bool) (f : σ → List α → σ)

def drain (buffer : List α) (s : σ) : List α × σ :=
  match h : buffer.findIdx? sep with
  | none => (buffer, s)
  | some pos => drain (buffer.drop (pos + 1)) (f s (buffer.take (pos + 1)))
termination_by buffer.length
decreasing_by
  have hpos : pos < buffer.length := (List.findIdx?_eq_some_iff_getElem.1 h).1
  rw [length_drop]
  omega

variable {sep f} {buffer : List α}

lemma drain_of_none (h : buffer.findIdx? sep = none) (s : σ) :
    drain sep f buffer s = (buffer, s) := by
  rw [drain]
  split
  · rfl
  · simp_all

lemma drain_of_some {pos : ℕ} (h : buffer.findIdx? sep = some pos) (s : σ) :
    drain sep f buffer s = drain sep f (buffer.drop (pos + 1)) (f s (buffer.take (pos + 1))) := by
  rw [drain]
  split <;> simp_all

lemma drain_append (b c : List α) (s : σ) :
    drain sep f (b ++ c) s = drain sep f ((drain sep f b s).1 ++ c) (drain sep f b s).2 := by
  induction hn : b.length using Nat.strongRecOn generalizing b s with
  | _ n ih =>
    cases h : b.findIdx? sep with
    | none => simp [drain_of_none h]
    | some pos =>
      have hpos : pos < b.length := (List.findIdx?_eq_some_iff_getElem.1 h).1
      have hfirst : (b ++ c).findIdx? sep = some pos := by simp [List.findIdx?_append, h]
      have hshorter : (b.drop (pos + 1)).length < n := by
        rw [length_drop]
        omega
      rw [drain_of_some hfirst, drain_of_some h, drop_append_of_le_length hpos,
        take_append_of_le_length hpos]
      exact ih _ hshorter _ _ rfl

end Bytes
