import Mathlib.Data.Nat.Digits.Defs

/-! Byte buffers of a fixed size, and little-endian numbers in them. -/

namespace Bytes

open List

variable (w n : ℕ)

def toLe : List UInt8 := (List.range w).map fun i => UInt8.ofNat (n / 256 ^ i)

def ofLe (l : List UInt8) : ℕ := Nat.ofDigits 256 (l.map UInt8.toNat)

@[simp] lemma length_toLe : (toLe w n).length = w := by simp [toLe]

lemma toLe_succ : toLe (w + 1) n = UInt8.ofNat n :: toLe w (n / 256) := by
  simp only [toLe, range_succ_eq_map, map_cons, map_map, pow_zero, Nat.div_one]
  congr 1
  refine map_congr_left fun i _ => ?_
  rw [Function.comp, Nat.div_div_eq_div_mul, pow_succ']

lemma ofLe_toLe : ofLe (toLe w n) = n % 256 ^ w := by
  induction w generalizing n with
  | zero => simp [toLe, ofLe, Nat.mod_one]
  | succ w ih =>
    have hcons : ofLe (toLe (w + 1) n) = n % 256 + 256 * ofLe (toLe w (n / 256)) := by
      rw [toLe_succ, ofLe, map_cons, Nat.ofDigits_cons]
      simp [ofLe]
    rw [hcons, ih, pow_succ', Nat.mod_mul]

structure Buffer where
  size : ℕ
  byte : ℕ → UInt8

namespace Buffer

def zeros (size : ℕ) : Buffer := ⟨size, fun _ => 0⟩

def slice (b : Buffer) (start len : ℕ) : List UInt8 :=
  (List.range len).map fun i => b.byte (start + i)

def copy (b : Buffer) (start : ℕ) (data : List UInt8) : Buffer :=
  { b with byte := fun i => if start ≤ i then data[i - start]?.getD (b.byte i) else b.byte i }

variable {b : Buffer} {start len : ℕ} {data : List UInt8}

@[simp] lemma length_slice (b : Buffer) (start len : ℕ) : (b.slice start len).length = len := by
  simp [slice]

@[simp] lemma size_copy : (b.copy start data).size = b.size := rfl

lemma slice_congr {b' : Buffer} (h : ∀ i < len, b'.byte (start + i) = b.byte (start + i)) :
    b'.slice start len = b.slice start len :=
  map_congr_left fun i hi => h i (mem_range.1 hi)

lemma slice_copy_self (b : Buffer) (start : ℕ) (data : List UInt8) :
    (b.copy start data).slice start data.length = data := by
  refine ext_getElem (length_slice _ _ _) fun i h1 h2 => ?_
  simp [slice, copy, List.getElem?_eq_getElem h2]

lemma byte_copy_of_outside {i : ℕ} (h : i < start ∨ start + data.length ≤ i) :
    (b.copy start data).byte i = b.byte i := by
  rcases h with h | h
  · exact if_neg (by omega)
  · have hout : data[i - start]? = none := List.getElem?_eq_none (by omega)
    simp [copy, hout]

lemma slice_add (b : Buffer) (start m n : ℕ) :
    b.slice start (m + n) = b.slice start m ++ b.slice (start + m) n := by
  simp [slice, range_add, Nat.add_assoc]

lemma slice_zeros (size start len : ℕ) : (zeros size).slice start len = List.replicate len 0 := by
  simp [slice, zeros, map_const']

end Buffer

end Bytes
