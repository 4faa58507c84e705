import Mathlib.Data.Finset.Defs

/-! What `set_field` stores of a field's value, and what `get_field` makes of it again. -/

namespace VaultSync.Values

/-- A field's value, over any type of numbers. A map is a finite set of keys with a value for
each of them, so that equality does not see the order in which a `HashMap` lists its entries. -/
inductive CrdtValue (N : Type) where
  | string (s : String)
  | number (n : N)
  | boolean (b : Bool)
  | array (length : ℕ) (items : Fin length → CrdtValue N)
  | map (keys : Finset String) (fields : keys → CrdtValue N)
  | null

/-- The values of yrs. -/
inductive Any (N : Type) where
  | null
  | undefined
  | bool (b : Bool)
  | number (n : N)
  | bigInt (n : Int64)
  | string (s : String)
  | buffer (bytes : List UInt8)
  | array (length : ℕ) (items : Fin length → Any N)
  | map (keys : Finset String) (fields : keys → Any N)

variable {N : Type}

def anyToCrdtValue : Any N → CrdtValue N
  | .string s => .string s
  | .number n => .number n
  | .bool b => .boolean b
  | .array length items => .array length fun i => anyToCrdtValue (items i)
  | .map keys fields => .map keys fun k => anyToCrdtValue (fields k)
  | .null => .null
  | _ => .null

def crdtValueToAny : CrdtValue N → Any N
  | .string s => .string s
  | .number n => .number n
  | .boolean b => .bool b
  | .array length items => .array length fun i => crdtValueToAny (items i)
  | .map keys fields => .map keys fun k => crdtValueToAny (fields k)
  | .null => .null

lemma anyToCrdtValue_crdtValueToAny :
    Function.LeftInverse (anyToCrdtValue (N := N)) crdtValueToAny := by
  intro v
  induction v with
  | string s | number n | boolean b | null => rfl
  | array length items ih => exact congrArg (CrdtValue.array length) (funext ih)
  | map keys fields ih => exact congrArg (CrdtValue.map keys) (funext ih)

/-- A value of any depth is read back as it was stored, and no two values are stored alike. -/
theorem values_survive :
    (∀ v : CrdtValue N, anyToCrdtValue (crdtValueToAny v) = v) ∧
      Function.Injective (crdtValueToAny : CrdtValue N → Any N) :=
  ⟨anyToCrdtValue_crdtValueToAny, anyToCrdtValue_crdtValueToAny.injective⟩

/-- Nothing in the value falls under the last case of `any_to_crdt_value`. -/
def Any.Plain : Any N → Prop
  | .undefined | .bigInt _ | .buffer _ => False
  | .array _ items => ∀ i, (items i).Plain
  | .map _ fields => ∀ k, (fields k).Plain
  | _ => True

lemma crdtValueToAny_anyToCrdtValue_iff (a : Any N) :
    crdtValueToAny (anyToCrdtValue a) = a ↔ a.Plain := by
  induction a with
  | string s | number n | bool b | null => exact iff_of_true rfl trivial
  | undefined | bigInt n | buffer bytes => exact iff_of_false nofun id
  | array length items ih =>
    simp [anyToCrdtValue, crdtValueToAny, Any.Plain, funext_iff, ih]
  | map keys fields ih =>
    simp [anyToCrdtValue, crdtValueToAny, Any.Plain, funext_iff, ih]

end VaultSync.Values
