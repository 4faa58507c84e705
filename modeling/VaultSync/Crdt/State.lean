import Mathlib.Algebra.GroupWithZero.Nat
import Mathlib.Data.Finset.Option

/-! yrs documents as a join semilattice, and the library functions the code calls on byte
strings, documents and ciphertexts. -/

namespace VaultSync

open List

abbrev ClientId := ℕ

/-- A client occurs as often as its clock. -/
abbrev StateVector := Multiset ClientId

abbrev DeleteSet := Finset (ClientId × ℕ)

/-- The content of a document or of an update. Applying an update is the join. -/
@[ext]
structure CrdtState where
  stateVector : StateVector
  deleteSet : DeleteSet
  deriving DecidableEq

namespace CrdtState

instance : PartialOrder CrdtState where
  le a b := a.stateVector ≤ b.stateVector ∧ a.deleteSet ≤ b.deleteSet
  le_refl _ := ⟨le_rfl, le_rfl⟩
  le_trans _ _ _ h h' := ⟨h.1.trans h'.1, h.2.trans h'.2⟩
  le_antisymm _ _ h h' := CrdtState.ext (h.1.antisymm h'.1) (h.2.antisymm h'.2)

instance : SemilatticeSup CrdtState where
  sup a b := ⟨a.stateVector ⊔ b.stateVector, a.deleteSet ⊔ b.deleteSet⟩
  le_sup_left _ _ := ⟨le_sup_left, le_sup_left⟩
  le_sup_right _ _ := ⟨le_sup_right, le_sup_right⟩
  sup_le _ _ _ h h' := ⟨sup_le h.1 h'.1, sup_le h.2 h'.2⟩

instance : OrderBot CrdtState where
  bot := ⟨∅, ∅⟩
  bot_le _ := ⟨Multiset.zero_le _, Finset.empty_subset _⟩

instance : DecidableLE CrdtState := fun a b =>
  inferInstanceAs (Decidable (a.stateVector ≤ b.stateVector ∧ a.deleteSet ≤ b.deleteSet))

variable (d : CrdtState)

/-- `root.insert` of a field by `client`: one new item, and the item it replaces is deleted. -/
def insertItem (client : ClientId) (replaced : Option (ClientId × ℕ)) : CrdtState :=
  ⟨client ::ₘ d.stateVector, d.deleteSet ∪ replaced.toFinset⟩

/-- `encode_diff_v1`: the items beyond `sv`, and the whole delete set. -/
def diff (sv : StateVector) : CrdtState :=
  ⟨d.stateVector.filter fun c => sv.count c < d.stateVector.count c, d.deleteSet⟩

def covers (oldSv : StateVector) (update : CrdtState) : Bool :=
  decide (∀ c ∈ update.stateVector, update.stateVector.count c ≤ oldSv.count c)

lemma covers_iff {sv : StateVector} {u : CrdtState} : covers sv u ↔ u.stateVector ≤ sv := by
  rw [covers, decide_eq_true_iff, Multiset.le_iff_count]
  refine ⟨fun h c => ?_, fun h c _ => h c⟩
  by_cases hc : c ∈ u.stateVector
  · exact h c hc
  · rw [Multiset.count_eq_zero_of_notMem hc]
    exact Nat.zero_le _

lemma le_insertItem (client : ClientId) (replaced : Option (ClientId × ℕ)) :
    d ≤ d.insertItem client replaced :=
  ⟨Multiset.le_cons_self _ _, Finset.subset_union_left⟩

lemma diff_le (sv : StateVector) : d.diff sv ≤ d :=
  ⟨Multiset.filter_le _ _, le_rfl⟩

def joinAll (l : List CrdtState) : CrdtState := l.foldr (· ⊔ ·) ⊥

variable {l : List CrdtState} {b : CrdtState} {c : ClientId}

lemma le_joinAll {d : CrdtState} (h : d ∈ l) : d ≤ joinAll l := by
  induction l with
  | nil => cases h
  | cons a l ih =>
    rcases mem_cons.1 h with rfl | h
    · exact le_sup_left
    · exact (ih h).trans le_sup_right

lemma joinAll_le (h : ∀ d ∈ l, d ≤ b) : joinAll l ≤ b := by
  induction l with
  | nil => exact bot_le
  | cons a l ih =>
    rw [forall_mem_cons] at h
    exact sup_le h.1 (ih h.2)

lemma mem_sup {a : CrdtState} :
    c ∈ (a ⊔ b).stateVector ↔ c ∈ a.stateVector ∨ c ∈ b.stateVector := Multiset.mem_union

lemma mem_joinAll (h : c ∈ (joinAll l).stateVector) : ∃ d ∈ l, c ∈ d.stateVector := by
  induction l with
  | nil => exact absurd h (Multiset.notMem_zero c)
  | cons a l ih =>
    rcases mem_sup.1 h with h | h
    · exact ⟨a, mem_cons_self, h⟩
    · obtain ⟨d, hd, hc⟩ := ih h
      exact ⟨d, mem_cons_of_mem a hd, hc⟩

end CrdtState

/-- A field value; equality of numbers is that of `f64`. -/
inductive CrdtValue where
  | string (s : String)
  | number (n : Float)
  | boolean (b : Bool)
  | array (items : List CrdtValue)
  | map (fields : List (String × CrdtValue))
  | null

mutual

def CrdtValue.beq : CrdtValue → CrdtValue → Bool
  | .string a, .string b => a == b
  | .number a, .number b => a == b
  | .boolean a, .boolean b => a == b
  | .array a, .array b => beqItems a b
  | .map a, .map b => a.length == b.length && beqFields a b
  | .null, .null => true
  | _, _ => false

def CrdtValue.beqItems : List CrdtValue → List CrdtValue → Bool
  | [], [] => true
  | a :: as, b :: bs => a.beq b && beqItems as bs
  | _, _ => false

def CrdtValue.beqFields : List (String × CrdtValue) → List (String × CrdtValue) → Bool
  | [], _ => true
  | (k, v) :: rest, b =>
    (match b.lookup k with
      | some w => v.beq w
      | none => false) && beqFields rest b

end

instance : BEq CrdtValue := ⟨CrdtValue.beq⟩

abbrev Nonce := Fin (2 ^ 96)

instance Nonce.neZero : NeZero (2 ^ 96) := inferInstance

/-- What the code takes from its libraries, on a type `B` of byte strings: lengths and slices,
HKDF and ChaCha20-Poly1305, and the yrs codec with the fields a document shows. -/
structure Lib (B : Type) where
  empty : B
  len : B → ℕ
  leU64 : B → ℕ
  frame : ℕ → Nonce → B → B
  frameNonce : B → Nonce
  frameBody : B → B
  hkdf : String → ℕ → B
  encrypt : B → Nonce → B → Except String B
  decrypt : B → Nonce → B → Except String B
  decodeV1 : B → Except String CrdtState
  encodeV1 : CrdtState → B
  itemAt : CrdtState → String → Option (ClientId × ℕ)
  field : CrdtState → String → Option CrdtValue
  len_frame : ∀ v n c, 20 ≤ len (frame v n c)
  leU64_frame : ∀ v n c, v < 2 ^ 64 → leU64 (frame v n c) = v
  frameNonce_frame : ∀ v n c, frameNonce (frame v n c) = n
  frameBody_frame : ∀ v n c, frameBody (frame v n c) = c
  decrypt_encrypt : ∀ {k n p c}, encrypt k n p = .ok c → decrypt k n c = .ok p
  decode_encode : ∀ d, decodeV1 (encodeV1 d) = .ok d

end VaultSync
