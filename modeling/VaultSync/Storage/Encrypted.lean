import VaultSync.Crdt.Symbolic

/-! `EncryptedStorage`: what it hands to the storage it wraps, and what that shows of the
contents. -/

namespace VaultSync

open List

variable {B : Type}

/-- The calls that carry contents: the bytes of documents and the updates of entries. -/
inductive StorageCall (B : Type) where
  | insertDocument (k : Key) (bytes : B)
  | writeDocumentAndOplog (k : Key) (bytes : B) (entry : OplogEntry B)
  | appendOplog (entry : OplogEntry B)

namespace EncryptedStorage

def encNonce : Nonce := 0x7661756c7473796e635f3030

section

variable (L : Lib B) (deviceKey : B)

def encrypt (data : B) : Except VaultSyncError B :=
  match L.encrypt deviceKey encNonce data with
  | .ok c => .ok c
  | .error e => .error (.encryption s!"storage encrypt failed: {e}")

def handed : StorageCall B → List (StorageCall B)
  | .insertDocument k bytes =>
    match encrypt L deviceKey bytes with
    | .ok encrypted => [.insertDocument k encrypted]
    | .error _ => []
  | .writeDocumentAndOplog k bytes entry =>
    match encrypt L deviceKey bytes with
    | .ok encrypted => [.writeDocumentAndOplog k encrypted entry]
    | .error _ => []
  | .appendOplog entry => [.appendOplog entry]

def plaintext : StorageCall B → Option B
  | .insertDocument _ bytes | .writeDocumentAndOplog _ bytes _ => some bytes
  | .appendOplog _ => none

def ciphertexts (calls : List (StorageCall B)) : List (Except VaultSyncError B) :=
  (calls.filterMap plaintext).map (encrypt L deviceKey)

end

inductive SameShape : StorageCall B → StorageCall B → Prop where
  | insertDocument (k : Key) (bytes bytes' : B) :
    SameShape (.insertDocument k bytes) (.insertDocument k bytes')
  | writeDocumentAndOplog (k : Key) (bytes bytes' : B) (entry : OplogEntry B) (update : B) :
    SameShape (.writeDocumentAndOplog k bytes entry)
      (.writeDocumentAndOplog k bytes' { entry with yrsUpdate := update })
  | appendOplog (entry : OplogEntry B) (update : B) :
    SameShape (.appendOplog entry) (.appendOplog { entry with yrsUpdate := update })

section

variable (L : Lib B) (deviceKey : B) (calls : List (StorageCall B))

/-- Two runs that differ in their contents only and have the same ciphertexts hand over the
same. -/
def ThroughCiphertexts : Prop :=
  ∀ calls', List.Forall₂ SameShape calls calls' →
    ciphertexts L deviceKey calls' = ciphertexts L deviceKey calls →
    calls'.flatMap (handed L deviceKey) = calls.flatMap (handed L deviceKey)

def encryptions : List (B × Nonce × B) :=
  ((calls.filterMap plaintext).filter fun p => (encrypt L deviceKey p).isOk).map fun p =>
    (deviceKey, encNonce, p)

/-- No two different plaintexts under the same key and nonce. -/
def NoncesFresh : Prop :=
  ∀ e ∈ encryptions L deviceKey calls, ∀ e' ∈ encryptions L deviceKey calls,
    e.1 = e'.1 → e.2.1 = e'.2.1 → e.2.2 = e'.2.2

def Confidential : Prop :=
  ThroughCiphertexts L deviceKey calls ∧ NoncesFresh L deviceKey calls

def HandsEntry : StorageCall B → Prop
  | .insertDocument _ _ => False
  | .writeDocumentAndOplog _ bytes _ => (encrypt L deviceKey bytes).isOk
  | .appendOplog _ => True

end

variable {L : Lib B} {deviceKey : B} {calls calls' : List (StorageCall B)} {c c' : StorageCall B}

lemma SameShape.refl (c : StorageCall B) : SameShape c c := by
  cases c with
  | insertDocument k bytes => exact .insertDocument k bytes bytes
  | writeDocumentAndOplog k bytes entry =>
    exact .writeDocumentAndOplog k bytes bytes entry entry.yrsUpdate
  | appendOplog entry => exact .appendOplog entry entry.yrsUpdate

lemma ciphertexts_cons (c : StorageCall B) (calls : List (StorageCall B)) :
    ciphertexts L deviceKey (c :: calls) =
      (plaintext c).toList.map (encrypt L deviceKey) ++ ciphertexts L deviceKey calls := by
  unfold ciphertexts
  cases h : plaintext c with
  | none => rw [filterMap_cons_none h]; rfl
  | some p => rw [filterMap_cons_some h]; rfl

lemma SameShape.handed_eq (h : SameShape c c') (hentry : ¬ HandsEntry L deviceKey c)
    (heq : (plaintext c').toList.map (encrypt L deviceKey) =
      (plaintext c).toList.map (encrypt L deviceKey)) :
    handed L deviceKey c' = handed L deviceKey c := by
  cases h with
  | insertDocument k bytes bytes' =>
    have henc : encrypt L deviceKey bytes' = encrypt L deviceKey bytes := head_eq_of_cons_eq heq
    rw [handed, handed, henc]
  | writeDocumentAndOplog k bytes bytes' entry update =>
    have henc : encrypt L deviceKey bytes' = encrypt L deviceKey bytes := head_eq_of_cons_eq heq
    rw [handed, handed, henc]
    cases hbytes : encrypt L deviceKey bytes with
    | error e => rfl
    | ok encrypted =>
      rw [HandsEntry, hbytes] at hentry
      exact absurd rfl hentry
  | appendOplog entry update => exact absurd trivial hentry

lemma not_throughCiphertexts [Nontrivial B] {pre post : List (StorageCall B)}
    (h : HandsEntry L deviceKey c) : ¬ ThroughCiphertexts L deviceKey (pre ++ c :: post) := by
  intro hthrough
  have hrefl (l : List (StorageCall B)) : List.Forall₂ SameShape l l :=
    List.forall₂_same.2 fun c _ => .refl c
  -- a run with another update in this entry, all else equal
  obtain ⟨c', hshape, hplain, hne⟩ : ∃ c', SameShape c c' ∧ plaintext c' = plaintext c ∧
      handed L deviceKey c' ≠ handed L deviceKey c := by
    cases c with
    | insertDocument k bytes => exact absurd h id
    | writeDocumentAndOplog k bytes entry =>
      obtain ⟨update, hupdate⟩ := exists_ne entry.yrsUpdate
      refine ⟨_, .writeDocumentAndOplog k bytes bytes entry update, rfl, fun heq => hupdate ?_⟩
      cases hbytes : encrypt L deviceKey bytes with
      | error e =>
        rw [HandsEntry, hbytes] at h
        cases h
      | ok encrypted =>
        rw [handed, handed, hbytes] at heq
        injection heq with heq
        injection heq with _ _ heq
        exact congrArg OplogEntry.yrsUpdate heq
    | appendOplog entry =>
      obtain ⟨update, hupdate⟩ := exists_ne entry.yrsUpdate
      refine ⟨_, .appendOplog entry update, rfl, fun heq => hupdate ?_⟩
      injection heq with heq
      injection heq with heq
      exact congrArg OplogEntry.yrsUpdate heq
  have hcipher : ciphertexts L deviceKey (pre ++ c' :: post) =
      ciphertexts L deviceKey (pre ++ c :: post) := by
    simp only [ciphertexts, filterMap_append, filterMap_cons, hplain]
  have hsame := hthrough _ (rel_append (hrefl pre) (.cons hshape (hrefl post))) hcipher
  rw [flatMap_append, flatMap_append, flatMap_cons, flatMap_cons,
    append_cancel_left_eq, append_cancel_right_eq] at hsame
  exact hne hsame

lemma noncesFresh_iff : NoncesFresh L deviceKey calls ↔
    ∀ p ∈ calls.filterMap plaintext, ∀ p' ∈ calls.filterMap plaintext,
      (encrypt L deviceKey p).isOk → (encrypt L deviceKey p').isOk → p = p' := by
  simp only [NoncesFresh, encryptions, forall_mem_map, mem_filter, and_imp]
  exact ⟨fun h p hp p' hp' hok hok' => h p hp hok p' hp' hok' trivial trivial,
    fun h p hp hok p' hp' hok' _ _ => h p hp p' hp' hok hok'⟩

/-- **Confidentiality of the encrypted storage.** A sequence of calls is confidential exactly if
it hands no entry over and encrypts no two different byte strings. -/
theorem confidential_iff [Nontrivial B] (L : Lib B) (deviceKey : B) (calls : List (StorageCall B)) :
    Confidential L deviceKey calls ↔ (∀ c ∈ calls, ¬ HandsEntry L deviceKey c) ∧
      ∀ p ∈ calls.filterMap plaintext, ∀ p' ∈ calls.filterMap plaintext,
        (encrypt L deviceKey p).isOk → (encrypt L deviceKey p').isOk → p = p' := by
  rw [Confidential, noncesFresh_iff]
  refine and_congr_left fun hfresh => ⟨fun hthrough c hc hentry => ?_, fun h calls' hshape heq => ?_⟩
  · obtain ⟨pre, post, rfl⟩ := append_of_mem hc
    exact not_throughCiphertexts hentry hthrough
  · clear hfresh
    induction hshape with
    | nil => rfl
    | cons hc hcs ih =>
      rw [forall_mem_cons] at h
      rw [ciphertexts_cons, ciphertexts_cons] at heq
      obtain ⟨hhead, htail⟩ := append_inj heq (by cases hc <;> rfl)
      rw [flatMap_cons, flatMap_cons, hc.handed_eq h.1 hhead, ih h.2 htail]

instance : Nontrivial Sym := ⟨.empty, .key "" 0, nofun⟩

theorem confidential_iff_sameBytes : Confidential Sym.lib (.key "device" 0)
    [.insertDocument ⟨"d", "x"⟩ .empty, .insertDocument ⟨"d", "y"⟩ .empty] :=
  (confidential_iff Sym.lib (.key "device" 0) _).2 ⟨by simp [HandsEntry], by decide⟩

def entry : OplogEntry Sym :=
  ⟨"m1", "a", "ns", .crdtInsert, "d", "x", .update ⟨{1, 1, 1}, ∅⟩, none, 1, none, .optimistic, none,
    1, 0, .insert, ""⟩

/-- Two documents with different bytes are encrypted under the same key and nonce, and an entry
is handed over with its update in the clear. -/
theorem not_confidential_runs :
    ¬ Confidential Sym.lib (.key "device" 0)
      [.insertDocument ⟨"d", "x"⟩ .empty, .insertDocument ⟨"d", "y"⟩ (.update ⊥)] ∧
    ¬ Confidential Sym.lib (.key "device" 0) [.appendOplog entry] ∧
    [StorageCall.appendOplog entry].flatMap (handed Sym.lib (.key "device" 0)) =
      [.appendOplog entry] := by
  refine ⟨fun h => ?_, fun h => ?_, rfl⟩
  · have heq := noncesFresh_iff.1 h.2 .empty (by decide) (.update ⊥) (by decide) rfl rfl
    cases heq
  · have hpre : ¬ ThroughCiphertexts Sym.lib (.key "device" 0) ([] ++ [.appendOplog entry]) :=
      not_throughCiphertexts trivial
    exact hpre h.1

end EncryptedStorage

end VaultSync
