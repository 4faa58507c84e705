import VaultSync.Crdt.Fields
import VaultSync.Sync.Merging

/-! `get`: what the client shows of a record. -/

namespace VaultSync

open Async AsyncFn World CRDTDocument

variable {B : Type}

def StorageUp (_ : Call B) (e : Env B) (_ : World B) : Prop := e.storageFault = none

namespace VaultSyncClient

def visible (L : Lib B) (doc : CRDTDocument) : Option (String → Option CrdtValue) :=
  if isTombstone (doc.toMap L "_deleted") then none else some (doc.toMap L)

def get (L : Lib B) (k : Key) : AsyncFn B (Option (String → Option CrdtValue)) := do
  match ← getDocument k with
  | none => return none
  | some bytes =>
    let client ← newClientId
    let doc ← Prog.ofExcept (CRDTDocument.fromSnapshot L client bytes)
    return visible L doc

def shown (L : Lib B) : Option B → Except VaultSyncError (Option (String → Option CrdtValue))
  | none => .ok none
  | some bytes => (CRDTDocument.fromSnapshot L 0 bytes).map (visible L)

variable {L : Lib B} {n : ℕ} {w : World B} {k : Key} {bytes : B} {d : CrdtState}

lemma shown_fromSnapshot (c : ClientId) (bytes : B) :
    (fromSnapshot L c bytes).map (visible L) = shown L (some bytes) := by
  dsimp only [shown]
  unfold fromSnapshot
  split_ifs
  · rfl
  · cases L.decodeV1 bytes <;> rfl

lemma wp_get :
    wp (machine n StorageUp) (fun r _ => r = shown L (w.storage.documents k)) (get L k) w := by
  rw [get, wp_getDocument]
  refine forall_up_iff.2 ?_
  cases w.storage.documents k with
  | none => exact rfl
  | some bytes =>
    dsimp only
    rw [wp_newClientId]
    intro e _
    rw [wp_ofExcept_bind, ← shown_fromSnapshot e.clientId]
    refine ⟨fun doc hdoc => ?_, fun err herr => ?_⟩
    · rw [hdoc]
      exact rfl
    · rw [herr]
      exact rfl

lemma wp_get_ok {A : Call B → Env B → World B → Prop} :
    wp (machine n A) (fun r _ => ∀ x, r = .ok x → shown L (w.storage.documents k) = .ok x)
      (get L k) w := by
  rw [get, wp_getDocument]
  refine fun e _ => ⟨fun err _ => nofun, fun _ => ?_⟩
  cases w.storage.documents k with
  | none =>
    rintro _ ⟨⟩
    exact rfl
  | some bytes =>
    dsimp only
    rw [wp_newClientId]
    intro e' _
    rw [wp_ofExcept_bind, ← shown_fromSnapshot e'.clientId]
    refine ⟨fun doc hdoc => ?_, fun err _ => nofun⟩
    rintro _ ⟨⟩
    rw [hdoc]
    exact rfl

lemma exists_get (w : World B) :
    ∃ w', Outcome (machine n StorageUp) (get L k) w (shown L (w.storage.documents k)) w' := by
  have hout := run_outcome (M := machine n StorageUp) (get L k) [] w fun _ _ =>
    ⟨rfl, fun e he => absurd he List.not_mem_nil⟩
  rw [wp_iff_outcome.1 wp_get _ _ hout] at hout
  exact ⟨_, hout⟩

lemma shown_some (hlen : L.len bytes ≤ maxSnapshotSize) (hdec : L.decodeV1 bytes = .ok d) :
    shown L (some bytes) =
      .ok (if isTombstone (L.field d "_deleted") then none else some (L.field d)) := by
  dsimp only [shown]
  unfold fromSnapshot
  rw [if_neg (not_lt.2 hlen), hdec]
  rfl

lemma shown_of_tombstone (hlen : L.len bytes ≤ maxSnapshotSize) (hdec : L.decodeV1 bytes = .ok d)
    (h : L.Tombstone d) : shown L (some bytes) = .ok none :=
  (shown_some hlen hdec).trans (congrArg _ (if_pos h))

lemma eq_none_iff_of_shown {doc : Option B} {x : Option (String → Option CrdtValue)}
    (h : shown L doc = .ok x) : x = none ↔ doc = none ∨ L.Tombstone (storedState L doc) := by
  cases doc with
  | none =>
    cases h
    simp
  | some bytes =>
    dsimp only [shown] at h
    unfold fromSnapshot at h
    split_ifs at h
    · cases h
    cases hdec : L.decodeV1 bytes with
    | error err =>
      rw [hdec] at h
      cases h
    | ok d =>
      rw [hdec] at h
      rw [storedState_some hdec]
      have hx : (if isTombstone (L.field d "_deleted") = true then none else some (L.field d)) = x :=
        Except.ok.inj h
      unfold Lib.Tombstone
      rw [← hx]
      split_ifs with htomb <;> simp [htomb]

end VaultSyncClient

end VaultSync
