import VaultSync.Crdt.State
import VaultSync.Error

/-! Symmetric encryption under a key derived from the namespace and a key version: eight bytes
of version, twelve of nonce, then the ciphertext. -/

namespace VaultSync

variable {B : Type}

def encryptSymmetric (L : Lib B) (activeVersion : ℕ) (nonce : Nonce) (plaintext : B)
    (ns : String) : Except VaultSyncError B :=
  match L.encrypt (L.hkdf ns activeVersion) nonce plaintext with
  | .ok ciphertext => .ok (L.frame activeVersion nonce ciphertext)
  | .error e => .error (.encryption s!"symmetric encrypt failed: {e}")

def decryptSymmetric (L : Lib B) (blob : B) (ns : String) : Except VaultSyncError B :=
  if L.len blob < 20 then
    .error (.encryption "invalid ciphertext length (too short)")
  else
    match L.decrypt (L.hkdf ns (L.leU64 blob)) (L.frameNonce blob) (L.frameBody blob) with
    | .ok plaintext => .ok plaintext
    | .error e => .error (.encryption s!"symmetric decrypt failed: {e}")

variable {L : Lib B} {version : ℕ} {nonce : Nonce} {plaintext blob : B} {ns : String}

section

variable (hv : version < 2 ^ 64) (h : encryptSymmetric L version nonce plaintext ns = .ok blob)

include hv h

lemma decryptSymmetric_encryptSymmetric : decryptSymmetric L blob ns = .ok plaintext := by
  unfold encryptSymmetric at h
  cases he : L.encrypt (L.hkdf ns version) nonce plaintext with
  | error e => rw [he] at h; cases h
  | ok c =>
    rw [he] at h
    cases h
    have hlen : ¬ L.len (L.frame version nonce c) < 20 := not_lt.2 (L.len_frame _ _ _)
    rw [decryptSymmetric, if_neg hlen, L.leU64_frame _ _ _ hv, L.frameNonce_frame,
      L.frameBody_frame, L.decrypt_encrypt he]

lemma leU64_encryptSymmetric : L.leU64 blob = version := by
  unfold encryptSymmetric at h
  cases he : L.encrypt (L.hkdf ns version) nonce plaintext with
  | error e => rw [he] at h; cases h
  | ok c =>
    rw [he] at h
    cases h
    exact L.leU64_frame _ _ _ hv

end

end VaultSync
