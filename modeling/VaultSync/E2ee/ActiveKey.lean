import VaultSync.Async.Registry
import VaultSync.E2ee.Rotation

/-! The active key of a key ring, which every call that adds, loads or prunes keys should leave in
it. -/

namespace VaultSync.KeyRing

open Async List

variable {B : Type}

def fromKey (key : NamespaceKeypair B) : KeyRing B := ⟨[key], key.version⟩

def generate (publicKey privateKey : B) : KeyRing B := fromKey ⟨publicKey, privateKey, 1⟩

section

variable (r : KeyRing B)

def addKey (key : NamespaceKeypair B) : KeyRing B where
  keys := r.keys ++ [key]
  activeVersion := if r.activeVersion < key.version then key.version else r.activeVersion

/-- `none` stands for the panic of `expect`. -/
def activeKey : Option (NamespaceKeypair B) :=
  r.keys.find? fun k => k.version = r.activeVersion

/-- The versions are `u64`, and the sum saturates. -/
def pruneToKeep (keepVersions : ℕ) : KeyRing B :=
  let cutoff := min (r.activeVersion - keepVersions + 1) (2 ^ 64 - 1)
  { r with keys := r.keys.filter fun k => cutoff ≤ k.version }

def loadKeys (loaded : List (NamespaceKeypair B)) : KeyRing B :=
  if loaded.isEmpty then r
  else ⟨loaded, (loaded.map NamespaceKeypair.version).max?.getD 1⟩

inductive Event (B : Type) where
  | addKey (key : NamespaceKeypair B)
  | rotate (publicKey privateKey : B)
  | loadKeys (loaded : List (NamespaceKeypair B))
  | pruneOldVersions (currentVersion : ℕ)
  | pruneToKeep (keepVersions : ℕ)

def step : Event B → KeyRing B
  | .addKey key => r.addKey key
  | .rotate publicKey privateKey => r.rotate ⟨publicKey, privateKey, r.nextVersion⟩
  | .loadKeys loaded => r.loadKeys loaded
  | .pruneOldVersions currentVersion => r.pruneOldVersions currentVersion
  | .pruneToKeep keepVersions => r.pruneToKeep keepVersions

/-- What is pruned does not reach the active version. -/
def Keeps : Event B → Prop
  | .pruneOldVersions currentVersion => currentVersion ≤ r.activeVersion + 1
  | .pruneToKeep keepVersions =>
    0 < keepVersions ∧ 0 < r.activeVersion ∨ 2 ^ 64 - 1 ≤ r.activeVersion
  | _ => True

end

variable {r : KeyRing B}

lemma activeKey_ne_none_iff : r.activeKey ≠ none ↔ ∃ k ∈ r.keys, k.version = r.activeVersion := by
  simp [activeKey]

lemma activeKey_filter_iff (h : r.activeKey ≠ none) (cutoff : ℕ) :
    ({ r with keys := r.keys.filter fun k => cutoff ≤ k.version } : KeyRing B).activeKey ≠ none ↔
      cutoff ≤ r.activeVersion := by
  obtain ⟨key, hmem, hversion⟩ := activeKey_ne_none_iff.1 h
  rw [activeKey_ne_none_iff]
  constructor
  · rintro ⟨k, hk, heq⟩
    have hle : cutoff ≤ k.version := by simpa using (mem_filter.1 hk).2
    exact hle.trans_eq heq
  · intro hle
    refine ⟨key, mem_filter.2 ⟨hmem, ?_⟩, hversion⟩
    simpa [hversion] using hle

lemma activeKey_step_iff (r : KeyRing B) (e : Event B) (h : r.activeKey ≠ none) :
    (r.step e).activeKey ≠ none ↔ r.Keeps e := by
  cases e with
  | addKey key =>
    obtain ⟨old, hmem, hversion⟩ := activeKey_ne_none_iff.1 h
    refine iff_of_true (activeKey_ne_none_iff.2 ?_) trivial
    by_cases hnewer : r.activeVersion < key.version
    · exact ⟨key, by simp [step, addKey], by simp [step, addKey, hnewer]⟩
    · exact ⟨old, by simp [step, addKey, hmem], by simp [step, addKey, hnewer, hversion]⟩
  | rotate publicKey privateKey =>
    refine iff_of_true (activeKey_ne_none_iff.2 ?_) trivial
    exact ⟨_, mem_append_right _ mem_cons_self, rfl⟩
  | loadKeys loaded =>
    refine iff_of_true ?_ trivial
    change (r.loadKeys loaded).activeKey ≠ none
    unfold loadKeys
    by_cases hempty : loaded.isEmpty
    · simpa [hempty] using h
    · rw [if_neg hempty, activeKey_ne_none_iff]
      cases hmax : (loaded.map NamespaceKeypair.version).max? with
      | none => simp_all
      | some newest => simpa using List.max?_mem hmax
  | pruneOldVersions currentVersion =>
    exact (activeKey_filter_iff h _).trans Nat.sub_le_iff_le_add
  | pruneToKeep keepVersions =>
    refine (activeKey_filter_iff h _).trans ?_
    simp only [Keeps]
    omega

/-- **The active key.** It is in the ring after every call if and only if no call prunes it. -/
theorem activeKey_present_iff (key : NamespaceKeypair B) (events : List (Event B)) :
    (∀ pre post, events = pre ++ post → (pre.foldl step (fromKey key)).activeKey ≠ none) ↔
      ∀ pre e post, events = pre ++ e :: post → (pre.foldl step (fromKey key)).Keeps e :=
  forall_run_iff activeKey_step_iff (by simp [activeKey, fromKey]) events

/-- `prune_key_versions(0)` of a new client. -/
theorem activeKey_pruned : ((generate 3 5).step (.pruneToKeep 0)).activeKey = none := by
  simp [generate, fromKey, step, pruneToKeep, activeKey]

end VaultSync.KeyRing
