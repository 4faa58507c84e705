import VaultSync.Crdt.Symbolic
import VaultSync.Opfs.MetadataStore
import VaultSync.Opfs.OplogRefinement
import VaultSync.Sync.Download

/-! Key rotation: `rotate_keys` seals the pending entries again under the new key, over either
storage. -/

namespace VaultSync

open Async List Sym

variable {B : Type}

structure NamespaceKeypair (B : Type) where
  publicKey : B
  privateKey : B
  version : ℕ

structure KeyRing (B : Type) where
  keys : List (NamespaceKeypair B)
  activeVersion : ℕ

namespace KeyRing

variable (r : KeyRing B)

def nextVersion : ℕ := (r.activeVersion + 1) % 2 ^ 64

def rotate (pair : NamespaceKeypair B) : KeyRing B where
  keys := r.keys ++ [pair]
  activeVersion := pair.version

def pruneOldVersions (currentVersion : ℕ) : KeyRing B :=
  { r with keys := r.keys.filter fun k => currentVersion - 1 ≤ k.version }

lemma nextVersion_lt : r.nextVersion < 2 ^ 64 := Nat.mod_lt _ (Nat.two_pow_pos 64)

end KeyRing

structure KeyRecord (B : Type) where
  «namespace» : String
  keyBytes : B
  version : ℕ
  deriving DecidableEq

namespace Rotation

variable {S : Signature} {Mem ε σ α : Type}

structure Storage (S : Signature) (Mem B : Type) where
  readPendingOplog : String → ℕ → Prog S Mem VaultSyncError (List (OplogEntry B))
  updateOplogEncryptedBlob : String → B → Prog S Mem VaultSyncError Unit
  writeKey : KeyRecord B → Prog S Mem VaultSyncError Unit

inductive Op (S : Signature) (B : Type) where
  | storage (op : S.Op)
  | generateKeypair
  | nonce
  | updateReplicaKey («namespace» replicaId : String) (publicKey : B) (keyVersion : ℕ)
  | register («namespace» : String) (info : ReplicaInfo B) (lastSequence : ℕ)

def Op.Ans : Op S B → Type
  | .storage op => S.Ans op
  | .generateKeypair => B × B
  | .nonce => Nonce
  | .updateReplicaKey _ _ _ _ => Except CoordinatorError Unit
  | .register _ _ _ => Except CoordinatorError Unit

abbrev Ops (S : Signature) (B : Type) : Signature := ⟨Op S B, Op.Ans⟩

structure WithKeyRing (B Mem : Type) where
  keyring : KeyRing B
  storage : Mem

abbrev Fn (S : Signature) (Mem B : Type) := Prog (Ops S B) (WithKeyRing B Mem) VaultSyncError

structure Env (ε B : Type) where
  storage : ε
  keypair : B × B
  nonce : Nonce
  coordinator : Except CoordinatorError Unit

instance [Inhabited ε] [Inhabited B] : Inhabited (Env ε B) :=
  ⟨{ storage := default
     keypair := default
     nonce := 0
     coordinator := .ok () }⟩

def handle (M : Machine S Mem ε σ) : (op : Op S B) → Env ε B → WithKeyRing B σ →
    op.Ans × WithKeyRing B σ
  | .storage op, e, s =>
    ((M.handle op e.storage s.storage).1,
      { s with storage := (M.handle op e.storage s.storage).2 })
  | .generateKeypair, e, s => (e.keypair, s)
  | .nonce, e, s => (e.nonce, s)
  | .updateReplicaKey _ _ _ _, e, s => (e.coordinator, s)
  | .register _ _ _, e, s => (e.coordinator, s)

def allow (M : Machine S Mem ε σ) : Op S B → Env ε B → WithKeyRing B σ → Prop
  | .storage op, e, s => M.allow op e.storage s.storage
  | _, _, _ => True

def machine (M : Machine S Mem ε σ) :
    Machine (Ops S B) (WithKeyRing B Mem) (Env ε B) (WithKeyRing B σ) where
  handle := handle M
  allow := allow M
  memory s := ⟨s.keyring, M.memory s.storage⟩
  setMemory l s := ⟨l.keyring, M.setMemory l.storage s.storage⟩

def onStorage (t : Prog S Mem VaultSyncError α) : Fn S Mem B α :=
  t.embed
    { op := .storage
      ans := fun _ x => x
      get := WithKeyRing.storage
      put := fun l m => { m with storage := l } }

/-! ## The function -/

section program

variable (L : Lib B) (st : Storage S Mem B) (cfg : Config)

def rotate : Fn S Mem B (NamespaceKeypair B) := do
  let (publicKey, privateKey) ← .call .generateKeypair .ret
  let pair (r : KeyRing B) : NamespaceKeypair B :=
    { publicKey := publicKey
      privateKey := privateKey
      version := r.nextVersion }
  .sync (fun c => { c with keyring := c.keyring.rotate (pair c.keyring) })
    fun c => .ret (pair c.keyring)

def encrypt (plaintext : B) : Fn S Mem B B := do
  let version ← .read fun c => c.keyring.activeVersion
  let nonce ← .call .nonce .ret
  .ofExcept (encryptSymmetric L version nonce plaintext cfg.namespace)

/-- The loop over the pending entries. An entry without a blob is passed over. -/
def reencrypt : List (OplogEntry B) → Fn S Mem B Unit
  | [] => return ()
  | e :: es =>
    match e.encryptedBlob with
    | none => reencrypt es
    | some blob => do
      let plaintext ← .ofExcept (decryptSymmetric L blob cfg.namespace)
      let newBlob ← encrypt L cfg plaintext
      onStorage (st.updateOplogEncryptedBlob e.id newBlob)
      reencrypt es

def coordinator (label : String) : Except CoordinatorError Unit → Fn S Mem B Unit
  | .ok () => return ()
  | .error e => .fail (.coordinator s!"{label}: {e.debug}")

def rotateKeys (schemaVersion : ℕ) : Fn S Mem B Unit := do
  let pair ← rotate
  let pending ← onStorage (st.readPendingOplog cfg.namespace 10000)
  reencrypt L st cfg pending
  .modify fun c => { c with keyring := c.keyring.pruneOldVersions pair.version }
  onStorage (st.writeKey ⟨cfg.namespace, pair.privateKey, pair.version⟩)
  .call (.updateReplicaKey cfg.namespace cfg.replicaId pair.publicKey pair.version)
    (coordinator "key update failed")
  .call (.register cfg.namespace ⟨cfg.replicaId, cfg.namespace, pair.publicKey, schemaVersion⟩ 0)
    (coordinator "re-register failed")

end program

/-! ## What it is for -/

def Pending (ns : String) (e : OplogEntry B) : Prop := e.namespace = ns ∧ e.syncStatus.isUploadable

instance (ns : String) (e : OplogEntry B) : Decidable (Pending ns e) :=
  inferInstanceAs (Decidable (_ ∧ _))

section specification

variable (L : Lib B) (ns : String) (version : ℕ)

/-- The entry is the same but for its blob. A pending entry's is sealed under the version, and has
the plaintext it had. -/
def Reencrypted (e e' : OplogEntry B) : Prop :=
  { e' with encryptedBlob := e.encryptedBlob } = e ∧
    (Pending ns e → ∃ blob blob' plaintext, e.encryptedBlob = some blob ∧
      e'.encryptedBlob = some blob' ∧ L.leU64 blob' = version ∧
      decryptSymmetric L blob ns = .ok plaintext ∧ decryptSymmetric L blob' ns = .ok plaintext)

def AllReencrypted (l l' : List (OplogEntry B)) : Prop :=
  ∃ l₁ : List (OplogEntry B), l₁.Perm l' ∧ List.Forall₂ (Reencrypted L ns version) l l₁

def AlreadySealed (l : List (OplogEntry B)) : Prop :=
  ∀ e ∈ l, Pending ns e → ∃ blob plaintext, e.encryptedBlob = some blob ∧
    L.leU64 blob = version ∧ decryptSymmetric L blob ns = .ok plaintext

end specification

/-! ## The storages -/

structure MemoryTables (B : Type) where
  storage : InMemoryStorage B
  keys : List (KeyRecord B)

abbrev NoOps : Signature := ⟨Empty, Empty.elim⟩

def memoryMachine (B : Type) : Machine NoOps (MemoryTables B) Unit (MemoryTables B) where
  handle op := op.elim
  allow op := op.elim
  memory s := s
  setMemory s _ := s

def memory : Storage NoOps (MemoryTables B) B where
  readPendingOplog ns limit := .read fun t => t.storage.readPendingOplog ns limit
  updateOplogEncryptedBlob id blob :=
    .modify fun t => { t with storage := t.storage.updateOplogEncryptedBlob id blob }
  writeKey record := .modify fun t => { t with keys := t.keys ++ [record] }

section opfs

open Opfs

variable {F D : Type}

/-- `OpfsStorage`. It inherits no way to change a blob: the method does nothing. With a metadata
runtime, the key is left to it. -/
def opfs (lib : PageLib F D B) (codec : Codec D (List (KeyRecord B))) (metadataRuntime : Bool) :
    Storage (TabOps F B) (Tab D) B where
  readPendingOplog ns limit := do
    let entries ← OpfsStorage.readAllOplogEntries lib
    return (entries.filter fun e => Pending ns e).take limit
  updateOplogEncryptedBlob _ _ := return ()
  writeKey record := do
    if metadataRuntime then return ()
    let all ← onStore .keys (MetadataStore.read lib codec)
    onStore .keys (MetadataStore.write lib codec (all.getD [] ++ [record]))

end opfs

/-! ## The parts of the function -/

variable {M : Machine S Mem ε σ} {L : Lib B} {cfg : Config} {st : Storage S Mem B}

section parts

variable {s : WithKeyRing B σ} {Q : Except VaultSyncError α → WithKeyRing B σ → Prop}

lemma wp_onStorage {t : Prog S Mem VaultSyncError α}
    (h : wp M (fun r p => Q r { s with storage := p }) t s.storage) :
    wp (machine M) Q (onStorage t) s := by
  induction t generalizing s with
  | ret a => exact h
  | fail e => exact h
  | call op k ih => exact fun e he => ih _ (h e.storage he)
  | sync f k ih => exact ih _ h

variable (hM : ∀ p, M.setMemory (M.memory p) p = p)

include hM

lemma wp_encrypt (hv : s.keyring.activeVersion < 2 ^ 64) (plaintext : B) :
    wp (machine M) (fun r s' => s' = s ∧ ∀ blob, r = .ok blob →
      L.leU64 blob = s.keyring.activeVersion ∧
        decryptSymmetric L blob cfg.namespace = .ok plaintext)
      (encrypt L cfg plaintext : Fn S Mem B B) s := by
  intro e _
  refine (wp_ofExcept _).2 ⟨congrArg (WithKeyRing.mk _) (hM s.storage), fun blob hblob => ?_⟩
  exact ⟨leU64_encryptSymmetric hv hblob, decryptSymmetric_encryptSymmetric hv hblob⟩

lemma wp_rotate {f : NamespaceKeypair B → Fn S Mem B α}
    (h : ∀ pair s', s'.storage = s.storage → s'.keyring.activeVersion = s.keyring.nextVersion →
      wp (machine M) Q (f pair) s') : wp (machine M) Q (rotate >>= f) s :=
  fun _ _ => h _ _ (hM s.storage) rfl

lemma wp_rotateKeys {Q : σ → Prop} {schemaVersion : ℕ}
    (hkey : ∀ p record, Q p → wp M (fun _ p' => Q p') (st.writeKey record) p)
    (hloop : ∀ s' : WithKeyRing B σ, s'.storage = s.storage →
      s'.keyring.activeVersion = s.keyring.nextVersion →
      wp (machine M) (fun r s'' => r = .ok () → Q s''.storage)
        (do
          let pending ← onStorage (st.readPendingOplog cfg.namespace 10000)
          reencrypt L st cfg pending) s') :
    wp (machine M) (fun r s' => r = .ok () → Q s'.storage) (rotateKeys L st cfg schemaVersion) s := by
  rw [rotateKeys]
  refine wp_rotate hM fun pair s1 hstorage hversion => ?_
  rw [← Prog.bind_assoc]
  refine wp.bind (hloop s1 hstorage hversion) (fun _ s2 hQ => ?_) fun _ _ _ hok => nomatch hok
  change wp (machine M) _ (onStorage (st.writeKey _) >>= _) ⟨_, M.setMemory (M.memory s2.storage) _⟩
  rw [hM]
  refine wp.bind (Q := fun _ s' => Q s'.storage) (wp_onStorage (hkey s2.storage _ (hQ rfl)))
    (fun _ s3 hQ => ?_) fun _ _ hQ _ => hQ
  -- the coordinator's answers leave the storage alone
  rintro ⟨_, _, _, updated⟩ -
  cases updated with
  | error e => exact fun _ => hQ
  | ok u =>
    rintro ⟨_, _, _, registered⟩ -
    cases registered with
    | error e | ok u => exact fun _ => hQ

end parts

/-! ## Over the in-memory storage -/

variable {ns : String} {version : ℕ} {l l' : List (OplogEntry B)}

lemma setBlob_append {pre rest : List (OplogEntry B)} {e : OplogEntry B}
    (hpre : ∀ a ∈ pre, a.id ≠ e.id) (blob : B) :
    InMemoryStorage.setBlob e.id blob (pre ++ e :: rest) =
      pre ++ { e with encryptedBlob := some blob } :: rest := by
  induction pre with
  | nil => exact if_pos rfl
  | cons a pre ih =>
    obtain ⟨ha, hpre⟩ := forall_mem_cons.1 hpre
    rw [cons_append, InMemoryStorage.setBlob, if_neg ha, ih hpre]
    rfl

/-- Every pending entry has a blob, and is the first with its id. -/
structure Addressable (ns : String) (oplog : List (OplogEntry B)) : Prop where
  blob : ∀ e ∈ oplog, Pending ns e → e.encryptedBlob.isSome
  first : oplog.Pairwise fun a b => Pending ns b → a.id ≠ b.id

lemma Reencrypted.id_eq {e e' : OplogEntry B} (h : Reencrypted L ns version e e') : e'.id = e.id :=
  (congrArg OplogEntry.id h.1 :)

lemma ids_of_forall2 (h : List.Forall₂ (Reencrypted L ns version) l l') :
    l'.map OplogEntry.id = l.map OplogEntry.id := by
  rw [← List.forall₂_eq_eq_eq, List.forall₂_map_left_iff, List.forall₂_map_right_iff]
  exact h.flip.imp fun _ _ => Reencrypted.id_eq

section memory

variable {s : WithKeyRing B (MemoryTables B)}

lemma wp_updateBlob_memory (id : String) (blob : B) :
    wp (machine (memoryMachine B)) (fun r s' => r = .ok () ∧ s'.keyring = s.keyring ∧
      s'.storage.storage.oplog = InMemoryStorage.setBlob id blob s.storage.storage.oplog)
      (onStorage (memory.updateOplogEncryptedBlob id blob)) s :=
  wp_onStorage ⟨rfl, rfl, rfl⟩

lemma wp_reencrypt_memory (hv : version < 2 ^ 64) {pre pre' rest : List (OplogEntry B)}
    (haddr : Addressable cfg.namespace (pre ++ rest))
    (hpre : List.Forall₂ (Reencrypted L cfg.namespace version) pre pre')
    (hoplog : s.storage.storage.oplog = pre' ++ rest) (hs : s.keyring.activeVersion = version) :
    wp (machine (memoryMachine B)) (fun r s' => r = .ok () →
      List.Forall₂ (Reencrypted L cfg.namespace version) (pre ++ rest) s'.storage.storage.oplog)
      (reencrypt L memory cfg (rest.filter fun e => Pending cfg.namespace e)) s := by
  induction rest generalizing pre pre' s with
  | nil =>
    intro _
    rw [hoplog, append_nil, append_nil]
    exact hpre
  | cons e rest ih =>
    have hsplit : pre ++ e :: rest = (pre ++ [e]) ++ rest := by simp
    by_cases hp : Pending cfg.namespace e
    · have hne : ∀ a ∈ pre', a.id ≠ e.id := by
        intro a ha
        have hid : a.id ∈ pre'.map OplogEntry.id := mem_map_of_mem ha
        rw [ids_of_forall2 hpre] at hid
        obtain ⟨b, hb, hba⟩ := mem_map.1 hid
        rw [← hba]
        exact (pairwise_append.1 haddr.first).2.2 b hb e mem_cons_self hp
      obtain ⟨blob, hblob⟩ := Option.isSome_iff_exists.1
        (haddr.blob e (mem_append_right _ mem_cons_self) hp)
      rw [filter_cons_of_pos (by simpa using hp), reencrypt]
      simp only [hblob]
      cases hdec : decryptSymmetric L blob cfg.namespace with
      | error err => exact fun hok => by cases hok
      | ok plaintext =>
        change wp (machine (memoryMachine B)) _ (encrypt L cfg plaintext >>= _) s
        refine wp.bind (wp_encrypt (fun _ => rfl) (hs ▸ hv) plaintext) (fun blob' s1 hs1 => ?_)
          fun _ _ _ hok => nomatch hok
        obtain ⟨rfl, hr⟩ := hs1
        obtain ⟨hversion, hdec'⟩ := hr blob' rfl
        refine (wp_updateBlob_memory e.id blob').then ?_
        rintro s2 ⟨hkeys, hblobs⟩
        rw [hoplog, setBlob_append hne] at hblobs
        rw [hsplit] at haddr ⊢
        refine @ih s2 (pre ++ [e]) (pre' ++ [{ e with encryptedBlob := some blob' }]) haddr ?_ ?_ ?_
        · refine rel_append hpre (.cons ⟨rfl, fun _ => ?_⟩ .nil)
          exact ⟨blob, blob', plaintext, hblob, rfl, hversion.trans hs, hdec, hdec'⟩
        · rw [hblobs]
          simp
        · rw [hkeys, hs]
    · rw [filter_cons_of_neg (by simpa using hp), hsplit]
      rw [hsplit] at haddr
      refine @ih s (pre ++ [e]) (pre' ++ [e]) haddr ?_ ?_ hs
      · exact rel_append hpre (.cons ⟨rfl, fun h => absurd h hp⟩ .nil)
      · rw [hoplog]
        simp

lemma wp_rotateKeys_memory {schemaVersion : ℕ}
    (haddr : Addressable cfg.namespace s.storage.storage.oplog)
    (hcount : s.storage.storage.oplog.countP (fun e => Pending cfg.namespace e) ≤ 10000) :
    wp (machine (memoryMachine B)) (fun r s' => r = .ok () →
      List.Forall₂ (Reencrypted L cfg.namespace s.keyring.nextVersion) s.storage.storage.oplog
        s'.storage.storage.oplog) (rotateKeys L memory cfg schemaVersion) s := by
  have hQ := @wp_rotateKeys _ _ _ _ _ (memoryMachine B) L cfg memory s (fun _ => rfl)
    (fun t => List.Forall₂ (Reencrypted L cfg.namespace s.keyring.nextVersion)
      s.storage.storage.oplog t.storage.oplog) schemaVersion
  refine hQ (fun _ _ h => h) fun s' hstorage hversion => ?_
  have hread : wp (machine (memoryMachine B)) (fun r s'' => s'' = s' ∧
      r = .ok (s.storage.storage.oplog.filter fun e => Pending cfg.namespace e))
      (onStorage (memory.readPendingOplog cfg.namespace 10000)) s' := by
    refine wp_onStorage ⟨rfl, congrArg Except.ok ?_⟩
    change ((s'.storage.storage.oplog.filter _).take 10000) = _
    rw [hstorage]
    rw [countP_eq_length_filter] at hcount
    exact take_of_length_le hcount
  rw [wp_bind]
  refine hread.mono ?_
  rintro _ s'' ⟨rfl, rfl⟩
  exact @wp_reencrypt_memory _ L cfg _ s'' s.keyring.nextVersion_lt [] [] s.storage.storage.oplog
    haddr .nil (by rw [hstorage, nil_append]) hversion

end memory

/-! ## Over the page stores -/

section opfs

open Opfs StoreState OplogRefinement

variable {F D : Type} {lib : PageLib F D B} {codec : Codec D (List (KeyRecord B))}
  {metadataRuntime : Bool}

structure SameOplog (lib : PageLib F D B) (s s' : TabState F D) : Prop where
  consistent : Consistent lib (s'.part .oplog)
  cacheOnly : CacheOnly (s.part .oplog) (s'.part .oplog)

lemma SameOplog.onKeys {s s' : TabState F D} (h : SameOplog lib s s') (t : PageFn F D α) :
    wp (TabState.machine B) (fun _ s'' => SameOplog lib s s'') (onStore .keys t) s' := by
  rw [wp_onStore]
  refine wp_iff_outcome.2 fun _ p _ => ?_
  have hpart : (s'.replace .keys p).part .oplog = s'.part .oplog :=
    TabState.part_replace_of_ne (by decide)
  exact ⟨hpart.symm ▸ h.consistent, hpart.symm ▸ h.cacheOnly⟩

lemma SameOplog.writeKey {s s' : TabState F D} (h : SameOplog lib s s') (record : KeyRecord B) :
    wp (TabState.machine B) (fun _ s'' => SameOplog lib s s'')
      ((opfs lib codec metadataRuntime).writeKey record) s' := by
  cases metadataRuntime with
  | true => exact h
  | false =>
    change wp _ _ (onStore .keys (MetadataStore.read lib codec) >>= _) s'
    exact wp.bind (h.onKeys _) (fun _ _ h' => h'.onKeys _) fun _ _ h' => h'

lemma wp_reencrypt_opfs (pending : List (OplogEntry B)) {s : WithKeyRing B (TabState F D)}
    (hv : s.keyring.activeVersion < 2 ^ 64) :
    wp (machine (TabState.machine B)) (fun _ s' => s'.storage = s.storage)
      (reencrypt L (opfs lib codec metadataRuntime) cfg pending) s := by
  induction pending with
  | nil => rfl
  | cons e pending ih =>
    rw [reencrypt]
    split
    · exact ih
    · rename_i blob _
      rw [wp_bind]
      cases decryptSymmetric L blob cfg.namespace with
      | error err => rfl
      | ok plaintext =>
        change wp (machine (TabState.machine B)) _ (encrypt L cfg plaintext >>= _) s
        rw [wp_bind]
        refine (wp_encrypt (fun _ => rfl) hv plaintext).mono ?_
        rintro r s ⟨rfl, -⟩
        cases r with
        | error err => rfl
        | ok blob' => exact ih

lemma wp_rotateKeys_opfs {s : WithKeyRing B (TabState F D)} {schemaVersion : ℕ}
    (hs : Consistent lib (s.storage.part .oplog)) :
    wp (machine (TabState.machine B)) (fun r s' => r = .ok () → SameOplog lib s.storage s'.storage)
      (rotateKeys L (opfs lib codec metadataRuntime) cfg schemaVersion) s := by
  have hQ := @wp_rotateKeys _ _ _ _ _ (TabState.machine B) L cfg (opfs lib codec metadataRuntime)
    s (fun _ => rfl) (SameOplog lib s.storage) schemaVersion
  refine hQ (fun _ record h => h.writeKey record) fun s' hstorage hversion => ?_
  have hread : wp (TabState.machine B) (fun _ t => SameOplog lib s.storage t)
      ((opfs lib codec metadataRuntime).readPendingOplog cfg.namespace 10000) s'.storage := by
    change wp _ _ (OpfsStorage.readAllOplogEntries lib >>= _) s'.storage
    rw [wp_bind, hstorage]
    refine (wp_readAllOplogEntries_consistent hs).mono ?_
    rintro _ t ⟨l, rfl, -, hc, hcache, -⟩
    exact ⟨hc, hcache⟩
  rw [wp_bind]
  refine wp_onStorage (hread.mono fun r t ht => ?_)
  cases r with
  | error e => exact fun _ => ht
  | ok pending =>
    have hv : (⟨s'.keyring, t⟩ : WithKeyRing B (TabState F D)).keyring.activeVersion < 2 ^ 64 :=
      hversion ▸ s.keyring.nextVersion_lt
    refine (wp_reencrypt_opfs pending hv).mono fun _ s'' h _ => ?_
    rw [h]
    exact ht

lemma perm_of_sameOplog {s s' t t' : TabState F D} (hs : Consistent lib (s.part .oplog))
    (h : SameOplog lib s s')
    (hread : Outcome (TabState.machine B) (OpfsStorage.readAllOplogEntries lib) s (.ok l) t)
    (hread' : Outcome (TabState.machine B) (OpfsStorage.readAllOplogEntries lib) s' (.ok l') t') :
    l'.Perm l ∧ (l.map OplogEntry.id).Nodup := by
  obtain ⟨_, hl, hperm, -⟩ := wp_iff_outcome.1 (wp_readAllOplogEntries_consistent hs) _ _ hread
  obtain ⟨_, hl', hperm', -⟩ :=
    wp_iff_outcome.1 (wp_readAllOplogEntries_consistent h.consistent) _ _ hread'
  cases hl
  cases hl'
  rw [entriesRead_of_cacheOnly h.cacheOnly] at hperm'
  refine ⟨hperm'.trans hperm.symm, (hperm.map _).nodup_iff.2 ?_⟩
  exact (Versions.represents_absorb_nil _).nodup

lemma allReencrypted_iff_alreadySealed (hperm : l'.Perm l) (hids : (l.map OplogEntry.id).Nodup) :
    AllReencrypted L ns version l l' ↔ AlreadySealed L ns version l := by
  constructor
  · rintro ⟨l1, hl1, hall⟩ e he hp
    obtain ⟨i, hi, rfl⟩ := getElem_of_mem he
    have hi1 : i < l1.length := hall.length_eq ▸ hi
    have hr : Reencrypted L ns version l[i] l1[i] := hall.get hi hi1
    -- an entry is known by its id
    have hmem : l1[i] ∈ l := (hl1.trans hperm).mem_iff.1 (getElem_mem hi1)
    have hsame : l1[i] = l[i] := inj_on_of_nodup_map hids hmem he hr.id_eq
    obtain ⟨blob, blob', plaintext, -, hblob', hversion, -, hdec⟩ := hr.2 hp
    exact ⟨blob', plaintext, hsame ▸ hblob', hversion, hdec⟩
  · intro h
    refine ⟨l, hperm.symm, List.forall₂_same.2 fun e he => ⟨rfl, fun hp => ?_⟩⟩
    obtain ⟨blob, plaintext, hblob, hversion, hdec⟩ := h e he hp
    exact ⟨blob, blob, plaintext, hblob, hblob, hversion, hdec, hdec⟩

end opfs

section terms

open Opfs

def sampleEntry (id : String) (blob : Sym) : OplogEntry Sym where
  id := id
  replicaId := "a"
  «namespace» := "ns"
  mutationType := .crdtInsert
  docId := "d"
  recordId := "x"
  yrsUpdate := .empty
  encryptedBlob := some blob
  timestamp := 0
  sequence := none
  syncStatus := .pending
  syncedAt := none
  createdAt := 0
  schemaVersion := 1
  origin := .insert
  originContext := ""

def sampleKeyRing : KeyRing Sym := ⟨[⟨.empty, .empty, 1⟩], 1⟩

instance : Inhabited Sym := ⟨.empty⟩

def samplePages : PageLib (PageHeader × (List (OplogEntry Sym) ⊕ List (KeyRecord Sym)))
    (List (OplogEntry Sym) ⊕ List (KeyRecord Sym)) Sym where
  encode h d := (h, d)
  isEmpty _ := false
  isJson _ := false
  decodePageHeader f := .ok f.1
  extractPageData f := .ok f.2
  decodePage f := .ok f
  crc32 _ := 0
  len _ := 0
  decodeDoc _ := none
  decodeOplog := Sum.getLeft?
  decodeEntry _ := none
  encodeOplog := .inl
  len_lt _ := Nat.two_pow_pos 32
  isEmpty_encode _ _ := rfl
  isJson_encode _ _ := rfl
  decodePageHeader_encode _ _ _ := rfl
  decodePage_encode _ _ _ := rfl
  extractPageData_encode _ _ _ _ := rfl
  decodeOplog_encodeOplog _ := rfl

def sampleKeys : Codec (List (OplogEntry Sym) ⊕ List (KeyRecord Sym)) (List (KeyRecord Sym)) where
  encode := .inr
  decode := Sum.getRight?
  decode_encode _ := rfl

variable (oplog : List (OplogEntry Sym))

def sampleMemory : WithKeyRing Sym (MemoryTables Sym) where
  keyring := sampleKeyRing
  storage := ⟨{ InMemoryStorage.new with oplog := oplog }, []⟩

variable (entries : List (OplogEntry Sym))

def sampleOpfs :
    WithKeyRing Sym (TabState (PageHeader × (List (OplogEntry Sym) ⊕ List (KeyRecord Sym)))
      (List (OplogEntry Sym) ⊕ List (KeyRecord Sym))) where
  keyring := sampleKeyRing
  storage := OplogRefinement.run samplePages (OplogRefinement.opened true)
    (entries.map fun e => (.appendOplog e, []))

def rotateMemory : Except VaultSyncError Unit × WithKeyRing Sym (MemoryTables Sym) :=
  Async.run (machine (memoryMachine Sym)) (rotateKeys lib memory (config 0) 1) []
    (sampleMemory oplog)

def rotateOpfs :
    Except VaultSyncError Unit × WithKeyRing Sym (TabState
      (PageHeader × (List (OplogEntry Sym) ⊕ List (KeyRecord Sym)))
      (List (OplogEntry Sym) ⊕ List (KeyRecord Sym))) :=
  Async.run (machine (TabState.machine Sym))
    (rotateKeys lib (opfs samplePages sampleKeys false) (config 0) 1) [] (sampleOpfs entries)

def newBlob (d : CrdtState) : Sym := .frame 2 0 (.sealed (.key "ns" 2) 0 (.update d))

lemma outcome_rotateMemory :
    Outcome (machine (memoryMachine Sym)) (rotateKeys lib memory (config 0) 1)
      (sampleMemory oplog) (rotateMemory oplog).1 (rotateMemory oplog).2 := by
  refine run_outcome _ _ _ fun op _ => ?_
  cases op with
  | storage op => exact op.elim
  | _ => exact ⟨trivial, fun _ _ => trivial⟩

lemma outcome_rotateOpfs :
    Outcome (machine (TabState.machine Sym))
      (rotateKeys lib (opfs samplePages sampleKeys false) (config 0) 1)
      (sampleOpfs entries) (rotateOpfs entries).1 (rotateOpfs entries).2 := by
  refine run_outcome _ _ _ fun op _ => ?_
  cases op <;> exact ⟨trivial, fun _ _ => trivial⟩

end terms

end Rotation

end VaultSync
