import VaultSync.Ipc.RecoveredHistory
import VaultSync.Sync.Compaction
import VaultSync.Sync.Upload

/-! What a coordinator can read of what a client sends it. Byte strings are terms; the cipher
gives its plaintext to whoever has the key, and HKDF is public. -/

namespace VaultSync

open CrdtState List

/-! ### Derivations -/

/-- HKDF, cipher, framing and codec are the constructors of terms; the rest of the library is
arbitrary. -/
structure Sym.Symbolic (L : Lib Sym) : Prop where
  empty : L.empty = .empty
  hkdf : L.hkdf = .key
  encrypt : ∀ k n p, L.encrypt k n p = .ok (.sealed k n p)
  decrypt : ∀ {k n c p}, L.decrypt k n c = .ok p → c = .sealed k n p
  frame : L.frame = .frame
  frameNonce : ∀ v n c, L.frameNonce (.frame v n c) = n
  frameBody : ∀ v n c, L.frameBody (.frame v n c) = c
  encode : L.encodeV1 = .update
  decode : ∀ {b d}, L.decodeV1 b = .ok d → b = .update d

/-- What follows from the terms `known` for someone who knows the namespace `ns`. Updates can be
merged and cut, but not invented. -/
inductive Derives (ns : String) (known : Sym → Prop) : Sym → Prop where
  | known {t : Sym} (h : known t) : Derives ns known t
  | empty : Derives ns known .empty
  | hkdf (version : ℕ) : Derives ns known (.key ns version)
  | frame (version : ℕ) (nonce : Nonce) {body : Sym} (h : Derives ns known body) :
    Derives ns known (.frame version nonce body)
  | unframe {version : ℕ} {nonce : Nonce} {body : Sym}
    (h : Derives ns known (.frame version nonce body)) : Derives ns known body
  | encrypt {key plaintext : Sym} (nonce : Nonce) (hk : Derives ns known key)
    (hp : Derives ns known plaintext) : Derives ns known (.sealed key nonce plaintext)
  | decrypt {key plaintext : Sym} {nonce : Nonce}
    (h : Derives ns known (.sealed key nonce plaintext)) (hk : Derives ns known key) :
    Derives ns known plaintext
  | blank : Derives ns known (.update ⊥)
  | merge {d d' : CrdtState} (h : Derives ns known (.update d)) (h' : Derives ns known (.update d')) :
    Derives ns known (.update (d ⊔ d'))
  | part {d d' : CrdtState} (h : Derives ns known (.update d)) (hle : d' ≤ d) :
    Derives ns known (.update d')

def Sym.Below (u : CrdtState) : Sym → Prop
  | .empty | .key _ _ => True
  | .update d => d ≤ u
  | .sealed _ _ plaintext => plaintext.Below u
  | .frame _ _ body => body.Below u

variable {known : Sym → Prop}

lemma Derives.bounded {ns : String} {u : CrdtState}
    (hu : ∀ t, known t → t.Below u) {t : Sym} (h : Derives ns known t) : t.Below u := by
  induction h with
  | known h => exact hu _ h
  | empty => trivial
  | hkdf version => trivial
  | frame version nonce h ih => exact ih
  | unframe h ih => exact ih
  | encrypt nonce hk hp ihk ihp => exact ihp
  | decrypt h hk ih ihk => exact ih
  | blank => exact bot_le
  | merge h h' ih ih' => exact sup_le ih ih'
  | part h hle ih => exact hle.trans ih

lemma Derives.joinAll {ns : String} {l : List CrdtState}
    (h : ∀ d ∈ l, Derives ns known (.update d)) : Derives ns known (.update (joinAll l)) := by
  induction l with
  | nil => exact .blank
  | cons d l ih =>
    rw [forall_mem_cons] at h
    exact .merge h.1 (ih h.2)

/-! ### The messages of a client -/

inductive Message (B : Type) where
  | push (ns : String) (ms : List (EncryptedMutation B))
  | storeSnapshot (ns : String) (s : Snapshot B)
  | register (ns replicaId : String) (publicKey lastSequence : ℕ)
  | updateReplicaKey (ns replicaId : String) (publicKey version : ℕ)

def Message.terms {B : Type} : Message B → List B
  | .push _ ms => ms.map EncryptedMutation.encryptedBlob
  | .storeSnapshot _ s => [s.bytes]
  | .register _ _ _ _ | .updateReplicaKey _ _ _ _ => []

def Sym.carried : Sym → Option CrdtState
  | .frame _ _ (.sealed _ _ (.update d)) => some d
  | .update d => some d
  | _ => none

/-- A client with its storage, the active key version, the snapshots its compaction made, and
what it sent to the coordinator. -/
structure Session where
  device : Device Sym
  activeVersion : ℕ
  snapshots : List (Snapshot Sym)
  sent : List (Message Sym)

namespace Session

def Seen (s : Session) (t : Sym) : Prop := ∃ m ∈ s.sent, t ∈ m.terms

instance (s : Session) (t : Sym) : Decidable (s.Seen t) :=
  inferInstanceAs (Decidable (∃ m ∈ s.sent, t ∈ m.terms))

def uploaded (s : Session) : List CrdtState := s.sent.flatMap fun m => m.terms.filterMap Sym.carried

inductive Event where
  | device (e : Device.Event Sym)
  /-- `process_batch` pushes the pending entries whose retry is due. -/
  | upload (due : String → Bool)
  /-- `acknowledged` says whether the coordinator took the new key. -/
  | rotateKeys (nonces : ℕ → Nonce) (publicKey : ℕ) (acknowledged : Bool)
  | register (publicKey lastSequence : ℕ)
  /-- One document of `run_snapshot_compaction`. -/
  | compactDocument (client : ClientId) (k : Key)
  | storeSnapshot (s : Snapshot Sym)

section

variable (b : Backend) (L : Lib Sym) (cfg : Config)

def new : Session := ⟨.new, cfg.keyVersion, [], []⟩

def reencrypt (version : ℕ) : (ℕ → Nonce) → List (OplogEntry Sym) → InMemoryStorage Sym →
    Except VaultSyncError Unit × InMemoryStorage Sym
  | _, [], st => (.ok (), st)
  | nonces, e :: es, st =>
    match e.encryptedBlob with
    | none => reencrypt version nonces es st
    | some blob =>
      match decryptSymmetric L blob cfg.namespace with
      | .error err => (.error err, st)
      | .ok plaintext =>
        match encryptSymmetric L version (nonces 0) plaintext cfg.namespace with
        | .error err => (.error err, st)
        | .ok blob =>
          reencrypt version (fun i => nonces (i + 1)) es (st.updateOplogEncryptedBlob e.id blob)

def rotateKeys (nonces : ℕ → Nonce) (publicKey : ℕ) (acknowledged : Bool) (s : Session) : Session :=
  let version := (s.activeVersion + 1) % 2 ^ 64
  let (r, st) := reencrypt L cfg version nonces
    (s.device.storage.readPendingOplog cfg.namespace 10000) s.device.storage
  { s with
    device := { s.device with storage := st }
    activeVersion := version
    sent :=
      match r with
      | .error _ => s.sent
      | .ok _ => s.sent ++ .updateReplicaKey cfg.namespace cfg.replicaId publicKey version ::
          if acknowledged then [.register cfg.namespace cfg.replicaId publicKey 0] else [] }

def upload (due : String → Bool) (s : Session) : Session :=
  let raw := s.device.storage.readPendingOplog cfg.namespace cfg.uploadBatchSize
  let entries := raw.filter fun e => due e.id
  if entries.isEmpty then s
  else { s with sent := s.sent ++ [.push cfg.namespace (entries.map (UploadQueue.toMutation L))] }

def collapse (k : Key) (synced : List (OplogEntry Sym)) (doc : CRDTDocument) (s : Session) :
    Session :=
  let snapshot := doc.toSnapshot L
  let timestamp := CompactionEngine.maxTimestamp synced
  let st := s.device.storage.insertDocument k snapshot
  if 0 < timestamp then
    { s with
      device := { s.device with
        storage := st.deleteSyncedOplogBeforeTimestamp cfg.namespace k ((timestamp + 1) % 2 ^ 64) }
      snapshots := s.snapshots ++ [{
        docId := k.docId
        recordId := k.recordId
        schemaVersion := doc.schemaVersion
        sequence := CompactionEngine.maxSequence synced
        createdAt := timestamp
        bytes := snapshot }] }
  else { s with device := { s.device with storage := st } }

def compactDocument (client : ClientId) (k : Key) (s : Session) : Session :=
  let synced := s.device.storage.readSyncedOplogForDocument cfg.namespace k
  if cfg.snapshotThreshold < synced.length then
    match s.device.storage.documents k with
    | none => s
    | some bytes =>
      match CRDTDocument.fromSnapshot L client bytes with
      | .error _ => s
      | .ok doc => s.collapse L cfg k synced doc
  else s

def step (s : Session) : Event → Session
  | .device e =>
    { s with device := s.device.step b L { cfg with keyVersion := s.activeVersion } e }
  | .upload due => s.upload L cfg due
  | .rotateKeys nonces publicKey acknowledged => s.rotateKeys L cfg nonces publicKey acknowledged
  | .register publicKey lastSequence =>
    { s with sent := s.sent ++ [.register cfg.namespace cfg.replicaId publicKey lastSequence] }
  | .compactDocument client k => s.compactDocument L cfg client k
  | .storeSnapshot snapshot =>
    if snapshot ∈ s.snapshots then
      { s with sent := s.sent ++ [.storeSnapshot cfg.namespace snapshot] }
    else s

def run (s : Session) (es : List Event) : Session := es.foldl (step b L cfg) s

end

/-! ### What is stored and sent -/

def IsBlob (ns : String) (t : Sym) : Prop :=
  ∃ v n d, t = .frame v n (.sealed (.key ns v) n (.update d))

def BlobsOk (ns : String) (l : List (OplogEntry Sym)) : Prop :=
  ∀ e ∈ l, ∀ blob, e.encryptedBlob = some blob → IsBlob ns blob

structure Plain (ns : String) (s : Session) : Prop where
  oplog : BlobsOk ns s.device.storage.oplog
  snapshots : ∀ snapshot ∈ s.snapshots, ∃ d, snapshot.bytes = .update d
  sent : ∀ t, s.Seen t → t = .empty ∨ IsBlob ns t ∨ ∃ d, t = .update d

variable {b : Backend} {L : Lib Sym} {cfg : Config} {s : Session} {ns : String}
  {l l' : List (OplogEntry Sym)}

lemma encryptSymmetric_eq (hL : Sym.Symbolic L) (v : ℕ) (n : Nonce) (p : Sym) :
    encryptSymmetric L v n p ns = .ok (.frame v n (.sealed (.key ns v) n p)) := by
  rw [encryptSymmetric, hL.hkdf, hL.encrypt, hL.frame]

variable {d : Device Sym} {blob : Sym}

lemma isBlob_of_encrypt (hL : Sym.Symbolic L) {v : ℕ} {n : Nonce} {d : CrdtState}
    (h : encryptSymmetric L v n (.update d) ns = .ok blob) : IsBlob ns blob := by
  rw [encryptSymmetric_eq hL] at h
  cases h
  exact ⟨v, n, d, rfl⟩

lemma decryptSymmetric_isBlob (hL : Sym.Symbolic L) {p : Sym} (hblob : IsBlob ns blob)
    (h : decryptSymmetric L blob ns = .ok p) : ∃ d, p = .update d := by
  obtain ⟨v, n, d, rfl⟩ := hblob
  rw [decryptSymmetric, hL.frameBody, hL.frameNonce] at h
  split_ifs at h
  split at h
  · rename_i hdec
    cases h
    exact ⟨d, ((Sym.sealed.inj (hL.decrypt hdec)).2.2).symm⟩
  · cases h

lemma BlobsOk.mono (h : BlobsOk ns l)
    (hsub : ∀ e ∈ l', ∃ e0 ∈ l, e.encryptedBlob = e0.encryptedBlob) : BlobsOk ns l' := by
  intro e he blob hblob
  obtain ⟨e0, he0, heq⟩ := hsub e he
  exact h e0 he0 blob (heq ▸ hblob)

lemma BlobsOk.map (h : BlobsOk ns l) {f : OplogEntry Sym → OplogEntry Sym}
    (hf : ∀ e, (f e).encryptedBlob = e.encryptedBlob) : BlobsOk ns (l.map f) := by
  refine h.mono fun e he => ?_
  obtain ⟨e0, he0, rfl⟩ := mem_map.1 he
  exact ⟨e0, he0, hf e0⟩

lemma BlobsOk.filter (h : BlobsOk ns l) (p : OplogEntry Sym → Bool) : BlobsOk ns (l.filter p) :=
  h.mono fun e he => ⟨e, mem_of_mem_filter he, rfl⟩

lemma BlobsOk.append (h : BlobsOk ns l) (h' : BlobsOk ns l') : BlobsOk ns (l ++ l') := by
  intro e he
  rcases mem_append.1 he with he | he
  · exact h e he
  · exact h' e he

lemma BlobsOk.singleton {e : OplogEntry Sym} (he : e.encryptedBlob = some blob)
    (hblob : IsBlob ns blob) : BlobsOk ns [e] := by
  intro e' he' blob' hblob'
  cases mem_singleton.1 he'
  cases he.symm.trans hblob'
  exact hblob

lemma BlobsOk.setBlob (h : BlobsOk ns l) (hblob : IsBlob ns blob) (id : String) :
    BlobsOk ns (InMemoryStorage.setBlob id blob l) := by
  induction l with
  | nil => exact h
  | cons e l ih =>
    have hl : BlobsOk ns l := fun e' he' => h e' (mem_cons_of_mem e he')
    have he : BlobsOk ns [e] := fun e' he' => h e' (mem_singleton.1 he' ▸ mem_cons_self)
    unfold InMemoryStorage.setBlob
    split_ifs
    · exact (BlobsOk.singleton (e := { e with encryptedBlob := some blob }) rfl hblob).append hl
    · exact he.append (ih hl)

section

variable (hL : Sym.Symbolic L) (h : BlobsOk cfg.namespace d.storage.oplog)

include hL h

lemma BlobsOk.wrote {w : LocalWrite} {d' : Device Sym} (hw : Device.Wrote L cfg w d d') :
    BlobsOk cfg.namespace d'.storage.oplog := by
  rcases hw with rfl | ⟨_, _, _, u, blob, hblob, rfl⟩
  · exact h
  · rw [hL.encode] at hblob
    exact h.append (.singleton rfl (isBlob_of_encrypt hL hblob))

lemma BlobsOk.recover {r : Recovery Sym} :
    BlobsOk cfg.namespace (d.recover b L cfg r).storage.oplog := by
  rw [Device.recover_storage, CrashRecovery.writeRows_oplog]
  refine (h.map fun e => ?_).append fun row hrow blob' hblob' => ?_
  · split_ifs <;> rfl
  · obtain ⟨e, nonce, doc, blob, hdoc, hblob, rfl⟩ := CrashRecovery.mem_rows hrow
    cases hblob'
    rw [hL.decode (CRDTDocument.fromSnapshot_ok hdoc).1] at hblob
    exact isBlob_of_encrypt hL hblob

lemma BlobsOk.step
    (e : Device.Event Sym) : BlobsOk cfg.namespace (d.step b L cfg e).storage.oplog := by
  cases e with
  | insert w => exact h.wrote hL Device.wrote_writeFields
  | update w => exact h.wrote hL Device.wrote_update
  | delete w => exact h.wrote hL Device.wrote_delete
  | merge k bytes => exact h
  | deleteDocument k => exact h
  | markSynced id sequence now | markFailed id => exact h.map fun e => by split_ifs <;> rfl
  | deleteSyncedBefore cutoffMs | deleteSyncedOlderThan secs nowSecs
  | deleteSyncedBeforeTimestamp k timestamp => exact h.filter _
  | recover r => exact h.recover hL

end

lemma BlobsOk.reencrypt (hL : Sym.Symbolic L) {version : ℕ} {nonces : ℕ → Nonce}
    {pending : List (OplogEntry Sym)} {st : InMemoryStorage Sym}
    (hp : BlobsOk cfg.namespace pending) (h : BlobsOk cfg.namespace st.oplog) :
    BlobsOk cfg.namespace (reencrypt L cfg version nonces pending st).2.oplog := by
  induction pending generalizing nonces st with
  | nil => exact h
  | cons e pending ih =>
    have hrest : BlobsOk cfg.namespace pending := fun e' he' => hp e' (mem_cons_of_mem e he')
    unfold Session.reencrypt
    cases hblob : e.encryptedBlob with
    | none => exact ih hrest h
    | some blob =>
      dsimp only
      cases hdec : decryptSymmetric L blob cfg.namespace with
      | error err => exact h
      | ok p =>
        obtain ⟨d, rfl⟩ := decryptSymmetric_isBlob hL (hp e mem_cons_self blob hblob) hdec
        dsimp only
        rw [encryptSymmetric_eq hL]
        exact ih hrest (h.setBlob ⟨version, nonces 0, d, rfl⟩ e.id)

lemma Plain.send (h : Plain ns s) {sent : List (Message Sym)} (hsent : ∀ m ∈ sent, ∀ t ∈ m.terms,
    t = .empty ∨ IsBlob ns t ∨ ∃ d, t = .update d) : Plain ns { s with sent := s.sent ++ sent } := by
  refine ⟨h.oplog, h.snapshots, fun t ⟨m, hm, ht⟩ => ?_⟩
  rcases mem_append.1 hm with hm | hm
  · exact h.sent t ⟨m, hm, ht⟩
  · exact hsent m hm t ht

section

variable (hL : Sym.Symbolic L) (h : Plain cfg.namespace s)

include hL h

lemma Plain.upload (due : String → Bool) : Plain cfg.namespace (s.upload L cfg due) := by
  unfold Session.upload
  dsimp only
  split_ifs
  · exact h
  · refine h.send fun m hm t ht => ?_
    cases mem_singleton.1 hm
    obtain ⟨mutation, hmutation, rfl⟩ := mem_map.1 ht
    obtain ⟨e, he, rfl⟩ := mem_map.1 hmutation
    have hmem : e ∈ s.device.storage.oplog :=
      mem_of_mem_filter (mem_of_mem_take (mem_of_mem_filter he))
    have hblobs : (UploadQueue.toMutation L e).encryptedBlob = e.encryptedBlob.getD L.empty := rfl
    rw [hblobs]
    cases hblob : e.encryptedBlob with
    | none => exact .inl hL.empty
    | some blob => exact .inr (.inl (h.oplog e hmem blob hblob))

lemma Plain.rotateKeys (nonces : ℕ → Nonce) (publicKey : ℕ) (acknowledged : Bool) :
    Plain cfg.namespace (s.rotateKeys L cfg nonces publicKey acknowledged) := by
  unfold Session.rotateKeys
  dsimp only
  refine ⟨?_, h.snapshots, fun t ht => ?_⟩
  · refine BlobsOk.reencrypt hL ?_ h.oplog
    exact (h.oplog.filter _).mono fun e he => ⟨e, mem_of_mem_take he, rfl⟩
  · -- the new messages carry no byte strings
    refine h.sent t ?_
    obtain ⟨m, hm, ht⟩ := ht
    dsimp only at hm
    split at hm
    · exact ⟨m, hm, ht⟩
    · rcases mem_append.1 hm with hm | hm
      · exact ⟨m, hm, ht⟩
      · rcases mem_cons.1 hm with rfl | hm
        · cases ht
        · split_ifs at hm
          · cases mem_singleton.1 hm
            cases ht
          · cases hm

lemma Plain.compactDocument (client : ClientId)
    (k : Key) : Plain cfg.namespace (s.compactDocument L cfg client k) := by
  unfold Session.compactDocument
  dsimp only
  split_ifs
  · split
    · exact h
    · split
      · exact h
      · unfold Session.collapse
        dsimp only
        split_ifs
        · refine ⟨h.oplog.filter _, fun snapshot hs => ?_, h.sent⟩
          rcases mem_append.1 hs with hs | hs
          · exact h.snapshots snapshot hs
          · cases mem_singleton.1 hs
            exact ⟨_, congrFun hL.encode _⟩
        · exact ⟨h.oplog, h.snapshots, h.sent⟩
  · exact h

lemma Plain.step (e : Event) : Plain cfg.namespace (s.step b L cfg e) := by
  cases e with
  | device e =>
    let active : Config := { cfg with keyVersion := s.activeVersion }
    have hoplog : BlobsOk active.namespace s.device.storage.oplog := h.oplog
    exact ⟨hoplog.step hL e, h.snapshots, h.sent⟩
  | upload due => exact h.upload hL due
  | rotateKeys nonces publicKey acknowledged => exact h.rotateKeys hL nonces publicKey acknowledged
  | register publicKey lastSequence =>
    refine h.send fun m hm t ht => ?_
    cases mem_singleton.1 hm
    cases ht
  | compactDocument client k => exact h.compactDocument hL client k
  | storeSnapshot snapshot =>
    rw [Session.step]
    split_ifs with hmem
    · refine h.send fun m hm t ht => ?_
      cases mem_singleton.1 hm
      cases mem_singleton.1 ht
      exact .inr (.inr (h.snapshots snapshot hmem))
    · exact h

lemma Plain.run {es : List Event} : Plain cfg.namespace (s.run b L cfg es) := by
  induction es generalizing s with
  | nil => exact h
  | cons e es ih => exact ih (h.step hL e)

end

lemma mem_uploaded {d : CrdtState} : d ∈ s.uploaded ↔ ∃ t, s.Seen t ∧ t.carried = some d := by
  simp only [uploaded, Seen, mem_flatMap, mem_filterMap]
  exact ⟨fun ⟨m, hm, t, ht, hd⟩ => ⟨t, ⟨m, hm, ht⟩, hd⟩, fun ⟨t, ⟨m, hm, ht⟩, hd⟩ => ⟨m, hm, t, ht, hd⟩⟩

/-- **What the coordinator can read.** After every run of a client, a coordinator that knows the
name of the namespace and all it was sent derives exactly the updates that are covered by what
the pushed blobs and the stored snapshots carry. -/
theorem coordinator_derives_iff (hL : Sym.Symbolic L) (b : Backend) (cfg : Config) (es : List Event)
    (d : CrdtState) :
    Derives cfg.namespace ((new cfg).run b L cfg es).Seen (.update d) ↔
      d ≤ joinAll ((new cfg).run b L cfg es).uploaded := by
  have hnew : Plain cfg.namespace (new cfg) :=
    ⟨fun _ he => (by cases he), fun _ hs => (by cases hs), fun _ ⟨_, hm, _⟩ => (by cases hm)⟩
  have hplain : Plain cfg.namespace ((new cfg).run b L cfg es) := hnew.run hL
  constructor
  · intro h
    refine h.bounded fun t ht => ?_
    rcases hplain.sent t ht with rfl | ⟨v, n, d', rfl⟩ | ⟨d', rfl⟩
    · trivial
    · exact le_joinAll (mem_uploaded.2 ⟨_, ht, rfl⟩)
    · exact le_joinAll (mem_uploaded.2 ⟨_, ht, rfl⟩)
  · intro hle
    refine .part (.joinAll fun d' hd' => ?_) hle
    obtain ⟨t, ht, hcarried⟩ := mem_uploaded.1 hd'
    rcases hplain.sent t ht with rfl | ⟨v, n, u, rfl⟩ | ⟨u, rfl⟩
    · cases hcarried
    · cases hcarried
      exact .decrypt (.unframe (.known ht)) (.hkdf v)
    · cases hcarried
      exact .known ht

/-! ### One record -/

def termLib : Lib Sym where
  __ := Sym.lib
  field _ _ := none

lemma symbolic_termLib : Sym.Symbolic termLib where
  empty := rfl
  hkdf := rfl
  encrypt _ _ _ := rfl
  decrypt {k n c p} h := by
    cases c with
    | sealed k' n' p' =>
      change (if k' = k ∧ n' = n then Except.ok p' else .error "aead::Error") = .ok p at h
      split_ifs at h with heq
      cases h
      rw [heq.1, heq.2]
    | empty => cases h
    | update d => cases h
    | key ns v => cases h
    | frame v n b => cases h
  frame := rfl
  frameNonce _ _ _ := rfl
  frameBody _ _ _ := rfl
  encode := rfl
  decode {b d} h := by
    cases b with
    | update d' => cases h; rfl
    | empty => cases h
    | key ns v => cases h
    | sealed k n p => cases h
    | frame v n b => cases h

def insertThen (es : List Event) : Session :=
  (new (Sym.config 0)).run .memory termLib (Sym.config 0)
    (.device (.insert { Device.localWrite "m1" 1 with wall := 1 }) :: es)

def inserted : CrdtState := ⟨{1, 1, 1, 1}, ∅⟩

theorem coordinator_derives_iff_rotation :
    ¬ Derives "ns" (insertThen [.rotateKeys (fun _ => 5) 1 true]).Seen (.update inserted) := by
  intro h
  have hle := (coordinator_derives_iff symbolic_termLib .memory (Sym.config 0) _ inserted).1 h
  exact absurd hle (by decide)

/-- After the upload of the insert, or of the snapshot alone, it is not. -/
theorem coordinator_derives_inserted :
    Derives "ns" (insertThen [.upload fun _ => true]).Seen (.update inserted) ∧
    Derives "ns" (insertThen [.device (.markSynced "m1" 7 0), .compactDocument 3 ⟨"d", "x"⟩,
      .storeSnapshot ⟨"d", "x", 0, 7, 1, .update inserted⟩]).Seen (.update inserted) := by
  have hblob : (insertThen [.upload fun _ => true]).Seen (Sym.blob "ns" inserted) := by decide
  have hsnapshot : (insertThen [.device (.markSynced "m1" 7 0), .compactDocument 3 ⟨"d", "x"⟩,
      .storeSnapshot ⟨"d", "x", 0, 7, 1, .update inserted⟩]).Seen (.update inserted) := by decide
  exact ⟨.decrypt (.unframe (.known hblob)) (.hkdf 1), .known hsnapshot⟩

end Session

end VaultSync
