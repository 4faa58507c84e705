import VaultSync.Client.Write
import VaultSync.Sync.Merging

/-! What a local write does when it runs alone: nothing, or it joins an update of its own making
to the document and appends the entry that publishes it. -/

namespace VaultSync

open Async AsyncFn World List CRDTDocument VaultSyncClient

variable {B : Type} {L : Lib B} {cfg : Config} {n : ℕ} {A : Call B → Env B → World B → Prop}
  {w : World B} {k : Key}

/-! ## What setting fields adds -/

namespace CRDTDocument

variable {doc : CRDTDocument} {fields : List (String × CrdtValue)} {x : ClientId}

lemma mem_setFields (h : fields ≠ []) :
    doc.client ∈ (doc.setFields L fields).state.stateVector := by
  obtain ⟨f, rest, rfl⟩ := exists_cons_of_ne_nil h
  have hle : (doc.setField L f.1 f.2).state ≤ ((doc.setField L f.1 f.2).setFields L rest).state :=
    le_setFields rest
  exact Multiset.mem_of_le hle.1 (Multiset.mem_cons_self _ _)

lemma mem_of_mem_setFields (h : x ∈ (doc.setFields L fields).state.stateVector) :
    x = doc.client ∨ x ∈ doc.state.stateVector := by
  induction fields generalizing doc with
  | nil => exact .inr h
  | cons f rest ih =>
    rcases ih h with hx | hx
    · exact .inl hx
    · exact Multiset.mem_cons.1 hx

section

variable {client : ClientId} {docId recordId : String} {schemaVersion : ℕ}

lemma eq_of_mem_new (h : x ∈ (new client docId recordId schemaVersion).state.stateVector) :
    x = client := by
  simpa [new] using h

lemma count_new : (new client docId recordId schemaVersion).state.stateVector.count client = 3 := by
  simp [new]

end

end CRDTDocument

namespace CrdtState

variable {d : CrdtState} {client : ClientId} {replaced : Option (ClientId × ℕ)}

lemma eq_of_mem_diff_insertItem {c : ClientId}
    (h : c ∈ ((d.insertItem client replaced).diff d.stateVector).stateVector) : c = client := by
  have hcount := (Multiset.mem_filter.1 h).2
  by_contra hne
  simp only [insertItem] at hcount
  rw [Multiset.count_cons_of_ne hne] at hcount
  exact absurd hcount (lt_irrefl _)

lemma mem_diff_insertItem :
    client ∈ ((d.insertItem client replaced).diff d.stateVector).stateVector := by
  refine Multiset.mem_filter.2 ⟨Multiset.mem_cons_self _ _, ?_⟩
  simp only [insertItem, Multiset.count_cons_self]
  exact Nat.lt_succ_self _

lemma sup_diff_insertItem :
    d ⊔ (d.insertItem client replaced).diff d.stateVector = d.insertItem client replaced := by
  refine le_antisymm (sup_le (le_insertItem _ _ _) (diff_le _ _)) ⟨?_, Finset.subset_union_right⟩
  refine Multiset.le_iff_count.2 fun c => ?_
  change _ ≤ (d.stateVector ∪ Multiset.filter _ _).count c
  rw [Multiset.count_union]
  by_cases hc : d.stateVector.count c < (d.insertItem client replaced).stateVector.count c
  · rw [Multiset.count_filter, if_pos hc]
    exact le_max_right _ _
  · exact (not_lt.1 hc).trans (le_max_left _ _)

end CrdtState

namespace VaultSyncClient

def DrawnId (A : Call B → Env B → World B → Prop) (id : String) : Prop :=
  ∃ e w, A .newUuid e w ∧ e.uuid = id

structure NewEntry (L : Lib B) (cfg : Config) (A : Call B → Env B → World B → Prop) (k : Key)
    (base : CrdtState) (entry : OplogEntry B) (u : CrdtState) (c : ClientId) : Prop where
  key : entry.key = k
  «namespace» : entry.namespace = cfg.namespace
  replicaId : entry.replicaId = cfg.replicaId
  pending : entry.syncStatus = .optimistic
  id : DrawnId A entry.id
  update : L.decodeV1 entry.yrsUpdate = .ok u
  blob : cfg.keyVersion < 2 ^ 64 → ∃ blob, entry.encryptedBlob = some blob ∧
    decryptSymmetric L blob cfg.namespace = .ok entry.yrsUpdate
  client : Drawn A c
  author : c ∈ u.stateVector
  others : ∀ x ∈ u.stateVector, x = c ∨ (x ∈ base.stateVector ∧ base ≤ u)

structure LocalStep (L : Lib B) (cfg : Config) (A : Call B → Env B → World B → Prop) (k : Key)
    (base : CrdtState) (w w' : World B) : Prop where
  service : w'.service = w.service
  lastSequence : w'.lastSequence = w.lastSequence
  dedup : w'.client.dedup = w.client.dedup
  storage : w'.storage = w.storage ∨ ∃ entry u c, NewEntry L cfg A k base entry u c ∧
    w'.storage = w.storage.writeDocumentAndOplog k (L.encodeV1 (base ⊔ u)) entry

variable {w₀ : World B} {base : CrdtState}

structure Untouched (w₀ w : World B) : Prop where
  service : w.service = w₀.service
  lastSequence : w.lastSequence = w₀.lastSequence
  dedup : w.client.dedup = w₀.client.dedup
  storage : w.storage = w₀.storage

abbrev Stores (k : Key) (bytes : B) (entry : OplogEntry B) (w₀ : World B) : World B → Prop :=
  Untouched (w₀.setStorage (w₀.storage.writeDocumentAndOplog k bytes entry))

/-- The fields and the time are set in the order drawn, and the whole document is published. -/
def SetsFields (L : Lib B) (cfg : Config) (A : Call B → Env B → World B → Prop) (k : Key)
    (type : MutationType) (origin : MutationOrigin) (doc : CRDTDocument)
    (fields : List (String × CrdtValue)) (w₀ w : World B) : Prop :=
  ∃ id wall e w₁ blob, DrawnId A id ∧ Untouched w₀ w₁ ∧
    let all := fields ++ [("updatedAt", .number (Float.ofNat wall))]
    let doc := doc.setFields L (e.fieldOrder all).1
    A (.fieldOrder all) e w₁ ∧
    (cfg.keyVersion < 2 ^ 64 →
      decryptSymmetric L blob cfg.namespace = .ok (L.encodeV1 doc.state)) ∧
    Stores k (L.encodeV1 doc.state) (localEntry cfg id type origin k (L.encodeV1 doc.state) blob wall
      doc.schemaVersion) w₀ w

def SetsDeleted (L : Lib B) (cfg : Config) (A : Call B → Env B → World B → Prop) (k : Key)
    (doc : CRDTDocument) (w₀ w : World B) : Prop :=
  ∃ id wall blob, DrawnId A id ∧
    let bytes := doc.setFieldDelta L "_deleted" (.boolean true)
    (cfg.keyVersion < 2 ^ 64 → decryptSymmetric L blob cfg.namespace = .ok bytes) ∧
    Stores k (L.encodeV1 (doc.setField L "_deleted" (.boolean true)).state)
      (localEntry cfg id .crdtDelete .delete k bytes blob wall doc.schemaVersion) w₀ w

def Loads (L : Lib B) (cfg : Config) (A : Call B → Env B → World B → Prop) (k : Key) (w : World B)
    (doc : CRDTDocument) : Prop :=
  ∃ e w₁, A .newClientId e w₁ ∧ Untouched w w₁ ∧ doc.client = e.clientId ∧
    match w.storage.documents k with
    | none => doc = new e.clientId k.docId k.recordId ((cfg.schemaVersion k.docId).getD 0)
    | some bytes => L.decodeV1 bytes = .ok doc.state

variable {doc : CRDTDocument} {id : String} {type : MutationType} {origin : MutationOrigin}
  {fields : List (String × CrdtValue)} {wall : ℕ} {Q : Except VaultSyncError Unit → World B → Prop}

section

variable (h : Untouched w₀ w)

include h

lemma wp_clockNow {f : ℕ → AsyncFn B Unit}
    (hf : ∀ wall w', Untouched w₀ w' → wp (machine n A) Q (f wall) w') :
    wp (machine n A) Q (clockNow >>= f) w := by
  rw [wp_bind, clockNow]
  intro e _
  exact hf _ _ { h with }

variable (hfail : ∀ err w', Untouched w₀ w' → Q (.error err) w')

include hfail

lemma wp_storeLocal {entry : OplogEntry B}
    (hok : ∀ w', Stores k (doc.toSnapshot L) entry w₀ w' → Q (.ok ()) w') :
    wp (machine n A) Q (storeLocal L k doc entry) w := by
  rw [storeLocal, wp_writeDocumentAndOplog]
  refine fun e _ => ⟨fun err _ => hfail err w h, fun _ => ?_⟩
  rw [fire, wp_modify]
  refine hok _ ⟨h.service, h.lastSequence, h.dedup, ?_⟩
  rw [setClient_storage, setStorage_storage, h.storage, setStorage_storage]

lemma wp_encrypt {bytes : B} {f : B → AsyncFn B Unit}
    (hf : ∀ blob, (cfg.keyVersion < 2 ^ 64 →
        decryptSymmetric L blob cfg.namespace = .ok bytes) → wp (machine n A) Q (f blob) w) :
    wp (machine n A) Q (encrypt L cfg bytes >>= f) w := by
  rw [wp_bind, encrypt, wp_drawNonce]
  intro e _
  rw [wp_ofExcept]
  cases hblob : encryptSymmetric L cfg.keyVersion e.nonce bytes cfg.namespace with
  | error err => exact hfail err w h
  | ok blob => exact hf blob fun hv => decryptSymmetric_encryptSymmetric hv hblob

lemma wp_writeFields (hid : DrawnId A id)
    (hok : ∀ w', SetsFields L cfg A k type origin doc fields w₀ w' → Q (.ok ()) w') :
    wp (machine n A) Q (writeFields L cfg id type origin k doc fields wall) w := by
  rw [writeFields, wp_fieldOrder]
  intro e he
  dsimp only
  rw [wp_ite]
  refine ⟨fun _ => hfail _ w h, fun _ => wp_encrypt h hfail fun blob hblob => ?_⟩
  exact wp_storeLocal h hfail fun w' hw => hok w' ⟨id, wall, e, w, blob, hid, h, he, hblob, hw⟩

end

/-! ## The step a call makes -/

lemma Untouched.localStep (h : Untouched w₀ w) : LocalStep L cfg A k base w₀ w :=
  ⟨h.service, h.lastSequence, h.dedup, .inl h.storage⟩

section

variable {bytes blob : B} {d u : CrdtState} {c : ClientId} {v : ℕ}

lemma Stores.localStep
    (h : Stores k (L.encodeV1 d) (localEntry cfg id type origin k bytes blob wall v) w₀ w)
    (hd : d = base ⊔ u) (hid : DrawnId A id) (hu : L.decodeV1 bytes = .ok u)
    (hblob : cfg.keyVersion < 2 ^ 64 → decryptSymmetric L blob cfg.namespace = .ok bytes)
    (hclient : Drawn A c) (hauthor : c ∈ u.stateVector)
    (hothers : ∀ x ∈ u.stateVector, x = c ∨ x ∈ base.stateVector ∧ base ≤ u) :
    LocalStep L cfg A k base w₀ w := by
  subst hd
  refine ⟨h.service, h.lastSequence, h.dedup, .inr ⟨_, u, c, ?_, h.storage⟩⟩
  exact {
    key := rfl
    «namespace» := rfl
    replicaId := rfl
    pending := rfl
    id := hid
    update := hu
    blob := fun hv => ⟨blob, rfl, hblob hv⟩
    client := hclient
    author := hauthor
    others := hothers }

end

lemma SetsFields.localStep (h : SetsFields L cfg A k type origin doc fields w₀ w)
    (hclient : Drawn A doc.client) (hbase : base ≤ doc.state)
    (hothers : ∀ x ∈ doc.state.stateVector, x = doc.client ∨ x ∈ base.stateVector) :
    LocalStep L cfg A k base w₀ w := by
  obtain ⟨id, wall, e, w1, blob, hid, -, -, hblob, hw⟩ := h
  have hne : (e.fieldOrder (fields ++ [("updatedAt", .number (Float.ofNat wall))])).1 ≠ [] := by
    have hlen := (e.fieldOrder (fields ++ [("updatedAt", .number (Float.ofNat wall))])).2.length_eq
    intro hnil
    rw [hnil, length_append] at hlen
    exact absurd hlen (Nat.succ_ne_zero _).symm
  have hle := hbase.trans (le_setFields (L := L)
    (e.fieldOrder (fields ++ [("updatedAt", .number (Float.ofNat wall))])).1)
  refine hw.localStep (sup_eq_right.2 hle).symm hid (L.decode_encode _) hblob hclient
    (mem_setFields hne) fun x hx => ?_
  rcases mem_of_mem_setFields hx with hx | hx
  · exact .inl hx
  · exact (hothers x hx).imp_right fun hmem => ⟨hmem, hle⟩

lemma SetsDeleted.localStep (h : SetsDeleted L cfg A k doc w₀ w) (hclient : Drawn A doc.client) :
    LocalStep L cfg A k doc.state w₀ w := by
  obtain ⟨id, wall, blob, hid, hblob, hw⟩ := h
  exact hw.localStep CrdtState.sup_diff_insertItem.symm hid (L.decode_encode _) hblob hclient
    CrdtState.mem_diff_insertItem fun _ hx => .inl (CrdtState.eq_of_mem_diff_insertItem hx)

section

variable (h : Loads L cfg A k w doc)

include h

lemma Loads.drawn : Drawn A doc.client := by
  obtain ⟨e, w1, he, -, hclient, -⟩ := h
  exact ⟨e, w1, he, hclient.symm⟩

lemma Loads.of_some {bytes : B} (hdoc : w.storage.documents k = some bytes) :
    L.decodeV1 bytes = .ok doc.state := by
  obtain ⟨e, w1, -, -, -, hstate⟩ := h
  rwa [hdoc] at hstate

lemma Loads.state_cases : doc.state = docState L w k ∨
    docState L w k = ⊥ ∧ ∀ x ∈ doc.state.stateVector, x = doc.client := by
  obtain ⟨e, w1, -, -, hclient, hstate⟩ := h
  unfold docState
  cases hdoc : w.storage.documents k with
  | none =>
    rw [hdoc] at hstate
    refine .inr ⟨rfl, fun x hx => ?_⟩
    rw [hstate] at hx ⊢
    exact eq_of_mem_new hx
  | some bytes =>
    rw [hdoc] at hstate
    exact .inl (storedState_some hstate).symm

end

/-! ## What the calls do -/

variable (fields)

lemma wp_insert_sets :
    wp (machine n A) (fun r w' => Untouched w w' ∧ r ≠ .ok () ∨ ∃ e, A .newClientId e w ∧
      SetsFields L cfg A k .crdtInsert .insert
        (new e.clientId k.docId k.recordId ((cfg.schemaVersion k.docId).getD 0))
        (filterMetaFields fields) w w') (insert L cfg k fields) w := by
  rw [insert, wp_newUuid]
  intro e he
  rw [newDocument, wp_bind, wp_newClientId]
  intro e' he'
  refine wp_clockNow ⟨rfl, rfl, rfl, rfl⟩ fun wall w' h => ?_
  exact wp_writeFields h (fun err w' hw => .inl ⟨hw, nofun⟩) ⟨e, w, he, rfl⟩ fun w' hw =>
    .inr ⟨e', he', hw⟩

lemma wp_loadForUpdate {f : CRDTDocument → AsyncFn B Unit} {existing : Option B}
    (hdoc : w.storage.documents k = existing) (hfail : ∀ err, Q (.error err) (w.recordRead n k))
    (hf : ∀ doc, Loads L cfg A k w doc → wp (machine n A) Q (f doc) (w.recordRead n k)) :
    wp (machine n A) Q (loadForUpdate L cfg k existing >>= f) (w.recordRead n k) := by
  cases existing with
  | none =>
    rw [loadForUpdate, newDocument, wp_bind, wp_newClientId]
    refine fun e he => hf _ ⟨e, _, he, ⟨rfl, rfl, rfl, rfl⟩, rfl, ?_⟩
    rw [hdoc]
  | some bytes =>
    rw [loadForUpdate, wp_bind, wp_newClientId]
    intro e he
    rw [wp_ofExcept]
    cases hload : fromSnapshot L e.clientId bytes with
    | error err => exact hfail err
    | ok doc =>
      obtain ⟨hdec, hclient, -⟩ := fromSnapshot_ok hload
      refine hf doc ⟨e, _, he, ⟨rfl, rfl, rfl, rfl⟩, hclient, ?_⟩
      rw [hdoc]
      exact hdec

lemma wp_update_sets :
    wp (machine n A) (fun _ w' => Untouched w w' ∨ ∃ doc, Loads L cfg A k w doc ∧
      SetsFields L cfg A k .crdtUpdate .update doc (filterMetaFields fields) w w')
      (update L cfg k fields) w := by
  rw [update, wp_getDocument]
  refine fun _ _ => ⟨fun err _ => .inl ⟨rfl, rfl, rfl, rfl⟩, fun _ => ?_⟩
  have h : Untouched w (w.recordRead n k) := ⟨rfl, rfl, rfl, rfl⟩
  refine wp_loadForUpdate rfl (fun _ => .inl h) fun doc hload => ?_
  rw [updateDocument, wp_ofExcept_bind]
  refine ⟨fun _ _ => ?_, fun _ _ => .inl h⟩
  rw [wp_ite]
  refine ⟨fun _ => ?_, fun _ => .inl h⟩
  rw [wp_newUuid]
  intro e he
  refine wp_clockNow h fun wall w' h' => ?_
  exact wp_writeFields h' (fun _ _ => .inl) ⟨e, _, he, rfl⟩ fun _ hw => .inr ⟨doc, hload, hw⟩

lemma wp_delete_sets :
    wp (machine n A) (fun _ w' => Untouched w w' ∨ ∃ doc, w.storage.documents k ≠ none ∧
      Loads L cfg A k w doc ∧ SetsDeleted L cfg A k doc w w') (delete L cfg k) w := by
  rw [delete, wp_getDocument]
  refine fun _ _ => ⟨fun err _ => .inl ⟨rfl, rfl, rfl, rfl⟩, fun _ => ?_⟩
  have h : Untouched w (w.recordRead n k) := ⟨rfl, rfl, rfl, rfl⟩
  cases hdoc : w.storage.documents k with
  | none => exact .inl h
  | some bytes =>
    refine wp_loadForUpdate hdoc (fun _ => .inl h) fun doc hload => ?_
    rw [deleteDocument, wp_ofExcept_bind]
    refine ⟨fun _ _ => ?_, fun _ _ => .inl h⟩
    rw [wp_newUuid]
    intro e he
    refine wp_encrypt h (fun _ _ => .inl) fun blob hblob => ?_
    refine wp_clockNow h fun wall w' h' => ?_
    exact wp_storeLocal h' (fun _ _ => .inl) fun _ hw =>
      .inr ⟨doc, Option.some_ne_none _, hload, e.uuid, wall, blob, ⟨e, _, he, rfl⟩, hblob, hw⟩

lemma wp_insert :
    wp (machine n A) (fun _ w' => LocalStep L cfg A k ⊥ w w') (insert L cfg k fields) w := by
  refine (wp_insert_sets fields).mono fun _ w' h => ?_
  rcases h with ⟨hsame, -⟩ | ⟨e, he, hsets⟩
  · exact hsame.localStep
  · exact hsets.localStep ⟨e, w, he, rfl⟩ bot_le fun x hx => .inl (eq_of_mem_new hx)

lemma wp_update :
    wp (machine n A) (fun _ w' => LocalStep L cfg A k (docState L w k) w w')
      (update L cfg k fields) w := by
  refine (wp_update_sets fields).mono fun _ w' h => ?_
  rcases h with hsame | ⟨doc, hload, hsets⟩
  · exact hsame.localStep
  · rcases hload.state_cases with hstate | ⟨hbot, hnew⟩
    · rw [← hstate]
      exact hsets.localStep hload.drawn le_rfl fun x hx => .inr hx
    · rw [hbot]
      exact hsets.localStep hload.drawn bot_le fun x hx => .inl (hnew x hx)

lemma wp_delete :
    wp (machine n A) (fun _ w' => LocalStep L cfg A k (docState L w k) w w')
      (delete L cfg k) w := by
  refine wp_delete_sets.mono fun _ w' h => ?_
  rcases h with hsame | ⟨doc, hdoc, hload, hsets⟩
  · exact hsame.localStep
  · obtain ⟨bytes, hbytes⟩ := Option.ne_none_iff_exists'.1 hdoc
    rw [docState_of_some hbytes (hload.of_some hbytes)]
    exact hsets.localStep hload.drawn

lemma wp_delete_absent (hdoc : w.storage.documents k = none) :
    wp (machine n A) (fun _ w' => Untouched w w') (delete L cfg k) w := by
  refine wp_delete_sets.mono fun _ w' h => h.resolve_right ?_
  rintro ⟨doc, hne, -⟩
  exact hne hdoc

/-! ## What an update publishes -/

def PublishesAbove (L : Lib B) (base : CrdtState) (w₀ w' : World B) : Prop :=
  ∀ e ∈ w'.storage.oplog, e ∈ w₀.storage.oplog ∨
    ∃ u, L.decodeV1 e.yrsUpdate = .ok u ∧ base ≤ u

lemma wp_update_publishes :
    wp (machine n A) (fun _ w' => PublishesAbove L (docState L w k) w w') (update L cfg k fields) w := by
  refine (wp_update_sets fields).mono fun _ w' h entry hentry => ?_
  rcases h with hsame | ⟨doc, hload, id, wall, e, w1, blob, -, -, -, -, hw⟩
  · exact .inl (hsame.storage ▸ hentry)
  · rw [hw.storage] at hentry
    rcases mem_append.1 hentry with hold | hnew
    · exact .inl hold
    · rw [mem_singleton.1 hnew]
      refine .inr ⟨_, L.decode_encode _, le_trans ?_ (le_setFields _)⟩
      rcases hload.state_cases with hstate | ⟨hbot, -⟩
      · exact hstate.ge
      · exact hbot.le.trans bot_le

end VaultSyncClient

end VaultSync
