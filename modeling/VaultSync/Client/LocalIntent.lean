import VaultSync.Client.Idempotence
import VaultSync.Client.Read
import VaultSync.Client.WriteSpec

/-! A restart replays the pending entries of a record that was only written locally: what `get`
shows of it before and after. -/

namespace VaultSync

open Async AsyncFn World ViewMaterializer List Sym VaultSyncClient CRDTDocument

variable {B : Type} (L : Lib B) (cfg : Config) (content : Content) (k : Key)

/-! ## Local histories of one record -/

inductive RecordWrite where
  | insert (fields : List (String × CrdtValue))
  | update (fields : List (String × CrdtValue))
  | delete

namespace RecordWrite

def prog : RecordWrite → AsyncFn B Unit
  | insert fields => VaultSyncClient.insert L cfg k fields
  | update fields => VaultSyncClient.update L cfg k fields
  | delete => VaultSyncClient.delete L cfg k

def metaFields : List (String × CrdtValue) :=
  [("doc_id", .string k.docId), ("record_id", .string k.recordId),
    ("schema_version", .number (Float.ofNat ((cfg.schemaVersion k.docId).getD 0)))]

def opening (stored : Option B) : RecordWrite → List (String × CrdtValue)
  | insert _ => metaFields cfg k
  | update _ => if stored.isNone then metaFields cfg k else []
  | delete => [("_deleted", .boolean true)]

/-- The write is by client `c`, which is new to the document, and the items of `c` hold what it
sets. Calls may fail. -/
def Draws (op : RecordWrite) (c : ClientId) :
    Call B → Env B → World B → Prop
  | .newClientId, e, w => e.clientId = c ∧ c ∉ (docState L w k).stateVector ∧
      content.Holds c 0 (op.opening cfg k (w.storage.documents k))
  | .fieldOrder fields, e, w =>
      content.Holds c (op.opening cfg k (w.storage.documents k)).length (e.fieldOrder fields).1
  | _, _, _ => True

/-- No document is inserted over one that is stored, and while a delete is in the oplog no update
sets `_deleted` to anything but true. -/
def Keeps (st : InMemoryStorage B) : RecordWrite → Prop
  | insert _ => st.documents k = none
  | update fields => (∃ e ∈ st.oplog, e.key = k ∧ e.mutationType = .crdtDelete) →
      ∀ f ∈ fields, f.1 = "_deleted" → isTombstone (some f.2)
  | delete => True

def Step (w w' : World B) : Prop :=
  ∃ op c n r, Keeps k w.storage op ∧
    Outcome (machine n (Draws L cfg content k op c)) (op.prog L cfg k) w r w'

end RecordWrite

/-! ## What the entries of the record left in its document -/

structure Traces (oplog : List (OplogEntry B)) (d : CrdtState) : Prop where
  deletesOwn : d.DeletesOwn
  settled : d.Settled content "_deleted"
  merged : ∀ e ∈ oplog, e.key = k → ∃ u, L.decodeV1 e.yrsUpdate = .ok u ∧ u ≤ d
  deleted : ∀ e ∈ oplog, e.key = k → e.mutationType = .crdtDelete → L.Tombstone d

structure Traced (st : InMemoryStorage B) : Prop where
  absent : st.documents k = none → ∀ e ∈ st.oplog, e.key ≠ k
  stored : ∀ bytes, st.documents k = some bytes →
    ∃ d, bytes = L.encodeV1 d ∧ Traces L content k st.oplog d

structure Successor (st : InMemoryStorage B) (d' : CrdtState) : Prop where
  deletesOwn : d'.DeletesOwn
  settled : d'.Settled content "_deleted"
  above : ∀ d, st.documents k = some (L.encodeV1 d) → d ≤ d'
  deleted : ∀ d, st.documents k = some (L.encodeV1 d) →
    (∃ e ∈ st.oplog, e.key = k ∧ e.mutationType = .crdtDelete) → L.Tombstone d → L.Tombstone d'

variable {L cfg content k} {n : ℕ} {A : Call B → Env B → World B → Prop} {w : World B} {st : InMemoryStorage B}
  {entry : OplogEntry B} {d d' u : CrdtState}

lemma Traced.write (h : Traced L content k st) (hd : Successor L content k st d')
    (hkey : entry.key = k) (hu : L.decodeV1 entry.yrsUpdate = .ok u) (hle : u ≤ d')
    (hdel : entry.mutationType = .crdtDelete → L.Tombstone d') :
    Traced L content k (st.writeDocumentAndOplog k (L.encodeV1 d') entry) := by
  have hstored : (st.writeDocumentAndOplog k (L.encodeV1 d') entry).documents k =
      some (L.encodeV1 d') := Function.update_self _ _ _
  -- an entry of the record that was there already is one of a document below the new one
  have hold : ∀ e ∈ st.oplog, e.key = k → ∃ d, st.documents k = some (L.encodeV1 d) ∧
      Traces L content k st.oplog d := by
    intro e he hek
    cases hdoc : st.documents k with
    | none => exact absurd hek (h.absent hdoc e he)
    | some bytes =>
      obtain ⟨d, rfl, htr⟩ := h.stored bytes hdoc
      exact ⟨d, rfl, htr⟩
  refine ⟨fun hnone => ?_, fun bytes hbytes => ⟨d', ?_, hd.deletesOwn, hd.settled, ?_, ?_⟩⟩
  · rw [hstored] at hnone
    cases hnone
  · rw [hstored] at hbytes
    exact (Option.some.inj hbytes).symm
  · intro e he hek
    rcases mem_append.1 he with he | he
    · obtain ⟨d, hdoc, htr⟩ := hold e he hek
      obtain ⟨v, hv, hvle⟩ := htr.merged e he hek
      exact ⟨v, hv, hvle.trans (hd.above d hdoc)⟩
    · rw [mem_singleton] at he
      subst he
      exact ⟨u, hu, hle⟩
  · intro e he hek htype
    rcases mem_append.1 he with he | he
    · obtain ⟨d, hdoc, htr⟩ := hold e he hek
      exact hd.deleted d hdoc ⟨e, he, hek, htype⟩ (htr.deleted e he hek htype)
    · rw [mem_singleton] at he
      subst he
      exact hdel htype

/-! ## A write keeps the record traced -/

section Writes

variable {doc : CRDTDocument} {fields : List (String × CrdtValue)} {bytes : B} {c : ClientId}

lemma Successor.setFields (hmaps : L.Maps content) (hd : Successor L content k st doc.state)
    (hfields : content.Holds doc.client (doc.state.stateVector.count doc.client) fields)
    (hkeep : (∃ e ∈ st.oplog, e.key = k ∧ e.mutationType = .crdtDelete) →
      ∀ f ∈ fields, f.1 = "_deleted" → isTombstone (some f.2)) :
    Successor L content k st (doc.setFields L fields).state := by
  obtain ⟨hown, hset⟩ := settled_setFields hmaps hd.deletesOwn hfields hd.settled
  refine ⟨hown, hset, fun d hdoc => ?_, fun d hdoc hdel htomb => ?_⟩
  · exact (hd.above d hdoc).trans (le_setFields fields)
  · exact tombstone_setFields hmaps hd.deletesOwn hfields hd.settled
      (hd.deleted d hdoc hdel htomb) (hkeep hdel)

lemma Traced.successor (h : Traced L content k st) (hdoc : st.documents k = some bytes)
    (hdec : L.decodeV1 bytes = .ok d) : Successor L content k st d := by
  obtain ⟨d0, rfl, htr⟩ := h.stored bytes hdoc
  rw [L.decode_encode] at hdec
  obtain rfl := Except.ok.inj hdec
  have heq : ∀ d, st.documents k = some (L.encodeV1 d) → d = d0 := by
    intro d hd
    rw [hdoc] at hd
    have hdec' := congrArg L.decodeV1 (Option.some.inj hd)
    rw [L.decode_encode, L.decode_encode] at hdec'
    exact (Except.ok.inj hdec').symm
  refine ⟨htr.deletesOwn, htr.settled, fun d hd => (heq d hd).le, fun d hd _ htomb => ?_⟩
  rwa [heq d hd] at htomb

lemma successor_new (hdoc : st.documents k = none)
    (hmeta : content.Holds c 0 (RecordWrite.metaFields cfg k)) (schemaVersion : ℕ) :
    Successor L content k st (CRDTDocument.new c k.docId k.recordId schemaVersion).state := by
  have hnot : ∀ i, ¬ (CRDTDocument.new c k.docId k.recordId schemaVersion).state.Live content
      "_deleted" i := by
    rintro ⟨a, m⟩ ⟨hhas, -, hname⟩
    unfold CrdtState.HasItem at hhas
    have hpos := Multiset.count_pos.1 (Nat.zero_lt_of_lt hhas)
    obtain rfl := eq_of_mem_new hpos
    rw [count_new] at hhas
    obtain ⟨h0, h1, h2, -⟩ := hmeta
    have hm : m = 0 ∨ m = 1 ∨ m = 2 := by omega
    rcases hm with rfl | rfl | rfl
    · rw [h0] at hname
      exact absurd (show "doc_id" = "_deleted" from hname) (by decide)
    · rw [h1] at hname
      exact absurd (show "record_id" = "_deleted" from hname) (by decide)
    · rw [h2] at hname
      exact absurd (show "schema_version" = "_deleted" from hname) (by decide)
  refine ⟨fun i hi => absurd hi (Finset.notMem_empty i), fun i _ hi => absurd hi (hnot i), ?_, ?_⟩
  · intro d hd
    rw [hdoc] at hd
    cases hd
  · intro d hd
    rw [hdoc] at hd
    cases hd

lemma Traced.loaded {op : RecordWrite} (h : Traced L content k w.storage)
    (hload : Loads L cfg (op.Draws L cfg content k c) k w doc)
    (hdoc : w.storage.documents k = some bytes) :
    doc.client = c ∧ Successor L content k w.storage doc.state ∧ doc.state.stateVector.count c = 0 ∧
      content.Holds c 0 (op.opening cfg k (some bytes)) := by
  obtain ⟨e, w1, ⟨rfl, hfresh, hopen⟩, hw1, hclient, hstate⟩ := hload
  rw [hdoc] at hstate
  rw [docState_of_some (hw1.storage ▸ hdoc) hstate] at hfresh
  rw [hw1.storage, hdoc] at hopen
  exact ⟨hclient, h.successor hdoc hstate, Multiset.count_eq_zero.2 hfresh, hopen⟩

section

variable (hmaps : L.Maps content) (h : Traced L content k w.storage)

include hmaps h

lemma VaultSyncClient.SetsFields.traced {w' : World B} {type : MutationType} {origin : MutationOrigin}
    (hsets : SetsFields L cfg A k type origin doc fields w w')
    (hd : Successor L content k w.storage doc.state) (htype : type ≠ .crdtDelete)
    (hdraw : ∀ fs e w1, A (.fieldOrder fs) e w1 → Untouched w w1 →
      content.Holds doc.client (doc.state.stateVector.count doc.client) (e.fieldOrder fs).1)
    (hkeep : (∃ e ∈ w.storage.oplog, e.key = k ∧ e.mutationType = .crdtDelete) →
      ∀ f ∈ fields, f.1 = "_deleted" → isTombstone (some f.2)) :
    Traced L content k w'.storage := by
  obtain ⟨id, wall, e, w1, blob, -, hw1, he, -, hw⟩ := hsets
  rw [hw.storage]
  refine h.write (hd.setFields hmaps (hdraw _ e w1 he hw1) fun hdel f hf hname => ?_) rfl
    (L.decode_encode _) le_rfl fun hdel => absurd hdel htype
  have hmem := (e.fieldOrder (fields ++ [("updatedAt", .number (Float.ofNat wall))])).2.mem_iff.1 hf
  rcases mem_append.1 hmem with hf | hf
  · exact hkeep hdel f hf hname
  · rw [mem_singleton] at hf
    subst hf
    exact absurd (show "updatedAt" = "_deleted" from hname) (by decide)

lemma VaultSyncClient.SetsDeleted.traced {w' : World B} (hsets : SetsDeleted L cfg A k doc w w')
    (hd : Successor L content k w.storage doc.state)
    (hitem : content (doc.client, doc.state.stateVector.count doc.client) =
      ("_deleted", .boolean true)) : Traced L content k w'.storage := by
  obtain ⟨id, wall, blob, -, -, hw⟩ := hsets
  have hfield := hmaps.field_write_self hitem hd.deletesOwn hd.settled
  have htomb : L.Tombstone (doc.setField L "_deleted" (.boolean true)).state :=
    (congrArg isTombstone hfield).trans rfl
  have hd' : Successor L content k w.storage (doc.setField L "_deleted" (.boolean true)).state := by
    refine ⟨hmaps.deletesOwn_write hd.deletesOwn _ _,
      hmaps.settled_write hitem hd.deletesOwn hd.settled, fun d' hd' => ?_, fun _ _ _ _ => htomb⟩
    exact (hd.above d' hd').trans (le_setField _ _)
  rw [hw.storage]
  exact h.write hd' rfl (L.decode_encode _) (CrdtState.diff_le _ _) fun _ => htomb

lemma RecordWrite.Step.traced {w' : World B} (hstep : Step L cfg content k w w') :
    Traced L content k w'.storage := by
  obtain ⟨op, c, n, r, hkeep, hout⟩ := hstep
  cases op with
  | insert fields =>
    rcases wp_iff_outcome.1 (wp_insert_sets fields) r w' hout with
      ⟨hsame, -⟩ | ⟨e, ⟨rfl, -, hmeta⟩, hsets⟩
    · rwa [hsame.storage]
    · refine hsets.traced hmaps h (successor_new hkeep hmeta _) nofun
        (fun fs e' w1 he' _ => count_new.symm ▸ he') ?_
      -- there are no entries of a record that has no document
      rintro ⟨entry, hentry, hkey, -⟩
      exact absurd hkey (h.absent hkeep entry hentry)
  | update fields =>
    rcases wp_iff_outcome.1 (wp_update_sets fields) r w' hout with hsame | ⟨doc, hload, hsets⟩
    · rwa [hsame.storage]
    have hdoc' : doc.client = c ∧ Successor L content k w.storage doc.state ∧
        doc.state.stateVector.count c =
          ((RecordWrite.update fields).opening cfg k (w.storage.documents k)).length := by
      cases hdoc : w.storage.documents k with
      | none =>
        obtain ⟨e, w1, ⟨rfl, -, hmeta⟩, hw1, hclient, hstate⟩ := hload
        rw [hdoc] at hstate
        rw [hw1.storage, hdoc] at hmeta
        rw [hstate]
        exact ⟨rfl, successor_new hdoc hmeta _, count_new⟩
      | some bytes =>
        obtain ⟨hclient, hd, hcount, -⟩ := h.loaded hload hdoc
        exact ⟨hclient, hd, hcount⟩
    obtain ⟨rfl, hd, hcount⟩ := hdoc'
    refine hsets.traced hmaps h hd nofun (fun fs e w1 he hw1 => ?_) fun hdel f hf =>
      hkeep hdel f (mem_of_mem_filter hf)
    rw [hcount, ← hw1.storage]
    exact he
  | delete =>
    rcases wp_iff_outcome.1 wp_delete_sets r w' hout with hsame | ⟨doc, hdoc, hload, hsets⟩
    · rwa [hsame.storage]
    · obtain ⟨bytes, hbytes⟩ := Option.ne_none_iff_exists'.1 hdoc
      obtain ⟨rfl, hd, hcount, hitem, -⟩ := h.loaded hload hbytes
      exact hsets.traced hmaps h hd (by rwa [hcount])

end

end Writes

/-! ## Replaying the entries -/

namespace ViewMaterializer

/-- A replay of the record draws client ids that are new to its document; what such a client
writes first in it is the `_deleted` of a replayed delete. Calls may fail. -/
def Replaying (L : Lib B) (content : Content) (k : Key) : Call B → Env B → World B → Prop
  | .newClientId, e, w => e.clientId ∉ (docState L w k).stateVector ∧
      content (e.clientId, 0) = ("_deleted", .boolean true)
  | _, _, _ => True

def deletes (k : Key) (es : List (OplogEntry B)) : ℕ :=
  es.countP fun e => e.key = k ∧ e.mutationType = .crdtDelete

def Roomy (L : Lib B) : ℕ → CrdtState → Prop
  | 0, _ => True
  | m + 1, d => ∀ c ∉ d.stateVector,
      L.len (L.encodeV1 (d.insertItem c (L.itemAt d "_deleted"))) ≤ maxSnapshotSize ∧
        Roomy L m (d.insertItem c (L.itemAt d "_deleted"))

lemma Roomy.of_succ {m : ℕ} (h : Roomy L (m + 1) d) : Roomy L m d := by
  induction m generalizing d with
  | zero => trivial
  | succ m ih => exact fun c hc => ⟨(h c hc).1, ih (h c hc).2⟩

variable {e : OplogEntry B} {es : List (OplogEntry B)} {s : Option B} {bytes : B} {c : ClientId}
  {Q : Option B → Prop}

lemma wp_replay_record {Q : List (OplogEntry B) → Option B → Prop}
    (hQ : ∀ e es s, Q (e :: es) s → Q es s ∧ (e.key = k → ∀ c, c ∉ (storedState L s).stateVector →
      content (c, 0) = ("_deleted", .boolean true) → Q es (replayed L c e s)))
    (h : Q es (w.storage.documents k)) :
    wp (machine n (Replaying L content k)) (fun _ w' => Q [] (w'.storage.documents k))
      (replay L es) w := by
  induction es generalizing w with
  | nil => exact h
  | cons e es ih =>
    obtain ⟨hsame, hwrite⟩ := hQ e es _ h
    rw [replay, wp_bind, wp_attempt]
    refine (wp_execute e).mono fun _ w' hexec => ih ?_
    rcases hexec.storage with ⟨-, hst⟩ | ⟨env, w1, ⟨hfresh, hitem⟩, hw1, hst⟩
    · rwa [hst]
    · rw [hst, putDocument]
      dsimp only
      by_cases hkey : e.key = k
      · subst hkey
        rw [Function.update_self]
        rw [docState, hw1] at hfresh
        exact hwrite rfl env.clientId hfresh hitem
      · rw [Function.update_of_ne (Ne.symm hkey)]
        exact hsame

lemma wp_replay_stable (hstable : ∀ e ∈ es, e.key = k → ∀ c, replayed L c e s = s)
    (hs : w.storage.documents k = s) :
    wp (machine n (Replaying L content k)) (fun _ w' => w'.storage.documents k = s)
      (replay L es) w := by
  refine (wp_replay_record (Q := fun es t => t = s ∧ ∀ e ∈ es, e.key = k → ∀ c, replayed L c e s = s)
    ?_ ⟨hs, hstable⟩).mono fun _ _ h => h.1
  rintro e es t ⟨rfl, hes⟩
  rw [forall_mem_cons] at hes
  exact ⟨⟨rfl, hes.2⟩, fun hkey c _ _ => ⟨hes.1 hkey c, hes.2⟩⟩

structure Deleted (L : Lib B) (content : Content) (k : Key) (es : List (OplogEntry B))
    (d : CrdtState) : Prop where
  deletesOwn : d.DeletesOwn
  settled : d.Settled content "_deleted"
  tombstone : L.Tombstone d
  fits : L.len (L.encodeV1 d) ≤ maxSnapshotSize
  merged : ∀ e ∈ es, e.key = k → ∀ u, carried L e = some u → u ≤ d
  room : Roomy L (deletes k es) d

def DeletedBytes (L : Lib B) (content : Content) (k : Key) (es : List (OplogEntry B))
    (s : Option B) : Prop := ∃ d, s = some (L.encodeV1 d) ∧ Deleted L content k es d

lemma Deleted.tail (h : Deleted L content k (e :: es) d) : Deleted L content k es d := by
  refine { h with merged := fun a ha => h.merged a (mem_cons_of_mem _ ha), room := ?_ }
  have hroom := h.room
  unfold deletes at hroom ⊢
  rw [countP_cons] at hroom
  split_ifs at hroom
  · exact hroom.of_succ
  · exact hroom

lemma Deleted.replayed (hmaps : L.Maps content) (h : Deleted L content k (e :: es) d)
    (hkey : e.key = k) (hc : c ∉ d.stateVector)
    (hitem : content (c, 0) = ("_deleted", .boolean true)) :
    DeletedBytes L content k es (replayed L c e (some (L.encodeV1 d))) := by
  have hread := readable_eq_some.2 ⟨h.fits, L.decode_encode d⟩
  by_cases htype : e.mutationType = .crdtDelete
  · rw [replayed_of_readable hread, effect, if_pos htype, Option.elim_some]
    have hcount : content (c, d.stateVector.count c) = ("_deleted", .boolean true) := by
      rw [Multiset.count_eq_zero.2 hc]
      exact hitem
    have hroom : Roomy L (deletes k es + 1) d := by
      have hroom := h.room
      unfold deletes at hroom ⊢
      rwa [countP_cons_of_pos (by simp [hkey, htype])] at hroom
    have hfield := hmaps.field_write_self hcount h.deletesOwn h.settled
    refine ⟨_, rfl, {
      deletesOwn := hmaps.deletesOwn_write h.deletesOwn _ _
      settled := hmaps.settled_write hcount h.deletesOwn h.settled
      tombstone := (congrArg isTombstone hfield).trans rfl
      fits := (hroom c hc).1
      merged := fun a ha hak u hu => ?_
      room := (hroom c hc).2 }⟩
    exact (h.tail.merged a ha hak u hu).trans (CrdtState.le_insertItem _ _ _)
  · refine ⟨d, replayed_encode_of_done ((done_of_readable hread).2 ⟨htype, ?_⟩), h.tail⟩
    exact h.merged e mem_cons_self hkey

lemma wp_replay_deleted (hmaps : L.Maps content)
    (h : DeletedBytes L content k es (w.storage.documents k)) :
    wp (machine n (Replaying L content k))
      (fun _ w' => DeletedBytes L content k [] (w'.storage.documents k)) (replay L es) w := by
  refine wp_replay_record (fun e es s hs => ?_) h
  obtain ⟨d, rfl, hd⟩ := hs
  refine ⟨⟨d, rfl, hd.tail⟩, fun hkey c hfresh hitem => ?_⟩
  rw [storedState_encode] at hfresh
  exact hd.replayed hmaps hkey hfresh hitem

/-! ## What is shown of the record -/

def Unwritten (L : Lib B) (content : Content) (k : Key) (st : InMemoryStorage B) : Prop :=
  (∀ e ∈ st.oplog, e.key ≠ k) ∧ ∀ bytes, st.documents k = some bytes →
    ∃ d, bytes = L.encodeV1 d ∧ d.DeletesOwn ∧ d.Settled content "_deleted"

lemma Unwritten.traced (h : Unwritten L content k st) : Traced L content k st := by
  refine ⟨fun _ => h.1, fun bytes hbytes => ?_⟩
  obtain ⟨d, rfl, hown, hset⟩ := h.2 bytes hbytes
  exact ⟨d, rfl, hown, hset, fun e he hkey => absurd hkey (h.1 e he),
    fun e he hkey => absurd hkey (h.1 e he)⟩

lemma traced_of_history (hmaps : L.Maps content) {w0 : World B}
    (hstart : Unwritten L content k w0.storage)
    (h : Relation.ReflTransGen (RecordWrite.Step L cfg content k) w0 w) :
    Traced L content k w.storage := by
  induction h with
  | refl => exact hstart.traced
  | tail _ hstep ih => exact hstep.traced hmaps ih

lemma carried_le_of_traces (h : Traces L content k st.oplog d) (he : e ∈ st.oplog)
    (hkey : e.key = k) (hu : carried L e = some u) : u ≤ d := by
  obtain ⟨v, hv, hle⟩ := h.merged e he hkey
  rw [carried_decodes hu] at hv
  exact Except.ok.inj hv ▸ hle

lemma wp_materialize_shown (hmaps : L.Maps content) (h : Traced L content k w.storage)
    (hroom : ∀ bytes d, w.storage.documents k = some bytes → L.decodeV1 bytes = .ok d →
      Roomy L (deletes k (w.storage.readPendingOplog cfg.namespace 50000)) d) :
    wp (machine n (Replaying L content k)) (fun _ w' =>
      shown L (w'.storage.documents k) =
        shown L (w.storage.documents k)) (materialize L cfg) w := by
  set es := plan (w.storage.readPendingOplog cfg.namespace 50000) with hes
  have hmem : ∀ e ∈ es, e ∈ w.storage.oplog :=
    fun e he => mem_of_mem_filter (mem_of_mem_take ((perm_insertionSort _ _).mem_iff.1 he))
  -- where the replay changes nothing
  have hsame : (∀ e ∈ es, e.key = k →
      ∀ c, replayed L c e (w.storage.documents k) = w.storage.documents k) →
      wp (machine n (Replaying L content k)) (fun _ w' =>
        shown L (w'.storage.documents k) =
          shown L (w.storage.documents k)) (materialize L cfg) w := fun hstable =>
    (wp_materialize_of_replay (Q := fun w' => w'.storage.documents k = w.storage.documents k) rfl
      fun _ => wp_replay_stable hstable rfl).mono fun _ _ heq => congrArg _ heq
  cases hdoc : w.storage.documents k with
  | none =>
    rw [hdoc] at hsame
    exact hsame fun e he hkey => absurd hkey (h.absent hdoc e (hmem e he))
  | some bytes =>
    obtain ⟨d, rfl, htr⟩ := h.stored bytes hdoc
    rw [hdoc] at hsame
    by_cases hfits : L.len (L.encodeV1 d) ≤ maxSnapshotSize
    · by_cases hdel : ∃ e ∈ es, e.key = k ∧ e.mutationType = .crdtDelete
      · obtain ⟨e, he, hkey, htype⟩ := hdel
        have htomb := htr.deleted e (hmem e he) hkey htype
        have hstart : Deleted L content k es d :=
          { deletesOwn := htr.deletesOwn
            settled := htr.settled
            tombstone := htomb
            fits := hfits
            merged := fun a ha hak u hu => carried_le_of_traces htr (hmem a ha) hak hu
            room := by
              rw [hes, deletes, plan, (perm_insertionSort _ _).countP_eq]
              exact hroom _ d hdoc (L.decode_encode d) }
        have hend : wp (machine n (Replaying L content k)) (fun _ w' =>
            ∃ es, DeletedBytes L content k es (w'.storage.documents k)) (materialize L cfg) w :=
          wp_materialize_of_replay ⟨_, d, hdoc, hstart⟩ fun _ =>
            (wp_replay_deleted hmaps ⟨d, hdoc, hstart⟩).mono fun _ _ hb => ⟨_, hb⟩
        refine hend.mono fun _ w' hb => ?_
        obtain ⟨es, d', hdoc', hd'⟩ := hb
        rw [hdoc', shown_of_tombstone hd'.fits (L.decode_encode d') hd'.tombstone,
          shown_of_tombstone hfits (L.decode_encode d) htomb]
      · refine hsame fun e he hkey c => ?_
        have htype : e.mutationType ≠ .crdtDelete := fun ht => hdel ⟨e, he, hkey, ht⟩
        refine replayed_encode_of_done
          ((done_of_readable (readable_eq_some.2 ⟨hfits, L.decode_encode d⟩)).2 ⟨htype, fun u hu => ?_⟩)
        exact carried_le_of_traces htr (hmem e he) hkey hu
    · refine hsame fun e _ _ c => replayed_of_frozen ⟨_, rfl, ?_⟩
      rw [readable, if_pos (not_le.1 hfits)]

/-- After any history of local writes that inserts no document over another and does not take a
pending delete back, `materialize` leaves what `get` returns. -/
theorem get_after_materialize (hmaps : L.Maps content) {w₀ : World B} {m : ℕ}
    {r : Except VaultSyncError (Option (String → Option CrdtValue))} {w₁ : World B}
    (hstart : Unwritten L content k w₀.storage)
    (hhistory : Relation.ReflTransGen (RecordWrite.Step L cfg content k) w₀ w)
    (hroom : ∀ bytes d, w.storage.documents k = some bytes → L.decodeV1 bytes = .ok d →
      Roomy L (deletes k (w.storage.readPendingOplog cfg.namespace 50000)) d)
    (hget : Outcome (machine m StorageUp) (get L k) w r w₁) :
    wp (machine n (Replaying L content k)) (fun _ w' =>
      wp (machine m StorageUp) (fun r' _ => r' = r) (get L k) w')
      (materialize L cfg) w := by
  have htraced := traced_of_history hmaps hstart hhistory
  have hr := wp_iff_outcome.1 wp_get r w₁ hget
  refine (wp_materialize_shown hmaps htraced hroom).mono fun _ w' hshown => ?_
  refine wp_get.mono fun r' _ hr' => ?_
  rw [hr', hshown, ← hr]

/-! Concrete histories of record `x`. -/

def insertedAt (wall m : ℕ) : String × CrdtValue :=
  (RecordWrite.metaFields (config 100) ⟨"d", "x"⟩ ++
    [("updatedAt", CrdtValue.number (Float.ofNat wall))]).getD m ("", .null)

def sampleContent : Content := fun i =>
  if i.1 = 0 then insertedAt 1 i.2 else if i.1 = 2 then insertedAt 3 i.2
  else ("_deleted", .boolean true)

def writeAt (c : ClientId) (now : ℕ) : Env Sym :=
  { (default : Env Sym) with clientId := c, now := now }

def writtenBy (op : RecordWrite) (c : ClientId) (now : ℕ) (w : World Sym) : World Sym :=
  (Async.run (machine 0 (RecordWrite.Draws (mapLib sampleContent) (config 100) sampleContent
    ⟨"d", "x"⟩ op c)) (op.prog (mapLib sampleContent) (config 100) ⟨"d", "x"⟩)
    (List.replicate 8 (writeAt c now)) w).2

def inserted : World Sym := writtenBy (.insert []) 0 1 (World.new .new)

def insertedDeleted : World Sym := writtenBy .delete 1 2 inserted

def recreated : World Sym := writtenBy (.insert []) 2 3 insertedDeleted

lemma allowed_inserted : Allowed (machine 0 (RecordWrite.Draws (mapLib sampleContent)
    (config 100) sampleContent ⟨"d", "x"⟩ (.insert []) 0))
    ((RecordWrite.insert []).prog (mapLib sampleContent) (config 100) ⟨"d", "x"⟩)
    (List.replicate 8 (writeAt 0 1)) (World.new .new) :=
  ⟨trivial, ⟨rfl, Multiset.notMem_zero 0, rfl, rfl, rfl, trivial⟩, trivial, ⟨rfl, trivial⟩, trivial,
    trivial, trivial⟩

lemma allowed_insertedDeleted : Allowed (machine 0 (RecordWrite.Draws (mapLib sampleContent)
    (config 100) sampleContent ⟨"d", "x"⟩ .delete 1))
    (RecordWrite.delete.prog (mapLib sampleContent) (config 100) ⟨"d", "x"⟩)
    (List.replicate 8 (writeAt 1 2)) inserted :=
  ⟨trivial, ⟨rfl, show 1 ∉ ({0, 0, 0, 0} : Multiset ℕ) by decide, rfl, trivial⟩, trivial, trivial,
    trivial, trivial, trivial⟩

theorem get_after_materialize_insertedDeleted :
    (∃ w₁, Outcome (machine 0 StorageUp)
      (get (mapLib sampleContent) ⟨"d", "x"⟩) insertedDeleted (.ok none) w₁) ∧
    wp (machine 0 (Replaying (mapLib sampleContent) sampleContent ⟨"d", "x"⟩)) (fun _ w' =>
      wp (machine 0 StorageUp) (fun r' _ => r' = .ok none)
        (VaultSyncClient.get (mapLib sampleContent) ⟨"d", "x"⟩) w')
      (materialize (mapLib sampleContent) (config 100)) insertedDeleted := by
  have hinsert : RecordWrite.Step (mapLib sampleContent) (config 100) sampleContent
      ⟨"d", "x"⟩ (World.new .new) inserted :=
    ⟨.insert [], 0, 0, _, rfl, allowed_inserted.outcome⟩
  have hdelete : RecordWrite.Step (mapLib sampleContent) (config 100) sampleContent
      ⟨"d", "x"⟩ inserted insertedDeleted :=
    ⟨.delete, 1, 0, _, trivial, allowed_insertedDeleted.outcome⟩
  have hallowed : Allowed (machine 0 StorageUp)
      (VaultSyncClient.get (mapLib sampleContent) ⟨"d", "x"⟩) [] insertedDeleted :=
    ⟨rfl, rfl, trivial⟩
  have hget := hallowed.outcome
  refine ⟨⟨_, hget⟩, get_after_materialize (maps_mapLib sampleContent) ?_
    ((Relation.ReflTransGen.single hinsert).tail hdelete) ?_ hget⟩
  · constructor
    · rintro e ⟨⟩
    · rintro _ ⟨⟩
  · intro _ d _ _
    change Roomy (mapLib sampleContent) 1 d
    exact fun c _ => ⟨show 32 ≤ maxSnapshotSize by decide, trivial⟩

def restartDraws : List (Env Sym) :=
  List.replicate 8 (writeAt 3 0) ++ List.replicate 4 (writeAt 4 0)

def restarted : World Sym :=
  (Async.run (machine 0 (Replaying (mapLib sampleContent) sampleContent ⟨"d", "x"⟩))
    (materialize (mapLib sampleContent) (config 100)) restartDraws recreated).2

lemma recreated_document : recreated.storage.documents ⟨"d", "x"⟩ =
    some (.update ⟨{2, 2, 2, 2}, ∅⟩) := rfl

lemma restarted_document : restarted.storage.documents ⟨"d", "x"⟩ =
    some (.update ⟨{3, 0, 0, 0, 0, 2, 2, 2, 2}, ∅⟩) := rfl

/-- A record that was deleted and inserted again is shown, until a restart replays the delete. -/
theorem recreated_record_disappears :
    Outcome (machine 0 (RecordWrite.Draws (mapLib sampleContent) (config 100) sampleContent
        ⟨"d", "x"⟩ (.insert []) 0))
      (insert (mapLib sampleContent) (config 100) ⟨"d", "x"⟩ [])
      (World.new .new) (.ok ()) inserted ∧
    Outcome (machine 0 (RecordWrite.Draws (mapLib sampleContent) (config 100) sampleContent
        ⟨"d", "x"⟩ .delete 1))
      (delete (mapLib sampleContent) (config 100) ⟨"d", "x"⟩)
      inserted (.ok ()) insertedDeleted ∧
    Outcome (machine 0 (RecordWrite.Draws (mapLib sampleContent) (config 100) sampleContent
        ⟨"d", "x"⟩ (.insert []) 2))
      (insert (mapLib sampleContent) (config 100) ⟨"d", "x"⟩ [])
      insertedDeleted (.ok ()) recreated ∧
    recreated.storage.oplog.map (fun e => (e.createdAt, e.syncStatus)) =
      [(1, .optimistic), (2, .optimistic), (3, .optimistic)] ∧
    (∃ fields w, Outcome (machine 0 StorageUp)
      (get (mapLib sampleContent) ⟨"d", "x"⟩) recreated (.ok (some fields)) w) ∧
    Outcome (machine 0 (Replaying (mapLib sampleContent) sampleContent ⟨"d", "x"⟩))
      (materialize (mapLib sampleContent) (config 100)) recreated (.ok ()) restarted ∧
    ∃ w, Outcome (machine 0 StorageUp)
      (VaultSyncClient.get (mapLib sampleContent) ⟨"d", "x"⟩) restarted (.ok none) w := by
  refine ⟨allowed_inserted.outcome, allowed_insertedDeleted.outcome,
    (show Allowed _ _ (List.replicate 8 (writeAt 2 3)) insertedDeleted from ?_).outcome, rfl,
    ⟨(mapLib sampleContent).field ⟨{2, 2, 2, 2}, ∅⟩, ?_⟩,
    (show Allowed _ _ restartDraws recreated from ?_).outcome, ?_⟩
  · exact ⟨trivial, ⟨rfl, show 2 ∉ ({1, 0, 0, 0, 0} : Multiset ℕ) by decide, rfl, rfl, rfl, trivial⟩,
      trivial, ⟨rfl, trivial⟩, trivial, trivial, trivial⟩
  · have hshown : shown (mapLib sampleContent)
        (recreated.storage.documents ⟨"d", "x"⟩) =
          .ok (some ((mapLib sampleContent).field ⟨{2, 2, 2, 2}, ∅⟩)) := by
      rw [recreated_document, shown_some (by decide) rfl, if_neg (by decide +kernel)]
    rw [← hshown]
    exact exists_get recreated
  · exact ⟨trivial, trivial, ⟨show 3 ∉ ({2, 2, 2, 2} : Multiset ℕ) by decide, rfl⟩, trivial, trivial,
      ⟨show 3 ∉ ({2, 2, 2, 2, 0, 0, 0, 0} : Multiset ℕ) by decide, rfl⟩, trivial, trivial,
      ⟨show 4 ∉ ({3, 2, 2, 2, 2, 0, 0, 0, 0} : Multiset ℕ) by decide, rfl⟩, trivial, trivial, trivial⟩
  · have htomb : (mapLib sampleContent).Tombstone ⟨{3, 0, 0, 0, 0, 2, 2, 2, 2}, ∅⟩ := by
      unfold Lib.Tombstone
      decide +kernel
    have hshown : shown (mapLib sampleContent)
        (restarted.storage.documents ⟨"d", "x"⟩) = .ok none := by
      rw [restarted_document]
      exact shown_of_tombstone (by decide) rfl htomb
    rw [← hshown]
    exact exists_get restarted

end ViewMaterializer

end VaultSync
