import VaultSync.Client.LocalIntent

/-! The schema version of a replicated document. A replica that has no copy makes a document of
its own, with version 0, and merges what it received into it. -/

namespace VaultSync

open Async AsyncFn World CrdtState List VaultSyncClient CRDTDocument

variable {B : Type} {L : Lib B} {content : Content} {k : Key} {c r : ClientId}

/-! ## The version field of a new document, and of a merged one -/

def newFields (docId recordId : String) (schemaVersion : ℕ) : List (String × CrdtValue) :=
  [("doc_id", .string docId), ("record_id", .string recordId),
    ("schema_version", .number (Float.ofNat schemaVersion))]

section New

variable {docId recordId docId' recordId' : String} {v v' : ℕ}

lemma deletesOwn_new : (CRDTDocument.new c docId recordId v).state.DeletesOwn :=
  fun i hi => absurd hi (Finset.notMem_empty i)

lemma live_new (h : content.Holds c 0 (newFields docId' recordId' v')) (i : ItemId) :
    (CRDTDocument.new c docId recordId v).state.Live content "schema_version" i ↔ i = (c, 2) := by
  obtain ⟨h0, h1, h2, -⟩ := h
  constructor
  · rintro ⟨hhas, -, hname⟩
    obtain ⟨a, m⟩ := i
    obtain rfl : a = c := eq_of_mem_new hhas.mem
    have hm : m < 3 := lt_of_lt_of_eq hhas count_new
    have hcases : m = 0 ∨ m = 1 ∨ m = 2 := by omega
    rcases hcases with rfl | rfl | rfl
    · rw [h0] at hname
      exact absurd (show "doc_id" = "schema_version" from hname) (by decide)
    · rw [h1] at hname
      exact absurd (show "record_id" = "schema_version" from hname) (by decide)
    · rfl
  · rintro rfl
    refine ⟨?_, Finset.notMem_empty _, by rw [h2]⟩
    exact lt_of_lt_of_eq (by decide : 2 < 3) count_new.symm

lemma settled_new (h : content.Holds c 0 (newFields docId' recordId' v')) :
    (CRDTDocument.new c docId recordId v).state.Settled content "schema_version" := by
  intro i j hi hj
  rw [(live_new h i).1 hi, (live_new h j).1 hj]

end New

structure Versioned (L : Lib B) (content : Content) (c : ClientId) (value : CrdtValue)
    (d : CrdtState) : Prop where
  deletesOwn : d.DeletesOwn
  settled : d.Settled content "schema_version"
  clients : ∀ a ∈ d.stateVector, a = c
  nonempty : c ∈ d.stateVector
  shown : L.field d "schema_version" = some value

variable {value : CrdtValue} {d : CrdtState}

lemma Versioned.exists_live (hL : L.Maps content) (h : Versioned L content c value d) :
    ∃ m, (∀ i, d.Live content "schema_version" i ↔ i = (c, m)) ∧ (content (c, m)).2 = value := by
  have hshown := h.shown
  rw [hL.field_eq] at hshown
  obtain ⟨⟨a, m⟩, hat, hvalue⟩ := Option.map_eq_some_iff.1 hshown
  have hlive := hL.live_of_itemAt hat
  obtain rfl : a = c := h.clients a hlive.1.mem
  refine ⟨m, fun i => ⟨fun hi => h.settled _ _ hi hlive, ?_⟩, hvalue⟩
  rintro rfl
  exact hlive

lemma Versioned.field_merged (hL : L.LargestWins content) (h : Versioned L content c value d)
    (hne : r ≠ c) {docId recordId docId' recordId' : String}
    (hnew : content.Holds r 0 (newFields docId' recordId' 0)) :
    L.field ((CRDTDocument.new r docId recordId 0).state ⊔ d) "schema_version" =
      some (if c < r then .number (Float.ofNat 0) else value) := by
  obtain ⟨m, hlive, hvalue⟩ := h.exists_live hL.toMaps
  have hdisj : ∀ a ∈ (CRDTDocument.new r docId recordId 0).state.stateVector,
      a ∉ d.stateVector := by
    intro a ha hmem
    rw [eq_of_mem_new ha] at hmem
    exact hne (h.clients r hmem)
  have hboth : ∀ i, ((CRDTDocument.new r docId recordId 0).state ⊔ d).Live content
      "schema_version" i ↔ i = (r, 2) ∨ i = (c, m) := by
    intro i
    rw [live_sup deletesOwn_new h.deletesOwn hdisj, live_new hnew, hlive]
  split_ifs with hlt
  · have hswap := fun i => (hboth i).trans or_comm
    rw [hL.field_sup hswap hlt, hnew.2.2.1]
  · have hrc : r < c := lt_of_le_of_ne (not_lt.1 hlt) hne
    rw [hL.field_sup hboth hrc, hvalue]

/-! ## Inserting -/

def versionField (fields : List (String × CrdtValue)) (v : ℕ) : CrdtValue :=
  (fields.lookup "schema_version").getD (.number (Float.ofNat v))

lemma foldl_field {name : String} {y : CrdtValue} {l : List (String × CrdtValue)}
    (h : ∀ f ∈ l, f.1 = name → f.2 = y) (x : Option CrdtValue) :
    l.foldl (fun x f => if f.1 = name then some f.2 else x) x =
      if ∃ f ∈ l, f.1 = name then some y else x := by
  induction l generalizing x with
  | nil => simp
  | cons f l ih =>
    rw [forall_mem_cons] at h
    rw [foldl_cons, ih h.2]
    by_cases hname : f.1 = name
    · rw [if_pos hname, h.1 hname, ite_self, if_pos ⟨f, mem_cons_self, hname⟩]
    · rw [if_neg hname]
      simp only [exists_mem_cons_iff, hname, false_or]

variable {fields : List (String × CrdtValue)} {cfg : Config}

lemma foldl_versionField (hkeys : (fields.map Prod.fst).Nodup) (v wall : ℕ)
    {ordered : List (String × CrdtValue)} (hperm : ordered.Perm
      (filterMetaFields fields ++ [("updatedAt", .number (Float.ofNat wall))])) :
    ordered.foldl (fun x f => if f.1 = "schema_version" then some f.2 else x)
      (some (.number (Float.ofNat v))) = some (versionField fields v) := by
  have hmem : ∀ f : String × CrdtValue, f.1 = "schema_version" → (f ∈ ordered ↔ f ∈ fields) := by
    rintro ⟨name, y⟩ rfl
    rw [hperm.mem_iff, mem_append, filterMetaFields, mem_filter]
    simp
  unfold versionField
  cases hlook : fields.lookup "schema_version" with
  | none =>
    have hnot : ∀ f ∈ ordered, f.1 ≠ "schema_version" := fun f hf hname =>
      absurd hname.symm (by simpa using lookup_eq_none_iff.1 hlook f ((hmem f hname).1 hf))
    rw [foldl_field (y := .null) fun f hf hname => absurd hname (hnot f hf), if_neg]
    · rfl
    · rintro ⟨f, hf, hname⟩
      exact hnot f hf hname
  | some y =>
    have hy : ("schema_version", y) ∈ fields := by
      obtain ⟨l1, l2, rfl, -⟩ := lookup_eq_some_iff.1 hlook
      exact mem_append_right l1 mem_cons_self
    have hall : ∀ f ∈ ordered, f.1 = "schema_version" → f.2 = y := by
      intro f hf hname
      have heq := inj_on_of_nodup_map hkeys ((hmem f hname).1 hf) hy hname
      rw [heq]
    rw [foldl_field hall, if_pos ⟨_, (hmem _ rfl).2 hy, rfl⟩]
    rfl

lemma wp_insert_versioned {n : ℕ} {w : World B} (hL : L.Maps content)
    (hkeys : (fields.map Prod.fst).Nodup) :
    wp (machine n (RecordWrite.Draws L cfg content k (.insert fields) c))
      (fun result w' => result = .ok () → ∃ d entry,
        Versioned L content c (versionField fields ((cfg.schemaVersion k.docId).getD 0)) d ∧
          w'.storage = w.storage.writeDocumentAndOplog k (L.encodeV1 d) entry ∧
          entry.yrsUpdate = L.encodeV1 d)
      (VaultSyncClient.insert L cfg k fields) w := by
  refine (wp_insert_sets fields).mono fun r w' h hr => ?_
  rcases h with ⟨-, hne⟩ | ⟨e, ⟨rfl, -, hmeta⟩, id, wall, e', w1, blob, -, -, he', -, hw⟩
  · exact absurd hr hne
  have hmeta' : content.Holds e.clientId 0
      (newFields k.docId k.recordId ((cfg.schemaVersion k.docId).getD 0)) := hmeta
  set ordered := e'.fieldOrder (filterMetaFields fields ++
    [("updatedAt", .number (Float.ofNat wall))]) with hordered
  set doc := CRDTDocument.new e.clientId k.docId k.recordId ((cfg.schemaVersion k.docId).getD 0)
    with hdoc
  have hholds : content.Holds doc.client (doc.state.stateVector.count doc.client) ordered.1 := by
    have hcount : doc.state.stateVector.count doc.client = 3 := count_new
    rw [hcount]
    exact he'
  have hset := settled_setFields hL deletesOwn_new hholds (settled_new hmeta')
  have hversioned : Versioned L content e.clientId
      (versionField fields ((cfg.schemaVersion k.docId).getD 0)) (doc.setFields L ordered.1).state := by
    refine ⟨hset.1, hset.2, fun a ha => ?_, ?_, ?_⟩
    · rcases mem_of_mem_setFields ha with ha | ha
      · exact ha
      · exact eq_of_mem_new ha
    · refine Multiset.mem_of_le (le_setFields ordered.1).1 ?_
      exact Multiset.count_pos.1 (lt_of_lt_of_eq (by decide : 0 < 3) count_new.symm)
    · rw [field_setFields hL deletesOwn_new hholds (settled_new hmeta'),
        hL.field_eq_of_live ((live_new hmeta' _).2 rfl) (settled_new hmeta'), hmeta'.2.2.1,
        foldl_versionField hkeys _ wall ordered.2]
  exact ⟨_, _, hversioned, hw.storage, rfl⟩

/-! ## Receiving -/

variable {n : ℕ} {A : Call B → Env B → World B → Prop} {w w' : World B} {update : B}

def FreshIds (content : Content) (c : ClientId) : Call B → Env B → World B → Prop
  | .newClientId, e, _ => e.clientId ≠ c ∧
      ∃ docId recordId, content.Holds e.clientId 0 (newFields docId recordId 0)
  | _, _, _ => True

inductive Received [DecidableEq B] (L : Lib B) (A : Call B → Env B → World B → Prop) (n : ℕ)
    (k : Key) (update : B) (w w' : World B) : Prop
  | alone (entry : OplogEntry B) (hkey : entry.key = k) (hupdate : entry.yrsUpdate = update)
      (hunseen : entry.id ∉ w.client.dedup.seen)
      (hrun : Outcome (machine n A) (applyRemoteUpdate L entry) w (.ok ()) w')
  | batch (entries : List (OplogEntry B)) (entry : OplogEntry B) (hupdate : entry.yrsUpdate = update)
      (honly : ((unseen w.client.dedup.seen entries).filter fun e => e.key = k) = [entry])
      (hrun : Outcome (machine n A) (applyBatch L entries) w (.ok ()) w')

def StoredNew (L : Lib B) (k : Key) (d : CrdtState) (w' : World B) (r : ClientId) : Prop :=
  w'.storage.documents k = some (L.encodeV1 ((CRDTDocument.new r k.docId k.recordId 0).state ⊔ d))

variable [DecidableEq B] {entry : OplogEntry B}

lemma exists_drawn_of_alone (hnone : w.storage.documents entry.key = none)
    (hunseen : entry.id ∉ w.client.dedup.seen) (hd : L.decodeV1 entry.yrsUpdate = .ok d)
    (hfresh : ∀ r, Drawn A r → ∃ a ∈ d.stateVector, a ≠ r)
    (hrun : Outcome (machine n A) (applyRemoteUpdate L entry) w (.ok ()) w') :
    ∃ r, Drawn A r ∧ StoredNew L entry.key d w' r := by
  cases wp_iff_outcome.1 (wp_applyRemoteUpdate_ok entry) _ _ hrun rfl with
  | skipped hseen _ => exact absurd hseen hunseen
  | merged _ base u hbase hu hdocs _ =>
    rw [hd] at hu
    cases hu
    rw [hnone] at hbase
    obtain ⟨r, hr, rfl⟩ := hbase
    have hnot : ¬ d.stateVector ≤
        (CRDTDocument.new r entry.key.docId entry.key.recordId 0).state.stateVector := by
      intro hle
      obtain ⟨a, ha, hne⟩ := hfresh r hr
      exact hne (eq_of_mem_new (Multiset.mem_of_le hle ha))
    refine ⟨r, hr, ?_⟩
    rw [StoredNew, hdocs, Function.update_self, if_neg hnot]

lemma exists_drawn_of_batch {entries : List (OplogEntry B)} (hnone : w.storage.documents k = none)
    (honly : ((unseen w.client.dedup.seen entries).filter fun e => e.key = k) = [entry])
    (hd : L.decodeV1 entry.yrsUpdate = .ok d)
    (hrun : Outcome (machine n A) (applyBatch L entries) w (.ok ()) w') :
    ∃ r, Drawn A r ∧ StoredNew L k d w' r := by
  have hmem : entry ∈ (unseen w.client.dedup.seen entries).filter fun e => e.key = k := by
    rw [honly]
    exact mem_singleton_self entry
  obtain ⟨hunseen, hkey⟩ := mem_filter.1 hmem
  have hwp : wp (machine n A) (fun result w' => result = .ok () →
      ∃ r, Drawn A r ∧ StoredNew L k d w' r) (applyBatch L entries) w := by
    refine wp_applyBatch (fun hnil => ?_) (fun _ _ => nofun) ?_
    · rw [hnil] at hunseen
      exact nomatch hunseen
    · intro reads updated states hnd hkeys hall _
      obtain ⟨⟨k', bytes⟩, hp, hk'⟩ :=
        mem_map.1 ((hkeys k).2 ⟨entry, hunseen, decide_eq_true_iff.1 hkey⟩)
      obtain rfl : k' = k := hk'
      obtain ⟨base, d', hbase, hmerge, rfl⟩ := hall _ hp
      dsimp only at hbase hmerge
      rw [hnone] at hbase
      obtain ⟨r, hr, rfl⟩ := hbase
      refine ⟨r, hr, (InMemoryStorage.writeBatchReconciliation_of_mem hnd hp).trans ?_⟩
      rw [honly] at hmerge
      have hlub := hmerge.2
      rw [updatesOf_cons_ok hd] at hlub
      have hempty : updatesOf L ([] : List (OplogEntry B)) = ∅ := by simp [updatesOf]
      rw [hempty, insert_empty_eq] at hlub
      rw [hlub.unique isLUB_pair]
  exact wp_iff_outcome.1 hwp _ _ hrun rfl

lemma Received.exists_drawn (hrec : Received L A n k update w w')
    (hnone : w.storage.documents k = none) (hd : L.decodeV1 update = .ok d)
    (hfresh : ∀ r, Drawn A r → ∃ a ∈ d.stateVector, a ≠ r) :
    ∃ r, Drawn A r ∧ StoredNew L k d w' r := by
  cases hrec with
  | alone entry hkey hupdate hunseen hrun =>
    subst hkey hupdate
    exact exists_drawn_of_alone hnone hunseen hd hfresh hrun
  | batch entries entry hupdate honly hrun =>
    subst hupdate
    exact exists_drawn_of_batch hnone honly hd hrun

/-! ## Loading -/

omit [DecidableEq B]

def Loadable (L : Lib B) (k : Key) (w : World B) : Prop :=
  ∃ doc bytes, w.storage.documents k = some bytes ∧ fromSnapshot L 0 bytes = .ok doc

def LoadsVersion (L : Lib B) (k : Key) (v : ℕ) (w : World B) : Prop :=
  ∀ client doc bytes, w.storage.documents k = some bytes →
    fromSnapshot L client bytes = .ok doc → doc.schemaVersion = v

lemma loadsVersion_iff {v : ℕ} (hstored : w.storage.documents k = some (L.encodeV1 d))
    (hloads : Loadable L k w) (hfield : L.field d "schema_version" = some value) :
    LoadsVersion L k v w ↔ extractVersion (some value) = v := by
  have hversion : ∀ client doc, fromSnapshot L client (L.encodeV1 d) = .ok doc →
      doc.schemaVersion = extractVersion (some value) := by
    intro client doc h
    unfold fromSnapshot at h
    split_ifs at h
    rw [L.decode_encode] at h
    cases h
    rw [← hfield]
  obtain ⟨doc, bytes, hbytes, hload⟩ := hloads
  rw [hstored] at hbytes
  cases hbytes
  constructor
  · intro h
    rw [← hversion 0 doc hload]
    exact h 0 doc _ hstored hload
  · intro h client doc' bytes hbytes hload'
    rw [hstored] at hbytes
    cases hbytes
    rw [hversion client doc' hload', h]

/-- **Schema versions.** A document is inserted by client `c` with the registered version `v`, and
any number of replicas that had none receive it. Let `r i` be the id a replica drew for its new
document. Every replica, the first included, loads the document with version `v` if and only if
the inserted fields leave `v` under `schema_version`, after the conversion to `f64` and back, and
no `r i` is above `c` unless `v` is 0. -/
theorem schemaVersion_replicated_iff [DecidableEq B] {ι : Type} (hL : L.LargestWins content)
    (hkeys : (fields.map Prod.fst).Nodup) {n₀ : ℕ} {w₀ w₁ : World B} {entry : OplogEntry B}
    (hinsert : Outcome (machine n₀ (RecordWrite.Draws L cfg content k (.insert fields) c))
      (insert L cfg k fields) w₀ (.ok ()) w₁)
    (hentry : w₁.storage.oplog = w₀.storage.oplog ++ [entry]) (hloads : Loadable L k w₁)
    {A : ι → Call B → Env B → World B → Prop} {call : ι → ℕ} {before after : ι → World B}
    (hdraws : ∀ i op e w, A i op e w → FreshIds content c op e w)
    (hnone : ∀ i, (before i).storage.documents k = none)
    (hrec : ∀ i, Received L (A i) (call i) k entry.yrsUpdate (before i) (after i))
    (hloads' : ∀ i, Loadable L k (after i)) :
    let v := (cfg.schemaVersion k.docId).getD 0
    ∃ r : ι → ClientId, (∀ i, Drawn (A i) (r i) ∧
        ∃ d, L.decodeV1 entry.yrsUpdate = .ok d ∧ StoredNew L k d (after i) (r i)) ∧
      ((LoadsVersion L k v w₁ ∧ ∀ i, LoadsVersion L k v (after i)) ↔
        extractVersion (some (versionField fields v)) = v ∧ ∀ i, c < r i → v = 0) := by
  intro v
  obtain ⟨d, entry', hd, hstorage, hupdate⟩ :=
    wp_iff_outcome.1 (wp_insert_versioned hL.toMaps hkeys) _ _ hinsert rfl
  obtain rfl : entry' = entry := by
    rw [hstorage] at hentry
    exact singleton_injective (append_cancel_left hentry)
  have hstored : w₁.storage.documents k = some (L.encodeV1 d) := by
    rw [hstorage]
    exact Function.update_self _ _ _
  have hdecode : L.decodeV1 entry'.yrsUpdate = .ok d := by rw [hupdate, L.decode_encode]
  have hfresh : ∀ i r, Drawn (A i) r → r ≠ c ∧
      ∃ docId recordId, content.Holds r 0 (newFields docId recordId 0) := by
    rintro i _ ⟨e, w, he, rfl⟩
    exact hdraws i _ e w he
  have hdrawn : ∀ i, ∃ r, Drawn (A i) r ∧ StoredNew L k d (after i) r := fun i =>
    (hrec i).exists_drawn (hnone i) hdecode fun r hr => ⟨c, hd.nonempty, (hfresh i r hr).1.symm⟩
  choose r hr hnew using hdrawn
  have hversion : ∀ i, LoadsVersion L k v (after i) ↔ extractVersion
      (some (if c < r i then .number (Float.ofNat 0) else versionField fields v)) = v := by
    intro i
    obtain ⟨hne, docId, recordId, hholds⟩ := hfresh i (r i) (hr i)
    exact loadsVersion_iff (hnew i) (hloads' i) (hd.field_merged hL hne hholds)
  refine ⟨r, fun i => ⟨hr i, d, hdecode, hnew i⟩, ?_⟩
  rw [loadsVersion_iff hstored hloads hd.shown, forall_congr' hversion]
  refine and_congr_right fun hv => forall_congr' fun i => ?_
  by_cases hlt : c < r i
  · rw [if_pos hlt]
    have hzero : extractVersion (some (.number (Float.ofNat 0))) = 0 := by decide
    rw [hzero]
    exact ⟨fun h _ => h.symm, fun h => (h hlt).symm⟩
  · rw [if_neg hlt]
    exact ⟨fun _ h => absurd h hlt, fun _ => hv⟩

/-! ## Two replicas -/

namespace SchemaVersion

def registered : Config := { Sym.config 0 with schemaVersion := fun _ => some 1 }

def items : Content
  | (_, 0) => ("doc_id", .string "d")
  | (_, 1) => ("record_id", .string "x")
  | (c, 2) => ("schema_version", .number (Float.ofNat (if c = 1 then 1 else 0)))
  | (_, 3) => ("title", .string "t")
  | _ => ("updatedAt", .number (Float.ofNat 0))

variable (c)

def drawing : Env Sym := { (default : Env Sym) with clientId := c }

def Draw : Call Sym → Env Sym → World Sym → Prop
  | .newClientId, e, _ => e.clientId = c
  | _, _, _ => True

def empty : World Sym := .new .new

def titleOnly : List (String × CrdtValue) := [("title", .string "t")]

def insertTitle : AsyncFn Sym Unit :=
  insert (Sym.mapLib items) registered ⟨"d", "x"⟩ titleOnly

abbrev inserting : Call Sym → Env Sym → World Sym → Prop :=
  RecordWrite.Draws (Sym.mapLib items) registered items ⟨"d", "x"⟩ (.insert titleOnly) 1

def inserted : World Sym :=
  (run (machine 0 inserting) insertTitle (List.replicate 6 (drawing 1)) empty).2

lemma outcome_inserted : Outcome (machine 0 inserting) insertTitle empty (.ok ()) inserted := by
  have hallowed : Allowed (machine 0 inserting) insertTitle (List.replicate 6 (drawing 1)) empty := by
    -- id, client id, clock, order of the fields, nonce, write
    refine And.intro trivial (And.intro ⟨rfl, Multiset.notMem_zero _, rfl, rfl, rfl, trivial⟩
      (And.intro trivial (And.intro ⟨rfl, rfl, trivial⟩ (And.intro trivial (And.intro trivial
        trivial)))))
  exact hallowed.outcome

def published : OplogEntry Sym := inserted.storage.oplog.head (cons_ne_nil _ _)

def received : World Sym :=
  (run (machine 1 (Draw c)) (applyRemoteUpdate (Sym.mapLib items) published)
    (List.replicate 3 (drawing c)) empty).2

variable {c}

lemma received_published {c : ClientId} (hc : c = 0 ∨ c = 2) :
    Received (Sym.mapLib items) (Draw c) 1 ⟨"d", "x"⟩ published.yrsUpdate empty (received c) := by
  have hallowed : Allowed (machine 1 (Draw c)) (applyRemoteUpdate (Sym.mapLib items) published)
      (List.replicate 3 (drawing c)) empty := by
    rcases hc with rfl | rfl <;> exact And.intro trivial (And.intro rfl (And.intro trivial trivial))
  rcases hc with rfl | rfl <;>
    exact .alone published rfl rfl (Finset.notMem_empty _) hallowed.outcome

theorem smaller_id_keeps_version :
    LoadsVersion (Sym.mapLib items) ⟨"d", "x"⟩ 1 inserted ∧
      LoadsVersion (Sym.mapLib items) ⟨"d", "x"⟩ 1 (received 0) := by
  have hfresh : ∀ (_ : Unit) op e w, Draw 0 op e w → FreshIds items 1 op e w := by
    intro _ op e w h
    cases op with
    | newClientId =>
      rw [FreshIds, show e.clientId = 0 from h]
      exact ⟨by decide, "d", "x", rfl, rfl, rfl, trivial⟩
    | _ => trivial
  have hkeys : (titleOnly.map Prod.fst).Nodup := by decide
  have hinsert := outcome_inserted
  have hentry : inserted.storage.oplog = empty.storage.oplog ++ [published] := rfl
  obtain ⟨r, hr, hiff⟩ := schemaVersion_replicated_iff (Sym.largestWins_mapLib items) hkeys hinsert
    hentry ⟨_, _, rfl, rfl⟩ hfresh (fun _ => rfl) (fun _ => received_published (.inl rfl))
    fun _ => ⟨_, _, rfl, rfl⟩
  have hzero : r () = 0 := by
    obtain ⟨⟨e, w, he, hclient⟩, -⟩ := hr ()
    exact hclient.symm.trans he
  obtain ⟨hfirst, hsecond⟩ := hiff.2 ⟨by decide, fun _ hlt => absurd hlt (by rw [hzero]; decide)⟩
  exact ⟨hfirst, hsecond ()⟩

theorem larger_id_loses_version :
    registered.schemaVersion "d" = some 1 ∧
      Outcome (machine 0 inserting) insertTitle empty (.ok ()) inserted ∧
      inserted.storage.oplog = [published] ∧
      Received (Sym.mapLib items) (Draw 2) 1 ⟨"d", "x"⟩ published.yrsUpdate empty (received 2) ∧
      ∃ doc bytes, (received 2).storage.documents ⟨"d", "x"⟩ = some bytes ∧
        fromSnapshot (Sym.mapLib items) 0 bytes = .ok doc ∧ doc.schemaVersion = 0 := by
  refine ⟨rfl, outcome_inserted, rfl, received_published (.inr rfl), _, _, rfl, rfl, ?_⟩
  decide

end SchemaVersion

end VaultSync
