import VaultSync.Coordinator.RedisCompaction

/-! The keys of the Redis coordinator's snapshots: three strings joined by a separator that may
occur in them. -/

namespace VaultSync.RedisCoordinator

open Async Redis List

variable {B : Type} {C : SnapshotCodec B} {ns ns' d r : String}

/-! ## Keys -/

def snapshotSeparator : List Char := ":snapshot:".toList

/-- The separators that `snapshotKey` writes are the only ones a reader of the key can find, and
the key is no namespace's set of keys. -/
structure PlainKey (ns d r : String) : Prop where
  doc : ':' ∉ d.toList
  record : ':' ∉ r.toList
  not_set : r ≠ "snapshot_keys"
  ns : ¬ snapshotSeparator <:+: ns.toList ++ ":snapshot".toList

lemma separator_append (l : List Char) :
    snapshotSeparator ++ l = ":snapshot".toList ++ ':' :: l := rfl

lemma cons_separator : snapshotSeparator = ':' :: "snapshot:".toList := rfl

lemma toList_snapshotKey (ns d r : String) :
    (snapshotKey ns d r).toList = "vaultsync:".toList ++
      (ns.toList ++ (snapshotSeparator ++ (d.toList ++ ':' :: r.toList))) := by
  change ("vaultsync:" ++ ns ++ ":snapshot:" ++ d ++ ":" ++ r).toList = _
  simp only [String.toList_append, append_assoc]
  rfl

lemma toList_snapshotKeys (ns : String) :
    (snapshotKeys ns).toList = "vaultsync:".toList ++
      (ns.toList ++ ':' :: "snapshot_keys".toList) := by
  change ("vaultsync:" ++ ns ++ ":snapshot_keys").toList = _
  simp only [String.toList_append, append_assoc]
  rfl

lemma exists_of_append_cons {a : Char} {xs ys us vs : List Char}
    (h : xs ++ a :: ys = us ++ a :: vs) (hys : a ∉ ys) :
    ∃ t, xs = us ++ t ∧ t ++ a :: ys = a :: vs := by
  rcases append_eq_append_iff.1 h with ⟨t, rfl, ht⟩ | ⟨t, rfl, ht⟩
  · cases t with
    | nil => exact ⟨[], by simp, ht⟩
    | cons b t =>
      have hmem : a ∈ ys := (List.cons.inj ht).2 ▸ mem_append_right t mem_cons_self
      exact absurd hmem hys
  · exact ⟨t, rfl, ht.symm⟩

variable {d' r' key : String} {bytes : B} {db' : Redis B}

lemma PlainKey.eq_of_key (h : PlainKey ns d r)
    (hkey : snapshotKey ns' d' r' = snapshotKey ns d r) : ns' = ns ∧ d' = d ∧ r' = r := by
  have hlist := congrArg String.toList hkey
  rw [toList_snapshotKey, toList_snapshotKey, append_right_inj] at hlist
  -- With the same namespace the rest is cut at its only separator.
  have hrest : ns' = ns → ns' = ns ∧ d' = d ∧ r' = r := by
    rintro rfl
    rw [append_right_inj, append_right_inj] at hlist
    obtain ⟨t, hd, ht⟩ := exists_of_append_cons hlist.symm h.record
    cases t with
    | nil =>
      rw [append_nil] at hd
      exact ⟨rfl, String.toList_injective hd.symm, String.toList_injective (List.cons.inj ht).2.symm⟩
    | cons b t =>
      refine absurd ?_ h.doc
      rw [hd, (List.cons.inj ht).1]
      exact mem_append_right _ mem_cons_self
  rcases append_eq_append_iff.1 hlist with ⟨t, hns, ht⟩ | ⟨t, hns, ht⟩
  · cases t with
    | nil => exact hrest (String.toList_injective (by simpa using hns.symm))
    | cons b t =>
      -- A shorter namespace ends at a separator that starts in this one.
      have hin : snapshotSeparator <+: b :: t ++ ":snapshot".toList := by
        refine prefix_of_prefix_length_le ⟨_, ht⟩
          ((prefix_append_right_inj _).2 ⟨_, (separator_append _).symm⟩) ?_
        rw [length_append, length_cons, Nat.add_right_comm]
        exact Nat.le_add_left 10 t.length
      refine absurd (hin.isInfix.trans ⟨ns'.toList, [], ?_⟩) h.ns
      rw [hns]
      simp
  · cases t with
    | nil => exact hrest (String.toList_injective (by simpa using hns))
    | cons b t =>
      -- A longer one would need a separator more than there are.
      have hcount := congrArg (List.count ':') ht
      rw [cons_separator, cons_append, cons_append] at ht
      have hb : ':' = b := (List.cons.inj ht).1
      simp [← hb, count_eq_zero_of_not_mem h.doc,
        count_eq_zero_of_not_mem h.record] at hcount
      omega

lemma of_key_eq_keys (h : snapshotKey ns d r = snapshotKeys ns') :
    (':' ∈ r.toList ∨ r = "snapshot_keys") ∧ snapshotSeparator <:+: ns'.toList := by
  have hlist := congrArg String.toList h
  rw [toList_snapshotKey, toList_snapshotKeys, append_right_inj, ← append_assoc,
    ← append_assoc] at hlist
  obtain ⟨t, hns, ht⟩ := exists_of_append_cons hlist.symm (by decide)
  refine ⟨?_, ⟨ns.toList, d.toList ++ t, by rw [hns]; simp⟩⟩
  cases t with
  | nil => exact .inr (String.toList_injective (List.cons.inj ht).2.symm)
  | cons b t => exact .inl ((List.cons.inj ht).2 ▸ mem_append_right t mem_cons_self)

lemma PlainKey.ne_keys (h : PlainKey ns d r) : snapshotKey ns d r ≠ snapshotKeys ns' := by
  intro hkey
  rcases (of_key_eq_keys hkey).1 with hmem | hr
  · exact h.record hmem
  · exact h.not_set hr

lemma PlainKey.keys_ne (h : PlainKey ns d r) : snapshotKey ns' d' r' ≠ snapshotKeys ns :=
  fun hkey => h.ns ((of_key_eq_keys hkey).2.trans (infix_append' [] _ _))

lemma collision_of_not_plain (h : ¬ PlainKey ns d r) :
    (∃ ns' d' r', snapshotKey ns' d' r' = snapshotKey ns d r ∧ (d' ≠ d ∨ r' ≠ r)) ∨
      ∃ ns', snapshotKey ns d r = snapshotKeys ns' := by
  have hkeys : ∀ {ns' d' r' : String}, ns'.toList ++ (snapshotSeparator ++ (d'.toList ++
      ':' :: r'.toList)) = ns.toList ++ (snapshotSeparator ++ (d.toList ++ ':' :: r.toList)) →
      snapshotKey ns' d' r' = snapshotKey ns d r := by
    intro ns' d' r' hlist
    apply String.toList_injective
    rw [toList_snapshotKey, toList_snapshotKey, hlist]
  have hne : ∀ {s t : String}, s.length ≠ t.length → s ≠ t := fun h e => h (e ▸ rfl)
  by_cases hd : ':' ∈ d.toList
  · obtain ⟨u, v, huv⟩ := append_of_mem hd
    have hlen := congrArg List.length huv
    refine .inl ⟨ns, String.ofList u, String.ofList (v ++ ':' :: r.toList), hkeys ?_, .inl (hne ?_)⟩
    · simp [huv]
    · simp [← String.length_toList, huv]
  by_cases hr : ':' ∈ r.toList
  · obtain ⟨u, v, huv⟩ := append_of_mem hr
    refine .inl ⟨ns, String.ofList (d.toList ++ ':' :: u), String.ofList v, hkeys ?_, .inl (hne ?_)⟩
    · simp [huv]
    · simp [← String.length_toList]
  by_cases hset : r = "snapshot_keys"
  · refine .inr ⟨ns ++ ":snapshot:" ++ d, String.toList_injective ?_⟩
    rw [toList_snapshotKey, toList_snapshotKeys, hset]
    simp only [String.toList_append, append_assoc]
    rfl
  by_cases hns : snapshotSeparator <:+: ns.toList ++ ":snapshot".toList
  · obtain ⟨u, v, huv⟩ := hns
    refine .inl ⟨String.ofList u, String.ofList (v ++ ':' :: d.toList), r, hkeys ?_, .inl (hne ?_)⟩
    · rw [separator_append (d.toList ++ _), ← append_assoc ns.toList, ← huv]
      simp
    · simp [← String.length_toList]
      omega
  exact absurd ⟨hd, hr, hset, hns⟩ h

lemma snapshotKeys_injective : Function.Injective snapshotKeys := by
  intro ns ns' h
  have hlist := congrArg String.toList h
  rw [toList_snapshotKeys, toList_snapshotKeys, append_right_inj, append_left_inj] at hlist
  exact String.toList_injective hlist

/-! ## Calls -/

def get (db : Redis B) (key : String) : Except String (Option B) :=
  match db key with
  | none => .ok none
  | some (.string bytes) => .ok (some bytes)
  | some _ => .error wrongType

variable (C)

def getSnapshot (db : Redis B) (ns : String) (k : Key) :
    Except CoordinatorError (Option (Snapshot B)) :=
  match get db (snapshotKey ns k.docId k.recordId) with
  | .error msg => .error (.internal msg)
  | .ok none => .ok none
  | .ok (some bytes) =>
    match C.decode bytes with
    | .error msg => .error (.internal msg)
    | .ok s => .ok (some s)

def stores (calls : List (String × Snapshot B)) : Redis B :=
  calls.foldl (fun db c => (run (Redis.machine NoFault) (storeSnapshot C c.1 c.2) [] db).2)
    fun _ => none

variable {C}

def lastStored (calls : List (String × Snapshot B)) (ns : String) (k : Key) : Option (Snapshot B) :=
  calls.foldl (fun old c => if c.1 = ns ∧ c.2.key = k then some c.2 else old) none

variable {db : Redis B} {calls : List (String × Snapshot B)} {c : String × Snapshot B} {k : Key}
  {s : Snapshot B}

lemma lastStored_append : lastStored (calls ++ [c]) ns k =
    if c.1 = ns ∧ c.2.key = k then some c.2 else lastStored calls ns k := by
  simp [lastStored]

lemma exists_lastStored (hc : c ∈ calls) : ∃ s, lastStored calls c.1 c.2.key = some s := by
  induction calls using List.reverseRecOn with
  | nil => exact nomatch hc
  | append_singleton calls c' ih =>
    rw [lastStored_append]
    split_ifs with h
    · exact ⟨_, rfl⟩
    · rcases mem_append.1 hc with hc | hc
      · exact ih hc
      · rw [mem_singleton.1 hc] at h
        exact absurd ⟨rfl, rfl⟩ h

lemma lastStored_eq_some (h : lastStored calls ns k = some s) : s.key = k ∧ (ns, s) ∈ calls := by
  induction calls using List.reverseRecOn with
  | nil => cases h
  | append_singleton calls c' ih =>
    rw [lastStored_append] at h
    split_ifs at h with hc
    · cases h
      exact ⟨hc.2, by simp [← hc.1]⟩
    · exact (ih h).imp_right (mem_append_left _)

lemma of_getSnapshot (h : getSnapshot C db ns k = .ok (some s)) :
    ∃ bytes, db (snapshotKey ns k.docId k.recordId) = some (.string bytes) ∧
      C.decode bytes = .ok s := by
  unfold getSnapshot get at h
  cases hdb : db (snapshotKey ns k.docId k.recordId) with
  | none =>
    rw [hdb] at h
    cases h
  | some v =>
    rw [hdb] at h
    cases v with
    | string bytes =>
      refine ⟨bytes, rfl, ?_⟩
      cases hdec : C.decode bytes with
      | error msg => simp [hdec] at h
      | ok s' => simpa [hdec] using h
    | set members => cases h
    | stream stream => cases h

structure StoredBy (C : SnapshotCodec B) (calls : List (String × Snapshot B)) (db : Redis B) :
    Prop where
  snapshot : ∀ ns k, getSnapshot C db ns k = .ok (lastStored calls ns k)
  keys : ∀ ns, ∃ set, db.setAt (snapshotKeys ns) = .ok set ∧ ∀ key, key ∈ set.1 ↔
    ∃ c ∈ calls, c.1 = ns ∧ snapshotKey ns c.2.key.docId c.2.key.recordId = key

lemma run_storeSnapshot (h : C.encode s = .ok bytes) (db : Redis B) :
    (run (Redis.machine NoFault) (storeSnapshot C ns s) [] db).2 =
      ((db.write (snapshotKey ns s.key.docId s.key.recordId) (.string bytes)).sadd
        (snapshotKeys ns) (snapshotKey ns s.key.docId s.key.recordId)).2 := by
  rw [storeSnapshot, h]
  change (run _ (internal ((db.write _ _).sadd (snapshotKeys ns) _).1 >>= _) _ _).2 = _
  cases ((db.write _ _).sadd (snapshotKeys ns) _).1 <;> rfl

lemma sadd_of_ok (member : String) {set : { l : List String // l.Nodup }}
    (h : db.setAt key = .ok set) :
    (∀ key' ≠ key, (db.sadd key member).2 key' = db key') ∧
      ∃ set', (db.sadd key member).2.setAt key = .ok set' ∧ ∀ x, x ∈ set'.1 ↔ x ∈ set.1 ∨ x = member := by
  unfold Redis.sadd
  rw [h]
  dsimp only
  split_ifs with hmem
  · refine ⟨fun _ _ => rfl, set, h, fun x => ⟨.inl, ?_⟩⟩
    rintro (hx | rfl)
    · exact hx
    · exact hmem
  · refine ⟨fun key' hne => Function.update_of_ne hne _ _,
      ⟨member :: set.1, nodup_cons.2 ⟨hmem, set.2⟩⟩, ?_, ?_⟩
    · simp [setAt, write]
    · intro x
      rw [mem_cons, or_comm]

lemma getSnapshot_congr (h : db' (snapshotKey ns k.docId k.recordId) =
    db (snapshotKey ns k.docId k.recordId)) : getSnapshot C db' ns k = getSnapshot C db ns k := by
  rw [getSnapshot, getSnapshot, get, get, h]

lemma setAt_congr (h : db' key = db key) : db'.setAt key = db.setAt key := by
  rw [setAt, setAt, h]

lemma storedBy_store (h : StoredBy C calls db) (henc : C.encode c.2 = .ok bytes)
    (hdec : C.decode bytes = .ok c.2) (hplain : PlainKey c.1 c.2.docId c.2.recordId) :
    StoredBy C (calls ++ [c]) (run (Redis.machine NoFault) (storeSnapshot C c.1 c.2) [] db).2 := by
  rw [run_storeSnapshot henc]
  obtain ⟨ns, s⟩ := c
  generalize hkey : snapshotKey ns s.key.docId s.key.recordId = key
  obtain ⟨set, hset, hmem⟩ := h.keys ns
  have hwrite : ∀ ns', (db.write key (.string bytes)) (snapshotKeys ns') = db (snapshotKeys ns') :=
    fun ns' => Function.update_of_ne (hkey ▸ hplain.ne_keys.symm) _ _
  obtain ⟨hother, set', hset', hmem'⟩ := sadd_of_ok key
    ((setAt_congr (hwrite ns)).trans hset)
  constructor
  · intro ns' k
    rw [getSnapshot_congr (hother _ hplain.keys_ne), lastStored_append]
    split_ifs with heq
    · obtain ⟨rfl, rfl⟩ := heq
      have hbytes : db.write key (.string bytes) key = some (.string bytes) :=
        Function.update_self _ _ _
      rw [getSnapshot, get, hkey, hbytes]
      simp [hdec]
    · have hne : snapshotKey ns' k.docId k.recordId ≠ key := by
        intro hsame
        obtain ⟨hns, hd, hr⟩ := hplain.eq_of_key (hsame.trans hkey.symm)
        exact heq ⟨hns.symm, by cases k; simp_all [Snapshot.key]⟩
      exact (getSnapshot_congr (Function.update_of_ne hne _ _)).trans (h.snapshot ns' k)
  · intro ns'
    by_cases hns : ns' = ns
    · subst hns
      refine ⟨set', hset', fun x => ?_⟩
      rw [hmem', hmem]
      simp [or_and_right, exists_or, hkey, eq_comm]
    · obtain ⟨set1, hset1, hmem1⟩ := h.keys ns'
      refine ⟨set1, ?_, fun x => ?_⟩
      · rw [setAt_congr (hother _ (snapshotKeys_injective.ne hns)), setAt_congr (hwrite ns'), hset1]
      · rw [hmem1]
        simp [or_and_right, exists_or, Ne.symm hns]

lemma storedBy_stores
    (hcodec : ∀ c ∈ calls, ∃ bytes, C.encode c.2 = .ok bytes ∧ C.decode bytes = .ok c.2)
    (hplain : ∀ c ∈ calls, PlainKey c.1 c.2.docId c.2.recordId) :
    StoredBy C calls (stores C calls) := by
  induction calls using List.reverseRecOn with
  | nil => exact ⟨fun _ _ => rfl, fun ns => ⟨⟨[], .nil⟩, rfl, by simp⟩⟩
  | append_singleton calls c ih =>
    have hstores : stores C (calls ++ [c]) =
        (run (Redis.machine NoFault) (storeSnapshot C c.1 c.2) [] (stores C calls)).2 := by
      simp [stores]
    rw [forall_mem_append, forall_mem_singleton] at hcodec hplain
    obtain ⟨bytes, henc, hdec⟩ := hcodec.2
    rw [hstores]
    exact storedBy_store (ih hcodec.1 hplain.1) henc hdec hplain.2

def readAt (C : SnapshotCodec B) (db : Redis B) (key : String) : Option (Snapshot B) :=
  (db.stringAt key).bind fun bytes => (C.decode bytes).toOption

lemma StoredBy.readAt_eq (h : StoredBy C calls db) (hs : lastStored calls ns k = some s) :
    readAt C db (snapshotKey ns k.docId k.recordId) = some s := by
  obtain ⟨bytes, hdb, hdec⟩ := of_getSnapshot ((h.snapshot ns k).trans (by rw [hs]))
  simp [readAt, stringAt, hdb, hdec, Except.toOption]

lemma StoredBy.mem_set (h : StoredBy C calls db)
    (hkey : ∃ c ∈ calls, c.1 = ns ∧ snapshotKey ns c.2.key.docId c.2.key.recordId = key) :
    ∃ s, readAt C db key = some s ∧ snapshotKey ns s.key.docId s.key.recordId = key ∧
      lastStored calls ns s.key = some s := by
  obtain ⟨c, hc, rfl, rfl⟩ := hkey
  obtain ⟨s, hs⟩ := exists_lastStored hc
  have hsame : s.key = c.2.key := (lastStored_eq_some hs).1
  have hread := h.readAt_eq hs
  exact ⟨s, hread, by rw [hsame], by rw [hsame, hs]⟩

lemma StoredBy.listed_exact (h : StoredBy C calls db) (ns : String) :
    ((listed C db ns).map Snapshot.key).Nodup ∧
      ∀ s, s ∈ listed C db ns ↔ lastStored calls ns s.key = some s := by
  obtain ⟨set, hset, hmem⟩ := h.keys ns
  have hlisted : listed C db ns = set.1.filterMap (readAt C db) := by
    simp only [listed, hset, decoded, filterMap_map]
    rfl
  rw [hlisted]
  refine ⟨List.Nodup.of_map (fun k => snapshotKey ns k.docId k.recordId) ?_, fun s => ?_⟩
  · have hmap : set.1.filterMap (fun key => (readAt C db key).map fun s =>
        snapshotKey ns s.key.docId s.key.recordId) = set.1.filterMap some := by
      apply filterMap_congr
      intro key hk
      obtain ⟨s, hs, hskey, -⟩ := h.mem_set ((hmem key).1 hk)
      rw [hs, Option.map_some, hskey]
    rw [map_map, map_filterMap]
    exact (hmap.trans filterMap_some).symm ▸ set.2
  · rw [mem_filterMap]
    constructor
    · rintro ⟨key, hk, hs⟩
      obtain ⟨s', hs', -, hlast⟩ := h.mem_set ((hmem key).1 hk)
      rw [hs'] at hs
      cases hs
      exact hlast
    · intro hs
      have hread := h.readAt_eq hs
      exact ⟨_, (hmem _).2 ⟨(ns, s), (lastStored_eq_some hs).2, rfl, rfl⟩, hread⟩

/-- **Snapshots.** Each record is answered with its own last snapshot and each namespace lists one
for each of its records, if and only if the calls' namespaces and ids hold no separator of the key
and no record is named like the set of keys. -/
theorem snapshots_exact_iff (C : SnapshotCodec B) (calls : List (String × Snapshot B))
    (hcodec : ∀ c ∈ calls, ∃ bytes, C.encode c.2 = .ok bytes ∧ C.decode bytes = .ok c.2) :
    ((∀ ns k, getSnapshot C (stores C calls) ns k = .ok (lastStored calls ns k)) ∧
        ∀ ns, wp (Redis.machine NoFault) (fun res _ => ∃ snaps, res = .ok snaps ∧
          (snaps.map Snapshot.key).Nodup ∧ ∀ s, s ∈ snaps ↔ lastStored calls ns s.key = some s)
          (listSnapshots C ns) (stores C calls)) ↔
      ∀ c ∈ calls, PlainKey c.1 c.2.docId c.2.recordId := by
  constructor
  · rintro ⟨hget, hlist⟩ c hc
    by_contra hplain
    obtain ⟨s, hs⟩ := exists_lastStored hc
    have hread := (hget c.1 c.2.key).trans (by rw [hs])
    rcases collision_of_not_plain hplain with ⟨ns', d', r', hkey, hne⟩ | ⟨ns', hkey⟩
    · -- The other record is answered with this one's snapshot.
      have hother : getSnapshot C (stores C calls) ns' ⟨d', r'⟩ = .ok (some s) := by
        rw [← hread, getSnapshot, getSnapshot, hkey]
        rfl
      rw [hget] at hother
      have hsame := (lastStored_eq_some (Except.ok.inj hother)).1.symm.trans (lastStored_eq_some hs).1
      cases hsame
      simp at hne
    · -- The set of the other namespace is a string.
      obtain ⟨bytes, hdb, -⟩ := of_getSnapshot hread
      have herror : (stores C calls).setAt (snapshotKeys ns') = .error wrongType := by
        rw [← hkey, setAt]
        exact hdb ▸ rfl
      have hbad := hlist ns' default rfl
      change wp _ _ (internal (((stores C calls).setAt (snapshotKeys ns')).map _) >>= _) _ at hbad
      rw [herror] at hbad
      obtain ⟨_, hok, -⟩ := hbad
      cases hok
  · intro hplain
    have h := storedBy_stores hcodec hplain
    refine ⟨h.snapshot, fun ns => ?_⟩
    obtain ⟨set, hset, -⟩ := h.keys ns
    refine (wp_listSnapshots fun (_ : True) _ _ _ h => h).mono fun r _ hr => ?_
    obtain ⟨snaps, rfl⟩ := hr.2.2 trivial set hset
    obtain ⟨hnodup, hmem⟩ := h.listed_exact ns
    have hperm := hr.2.1 snaps rfl
    exact ⟨snaps, rfl, (hperm.map _).nodup_iff.2 hnodup, fun s => hperm.mem_iff.trans (hmem s)⟩

def codecOf (s : Snapshot Unit) : SnapshotCodec Unit := ⟨fun _ => .ok (), fun _ => .ok s⟩

theorem snapshots_exact_iff_one :
    getSnapshot (codecOf ⟨"a", "c", 1, 7, 0, ()⟩)
        (stores (codecOf ⟨"a", "c", 1, 7, 0, ()⟩) [("n", ⟨"a", "c", 1, 7, 0, ()⟩)]) "n" ⟨"a", "c"⟩ =
      .ok (some ⟨"a", "c", 1, 7, 0, ()⟩) :=
  ((snapshots_exact_iff (codecOf ⟨"a", "c", 1, 7, 0, ()⟩) [("n", ⟨"a", "c", 1, 7, 0, ()⟩)]
    (by simp [codecOf])).2 (by simpa using ⟨by decide, by decide, by decide, by decide⟩)).1 "n" ⟨"a", "c"⟩

/-- Record `c` of `a:b` is returned for record `b:c` of `a`, which was never stored. -/
theorem getSnapshot_other_record :
    getSnapshot (codecOf ⟨"a:b", "c", 1, 7, 0, ()⟩)
        (stores (codecOf ⟨"a:b", "c", 1, 7, 0, ()⟩) [("n", ⟨"a:b", "c", 1, 7, 0, ()⟩)]) "n"
        ⟨"a", "b:c"⟩ = .ok (some ⟨"a:b", "c", 1, 7, 0, ()⟩) ∧
      lastStored [("n", (⟨"a:b", "c", 1, 7, 0, ()⟩ : Snapshot Unit))] "n" ⟨"a", "b:c"⟩ = none := by
  refine ⟨?_, by decide⟩
  have hkey : snapshotKey "n" "a" "b:c" = snapshotKey "n" "a:b" "c" := by decide
  have hset : snapshotKey "n" "a:b" "c" ≠ snapshotKeys "n" := by decide
  simp [getSnapshot, get, hkey, stores, run_storeSnapshot, codecOf, Redis.sadd, setAt, write, hset,
    hset.symm, Snapshot.key]

end VaultSync.RedisCoordinator
