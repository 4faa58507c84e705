import VaultSync.Coordinator.RedisPush

/-! What the compaction of the Redis coordinator deletes. -/

namespace VaultSync.RedisCoordinator

open Async Redis List

variable {B : Type} (C : SnapshotCodec B) {db db' : Redis B} {ns key : String}

def listed (db : Redis B) (ns : String) : List (Snapshot B) :=
  match db.setAt (snapshotKeys ns) with
  | .ok s => decoded C (s.1.map db.stringAt)
  | .error _ => []

def snapshotOf (db : Redis B) (ns : String) (k : Key) : Option (Snapshot B) :=
  (db.stringAt (snapshotKey ns k.docId k.recordId)).bind fun bytes => (C.decode bytes).toOption

def Covered (db : Redis B) (ns : String) (e : StreamEntry B) : Prop :=
  ∃ s, (s ∈ listed C db ns ∨ snapshotOf C db ns e.key = some s) ∧ s.key = e.key ∧
    (e.parse ns).sequence ≤ s.sequence

variable {C}

def ReachedBy (snaps : List (Snapshot B)) (e : StreamEntry B) : Prop :=
  ∃ s ∈ snaps, e.streamId ≤ seqToStreamId s.sequence

/-! ## Deletions -/

lemma entriesAt_xdel (key : String) (id : StreamId) :
    entriesAt (db.xdel key id).2 key = (entriesAt db key).filter fun e => e.streamId ≠ id := by
  unfold Redis.xdel
  cases hdb : db key with
  | none =>
    have hnone : entriesAt db key = [] := by rw [entriesAt, streamAt, hdb]; rfl
    rw [hnone]
    rfl
  | some v =>
    cases v with
    | stream s =>
      have hs : entriesAt db key = s.entries := by rw [entriesAt, streamAt, hdb]
      rw [hs]
      exact entriesAt_write_self key _
    | string bytes | set members =>
      have hnone : entriesAt db key = [] := by rw [entriesAt, streamAt, hdb]
      rw [hnone]
      rfl

variable {msg : String} {s : { l : List String // l.Nodup }}

lemma entriesAt_xdel_error {id : StreamId} (h : (db.xdel key id).1 = .error msg) :
    entriesAt db key = [] := by
  unfold Redis.xdel at h
  unfold entriesAt streamAt
  cases hdb : db key with
  | none => rfl
  | some v =>
    rw [hdb] at h
    cases v with
    | stream s => cases h
    | string bytes => rfl
    | set members => rfl

def NoFault (_ : RedisCommand B) (e : RedisEnv) (_ : Redis B) : Prop := e.fault = none

/-- Only entries with `X` are deleted, and all of them if the connection is `quiet`. -/
structure Removes {α : Type} (quiet : Prop) (key : String) (X : StreamEntry B → Prop) (db : Redis B)
    (r : Except CoordinatorError α) (db' : Redis B) : Prop where
  only : ∀ e ∈ entriesAt db key, e ∉ entriesAt db' key → X e
  all : quiet → ∀ e ∈ entriesAt db' key, (∃ a, r = .ok a) ∧ e ∈ entriesAt db key ∧ ¬ X e

section removing

variable {α β : Type} {quiet : Prop} {X Y : StreamEntry B → Prop} {r : Except CoordinatorError α}
  {allow : RedisCommand B → RedisEnv → Redis B → Prop} {t : RedisFn B α} {f : α → RedisFn B β}

lemma Removes.congr (h : Removes quiet key X db r db')
    (hXY : ∀ e ∈ entriesAt db key, X e ↔ Y e) : Removes quiet key Y db r db' where
  only e he hne := (hXY e he).1 (h.only e he hne)
  all hq e he := by
    obtain ⟨hok, hmem, hX⟩ := h.all hq e he
    exact ⟨hok, hmem, fun hY => hX ((hXY e hmem).2 hY)⟩

lemma removes_none {a : α} : Removes quiet key (fun _ => False) db (.ok a) db :=
  ⟨fun _ he hne => hne he, fun _ _ he => ⟨⟨a, rfl⟩, he, id⟩⟩

lemma removes_of_nil (h : entriesAt db key = []) : Removes quiet key X db r db := by
  constructor <;> simp [h]

lemma wp_removes_bind (ht : wp (machine allow) (Removes quiet key X db) t db)
    (hf : ∀ a db', wp (machine allow) (Removes quiet key Y db') (f a) db') :
    wp (machine allow) (Removes quiet key (fun e => X e ∨ Y e) db) (t >>= f) db := by
  refine ht.bind (fun a db1 h1 => (hf a db1).mono fun r db2 h2 => ?_) fun err db1 h1 => ?_
  · refine ⟨fun e he hne => ?_, fun hq e he => ?_⟩
    · by_cases hmid : e ∈ entriesAt db1 key
      · exact .inr (h2.only e hmid hne)
      · exact .inl (h1.only e he hmid)
    · obtain ⟨hok, hmid, hY⟩ := h2.all hq e he
      obtain ⟨-, hmem, hX⟩ := h1.all hq e hmid
      exact ⟨hok, hmem, not_or.2 ⟨hX, hY⟩⟩
  · exact ⟨fun e he hne => .inl (h1.only e he hne), fun hq e he =>
      nomatch (h1.all hq e he).1.choose_spec⟩

lemma wp_removes_map {g : α → β} (ht : wp (machine allow) (Removes quiet key X db) t db) :
    wp (machine allow) (Removes quiet key X db) (t >>= fun a => pure (g a)) db :=
  ht.bind (fun _ _ h => ⟨h.only, fun hq e he => ⟨⟨_, rfl⟩, (h.all hq e he).2⟩⟩)
    fun _ _ h => ⟨h.only, fun hq e he => nomatch (h.all hq e he).1.choose_spec⟩

variable (hquiet : quiet → ∀ op e db, allow op e db → e.fault = none)

include hquiet

omit hquiet in
lemma Removes.of_fault (h : ¬ quiet) : Removes quiet key X db r db :=
  ⟨fun _ he hne => absurd he hne, fun hq => absurd hq h⟩

lemma not_quiet {op : RedisCommand B} {e : RedisEnv} (he : allow op e db)
    (h : e.fault = some msg) : ¬ quiet :=
  fun hq => nomatch (hquiet hq op e db he).symm.trans h

lemma wp_xdel (id : StreamId) (db : Redis B) :
    wp (machine allow) (Removes quiet key (fun e => e.streamId = id) db) (xdel key id) db := by
  intro e he
  have hleft : ∀ x, x ∈ entriesAt (db.xdel key id).2 key ↔
      x ∈ entriesAt db key ∧ x.streamId ≠ id := by
    intro x
    rw [entriesAt_xdel, mem_filter, decide_eq_true_eq]
  have honly : ∀ x ∈ entriesAt db key, x ∉ entriesAt (db.xdel key id).2 key → x.streamId = id :=
    fun x hx hne => by_contra fun hid => hne ((hleft x).2 ⟨hx, hid⟩)
  change wp _ _ (internal (e.reply db (db.xdel key id)).1) (e.reply db (db.xdel key id)).2
  rw [← Prog.bind_pure (internal _)]
  refine wp_reply (fun msg hmsg => ?_) (fun msg hmsg => ?_) fun n _ => ?_
  · have hnot := not_quiet hquiet he hmsg
    exact ⟨.of_fault hnot, honly, fun hq => absurd hq hnot⟩
  · refine ⟨honly, fun _ x hx => ?_⟩
    have hmem := ((hleft x).1 hx).1
    rw [entriesAt_xdel_error hmsg] at hmem
    exact nomatch hmem
  · exact ⟨honly, fun _ x hx => ⟨⟨n, rfl⟩, (hleft x).1 hx⟩⟩

lemma wp_deleteEntries (es : List (StreamEntry B)) (db : Redis B) :
    wp (machine allow) (Removes quiet key (fun e => ∃ e' ∈ es, e.streamId = e'.streamId) db)
      (deleteEntries key es) db := by
  induction es generalizing db with
  | nil => exact removes_none.congr fun _ _ => by simp
  | cons d es ih =>
    refine (wp_removes_bind (wp_xdel hquiet d.streamId db) fun _ db1 =>
      wp_removes_map (ih db1)).mono fun _ _ h => h.congr fun _ _ => ?_
    simp

/-! ## Ranges -/

omit hquiet in
lemma mem_of_xrange {stop : StreamId} {es : List (StreamEntry B)}
    (h : db.xrange key ⟨0, 0⟩ (some stop) none = .ok es) {e : StreamEntry B} :
    e ∈ es ↔ e ∈ entriesAt db key ∧ e.streamId ≤ stop := by
  unfold Redis.xrange at h
  cases hs : db.streamAt key with
  | error msg =>
    rw [hs] at h
    cases h
  | ok s =>
    rw [hs] at h
    cases h
    have hzero : (⟨0, 0⟩ : StreamId) ≤ e.streamId := by
      rw [StreamId.le_iff]
      exact (Nat.eq_zero_or_pos e.streamId.ms).elim (fun h0 => .inr ⟨h0.symm, Nat.zero_le _⟩) .inl
    rw [entriesAt_of_streamAt hs]
    simp [RedisStream.range, hzero]

omit hquiet in
lemma entriesAt_of_xrange_error {start : StreamId} {stop : Option StreamId} {count : Option ℕ}
    (h : db.xrange key start stop count = .error msg) : entriesAt db key = [] := by
  unfold Redis.xrange at h
  unfold entriesAt
  cases hs : db.streamAt key with
  | error msg => rfl
  | ok s =>
    rw [hs] at h
    cases h

lemma wp_compactUpTo (snaps : List (Snapshot B)) (db : Redis B) :
    wp (machine allow) (Removes quiet (streamKey ns) (ReachedBy snaps) db) (compactUpTo ns snaps)
      db := by
  induction snaps generalizing db with
  | nil => exact removes_none.congr fun _ _ => by simp [ReachedBy]
  | cons s snaps ih =>
    intro e he
    refine wp_reply (fun msg hmsg => ?_) (fun msg hmsg => ?_) fun es hes => ?_
    · have hnot := not_quiet hquiet he hmsg
      exact ⟨.of_fault hnot, .of_fault hnot⟩
    · dsimp only at hmsg
      exact removes_of_nil (entriesAt_of_xrange_error hmsg)
    · refine (wp_removes_bind (wp_deleteEntries hquiet es db) fun _ db1 =>
        wp_removes_map (ih db1)).mono fun _ _ h => h.congr fun x hx => ?_
      have hrange : (∃ e' ∈ es, x.streamId = e'.streamId) ↔
          x.streamId ≤ seqToStreamId s.sequence := by
        constructor
        · rintro ⟨e', he', hid⟩
          exact hid ▸ ((mem_of_xrange hes).1 he').2
        · exact fun hle => ⟨x, (mem_of_xrange hes).2 ⟨hx, hle⟩, rfl⟩
      rw [hrange]
      simp [ReachedBy]

/-! ## The snapshots that count -/

lemma wp_listSnapshots :
    wp (machine allow) (fun r db' => db' = db ∧
      (∀ snaps, r = .ok snaps → snaps.Perm (listed C db ns)) ∧
      (quiet → ∀ s, db.setAt (snapshotKeys ns) = .ok s → ∃ snaps, r = .ok snaps))
      (listSnapshots C ns) db := by
  intro e he
  change wp _ _ (internal (e.reply db ((db.setAt (snapshotKeys ns)).map fun s => (e.order s.1).1, db)).1 >>= _)
    (e.reply db (_, db)).2
  refine wp_reply (fun msg hmsg => ?_) (fun msg hmsg => ⟨rfl, nofun, fun _ s hs => ?_⟩)
    fun keys hkeys => ?_
  · have hnot := not_quiet hquiet he hmsg
    exact ⟨⟨rfl, nofun, fun hq => absurd hq hnot⟩, rfl, nofun, fun hq => absurd hq hnot⟩
  · rw [hs] at hmsg
    cases hmsg
  obtain ⟨s, hs, hperm⟩ : ∃ s, db.setAt (snapshotKeys ns) = .ok s ∧ keys.Perm s.1 := by
    cases hset : db.setAt (snapshotKeys ns) with
    | error msg =>
      rw [hset] at hkeys
      cases hkeys
    | ok s =>
      rw [hset] at hkeys
      cases hkeys
      exact ⟨s, rfl, (e.order s.1).2⟩
  have hlisted : (decoded C (keys.map db.stringAt)).Perm (listed C db ns) := by
    rw [listed, hs]
    exact (hperm.map _).filterMap _
  cases keys with
  | nil =>
    refine ⟨rfl, ?_, fun _ _ _ => ⟨_, rfl⟩⟩
    rintro _ ⟨⟩
    exact hlisted
  | cons key keys =>
    intro e' he'
    change wp _ _ (internal (e'.reply db (.ok ((key :: keys).map db.stringAt), db)).1 >>= _)
      (e'.reply db (_, db)).2
    refine wp_reply (fun msg hmsg => ?_) nofun fun values hvalues => ?_
    · have hnot := not_quiet hquiet he' hmsg
      exact ⟨⟨rfl, nofun, fun hq => absurd hq hnot⟩, rfl, nofun, fun hq => absurd hq hnot⟩
    cases hvalues
    refine ⟨rfl, ?_, fun _ _ _ => ⟨_, rfl⟩⟩
    rintro _ ⟨⟩
    exact hlisted

omit hquiet in
lemma wp_of_allow {Q : Except CoordinatorError β → Redis B → Prop} {t : RedisFn B β}
    (h : wp (machine fun _ _ _ => True) Q t db) : wp (machine allow) Q t db := by
  induction t generalizing db with
  | ret a => exact h
  | fail err => exact h
  | call op k ih => exact fun e _ => ih _ (h e trivial)
  | sync g k ih => exact ih _ h

end removing

lemma wp_compactOplog_all (hs : db.setAt (snapshotKeys ns) = .ok s) :
    wp (machine NoFault)
      (fun _ db' => ∀ e ∈ entriesAt db' (streamKey ns), ¬ ReachedBy (listed C db ns) e)
      (compactOplog C ns) db := by
  refine (wp_listSnapshots fun _ _ _ _ h => h).bind ?_ fun err db' h =>
    nomatch (h.2.2 trivial s hs).choose_spec
  rintro snaps _ ⟨rfl, hsnaps, -⟩
  refine (wp_compactUpTo (fun _ _ _ _ h => h) snaps _).mono fun r db' hdel e he hreach =>
    (hdel.all trivial e he).2.2 ?_
  obtain ⟨s, hmem, hle⟩ := hreach
  exact ⟨s, (hsnaps snaps rfl).mem_iff.2 hmem, hle⟩

/-- **Compaction.** Whatever the connection does, only entries covered by a snapshot of their own
record are deleted, if and only if every entry that a listed snapshot reaches is so covered. -/
theorem deletes_only_covered_iff (C : SnapshotCodec B) (db : Redis B) (ns : String) :
    wp (machine fun _ _ _ => True)
        (fun _ db' => ∀ e ∈ entriesAt db (streamKey ns), e ∉ entriesAt db' (streamKey ns) →
          Covered C db ns e) (compactOplog C ns) db ↔
      ∀ e ∈ entriesAt db (streamKey ns), ReachedBy (listed C db ns) e → Covered C db ns e := by
  constructor
  · intro h e he hreach
    obtain ⟨s, hs⟩ : ∃ s, db.setAt (snapshotKeys ns) = .ok s := by
      cases hset : db.setAt (snapshotKeys ns) with
      | ok s => exact ⟨s, rfl⟩
      | error msg =>
        obtain ⟨x, hx, -⟩ := hreach
        rw [listed, hset] at hx
        exact nomatch hx
    have hquiet : wp (machine NoFault) _ _ _ := wp_of_allow h
    have hboth := hquiet.and (wp_compactOplog_all (C := C) hs)
    obtain ⟨hcovered, hgone⟩ := wp_iff_outcome.1 hboth _ _
      (run_outcome _ [] db fun _ _ => ⟨rfl, nofun⟩)
    exact hcovered e he fun hleft => hgone e hleft hreach
  · intro h
    refine (wp_listSnapshots False.elim).bind ?_ ?_
    · rintro snaps _ ⟨rfl, hsnaps, -⟩
      refine (wp_compactUpTo False.elim snaps _).mono fun r db' hdel e he hne => h e he ?_
      obtain ⟨s, hmem, hle⟩ := hdel.only e he hne
      exact ⟨s, (hsnaps snaps rfl).mem_iff.1 hmem, hle⟩
    · rintro err _ ⟨rfl, -⟩ e he hne
      exact absurd he hne

/-! ## Two records -/

def recordX : SnapshotCodec ℕ where
  encode s := .ok s.sequence
  decode n := .ok ⟨"d", "x", 0, n, 0, 0⟩

def twoRecords : Redis ℕ :=
  let pushed := run (machine fun _ _ _ => True)
    (push "a" [⟨"m", "a", "r", "d", "y", 0, 0, 0, 1⟩, ⟨"n", "a", "r", "d", "x", 0, 0, 0, 1⟩]) [] fun _ => none
  (run (machine fun _ _ _ => True) (storeSnapshot recordX "a" ⟨"d", "x", 0, 2, 0, 0⟩) [] pushed.2).2

def mutationOfY : StreamEntry ℕ := ⟨⟨0, 1⟩, "m", "r", "d", "y", 0, 0, 0, 1⟩

/-- The compaction for `x` deletes the mutation of `y`, of which there is no snapshot. -/
theorem other_record_deleted :
    let after := run (machine fun _ _ _ => True) (compactOplog recordX "a") [] twoRecords
    mutationOfY ∈ entriesAt twoRecords (streamKey "a") ∧
      mutationOfY ∉ entriesAt after.2 (streamKey "a") ∧ ¬ Covered recordX twoRecords "a" mutationOfY := by
  intro after
  have hbefore : entriesAt twoRecords (streamKey "a") =
      [mutationOfY, ⟨⟨0, 2⟩, "n", "r", "d", "x", 0, 0, 0, 1⟩] := by rfl
  have hafter : entriesAt after.2 (streamKey "a") = [] := by rfl
  have hlisted : listed recordX twoRecords "a" = [⟨"d", "x", 0, 2, 0, 0⟩] := by rfl
  have hnone : snapshotOf recordX twoRecords "a" mutationOfY.key = none := by rfl
  rw [hbefore, hafter]
  refine ⟨mem_cons_self, not_mem_nil, ?_⟩
  rintro ⟨s, hs, hkey, -⟩
  rw [hlisted, hnone, mem_singleton] at hs
  rcases hs with rfl | hs
  · exact absurd hkey (by decide)
  · cases hs

end VaultSync.RedisCoordinator
