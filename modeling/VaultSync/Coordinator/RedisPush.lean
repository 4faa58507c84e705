import VaultSync.Coordinator.Redis

/-! What the Redis coordinator acknowledges. -/

namespace VaultSync.RedisCoordinator

open Async Redis List

variable {B : Type} {db db' : Redis B} {ns : String}

def entriesAt (db : Redis B) (key : String) : List (StreamEntry B) :=
  match db.streamAt key with
  | .ok s => s.entries
  | .error _ => []

def Present (db : Redis B) (ns : String) (m : EncryptedMutation B) (seq : ℕ) : Prop :=
  ∃ p ∈ (entriesAt db (streamKey ns)).map (StreamEntry.parse ns), p.id = m.id ∧ p.sequence = seq

def pushes (allow : RedisCommand B → RedisEnv → Redis B → Prop) :
    System ⟨RedisCommand B, RedisCommand.Ans⟩ Unit CoordinatorError RedisEnv (Redis B)
      (String × List (EncryptedMutation B)) (List ℕ) where
  machine _ := Redis.machine allow
  prog c := push c.1 c.2
  mayStart _ _ _ := True
  env _ _ := False

def NewId (op : RedisCommand B) (_ : RedisEnv) (db : Redis B) : Prop :=
  match op with
  | .sadd key member => ∀ s, db.setAt key = .ok s → member ∉ s.1
  | _ => True

/-! ## Streams only grow -/

def Grows (db db' : Redis B) : Prop := ∀ key, ∀ e ∈ entriesAt db key, e ∈ entriesAt db' key

lemma Grows.refl (db : Redis B) : Grows db db := fun _ _ he => he

lemma Grows.trans {db'' : Redis B} (h : Grows db db') (h' : Grows db' db'') : Grows db db'' :=
  fun key e he => h' key e (h key e he)

variable {m : EncryptedMutation B} {key : String}

lemma Present.mono {seq : ℕ} (hg : Grows db db')
    (h : Present db ns m seq) : Present db' ns m seq := by
  obtain ⟨p, hp, heq⟩ := h
  obtain ⟨e, he, rfl⟩ := mem_map.1 hp
  exact ⟨_, mem_map_of_mem (hg _ e he), heq⟩

lemma entriesAt_write_self (key : String) (s : RedisStream B) :
    entriesAt (db.write key (.stream s)) key = s.entries := by
  unfold entriesAt streamAt write
  rw [Function.update_self]

lemma entriesAt_write_of_ne {key' : String} (h : key' ≠ key) (v : RedisValue B) :
    entriesAt (db.write key v) key' = entriesAt db key' := by
  unfold entriesAt streamAt write
  rw [Function.update_of_ne h]

lemma entriesAt_of_streamAt {s : RedisStream B} (h : db.streamAt key = .ok s) :
    entriesAt db key = s.entries := by
  rw [entriesAt, h]

lemma entriesAt_of_setAt {s : { l : List String // l.Nodup }}
    (h : db.setAt key = .ok s) : entriesAt db key = [] := by
  unfold setAt at h
  unfold entriesAt streamAt
  cases hdb : db key with
  | none => rfl
  | some v =>
    rw [hdb] at h
    cases v with
    | set s => rfl
    | string b => cases h
    | stream s => cases h

lemma grows_sadd (key member : String) : Grows db (db.sadd key member).2 := by
  unfold Redis.sadd
  cases hs : db.setAt key with
  | error msg => exact .refl db
  | ok s =>
    dsimp only
    split_ifs
    · exact .refl db
    · intro key' e he
      by_cases hk : key' = key
      · rw [hk, entriesAt_of_setAt hs] at he
        exact nomatch he
      · rwa [entriesAt_write_of_ne hk]

lemma grows_xadd (key : String) (now : ℕ) (m : EncryptedMutation B) :
    Grows db (db.xadd key now m).2 := by
  unfold Redis.xadd
  cases hs : db.streamAt key with
  | error msg => exact .refl db
  | ok s =>
    intro key' e he
    by_cases hk : key' = key
    · rw [hk, entriesAt_of_streamAt hs] at he
      rw [hk, entriesAt_write_self]
      exact mem_append_left _ he
    · rwa [entriesAt_write_of_ne hk]

/-! ## Acknowledgements -/

lemma sadd_ok_zero {member : String} (h : (db.sadd key member).1 = .ok 0) :
    ∃ s, db.setAt key = .ok s ∧ member ∈ s.1 := by
  unfold Redis.sadd at h
  cases hs : db.setAt key with
  | error msg =>
    rw [hs] at h
    cases h
  | ok s =>
    rw [hs] at h
    dsimp only at h
    split_ifs at h with hmem
    · exact ⟨s, rfl, hmem⟩
    · cases h

lemma present_xadd {now : ℕ} {id : StreamId} (h : (db.xadd (streamKey ns) now m).1 = .ok id) :
    Present (db.xadd (streamKey ns) now m).2 ns m (streamIdToSeq id) := by
  unfold Redis.xadd at h ⊢
  cases hs : db.streamAt (streamKey ns) with
  | error msg =>
    rw [hs] at h
    cases h
  | ok s =>
    rw [hs] at h
    cases h
    refine ⟨(StreamEntry.ofMutation (s.add now m).lastId m).parse ns, ?_, rfl, rfl⟩
    rw [entriesAt_write_self]
    exact mem_map_of_mem (mem_append_right _ mem_cons_self)

def growing (B : Type) : Protocol (Redis B) where
  inv _ := True
  rely := Grows
  guar := Grows
  rely_refl := .refl
  rely_trans := .trans
  guar_refl := .refl

lemma safe_push (ms : List (EncryptedMutation B)) (db : Redis B) :
    Safe (Redis.machine NewId) (growing B)
      (fun r db' => ∀ seqs, r = .ok seqs → List.Forall₂ (Present db' ns) ms seqs) (push ns ms) db := by
  induction ms generalizing db with
  | nil =>
    rintro db' - - _ ⟨⟩
    exact .nil
  | cons m ms ih =>
    intro db1 _ _ e hnew
    refine ⟨trivial, Connection.reply_holds (.refl db1) (grows_sadd _ _), ?_⟩
    refine safe_reply (fun _ _ => nofun) fun isNew hadd => ?_
    have hone : isNew ≠ 0 := by
      rintro rfl
      obtain ⟨s, hs, hmem⟩ := sadd_ok_zero hadd
      exact hnew s hs hmem
    rw [if_neg hone]
    intro db2 _ _ e' _
    refine ⟨trivial, Connection.reply_holds (.refl db2) (grows_xadd _ _ _), ?_⟩
    refine safe_reply (fun _ _ => nofun) fun id hid => ?_
    have hrest := (ih (db2.xadd (streamKey ns) e'.now m).2).frame
      (F := fun db' => Present db' ns m (streamIdToSeq id))
      (fun _ _ hg hp => hp.mono (or_self_iff.1 hg)) (present_xadd hid)
    refine Safe.bind trivial hrest (fun seqs db3 _ hseqs => ?_) fun err db3 _ _ => nofun
    rintro db4 - hg _ ⟨⟩
    exact .cons (hseqs.2.mono hg) ((hseqs.1 seqs rfl).imp fun _ _ hp => hp.mono hg)

def acknowledging (B : Type) : System.Proof (pushes (B := B) NewId) where
  inv _ := True
  protocol _ := growing B
  post c r db := ∀ seqs, r = .ok seqs → List.Forall₂ (Present db c.1) c.2 seqs
  together _ _ := True
  inv_iff _ _ := Iff.rfl
  env_safe _ _ _ h := h.elim
  guar_rely _ _ _ _ _ _ _ hg := hg
  start_together _ _ _ _ _ _ _ := ⟨trivial, trivial⟩
  safe c _ db _ _ := safe_push c.2 db

/-- **Acknowledgements.** In every run in which no push adds an id that is in the set already, a
push that has returned sequences has each of its mutations in the stream under its own. -/
theorem present_of_acknowledged {q : Pool ⟨RedisCommand B, RedisCommand.Ans⟩ Unit CoordinatorError
      (Redis B) (String × List (EncryptedMutation B)) (List ℕ)}
    (hrun : (pushes NewId).Reachable ⟨[], db⟩ q) {ms : List (EncryptedMutation B)} {seqs : List ℕ}
    (hret : ((ns, ms), .ofExcept (.ok seqs)) ∈ q.tasks) :
    List.Forall₂ (Present q.state ns) ms seqs :=
  (acknowledging B).post_of_reachable trivial hrun hret seqs rfl

/-! ## One mutation -/

def oneMutation : String × List (EncryptedMutation Unit) :=
  ("a", [⟨"m", "a", "r", "d", "x", (), 0, 0, 1⟩])

def pushOne (allow : RedisCommand Unit → RedisEnv → Redis Unit → Prop) (es : List RedisEnv)
    (db : Redis Unit) : Except CoordinatorError (List ℕ) × Redis Unit :=
  run (Redis.machine allow) (push oneMutation.1 oneMutation.2) es db

theorem present_oneMutation :
    let o := pushOne NewId [] fun _ => none
    o.1 = .ok [1] ∧ List.Forall₂ (Present o.2 oneMutation.1) oneMutation.2 [1] := by
  intro o
  have hallowed : Allowed (Redis.machine NewId) (push oneMutation.1 oneMutation.2) []
      fun _ => none := by
    refine ⟨?_, trivial, trivial⟩
    rintro s ⟨⟩
    exact not_mem_nil
  have hrun : (pushes NewId).Reachable ⟨[], fun _ => none⟩ ⟨[(oneMutation, .ofExcept o.1)], o.2⟩ :=
    System.reachable_started [] trivial hallowed.outcome
  exact ⟨by rfl, present_of_acknowledged hrun mem_cons_self⟩

def lostAfterSadd : List RedisEnv := [default, { (default : RedisEnv) with fault := some "broken pipe" }]

/-- The first attempt fails after its first command. The retry is acknowledged with sequence 0, and
the mutation is nowhere. -/
theorem retry_acknowledged_and_lost :
    let first := pushOne (fun _ _ _ => True) lostAfterSadd fun _ => none
    let second := pushOne (fun _ _ _ => True) [] first.2
    first.1 = .error (.internal "broken pipe") ∧ second.1 = .ok [0] ∧
      (pushes fun _ _ _ => True).Reachable ⟨[], fun _ => none⟩
        ⟨[(oneMutation, .ofExcept second.1), (oneMutation, .ofExcept first.1)], second.2⟩ ∧
      ¬ List.Forall₂ (Present second.2 oneMutation.1) oneMutation.2 [0] := by
  intro first second
  have houtcome : ∀ es db, Outcome (Redis.machine fun _ _ _ => True)
      (push oneMutation.1 oneMutation.2) db (pushOne (fun _ _ _ => True) es db).1
        (pushOne (fun _ _ _ => True) es db).2 :=
    fun es db => run_outcome _ es db fun _ _ => ⟨trivial, fun _ _ => trivial⟩
  refine ⟨by rfl, by rfl, ?_, ?_⟩
  · exact (System.reachable_started [] trivial (houtcome _ _)).trans
      (System.reachable_started [(oneMutation, .ofExcept first.1)] trivial (houtcome _ _))
  · intro h
    obtain ⟨p, hp, -⟩ := (List.forall₂_cons.1 h).1
    have hnone : entriesAt second.2 (streamKey oneMutation.1) = [] := by rfl
    rw [hnone] at hp
    exact nomatch hp

end VaultSync.RedisCoordinator
