import Mathlib.Data.List.Find
import Mathlib.Order.Iterate
import VaultSync.Coordinator.SqliteTables

/-! One namespace of the SQLite coordinator, with and without the calls on the others. -/

namespace VaultSync.Isolation

open SQLiteCoordinator SQLiteDatabase PagedLog Row

variable {B : Type}

inductive Call (B : Type) where
  | push (mutations : List (EncryptedMutation B))
  | pull (after limit : ℕ)
  | register (info : ReplicaInfo B) (now : ℕ)
  | updateReplicaKey (replicaId : String) (publicKey : B) (keyVersion : ℕ)
  | getReplicaKey (replicaId : String)
  | listReplicas

structure Request (B : Type) where
  «namespace» : String
  fault : Option String
  call : Call B

inductive Reply (B : Type) where
  | sequences (r : Except CoordinatorError (List ℕ))
  | mutations (r : Except CoordinatorError (List (PendingMutation B)))
  | done (r : Except CoordinatorError Unit)
  | key (r : Except CoordinatorError (Option (B × ℕ)))
  | replicas (r : Except CoordinatorError (List (ReplicaInfo B)))
  deriving DecidableEq

def perform (auto : AutoIncrement) (db : SQLiteDatabase B) (ns : String) (fault : Option String) :
    Call B → Reply B × SQLiteDatabase B
  | .push ms => ((db.push fault ns auto ms).map Reply.sequences id)
  | .pull after limit => (.mutations (db.pull fault ns after limit), db)
  | .register info now => (db.register fault ns info now).map Reply.done id
  | .updateReplicaKey replicaId publicKey keyVersion =>
    (db.updateReplicaKey fault ns replicaId publicKey keyVersion).map Reply.done id
  | .getReplicaKey replicaId => (.key (db.getReplicaKey fault ns replicaId), db)
  | .listReplicas => (.replicas (db.listReplicas fault ns), db)

variable (ns : String) (c : SQLiteCoordinator B)

def own : List (Row B) :=
  c.rows.filter fun r => r.namespace = ns

def Reply.positions : Reply B → Reply B
  | .sequences r => .sequences (r.map fun qs => qs.map (rank Row.sequence (own ns c)))
  | .mutations r => .mutations (r.map fun ms => ms.map fun m =>
      { m with sequence := rank Row.sequence (own ns c) m.sequence })
  | r => r

structure Pair (B : Type) where
  together : SQLiteDatabase B
  alone : SQLiteDatabase B

/-- The call as it is made without the other namespaces: a cursor stands for the same position. A
cursor that SQLite does not take stays as it is. -/
def Call.moved (s : Pair B) : Call B → Call B
  | .pull after limit => .pull (if 2 ^ 63 ≤ after then after else
      keyAt Row.sequence (own ns s.alone.mutations)
        (rank Row.sequence (own ns s.together.mutations) after)) limit
  | c => c

section runs

variable (auto auto' : AutoIncrement) (s : Pair B) (r : Request B)

def step : Pair B where
  together := (perform auto s.together r.namespace r.fault r.call).2
  alone :=
    if r.namespace = ns then (perform auto' s.alone ns r.fault (r.call.moved ns s)).2 else s.alone

def reply : Reply B × Reply B :=
  ((perform auto s.together ns r.fault r.call).1.positions ns
      (step ns auto auto' s r).together.mutations,
    (perform auto' s.alone ns r.fault (r.call.moved ns s)).1.positions ns
      (step ns auto auto' s r).alone.mutations)

def replies (s : Pair B) : List (Request B) → List (Reply B × Reply B)
  | [] => []
  | r :: rs =>
    if r.namespace = ns then reply ns auto auto' s r :: replies (step ns auto auto' s r) rs
    else replies (step ns auto auto' s r) rs

def Room (auto : AutoIncrement) (c : SQLiteCoordinator B) (n : ℕ) : Prop :=
  auto.1^[n] c.lastSequence < 2 ^ 63

/-- What is pushed to the namespace is not stored for another one, and what registers with another
one is not registered with the namespace. -/
def Ok : Prop :=
  match r.call with
  | .push ms => r.namespace = ns →
      (∀ m ∈ ms, ∀ row ∈ s.together.mutations.rows, row.id = m.id → row.namespace = ns) ∧
        Room auto s.together.mutations ms.length ∧ Room auto' s.alone.mutations ms.length
  | .register info _ => r.namespace ≠ ns →
      ∀ row ∈ s.together.replicas, row.namespace = ns → row.replicaId ≠ info.replicaId
  | _ => True

def AllOk (s : Pair B) : List (Request B) → Prop
  | [] => True
  | r :: rs => Ok ns auto auto' s r ∧ AllOk (step ns auto auto' s r) rs

instance (c : SQLiteCoordinator B) (n : ℕ) : Decidable (Room auto c n) := Nat.decLt _ _

instance : (r : Request B) → Decidable (Ok ns auto auto' s r)
  | ⟨ns', _, .push ms⟩ => inferInstanceAs (Decidable (ns' = ns →
      (∀ m ∈ ms, ∀ row ∈ s.together.mutations.rows, row.id = m.id → row.namespace = ns) ∧
        Room auto s.together.mutations ms.length ∧ Room auto' s.alone.mutations ms.length))
  | ⟨ns', _, .register info _⟩ => inferInstanceAs (Decidable (ns' ≠ ns →
      ∀ row ∈ s.together.replicas, row.namespace = ns → row.replicaId ≠ info.replicaId))
  | ⟨_, _, .pull _ _⟩ | ⟨_, _, .updateReplicaKey _ _ _⟩ | ⟨_, _, .getReplicaKey _⟩
  | ⟨_, _, .listReplicas⟩ => isTrue trivial

instance decidableAllOk : (requests : List (Request B)) → (s : Pair B) →
    Decidable (AllOk ns auto auto' s requests)
  | [], _ => isTrue trivial
  | r :: rs, s =>
    have := decidableAllOk rs (step ns auto auto' s r)
    inferInstanceAs (Decidable (Ok ns auto auto' s r ∧ AllOk ns auto auto' _ rs))

end runs

/-! ## Rows that differ in their sequences -/

def SameRow (r r' : Row B) : Prop := ∃ q, r' = { r with sequence := q }

variable (c' : SQLiteCoordinator B)

def Paired (q q' : ℕ) : Prop :=
  ∃ (i : ℕ) (r r' : Row B), (own ns c)[i]? = some r ∧ (own ns c')[i]? = some r' ∧
    r.sequence = q ∧ r'.sequence = q'

structure Alike : Prop where
  rows : List.Forall₂ SameRow (own ns c) (own ns c')
  only : ∀ r ∈ c'.rows, r.namespace = ns

lemma own_sorted : (own ns c).Pairwise fun a b => a.sequence < b.sequence := c.sorted.filter _

variable {ns c c'} {auto auto' : AutoIncrement} {c₁ c₁' : SQLiteCoordinator B}

lemma Paired.rank_eq {q q' : ℕ} (h : Paired ns c c' q q') :
    rank sequence (own ns c) q = rank sequence (own ns c') q' := by
  obtain ⟨i, r, r', hr, hr', rfl, rfl⟩ := h
  rw [rank_key (own_sorted ns c) hr, rank_key (own_sorted ns c') hr']

lemma getElem?_of_prefix {α : Type} {l l' : List α} (h : l <+: l') {i : ℕ} {a : α}
    (ha : l[i]? = some a) : l'[i]? = some a := by
  obtain ⟨hi, rfl⟩ := List.getElem?_eq_some_iff.1 ha
  exact List.prefix_iff_getElem?.1 h i hi

lemma Paired.mono {q q' : ℕ} (h : Paired ns c c' q q') (hp : own ns c <+: own ns c₁)
    (hp' : own ns c' <+: own ns c₁') : Paired ns c₁ c₁' q q' := by
  obtain ⟨i, r, r', hr, hr', hq, hq'⟩ := h
  exact ⟨i, r, r', getElem?_of_prefix hp hr, getElem?_of_prefix hp' hr', hq, hq'⟩

lemma find_forall2 {l l' : List (Row B)} (h : List.Forall₂ SameRow l l') (id : String) :
    (l.find? (fun r => r.id = id) = none ∧ l'.find? (fun r => r.id = id) = none) ∨
      ∃ (i : ℕ) (r r' : Row B), l[i]? = some r ∧ l'[i]? = some r' ∧
        l.find? (fun r => r.id = id) = some r ∧ l'.find? (fun r => r.id = id) = some r' := by
  induction h with
  | nil => exact .inl ⟨rfl, rfl⟩
  | @cons a a' l l' ha hl ih =>
    obtain ⟨q, rfl⟩ := ha
    by_cases hid : a.id = id
    · refine .inr ⟨0, a, _, rfl, rfl, ?_, ?_⟩
      · exact List.find?_cons_of_pos (decide_eq_true hid)
      · exact List.find?_cons_of_pos (decide_eq_true hid)
    · rw [List.find?_cons_of_neg (by simpa using hid), List.find?_cons_of_neg (by simpa using hid)]
      refine ih.imp_right fun ⟨i, r, r', hr, hr', hfind⟩ => ?_
      exact ⟨i + 1, r, r', hr, hr', hfind⟩

lemma find_own {id : String} (h : ∀ r ∈ c.rows, r.id = id → r.namespace = ns) :
    c.rows.find? (fun r => r.id = id) = (own ns c).find? fun r => r.id = id := by
  rw [own, List.find?_filter]
  refine List.find?_congr fun r hr => ?_
  by_cases hid : r.id = id
  · simp [hid, h r hr hid]
  · simp [hid]

/-! ## Push -/

lemma Room.next {n : ℕ} (h : Room auto c (n + 1)) : auto.1 c.lastSequence < 2 ^ 63 :=
  (Function.id_le_iterate_of_id_le (fun q => (auto.2 q).le) n _).trans_lt h

lemma Room.insertOrIgnore {n : ℕ} (h : Room auto c (n + 1)) {m : EncryptedMutation B} {q : ℕ}
    (hins : c.insertOrIgnore auto ns m = .ok (q, c₁)) : Room auto c₁ n := by
  unfold SQLiteCoordinator.insertOrIgnore at hins
  split at hins
  · cases hins
    have hlt : auto.1^[n] c.lastSequence < auto.1^[n + 1] c.lastSequence := by
      rw [Function.iterate_succ_apply']
      exact auto.2 _
    exact hlt.trans h
  · rw [dif_pos h.next] at hins
    cases hins
    exact h

lemma own_append (c : SQLiteCoordinator B) {q : ℕ} {m : EncryptedMutation B}
    (hq : c.lastSequence < q) (hmax : q < 2 ^ 63) :
    own ns (c.append ns q m hq hmax) = own ns c ++ [row ns q m] := by
  have hown : (row ns q m).namespace = ns := rfl
  rw [own, append, List.filter_append, List.filter_cons_of_pos (by simpa using hown)]
  rfl

lemma Alike.insertOrIgnore (h : Alike ns c c') {m : EncryptedMutation B}
    (hid : ∀ r ∈ c.rows, r.id = m.id → r.namespace = ns)
    (hnext : auto.1 c.lastSequence < 2 ^ 63) (hnext' : auto'.1 c'.lastSequence < 2 ^ 63) :
    ∃ q c₁ q' c₁', c.insertOrIgnore auto ns m = .ok (q, c₁) ∧
      c'.insertOrIgnore auto' ns m = .ok (q', c₁') ∧ Alike ns c₁ c₁' ∧ Paired ns c₁ c₁' q q' := by
  have hfind := find_own hid
  have hfind' : c'.rows.find? (fun r => r.id = m.id) = _ := find_own fun r hr _ => h.only r hr
  unfold SQLiteCoordinator.insertOrIgnore
  rw [hfind, hfind']
  rcases find_forall2 h.rows m.id with ⟨hnone, hnone'⟩ | ⟨i, r, r', hr, hr', hsome, hsome'⟩
  · rw [hnone, hnone']
    simp only [dif_pos hnext, dif_pos hnext']
    refine ⟨_, _, _, _, rfl, rfl, ⟨?_, fun r hr => ?_⟩, (own ns c).length, row ns _ m, row ns _ m,
      ?_, ?_, rfl, rfl⟩
    · rw [own_append, own_append]
      exact List.rel_append h.rows (.cons ⟨auto'.1 c'.lastSequence, by simp [row]⟩ .nil)
    · rcases List.mem_append.1 hr with hr | hr
      · exact h.only r hr
      · rw [List.mem_singleton.1 hr]
        rfl
    · rw [own_append, List.getElem?_concat_length]
    · rw [own_append, h.rows.length_eq, List.getElem?_concat_length]
  · rw [hsome, hsome']
    exact ⟨_, _, _, _, rfl, rfl, h, i, r, r', hr, hr', rfl, rfl⟩

lemma own_insertAll {ms : List (EncryptedMutation B)} {qs : List ℕ}
    (h : c.insertAll auto ns ms = .ok (qs, c₁)) : own ns c <+: own ns c₁ :=
  (rows_insertAll h).filter _

lemma Alike.insertAll (h : Alike ns c c') {ms : List (EncryptedMutation B)}
    (hid : ∀ m ∈ ms, ∀ r ∈ c.rows, r.id = m.id → r.namespace = ns)
    (hroom : Room auto c ms.length) (hroom' : Room auto' c' ms.length) :
    ∃ qs c₁ qs' c₁', c.insertAll auto ns ms = .ok (qs, c₁) ∧
      c'.insertAll auto' ns ms = .ok (qs', c₁') ∧ Alike ns c₁ c₁' ∧
      List.Forall₂ (Paired ns c₁ c₁') qs qs' := by
  induction ms generalizing c c' with
  | nil => exact ⟨[], c, [], c', rfl, rfl, h, .nil⟩
  | cons m ms ih =>
    obtain ⟨hm, hms⟩ := List.forall_mem_cons.1 hid
    obtain ⟨q, c₁, q', c₁', hins, hins', h1, hq⟩ := h.insertOrIgnore hm hroom.next hroom'.next
    have hid1 : ∀ m' ∈ ms, ∀ r ∈ c₁.rows, r.id = m'.id → r.namespace = ns := by
      intro m' hm' r hr heq
      rcases insertOrIgnore_ok hins with ⟨rfl, -⟩ | ⟨hrows, -⟩
      · exact hms m' hm' r hr heq
      · rw [hrows, List.mem_append, List.mem_singleton] at hr
        rcases hr with hr | rfl
        · exact hms m' hm' r hr heq
        · rfl
    obtain ⟨qs, c2, qs', c2', hall, hall', h2, hqs⟩ :=
      ih h1 hid1 (hroom.insertOrIgnore hins) (hroom'.insertOrIgnore hins')
    refine ⟨q :: qs, c2, q' :: qs', c2', ?_, ?_, h2, ?_⟩
    · simp [SQLiteCoordinator.insertAll, hins, hall, bind, Except.bind, pure, Except.pure]
    · simp [SQLiteCoordinator.insertAll, hins', hall', bind, Except.bind, pure, Except.pure]
    · exact .cons (hq.mono (own_insertAll hall) (own_insertAll hall')) hqs

/-! ## Pull -/

lemma Alike.paired (h : Alike ns c c') :
    List.Forall₂ (fun r r' => SameRow r r' ∧
      rank sequence (own ns c) r.sequence = rank sequence (own ns c') r'.sequence)
      (own ns c) (own ns c') := by
  rw [List.forall₂_iff_get]
  refine ⟨h.rows.length_eq, fun i hi hi' => ⟨h.rows.get hi hi', ?_⟩⟩
  have hr : (own ns c)[i]? = some ((own ns c).get ⟨i, hi⟩) := List.getElem?_eq_getElem hi
  have hr' : (own ns c')[i]? = some ((own ns c').get ⟨i, hi'⟩) := List.getElem?_eq_getElem hi'
  exact Paired.rank_eq ⟨i, _, _, hr, hr', rfl, rfl⟩

lemma decodeAll_forall2 {f f' : ℕ → ℕ} {l l' : List (Row B)}
    (h : List.Forall₂ (fun r r' => SameRow r r' ∧ f r.sequence = f' r'.sequence) l l') :
    (decodeAll l).map (fun ms => ms.map fun m => { m with sequence := f m.sequence }) =
      (decodeAll l').map fun ms => ms.map fun m => { m with sequence := f' m.sequence } := by
  induction h with
  | nil => rfl
  | @cons r r' l l' hr hl ih =>
    obtain ⟨⟨q, rfl⟩, hq⟩ := hr
    unfold decodeAll decode
    split_ifs with htime hversion
    · rfl
    · rfl
    · cases hdec : decodeAll l with
      | error e =>
        rw [hdec] at ih
        cases hdec' : decodeAll l' with
        | error e' => rw [hdec'] at ih; cases ih; rfl
        | ok ms' => rw [hdec'] at ih; cases ih
      | ok ms =>
        rw [hdec] at ih
        cases hdec' : decodeAll l' with
        | error e' => rw [hdec'] at ih; cases ih
        | ok ms' =>
          rw [hdec'] at ih
          have htail := Except.ok.inj ih
          simp [bind, Except.bind, pure, Except.pure, Except.map, htail, toPending, hq]

lemma keyAt_lt (c : SQLiteCoordinator B) (n : ℕ) : keyAt sequence (own ns c) n < 2 ^ 63 := by
  unfold keyAt
  by_cases hnil : (own ns c).take n = []
  · rw [hnil, cursor_nil]
    exact Nat.two_pow_pos 63
  · obtain ⟨r, hr, hq⟩ := @cursor_mem _ sequence _ 0 hnil
    rw [← hq]
    have hrow : r ∈ c.rows := List.mem_of_mem_filter (List.mem_of_mem_take hr)
    exact (c.seq_le r hrow).trans_lt c.lastSequence_lt

lemma rows_after_eq_drop (c : SQLiteCoordinator B) (ns : String) (after : ℕ) :
    (c.rows.filter fun r => r.namespace = ns ∧ after < r.sequence) =
      (own ns c).drop (rank sequence (own ns c) after) :=
  (rows_after c ns after).trans (after_eq_drop (own_sorted ns c))

lemma Alike.pull (h : Alike ns c c') {after after' limit : ℕ}
    (hrange : 2 ^ 63 ≤ after ↔ 2 ^ 63 ≤ after')
    (hafter : after < 2 ^ 63 → rank sequence (own ns c) after = rank sequence (own ns c') after') :
    (c.pull ns after limit).map (fun ms => ms.map fun m =>
        { m with sequence := rank sequence (own ns c) m.sequence }) =
      (c'.pull ns after' limit).map fun ms => ms.map fun m =>
        { m with sequence := rank sequence (own ns c') m.sequence } := by
  unfold SQLiteCoordinator.pull
  simp only [← hrange]
  split_ifs with hbig
  · rfl
  · have hsmall : after < 2 ^ 63 := not_le.1 fun hle => hbig (.inl hle)
    rw [rows_after_eq_drop, rows_after_eq_drop, hafter hsmall]
    exact decodeAll_forall2 (List.forall₂_take _ (List.forall₂_drop _ h.paired))

lemma Alike.rank_moved (h : Alike ns c c') (after : ℕ) :
    rank sequence (own ns c') (keyAt sequence (own ns c')
      (rank sequence (own ns c) after)) = rank sequence (own ns c) after := by
  refine rank_keyAt (own_sorted ns c') (fun r hr => c'.seq_pos r (List.mem_of_mem_filter hr)) ?_
  rw [← h.rows.length_eq]
  exact List.length_filter_le _ _

/-! ## Replicas -/

def registered (ns : String) (db : SQLiteDatabase B) : List (ReplicaRow B) :=
  db.replicas.filter fun r => r.namespace = ns

section

variable (db : SQLiteDatabase B)

lemma find_registered (ns replicaId : String) :
    db.replicas.find? (fun r => r.namespace = ns ∧ r.replicaId = replicaId) =
      (registered ns db).find? fun r => r.replicaId = replicaId := by
  rw [registered, List.find?_filter]
  simp [Bool.decide_and, Bool.decide_eq_true]

lemma registered_register (fault : Option String) (ns : String) (info : ReplicaInfo B) (now : ℕ) :
    registered ns (db.register fault ns info now).2 = if fault = none then
      (registered ns db).filter (fun r => r.replicaId ≠ info.replicaId) ++ [replicaRow ns info now]
    else registered ns db := by
  cases fault with
  | some msg => rfl
  | none =>
    have hown : (replicaRow ns info now).namespace = ns := rfl
    rw [if_pos rfl, registered, register, unlessFault, raiseSchemaVersion, replaceReplica,
      List.filter_append, List.filter_cons_of_pos (by simpa using hown), List.filter_nil, registered,
      List.filter_filter, List.filter_filter]
    refine congrArg (· ++ _) (List.filter_congr fun r _ => ?_)
    rw [Bool.and_comm]
    rfl

lemma registered_register_of_ne {db : SQLiteDatabase B} {ns' : String} (hne : ns' ≠ ns)
    {info : ReplicaInfo B}
    (hid : ∀ row ∈ db.replicas, row.namespace = ns → row.replicaId ≠ info.replicaId)
    (fault : Option String) (now : ℕ) :
    registered ns (db.register fault ns' info now).2 = registered ns db := by
  cases fault with
  | some msg => rfl
  | none =>
    have hother : ¬ (replicaRow ns' info now).namespace = ns := hne
    rw [registered, register, unlessFault, raiseSchemaVersion, replaceReplica, List.filter_append,
      List.filter_cons_of_neg (by simpa using hother), List.filter_nil, List.append_nil,
      List.filter_filter]
    refine List.filter_congr fun row hrow => ?_
    by_cases hns : row.namespace = ns
    · simp [hns, replicaRow, hid row hrow hns]
    · simp [hns]

lemma registered_updateReplicaKey (ns' replicaId : String) (publicKey : B) (keyVersion : ℕ) :
    registered ns (db.updateReplicaKey none ns' replicaId publicKey keyVersion).2 =
      (registered ns db).map fun r => if r.namespace = ns' ∧ r.replicaId = replicaId then
        { r with publicKey := publicKey, keyVersion := asI64 keyVersion } else r := by
  rw [registered, updateReplicaKey, unlessFault, updateReplica, List.filter_map, registered]
  refine congrArg (List.map _) (List.filter_congr fun r _ => ?_)
  rw [Function.comp_apply]
  split <;> rfl

end

/-! ## Runs -/

structure Rel (ns : String) (db db' : SQLiteDatabase B) : Prop where
  mutations : Alike ns db.mutations db'.mutations
  replicas : registered ns db = registered ns db'

variable {db db' : SQLiteDatabase B} {fault : Option String}

lemma Rel.new : Rel ns (new : SQLiteDatabase B) new where
  mutations := ⟨.nil, nofun⟩
  replicas := rfl

lemma Rel.push (h : Rel ns db db') {ms : List (EncryptedMutation B)}
    (hid : ∀ m ∈ ms, ∀ row ∈ db.mutations.rows, row.id = m.id → row.namespace = ns)
    (hroom : Room auto db.mutations ms.length) (hroom' : Room auto' db'.mutations ms.length) :
    Rel ns (db.push fault ns auto ms).2 (db'.push fault ns auto' ms).2 ∧
      (db.push fault ns auto ms).1.map
          (fun qs => qs.map (rank sequence (own ns (db.push fault ns auto ms).2.mutations))) =
        (db'.push fault ns auto' ms).1.map
          (fun qs => qs.map
            (rank sequence (own ns (db'.push fault ns auto' ms).2.mutations))) := by
  cases fault with
  | some msg => exact ⟨h, rfl⟩
  | none =>
    obtain ⟨qs, c₁, qs', c₁', hins, hins', h1, hqs⟩ := h.mutations.insertAll hid hroom hroom'
    simp only [SQLiteDatabase.push, SQLiteCoordinator.push, hins, hins', Except.map, Except.ok.injEq]
    refine ⟨⟨h1, h.replicas⟩, ?_⟩
    rw [← List.forall₂_eq_eq_eq, List.forall₂_map_left_iff, List.forall₂_map_right_iff]
    exact hqs.imp fun _ _ => Paired.rank_eq

lemma mutations_register (db : SQLiteDatabase B) (fault : Option String) (ns' : String)
    (info : ReplicaInfo B) (now : ℕ) :
    (db.register fault ns' info now).2.mutations = db.mutations := by
  cases fault <;> rfl

lemma Rel.register (h : Rel ns db db') (info : ReplicaInfo B) (now : ℕ) :
    Rel ns (db.register fault ns info now).2 (db'.register fault ns info now).2 ∧
      (db.register fault ns info now).1 = (db'.register fault ns info now).1 := by
  refine ⟨⟨?_, ?_⟩, ?_⟩
  · rw [mutations_register, mutations_register]
    exact h.mutations
  · rw [registered_register, registered_register, h.replicas]
  · cases fault <;> rfl

lemma Rel.updateReplicaKey (h : Rel ns db db') (replicaId : String) (publicKey : B)
    (keyVersion : ℕ) :
    Rel ns (db.updateReplicaKey fault ns replicaId publicKey keyVersion).2
        (db'.updateReplicaKey fault ns replicaId publicKey keyVersion).2 ∧
      (db.updateReplicaKey fault ns replicaId publicKey keyVersion).1 =
        (db'.updateReplicaKey fault ns replicaId publicKey keyVersion).1 := by
  cases fault with
  | some msg => exact ⟨h, rfl⟩
  | none =>
    refine ⟨⟨h.mutations, ?_⟩, rfl⟩
    rw [registered_updateReplicaKey, registered_updateReplicaKey, h.replicas]

section

variable {s : Pair B} {r : Request B} (h : Rel ns s.together s.alone) (hok : Ok ns auto auto' s r)

include h hok

lemma Rel.other (hns : r.namespace ≠ ns) :
    Rel ns (perform auto s.together r.namespace r.fault r.call).2 s.alone := by
  obtain ⟨ns', fault, call⟩ := r
  cases call with
  | push ms =>
    cases hpush : s.together.push fault ns' auto ms with
    | mk reply db' =>
      have hdb : (perform auto s.together ns' fault (.push ms)).2 = db' := congrArg Prod.snd hpush
      rw [hdb]
      cases reply with
      | error e =>
        rw [push_error hpush]
        exact h
      | ok seqs =>
        obtain ⟨c, hins, rfl⟩ := push_ok hpush
        have hown : own ns c = own ns s.together.mutations :=
          filter_insertAll_of_ne hins (Ne.symm hns)
        exact ⟨⟨hown ▸ h.mutations.rows, h.mutations.only⟩, h.replicas⟩
  | pull after limit => exact h
  | register info now =>
    refine ⟨?_, (registered_register_of_ne hns (hok hns) fault now).trans h.replicas⟩
    exact (mutations_register _ _ _ _ _).symm ▸ h.mutations
  | updateReplicaKey replicaId publicKey keyVersion =>
    cases fault with
    | some msg => exact h
    | none =>
      refine ⟨h.mutations, (registered_updateReplicaKey ..).trans (Eq.trans ?_ h.replicas)⟩
      refine (List.map_congr_left fun r hr => ?_).trans (List.map_id _)
      have hr : r.namespace = ns := of_decide_eq_true (List.mem_filter.1 hr).2
      exact if_neg fun h => hns (h.1.symm.trans hr)
  | getReplicaKey replicaId => exact h
  | listReplicas => exact h

lemma Rel.self (hns : r.namespace = ns) :
    Rel ns (step ns auto auto' s r).together (step ns auto auto' s r).alone ∧
      (reply ns auto auto' s r).1 = (reply ns auto auto' s r).2 := by
  obtain ⟨ns', fault, call⟩ := r
  obtain rfl : ns' = ns := hns
  simp only [reply, step, if_true]
  cases call with
  | push ms =>
    obtain ⟨hid, hroom, hroom'⟩ := hok rfl
    obtain ⟨hrel, hreply⟩ := @Rel.push _ _ _ _ _ _ fault h _ hid hroom hroom'
    exact ⟨hrel, congrArg Reply.sequences hreply⟩
  | pull after limit =>
    refine ⟨h, congrArg Reply.mutations ?_⟩
    cases fault with
    | some msg => rfl
    | none =>
      refine h.mutations.pull ?_ ?_
      · split_ifs with hbig
        · exact Iff.rfl
        · exact ⟨fun hle => absurd hle hbig, fun hle => absurd (keyAt_lt _ _) (not_lt.2 hle)⟩
      · intro hsmall
        rw [if_neg (not_le.2 hsmall), h.mutations.rank_moved]
  | register info now =>
    obtain ⟨hrel, hreply⟩ := @Rel.register _ _ _ _ fault h info now
    exact ⟨hrel, congrArg Reply.done hreply⟩
  | updateReplicaKey replicaId publicKey keyVersion =>
    obtain ⟨hrel, hreply⟩ := @Rel.updateReplicaKey _ _ _ _ fault h replicaId publicKey keyVersion
    exact ⟨hrel, congrArg Reply.done hreply⟩
  | getReplicaKey replicaId =>
    refine ⟨h, congrArg Reply.key ?_⟩
    cases fault with
    | some msg => rfl
    | none => simp only [SQLiteDatabase.getReplicaKey, find_registered, h.replicas]
  | listReplicas =>
    refine ⟨h, congrArg Reply.replicas ?_⟩
    cases fault with
    | some msg => rfl
    | none => exact congrArg (fun rows => Except.ok (List.map ReplicaRow.info rows)) h.replicas

lemma Rel.step : Rel ns (step ns auto auto' s r).together (step ns auto auto' s r).alone := by
  by_cases hns : r.namespace = ns
  · exact (h.self hok hns).1
  · have halone : (Isolation.step ns auto auto' s r).alone = s.alone := if_neg hns
    rw [halone]
    exact h.other hok hns

end

lemma Rel.replies {requests : List (Request B)} {s : Pair B} (h : Rel ns s.together s.alone)
    (hok : AllOk ns auto auto' s requests) : ∀ p ∈ replies ns auto auto' s requests, p.1 = p.2 := by
  induction requests generalizing s with
  | nil => exact nofun
  | cons r requests ih =>
    have hrest := ih (h.step hok.1) hok.2
    unfold Isolation.replies
    split_ifs with hns
    · exact List.forall_mem_cons.2 ⟨(h.self hok.1 hns).2, hrest⟩
    · exact hrest

/-- If no mutation is pushed to the namespace that is stored for another one, and no replica of the
namespace registers with another one, then the replies to the calls on the namespace are, up to the
numbers of sequences, those without the other calls. -/
theorem replies_alone {requests : List (Request B)}
    (hok : AllOk ns auto auto' ⟨new, new⟩ requests) :
    ∀ p ∈ replies ns auto auto' ⟨new, new⟩ requests, p.1 = p.2 :=
  Rel.new.replies hok

def oneByOne : AutoIncrement := ⟨(· + 1), Nat.lt_succ_self⟩

def sampleMutation (id : String) (blob : ℕ) : EncryptedMutation ℕ where
  id := id
  «namespace» := "a"
  replicaId := "r"
  docId := "d"
  recordId := "k"
  encryptedBlob := blob
  timestamp := 0
  schemaVersion := 1
  keyVersion := 1

def sampleReplica (replicaId : String) (publicKey : ℕ) : ReplicaInfo ℕ where
  replicaId := replicaId
  «namespace» := "a"
  publicKey := publicKey
  schemaVersion := 1

def sampleRequests : List (Request ℕ) :=
  [⟨"b", none, .push [sampleMutation "x" 1]⟩,
    ⟨"a", none, .push [sampleMutation "y" 2, sampleMutation "y" 3]⟩,
    ⟨"b", none, .register (sampleReplica "q" 1) 0⟩,
    ⟨"a", none, .register (sampleReplica "r" 2) 0⟩,
    ⟨"a", none, .pull 0 10⟩,
    ⟨"a", none, .getReplicaKey "r"⟩]

theorem replies_alone_sampleRequests :
    AllOk "a" oneByOne oneByOne ⟨new, new⟩ sampleRequests ∧
      ∀ p ∈ replies "a" oneByOne oneByOne ⟨new, new⟩ sampleRequests, p.1 = p.2 :=
  ⟨by decide, replies_alone (by decide)⟩

/-- A mutation with an id that the other namespace has is not stored; a replica that registers with
the other namespace is lost to the first. -/
theorem reply_of_other_namespace :
    replies "a" oneByOne oneByOne ⟨new, new⟩
        [⟨"b", none, .push [sampleMutation "x" 1]⟩, ⟨"a", none, .push [sampleMutation "x" 2]⟩,
          ⟨"a", none, .pull 0 10⟩] =
      [(.sequences (.ok [0]), .sequences (.ok [1])),
        (.mutations (.ok []), .mutations (.ok [
          { id := "x"
            «namespace» := "a"
            sequence := 1
            docId := "d"
            recordId := "k"
            encryptedBlob := 2
            timestamp := 0
            keyVersion := 1
            replicaId := "r" }]))] ∧
    replies "a" oneByOne oneByOne ⟨new, new⟩
        [⟨"a", none, .register (sampleReplica "r" 1) 0⟩,
          ⟨"b", none, .register (sampleReplica "r" 2) 0⟩, ⟨"a", none, .getReplicaKey "r"⟩] =
      [(.done (.ok ()), .done (.ok ())), (.key (.ok none), .key (.ok (some (1, 1))))] := by
  decide

end VaultSync.Isolation
