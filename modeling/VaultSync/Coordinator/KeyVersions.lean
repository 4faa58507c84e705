import VaultSync.Coordinator.SqliteTables

/-! The key of one replica at the SQLite coordinator, as it registers and rotates its keys. -/

namespace VaultSync.KeyVersions

open SQLiteCoordinator SQLiteDatabase

variable {B : Type}

inductive Call (B : Type) where
  | register (publicKey : B) (schemaVersion now : ℕ)
  | updateReplicaKey (publicKey : B) (keyVersion : ℕ)
  | heartbeat (now : ℕ)

def rotateKeys (publicKey : B) (version schemaVersion now : ℕ) : List (Call B) :=
  [.updateReplicaKey publicKey version, .register publicKey schemaVersion now]

/-- The database, and the key of the latest update, unless a register has carried another since. -/
structure Ledger (B : Type) where
  db : SQLiteDatabase B
  latest : Option (B × ℕ)

section calls

variable [DecidableEq B] (ns replicaId : String)

def register (l : Ledger B) (fault : Option String) (publicKey : B) (schemaVersion now : ℕ) :
    Ledger B :=
  match l.db.register fault ns
    { replicaId := replicaId
      «namespace» := ns
      publicKey := publicKey
      schemaVersion := schemaVersion } now with
  | (.ok (), db) => ⟨db, l.latest.filter fun e => e.1 = publicKey⟩
  | (.error _, db) => ⟨db, l.latest⟩

def updateReplicaKey (l : Ledger B) (fault : Option String) (publicKey : B) (keyVersion : ℕ) :
    Ledger B :=
  match l.db.updateReplicaKey fault ns replicaId publicKey keyVersion with
  | (.ok (), db) => ⟨db, some (publicKey, keyVersion)⟩
  | (.error _, db) => ⟨db, l.latest⟩

variable (l : Ledger B)

def step : Call B × Option String → Ledger B
  | (.register publicKey schemaVersion now, fault) =>
    register ns replicaId l fault publicKey schemaVersion now
  | (.updateReplicaKey publicKey keyVersion, fault) =>
    updateReplicaKey ns replicaId l fault publicKey keyVersion
  | (.heartbeat now, fault) => { l with db := (l.db.heartbeat fault ns replicaId now).2 }

def run (calls : List (Call B × Option String)) : Ledger B :=
  calls.foldl (step ns replicaId) l

def Current : Prop :=
  ∀ e ∈ l.latest, l.db.getReplicaKey none ns replicaId = .ok (some e)

def Registered (db : SQLiteDatabase B) : Prop :=
  ∃ r ∈ db.replicas, r.namespace = ns ∧ r.replicaId = replicaId

/-- The replica updates its key once it is registered, and does not register again with a key that
has got another version than 1. -/
def Ok : Call B → Prop
  | .register publicKey _ _ => ∀ e ∈ l.latest, e.1 = publicKey → e.2 = 1
  | .updateReplicaKey _ _ => Registered ns replicaId l.db
  | .heartbeat _ => True

instance (l : Ledger B) : (c : Call B) → Decidable (Ok ns replicaId l c)
  | .register publicKey _ _ =>
    inferInstanceAs (Decidable (∀ e ∈ l.latest, e.1 = publicKey → e.2 = 1))
  | .updateReplicaKey _ _ =>
    inferInstanceAs (Decidable (∃ r ∈ l.db.replicas, r.namespace = ns ∧ r.replicaId = replicaId))
  | .heartbeat _ => instDecidableTrue

def AllOk : Ledger B → List (Call B × Option String) → Prop
  | _, [] => True
  | l, c :: calls => (c.2 = none → Ok ns replicaId l c.1) ∧ AllOk (step ns replicaId l c) calls

instance decidableAllOk : (calls : List (Call B × Option String)) → (l : Ledger B) →
    Decidable (AllOk ns replicaId l calls)
  | [], _ => instDecidableTrue
  | c :: calls, l =>
    @instDecidableAnd _ _ inferInstance (decidableAllOk calls (step ns replicaId l c))

def AlwaysCurrent : Ledger B → List (Call B × Option String) → Prop
  | l, [] => Current ns replicaId l
  | l, c :: calls => Current ns replicaId l ∧ AlwaysCurrent (step ns replicaId l c) calls

end calls

/-! ## The key that is read -/

section reads

variable {ns replicaId : String} (db : SQLiteDatabase B)

lemma find_replaceReplica (row : ReplicaRow B) :
    ((db.replaceReplica row).replicas.find? fun r =>
      r.namespace = row.namespace ∧ r.replicaId = row.replicaId) = some row := by
  have hold : (db.replicas.filter fun r => r.replicaId ≠ row.replicaId).find?
      (fun r => r.namespace = row.namespace ∧ r.replicaId = row.replicaId) = none := by
    refine List.find?_eq_none.2 fun r hr => ?_
    have hne := of_decide_eq_true (List.mem_filter.1 hr).2
    simp [hne]
  change List.find? _ (_ ++ [row]) = _
  rw [List.find?_append, hold]
  simp

abbrev found (ns replicaId : String) (db : SQLiteDatabase B) : Option (ReplicaRow B) :=
  db.replicas.find? fun r => r.namespace = ns ∧ r.replicaId = replicaId

lemma find_updateReplica (ns replicaId : String) (f : ReplicaRow B → ReplicaRow B)
    (hf : ∀ r, (f r).replicaId = r.replicaId) (hns : ∀ r, (f r).namespace = r.namespace) :
    found ns replicaId (db.updateReplica ns replicaId f hf) = (found ns replicaId db).map f := by
  set g : ReplicaRow B → ReplicaRow B := fun r =>
    if r.namespace = ns ∧ r.replicaId = replicaId then f r else r
  have hpred : ((fun r => decide (r.namespace = ns ∧ r.replicaId = replicaId)) ∘ g) =
      fun r : ReplicaRow B => decide (r.namespace = ns ∧ r.replicaId = replicaId) := by
    funext r
    by_cases hr : r.namespace = ns ∧ r.replicaId = replicaId
    · have hg : g r = f r := if_pos hr
      rw [Function.comp_apply, hg, hf, hns]
    · have hg : g r = r := if_neg hr
      rw [Function.comp_apply, hg]
  change (db.replicas.map g).find? _ = _
  rw [List.find?_map, hpred]
  change (found ns replicaId db).map g = _
  cases hfind : found ns replicaId db with
  | none => rfl
  | some r =>
    have hr := List.find?_some (p := fun r : ReplicaRow B => r.namespace = ns ∧ r.replicaId = replicaId)
      hfind
    exact congrArg some (if_pos (of_decide_eq_true hr))

lemma getReplicaKey_eq : db.getReplicaKey none ns replicaId =
    .ok ((found ns replicaId db).map fun r => (r.publicKey, asU64 r.keyVersion)) := rfl

lemma getReplicaKey_updateReplicaKey (publicKey : B) {keyVersion : ℕ} (hv : keyVersion < 2 ^ 64) :
    (db.updateReplicaKey none ns replicaId publicKey keyVersion).2.getReplicaKey none ns replicaId =
      .ok ((found ns replicaId db).map fun _ => (publicKey, keyVersion)) := by
  rw [getReplicaKey_eq]
  have hfind := find_updateReplica db ns replicaId
    (fun r => { r with publicKey := publicKey, keyVersion := asI64 keyVersion }) (fun _ => rfl)
    fun _ => rfl
  refine congrArg Except.ok ((congrArg (Option.map _) hfind).trans ?_)
  simp only [Option.map_map, Function.comp_def, asU64_asI64 hv]

lemma registered_iff : Registered ns replicaId db ↔ (found ns replicaId db).isSome := by
  rw [List.find?_isSome]
  simp [Registered]

end reads

/-! ## Runs -/

section runs

variable {ns replicaId : String} {l : Ledger B}

lemma current_register_iff [DecidableEq B] (publicKey : B) (schemaVersion now : ℕ) :
    Current ns replicaId (register ns replicaId l none publicKey schemaVersion now) ↔
      Ok ns replicaId l (.register publicKey schemaVersion now) := by
  set info : ReplicaInfo B :=
    { replicaId := replicaId
      «namespace» := ns
      publicKey := publicKey
      schemaVersion := schemaVersion }
  have hread : (l.db.register none ns info now).2.getReplicaKey none ns replicaId =
      .ok (some (publicKey, 1)) := by
    rw [getReplicaKey_eq]
    exact congrArg (fun o => Except.ok (o.map fun r => (r.publicKey, asU64 r.keyVersion)))
      (find_replaceReplica l.db (replicaRow ns info now))
  have hreg : register ns replicaId l none publicKey schemaVersion now =
    ⟨(l.db.register none ns info now).2, l.latest.filter fun e => e.1 = publicKey⟩ := rfl
  unfold Current
  rw [hreg, hread]
  constructor
  · intro h e he hkey
    have hmem : e ∈ l.latest.filter fun e => e.1 = publicKey :=
      Option.mem_filter_iff.2 ⟨he, decide_eq_true hkey⟩
    have heq := h e hmem
    rw [Except.ok.injEq, Option.some.injEq] at heq
    rw [← heq]
  · intro h e he
    obtain ⟨he, hkey⟩ := Option.mem_filter_iff.1 he
    have hkey := of_decide_eq_true hkey
    rw [← hkey, ← h e he hkey]

lemma current_updateReplicaKey_iff (publicKey : B) {keyVersion : ℕ} (hv : keyVersion < 2 ^ 64) :
    Current ns replicaId (updateReplicaKey ns replicaId l none publicKey keyVersion) ↔
      Ok ns replicaId l (.updateReplicaKey publicKey keyVersion) := by
  have hupd : updateReplicaKey ns replicaId l none publicKey keyVersion =
    ⟨(l.db.updateReplicaKey none ns replicaId publicKey keyVersion).2,
      some (publicKey, keyVersion)⟩ := rfl
  change _ ↔ Registered ns replicaId l.db
  unfold Current
  rw [hupd, getReplicaKey_updateReplicaKey l.db publicKey hv, registered_iff]
  cases found ns replicaId l.db with
  | none => simp
  | some r => simp

def Call.Versioned : Call B → Prop
  | .updateReplicaKey _ keyVersion => keyVersion < 2 ^ 64
  | _ => True

variable [DecidableEq B]

instance : (c : Call B) → Decidable c.Versioned
  | .register _ _ _ => instDecidableTrue
  | .updateReplicaKey _ keyVersion => inferInstanceAs (Decidable (keyVersion < 2 ^ 64))
  | .heartbeat _ => instDecidableTrue

lemma current_step_iff (h : Current ns replicaId l) {c : Call B × Option String}
    (hv : c.1.Versioned) :
    Current ns replicaId (step ns replicaId l c) ↔ (c.2 = none → Ok ns replicaId l c.1) := by
  obtain ⟨c, _ | msg⟩ := c
  · rw [forall_prop_of_true rfl]
    cases c with
    | register publicKey schemaVersion now => exact current_register_iff publicKey schemaVersion now
    | updateReplicaKey publicKey keyVersion => exact current_updateReplicaKey_iff publicKey hv
    | heartbeat now =>
      refine iff_of_true (fun e he => ?_) trivial
      refine Eq.trans ?_ (h e he)
      rw [getReplicaKey_eq, getReplicaKey_eq]
      have hfind := find_updateReplica l.db ns replicaId
        (fun r => { r with lastSeen := asI64 now }) (fun _ => rfl) fun _ => rfl
      refine congrArg Except.ok ((congrArg (Option.map _) hfind).trans ?_)
      rw [Option.map_map]
      rfl
  · -- a call that fails changes nothing
    refine iff_of_true ?_ fun hnone => by cases hnone
    cases c <;> exact h

lemma alwaysCurrent_iff {calls : List (Call B × Option String)} (h : Current ns replicaId l)
    (hv : ∀ c ∈ calls, c.1.Versioned) :
    AlwaysCurrent ns replicaId l calls ↔ AllOk ns replicaId l calls := by
  induction calls generalizing l with
  | nil => exact iff_of_true h trivial
  | cons c calls ih =>
    obtain ⟨hc, hcalls⟩ := List.forall_mem_cons.1 hv
    have hstep := current_step_iff h hc
    constructor
    · rintro ⟨-, hrest⟩
      have hnext : Current ns replicaId (step ns replicaId l c) := by
        cases calls with
        | nil => exact hrest
        | cons c' calls => exact hrest.1
      exact ⟨hstep.1 hnext, (ih hnext hcalls).1 hrest⟩
    · rintro ⟨hok, hrest⟩
      exact ⟨h, (ih (hstep.2 hok) hcalls).2 hrest⟩

end runs

/-- From any database, and whatever calls fail: the key that is read is in every state the one of
the latest update exactly if the replica is registered when it updates its key, and never registers
again with a key whose version is not 1. -/
theorem alwaysCurrent_iff_allOk [DecidableEq B] (ns replicaId : String) (db : SQLiteDatabase B)
    (calls : List (Call B × Option String)) (hv : ∀ c ∈ calls, c.1.Versioned) :
    AlwaysCurrent ns replicaId ⟨db, none⟩ calls ↔ AllOk ns replicaId ⟨db, none⟩ calls :=
  alwaysCurrent_iff (fun _ he => by cases he) hv

def sampleCalls : List (Call ℕ × Option String) :=
  [(.register 10 1 0, none), (.updateReplicaKey 20 2, none), (.heartbeat 5, none),
    (.updateReplicaKey 30 3, some "database is locked"), (.register 20 1 6, some "disk I/O error")]

theorem alwaysCurrent_sampleCalls :
    AlwaysCurrent "n" "r" ⟨(SQLiteDatabase.new : SQLiteDatabase ℕ), none⟩ sampleCalls :=
  (alwaysCurrent_iff_allOk "n" "r" .new sampleCalls (by decide)).2 (by decide)

/-- A replica registers, and rotates its key to version 2. -/
theorem version_reset_by_rotateKeys :
    (run "n" "r" ⟨(SQLiteDatabase.new : SQLiteDatabase ℕ), none⟩
      (((.register 10 1 0 : Call ℕ) :: rotateKeys 20 2 1 5).map fun c => (c, none))).latest =
        some (20, 2) ∧
    (run "n" "r" ⟨(SQLiteDatabase.new : SQLiteDatabase ℕ), none⟩
      (((.register 10 1 0 : Call ℕ) :: rotateKeys 20 2 1 5).map fun c => (c, none))).db.getReplicaKey
        none "n" "r" = .ok (some (20, 1)) := by
  decide

end VaultSync.KeyVersions
