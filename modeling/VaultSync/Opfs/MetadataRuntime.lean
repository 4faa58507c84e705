import VaultSync.Opfs.MetadataStore

/-! The metadata runtime: a cache over four metadata stores, and checkpoints that write a copy of it
to the stores, one after another. -/

namespace VaultSync.Opfs

open Async StoreState PageStore MetadataStore List

variable {F D B S M R K : Type}

structure MetadataCache (S M R K : Type) where
  syncState : Option S
  schemas : List (String × M)
  migrations : List R
  keys : List K

inductive MetadataPart where
  | syncState
  | schemas
  | migrations
  | keys
  deriving DecidableEq

abbrev MetadataPart.Value (S M R K : Type) : MetadataPart → Type
  | syncState => S
  | schemas => List (String × M)
  | migrations => List R
  | keys => List K

inductive MetadataWrite (S M R K : Type) where
  | syncState (state : S)
  | schema (docId : String) (schema : M)
  | migration (record : R)
  | key (key : K)

namespace MetadataCache

def write (c : MetadataCache S M R K) : MetadataWrite S M R K → MetadataCache S M R K
  | .syncState state => { c with syncState := some state }
  | .schema docId schema =>
    { c with schemas :=
        match c.schemas.findIdx? (·.1 = docId) with
        | some pos => c.schemas.set pos (docId, schema)
        | none => c.schemas ++ [(docId, schema)] }
  | .migration record => { c with migrations := c.migrations ++ [record] }
  | .key key => { c with keys := c.keys ++ [key] }

def nonEmpty {α : Type} (l : List α) : Option (List α) := if l.isEmpty then none else some l

def value (c : MetadataCache S M R K) : (part : MetadataPart) → Option (part.Value S M R K)
  | .syncState => c.syncState
  | .schemas => nonEmpty c.schemas
  | .migrations => nonEmpty c.migrations
  | .keys => nonEmpty c.keys

end MetadataCache

/-- The copy of the cache that the checkpoint made, and the parts that it has still to write. -/
structure Checkpoint (S M R K : Type) where
  copy : MetadataCache S M R K
  rest : List MetadataPart

structure MetadataRuntime (F D S M R K : Type) where
  cache : MetadataCache S M R K
  dirty : Bool
  stores : MetadataPart → StoreState F D
  running : List (Checkpoint S M R K)

namespace MetadataRuntime

/-- A call, or the continuation of the checkpoint at position `i` up to its next await. -/
inductive Event (B S M R K : Type) where
  | write (w : MetadataWrite S M R K)
  | checkpoint
  | resume (i : ℕ) (envs : List (Env B))

section functions

variable (lib : PageLib F D B) (codec : (part : MetadataPart) → Codec D (part.Value S M R K))
  (r : MetadataRuntime F D S M R K)

def checkpoint : MetadataRuntime F D S M R K :=
  if r.dirty then
    { r with running := r.running ++ [⟨r.cache, [.syncState, .schemas, .migrations, .keys]⟩] }
  else r

/-- After the last write there is one more await before the flag is cleared. -/
def resume (i : ℕ) (envs : List (Env B)) : MetadataRuntime F D S M R K :=
  match r.running[i]? with
  | none => r
  | some ⟨_, []⟩ => { r with dirty := false, running := r.running.eraseIdx i }
  | some ⟨copy, part :: rest⟩ =>
    { r with
      running := r.running.set i ⟨copy, rest⟩
      stores :=
        match copy.value part with
        | none => r.stores
        | some v => Function.update r.stores part
            (after (r.stores part) (MetadataStore.write lib (codec part) v) envs) }

def step : Event B S M R K → MetadataRuntime F D S M R K
  | .write w => { r with cache := r.cache.write w, dirty := true }
  | .checkpoint => r.checkpoint
  | .resume i envs => r.resume lib codec i envs

def run (events : List (Event B S M R K)) : MetadataRuntime F D S M R K :=
  events.foldl (step lib codec) r

def Persisted (rest : List MetadataPart) : Prop :=
  ∀ part ∉ rest, ∀ v, r.cache.value part = some v → Stored lib (codec part) v (r.stores part)

structure Loaded : Prop where
  sound : ∀ part, Sound lib (r.stores part)
  clean : r.dirty = false
  idle : r.running = []
  persisted : r.Persisted lib codec []

/-- At most one checkpoint is running, and its copy is the cache. -/
structure Inv : Prop where
  sound : ∀ part, Sound lib (r.stores part)
  running : r.running = [] ∧ (r.dirty = false → r.Persisted lib codec []) ∨
    ∃ rest, r.running = [⟨r.cache, rest⟩] ∧ r.Persisted lib codec rest

/-- Nothing is written, and no checkpoint begins, while a checkpoint is running. -/
def Exclusive : Event B S M R K → Prop
  | .write _ | .checkpoint => r.running = []
  | .resume _ _ => True

def ExclusiveRun (r : MetadataRuntime F D S M R K) : List (Event B S M R K) → Prop
  | [] => True
  | e :: events => r.Exclusive e ∧ ExclusiveRun (r.step lib codec e) events

end functions

variable {lib : PageLib F D B} {codec : (part : MetadataPart) → Codec D (part.Value S M R K)}
  {r : MetadataRuntime F D S M R K}

lemma Inv.resume (h : r.Inv lib codec) (i : ℕ) (envs : List (Env B)) :
    (r.resume lib codec i envs).Inv lib codec := by
  unfold MetadataRuntime.resume
  rcases h.running with ⟨hidle, -⟩ | ⟨rest, hrunning, hpersisted⟩
  · simpa [hidle] using h
  · cases i with
    | succ i => simpa [hrunning] using h
    | zero =>
      cases rest with
      | nil =>
        simp only [hrunning, List.getElem?_cons_zero, eraseIdx_cons_zero]
        exact ⟨h.sound, .inl ⟨rfl, fun _ => hpersisted⟩⟩
      | cons part rest =>
        simp only [hrunning, List.getElem?_cons_zero, set_cons_zero]
        cases hv : r.cache.value part with
        | none =>
          refine ⟨h.sound, .inr ⟨rest, rfl, fun part' hnot v hv' => ?_⟩⟩
          have hne : part' ≠ part := by
            rintro rfl
            simp [hv] at hv'
          exact hpersisted part' (by simp [hne, hnot]) v hv'
        | some v =>
          have hwritten : Stored lib (codec part) v
              (after (r.stores part) (MetadataStore.write lib (codec part) v) envs) :=
            run_of_wp (wp_write (h.sound part) v) envs
          refine ⟨fun part' => ?_, .inr ⟨rest, rfl, fun part' hnot v' hv' => ?_⟩⟩
          · by_cases heq : part' = part
            · subst heq
              simpa using hwritten.toSound
            · simpa [heq] using h.sound part'
          · by_cases heq : part' = part
            · subst heq
              cases hv.symm.trans hv'
              simpa using hwritten
            · simpa [heq] using hpersisted part' (by simp [heq, hnot]) v' hv'

lemma Inv.step (h : r.Inv lib codec) {e : Event B S M R K} (he : r.Exclusive e) :
    (r.step lib codec e).Inv lib codec := by
  cases e with
  | write w => exact ⟨h.sound, .inl ⟨he, fun hclean => by cases hclean⟩⟩
  | checkpoint =>
    have hidle : r.running = [] := he
    unfold MetadataRuntime.step checkpoint
    by_cases hdirty : r.dirty = true
    · simp only [hdirty, if_true, hidle, nil_append]
      exact ⟨h.sound, .inr ⟨_, rfl, fun part hnot => absurd (by cases part <;> simp) hnot⟩⟩
    · simpa [hdirty] using h
  | resume i envs => exact h.resume i envs

lemma Inv.run (h : r.Inv lib codec) {events : List (Event B S M R K)}
    (hok : r.ExclusiveRun lib codec events) : (r.run lib codec events).Inv lib codec := by
  induction events generalizing r with
  | nil => exact h
  | cons e events ih => exact ih (h.step hok.1) hok.2

/-- **Clean metadata.** If nothing is written and no checkpoint begins while one is running, then
whenever none is running and the flag is clear, each store gives back its part of the cache. -/
theorem readBack_of_clean {r : MetadataRuntime F D S M R K} (h : r.Loaded lib codec)
    (events : List (Event B S M R K)) (hok : r.ExclusiveRun lib codec events)
    (hidle : (r.run lib codec events).running = [])
    (hclean : (r.run lib codec events).dirty = false) (part : MetadataPart) (v : part.Value S M R K)
    (hv : (r.run lib codec events).cache.value part = some v) (envs : List (Env B)) :
    readBack lib (codec part) ((r.run lib codec events).stores part) envs = .ok (some v) := by
  have hstart : r.Inv lib codec := ⟨h.sound, .inl ⟨h.idle, fun _ => h.persisted⟩⟩
  rcases (hstart.run hok).running with ⟨-, hpersisted⟩ | ⟨rest, hrunning, -⟩
  · exact readBack_stored (hpersisted hclean part (by simp) v hv) envs
  · simp [hidle] at hrunning

def noValues {α : Type} [IsEmpty α] : Codec Payload (List α) where
  encode _ := .value 0
  decode _ := some []
  decode_encode l := by simp [eq_nil_of_subset_nil (l := l) fun a => isEmptyElim a]

def sampleCodec : (part : MetadataPart) → Codec Payload (part.Value ℕ Empty Empty Empty)
  | .syncState => numbers
  | .schemas | .migrations | .keys => noValues

def fresh : MetadataRuntime (PageHeader × Payload) Payload ℕ Empty Empty Empty :=
  ⟨⟨none, [], [], []⟩, false, fun _ => created, []⟩

lemma loaded_fresh : fresh.Loaded symbolic sampleCodec where
  sound _ := sound_created
  clean := rfl
  idle := rfl
  persisted part _ v hv := by cases part <;> cases hv

def checkpointed : List (Event Unit ℕ Empty Empty Empty) :=
  [.write (.syncState 1), .checkpoint, .resume 0 [], .resume 0 [], .resume 0 [], .resume 0 [],
    .resume 0 []]

theorem readBack_checkpointed :
    readBack symbolic numbers ((fresh.run symbolic sampleCodec checkpointed).stores .syncState) [] =
      .ok (some 1) :=
  readBack_of_clean loaded_fresh checkpointed
    ⟨rfl, rfl, trivial, trivial, trivial, trivial, trivial, trivial⟩ rfl rfl .syncState 1 rfl []

/-- A value that is written while the checkpoint is running is not persisted by it. -/
theorem clean_not_persisted :
    let r := fresh.run symbolic sampleCodec [.write (.syncState 1), .checkpoint, .resume 0 [],
      .write (.syncState 2), .resume 0 [], .resume 0 [], .resume 0 [], .resume 0 []]
    r.running = [] ∧ r.dirty = false ∧ r.cache.value .syncState = some 2 ∧
      readBack symbolic numbers (r.stores .syncState) [] = .ok (some 1) :=
  ⟨rfl, rfl, rfl, rfl⟩

end MetadataRuntime

end VaultSync.Opfs
