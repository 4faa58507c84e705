import VaultSync.Async.Along
import VaultSync.Opfs.Manifest

/-! The maps of the content index against each other. -/

namespace VaultSync.Opfs.ContentIndex

open Async

variable (ci : ContentIndex) {m : StoreManifest}

def insertDirty (key : IndexKey) (entry : IndexEntry) : ContentIndex :=
  { ci with dirtyPages := Insert.insert entry.pageId ci.dirtyPages }.insert key entry

inductive Call where
  | insert (key : IndexKey) (entry : IndexEntry)
  | insertDirty (key : IndexKey) (entry : IndexEntry)
  | remove (key : IndexKey)
  | removeByPageId (id : ℕ)
  | allocatePageId
  | commitAllocatedPageId (id : ℕ)
  | commitPageWrite (id : ℕ) (key : Option IndexKey)

def step (m : StoreManifest) : Call → StoreManifest
  | .insert key entry => m.setIndex (m.contentIndex.insert key entry)
  | .insertDirty key entry => m.setIndex (m.contentIndex.insertDirty key entry)
  | .remove key => m.setIndex (m.contentIndex.remove key)
  | .removeByPageId id => m.setIndex (m.contentIndex.removeByPageId id)
  | .allocatePageId => m.allocatePageId.2
  | .commitAllocatedPageId id => m.commitAllocatedPageId id
  | .commitPageWrite id key => m.commitPageWrite id key

structure Represents : Prop where
  disjoint : ∀ id ∈ ci.livePages, id ∉ ci.tombstonedPages
  keys : ∀ id, id ∈ ci.pageById ↔ id ∈ ci.livePages
  entries : ∀ key entry, ci.entries key = some entry →
    entry.pageId ∈ ci.livePages ∧ ci.pageById.lookup entry.pageId = some key
  documents : ∀ k, ci.pageByDocument k = ci.entries (.document k)

/-- A page that is removed takes no entry of another page with it. -/
def Leaves : Call → Prop
  | .removeByPageId id => ∀ key, (∀ entry, ci.entries key = some entry → entry.pageId ≠ id) →
      (ci.removeByPageId id).entries key = ci.entries key
  | _ => True

/-- No other key has the page. -/
def Owned (id : ℕ) (key : IndexKey) : Prop :=
  ∀ key' entry, ci.entries key' = some entry → entry.pageId = id → key' = key

variable {ci}

/-- A page is put under a key that no other has it for; a stub is made for no tombstoned page; and a
page is removed only if its key has no newer one. -/
def Ok (m : StoreManifest) : Call → Prop
  | .insert key entry | .insertDirty key entry => m.contentIndex.Owned entry.pageId key
  | .remove _ => True
  | .removeByPageId id => ∀ key entry, m.contentIndex.pageById.lookup id = some key →
      m.contentIndex.entries key = some entry → entry.pageId = id
  | .allocatePageId => m.nextPageId ∉ m.contentIndex.tombstonedPages
  | .commitAllocatedPageId id | .commitPageWrite id none => id ∉ m.contentIndex.tombstonedPages
  | .commitPageWrite id (some key) => m.contentIndex.Owned id key

lemma Represents.insert_iff (h : Represents ci) (key : IndexKey) (entry : IndexEntry) :
    Represents (ci.insert key entry) ↔ ci.Owned entry.pageId key := by
  constructor
  · intro h' key' e he hid
    by_contra hne
    have hother := (h'.entries key' e (by simp [insert, hne, he])).2
    grind [insert.eq_def, Finmap.lookup_insert]
  · intro hown
    unfold insert
    refine ⟨fun id hid => ?_, fun id => ?_, fun key' e he => ?_, fun k => ?_⟩
    · grind [h.disjoint]
    · grind [h.keys, Finmap.mem_insert]
    · dsimp only at he ⊢
      rw [Function.update_apply] at he
      grind [h.entries, Owned, Finmap.lookup_insert, Finmap.lookup_insert_of_ne]
    · cases key <;> simp [Function.update_apply, h.documents]

lemma Represents.remove (h : Represents ci) (key : IndexKey) : Represents (ci.remove key) := by
  unfold ContentIndex.remove
  cases hentry : ci.entries key with
  | none => exact h
  | some entry =>
    have hpage := h.entries key entry hentry
    refine ⟨fun id hid => ?_, fun id => ?_, fun key' e he => ?_, fun k => ?_⟩
    · grind [h.disjoint]
    · grind [h.keys, Finmap.mem_erase]
    · dsimp only at he ⊢
      rw [Function.update_apply] at he
      grind [h.entries, Finmap.lookup_erase_ne]
    · cases key <;> simp [Function.update_apply, h.documents]

lemma Represents.removeByPageId (h : Represents ci) (id : ℕ) :
    Represents (ci.removeByPageId id) := by
  unfold ContentIndex.removeByPageId removeKeyOf
  cases hkey : ci.pageById.lookup id with
  | none =>
    refine ⟨fun a ha => ?_, fun a => ?_, fun key' e he => ?_, h.documents⟩
    · grind [h.disjoint]
    · grind [h.keys, Finmap.lookup_eq_none]
    · grind [h.entries]
  | some key =>
    unfold ContentIndex.remove
    dsimp only
    cases hentry : ci.entries key with
    | none =>
      refine ⟨fun a ha => ?_, fun a => ?_, fun key' e he => ?_, h.documents⟩
      · grind [h.disjoint]
      · grind [h.keys, Finmap.mem_erase]
      · grind [h.entries, Finmap.lookup_erase_ne]
    | some entry =>
      -- the entry may be on a newer page, and then two pages go
      have hpage := h.entries key entry hentry
      refine ⟨fun a ha => ?_, fun a => ?_, fun key' e he => ?_, fun k => ?_⟩
      · grind [h.disjoint]
      · grind [h.keys, Finmap.mem_erase]
      · dsimp only at he ⊢
        rw [Function.update_apply] at he
        grind [h.entries, Finmap.lookup_erase_ne]
      · cases key <;> simp [Function.update_apply, h.documents]

lemma leaves_removeByPageId_iff (id : ℕ) :
    Leaves ci (.removeByPageId id) ↔ ∀ key entry, ci.pageById.lookup id = some key →
      ci.entries key = some entry → entry.pageId = id := by
  have hentries (key : IndexKey) : (ci.removeByPageId id).entries key =
      if ci.pageById.lookup id = some key then none else ci.entries key := by
    unfold ContentIndex.removeByPageId removeKeyOf ContentIndex.remove
    dsimp only
    split
    · split
      · grind
      · simp [Function.update_apply, eq_comm, *]
    · simp [*]
  constructor
  · intro hleaves key entry hkey hentry
    by_contra hne
    have hsame := hleaves key (by grind)
    rw [hentries, if_pos hkey, hentry] at hsame
    cases hsame
  · intro hok key hother
    rw [hentries]
    split_ifs with hkey
    · cases hentry : ci.entries key with
      | none => rfl
      | some entry => exact absurd (hok key entry hkey hentry) (hother entry hentry)
    · rfl

lemma Represents.track_iff (h : Represents ci) (id : ℕ) :
    Represents (ci.track id) ↔ id ∉ ci.tombstonedPages := by
  constructor
  · exact fun h' => h'.disjoint id (Finset.mem_insert_self _ _)
  · intro hid
    unfold track trackAs
    refine ⟨fun a ha => ?_, fun a => ?_, fun key' e he => ?_, h.documents⟩
    · grind [h.disjoint]
    · grind [h.keys, Finmap.mem_insert]
    · grind [h.entries, h.keys, Finmap.lookup_insert_of_ne]

lemma insert_trackAs (ci : ContentIndex) (key : IndexKey) (entry : IndexEntry) :
    (ci.trackAs entry.pageId key).insert key entry = ci.insert key entry := by
  unfold insert trackAs
  split_ifs <;> simp [Finmap.insert_insert]

/-- What a call does right: afterwards the maps fit together, and a page that is removed takes no
entry of another page with it. -/
def Right (m : StoreManifest) (c : Call) : Prop :=
  (step m c).contentIndex.Represents ∧ m.contentIndex.Leaves c

lemma right_iff (h : m.contentIndex.Represents) (c : Call) : Right m c ↔ Ok m c := by
  cases c with
  | insert key entry => exact (and_iff_left trivial).trans (h.insert_iff key entry)
  | insertDirty key entry =>
    have hdirty : Represents { m.contentIndex with
      dirtyPages := Insert.insert entry.pageId m.contentIndex.dirtyPages } := { h with }
    exact (and_iff_left trivial).trans (hdirty.insert_iff key entry)
  | remove key => exact iff_of_true ⟨h.remove key, trivial⟩ trivial
  | removeByPageId id =>
    exact (and_iff_right (h.removeByPageId id)).trans (leaves_removeByPageId_iff id)
  | allocatePageId => exact (and_iff_left trivial).trans (h.track_iff _)
  | commitAllocatedPageId id => exact (and_iff_left trivial).trans (h.track_iff id)
  | commitPageWrite id key =>
    refine (and_iff_left trivial).trans ?_
    cases key with
    | none => exact h.track_iff id
    | some key =>
      change Represents ((m.contentIndex.trackAs id key).insert key
        (m.incrementGeneration.freshEntry id)) ↔ _
      have hsame := insert_trackAs m.contentIndex key (m.incrementGeneration.freshEntry id)
      exact hsame ▸ h.insert_iff key _

/-- **The content index.** Every call does right exactly if every call is `Ok`. -/
theorem right_iff_ok (m : StoreManifest) (calls : List Call) :
    Admitted step Right (m.setIndex .new) calls ↔ Admitted step Ok (m.setIndex .new) calls := by
  have hnew : Represents .new := {
    disjoint := fun _ h => absurd h (Finset.notMem_empty _)
    keys := fun _ => iff_of_false Finmap.notMem_empty (Finset.notMem_empty _)
    entries := fun _ _ h => absurd h.symm (Option.some_ne_none _)
    documents := fun _ => rfl }
  exact admitted_iff (fun c _ m h => right_iff h c) (fun _ _ h => h.1) hnew

def pageOf (id : ℕ) : IndexEntry := ⟨id, 0, 0, 0, 1, true⟩

/-- The page that a key had before is removed, and the key's entry for its new page with it. -/
theorem newer_entry_removed :
    let ci := (new.insert (.sequence 0) (pageOf 1)).insert (.sequence 0) (pageOf 2)
    ci.entries (.sequence 0) = some (pageOf 2) ∧
      (ci.removeByPageId 1).entries (.sequence 0) = none := by
  decide

end VaultSync.Opfs.ContentIndex
