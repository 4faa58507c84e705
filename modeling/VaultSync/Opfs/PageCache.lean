import VaultSync.Async.Along
import VaultSync.Maps.Listed

/-! The cache of page contents inside a page store: least recently used pages go first. -/

namespace VaultSync.Opfs

open Async Finmap Maps

/-- `D` is page data. `order` has the least recently used page first. -/
structure PageCache (D : Type) where
  maxEntries : ℕ
  maxBytes : ℕ
  entries : Finmap fun _ : ℕ => D
  order : List ℕ
  currentBytes : ℕ

variable {D : Type}

namespace PageCache

def new (maxEntries maxBytes : ℕ) : PageCache D where
  maxEntries := maxEntries
  maxBytes := maxBytes
  entries := ∅
  order := []
  currentBytes := 0

def touch (c : PageCache D) (id : ℕ) : PageCache D :=
  { c with order := if id ∈ c.order then c.order.erase id ++ [id] else c.order }

def get (c : PageCache D) (id : ℕ) : Option D × PageCache D :=
  match c.entries.lookup id with
  | some data => (some data, c.touch id)
  | none => (none, c)

variable (len : D → ℕ)

/-- Make room for `size` bytes: pages are evicted from the front of the queue until they fit,
the queue is empty, or its front is a page that is not cached. -/
def evictFor (size : ℕ) : List ℕ → PageCache D → PageCache D
  | [], c => { c with order := [] }
  | id :: rest, c =>
    if c.maxEntries ≤ c.entries.keys.card ∨ c.maxBytes < c.currentBytes + size then
      match c.entries.lookup id with
      | some data =>
        evictFor size rest
          { c with entries := c.entries.erase id, currentBytes := c.currentBytes - len data }
      | none => { c with order := rest }
    else { c with order := id :: rest }

def insert (c : PageCache D) (id : ℕ) (data : D) : PageCache D :=
  match c.entries.lookup id with
  | some old =>
    { c with
      entries := c.entries.insert id data
      currentBytes := c.currentBytes - len old + len data }
  | none =>
    let c := c.evictFor len (len data) c.order
    { c with
      entries := c.entries.insert id data
      order := c.order ++ [id]
      currentBytes := c.currentBytes + len data }

def remove (c : PageCache D) (id : ℕ) : PageCache D :=
  match c.entries.lookup id with
  | some data =>
    { c with
      entries := c.entries.erase id
      currentBytes := c.currentBytes - len data
      order := c.order.erase id }
  | none => c

def clear (c : PageCache D) : PageCache D := { c with entries := ∅, order := [], currentBytes := 0 }

variable {len} {c : PageCache D} {id id' : ℕ} {data d : D}

lemma lookup_of_evictFor {size : ℕ} {order : List ℕ}
    (h : (evictFor len size order c).entries.lookup id = some d) :
    c.entries.lookup id = some d := by
  induction order generalizing c with
  | nil => exact h
  | cons a order ih =>
    rw [evictFor] at h
    split at h
    · split at h
      · have hlookup := ih h
        by_cases ha : id = a
        · subst ha
          rw [lookup_erase] at hlookup
          cases hlookup
        · rwa [lookup_erase_ne ha] at hlookup
      · exact h
    · exact h

lemma lookup_insert_self : (c.insert len id data).entries.lookup id = some data := by
  unfold insert
  split <;> exact lookup_insert _

lemma lookup_of_insert_of_ne (hne : id' ≠ id)
    (h : (c.insert len id data).entries.lookup id' = some d) : c.entries.lookup id' = some d := by
  unfold insert at h
  split at h
  · rwa [lookup_insert_of_ne _ hne] at h
  · rw [lookup_insert_of_ne _ hne] at h
    exact lookup_of_evictFor h

lemma lookup_remove_self : (c.remove len id).entries.lookup id = none := by
  unfold remove
  split
  · exact lookup_erase _ _
  · assumption

lemma lookup_remove_of_ne (hne : id' ≠ id) :
    (c.remove len id).entries.lookup id' = c.entries.lookup id' := by
  unfold remove
  split
  · exact lookup_erase_ne hne
  · rfl

/-! ## The accounting of the cache -/

/-- The sizes of the pages, added up. -/
def sizes (len : D → ℕ) (m : Finmap fun _ : ℕ => D) : ℕ := (m.entries.map fun e => len e.2).sum

lemma sizes_insert {m : Finmap fun _ : ℕ => D} (h : id ∉ m) :
    sizes len (m.insert id data) = len data + sizes len m := by
  rw [sizes, entries_insert_of_notMem h, Multiset.map_cons, Multiset.sum_cons, sizes]

lemma sizes_erase {m : Finmap fun _ : ℕ => D} (h : m.lookup id = some d) :
    sizes len m = len d + sizes len (m.erase id) := by
  rw [← sizes_insert notMem_erase_self, insert_erase, insert_lookup h]

structure Accounted (len : D → ℕ) (maxEntries maxBytes : ℕ) (c : PageCache D) : Prop where
  limits : c.maxEntries = maxEntries ∧ c.maxBytes = maxBytes
  listed : Listed c.order c.entries
  bytes : c.currentBytes = sizes len c.entries
  entries_le : c.entries.keys.card ≤ maxEntries
  bytes_le : c.currentBytes ≤ maxBytes

variable {maxEntries maxBytes : ℕ}

lemma Accounted.erase (h : Accounted len maxEntries maxBytes c) {order : List ℕ}
    (hd : c.entries.lookup id = some d) (horder : Listed order (c.entries.erase id)) :
    Accounted len maxEntries maxBytes { c with
      entries := c.entries.erase id, currentBytes := c.currentBytes - len d, order := order } := by
  refine ⟨h.limits, horder, ?_, ?_, (Nat.sub_le _ _).trans h.bytes_le⟩
  · rw [h.bytes, sizes_erase hd, Nat.add_sub_cancel_left]
  · rw [keys_erase]
    exact Finset.card_erase_le.trans h.entries_le

/-- Evictions end with room for a page: every page of the queue is cached. -/
lemma Accounted.evictFor {size : ℕ} {order : List ℕ} (hentries : 1 ≤ maxEntries)
    (hsize : size ≤ maxBytes) (h : Accounted len maxEntries maxBytes { c with order := order }) :
    ∃ c', PageCache.evictFor len size order c = c' ∧ Accounted len maxEntries maxBytes c' ∧
      c'.entries.keys.card < maxEntries ∧ c'.currentBytes + size ≤ maxBytes := by
  refine ⟨_, rfl, ?_⟩
  induction order generalizing c with
  | nil =>
    have hempty : c.entries = ∅ := ext_lookup fun x =>
      lookup_eq_none.2 fun hx => List.not_mem_nil ((h.listed.mem x).2 hx)
    have hbytes : c.currentBytes = 0 := by rw [h.bytes, hempty]; rfl
    refine ⟨h, ?_, ?_⟩
    · rw [PageCache.evictFor, hempty]
      exact hentries
    · rw [PageCache.evictFor, hbytes, Nat.zero_add]
      exact hsize
  | cons a order ih =>
    rw [PageCache.evictFor]
    split_ifs with hfull
    · obtain ⟨d, hd⟩ := mem_iff.1 ((h.listed.mem a).1 List.mem_cons_self)
      simp only [hd]
      exact ih (h.erase hd h.listed.tail)
    · rw [not_or, not_le, not_lt, h.limits.1, h.limits.2] at hfull
      exact ⟨h, hfull⟩

inductive CacheCall (D : Type) where
  | get (id : ℕ)
  | insert (id : ℕ) (data : D)
  | remove (id : ℕ)
  | clear

def step (len : D → ℕ) (c : PageCache D) : CacheCall D → PageCache D
  | .get id => (c.get id).2
  | .insert id data => c.insert len id data
  | .remove id => c.remove len id
  | .clear => c.clear

/-- New contents for a cached page fit beside the other pages. -/
def InPlaceFits (len : D → ℕ) (c : PageCache D) : CacheCall D → Prop
  | .insert id data => ∀ old ∈ c.entries.lookup id,
      c.currentBytes - len old + len data ≤ c.maxBytes
  | _ => True

lemma Accounted.insert_iff (hentries : 1 ≤ maxEntries) (hsize : len data ≤ maxBytes)
    (h : Accounted len maxEntries maxBytes c) :
    Accounted len maxEntries maxBytes (c.insert len id data) ↔
      InPlaceFits len c (.insert id data) := by
  unfold PageCache.insert InPlaceFits
  split
  next old hold =>
    have hmem := mem_of_lookup_eq_some hold
    constructor
    · intro h' old' hold'
      obtain rfl := Option.some.inj (hold.symm.trans hold')
      rw [h.limits.2]
      exact h'.bytes_le
    · intro hfits
      refine ⟨h.limits, h.listed.insert hmem, ?_, ?_, h.limits.2 ▸ hfits old hold⟩
      · simp only [h.bytes, sizes_erase hold, ← insert_erase (m := c.entries),
          sizes_insert notMem_erase_self]
        omega
      · rw [(h.listed.insert hmem).card_keys, ← h.listed.card_keys]
        exact h.entries_le
  next hnone =>
    refine iff_of_true ?_ fun old hold => by cases hnone.symm.trans hold
    obtain ⟨c', hc', h', hcard, hroom⟩ := h.evictFor hentries hsize
    have hid : id ∉ c'.entries := by
      rw [mem_iff, ← hc']
      rintro ⟨d, hd⟩
      cases hnone.symm.trans (lookup_of_evictFor hd)
    simp only [hc']
    refine ⟨h'.limits, h'.listed.push hid, ?_, ?_, hroom⟩
    · rw [sizes_insert hid, ← h'.bytes, Nat.add_comm]
    · rw [(h'.listed.push hid).card_keys, List.length_append, ← h'.listed.card_keys]
      exact hcard

lemma Accounted.step_iff (hentries : 1 ≤ maxEntries) {call : CacheCall D}
    (hsize : ∀ id data, call = .insert id data → len data ≤ maxBytes)
    (h : Accounted len maxEntries maxBytes c) :
    Accounted len maxEntries maxBytes (c.step len call) ↔ InPlaceFits len c call := by
  cases call with
  | insert id data => exact h.insert_iff hentries (hsize id data rfl)
  | get id =>
    refine iff_of_true ?_ trivial
    simp only [step, get, touch]
    split
    next d hd =>
      split_ifs
      · exact { h with listed := h.listed.touch (mem_of_lookup_eq_some hd) }
      · exact h
    · exact h
  | remove id =>
    refine iff_of_true ?_ trivial
    simp only [step, remove]
    split
    next d hd => exact h.erase hd h.listed.erase
    · exact h
  | clear => exact iff_of_true ⟨h.limits, .empty, rfl, Nat.zero_le _, Nat.zero_le _⟩ trivial

theorem accounted_iff_inPlaceFits (hentries : 1 ≤ maxEntries) {calls : List (CacheCall D)}
    (hsize : ∀ id data, .insert id data ∈ calls → len data ≤ maxBytes) :
    Throughout (step len) (Accounted len maxEntries maxBytes) (new maxEntries maxBytes) calls ↔
      Admitted (step len) (InPlaceFits len) (new maxEntries maxBytes) calls := by
  apply always_iff_admitted
  · intro call hcall c h
    apply h.step_iff hentries
    rintro id data rfl
    exact hsize id data hcall
  · exact ⟨⟨rfl, rfl⟩, .empty, rfl, Nat.zero_le _, Nat.zero_le _⟩

/-- Two pages of five bytes, and then new contents for the first. -/
def rewrites (size : ℕ) : List (CacheCall ℕ) := [.insert 1 5, .insert 2 5, .insert 1 size]

theorem accounted_rewrites :
    Throughout (step fun n => n) (Accounted (fun n => n) 4 10) (new 4 10) (rewrites 4) := by
  refine (accounted_iff_inPlaceFits (by decide) ?_).2 ?_
  · simp only [rewrites, List.mem_cons, CacheCall.insert.injEq, List.not_mem_nil, or_false]
    omega
  · refine ⟨?_, ?_, ?_, trivial⟩ <;> simp only [InPlaceFits] <;> decide

theorem not_accounted_rewrites :
    ¬Throughout (step fun n => n) (Accounted (fun n => n) 4 10) (new 4 10) (rewrites 10) := by
  intro h
  have hbytes := h.2.2.2.bytes_le
  revert hbytes
  decide

end PageCache

end VaultSync.Opfs
