import VaultSync.Maps.Listed

/-! The two-segment cache: entries come in on probation and are protected from their first read. -/

namespace VaultSync.Opfs

open Finmap Maps

variable {K V : Type} [DecidableEq K]

/-- `order` has the least recently used key first. -/
structure LruCache (K V : Type) [DecidableEq K] where
  maxEntries : ℕ
  entries : Finmap fun _ : K => V
  order : List K

namespace LruCache

def new (maxEntries : ℕ) : LruCache K V := ⟨maxEntries, ∅, []⟩

variable (c : LruCache K V)

def len : ℕ := c.entries.keys.card

def get (key : K) : Option V × LruCache K V :=
  if key ∈ c.entries then
    (c.entries.lookup key,
      { c with order := if key ∈ c.order then c.order.erase key ++ [key] else c.order })
  else (none, c)

def insert (c : LruCache K V) (key : K) (value : V) : LruCache K V :=
  let c :=
    if key ∈ c.entries then { c with order := c.order.erase key }
    else if c.maxEntries ≤ c.len then
      match c.order with
      | evicted :: rest => { c with entries := c.entries.erase evicted, order := rest }
      | [] => c
    else c
  { c with order := c.order ++ [key], entries := c.entries.insert key value }

def remove (key : K) : Option V × LruCache K V :=
  (c.entries.lookup key, { c with order := c.order.erase key, entries := c.entries.erase key })

def clear : LruCache K V := { c with entries := ∅, order := [] }

/-- At most `n` entries, all with the value that `latest` has for their key. -/
structure Fits (n : ℕ) (latest : K → Option V) (c : LruCache K V) : Prop where
  max : c.maxEntries = n
  listed : Listed c.order c.entries
  len_le : c.len ≤ n
  fresh : ∀ k v, c.entries.lookup k = some v → latest k = some v

variable {c : LruCache K V} {n : ℕ} {latest latest' : K → Option V} {k : K} {v : V}

lemma Fits.empty : Fits n latest (⟨n, ∅, []⟩ : LruCache K V) :=
  ⟨rfl, .empty, Nat.zero_le n, nofun⟩

lemma Fits.get (h : Fits n latest c) : Fits n latest (c.get k).2 := by
  unfold LruCache.get
  split_ifs with hk hmem
  · exact { h with listed := h.listed.touch hk }
  · exact h
  · exact h

lemma Fits.remove (h : Fits n latest c) (hother : ∀ x, x ≠ k → latest' x = latest x) :
    Fits n latest' (c.remove k).2 where
  max := h.max
  listed := h.listed.erase
  len_le := by
    rw [len, LruCache.remove, keys_erase]
    exact Finset.card_erase_le.trans h.len_le
  fresh := fun x d hd => by
    by_cases hx : x = k
    · subst hx
      simp [LruCache.remove] at hd
    · rw [hother x hx]
      exact h.fresh x d (lookup_erase_ne hx ▸ hd)

/-- A key the cache does not have may take any value. -/
lemma Fits.congr (h : Fits n latest c) (hk : k ∉ c.entries)
    (hother : ∀ x, x ≠ k → latest' x = latest x) : Fits n latest' c := by
  refine { h with fresh := fun x d hd => ?_ }
  rw [hother x (ne_of_mem_of_not_mem (mem_of_lookup_eq_some hd) hk)]
  exact h.fresh x d hd

lemma lookup_insert_of_ne {x : K} {d : V} (hx : x ≠ k)
    (hd : (c.insert k v).entries.lookup x = some d) : c.entries.lookup x = some d := by
  unfold insert at hd
  rw [Finmap.lookup_insert_of_ne _ hx] at hd
  split_ifs at hd
  · exact hd
  · split at hd
    next evicted rest _ =>
      by_cases he : x = evicted
      · rw [he, lookup_erase] at hd
        cases hd
      · exact lookup_erase_ne he ▸ hd
    · exact hd
  · exact hd

lemma mem_of_insert {x : K} (hx : x ≠ k) (hmem : x ∈ (c.insert k v).entries) : x ∈ c.entries := by
  obtain ⟨d, hd⟩ := mem_iff.1 hmem
  exact mem_of_lookup_eq_some (lookup_insert_of_ne hx hd)

lemma Fits.insert (h : Fits n latest c) (hn : 1 ≤ n) (hk : latest' k = some v)
    (hother : ∀ x, x ≠ k → latest' x = latest x) : Fits n latest' (c.insert k v) := by
  have hlist : (c.insert k v).maxEntries = n ∧
      Listed (c.insert k v).order (c.insert k v).entries ∧ (c.insert k v).order.length ≤ n := by
    have hlen : c.len = c.order.length := h.listed.card_keys
    have hle := h.len_le
    unfold LruCache.insert
    split_ifs with hmem hfull
    · refine ⟨h.max, (h.listed.touch hmem).insert hmem, ?_⟩
      have hperm := (h.listed.head hmem).length_eq
      simp only [List.length_append, List.length_cons, List.length_nil] at hperm ⊢
      omega
    · split
      next evicted rest horder =>
        have hlisted := h.listed
        rw [horder] at hlisted hlen
        refine ⟨h.max, hlisted.tail.push fun hk => hmem (mem_erase.1 hk).2, ?_⟩
        rw [hlen] at hle
        simpa using hle
      next horder =>
        rw [horder, List.length_nil] at hlen
        rw [h.max] at hfull
        omega
    · refine ⟨h.max, h.listed.push hmem, ?_⟩
      rw [h.max] at hfull
      simp only [List.length_append, List.length_cons, List.length_nil]
      omega
  refine ⟨hlist.1, hlist.2.1, hlist.2.1.card_keys.trans_le hlist.2.2, fun x d hd => ?_⟩
  by_cases hx : x = k
  · subst hx
    rw [LruCache.insert, lookup_insert] at hd
    rw [hk, hd]
  · rw [hother x hx]
    exact h.fresh x d (lookup_insert_of_ne hx hd)

end LruCache

/-- `probationSize` is the share of `maxTotal` that the ratio gives. -/
structure SegmentedLruCache (K V : Type) [DecidableEq K] where
  probation : LruCache K V
  «protected» : LruCache K V
  probationSize : ℕ
  maxTotal : ℕ

namespace SegmentedLruCache

def new (maxTotal probationSize : ℕ) : SegmentedLruCache K V where
  probation := .new (max 1 probationSize)
  «protected» := .new (max 1 (maxTotal - probationSize))
  probationSize := probationSize
  maxTotal := maxTotal

variable (c : SegmentedLruCache K V)

def len : ℕ := c.probation.len + c.protected.len

def get (key : K) : Option V × SegmentedLruCache K V :=
  match c.protected.get key with
  | (some val, segment) => (some val, { c with «protected» := segment })
  | (none, segment) =>
    if key ∈ c.probation.entries then
      match c.probation.remove key with
      | (some v, rest) => (some v, { c with probation := rest, «protected» := segment.insert key v })
      | (none, rest) => (none, { c with probation := rest, «protected» := segment })
    else (none, { c with «protected» := segment })

/-- The loop of `rebalance`: the front of the queue is removed while there are too many. -/
def trim (target : ℕ) : List K → LruCache K V → LruCache K V
  | [], c => c
  | front :: rest, c => if target < c.len ∧ 1 < c.len then trim target rest (c.remove front).2 else c

def rebalance : SegmentedLruCache K V :=
  if c.len ≤ c.maxTotal then c
  else { c with probation := trim c.probationSize c.probation.order c.probation }

def insert (key : K) (value : V) : SegmentedLruCache K V :=
  if key ∈ c.protected.entries then { c with «protected» := c.protected.insert key value }
  else rebalance { c with probation := c.probation.insert key value }

def remove (key : K) : Option V × SegmentedLruCache K V :=
  match c.probation.remove key with
  | (some v, rest) => (some v, { c with probation := rest })
  | (none, rest) =>
    ((c.protected.remove key).1,
      { c with probation := rest, «protected» := (c.protected.remove key).2 })

def clear : SegmentedLruCache K V :=
  { c with probation := c.probation.clear, «protected» := c.protected.clear }

inductive Call (K V : Type) where
  | insert (key : K) (value : V)
  | get (key : K)
  | remove (key : K)
  | clear

def step : Call K V → SegmentedLruCache K V
  | .insert key value => c.insert key value
  | .get key => (c.get key).2
  | .remove key => (c.remove key).2
  | .clear => c.clear

/-- What a call leaves of the value last inserted under `k`. -/
def latest (k : K) (v : Option V) : Call K V → Option V
  | .insert key value => if key = k then some value else v
  | .get _ => v
  | .remove key => if key = k then none else v
  | .clear => none

structure Sound (n p : ℕ) (values : K → Option V) (c : SegmentedLruCache K V) : Prop where
  probation : c.probation.Fits p values
  «protected» : c.protected.Fits (n - p) values
  disjoint : ∀ k, k ∈ c.probation.entries → k ∉ c.protected.entries
  maxTotal : c.maxTotal = n

variable {c : SegmentedLruCache K V} {n p : ℕ} {values : K → Option V} {k : K} {v : V}

lemma Sound.len_le (h : Sound n p values c) (hpn : p < n) : c.len ≤ n := by
  have hprobation := h.probation.len_le
  have hprotected := h.protected.len_le
  unfold len
  omega

lemma Sound.get (h : Sound n p values c) (hpn : p < n) :
    (∀ v, (c.get k).1 = some v → values k = some v) ∧ Sound n p values (c.get k).2 := by
  unfold SegmentedLruCache.get
  by_cases hprot : k ∈ c.protected.entries
  · obtain ⟨v, hv⟩ := mem_iff.1 hprot
    have hentries : (c.protected.get k).2.entries = c.protected.entries := by
      rw [LruCache.get, if_pos hprot]
    have hget : c.protected.get k = (some v, (c.protected.get k).2) := by
      simp only [LruCache.get, if_pos hprot, hv]
    rw [hget]
    refine ⟨?_, { h with «protected» := h.protected.get, disjoint := hentries ▸ h.disjoint }⟩
    rintro _ ⟨⟩
    exact h.protected.fresh k v hv
  · have hget : c.protected.get k = (none, c.protected) := if_neg hprot
    simp only [hget]
    split_ifs with hprob
    · obtain ⟨v, hv⟩ := mem_iff.1 hprob
      have hfresh := h.probation.fresh k v hv
      simp only [LruCache.remove, hv]
      refine ⟨?_, h.probation.remove fun _ _ => rfl, ?_, fun x hx => ?_, h.maxTotal⟩
      · rintro _ ⟨⟩
        exact hfresh
      · exact h.protected.insert (by omega) hfresh fun _ _ => rfl
      · obtain ⟨hxk, hx⟩ := mem_erase.1 hx
        exact fun hmem => h.disjoint x hx (LruCache.mem_of_insert hxk hmem)
    · exact ⟨nofun, h⟩

lemma Sound.step (hp : 1 ≤ p) (hpn : p < n) (h : Sound n p values c) (call : Call K V) :
    Sound n p (fun k => latest k (values k) call) (c.step call) := by
  cases call with
  | get key => exact (h.get hpn).2
  | clear => exact ⟨⟨h.probation.max, .empty, Nat.zero_le _, nofun⟩,
      ⟨h.protected.max, .empty, Nat.zero_le _, nofun⟩, fun _ hx => absurd hx notMem_empty, h.maxTotal⟩
  | insert key value =>
    have hother : ∀ x, x ≠ key → latest x (values x) (.insert key value) = values x :=
      fun x hx => if_neg hx.symm
    simp only [SegmentedLruCache.step, SegmentedLruCache.insert]
    split_ifs with hprot
    · have hnot : key ∉ c.probation.entries := fun hmem => h.disjoint key hmem hprot
      refine ⟨h.probation.congr hnot hother, h.protected.insert (by omega) (if_pos rfl) hother,
        fun x hx hmem => ?_, h.maxTotal⟩
      exact h.disjoint x hx (LruCache.mem_of_insert (ne_of_mem_of_not_mem hx hnot) hmem)
    · have h' : Sound n p (fun k => latest k (values k) (.insert key value))
          { c with probation := c.probation.insert key value } := by
        refine ⟨h.probation.insert hp (if_pos rfl) hother, h.protected.congr hprot hother,
          fun x hx hmem => ?_, h.maxTotal⟩
        exact h.disjoint x (LruCache.mem_of_insert (ne_of_mem_of_not_mem hmem hprot) hx) hmem
      rwa [rebalance, if_pos (h.maxTotal ▸ h'.len_le hpn)]
  | remove key =>
    have hother : ∀ x, x ≠ key → latest x (values x) (.remove key) = values x :=
      fun x hx => if_neg hx.symm
    simp only [SegmentedLruCache.step, SegmentedLruCache.remove]
    split
    next v rest hrest =>
      obtain ⟨hv, rfl⟩ := Prod.mk.inj hrest
      exact ⟨h.probation.remove hother,
        h.protected.congr (h.disjoint key (mem_of_lookup_eq_some hv)) hother,
        fun x hx => h.disjoint x (mem_erase.1 hx).2, h.maxTotal⟩
    next rest hrest =>
      obtain ⟨-, rfl⟩ := Prod.mk.inj hrest
      exact ⟨h.probation.remove hother, h.protected.remove hother,
        fun x hx hmem => h.disjoint x (mem_erase.1 hx).2 (mem_erase.1 hmem).2, h.maxTotal⟩

lemma Sound.run (hp : 1 ≤ p) (hpn : p < n) (h : Sound n p values c) (calls : List (Call K V)) :
    Sound n p (fun k => calls.foldl (latest k) (values k))
      (calls.foldl SegmentedLruCache.step c) := by
  induction calls generalizing c values with
  | nil => exact h
  | cons call calls ih => exact ih (h.step hp hpn call)

def run (n p : ℕ) (calls : List (Call K V)) : SegmentedLruCache K V :=
  calls.foldl SegmentedLruCache.step (new n p)

theorem sound_run (hp : 1 ≤ p) (hpn : p < n) (calls : List (Call K V)) :
    (∀ k, k ∈ (run n p calls).probation.entries → k ∉ (run n p calls).protected.entries) ∧
      Listed (run n p calls).probation.order (run n p calls).probation.entries ∧
      Listed (run n p calls).protected.order (run n p calls).protected.entries ∧
      (run n p calls).len ≤ n ∧
      ∀ k v, ((run n p calls).get k).1 = some v → calls.foldl (latest k) none = some v := by
  have hprotected : 1 ≤ n - p := Nat.sub_pos_of_lt hpn
  have hnew : Sound n p (fun _ => none) (new n p : SegmentedLruCache K V) := by
    simp only [new, LruCache.new, max_eq_right hp, max_eq_right hprotected]
    exact ⟨.empty, .empty, fun _ hx => absurd hx notMem_empty, rfl⟩
  have h := hnew.run hp hpn calls
  exact ⟨h.disjoint, h.probation.listed, h.protected.listed, h.len_le hpn, fun k => (h.get hpn).1⟩

theorem sound_run_promoted :
    ((run 3 1 [.insert "a" 1, .get "a", .insert "b" 2]).get "a").1 = some 1 ∧
      (run 3 1 [.insert "a" 1, .get "a", .insert "b" 2]).len ≤ 3 :=
  ⟨by decide, (sound_run (by decide) (by decide) _).2.2.2.1⟩

end SegmentedLruCache

end VaultSync.Opfs
