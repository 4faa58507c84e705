import VaultSync.Sync.MergePaths

/-! The ids a reconciler remembers: a set to look them up and a queue to forget the oldest. -/

namespace VaultSync

open Async AsyncFn World List

variable {B : Type} [DecidableEq B]

/-- What `apply_remote_update` does, with a plaintext in place of the entry's update. -/
def applyEncryptedUpdate (L : Lib B) (entry : OplogEntry B) (plaintextUpdate : B) : AsyncFn B Unit :=
  applyRemoteUpdate L { entry with yrsUpdate := plaintextUpdate }

namespace DedupCache

inductive Applied (B : Type) where
  | remote (entry : OplogEntry B)
  | encrypted (entry : OplogEntry B) (plaintextUpdate : B)
  | batch (entries : List (OplogEntry B))

def Applied.prog (L : Lib B) : Applied B → AsyncFn B Unit
  | .remote entry => applyRemoteUpdate L entry
  | .encrypted entry plaintextUpdate => applyEncryptedUpdate L entry plaintextUpdate
  | .batch entries => applyBatch L entries

def Applied.Distinct (c : DedupCache) : Applied B → Prop
  | .batch entries => (uncommittedIds c.seen entries).Nodup
  | _ => True

def Step (L : Lib B) (n : ℕ) (A : Call B → Env B → World B → Prop)
    (ok : DedupCache → Applied B → Prop) (w w' : World B) : Prop :=
  ∃ call r, ok w.client.dedup call ∧ Outcome (machine n A) (call.prog L) w r w'

structure Exact (c : DedupCache) : Prop where
  mem_iff : ∀ x, x ∈ c.seen ↔ x ∈ c.queue
  nodup : c.queue.Nodup
  length_le : c.queue.length ≤ dedupCacheSize

variable {c : DedupCache} {id : String} {ids : List String}

lemma Exact.mark (h : c.Exact) (hid : id ∉ c.seen) : (c.mark id).Exact := by
  have hnodup : (c.queue ++ [id]).Nodup := by
    simpa [nodup_append, h.nodup, h.mem_iff, forall_mem_ne'] using hid
  have hmem : ∀ x, x ∈ insert id c.seen ↔ x ∈ c.queue ++ [id] := by
    intro x
    simp [h.mem_iff, or_comm]
  have hlen : (c.queue ++ [id]).length ≤ dedupCacheSize + 1 := by
    simpa using h.length_le
  unfold DedupCache.mark
  generalize c.queue ++ [id] = queue at hnodup hmem hlen ⊢
  simp only
  split_ifs with hfull
  · cases queue with
    | nil => exact absurd hfull (Nat.not_lt_zero _)
    | cons oldest rest =>
      obtain ⟨hold, hrest⟩ := nodup_cons.1 hnodup
      refine ⟨fun x => ?_, hrest, Nat.le_of_succ_le_succ hlen⟩
      rw [Finset.mem_erase, hmem, mem_cons]
      constructor
      · exact fun ⟨hne, hx⟩ => hx.resolve_left hne
      · exact fun hx => ⟨fun heq => hold (heq ▸ hx), .inr hx⟩
  · exact ⟨hmem, hnodup, not_lt.1 hfull⟩

lemma Exact.foldl_mark (h : c.Exact) (hnodup : ids.Nodup) (hid : ∀ id ∈ ids, id ∉ c.seen) :
    (ids.foldl DedupCache.mark c).Exact := by
  induction ids generalizing c with
  | nil => exact h
  | cons id ids ih =>
    obtain ⟨hnot, hnodup⟩ := nodup_cons.1 hnodup
    obtain ⟨hid, hids⟩ := forall_mem_cons.1 hid
    refine ih (h.mark hid) hnodup fun x hx hseen => ?_
    rcases mem_seen_mark hseen with rfl | hseen
    · exact hnot hx
    · exact hids x hx hseen

variable {L : Lib B} {n : ℕ} {A : Call B → Env B → World B → Prop} {w w' : World B}

lemma Exact.prog (h : w.client.dedup.Exact) {call : Applied B}
    (hcall : call.Distinct w.client.dedup) :
    wp (machine n A) (fun _ w' => w'.client.dedup.Exact) (call.prog L) w := by
  have hremote : ∀ entry : OplogEntry B,
      wp (machine n A) (fun _ w' => w'.client.dedup.Exact) (applyRemoteUpdate L entry) w := by
    intro entry
    apply wp_applyRemoteUpdate (fun _ => h) fun _ _ => h
    intro _ _ w' hid _ _ _ _ _ hdedup
    rw [hdedup]
    exact h.mark hid
  cases call with
  | remote entry => exact hremote entry
  | encrypted entry plaintextUpdate => exact hremote _
  | batch entries =>
    apply wp_applyBatch (fun _ => h) fun _ _ => h
    intro _ _ _ _ _ _
    apply h.foldl_mark hcall
    intro id hid
    obtain ⟨e, he, rfl⟩ := mem_map.1 hid
    exact of_decide_eq_true (mem_filter.1 he).2

/-- If no id stands twice among the new ones of a batch, then the set and the queue have the same
ids, each once and at most 10000. -/
theorem exact_of_distinct (hrun : Relation.ReflTransGen (Step L n A Applied.Distinct) w w')
    (hw : w.client.dedup = ⟨∅, []⟩) : w'.client.dedup.Exact := by
  induction hrun with
  | refl =>
    rw [hw]
    exact ⟨fun _ => by simp, nodup_nil, Nat.zero_le _⟩
  | tail _ hstep ih =>
    obtain ⟨call, r, hcall, hout⟩ := hstep
    exact wp_iff_outcome.1 (ih.prog hcall) r _ hout

def titles : OplogEntry Sym := MergePaths.pushed ⟨{2}, ∅⟩

def appliedTogether (entries : List (OplogEntry Sym)) : World Sym :=
  (run (machine 0 StorageUp) (applyBatch Sym.lib entries) [] MergePaths.titled).2

lemma step_appliedTogether {ok : DedupCache → Applied Sym → Prop} {entries : List (OplogEntry Sym)}
    (hok : ok ⟨∅, []⟩ (.batch entries)) :
    Step Sym.lib 0 StorageUp ok MergePaths.titled (appliedTogether entries) :=
  ⟨.batch entries, _, hok, run_outcome (M := machine 0 StorageUp) _ [] _ fun _ _ =>
    ⟨rfl, fun _ he => absurd he not_mem_nil⟩⟩

theorem exact_titles : (appliedTogether [titles]).client.dedup.Exact :=
  exact_of_distinct (.single (step_appliedTogether (nodup_singleton _))) rfl

/-- An id that a batch has twice is in the queue twice. -/
theorem queued_twice :
    Step Sym.lib 0 StorageUp (fun _ _ => True) MergePaths.titled (appliedTogether [titles, titles]) ∧
      (appliedTogether [titles, titles]).client.dedup = ⟨{"1"}, ["1", "1"]⟩ :=
  ⟨step_appliedTogether trivial, rfl⟩

end DedupCache

end VaultSync
