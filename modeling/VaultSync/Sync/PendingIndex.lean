import VaultSync.Opfs.PageStoreSpec

/-! The mutations that wait for their upload, by sequence and by document. -/

namespace VaultSync

open Async Opfs List

structure PendingIndex where
  pending : Finmap fun _ : ℕ => String × String
  byDoc : String → Option (Finset ℕ)
  count : ℕ

namespace PendingIndex

def new : PendingIndex := ⟨∅, fun _ => none, 0⟩

section functions

variable (p : PendingIndex)

def counted : PendingIndex := { p with count := p.pending.keys.card }

/-- An entry is a sequence with its document and its record. -/
def enter (e : ℕ × String × String) : PendingIndex :=
  { p with
    pending := p.pending.insert e.1 e.2
    byDoc := Function.update p.byDoc e.2.1 (some (insert e.1 ((p.byDoc e.2.1).getD ∅))) }

def record (seq : ℕ) (docId recordId : String) : PendingIndex :=
  (p.enter (seq, docId, recordId)).counted

def markSynced (seq : ℕ) : PendingIndex :=
  match p.pending.lookup seq with
  | none => p
  | some (docId, _) =>
    counted { p with
      pending := p.pending.erase seq
      byDoc :=
        match p.byDoc docId with
        | none => p.byDoc
        | some seqs => Function.update p.byDoc docId
            (if seqs.erase seq = ∅ then none else some (seqs.erase seq)) }

def cancelDoc (docId : String) : PendingIndex :=
  match p.byDoc docId with
  | none => p
  | some seqs =>
    counted { p with
      pending := (ascending seqs).foldl (fun pending seq => pending.erase seq) p.pending
      byDoc := Function.update p.byDoc docId none }

def drainAll : List (ℕ × String × String) × PendingIndex :=
  ((ascending p.pending.keys).filterMap fun seq => (p.pending.lookup seq).map (seq, ·), new)

def resetFrom (entries : List (ℕ × String × String)) : PendingIndex :=
  (entries.foldl enter { p with pending := ∅, byDoc := fun _ => none }).counted

def docOf (seq : ℕ) : Option String := (p.pending.lookup seq).map Prod.fst

structure Indexed : Prop where
  mem_iff : ∀ docId seq, seq ∈ (p.byDoc docId).getD ∅ ↔ p.docOf seq = some docId
  nonempty : ∀ docId, p.byDoc docId ≠ some ∅

structure Coherent : Prop extends Indexed p where
  count : p.count = p.pending.keys.card
  cancel : ∀ docId seq, p.docOf seq ≠ some docId →
    (p.cancelDoc docId).pending.lookup seq = p.pending.lookup seq

end functions

inductive Call where
  | record (seq : ℕ) (docId recordId : String)
  | markSynced (seq : ℕ)
  | cancelDoc (docId : String)
  | drainAll
  | resetFrom (entries : List (ℕ × String × String))

def step (p : PendingIndex) : Call → PendingIndex
  | .record seq docId recordId => p.record seq docId recordId
  | .markSynced seq => p.markSynced seq
  | .cancelDoc docId => p.cancelDoc docId
  | .drainAll => p.drainAll.2
  | .resetFrom entries => p.resetFrom entries

/-- No sequence gets a second document while it is pending. -/
def OneDoc (p : PendingIndex) : Call → Prop
  | .record seq docId _ => ∀ d, p.docOf seq = some d → d = docId
  | .resetFrom entries => ∀ a ∈ entries, ∀ b ∈ entries, a.1 = b.1 → a.2.1 = b.2.1
  | _ => True

variable {p : PendingIndex} {e : ℕ × String × String} {entries : List (ℕ × String × String)}

@[grind =] lemma docOf_enter (seq : ℕ) :
    (p.enter e).docOf seq = if seq = e.1 then some e.2.1 else p.docOf seq := by
  unfold docOf enter
  split_ifs with h
  · rw [h, Finmap.lookup_insert, Option.map_some]
  · rw [Finmap.lookup_insert_of_ne _ h]

@[grind =] lemma byDoc_enter (docId : String) : ((p.enter e).byDoc docId).getD ∅ =
    if docId = e.2.1 then insert e.1 ((p.byDoc e.2.1).getD ∅) else (p.byDoc docId).getD ∅ := by
  simp only [enter, Function.update_apply]
  split_ifs <;> rfl

lemma Indexed.cancel (h : p.Indexed) (docId : String) (seq : ℕ) (hne : p.docOf seq ≠ some docId) :
    (p.cancelDoc docId).pending.lookup seq = p.pending.lookup seq := by
  have hmem := h.mem_iff docId seq
  unfold cancelDoc
  split
  · rfl
  next s hs =>
    rw [hs, Option.getD_some] at hmem
    simp only [counted, StoreState.lookup_foldl_erase, mem_ascending]
    exact if_neg (mt hmem.1 hne)

lemma coherent_counted : p.counted.Coherent ↔ p.Indexed := by
  constructor
  · exact fun h => ⟨h.mem_iff, h.nonempty⟩
  · intro h
    have hcounted : p.counted.Indexed := ⟨h.mem_iff, h.nonempty⟩
    exact ⟨hcounted, rfl, hcounted.cancel⟩

lemma indexed_empty (n : ℕ) : Indexed ⟨∅, fun _ => none, n⟩ :=
  ⟨fun _ _ => by simp [docOf], nofun⟩

lemma Indexed.enter_iff (h : p.Indexed) :
    (p.enter e).Indexed ↔ ∀ d, p.docOf e.1 = some d → d = e.2.1 := by
  have hmem := h.mem_iff
  constructor
  · intro h' d hd
    have hmem' := h'.mem_iff d e.1
    grind
  · intro hsame
    refine ⟨by grind, fun d => ?_⟩
    simp only [enter, Function.update_apply]
    split_ifs
    · simp
    · exact h.nonempty d

lemma Coherent.markSynced (h : p.Coherent) (seq : ℕ) : (p.markSynced seq).Coherent := by
  unfold PendingIndex.markSynced
  split
  · exact h
  next docId _ hv =>
    have hdoc : p.docOf seq = some docId := by rw [docOf, hv]; rfl
    have hin := (h.mem_iff docId seq).2 hdoc
    cases hs : p.byDoc docId with
    | none => simp [hs] at hin
    | some s =>
      rw [coherent_counted]
      constructor
      · intro d s'
        have hmem := h.mem_iff d s'
        unfold docOf at hdoc hmem ⊢
        by_cases hs' : s' = seq
        · rw [hs', Finmap.lookup_erase]
          grind
        · rw [Finmap.lookup_erase_ne hs']
          grind
      · grind [h.nonempty]

lemma Coherent.cancelDoc (h : p.Coherent) (docId : String) : (p.cancelDoc docId).Coherent := by
  unfold PendingIndex.cancelDoc
  split
  · exact h
  next s hs =>
    rw [coherent_counted]
    constructor
    · intro d seq
      have hmem := h.mem_iff d seq
      have hs' := h.mem_iff docId seq
      simp only [docOf, StoreState.lookup_foldl_erase, mem_ascending]
      unfold docOf at hmem hs'
      grind
    · grind [h.nonempty]

lemma mem_byDoc_foldl : ∀ e ∈ entries, e.1 ∈ ((entries.foldl enter p).byDoc e.2.1).getD ∅ := by
  induction entries using List.reverseRecOn with
  | nil => nofun
  | append_singleton es a ih =>
    rw [foldl_append, foldl_cons, foldl_nil]
    grind

lemma Indexed.foldl (h : p.Indexed) (hold : ∀ e ∈ entries, ∀ d, p.docOf e.1 = some d → d = e.2.1)
    (hone : ∀ a ∈ entries, ∀ b ∈ entries, a.1 = b.1 → a.2.1 = b.2.1) :
    (entries.foldl enter p).Indexed := by
  induction entries generalizing p with
  | nil => exact h
  | cons e es ih =>
    rw [forall_mem_cons] at hold
    apply ih (h.enter_iff.2 hold.1)
    · intro a ha d hd
      rw [docOf_enter] at hd
      split_ifs at hd with hae
      · have hsame := hone e mem_cons_self a (mem_cons_of_mem e ha) hae.symm
        exact (Option.some.inj hd).symm.trans hsame
      · exact hold.2 a ha d hd
    · exact fun a ha b hb => hone a (mem_cons_of_mem e ha) b (mem_cons_of_mem e hb)

lemma resetFrom_iff : (p.resetFrom entries).Coherent ↔ p.OneDoc (.resetFrom entries) := by
  rw [resetFrom, coherent_counted]
  constructor
  · intro h a ha b hb hab
    have hdoc := (h.mem_iff _ _).1 (mem_byDoc_foldl a ha)
    have hdoc' := (h.mem_iff _ _).1 (mem_byDoc_foldl b hb)
    rw [hab] at hdoc
    exact Option.some.inj (hdoc.symm.trans hdoc')
  · exact (indexed_empty p.count).foldl (by simp [docOf])

/-- **Coherence.** In every state both maps agree, exactly if no sequence gets a second document
while it is pending. -/
theorem coherent_iff_oneDoc (calls : List Call) :
    Throughout step Coherent new calls ↔ Admitted step OneDoc new calls := by
  apply always_iff_admitted
  · intro call _ p h
    cases call with
    | record seq docId recordId => exact coherent_counted.trans h.enter_iff
    | markSynced seq => exact iff_of_true (h.markSynced seq) trivial
    | cancelDoc docId => exact iff_of_true (h.cancelDoc docId) trivial
    | drainAll => exact iff_of_true (coherent_counted.2 (indexed_empty 0)) trivial
    | resetFrom entries => exact resetFrom_iff
  · exact coherent_counted.2 (indexed_empty 0)

/-- Sequence 5 is recorded again for `b`: cancelling `a` removes it. -/
theorem cancels_other_doc :
    let p := [.record 5 "a" "x", .record 5 "b" "y"].foldl step new
    p.pending.lookup 5 = some ("b", "y") ∧ (p.cancelDoc "a").pending.lookup 5 = none := by
  decide

end PendingIndex

end VaultSync
