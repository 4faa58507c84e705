import Mathlib.Data.List.Induction
import Mathlib.Data.List.Nodup

/-! Versions of keyed records in a list, of which the last one of each key counts, and lists that
hold the versions that count. -/

namespace Versions

open List

variable {κ α : Type}

structure Represents (key : α → κ) (l : List α) (m : κ → Option α) : Prop where
  nodup : (l.map key).Nodup
  eq_some_iff : ∀ k a, m k = some a ↔ a ∈ l ∧ key a = k

section represents

variable {key : α → κ} {l l' : List α} {m : κ → Option α} {k : κ}

lemma represents_nil : Represents key [] fun _ => none where
  nodup := nodup_nil
  eq_some_iff k a := by simp

lemma Represents.perm (h : Represents key l m) (hl : l'.Perm l) : Represents key l' m where
  nodup := (hl.map key).nodup_iff.2 h.nodup
  eq_some_iff k a := by rw [h.eq_some_iff, hl.mem_iff]

lemma Represents.filter (h : Represents key l m) (p : α → Bool) :
    Represents key (l.filter p) fun k => (m k).filter p where
  nodup := h.nodup.sublist (filter_sublist.map key)
  eq_some_iff k a := by
    rw [Option.filter_eq_some_iff, h.eq_some_iff, mem_filter]
    exact ⟨fun h => ⟨⟨h.1.1, h.2⟩, h.1.2⟩, fun h => ⟨⟨h.1.1, h.2⟩, h.1.2⟩⟩

lemma Represents.eq_none_iff (h : Represents key l m) : m k = none ↔ ∀ a ∈ l, key a ≠ k := by
  rw [Option.eq_none_iff_forall_ne_some]
  exact forall_congr' fun a => by rw [ne_eq, h.eq_some_iff, not_and]

end represents

variable [DecidableEq κ]

section versions

variable (key : α → κ)

def upsert (seen : List α) (a : α) : List α := a :: seen.filter fun b => key b ≠ key a

def absorb (seen l : List α) : List α := l.foldl (upsert key) seen

def update (m : κ → Option α) (l : List α) : κ → Option α :=
  l.foldl (fun m a => Function.update m (key a) (some a)) m

def latest (l : List α) : κ → Option α := update key (fun _ => none) l

end versions

variable {key : α → κ} {l l' : List α} {m : κ → Option α} {k : κ} {a : α}

lemma absorb_append {seen : List α} :
    absorb key seen (l ++ l') = absorb key (absorb key seen l) l' := foldl_append

lemma latest_append : latest key (l ++ l') = update key (latest key l) l' := foldl_append

lemma Represents.upsert (h : Represents key l m) (a : α) :
    Represents key (upsert key l a) (Function.update m (key a) (some a)) where
  nodup := by
    have hrest : ((l.filter fun b => key b ≠ key a).map key).Nodup :=
      h.nodup.sublist (filter_sublist.map key)
    have hnew : key a ∉ (l.filter fun b => key b ≠ key a).map key := by
      rw [mem_map]
      rintro ⟨b, hb, hba⟩
      exact of_decide_eq_true (mem_filter.1 hb).2 hba
    exact nodup_cons.2 ⟨hnew, hrest⟩
  eq_some_iff k b := by
    rw [Versions.upsert, mem_cons, mem_filter, decide_eq_true_iff]
    by_cases hk : k = key a
    · subst hk
      rw [Function.update_self, Option.some.injEq]
      constructor
      · rintro rfl
        exact ⟨.inl rfl, rfl⟩
      · rintro ⟨rfl | hb, hkey⟩
        · rfl
        · exact absurd hkey hb.2
    · rw [Function.update_of_ne hk, h.eq_some_iff]
      constructor
      · rintro ⟨hb, rfl⟩
        exact ⟨.inr ⟨hb, hk⟩, rfl⟩
      · rintro ⟨rfl | hb, hkey⟩
        · exact absurd hkey.symm hk
        · exact ⟨hb.1, hkey⟩

lemma Represents.absorb (h : Represents key l m) (l' : List α) :
    Represents key (absorb key l l') (update key m l') := by
  induction l' generalizing l m with
  | nil => exact h
  | cons a l' ih => exact ih (h.upsert a)

lemma represents_absorb_nil (l : List α) : Represents key (absorb key [] l) (latest key l) :=
  represents_nil.absorb l

lemma update_of_notMem (hk : ∀ a ∈ l, key a ≠ k) : update key m l k = m k := by
  induction l generalizing m with
  | nil => rfl
  | cons a l ih =>
    have ha : k ≠ key a := (hk a mem_cons_self).symm
    refine (ih fun b hb => hk b (mem_cons_of_mem a hb)).trans ?_
    exact Function.update_of_ne ha _ _

lemma update_of_mem (hnd : (l.map key).Nodup) (ha : a ∈ l) : update key m l (key a) = some a := by
  induction l generalizing m with
  | nil => cases ha
  | cons b l ih =>
    rw [map_cons, nodup_cons] at hnd
    rcases mem_cons.1 ha with rfl | ha
    · have hrest : ∀ b ∈ l, key b ≠ key a := fun b hb h => hnd.1 (h ▸ mem_map_of_mem hb)
      exact (update_of_notMem hrest).trans (Function.update_self _ _ _)
    · exact ih hnd.2 ha

lemma Represents.latest_eq (h : Represents key l m) : latest key l = m := by
  funext k
  cases hm : m k with
  | none => exact update_of_notMem (h.eq_none_iff.1 hm)
  | some a =>
    obtain ⟨ha, rfl⟩ := (h.eq_some_iff k a).1 hm
    exact update_of_mem h.nodup ha

lemma latest_concat (l : List α) (a : α) :
    latest key (l ++ [a]) = Function.update (latest key l) (key a) (some a) := latest_append

lemma mem_of_latest (h : latest key l k = some a) : a ∈ l ∧ key a = k := by
  induction l using List.reverseRecOn with
  | nil => cases h
  | append_singleton l b ih =>
    rw [latest_concat] at h
    by_cases hk : k = key b
    · subst hk
      rw [Function.update_self, Option.some.injEq] at h
      subst h
      exact ⟨mem_append_right l mem_cons_self, rfl⟩
    · rw [Function.update_of_ne hk] at h
      exact ⟨mem_append_left [b] (ih h).1, (ih h).2⟩

lemma exists_latest (ha : a ∈ l) : ∃ b, latest key l (key a) = some b := by
  induction l using List.reverseRecOn with
  | nil => cases ha
  | append_singleton l b ih =>
    rw [latest_concat]
    by_cases hk : key a = key b
    · exact ⟨b, by rw [hk, Function.update_self]⟩
    · rw [Function.update_of_ne hk]
      refine ih ((mem_append.1 ha).resolve_right fun hb => hk ?_)
      rw [mem_singleton.1 hb]

lemma latest_eq_self_iff :
    (∀ a ∈ l, latest key l (key a) = some a) ↔ ∀ a ∈ l, ∀ b ∈ l, key a = key b → a = b := by
  constructor
  · intro h a ha b hb hab
    have hsome := h a ha
    rw [hab, h b hb] at hsome
    exact (Option.some.inj hsome).symm
  · intro h a ha
    obtain ⟨b, hb⟩ : ∃ b, latest key l (key a) = some b := exists_latest ha
    obtain ⟨hmem, hkey⟩ := mem_of_latest hb
    rw [hb, h a ha b hmem hkey.symm]

lemma Represents.filter_key (h : Represents key l m) (k : κ) :
    l.filter (fun a => key a = k) = (m k).toList := by
  cases hm : m k with
  | none =>
    rw [Option.toList_none, filter_eq_nil_iff]
    exact fun a ha => by simpa using h.eq_none_iff.1 hm a ha
  | some a =>
    obtain ⟨ha, rfl⟩ := (h.eq_some_iff k a).1 hm
    have hnd : (l.filter fun b => key b = key a).Nodup := h.nodup.of_map.filter _
    have hmem : ∀ b, b ∈ l.filter (fun b => key b = key a) ↔ b = a := by
      intro b
      rw [mem_filter, decide_eq_true_iff, ← h.eq_some_iff, hm, Option.some.injEq, eq_comm]
    exact perm_singleton.1 ((perm_ext_iff_of_nodup hnd (nodup_singleton a)).2
      fun b => (hmem b).trans mem_singleton.symm)

lemma represents_find? (h : (l.map key).Nodup) : Represents key l fun k => l.find? (key · = k) where
  nodup := h
  eq_some_iff k a := by
    have hfind : ∀ {b}, l.find? (key · = k) = some b → b ∈ l ∧ key b = k := fun hb =>
      ⟨mem_of_find?_eq_some hb, by simpa using find?_some hb⟩
    refine ⟨hfind, ?_⟩
    rintro ⟨ha, rfl⟩
    obtain ⟨b, hb⟩ : ∃ b, l.find? (key · = key a) = some b :=
      Option.isSome_iff_exists.1 (find?_isSome.2 ⟨a, ha, decide_eq_true rfl⟩)
    rw [hb, inj_on_of_nodup_map h (hfind hb).1 ha (hfind hb).2]

/-- Idempotent operations, each on one key, may all be made from what there is in the end. -/
lemma update_deferred {ω : Type} {target : ω → κ} {on : ω → Option α → Option α} {ops : List ω}
    {m' : κ → Option α} (hidem : ∀ op x, on op (on op x) = on op x)
    (hnone : ∀ op x, on op x = none → x = none)
    (hkey : ∀ op a, on op (m' (target op)) = some a → key a = target op)
    (hm' : m' k =
      ops.foldl (fun m op => Function.update m (target op) (on op (m (target op)))) m k) :
    update key m (ops.filterMap fun op => on op (m' (target op))) k = m' k := by
  induction ops using List.reverseRecOn with
  | nil => exact hm'.symm
  | append_singleton ops op ih =>
    rw [foldl_append, foldl_cons, foldl_nil] at hm'
    rw [filterMap_append, update, foldl_append]
    by_cases hk : k = target op
    · subst hk
      rw [Function.update_self] at hm'
      have hon : on op (m' (target op)) = m' (target op) := by rw [hm', hidem]
      cases hx : on op (m' (target op)) with
      | none =>
        have hnone' : m' (target op) = none := hon.symm.trans hx
        simp only [filterMap_cons, hx, filterMap_nil]
        exact ih (hnone'.trans (hnone op _ (hm'.symm.trans hnone')).symm)
      | some a =>
        simp only [filterMap_cons, hx, filterMap_nil]
        rw [← hon, hx, ← hkey op a hx]
        exact Function.update_self _ _ _
    · rw [Function.update_of_ne hk] at hm'
      refine (update_of_notMem fun a ha => ?_).trans (ih hm')
      obtain ⟨_, hop, ha⟩ := mem_filterMap.1 ha
      rw [mem_singleton.1 hop] at ha
      exact hkey op a ha ▸ Ne.symm hk

end Versions
