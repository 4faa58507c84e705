import Mathlib.Data.Finmap

/-! A finite map with a queue of its keys. -/

namespace Maps

open Finmap List

variable {κ β : Type} [DecidableEq κ] {m : Finmap fun _ : κ => β} {order order' : List κ} {a : κ}
  {b : β}

lemma insert_erase : (m.erase a).insert a b = m.insert a b := by
  apply ext_lookup
  intro x
  by_cases hx : x = a
  · subst hx
    rw [lookup_insert, lookup_insert]
  · rw [lookup_insert_of_ne _ hx, lookup_insert_of_ne _ hx, lookup_erase_ne hx]

lemma insert_lookup (h : m.lookup a = some b) : m.insert a b = m := by
  apply ext_lookup
  intro x
  by_cases hx : x = a
  · subst hx
    rw [lookup_insert, h]
  · rw [lookup_insert_of_ne _ hx]

/-- The queue has each key of the map once. -/
structure Listed (order : List κ) (m : Finmap fun _ : κ => β) : Prop where
  nodup : order.Nodup
  mem : ∀ a, a ∈ order ↔ a ∈ m

namespace Listed

lemma empty : Listed [] (∅ : Finmap fun _ : κ => β) :=
  ⟨.nil, fun _ => iff_of_false nofun notMem_empty⟩

lemma card_keys (h : Listed order m) : m.keys.card = order.length := by
  have hkeys : m.keys = order.toFinset := by
    ext x
    rw [Finmap.mem_keys, mem_toFinset, h.mem]
  rw [hkeys, toFinset_card_of_nodup h.nodup]

lemma perm (h : Listed order m) (hperm : order.Perm order') : Listed order' m :=
  ⟨hperm.nodup_iff.1 h.nodup, fun a => hperm.mem_iff.symm.trans (h.mem a)⟩

lemma erase (h : Listed order m) : Listed (order.erase a) (m.erase a) := by
  refine ⟨h.nodup.erase a, fun x => ?_⟩
  rw [h.nodup.mem_erase_iff, h.mem, mem_erase]

lemma tail (h : Listed (a :: order) m) : Listed order (m.erase a) := by
  have htail := h.erase (a := a)
  rwa [erase_cons_head] at htail

section

variable (h : Listed order m)

include h

lemma cons (ha : a ∉ m) : Listed (a :: order) (m.insert a b) :=
  ⟨nodup_cons.2 ⟨fun hmem => ha ((h.mem a).1 hmem), h.nodup⟩, fun x => by
    rw [mem_cons, h.mem, mem_insert]⟩

lemma push (ha : a ∉ m) : Listed (order ++ [a]) (m.insert a b) :=
  (h.cons ha).perm (perm_append_singleton _ _).symm

lemma head (ha : a ∈ m) : order.Perm (a :: order.erase a) :=
  perm_cons_erase ((h.mem a).2 ha)

lemma touch (ha : a ∈ m) : Listed (order.erase a ++ [a]) m :=
  h.perm ((h.head ha).trans (perm_append_singleton _ _).symm)

end

lemma insert (h : Listed order m) (ha : a ∈ m) : Listed order (m.insert a b) := by
  rw [← insert_erase]
  exact (h.erase.cons notMem_erase_self).perm (h.head ha).symm

end Listed

end Maps
