import Mathlib.Data.Finset.Max
import Mathlib.Data.Prod.Lex
import Mathlib.Order.ConditionallyCompleteLattice.Basic
import VaultSync.Crdt.Symbolic

/-! The fields of a document. yrs keeps for each key of a map the items written under it, and
shows the one that is not deleted. -/

namespace VaultSync

open Finset

variable {B : Type}

abbrev ItemId := ClientId × ℕ

/-- The key each item is written under, and its value. An item is written once. -/
abbrev Content := ItemId → String × CrdtValue

namespace CrdtState

def HasItem (d : CrdtState) (i : ItemId) : Prop := i.2 < d.stateVector.count i.1

variable (content : Content)

def Live (d : CrdtState) (name : String) (i : ItemId) : Prop :=
  d.HasItem i ∧ i ∉ d.deleteSet ∧ (content i).1 = name

def Settled (d : CrdtState) (name : String) : Prop :=
  ∀ i j, Live content d name i → Live content d name j → i = j

def AgreeOn (name : String) (d d' : CrdtState) : Prop :=
  ∀ i, (content i).1 = name → (d.HasItem i ↔ d'.HasItem i) ∧ (i ∈ d.deleteSet ↔ i ∈ d'.deleteSet)

end CrdtState

/-- What yrs documents of its maps: the item of a key is a live one, if there is any, which one
depends on the items of the key, and its value is the key's value. -/
structure Lib.Maps (L : Lib B) (content : Content) : Prop where
  live_of_itemAt : ∀ {d name i}, L.itemAt d name = some i → d.Live content name i
  itemAt_ne_none : ∀ {d name i}, d.Live content name i → L.itemAt d name ≠ none
  itemAt_congr : ∀ {d d' name}, CrdtState.AgreeOn content name d d' →
    L.itemAt d name = L.itemAt d' name
  field_eq : ∀ d name, L.field d name = (L.itemAt d name).map fun i => (content i).2

/-- Of several items that are live under a key, one by the largest client id is shown. -/
structure Lib.LargestWins (L : Lib B) (content : Content) : Prop extends L.Maps content where
  le_itemAt : ∀ {d name i j}, L.itemAt d name = some i → d.Live content name j → j.1 ≤ i.1

namespace Lib.Maps

open CrdtState

variable {L : Lib B} {content : Content} {d d' : CrdtState} {name : String} {i : ItemId}

lemma field_congr (h : L.Maps content) (hagree : AgreeOn content name d d') :
    L.field d name = L.field d' name := by
  rw [h.field_eq, h.field_eq, h.itemAt_congr hagree]

section

variable (h : L.Maps content) (hlive : d.Live content name i) (hset : d.Settled content name)

include h hlive hset

lemma itemAt_eq : L.itemAt d name = some i := by
  cases hat : L.itemAt d name with
  | none => exact absurd hat (h.itemAt_ne_none hlive)
  | some j => rw [hset j i (h.live_of_itemAt hat) hlive]

lemma field_eq_of_live : L.field d name = some (content i).2 := by
  rw [h.field_eq, h.itemAt_eq hlive hset, Option.map_some]

end

end Lib.Maps

/-! ## The items of a key -/

namespace CrdtState

variable {content : Content} {name : String} {d d' : CrdtState} {v : StateVector}

def itemsOf (content : Content) (name : String) (d : CrdtState) : Set ItemId × Set ItemId :=
  ({i | (content i).1 = name ∧ d.HasItem i}, {i | (content i).1 = name ∧ i ∈ d.deleteSet})

lemma hasItem_sup {i : ItemId} : (d ⊔ d').HasItem i ↔ d.HasItem i ∨ d'.HasItem i := by
  change i.2 < Multiset.count i.1 (d.stateVector ∪ d'.stateVector) ↔ _
  rw [Multiset.count_union, lt_max_iff]
  rfl

lemma mem_deleteSet_sup {i : ItemId} :
    i ∈ (d ⊔ d').deleteSet ↔ i ∈ d.deleteSet ∨ i ∈ d'.deleteSet := mem_union

lemma itemsOf_sup (d d' : CrdtState) :
    itemsOf content name (d ⊔ d') = itemsOf content name d ⊔ itemsOf content name d' := by
  ext i
  · change _ ∧ _ ↔ (_ ∧ _) ∨ (_ ∧ _)
    rw [hasItem_sup, and_or_left]
  · change _ ∧ _ ↔ (_ ∧ _) ∨ (_ ∧ _)
    rw [mem_deleteSet_sup, and_or_left]

def Silent (content : Content) (name : String) (c : ClientId) : Prop :=
  ∀ m, (content (c, m)).1 ≠ name

lemma itemsOf_silent (h : ∀ c ∈ v, Silent content name c) (b : Set ItemId × Set ItemId) :
    itemsOf content name ⟨v, ∅⟩ ≤ b := by
  refine ⟨fun i hi => ?_, fun i hi => absurd hi.2 (notMem_empty i)⟩
  have hmem : i.1 ∈ v := Multiset.count_pos.1 (Nat.zero_lt_of_lt hi.2)
  exact absurd hi.1 (h i.1 hmem i.2)

lemma agreeOn_of_itemsOf (h : itemsOf content name d = itemsOf content name d') :
    AgreeOn content name d d' := by
  intro i hi
  have hitems := congrArg (fun p : Set ItemId × Set ItemId => i ∈ p.1) h
  have hdeleted := congrArg (fun p : Set ItemId × Set ItemId => i ∈ p.2) h
  have hiff : ((content i).1 = name ∧ d.HasItem i) ↔ ((content i).1 = name ∧ d'.HasItem i) :=
    iff_of_eq hitems
  have hiff' : ((content i).1 = name ∧ i ∈ d.deleteSet) ↔
      ((content i).1 = name ∧ i ∈ d'.deleteSet) := iff_of_eq hdeleted
  rw [and_congr_right_iff] at hiff hiff'
  exact ⟨hiff hi, hiff' hi⟩

end CrdtState

/-! ## Writing a field -/

namespace CrdtState

variable {content : Content} {d : CrdtState} {name : String} {c : ClientId} {i : ItemId}
  {replaced : Option ItemId}

def DeletesOwn (d : CrdtState) : Prop := ∀ i ∈ d.deleteSet, d.HasItem i

lemma hasItem_insertItem :
    (d.insertItem c replaced).HasItem i ↔ d.HasItem i ∨ i = (c, d.stateVector.count c) := by
  obtain ⟨a, n⟩ := i
  unfold HasItem insertItem
  dsimp only
  rw [Multiset.count_cons, Prod.mk.injEq]
  split_ifs with h
  · rw [h, Nat.lt_succ_iff_lt_or_eq]
    exact ⟨fun hn => hn.imp_right fun he => ⟨rfl, he⟩, fun hn => hn.imp_right And.right⟩
  · exact ⟨Or.inl, fun hn => hn.resolve_right fun he => h he.1⟩

lemma mem_deleteSet_insertItem :
    i ∈ (d.insertItem c replaced).deleteSet ↔ i ∈ d.deleteSet ∨ replaced = some i := by
  unfold insertItem
  dsimp only
  rw [mem_union, Option.mem_toFinset]
  rfl

lemma not_hasItem_next : ¬ d.HasItem (c, d.stateVector.count c) := lt_irrefl _

lemma HasItem.mem (h : d.HasItem i) : i.1 ∈ d.stateVector :=
  Multiset.count_pos.1 (Nat.zero_lt_of_lt h)

lemma live_sup {d' : CrdtState} (hd : d.DeletesOwn) (hd' : d'.DeletesOwn)
    (hdisj : ∀ a ∈ d.stateVector, a ∉ d'.stateVector) :
    (d ⊔ d').Live content name i ↔ d.Live content name i ∨ d'.Live content name i := by
  unfold Live
  rw [hasItem_sup, mem_deleteSet_sup, not_or]
  constructor
  · rintro ⟨h | h, ⟨hdel, hdel'⟩, hname⟩
    · exact .inl ⟨h, hdel, hname⟩
    · exact .inr ⟨h, hdel', hname⟩
  · rintro (⟨h, hdel, hname⟩ | ⟨h, hdel, hname⟩)
    · exact ⟨.inl h, ⟨hdel, fun hmem => hdisj _ h.mem (hd' i hmem).mem⟩, hname⟩
    · exact ⟨.inr h, ⟨fun hmem => hdisj _ (hd i hmem).mem h.mem, hdel⟩, hname⟩

end CrdtState

lemma Lib.LargestWins.field_sup {L : Lib B} {content : Content} {d d' : CrdtState}
    {name : String} {i j : ItemId} (h : L.LargestWins content)
    (hlive : ∀ a, (d ⊔ d').Live content name a ↔ a = i ∨ a = j) (hlt : i.1 < j.1) :
    L.field (d ⊔ d') name = some (content j).2 := by
  have hj := (hlive j).2 (.inr rfl)
  cases hat : L.itemAt (d ⊔ d') name with
  | none => exact absurd hat (h.itemAt_ne_none hj)
  | some a =>
    have hle := h.le_itemAt hat hj
    rcases (hlive a).1 (h.live_of_itemAt hat) with rfl | rfl
    · exact absurd hle (not_le.2 hlt)
    · rw [h.field_eq, hat, Option.map_some]

namespace Lib.Maps

open CrdtState

variable {L : Lib B} {content : Content} {d : CrdtState} {name name' : String} {c : ClientId}
  {v : CrdtValue}

section

variable (h : L.Maps content)

include h

lemma deletesOwn_write (hd : d.DeletesOwn) (c : ClientId) (name : String) :
    (d.insertItem c (L.itemAt d name)).DeletesOwn := by
  intro i hi
  rw [hasItem_insertItem]
  rcases mem_deleteSet_insertItem.1 hi with hold | hrep
  · exact .inl (hd i hold)
  · exact .inl (h.live_of_itemAt hrep).1

variable (hc : content (c, d.stateVector.count c) = (name, v))

include hc

lemma agreeOn_write (hne : name ≠ name') :
    AgreeOn content name' d (d.insertItem c (L.itemAt d name)) := by
  intro i hi
  rw [hasItem_insertItem, mem_deleteSet_insertItem]
  refine ⟨⟨Or.inl, fun hor => hor.resolve_right ?_⟩, ⟨Or.inl, fun hor => hor.resolve_right ?_⟩⟩
  · rintro rfl
    rw [hc] at hi
    exact hne hi
  · exact fun hrep => hne ((h.live_of_itemAt hrep).2.2.symm.trans hi)

variable (hd : d.DeletesOwn)

include hd

lemma live_write_iff (hset : d.Settled content name) (i : ItemId) :
    (d.insertItem c (L.itemAt d name)).Live content name i ↔ i = (c, d.stateVector.count c) := by
  unfold Live
  rw [hasItem_insertItem, mem_deleteSet_insertItem]
  constructor
  · rintro ⟨hold | rfl, hnot, hname⟩
    · -- an old live item would be the one replaced
      rw [not_or] at hnot
      exact absurd (h.itemAt_eq ⟨hold, hnot.1, hname⟩ hset) hnot.2
    · rfl
  · rintro rfl
    refine ⟨.inr rfl, ?_, by rw [hc]⟩
    rintro (hdel | hrep)
    · exact not_hasItem_next (hd _ hdel)
    · exact not_hasItem_next (h.live_of_itemAt hrep).1

lemma settled_write (hset : d.Settled content name') :
    (d.insertItem c (L.itemAt d name)).Settled content name' := by
  intro i j hi hj
  by_cases hne : name = name'
  · subst hne
    rw [(h.live_write_iff hc hd hset i).1 hi, (h.live_write_iff hc hd hset j).1 hj]
  · have hagree := h.agreeOn_write hc hne
    have hold : ∀ a, (d.insertItem c (L.itemAt d name)).Live content name' a →
        d.Live content name' a := fun a ha =>
      ⟨(hagree a ha.2.2).1.2 ha.1, fun hdel => ha.2.1 ((hagree a ha.2.2).2.1 hdel), ha.2.2⟩
    exact hset i j (hold i hi) (hold j hj)

lemma field_write_self (hset : d.Settled content name) :
    L.field (d.insertItem c (L.itemAt d name)) name = some v := by
  have hlive := (h.live_write_iff hc hd hset _).2 rfl
  rw [h.field_eq_of_live hlive (h.settled_write hc hd hset), hc]

end

end Lib.Maps

/-! ## Writing several fields -/

/-- The items of `c` from clock `m` on hold the fields, in this order. -/
def Content.Holds (content : Content) (c : ClientId) : ℕ → List (String × CrdtValue) → Prop
  | _, [] => True
  | m, f :: fs => content (c, m) = f ∧ content.Holds c (m + 1) fs

def isTombstone : Option CrdtValue → Bool
  | some (.boolean true) => true
  | _ => false

def Lib.Tombstone (L : Lib B) (d : CrdtState) : Prop := isTombstone (L.field d "_deleted")

lemma Lib.Maps.tombstone_congr {L : Lib B} {content : Content} {d d' : CrdtState}
    (h : L.Maps content) (heq : d.itemsOf content "_deleted" = d'.itemsOf content "_deleted") :
    L.Tombstone d ↔ L.Tombstone d' := by
  unfold Lib.Tombstone
  rw [h.field_congr (CrdtState.agreeOn_of_itemsOf heq)]

namespace CRDTDocument

open CrdtState

variable {L : Lib B} {content : Content} {doc : CRDTDocument} {fields : List (String × CrdtValue)}

lemma holds_setField {f : String × CrdtValue}
    (h : content.Holds doc.client (doc.state.stateVector.count doc.client) (f :: fields)) :
    content.Holds (doc.setField L f.1 f.2).client
      ((doc.setField L f.1 f.2).state.stateVector.count (doc.setField L f.1 f.2).client) fields := by
  have hcount : (doc.setField L f.1 f.2).state.stateVector.count (doc.setField L f.1 f.2).client =
      doc.state.stateVector.count doc.client + 1 := Multiset.count_cons_self _ _
  rw [hcount]
  exact h.2

section

variable (h : L.Maps content) (hd : doc.state.DeletesOwn)

include h hd

variable (hfields : content.Holds doc.client (doc.state.stateVector.count doc.client) fields)

include hfields

lemma settled_setFields {name : String} (hset : doc.state.Settled content name) :
    (doc.setFields L fields).state.DeletesOwn ∧
      (doc.setFields L fields).state.Settled content name := by
  induction fields generalizing doc with
  | nil => exact ⟨hd, hset⟩
  | cons f fs ih =>
    have hd' : (doc.setField L f.1 f.2).state.DeletesOwn := h.deletesOwn_write hd _ _
    exact ih hd' (holds_setField hfields) (h.settled_write hfields.1 hd hset)

lemma field_setFields {name : String} (hset : doc.state.Settled content name) :
    L.field (doc.setFields L fields).state name =
      fields.foldl (fun x f => if f.1 = name then some f.2 else x) (L.field doc.state name) := by
  induction fields generalizing doc with
  | nil => rfl
  | cons f fs ih =>
    have hd' : (doc.setField L f.1 f.2).state.DeletesOwn := h.deletesOwn_write hd _ _
    have hset' : (doc.setField L f.1 f.2).state.Settled content name :=
      h.settled_write hfields.1 hd hset
    have hrest := ih hd' (holds_setField hfields) hset'
    have hfirst : L.field (doc.setField L f.1 f.2).state name =
        if f.1 = name then some f.2 else L.field doc.state name := by
      split_ifs with hname
      · subst hname
        exact h.field_write_self hfields.1 hd hset
      · exact (h.field_congr (h.agreeOn_write hfields.1 hname)).symm
    rw [List.foldl_cons, ← hfirst]
    exact hrest

lemma tombstone_setFields (hset : doc.state.Settled content "_deleted")
    (htomb : L.Tombstone doc.state)
    (hkeep : ∀ f ∈ fields, f.1 = "_deleted" → isTombstone (some f.2)) :
    L.Tombstone (doc.setFields L fields).state := by
  have hfold : ∀ x, isTombstone x = true → isTombstone (fields.foldl (fun x f =>
      if f.1 = "_deleted" then some f.2 else x) x) = true := by
    clear hfields
    induction fields with
    | nil => exact fun x hx => hx
    | cons f fs ih =>
      rw [List.forall_mem_cons] at hkeep
      refine fun x hx => ih hkeep.2 _ ?_
      dsimp only
      split_ifs with hname
      · exact hkeep.1 hname
      · exact hx
  rw [Lib.Tombstone, field_setFields h hd hfields hset]
  exact hfold _ htomb

end

end CRDTDocument

namespace Sym

open CrdtState

variable (content : Content) {d d' : CrdtState} {name : String} {i : ItemId}

def liveItems (d : CrdtState) (name : String) : Finset (ℕ ×ₗ ℕ) :=
  (d.stateVector.toFinset.biUnion fun c =>
    (Finset.range (d.stateVector.count c)).image fun n => toLex (c, n)).filter fun i =>
      ofLex i ∉ d.deleteSet ∧ (content (ofLex i)).1 = name

def itemAt (d : CrdtState) (name : String) : Option ItemId :=
  if h : (liveItems content d name).Nonempty then
    some (ofLex ((liveItems content d name).max' h))
  else none

def mapLib : Lib Sym :=
  { lib with
    itemAt := itemAt content
    field := fun d name => (itemAt content d name).map fun i => (content i).2 }

variable {content}

lemma mem_liveItems : toLex i ∈ liveItems content d name ↔ d.Live content name i := by
  obtain ⟨c, n⟩ := i
  unfold liveItems Live HasItem
  rw [mem_filter, mem_biUnion, ofLex_toLex]
  refine and_congr_left fun _ => ⟨?_, fun h => ?_⟩
  · rintro ⟨a, -, ha⟩
    obtain ⟨m, hm, heq⟩ := mem_image.1 ha
    obtain ⟨rfl, rfl⟩ := Prod.mk.inj (toLex.injective heq)
    exact mem_range.1 hm
  · have hpos : 0 < d.stateVector.count c := Nat.zero_lt_of_lt h
    refine ⟨c, Multiset.mem_toFinset.2 (Multiset.count_pos.1 hpos), ?_⟩
    exact mem_image_of_mem _ (mem_range.2 h)

lemma liveItems_congr (h : AgreeOn content name d d') :
    liveItems content d name = liveItems content d' name := by
  ext i
  have hmem : ∀ d, i ∈ liveItems content d name ↔ d.Live content name (ofLex i) := fun d => by
    rw [← mem_liveItems, toLex_ofLex]
  rw [hmem, hmem]
  refine ⟨fun ⟨hi, hd, hn⟩ => ?_, fun ⟨hi, hd, hn⟩ => ?_⟩
  · exact ⟨(h _ hn).1.1 hi, fun hdel => hd ((h _ hn).2.2 hdel), hn⟩
  · exact ⟨(h _ hn).1.2 hi, fun hdel => hd ((h _ hn).2.1 hdel), hn⟩

lemma maps_mapLib (content : Content) : (mapLib content).Maps content where
  live_of_itemAt {d name i} h := by
    change itemAt content d name = some i at h
    unfold itemAt at h
    split_ifs at h with hne
    rw [← Option.some.inj h, ← mem_liveItems, toLex_ofLex]
    exact max'_mem _ hne
  itemAt_ne_none {d name i} h := by
    change itemAt content d name ≠ none
    have hne : (liveItems content d name).Nonempty := ⟨_, mem_liveItems.2 h⟩
    rw [itemAt, dif_pos hne]
    exact Option.some_ne_none _
  itemAt_congr {d d' name} h := by
    change itemAt content d name = itemAt content d' name
    unfold itemAt
    rw [liveItems_congr h]
  field_eq _ _ := rfl

lemma largestWins_mapLib (content : Content) : (mapLib content).LargestWins content where
  toMaps := maps_mapLib content
  le_itemAt {d name i j} h hj := by
    change itemAt content d name = some i at h
    unfold itemAt at h
    split_ifs at h with hne
    have hle := le_max' _ _ (mem_liveItems.2 hj)
    rw [← Option.some.inj h]
    exact (Prod.Lex.monotone_fst _ _ hle)

end Sym

end VaultSync
