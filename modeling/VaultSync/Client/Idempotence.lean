import VaultSync.Client.Replay
import VaultSync.Crdt.Symbolic

/-! Materializing twice. A replayed delete writes an item of a new client each time, and an update
that is planned before the insert of its record is merged only by the second run. -/

namespace VaultSync

open Async AsyncFn World List CrdtState Function Sym Option

variable {B : Type}

namespace ViewMaterializer

variable (L : Lib B) (S : Set ClientId) (e : OplogEntry B)

/-- The replay of an entry of the record, by a client outside `S` that the document does not
know. -/
def RecordStep (s s' : Option B) : Prop :=
  ∃ c, c ∉ S ∧ c ∉ (storedState L s).stateVector ∧ s' = replayed L c e s

def Frozen (s : Option B) : Prop := ∃ bytes, s = some bytes ∧ readable L bytes = none

def Fits (es : List (OplogEntry B)) (s : Option B) : Prop :=
  ∃ s', Along (fun e s s' => RecordStep L S e s s' ∧ ¬ Frozen L s') es s s'

def Creates : Prop :=
  e.mutationType = .crdtInsert ∧ carried L e ≠ none

/-- The entries `es` of a record can be replayed again: there is no delete among them, and what is
planned before the insert that creates the document comes with the entries from it on. Without
such an insert nothing is stored. -/
def Repeatable (es : List (OplogEntry B)) (s : Option B) : Prop :=
  Fits L S es s →
    match s with
    | some _ => ∀ e ∈ es, e.mutationType ≠ .crdtDelete
    | none => ∀ pre ins post, es = pre ++ ins :: post → (∀ e ∈ pre, ¬ Creates L e) → Creates L ins →
        (∀ e ∈ es, e.mutationType ≠ .crdtDelete) ∧
          ∀ e ∈ pre, ∀ u, carried L e = some u →
            u ≤ CrdtState.joinAll ((ins :: post).filterMap (carried L))

def Done (s : Option B) : Prop :=
  (s = none → ¬ Creates L e) ∧ ∀ bytes d, s = some bytes → readable L bytes = some d →
    e.mutationType ≠ .crdtDelete ∧ ∀ u, carried L e = some u → u ≤ d

variable {L S} {e : OplogEntry B} {es : List (OplogEntry B)}
  {s s₁ s₂ : Option B} {c : ClientId} {bytes : B} {d d' u : CrdtState}

/-! ## One step -/

lemma storedState_of_readable (h : readable L bytes = some d) :
    storedState L (some bytes) = d := storedState_some (readable_eq_some.1 h).2

lemma storedState_encode (d : CrdtState) : storedState L (some (L.encodeV1 d)) = d :=
  storedState_some (L.decode_encode d)

lemma readable_encode (h : readable L (L.encodeV1 d) = some d') : d' = d := by
  have hdec := (readable_eq_some.1 h).2
  rw [L.decode_encode] at hdec
  exact (Except.ok.inj hdec).symm

lemma replayed_none_of_creates (h : Creates L e) :
    ∃ u, carried L e = some u ∧ replayed L c e none = some (L.encodeV1 (newState c ⊔ u)) := by
  obtain ⟨u, hu⟩ := ne_none_iff_exists'.1 h.2
  refine ⟨u, hu, ?_⟩
  unfold replayed
  rw [if_pos h.1, hu, map_some]

lemma replayed_none_of_not_creates (h : ¬ Creates L e) : replayed L c e none = none := by
  unfold replayed
  split_ifs with htype
  · have hnone : carried L e = none := by
      by_contra hne
      exact h ⟨htype, hne⟩
    rw [hnone, map_none]
  · rfl

lemma replayed_of_frozen (h : Frozen L s) : replayed L c e s = s := by
  obtain ⟨bytes, rfl, hread⟩ := h
  unfold replayed
  dsimp only
  rw [hread]

lemma replayed_of_readable (h : readable L bytes = some d) :
    replayed L c e (some bytes) = some ((effect L c e d).elim bytes L.encodeV1) := by
  unfold replayed
  dsimp only
  rw [h]

lemma done_of_frozen (h : Frozen L s) (e : OplogEntry B) : Done L e s := by
  obtain ⟨bytes, rfl, hread⟩ := h
  refine ⟨nofun, ?_⟩
  rintro _ d ⟨⟩ hd
  rw [hread] at hd
  cases hd

lemma done_of_readable (hread : readable L bytes = some d) :
    Done L e (some bytes) ↔ e.mutationType ≠ .crdtDelete ∧ ∀ u, carried L e = some u → u ≤ d := by
  refine ⟨fun h => h.2 bytes d rfl hread, fun h => ⟨nofun, ?_⟩⟩
  rintro _ d1 ⟨⟩ hd1
  rw [hread] at hd1
  cases hd1
  exact h

lemma effect_eq_none (h : effect L c e d = none) :
    e.mutationType ≠ .crdtDelete ∧ carried L e = none := by
  unfold effect at h
  split_ifs at h with htype
  exact ⟨htype, map_eq_none_iff.1 h⟩

/-- What a replay writes has no clients but the old ones, the new one and those of the entry's
update. -/
lemma replayed_cases (c : ClientId) (e : OplogEntry B) (s : Option B) :
    (replayed L c e s = s ∧ Done L e s) ∨
      ∃ d, replayed L c e s = some (L.encodeV1 d) ∧
        ∀ a ∈ d.stateVector, a ∈ (storedState L s).stateVector ∨ a = c ∨
          ∃ u, carried L e = some u ∧ a ∈ u.stateVector := by
  cases s with
  | none =>
    by_cases h : Creates L e
    · obtain ⟨u, hu, heq⟩ := replayed_none_of_creates (c := c) h
      refine .inr ⟨_, heq, fun a ha => .inr ?_⟩
      rcases mem_sup.1 ha with ha | ha
      · exact .inl (by simpa [newState] using ha)
      · exact .inr ⟨u, hu, ha⟩
    · exact .inl ⟨replayed_none_of_not_creates h, fun _ => h, nofun⟩
  | some bytes =>
    cases hread : readable L bytes with
    | none =>
      have hfrozen : Frozen L (some bytes) := ⟨bytes, rfl, hread⟩
      exact .inl ⟨replayed_of_frozen hfrozen, done_of_frozen hfrozen e⟩
    | some d =>
      rw [replayed_of_readable hread, done_of_readable hread, storedState_of_readable hread]
      cases heff : effect L c e d with
      | none =>
        obtain ⟨htype, hcarried⟩ := effect_eq_none heff
        exact .inl ⟨rfl, htype, fun u hu => nomatch hcarried.symm.trans hu⟩
      | some d' =>
        refine .inr ⟨d', rfl, fun a ha => ?_⟩
        unfold effect at heff
        split_ifs at heff
        · obtain rfl := some.inj heff
          rcases Multiset.mem_cons.1 ha with ha | ha
          · exact .inr (.inl ha)
          · exact .inl ha
        · obtain ⟨u, hu, rfl⟩ := map_eq_some_iff.1 heff
          rcases mem_sup.1 ha with ha | ha
          · exact .inl ha
          · exact .inr (.inr ⟨u, hu, ha⟩)

lemma replayed_of_done (h : Done L e s) :
    replayed L c e s = s ∨ ∃ bytes d, s = some bytes ∧ readable L bytes = some d ∧
      replayed L c e s = some (L.encodeV1 d) := by
  cases s with
  | none => exact .inl (replayed_none_of_not_creates (h.1 rfl))
  | some bytes =>
    cases hread : readable L bytes with
    | none => exact .inl (replayed_of_frozen ⟨bytes, rfl, hread⟩)
    | some d =>
      obtain ⟨htype, hle⟩ := h.2 bytes d rfl hread
      rw [replayed_of_readable hread]
      unfold effect
      rw [if_neg htype]
      cases hu : carried L e with
      | none => exact .inl rfl
      | some u =>
        refine .inr ⟨bytes, d, rfl, hread, ?_⟩
        rw [map_some, elim_some, sup_of_le_left (hle u hu)]

lemma replayed_encode_of_done (h : Done L e (some (L.encodeV1 d))) :
    replayed L c e (some (L.encodeV1 d)) = some (L.encodeV1 d) := by
  rcases replayed_of_done (c := c) h with hsame | ⟨_, d', ⟨⟩, hd', hwrite⟩
  · exact hsame
  · rw [hwrite, readable_encode hd']

lemma storedState_replayed_of_done (h : Done L e s) :
    storedState L (replayed L c e s) = storedState L s := by
  rcases replayed_of_done (c := c) h with hsame | ⟨bytes, d, rfl, hread, heq⟩
  · rw [hsame]
  · rw [heq, storedState_encode, storedState_of_readable hread]

lemma Done.replayed {e' : OplogEntry B} (h' : Done L e' s) (h : Done L e s) :
    Done L e' (replayed L c e s) := by
  rcases replayed_of_done (c := c) h with hsame | ⟨bytes, d, rfl, hread, heq⟩
  · rwa [hsame]
  · rw [heq]
    refine ⟨nofun, ?_⟩
    rintro _ d1 ⟨⟩ hd1
    rw [readable_encode hd1]
    exact h'.2 bytes d rfl hread

lemma storedState_lt_replayed (hread : readable L bytes = some d)
    (h : ¬ Done L e (some bytes)) : d < storedState L (replayed L c e (some bytes)) := by
  rw [done_of_readable hread] at h
  push Not at h
  rw [replayed_of_readable hread]
  unfold effect
  split_ifs with htype
  · rw [elim_some, storedState_encode]
    refine lt_of_le_of_ne (le_insertItem _ _ _) fun heq => ?_
    have hcard := congrArg (fun x : CrdtState => Multiset.card x.stateVector) heq
    exact absurd hcard (by simp [insertItem])
  · obtain ⟨u, hcarried, hnot⟩ := h htype
    rw [hcarried, map_some, elim_some, storedState_encode]
    exact left_lt_sup.2 hnot

/-! ## Runs of one record -/

def AnyStep (L : Lib B) (e : OplogEntry B) (s s' : Option B) : Prop := ∃ c, s' = replayed L c e s

section

variable (h : Along (AnyStep L) es s s₁)

include h

lemma storedState_mono : storedState L s ≤ storedState L s₁ := by
  refine Along.invariant (I := fun t => storedState L s ≤ storedState L t) ?_ h le_rfl
  rintro e - t _ ht ⟨c, rfl⟩
  exact ht.trans storedState_le_replayed

lemma storedState_eq_of_done (hdone : ∀ e ∈ es, Done L e s) :
    storedState L s₁ = storedState L s := by
  refine (Along.invariant (I := fun t => storedState L t = storedState L s ∧ ∀ e ∈ es, Done L e t)
    ?_ h ⟨rfl, hdone⟩).1
  rintro e he t _ ⟨hstate, hall⟩ ⟨c, rfl⟩
  refine ⟨(storedState_replayed_of_done (hall e he)).trans hstate, fun e' he' => ?_⟩
  exact (hall e' he').replayed (hall e he)

lemma along_cases : (s₁ = s ∧ ∀ e ∈ es, Done L e s) ∨ ∃ d, s₁ = some (L.encodeV1 d) := by
  induction es generalizing s with
  | nil => exact .inl ⟨h, fun e he => absurd he not_mem_nil⟩
  | cons e es ih =>
    obtain ⟨_, ⟨c, rfl⟩, hrest⟩ := h
    rcases ih hrest with ⟨hsame, hdone⟩ | hwritten
    · rcases replayed_cases c e s with ⟨heq, hfirst⟩ | ⟨d, hd, -⟩
      · rw [heq] at hsame hdone
        exact .inl ⟨hsame, forall_mem_cons.2 ⟨hfirst, hdone⟩⟩
      · exact .inr ⟨d, hsame.trans hd⟩
    · exact .inr hwritten

end

lemma done_of_storedState_eq (hfirst : Along (AnyStep L) es s s₁)
    (hsecond : Along (AnyStep L) es s₁ s₂) (heq : storedState L s₂ = storedState L s₁) :
    ∀ e ∈ es, Done L e s₁ := by
  rcases along_cases hfirst with ⟨rfl, hdone⟩ | ⟨d, rfl⟩
  · exact hdone
  clear hfirst
  cases hread : readable L (L.encodeV1 d) with
  | none => exact fun e _ => done_of_frozen ⟨_, rfl, hread⟩ e
  | some d1 =>
    obtain rfl := readable_encode hread
    induction es with
    | nil => exact fun e he => absurd he not_mem_nil
    | cons e es ih =>
      obtain ⟨_, ⟨c, rfl⟩, hrest⟩ := hsecond
      by_cases hdone : Done L e (some (L.encodeV1 d1))
      · rw [replayed_encode_of_done hdone] at hrest
        exact forall_mem_cons.2 ⟨hdone, ih hrest⟩
      · have hlt := storedState_lt_replayed (c := c) hread hdone
        have hle := hlt.trans_le (storedState_mono hrest)
        rw [heq, storedState_encode] at hle
        exact absurd hle (lt_irrefl _)

/-! ## Which entries are done after a run -/

lemma Frozen.along (hfrozen : Frozen L s) (h : Along (AnyStep L) es s s₁) : s₁ = s := by
  refine Along.invariant (I := fun t => t = s) ?_ h rfl
  rintro e - t _ rfl ⟨c, rfl⟩
  exact replayed_of_frozen hfrozen

lemma RecordStep.any (h : RecordStep L S e s s₁) : AnyStep L e s s₁ := by
  obtain ⟨c, -, -, hs⟩ := h
  exact ⟨c, hs⟩

lemma along_of_not_frozen (h : Along (RecordStep L S) es s s₁) (hend : ¬ Frozen L s₁) :
    Along (fun e s s' => RecordStep L S e s s' ∧ ¬ Frozen L s') es s s₁ := by
  induction es generalizing s with
  | nil => exact h
  | cons e es ih =>
    obtain ⟨t, hstep, hrest⟩ := h
    have ht : ¬ Frozen L t := by
      intro hfrozen
      rw [hfrozen.along (hrest.mono fun _ _ _ => RecordStep.any)] at hend
      exact hend hfrozen
    exact ⟨t, ⟨hstep, ht⟩, ih hrest⟩

lemma readable_of_not_frozen (h : ¬ Frozen L (some (L.encodeV1 d))) :
    readable L (L.encodeV1 d) = some d := by
  cases hread : readable L (L.encodeV1 d) with
  | none => exact absurd ⟨_, rfl, hread⟩ h
  | some d' => rw [readable_encode hread]

lemma readable_along (h : Along (fun e s s' => AnyStep L e s s' ∧ ¬ Frozen L s') es (some bytes) s₁)
    (hread : readable L bytes = some d) :
    ∃ bytes1 d1, s₁ = some bytes1 ∧ readable L bytes1 = some d1 ∧
      d ⊔ joinAll (es.filterMap (carried L)) ≤ d1 ∧
        ((∀ e ∈ es, e.mutationType ≠ .crdtDelete) →
          d1 = d ⊔ joinAll (es.filterMap (carried L))) := by
  induction es generalizing bytes d with
  | nil => exact ⟨bytes, d, h, hread, (sup_bot_eq d).le, fun _ => (sup_bot_eq d).symm⟩
  | cons e es ih =>
    obtain ⟨_, ⟨⟨c, rfl⟩, hnot⟩, hrest⟩ := h
    rw [replayed_of_readable hread] at hnot hrest
    cases heff : effect L c e d with
    | none =>
      rw [heff, elim_none] at hrest
      rw [filterMap_cons_none (effect_eq_none heff).2]
      obtain ⟨bytes1, d1, rfl, hread1, hge, heq⟩ := ih hrest hread
      exact ⟨bytes1, d1, rfl, hread1, hge, fun hall => heq fun e' he' =>
        hall e' (mem_cons_of_mem e he')⟩
    | some d' =>
      rw [heff, elim_some] at hnot hrest
      obtain ⟨bytes1, d1, rfl, hread1, hge, heq⟩ := ih hrest (readable_of_not_frozen hnot)
      refine ⟨bytes1, d1, rfl, hread1, ?_⟩
      unfold effect at heff
      split_ifs at heff with htype
      · -- a delete only grows the document
        rw [filterMap_cons_none (by rw [carried, htype])]
        have hgrow : d ≤ d' := some.inj heff ▸ le_insertItem _ _ _
        exact ⟨(sup_le_sup_right hgrow _).trans hge, fun hall =>
          absurd htype (hall e mem_cons_self)⟩
      · obtain ⟨u, hu, rfl⟩ := map_eq_some_iff.1 heff
        rw [filterMap_cons_some hu]
        change d ⊔ (u ⊔ joinAll _) ≤ d1 ∧ (_ → d1 = d ⊔ (u ⊔ joinAll _))
        rw [← sup_assoc]
        exact ⟨hge, fun hall => heq fun e' he' => hall e' (mem_cons_of_mem e he')⟩

lemma carried_le_joinAll (he : e ∈ es) (hu : carried L e = some u) :
    u ≤ joinAll (es.filterMap (carried L)) :=
  le_joinAll (mem_filterMap.2 ⟨e, he, hu⟩)

lemma done_iff_of_stored :
    (∀ s₁, Along (RecordStep L S) es (some bytes) s₁ → ∀ e ∈ es, Done L e s₁) ↔
      Repeatable L S es (some bytes) := by
  constructor
  · rintro h ⟨s₁, hrun⟩ e he
    have hany : Along (fun e s s' => AnyStep L e s s' ∧ ¬ Frozen L s') es (some bytes) s₁ :=
      hrun.mono fun _ _ _ hstep => ⟨hstep.1.any, hstep.2⟩
    have hdone := h s₁ (hrun.mono fun _ _ _ hstep => hstep.1) e he
    cases hread : readable L bytes with
    | none =>
      -- unreadable bytes are not replayed within the limit
      cases es with
      | nil => cases he
      | cons e1 es =>
        obtain ⟨_, ⟨⟨c, rfl⟩, hnot⟩, -⟩ := hany
        have hfrozen : Frozen L (some bytes) := ⟨bytes, rfl, hread⟩
        rw [replayed_of_frozen hfrozen] at hnot
        exact absurd hfrozen hnot
    | some d =>
      obtain ⟨bytes1, d1, rfl, hread1, -, -⟩ := readable_along hany hread
      exact ((done_of_readable hread1).1 hdone).1
  · intro h s₁ hrun e he
    by_cases hend : Frozen L s₁
    · exact done_of_frozen hend e
    have hkept := along_of_not_frozen hrun hend
    have hnodel := h ⟨s₁, hkept⟩
    have hany := hrun.mono fun _ _ _ => RecordStep.any
    cases hread : readable L bytes with
    | none =>
      have hfrozen : Frozen L (some bytes) := ⟨bytes, rfl, hread⟩
      rw [hfrozen.along hany] at hend
      exact absurd hfrozen hend
    | some d =>
      obtain ⟨bytes1, d1, rfl, hread1, hge, -⟩ := readable_along
        (hkept.mono fun _ _ _ hstep => ⟨hstep.1.any, hstep.2⟩) hread
      refine (done_of_readable hread1).2 ⟨hnodel e he, fun u hu => ?_⟩
      exact (carried_le_joinAll he hu).trans (le_sup_right.trans hge)

lemma along_none {pre : List (OplogEntry B)} (hpre : ∀ e ∈ pre, ¬ Creates L e)
    (h : Along (AnyStep L) pre none s₁) : s₁ = none := by
  refine Along.invariant (I := fun t => t = none) ?_ h rfl
  rintro e he t _ rfl ⟨c, rfl⟩
  exact replayed_none_of_not_creates (hpre e he)

lemma created_along {pre post : List (OplogEntry B)} {ins : OplogEntry B}
    (hpre : ∀ e ∈ pre, ¬ Creates L e) (hins : Creates L ins)
    (h : Along (fun e s s' => RecordStep L S e s s' ∧ ¬ Frozen L s') (pre ++ ins :: post) none s₁) :
    ∃ c bytes1 d1, c ∉ S ∧ s₁ = some bytes1 ∧ readable L bytes1 = some d1 ∧
      joinAll ((ins :: post).filterMap (carried L)) ≤ d1 ∧
        ((∀ e ∈ post, e.mutationType ≠ .crdtDelete) →
          d1 = newState c ⊔ joinAll ((ins :: post).filterMap (carried L))) := by
  obtain ⟨s', hleft, _, ⟨⟨c, hc, -, rfl⟩, hnot⟩, hrest⟩ := along_append.1 h
  obtain rfl := along_none hpre (hleft.mono fun _ _ _ hstep => hstep.1.any)
  obtain ⟨u, hu, hnew⟩ := replayed_none_of_creates (c := c) hins
  rw [hnew] at hnot hrest
  obtain ⟨bytes1, d1, rfl, hread1, hge, heq⟩ := readable_along
    (hrest.mono fun _ _ _ hstep => ⟨hstep.1.any, hstep.2⟩) (readable_of_not_frozen hnot)
  rw [sup_assoc] at hge heq
  rw [filterMap_cons_some hu]
  exact ⟨c, bytes1, d1, hc, rfl, hread1, le_sup_right.trans hge, heq⟩

lemma le_newState_sup_iff (hc : c ∉ u.stateVector) : u ≤ newState c ⊔ d ↔ u ≤ d := by
  refine ⟨fun h => ⟨Multiset.le_iff_count.2 fun a => ?_, ?_⟩, fun h => h.trans le_sup_right⟩
  · have hcount := Multiset.le_iff_count.1 h.1 a
    by_cases ha : a = c
    · rw [ha, Multiset.count_eq_zero_of_notMem hc]
      exact Nat.zero_le _
    · have hzero : Multiset.count a (newState c).stateVector = 0 := by
        simp [newState, ha]
      change _ ≤ Multiset.count a ((newState c).stateVector ∪ d.stateVector) at hcount
      rwa [Multiset.count_union, hzero, Nat.zero_max] at hcount
  · have hset : u.deleteSet ≤ ∅ ∪ d.deleteSet := h.2
    rwa [Finset.empty_union] at hset

open Classical in
lemma exists_first_creates (L : Lib B) (es : List (OplogEntry B)) :
    (∀ e ∈ es, ¬ Creates L e) ∨ ∃ pre ins post, es = pre ++ ins :: post ∧
      (∀ e ∈ pre, ¬ Creates L e) ∧ Creates L ins := by
  cases hfind : es.find? fun e => Creates L e with
  | none => exact .inl (by simpa using hfind)
  | some ins =>
    obtain ⟨hins, pre, post, hes, hpre⟩ := find?_eq_some_iff_append.1 hfind
    exact .inr ⟨pre, ins, post, hes, by simpa using hpre, by simpa using hins⟩

lemma done_iff_of_absent (hS : ∀ e ∈ es, ∀ u, carried L e = some u → ∀ c ∈ u.stateVector, c ∈ S) :
    (∀ s₁, Along (RecordStep L S) es none s₁ → ∀ e ∈ es, Done L e s₁) ↔ Repeatable L S es none := by
  constructor
  · rintro h ⟨s₁, hrun⟩ pre ins post rfl hpre hins
    obtain ⟨c, bytes1, d1, hc, rfl, hread1, -, heq⟩ := created_along hpre hins hrun
    have hdone : ∀ e ∈ pre ++ ins :: post, e.mutationType ≠ .crdtDelete ∧
        ∀ u, carried L e = some u → u ≤ d1 := fun e he =>
      (done_of_readable hread1).1 (h _ (hrun.mono fun _ _ _ hstep => hstep.1) e he)
    refine ⟨fun e he => (hdone e he).1, fun e he u hu => ?_⟩
    have hpost : ∀ e ∈ post, e.mutationType ≠ .crdtDelete := fun e he =>
      (hdone e (mem_append_right _ (mem_cons_of_mem _ he))).1
    have hmem : e ∈ pre ++ ins :: post := mem_append_left _ he
    have hle := (hdone e hmem).2 u hu
    rw [heq hpost] at hle
    exact (le_newState_sup_iff fun hcu => hc (hS e hmem u hu c hcu)).1 hle
  · intro h s₁ hrun e he
    by_cases hend : Frozen L s₁
    · exact done_of_frozen hend e
    rcases exists_first_creates L es with hnone | ⟨pre, ins, post, rfl, hpre, hins⟩
    · rw [along_none hnone (hrun.mono fun _ _ _ => RecordStep.any)]
      exact ⟨fun _ => hnone e he, nofun⟩
    · have hkept := along_of_not_frozen hrun hend
      obtain ⟨hnodel, hearly⟩ := h ⟨s₁, hkept⟩ pre ins post rfl hpre hins
      obtain ⟨c, bytes1, d1, -, rfl, hread1, hge, -⟩ := created_along hpre hins hkept
      refine (done_of_readable hread1).2 ⟨hnodel e he, fun u hu => ?_⟩
      rcases mem_append.1 he with he | he
      · exact (hearly e he u hu).trans hge
      · exact (carried_le_joinAll he hu).trans hge

/-! ## From one record to all -/

variable {pending : List (OplogEntry B)} {docs docs₀ docs₁ : Key → Option B} {k : Key}

lemma carried_decodes (h : carried L e = some u) : L.decodeV1 e.yrsUpdate = .ok u := by
  unfold carried at h
  split at h
  · exact (readable_eq_some.1 h).2
  · exact (readable_eq_some.1 h).2
  · cases h
  · cases h

lemma Fresh.of_le (h : Fresh L pending docs c)
    (hle : ∀ k, storedState L (docs₀ k) ≤ storedState L (docs k)) : Fresh L pending docs₀ c :=
  fun e he => ⟨fun hc => (h e he).1 (Multiset.mem_of_le (hle e.key).1 hc), (h e he).2⟩

lemma Replays.record (h : Replays L pending es docs docs₁) (hes : ∀ e ∈ es, e ∈ pending)
    (hle : ∀ k, storedState L (docs₀ k) ≤ storedState L (docs k)) (k : Key) :
    Along (RecordStep L {c | ¬ Fresh L pending docs₀ c}) (es.filter fun e => e.key = k)
      (docs k) (docs₁ k) := by
  induction es generalizing docs with
  | nil => exact congrFun h k
  | cons e es ih =>
    obtain ⟨_, ⟨c, hc, rfl⟩, hrest⟩ := h
    rw [forall_mem_cons] at hes
    have hgrow : ∀ k', storedState L (docs₀ k') ≤ storedState L
        (update docs e.key (replayed L c e (docs e.key)) k') := by
      intro k'
      by_cases hk : k' = e.key
      · rw [hk, update_self]
        exact (hle e.key).trans storedState_le_replayed
      · rw [update_of_ne hk]
        exact hle k'
    have hrec := ih hrest hes.2 hgrow
    by_cases hk : e.key = k
    · rw [filter_cons_of_pos (by simpa using hk)]
      refine ⟨_, ⟨c, not_not.2 (hc.of_le hle), ?_, rfl⟩, ?_⟩
      · exact hk ▸ (hc e hes.1).1
      · rwa [← hk, update_self, hk] at hrec
    · rw [filter_cons_of_neg (by simpa using hk)]
      rwa [update_of_ne (Ne.symm hk)] at hrec

lemma mem_replayed {a : ClientId} (h : a ∈ (storedState L (replayed L c e s)).stateVector) :
    a ∈ (storedState L s).stateVector ∨ a = c ∨ ∃ u, carried L e = some u ∧ a ∈ u.stateVector := by
  rcases replayed_cases c e s with ⟨hsame, -⟩ | ⟨d, heq, hmem⟩
  · rw [hsame] at h
    exact .inl h
  · rw [heq, storedState_encode] at h
    exact hmem a h

lemma exists_drawn (h : Along (RecordStep L S) es s s₁) :
    ∃ C : Finset ClientId, (∀ c ∈ C, c ∉ S) ∧ Along (RecordStep L {c | c ∉ C}) es s s₁ := by
  classical
  induction es generalizing s with
  | nil => exact ⟨∅, fun c hc => absurd hc (Finset.notMem_empty c), h⟩
  | cons e es ih =>
    obtain ⟨t, ⟨c, hc, hnew, ht⟩, hrest⟩ := h
    obtain ⟨C, hC, hrun⟩ := ih hrest
    refine ⟨insert c C, ?_, t, ⟨c, not_not.2 (Finset.mem_insert_self c C), hnew, ht⟩, ?_⟩
    · rw [Finset.forall_mem_insert]
      exact ⟨hc, hC⟩
    · refine hrun.mono ?_
      rintro e s s' ⟨a, ha, hrest⟩
      exact ⟨a, not_not.2 (Finset.mem_insert_of_mem (not_not.1 ha)), hrest⟩

lemma exists_replays {C : Finset ClientId} (hes : ∀ e ∈ es, e ∈ pending)
    (hupd : ∀ c ∈ C, ∀ e ∈ pending, ∀ u, L.decodeV1 e.yrsUpdate = .ok u → c ∉ u.stateVector)
    (hother : ∀ c ∈ C, ∀ e ∈ pending, e.key ≠ k → c ∉ (storedState L (docs e.key)).stateVector)
    (h : Along (RecordStep L {c | c ∉ C}) (es.filter fun e => e.key = k) (docs k) s₁) :
    ∃ docs₁, Replays L pending es docs docs₁ ∧ docs₁ k = s₁ := by
  induction es generalizing docs with
  | nil => exact ⟨docs, rfl, h.symm⟩
  | cons e es ih =>
    rw [forall_mem_cons] at hes
    by_cases hk : e.key = k
    · rw [filter_cons_of_pos (by simpa using hk)] at h
      obtain ⟨t, ⟨c, hc, hnew, rfl⟩, hrest⟩ := h
      have hcC : c ∈ C := not_not.1 hc
      have hfresh : Fresh L pending docs c := by
        refine fun e' he' => ⟨?_, hupd c hcC e' he'⟩
        by_cases hk' : e'.key = k
        · rwa [hk']
        · exact hother c hcC e' he' hk'
      have hnext : ∃ docs₁, Replays L pending es
          (update docs k (replayed L c e (docs k))) docs₁ ∧ docs₁ k = s₁ := by
        refine ih hes.2 (fun a ha e' he' hk' => ?_) (by rwa [update_self])
        rw [update_of_ne hk']
        exact hother a ha e' he' hk'
      obtain ⟨docs₁, hrun, hend⟩ := hnext
      exact ⟨docs₁, ⟨_, ⟨c, hfresh, by rw [hk]⟩, hrun⟩, hend⟩
    · rw [filter_cons_of_neg (by simpa using hk)] at h
      obtain ⟨c, hfresh, hcC⟩ := exists_fresh L pending docs C
      have hnext : ∃ docs₁, Replays L pending es
          (update docs e.key (replayed L c e (docs e.key))) docs₁ ∧ docs₁ k = s₁ := by
        refine ih hes.2 (fun a ha e' he' hk' hmem => ?_) (by rwa [update_of_ne (Ne.symm hk)])
        by_cases hsame : e'.key = e.key
        · rw [hsame, update_self] at hmem
          rcases mem_replayed hmem with hold | rfl | ⟨u, hu, hau⟩
          · exact hother a ha e' he' hk' (hsame ▸ hold)
          · exact hcC ha
          · exact hupd a ha e hes.1 u (carried_decodes hu) hau
        · rw [update_of_ne hsame] at hmem
          exact hother a ha e' he' hk' hmem
      obtain ⟨docs₁, hrun, hend⟩ := hnext
      exact ⟨docs₁, ⟨_, ⟨c, hfresh, rfl⟩, hrun⟩, hend⟩

lemma repeated_iff (hperm : ∀ e ∈ es, e ∈ pending) :
    (∀ docs₁, Replays L pending es docs docs₁ → ∀ docs2, Replays L pending es docs₁ docs2 →
        ∀ k, storedState L (docs2 k) = storedState L (docs₁ k)) ↔
      ∀ k, Repeatable L {c | ¬ Fresh L pending docs c} (es.filter fun e => e.key = k) (docs k) := by
  have hS : ∀ k, ∀ e ∈ es.filter fun e => e.key = k, ∀ u, carried L e = some u →
      ∀ c ∈ u.stateVector, c ∈ {c | ¬ Fresh L pending docs c} := by
    intro k e he u hu c hc hfresh
    exact (hfresh e (hperm e (mem_of_mem_filter he))).2 u (carried_decodes hu) hc
  have hdone : ∀ k, (∀ s₁, Along (RecordStep L {c | ¬ Fresh L pending docs c})
      (es.filter fun e => e.key = k) (docs k) s₁ →
        ∀ e ∈ es.filter fun e => e.key = k, Done L e s₁) ↔
      Repeatable L {c | ¬ Fresh L pending docs c} (es.filter fun e => e.key = k) (docs k) := by
    intro k
    cases hk : docs k with
    | none => exact done_iff_of_absent (hS k)
    | some bytes => exact done_iff_of_stored
  simp only [← hdone]
  constructor
  · intro h k s₁ hrec
    obtain ⟨C, hC, hdrawn⟩ := exists_drawn hrec
    have hfresh : ∀ c ∈ C, Fresh L pending docs c := fun c hc => not_not.1 (hC c hc)
    obtain ⟨docs₁, hfirst, rfl⟩ := exists_replays hperm
      (fun c hc e he => (hfresh c hc e he).2) (fun c hc e he _ => (hfresh c hc e he).1) hdrawn
    obtain ⟨docs2, hsecond, -⟩ : ∃ docs2, Replays L pending es docs₁ docs2 ∧ True :=
      exists_along es (fun e _ docs _ =>
        have ⟨c, hc, _⟩ := exists_fresh L pending docs ∅
        ⟨_, ⟨c, hc, rfl⟩, trivial⟩) trivial
    have hsame := h docs₁ hfirst docs2 hsecond k
    have hrec2 := hsecond.record hperm (fun _ => le_rfl) k
    exact done_of_storedState_eq (hrec.mono fun _ _ _ => RecordStep.any)
      (hrec2.mono fun _ _ _ => RecordStep.any) hsame
  · intro h docs₁ hfirst docs2 hsecond k
    have hrec1 := hfirst.record hperm (fun _ => le_rfl) k
    have hrec2 := hsecond.record hperm (fun _ => le_rfl) k
    exact storedState_eq_of_done (hrec2.mono fun _ _ _ => RecordStep.any) (h k (docs₁ k) hrec1)

/-- Running `materialize` twice leaves every document in the state it had after the first run, in
every run, iff the pending entries of every record can be replayed again. -/
theorem materialize_twice_iff_repeatable (L : Lib B) (cfg : Config) (n n' : ℕ) (w : World B) :
    wp (machine n (FreshDraws L cfg))
        (fun _ w₁ => wp (machine n' (FreshDraws L cfg))
          (fun _ w₂ => ∀ k, docState L w₂ k = docState L w₁ k) (materialize L cfg) w₁)
        (materialize L cfg) w ↔
      ∀ k, Repeatable L
        {c | ¬ Fresh L (w.storage.readPendingOplog cfg.namespace 50000) w.storage.documents c}
        ((plan (w.storage.readPendingOplog cfg.namespace 50000)).filter fun e => e.key = k)
        (w.storage.documents k) := by
  let pending := w.storage.readPendingOplog cfg.namespace 50000
  have hperm : ∀ e ∈ plan pending, e ∈ pending := fun e he =>
    (perm_insertionSort _ pending).mem_iff.1 he
  let again (st : InMemoryStorage B) : Prop := ∀ docs,
    Replays L (st.readPendingOplog cfg.namespace 50000)
      (plan (st.readPendingOplog cfg.namespace 50000)) st.documents docs →
        ∀ k, storedState L (docs k) = storedState L (st.documents k)
  have hsecond : ∀ w₁ : World B, wp (machine n' (FreshDraws L cfg))
      (fun _ w₂ => ∀ k, docState L w₂ k = docState L w₁ k) (materialize L cfg) w₁ ↔
      again w₁.storage := fun w₁ =>
    wp_materialize_iff (Q := fun st =>
      ∀ k, storedState L (st.documents k) = storedState L (w₁.storage.documents k))
  simp only [hsecond]
  refine (wp_materialize_iff (Q := again)).trans ?_
  exact repeated_iff hperm

def oneDelete : World Sym :=
  (World.new .new).setStorage
    { documents := Function.update (fun _ => none) ⟨"d", "x"⟩ (some (.update ⟨{1}, ∅⟩))
      oplog := [{
        id := "1"
        replicaId := "a"
        «namespace» := "ns"
        mutationType := .crdtDelete
        docId := "d"
        recordId := "x"
        yrsUpdate := .update ⟨{1}, ∅⟩
        encryptedBlob := none
        timestamp := 1
        sequence := none
        syncStatus := .optimistic
        syncedAt := none
        createdAt := 1
        schemaVersion := 0
        origin := .delete
        originContext := "" }]
      syncStates := fun _ => none }

def materializedBy (c : ClientId) (w : World Sym) : World Sym :=
  (run (machine 0 (FreshDraws lib (config 0))) (materialize lib (config 0))
    [default, default, { (default : Env Sym) with clientId := c }] w).2

lemma fresh_oneDelete {w : World Sym} (hoplog : w.storage.oplog = oneDelete.storage.oplog)
    (hc : c ∉ (docState lib w ⟨"d", "x"⟩).stateVector) (hne : c ≠ 1) :
    Fresh lib (w.storage.readPendingOplog "ns" 50000) w.storage.documents c := by
  intro e he
  have hmem : e ∈ oneDelete.storage.oplog := hoplog ▸ (mem_filter.1 (mem_of_mem_take he)).1
  obtain rfl := mem_singleton.1 hmem
  refine ⟨hc, ?_⟩
  rintro _ ⟨⟩
  simpa using hne

/-- The delete is replayed by client 2 and again by client 3. -/
theorem second_run_deletes_again :
    Outcome (machine 0 (FreshDraws lib (config 0))) (materialize lib (config 0))
        oneDelete (.ok ()) (materializedBy 2 oneDelete) ∧
      Outcome (machine 0 (FreshDraws lib (config 0))) (materialize lib (config 0))
        (materializedBy 2 oneDelete) (.ok ()) (materializedBy 3 (materializedBy 2 oneDelete)) ∧
      docState lib (materializedBy 2 oneDelete) ⟨"d", "x"⟩ = ⟨{2, 1}, ∅⟩ ∧
      docState lib (materializedBy 3 (materializedBy 2 oneDelete)) ⟨"d", "x"⟩ =
        ⟨{3, 2, 1}, ∅⟩ := by
  have hfirst : docState lib (materializedBy 2 oneDelete) ⟨"d", "x"⟩ = ⟨{2, 1}, ∅⟩ := rfl
  have hallow₁ : Allowed (machine 0 (FreshDraws lib (config 0)))
      (materialize lib (config 0))
      [default, default, { (default : Env Sym) with clientId := 2 }] oneDelete := by
    refine ⟨rfl, rfl, ?_, rfl, rfl, trivial⟩
    exact fresh_oneDelete rfl (by decide +kernel) (by decide)
  have hallow₂ : Allowed (machine 0 (FreshDraws lib (config 0)))
      (materialize lib (config 0))
      [default, default, { (default : Env Sym) with clientId := 3 }] (materializedBy 2 oneDelete) := by
    refine ⟨rfl, rfl, ?_, rfl, rfl, trivial⟩
    exact fresh_oneDelete (w := materializedBy 2 oneDelete) rfl (by rw [hfirst]; decide) (by decide)
  exact ⟨hallow₁.outcome, hallow₂.outcome, hfirst, rfl⟩

end ViewMaterializer

end VaultSync
