import VaultSync.Sync.CursorBatch
import VaultSync.Sync.Merges

/-! `try_fetch_snapshot`: which of the listed snapshots reach the stored documents. -/

namespace VaultSync.DownloadQueue

open Async AsyncFn World List Snapshot

variable {B : Type} {L : Lib B} {cfg : Config} {n : ℕ} {A : Call B → Env B → World B → Prop}
  {w w' : World B} {l acc listed : List (Snapshot B)} {s : Snapshot B}

/-! ## The latest snapshot of each record -/

/-- `acc` has one snapshot of each record of `l`, and none of `l` is newer. -/
structure IsLatest (l acc : List (Snapshot B)) : Prop where
  keys : (acc.map Snapshot.key).Nodup
  mem : ∀ s ∈ acc, s ∈ l
  le : ∀ s ∈ acc, ∀ t ∈ l, t.key = s.key → t.sequence ≤ s.sequence
  covers : ∀ t ∈ l, ∃ s ∈ acc, s.key = t.key

variable {acc' : List (Snapshot B)} {best existing t : Snapshot B} {k : Key}
  {latest : List (Snapshot B)} {order : List Key}

lemma IsLatest.replace (h : IsLatest l acc) (hkeys : (acc'.map key).Nodup)
    (hacc : ∀ t, t ∈ acc' ↔ t = best ∨ t ∈ acc ∧ t.key ≠ s.key) (hkey : best.key = s.key)
    (hbest : best ∈ l ++ [s]) (hle : ∀ t ∈ l, t.key = s.key → t.sequence ≤ best.sequence)
    (hs : s.sequence ≤ best.sequence) : IsLatest (l ++ [s]) acc' := by
  refine ⟨hkeys, fun t ht => ?_, fun t ht t' ht' hkey' => ?_, fun t ht => ?_⟩
  · rcases (hacc t).1 ht with rfl | ⟨ht, -⟩
    · exact hbest
    · exact mem_append_left _ (h.mem t ht)
  · rcases (hacc t).1 ht with rfl | ⟨ht, hne⟩ <;> rcases mem_append.1 ht' with ht' | ht'
    · exact hle t' ht' (hkey'.trans hkey)
    · rwa [mem_singleton.1 ht']
    · exact h.le t ht t' ht' hkey'
    · rw [mem_singleton.1 ht'] at hkey'
      exact absurd hkey'.symm hne
  · by_cases htk : t.key = s.key
    · exact ⟨best, (hacc best).2 (.inl rfl), hkey.trans htk.symm⟩
    · rcases mem_append.1 ht with ht | ht
      · obtain ⟨t0, ht0, hkey0⟩ := h.covers t ht
        exact ⟨t0, (hacc t0).2 (.inr ⟨ht0, hkey0 ▸ htk⟩), hkey0⟩
      · rw [mem_singleton.1 ht] at htk
        exact absurd rfl htk

lemma IsLatest.append_new (h : IsLatest l acc) (hnew : ∀ t ∈ acc, t.key ≠ s.key) :
    IsLatest (l ++ [s]) (acc ++ [s]) := by
  refine h.replace ?_ (fun t => ?_) rfl mem_concat_self (fun t ht hkey => ?_) le_rfl
  · rw [map_append, map_singleton]
    refine h.keys.append (nodup_singleton _) ?_
    rw [disjoint_singleton]
    intro hmem
    obtain ⟨t, ht, hkey⟩ := mem_map.1 hmem
    exact hnew t ht hkey
  · rw [mem_append, mem_singleton, or_comm, and_iff_left_of_imp (hnew t)]
  · obtain ⟨t0, ht0, hkey0⟩ := h.covers t ht
    exact absurd (hkey0.trans hkey) (hnew t0 ht0)

section existing

variable (h : IsLatest l acc) (hmem : existing ∈ acc) (hkey : existing.key = s.key)

include h hmem hkey

lemma IsLatest.append_old (hle : s.sequence ≤ existing.sequence) : IsLatest (l ++ [s]) acc := by
  refine h.replace h.keys (fun t => ⟨fun ht => ?_, ?_⟩) hkey (mem_append_left _ (h.mem _ hmem))
    (fun t ht htk => h.le _ hmem t ht (htk.trans hkey.symm)) hle
  · by_cases htk : t.key = s.key
    · exact .inl (inj_on_of_nodup_map h.keys ht hmem (htk.trans hkey.symm))
    · exact .inr ⟨ht, htk⟩
  · rintro (rfl | ⟨ht, -⟩)
    · exact hmem
    · exact ht

lemma IsLatest.append_newer (hlt : existing.sequence < s.sequence) :
    IsLatest (l ++ [s]) (acc.map fun t => if t.key = s.key then s else t) := by
  refine h.replace ?_ (fun t => ⟨fun ht => ?_, ?_⟩) rfl mem_concat_self
    (fun t ht htk => (h.le _ hmem t ht (htk.trans hkey.symm)).trans hlt.le) le_rfl
  · have hkeys : (acc.map fun t => if t.key = s.key then s else t).map key = acc.map key := by
      rw [map_map]
      refine map_congr_left fun t _ => ?_
      rw [Function.comp_apply, apply_ite key, ite_eq_right_iff]
      exact Eq.symm
    rw [hkeys]
    exact h.keys
  · obtain ⟨t0, ht0, rfl⟩ := mem_map.1 ht
    split_ifs with htk
    · exact .inl rfl
    · exact .inr ⟨ht0, htk⟩
  · rintro (rfl | ⟨ht, hne⟩)
    · exact mem_map.2 ⟨existing, hmem, if_pos hkey⟩
    · exact mem_map.2 ⟨t, ht, if_neg hne⟩

end existing

lemma IsLatest.keepLatest (h : IsLatest l acc) (s : Snapshot B) :
    IsLatest (l ++ [s]) (keepLatest acc s) := by
  unfold DownloadQueue.keepLatest
  cases hfind : acc.find? fun t => t.key = s.key with
  | none =>
    refine h.append_new fun t ht hkey => ?_
    exact List.find?_eq_none.1 hfind t ht (decide_eq_true_iff.2 hkey)
  | some existing =>
    have hmem := mem_of_find?_eq_some hfind
    have hkey : existing.key = s.key := by simpa using List.find?_some hfind
    dsimp only
    split_ifs with hlt
    · exact h.append_newer hmem hkey hlt
    · exact h.append_old hmem hkey (not_lt.1 hlt)

lemma isLatest_latestSnapshots (l : List (Snapshot B)) : IsLatest l (latestSnapshots l) := by
  induction l using List.reverseRecOn with
  | nil => exact ⟨nodup_nil, nofun, nofun, nofun⟩
  | append_singleton l s ih =>
    rw [latestSnapshots, foldl_append]
    exact ih.keepLatest s

/-! ## One snapshot -/

variable (L listed)

def Twin (s t : Snapshot B) : Prop :=
  t ∈ listed ∧ t.key = s.key ∧ t.sequence = s.sequence

def Restored (before after : Key → Option B) (s : Snapshot B) : Prop :=
  ∃ t, Twin listed s t ∧ ∃ u, L.decodeV1 t.bytes = .ok u ∧
    storedState L (before s.key) ⊔ u ≤ storedState L (after s.key)

def AlreadyThere (docs : Key → Option B) (s : Snapshot B) : Prop :=
  ∃ t, Twin listed s t ∧ ∃ u, L.decodeV1 t.bytes = .ok u ∧ u ≤ storedState L (docs s.key)

/-- A snapshot that has no items the stored document lacks has no such deletions either. -/
def KeepsDeletions (docs : Key → Option B) (s : Snapshot B) : Prop :=
  ∀ u, L.decodeV1 s.bytes = .ok u → u.stateVector ≤ (storedState L (docs s.key)).stateVector →
    u.deleteSet ⊆ (storedState L (docs s.key)).deleteSet

def Unlisted (client : ClientId) : Prop :=
  ∀ t ∈ listed, ∀ u, L.decodeV1 t.bytes = .ok u → client ∉ u.stateVector

variable {L listed} {draw : ClientId → Prop} {docs : Key → Option B} {base u : CrdtState}

lemma Unlisted.eq_zero {client : ClientId} (h : Unlisted L listed client)
    (ht : t ∈ listed) (hu : L.decodeV1 t.bytes = .ok u)
    (hle : u.stateVector ≤ (CRDTDocument.new client k.docId k.recordId 0).state.stateVector) :
    u.stateVector = 0 := by
  refine Multiset.eq_zero_of_forall_notMem fun c hc => ?_
  have hmem := Multiset.mem_of_le hle hc
  have hclient : c = client := by simpa [CRDTDocument.new] using hmem
  exact h t ht u hu (hclient ▸ hc)

lemma le_base_of_covered (hlisted : s ∈ listed) (hu : L.decodeV1 s.bytes = .ok u) (hk : s.key = k)
    (hbase : BaseState L draw k (docs k) base) (hdraw : ∀ c, draw c → Unlisted L listed c)
    (hkeeps : KeepsDeletions L docs s) (hcov : u.stateVector ≤ base.stateVector) : u ≤ base := by
  subst hk
  cases hdoc : docs s.key with
  | some bytes =>
    rw [hdoc] at hbase
    have hstate : storedState L (docs s.key) = base := by rw [hdoc, storedState_some hbase]
    have hdel := hkeeps u hu
    rw [hstate] at hdel
    exact ⟨hcov, hdel hcov⟩
  | none =>
    rw [hdoc] at hbase
    obtain ⟨client, hclient, rfl⟩ := hbase
    have hzero := (hdraw client hclient).eq_zero hlisted hu hcov
    refine ⟨hcov, (hkeeps u hu (hzero ▸ Multiset.zero_le _)).trans ?_⟩
    rw [hdoc]
    exact Finset.empty_subset _

lemma restored_iff_of_appliedAlone (hlisted : s ∈ listed)
    (hdraw : ∀ c, draw c → Unlisted L listed c)
    (happ : AppliedAlone L draw (snapshotEntry cfg s) w w') :
    Restored L listed w.storage.documents w'.storage.documents s ↔
      AlreadyThere L listed w.storage.documents s ∨
        ((snapshotEntry cfg s).id ∉ w.client.dedup.seen ∧
          KeepsDeletions L w.storage.documents s) := by
  cases happ with
  | skipped hseen hsame =>
    subst hsame
    have hnot : ¬ ((snapshotEntry cfg s).id ∉ w'.client.dedup.seen ∧
        KeepsDeletions L w'.storage.documents s) := fun h => h.1 hseen
    rw [or_iff_left hnot]
    refine exists_congr fun t => and_congr_right fun _ => exists_congr fun u =>
      and_congr_right fun _ => ?_
    exact ⟨fun h => le_sup_right.trans h, fun h => sup_le le_rfl h⟩
  | merged hunseen base u hbase hu hdocs _ =>
    have hbase' : BaseState L draw s.key (w.storage.documents s.key) base := hbase
    have hu' : L.decodeV1 s.bytes = .ok u := hu
    have hstate : storedState L (w'.storage.documents s.key) =
        if u.stateVector ≤ base.stateVector then base else base ⊔ u := by
      rw [hdocs, show (snapshotEntry cfg s).key = s.key from rfl, Function.update_self,
        storedState_some (L.decode_encode _)]
    have hold : storedState L (w.storage.documents s.key) ≤ base := docState_le_base hbase'
    have hgrow : base ≤ storedState L (w'.storage.documents s.key) := by
      rw [hstate]
      split_ifs
      · exact le_rfl
      · exact le_sup_left
    constructor
    · rintro ⟨t, ht, v, hv, hle⟩
      by_cases hkeeps : KeepsDeletions L w.storage.documents s
      · exact .inr ⟨hunseen, hkeeps⟩
      -- the snapshot was judged redundant, so nothing but the base is stored
      · have hcov : u.stateVector ≤ base.stateVector := by
          by_contra hcov
          refine hkeeps fun u' hu'' hle' => ?_
          rw [hu'] at hu''
          cases hu''
          exact absurd (hle'.trans hold.1) hcov
        rw [hstate, if_pos hcov] at hle
        refine .inl ⟨t, ht, v, hv, ?_⟩
        replace hle := le_sup_right.trans hle
        cases hdoc : w.storage.documents s.key with
        | some bytes =>
          rw [hdoc] at hbase'
          rwa [storedState_some hbase']
        | none =>
          rw [hdoc] at hbase'
          obtain ⟨client, hclient, rfl⟩ := hbase'
          have hzero := (hdraw client hclient).eq_zero ht.1 hv hle.1
          refine ⟨hzero ▸ Multiset.zero_le _, ?_⟩
          exact hle.2
    · rintro (⟨t, ht, v, hv, hle⟩ | ⟨-, hkeeps⟩)
      · exact ⟨t, ht, v, hv, sup_le (hold.trans hgrow) (hle.trans (hold.trans hgrow))⟩
      · refine ⟨s, ⟨hlisted, rfl, rfl⟩, u, hu', sup_le (hold.trans hgrow) ?_⟩
        rw [hstate]
        split_ifs with hcov
        · exact le_base_of_covered hlisted hu' rfl hbase' hdraw hkeeps hcov
        · exact le_sup_right

/-! ## All of them -/

/-- Each snapshot in turn is there already, or passes the dedup cache, as the ones before it left
it, and the redundancy test. -/
def PassesFilters (L : Lib B) (cfg : Config) (listed : List (Snapshot B)) (docs : Key → Option B) :
    DedupCache → List (Snapshot B) → Prop
  | _, [] => True
  | dedup, s :: ss =>
    (AlreadyThere L listed docs s ∨
      ((snapshotEntry cfg s).id ∉ dedup.seen ∧ KeepsDeletions L docs s)) ∧
    PassesFilters L cfg listed docs
      (if (snapshotEntry cfg s).id ∈ dedup.seen then dedup else dedup.mark (snapshotEntry cfg s).id)
      ss

lemma passesFilters_congr {docs' : Key → Option B} {dedup : DedupCache}
    (h : ∀ s ∈ l, docs s.key = docs' s.key) :
    PassesFilters L cfg listed docs dedup l ↔ PassesFilters L cfg listed docs' dedup l := by
  induction l generalizing dedup with
  | nil => rfl
  | cons s ss ih =>
    rw [forall_mem_cons] at h
    rw [PassesFilters, PassesFilters, ih h.2, AlreadyThere, AlreadyThere, KeepsDeletions,
      KeepsDeletions, h.1]

/-! ## What is to be applied -/

def toApply (listed : List (Snapshot B)) (cursor : ℕ) (order : List Key) : List (Snapshot B) :=
  inSequenceOrder (latestSnapshots (listed.filter fun s => cursor < s.sequence)) order

lemma keys_inSequenceOrder (horder : order.Perm (latest.map key)) :
    ((inSequenceOrder latest order).map key).Perm order := by
  have hfound : ∀ k ∈ order, ((latest.find? fun s => s.key = k).map key) = some k := by
    intro k hk
    obtain ⟨s, hs, hkey⟩ := mem_map.1 (horder.mem_iff.1 hk)
    obtain ⟨t, ht⟩ : ∃ t, latest.find? (fun s => s.key = k) = some t := by
      rw [← Option.isSome_iff_exists, List.find?_isSome]
      exact ⟨s, hs, by simpa using hkey⟩
    have htk : t.key = k := by simpa using List.find?_some ht
    rw [ht, Option.map_some, htk]
  refine ((perm_insertionSort _ _).map _).trans (.of_eq ?_)
  rw [map_filterMap, filterMap_congr hfound, filterMap_some]

/-- Every record with a listed snapshot above the cursor has grown by a newest one of it. -/
def SnapshotsKept (L : Lib B) (listed : List (Snapshot B)) (cursor : ℕ) (w w' : World B) : Prop :=
  ∀ k, (∃ s ∈ listed, s.key = k ∧ cursor < s.sequence) →
    ∃ s ∈ listed, s.key = k ∧ (∀ t ∈ listed, t.key = k → t.sequence ≤ s.sequence) ∧
      ∃ u, L.decodeV1 s.bytes = .ok u ∧ docState L w k ⊔ u ≤ docState L w' k

lemma snapshotsKept_iff {cursor : ℕ}
    (horder : order.Perm ((latestSnapshots (listed.filter fun s => cursor < s.sequence)).map key)) :
    SnapshotsKept L listed cursor w w' ↔ ∀ s ∈ toApply listed cursor order,
      Restored L listed w.storage.documents w'.storage.documents s := by
  have hlatest := isLatest_latestSnapshots (listed.filter fun s => cursor < s.sequence)
  have hmem : ∀ s, s ∈ toApply listed cursor order ↔
      s ∈ latestSnapshots (listed.filter fun s => cursor < s.sequence) :=
    fun s => mem_inSequenceOrder horder hlatest.keys
  have happ : ∀ s, s ∈ listed.filter (fun s => cursor < s.sequence) ↔
      s ∈ listed ∧ cursor < s.sequence := fun s => by rw [mem_filter, decide_eq_true_iff]
  constructor
  · intro h s hs
    have hs' := (hmem s).1 hs
    obtain ⟨hslisted, hscursor⟩ := (happ s).1 (hlatest.mem s hs')
    obtain ⟨t, ht, hkey, hmax, u, hu, hle⟩ := h s.key ⟨s, hslisted, rfl, hscursor⟩
    have hst : s.sequence ≤ t.sequence := hmax s hslisted rfl
    have hts : t.sequence ≤ s.sequence :=
      hlatest.le s hs' t ((happ t).2 ⟨ht, hscursor.trans_le hst⟩) hkey
    exact ⟨t, ⟨ht, hkey, hts.antisymm hst⟩, u, hu, hle⟩
  · rintro h k ⟨s0, hs0, rfl, hcursor⟩
    obtain ⟨s, hs, hkey⟩ := hlatest.covers s0 ((happ s0).2 ⟨hs0, hcursor⟩)
    obtain ⟨t, ⟨ht, htkey, hseq⟩, u, hu, hle⟩ := h s ((hmem s).2 hs)
    refine ⟨t, ht, htkey.trans hkey, fun t' ht' hkey' => ?_, u, hu, ?_⟩
    · rw [hseq]
      by_cases happ' : cursor < t'.sequence
      · exact hlatest.le s hs t' ((happ t').2 ⟨ht', happ'⟩) (hkey'.trans hkey.symm)
      · exact (not_lt.1 happ').trans ((happ s).1 (hlatest.mem s hs)).2.le
    · rw [← hkey]
      exact hle

/-! ## A coordinator that lists any snapshots -/

def listingHandle (n : ℕ) (listed : List (Snapshot B)) :
    (op : Call B) → Env B → World B → Call.Ans op × World B
  | .listSnapshots _, e, w => (match e.coordinatorFault with
    | some err => .error err
    | none => .ok listed, w)
  | op, e, w => handle n op e w

def listing (n : ℕ) (A : Call B → Env B → World B → Prop) (listed : List (Snapshot B)) :
    Machine (Calls B) (Client B) (Env B) (World B) :=
  { machine n A with handle := listingHandle n listed }

def Call.Restores : Call B → Prop
  | .listSnapshots _ => False
  | _ => True

/-- The hash map gives the records in the order `order`, and new documents get ids that the
listed snapshots do not have. -/
def Choices (L : Lib B) (listed : List (Snapshot B)) (order : List Key) :
    Call B → Env B → World B → Prop
  | .hashOrder keys, e, _ => (e.keyOrder keys).1 = order
  | .newClientId, e, _ => Unlisted L listed e.clientId
  | _, _, _ => True

/-! ## The call -/

variable [DecidableEq B]

lemma wp_applySnapshots (hdraw : ∀ c, Drawn A c → Unlisted L listed c)
    (hkeys : (l.map key).Nodup) (hlisted : ∀ s ∈ l, s ∈ listed) :
    wp (machine n A) (fun r w' => r = .ok () →
      (∀ k, k ∉ l.map key → w'.storage.documents k = w.storage.documents k) ∧
      ((∀ s ∈ l, Restored L listed w.storage.documents w'.storage.documents s) ↔
        PassesFilters L cfg listed w.storage.documents w.client.dedup l))
      (applySnapshots L cfg l) w := by
  induction l generalizing w with
  | nil => exact fun _ => ⟨fun _ _ => rfl, iff_of_true nofun trivial⟩
  | cons s ss ih =>
    rw [map_cons, nodup_cons] at hkeys
    rw [forall_mem_cons] at hlisted
    rw [applySnapshots]
    refine wp.bind (wp_applyRemoteUpdate_ok _) (fun _ w1 happ => ?_) fun _ _ _ => nofun
    have happ' := happ rfl
    have hfirst := restored_iff_of_appliedAlone hlisted.1 hdraw happ'
    have hothers : ∀ k, k ≠ s.key → w1.storage.documents k = w.storage.documents k := by
      intro k hk
      cases happ' with
      | skipped _ hsame => rw [hsame]
      | merged _ base u _ _ hdocs _ =>
        rw [hdocs]
        exact Function.update_of_ne hk _ _
    have hdedup : w1.client.dedup = if (snapshotEntry cfg s).id ∈ w.client.dedup.seen
        then w.client.dedup else w.client.dedup.mark (snapshotEntry cfg s).id := by
      cases happ' with
      | skipped hseen hsame => rw [hsame, if_pos hseen]
      | merged hunseen _ _ _ _ _ hdedup => rw [hdedup, if_neg hunseen]
    have hne : ∀ t ∈ ss, t.key ≠ s.key := fun t ht hkey =>
      hkeys.1 (hkey ▸ mem_map_of_mem ht)
    refine (ih hkeys.2 hlisted.2).mono fun r w' h hr => ?_
    obtain ⟨hkeep, hrest⟩ := h hr
    refine ⟨fun k hk => ?_, ?_⟩
    · rw [map_cons, mem_cons, not_or] at hk
      rw [hkeep k hk.2, hothers k hk.1]
    · have hsame : w'.storage.documents s.key = w1.storage.documents s.key := hkeep s.key hkeys.1
      rw [forall_mem_cons, PassesFilters, ← hdedup]
      refine and_congr ?_ ?_
      · rw [← hfirst, Restored, hsame, Restored]
      · rw [← passesFilters_congr fun t ht => hothers t.key (hne t ht), ← hrest]
        refine forall₂_congr fun t ht => ?_
        rw [Restored, Restored, hothers t.key (hne t ht)]

lemma restores_restoreSnapshots (latest : List (Snapshot B)) :
    (restoreSnapshots L cfg latest).Only Call.Restores := by
  have happly : ∀ l : List (Snapshot B), (applySnapshots L cfg l).Only Call.Restores := by
    refine fun l => (merges_applySnapshots l).mono fun op h => ?_
    cases op <;> trivial
  refine ⟨trivial, fun keys => (happly _).bind fun _ => ⟨trivial, fun r => ?_⟩⟩
  exact (Prog.only_ofExcept r).bind fun _ => ⟨trivial, fun _ => trivial⟩

lemma wp_restoreSnapshots (hkeys : (latest.map key).Nodup) (hlisted : ∀ s ∈ latest, s ∈ listed) :
    wp (machine n (Choices L listed order)) (fun r w' => r = .ok true →
      order.Perm (latest.map key) ∧
      ((∀ s ∈ inSequenceOrder latest order,
          Restored L listed w.storage.documents w'.storage.documents s) ↔
        PassesFilters L cfg listed w.storage.documents w.client.dedup
          (inSequenceOrder latest order)))
      (restoreSnapshots L cfg latest) w := by
  rw [restoreSnapshots, wp_hashOrder]
  intro e he
  have horder : order.Perm (latest.map key) := by
    rw [← show (e.keyOrder _).1 = order from he]
    exact (e.keyOrder (latest.map key)).2
  rw [show (e.keyOrder (latest.map key)).1 = order from he]
  dsimp only
  have hdraw : ∀ c, Drawn (Choices L listed order) c → Unlisted L listed c := by
    rintro _ ⟨e', w', he', rfl⟩
    exact he'
  have hnd : ((inSequenceOrder latest order).map key).Nodup :=
    (keys_inSequenceOrder horder).nodup_iff.2 (horder.nodup_iff.2 hkeys)
  have hin : ∀ s ∈ inSequenceOrder latest order, s ∈ listed := fun s hs =>
    hlisted s ((mem_inSequenceOrder horder hkeys).1 hs)
  refine wp.bind (wp_applySnapshots hdraw hnd hin) (fun _ w1 happ => ?_) fun _ _ _ => nofun
  rw [wp_setCursor]
  refine fun _ _ => ⟨fun err _ => nofun, fun _ => ?_⟩
  rw [wp_swapLastSequence]
  exact fun _ _ _ => ⟨horder, (happ rfl).2⟩

/-- **Snapshot catch-up.** Whatever the dedup cache holds and whatever snapshots are listed, a
call that returns `Ok(true)` has caught up exactly if each snapshot it came to apply was there
already or passed the dedup cache and the redundancy test. -/
theorem snapshotsKept_iff_passesFilters {order : List Key}
    (hrun : Outcome (listing n (Choices L listed order) listed) (tryFetchSnapshot L cfg) w
      (.ok true) w') :
    SnapshotsKept L listed w.lastSequence w w' ↔
      PassesFilters L cfg listed w.storage.documents w.client.dedup
        (toApply listed w.lastSequence order) := by
  have hwp : wp (listing n (Choices L listed order) listed) (fun r w' => r = .ok true →
      (SnapshotsKept L listed w.lastSequence w w' ↔
        PassesFilters L cfg listed w.storage.documents w.client.dedup
          (toApply listed w.lastSequence order))) (tryFetchSnapshot L cfg) w := by
    intro _ _
    change wp _ _ (if cfg.snapshotThreshold = 0 then _ else _) w
    rw [wp_ite]
    refine ⟨fun _ => nofun, fun _ e _ => ?_⟩
    change wp _ _ (.bind (.ret (match e.coordinatorFault with
      | some err => Except.error err
      | none => .ok listed)) _) w
    cases e.coordinatorFault with
    | some err => exact nofun
    | none =>
      change wp _ _ (if _ then _ else _) w
      rw [wp_ite]
      refine ⟨fun _ => nofun, fun _ => ?_⟩
      have hlatest := isLatest_latestSnapshots (listed.filter fun s => w.lastSequence < s.sequence)
      have hsub : ∀ s ∈ latestSnapshots (listed.filter fun s => w.lastSequence < s.sequence),
          s ∈ listed := fun s hs => mem_of_mem_filter (hlatest.mem s hs)
      have hrest : wp (machine n (Choices L listed order)) (fun r w' => r = .ok true →
          (SnapshotsKept L listed w.lastSequence w w' ↔
            PassesFilters L cfg listed w.storage.documents w.client.dedup
              (toApply listed w.lastSequence order)))
          (restoreSnapshots L cfg
            (latestSnapshots (listed.filter fun s => w.lastSequence < s.sequence))) w := by
        refine (wp_restoreSnapshots hlatest.keys hsub).mono fun r w' h hr => ?_
        rw [snapshotsKept_iff (h hr).1]
        exact (h hr).2
      have hagree : ∀ op, Call.Restores op → (listing n (Choices L listed order) listed).handle op =
          (machine n (Choices L listed order)).handle op := fun op hop => by
            cases op <;> first | rfl | exact hop.elim
      have hallow : ∀ op, Call.Restores op → (listing n (Choices L listed order) listed).allow op =
          (machine n (Choices L listed order)).allow op := fun _ _ => rfl
      exact ((restores_restoreSnapshots _).wp_iff hallow hagree rfl rfl).2 hrest
  exact wp_iff_outcome.1 hwp _ _ hrun rfl

/-! ## Before and after a cursor reset -/

namespace SnapshotCatchUp

def titleAt (record : String) (sequence : ℕ) : Snapshot Sym :=
  ⟨"d", record, 0, sequence, 0, .update ⟨{1, 1, 1, 1}, ∅⟩⟩

def fetch (record : String) (w : World Sym) : Except VaultSyncError Bool × World Sym :=
  run (listing 0 (Choices Sym.lib [titleAt record 5] [⟨"d", record⟩]) [titleAt record 5])
    (tryFetchSnapshot Sym.lib (Sym.config 1)) [] w

def caughtUp : World Sym := (fetch "x" (.new .new)).2

def afterReset : World Sym := (fetch "y" (caughtUp.setLastSequence 0)).2

lemma outcome_caughtUp :
    Outcome (listing 0 (Choices Sym.lib [titleAt "x" 5] [⟨"d", "x"⟩]) [titleAt "x" 5])
      (tryFetchSnapshot Sym.lib (Sym.config 1)) (.new .new) (.ok true) caughtUp := by
  have hunlisted : Unlisted Sym.lib [titleAt "x" 5] 0 := by
    intro t ht u hu
    rw [mem_singleton.1 ht] at hu
    cases hu
    decide
  have hallowed : Allowed (listing 0 (Choices Sym.lib [titleAt "x" 5] [⟨"d", "x"⟩])
      [titleAt "x" 5]) (tryFetchSnapshot Sym.lib (Sym.config 1)) [] (.new .new) :=
    -- cursor, list, order; read, client id, write; both cursors
    And.intro trivial (And.intro trivial (And.intro rfl (And.intro trivial (And.intro hunlisted
      (And.intro trivial (And.intro trivial (And.intro trivial trivial)))))))
  exact hallowed.outcome

theorem first_snapshot_kept : SnapshotsKept Sym.lib [titleAt "x" 5] 0 (.new .new) caughtUp := by
  refine (snapshotsKept_iff_passesFilters outcome_caughtUp).2 ⟨.inr ⟨?_, ?_⟩, trivial⟩
  · exact Finset.notMem_empty _
  · intro u hu hle
    cases hu
    exact absurd hle (by decide)

theorem second_snapshot_lost :
    Outcome (listing 0 (Choices Sym.lib [titleAt "x" 5] [⟨"d", "x"⟩]) [titleAt "x" 5])
        (tryFetchSnapshot Sym.lib (Sym.config 1)) (.new .new) (.ok true) caughtUp ∧
      Outcome (listing 0 (Choices Sym.lib [titleAt "y" 5] [⟨"d", "y"⟩]) [titleAt "y" 5])
        (tryFetchSnapshot Sym.lib (Sym.config 1)) (caughtUp.setLastSequence 0) (.ok true)
        afterReset ∧
      afterReset.storage.documents ⟨"d", "y"⟩ = none ∧
      ¬ SnapshotsKept Sym.lib [titleAt "y" 5] 0 (caughtUp.setLastSequence 0) afterReset := by
  have hallowed : Allowed (listing 0 (Choices Sym.lib [titleAt "y" 5] [⟨"d", "y"⟩])
      [titleAt "y" 5]) (tryFetchSnapshot Sym.lib (Sym.config 1)) [] (caughtUp.setLastSequence 0) :=
    And.intro trivial (And.intro trivial (And.intro rfl (And.intro trivial
      (And.intro trivial trivial))))
  refine ⟨outcome_caughtUp, hallowed.outcome, rfl, fun hkept => ?_⟩
  obtain ⟨s, hs, -, -, u, hu, hle⟩ := hkept ⟨"d", "y"⟩ ⟨titleAt "y" 5, mem_cons_self, rfl, by decide⟩
  rw [mem_singleton.1 hs] at hu
  cases hu
  have hbot : docState Sym.lib afterReset ⟨"d", "y"⟩ = ⊥ := rfl
  rw [hbot] at hle
  exact absurd (le_sup_right.trans hle).1 (by decide)

end SnapshotCatchUp

end VaultSync.DownloadQueue
