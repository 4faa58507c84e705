import VaultSync.Opfs.PendingCount

/-! What a transaction buffers, and that it leaves the oplog as its operations would one after
another. Its delta is made when it is committed, from entries that all operations have changed. -/

namespace VaultSync.Opfs

open Async List Versions OpfsStorage OplogRefinement

variable {F D B : Type}

namespace TxOp

def event : TxOp B → Event B
  | markSynced id sequence => .markSynced id sequence
  | markFailed id => .markFailed id
  | appendOplog entry => .appendOplog entry

def id : TxOp B → String
  | markSynced id _ => id
  | markFailed id => id
  | appendOplog entry => entry.id

def on : TxOp B → Option (OplogEntry B) → Option (OplogEntry B)
  | markSynced _ sequence => Option.map (synced sequence)
  | markFailed _ => Option.map failed
  | appendOplog entry => fun _ => some entry

def appended : TxOp B → Option String
  | appendOplog entry => some entry.id
  | _ => none

lemma event_apply (m : OplogMap B) (op : TxOp B) :
    op.event.apply m = Function.update m op.id (op.on (m op.id)) := by
  cases op <;> rfl

lemma on_on (op : TxOp B) (x : Option (OplogEntry B)) : op.on (op.on x) = op.on x := by
  cases op <;> cases x <;> rfl

lemma eq_none_of_on (op : TxOp B) (x : Option (OplogEntry B)) (h : op.on x = none) : x = none := by
  cases op <;> cases x <;> first | rfl | cases h

lemma id_of_on {op : TxOp B} {x : Option (OplogEntry B)} {a : OplogEntry B} (h : op.on x = some a)
    (hx : ∀ e, x = some e → e.id = op.id) : a.id = op.id := by
  cases op with
  | appendOplog entry => exact Option.some.inj h ▸ rfl
  | markSynced id sequence | markFailed id =>
    obtain ⟨e, he, rfl⟩ := Option.map_eq_some_iff.1 h
    exact hx e he

end TxOp

namespace OpfsTransaction

def new (lib : PageLib F D B) : TabFn F D B (OpfsTransaction B) := do
  return ⟨[], ← readAllOplogEntries lib⟩

def mark (id : String) (f : OplogEntry B → OplogEntry B) (e : OplogEntry B) : OplogEntry B :=
  if e.id = id then f e else e

variable (tx : OpfsTransaction B)

def markSynced (id : String) (sequence : ℕ) : OpfsTransaction B where
  ops := tx.ops ++ [.markSynced id sequence]
  pendingEntries := tx.pendingEntries.map (mark id (synced sequence))

def markFailed (id : String) : OpfsTransaction B where
  ops := tx.ops ++ [.markFailed id]
  pendingEntries := tx.pendingEntries.map (mark id failed)

def appendOplog (entry : OplogEntry B) : OpfsTransaction B where
  ops := tx.ops ++ [.appendOplog entry]
  pendingEntries := tx.pendingEntries ++ [entry]

def buffer : TxOp B → OpfsTransaction B
  | .markSynced id sequence => tx.markSynced id sequence
  | .markFailed id => tx.markFailed id
  | .appendOplog entry => tx.appendOplog entry

def transact (lib : PageLib F D B) (ops : List (TxOp B)) : TabFn F D B Unit := do
  let tx ← new lib
  (ops.foldl buffer tx).commit lib

/-! ## The entries of a transaction -/

def view : OplogMap B := fun k => tx.pendingEntries.find? (·.id = k)

variable {tx} {ops : List (TxOp B)} {m : OplogMap B}

lemma id_of_view {k : String} {e : OplogEntry B} (h : tx.view k = some e) : e.id = k := by
  simpa using find?_some h

lemma delta_eq (tx : OpfsTransaction B) :
    tx.delta = tx.ops.filterMap fun op => op.on (tx.view op.id) := by
  unfold delta
  congr 1
  funext op
  cases op <;> rfl

section mark

variable {f : OplogEntry B → OplogEntry B} (hf : ∀ e, (f e).id = e.id)

include hf

lemma id_mark (id : String) (e : OplogEntry B) : (mark id f e).id = e.id := by
  unfold mark
  split
  · exact hf e
  · rfl

lemma ids_mark (id : String) (l : List (OplogEntry B)) :
    (l.map (mark id f)).map OplogEntry.id = l.map OplogEntry.id := by
  rw [map_map]
  exact map_congr_left fun e _ => id_mark hf id e

lemma view_mark (id : String) (ops : List (TxOp B)) :
    view ⟨ops, tx.pendingEntries.map (mark id f)⟩ =
      Function.update tx.view id ((tx.view id).map f) := by
  funext k
  have hfind : view ⟨ops, tx.pendingEntries.map (mark id f)⟩ k = (tx.view k).map (mark id f) := by
    simp only [view, find?_map, Function.comp_def, id_mark hf]
  rw [hfind]
  by_cases hk : k = id
  · subst hk
    rw [Function.update_self]
    exact Option.map_congr fun e he => if_pos (id_of_view he)
  · rw [Function.update_of_ne hk]
    refine (Option.map_congr fun e he => if_neg ?_).trans Option.map_id'
    rwa [id_of_view he]

end mark

lemma view_append {entry : OplogEntry B} (hfresh : ∀ e ∈ tx.pendingEntries, e.id ≠ entry.id) :
    (tx.appendOplog entry).view = Function.update tx.view entry.id (some entry) := by
  funext k
  rw [view, appendOplog, find?_append]
  by_cases hk : k = entry.id
  · subst hk
    rw [Function.update_self, find?_eq_none.2 fun e he => by simpa using hfresh e he]
    simp
  · rw [Function.update_of_ne hk, find?_cons_of_neg (by simpa using Ne.symm hk), find?_nil,
      Option.or_none]
    rfl

/-- The ids stay distinct, so that the first entry of an id is the only one. -/
lemma buffered (tx : OpfsTransaction B)
    (hfresh : (tx.pendingEntries.map OplogEntry.id ++ ops.filterMap TxOp.appended).Nodup) :
    (ops.foldl buffer tx).view = ops.foldl (fun m op => op.event.apply m) tx.view ∧
      (ops.foldl buffer tx).ops = tx.ops ++ ops := by
  induction ops generalizing tx with
  | nil => exact ⟨rfl, (append_nil _).symm⟩
  | cons op ops ih =>
    have hstep : (tx.buffer op).view = op.event.apply tx.view ∧
        (tx.buffer op).ops = tx.ops ++ [op] ∧
        (tx.buffer op).pendingEntries.map OplogEntry.id ++ ops.filterMap TxOp.appended =
          tx.pendingEntries.map OplogEntry.id ++ (op :: ops).filterMap TxOp.appended := by
      cases op with
      | markSynced id sequence =>
        have hf : ∀ e : OplogEntry B, (synced sequence e).id = e.id := fun _ => rfl
        exact ⟨view_mark hf id _, rfl, congrArg (· ++ _) (ids_mark hf id _)⟩
      | markFailed id =>
        have hf : ∀ e : OplogEntry B, (failed e).id = e.id := fun _ => rfl
        exact ⟨view_mark hf id _, rfl, congrArg (· ++ _) (ids_mark hf id _)⟩
      | appendOplog entry =>
        refine ⟨view_append fun e he heq => ?_, rfl, ?_⟩
        · exact disjoint_of_nodup_append hfresh (mem_map_of_mem he) (heq ▸ mem_cons_self)
        · rw [buffer, appendOplog, map_append, append_assoc]
          rfl
    obtain ⟨hview, hops⟩ := ih _ (hstep.2.2 ▸ hfresh)
    refine ⟨hview.trans ?_, hops.trans ?_⟩
    · rw [hstep.1, foldl_cons]
    · rw [hstep.2.1, append_assoc, cons_append, nil_append]

lemma update_delta {l : List (OplogEntry B)} (h : Represents OplogEntry.id l m)
    (hfresh : (l.map OplogEntry.id ++ ops.filterMap TxOp.appended).Nodup) :
    update OplogEntry.id m (ops.foldl buffer ⟨[], l⟩).delta =
      ops.foldl (fun m op => op.event.apply m) m := by
  have hl : view ⟨[], l⟩ = m := (represents_find? h.nodup).latest_eq.symm.trans h.latest_eq
  obtain ⟨hview, hops⟩ := buffered ⟨[], l⟩ hfresh
  rw [hl] at hview
  rw [delta_eq, hops, nil_append, ← hview]
  funext k
  refine update_deferred TxOp.on_on TxOp.eq_none_of_on
    (fun op a ha => TxOp.id_of_on ha fun _ => id_of_view) ?_
  rw [hview]
  simp only [TxOp.event_apply]

/-! ## The commit -/

/-- **A transaction.** After a commit on a page above all others, what is read is what the
operations make of what was read before, one after another. -/
theorem transact_read (lib : PageLib F D B) (s s' : TabState F D) (m : OplogMap B)
    (ops : List (TxOp B)) (r : Except VaultSyncError Unit) (envs envs' : List (Env B))
    (h : Refines lib m s) (hstale : NoStale (s.part .oplog))
    (hnd : (ops.filterMap TxOp.appended).Nodup)
    (hfresh : ∀ id ∈ ops.filterMap TxOp.appended, m id = none)
    (hrun : Outcome (TabState.machine B) (transact lib ops) s r s') (hinc : OplogIncreasing s')
    (hstale' : NoStale (s'.part .oplog)) :
    (∃ l, readBack lib s envs = .ok l ∧ Represents OplogEntry.id l m) ∧ r = .ok () ∧
      ∃ l, readBack lib s' envs' = .ok l ∧
        Represents OplogEntry.id l (ops.foldl (fun m op => op.event.apply m) m) := by
  have hcommit : Assuming (TabState.machine B) OplogIncreasing (fun r s' => r = .ok () ∧
      Refines lib (ops.foldl (fun m op => op.event.apply m) m) s') (transact lib ops) s := by
    unfold transact new
    refine assuming_bind neverRegains (assuming_bind neverRegains
      ((assuming_of_wp (wp_readAllOplogEntries h)).mono ?_))
    rintro _ s₀ - ⟨l, rfl, ⟨h₀, -⟩, hl⟩
    have hids : (l.map OplogEntry.id ++ ops.filterMap TxOp.appended).Nodup := by
      refine (hl hstale).nodup.append hnd fun id hid happ => ?_
      obtain ⟨e, he, rfl⟩ := mem_map.1 hid
      exact (hl hstale).eq_none_iff.1 (hfresh _ happ) e he rfl
    refine fun _ => (PendingCount.assuming_commit h₀ _).mono ?_
    rintro _ s' - ⟨rfl, h', -⟩
    rw [update_delta (hl hstale) hids] at h'
    exact ⟨rfl, h'⟩
  obtain ⟨hr, h'⟩ := wp_iff_outcome.1 hcommit r s' hrun hinc
  exact ⟨exists_readBack h hstale envs, hr, exists_readBack h' hstale' envs'⟩

def sampleOps : List (TxOp Unit) :=
  [.markFailed "d", .appendOplog (sampleEntry "d"), .markSynced "d" 3, .markSynced "b" 4,
    .markFailed "b"]

theorem transact_read_sampleOps :
    ∃ l, readBack symbolic (Async.run (TabState.machine Unit) (transact symbolic sampleOps) []
        (run symbolic (opened true) sampleEvents)).2 [] = .ok l ∧
      Represents OplogEntry.id l
        (sampleOps.foldl (fun m op => op.event.apply m) (applyAll sampleEvents)) :=
  (transact_read symbolic _ _ (applyAll sampleEvents) sampleOps _ [] []
    (refines_run (refines_opened true) (by decide) (by decide)) (by decide) (by decide) (by decide)
    (run_outcome _ [] _ fun _ _ => ⟨trivial, fun _ _ => trivial⟩) (by decide) (by decide)).2.2

end OpfsTransaction

end VaultSync.Opfs
