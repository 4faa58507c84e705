import VaultSync.Sync.Download

/-! Which calls the reconciler awaits. -/

namespace VaultSync

open Async AsyncFn Prog.Only Prog

variable {B : Type} {L : Lib B} {cfg : Config}

def Call.Merges : Call B → Prop
  | .getDocument _ | .insertDocument _ _ | .writeBatchReconciliation _ => True
  | .newClientId | .hashOrder _ => True
  | _ => False

lemma merges_loadOrNew (k : Key) (existing : Option B) :
    (loadOrNew L k existing).Only Call.Merges := by
  cases existing with
  | none => exact ⟨trivial, fun _ => trivial⟩
  | some bytes => exact ⟨trivial, fun _ => only_ofExcept _⟩

lemma merges_fireDoc (k : Key) : (fireDoc L k).Only Call.Merges := by
  refine ⟨trivial, fun r => (only_ofExcept r).bind fun stored => ?_⟩
  cases stored with
  | none => trivial
  | some bytes => exact ⟨trivial, fun _ => (only_ofExcept _).bind fun _ _ => trivial⟩

lemma merges_fireDocs (ks : List Key) : (ks.forM (fireDoc L)).Only Call.Merges := by
  induction ks with
  | nil => trivial
  | cons k ks ih => exact (merges_fireDoc k).bind fun _ => ih

lemma DownloadQueue.merges_endReplay : (endReplay L).Only Call.Merges := by
  refine fun _ => ite (fun _ _ => ⟨trivial, fun keys => ?_⟩) trivial
  exact (merges_fireDocs _).bind fun _ _ => trivial

variable [DecidableEq B]

lemma merges_storeMerged (entry : OplogEntry B) (existing : Option B) (doc : CRDTDocument) :
    (storeMerged L entry existing doc).Only Call.Merges := by
  refine ⟨trivial, fun r => (only_ofExcept r).bind fun _ _ => ?_⟩
  exact ite (fun _ => ite trivial fun _ => trivial) trivial

lemma merges_applyRemoteUpdate (entry : OplogEntry B) :
    (applyRemoteUpdate L entry).Only Call.Merges := by
  refine fun _ => ite trivial ⟨trivial, fun r => (only_ofExcept r).bind fun _ => ?_⟩
  refine (merges_loadOrNew _ _).bind fun doc => ite (merges_storeMerged ..) ?_
  exact (only_ofExcept _).bind fun _ => merges_storeMerged ..

lemma merges_mergeDocs (groups : List (Key × List (OplogEntry B))) (ks : List Key) :
    (mergeDocs L groups ks).Only Call.Merges := by
  induction ks with
  | nil => trivial
  | cons k ks ih =>
    refine ⟨trivial, fun r => (only_ofExcept r).bind fun _ => ?_⟩
    refine (merges_loadOrNew _ _).bind fun doc => (only_ofExcept _).bind fun _ => ?_
    exact ih.bind fun _ => trivial

lemma merges_applyBatch (entries : List (OplogEntry B)) :
    (applyBatch L entries).Only Call.Merges := by
  refine fun _ => ite trivial fun c => ite trivial ⟨trivial, fun keys => ?_⟩
  refine (merges_mergeDocs _ _).bind fun merged => ⟨trivial, fun r => ?_⟩
  exact (only_ofExcept r).bind fun _ _ => trivial

namespace DownloadQueue

lemma merges_applySnapshots (snaps : List (Snapshot B)) :
    (applySnapshots L cfg snaps).Only Call.Merges := by
  induction snaps with
  | nil => trivial
  | cons s snaps ih => exact (merges_applyRemoteUpdate _).bind fun _ => ih

lemma merges_mergePulled (entries : List (OplogEntry B)) :
    (mergePulled L entries).Only Call.Merges :=
  ite trivial (merges_applyBatch entries)

end DownloadQueue

end VaultSync
