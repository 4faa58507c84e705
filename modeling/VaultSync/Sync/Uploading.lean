import VaultSync.Sync.SafeRules
import VaultSync.Sync.Upload

/-! Upload batches beside other calls, for any protocol that lets them push, mark and move the
cursor. -/

namespace VaultSync.UploadQueue

open Async AsyncFn World

variable {B : Type} {L : Lib B} {cfg : Config} {n : ℕ} {A : Call B → Env B → World B → Prop}
  {P : Protocol (World B)} {known : World B → OplogEntry B → Prop}
  {acked : World B → OplogEntry B × ℕ → Prop} {reached : World B → ℕ → Prop} {w w' : World B}

/-- Under the protocol `P` call `n` may upload. `known` is what it knows of the entries it read,
`acked` of those acknowledged, and `reached` of the sequence it may move the cursor to. -/
structure Uploading (L : Lib B) (cfg : Config) (n : ℕ) (A : Call B → Env B → World B → Prop)
    (P : Protocol (World B)) (known : World B → OplogEntry B → Prop)
    (acked : World B → OplogEntry B × ℕ → Prop) (reached : World B → ℕ → Prop) : Prop where
  known_stable : ∀ {w w' e}, P.rely w w' ∨ P.guar w w' → known w e → known w' e
  acked_stable : ∀ {w w' p}, P.rely w w' ∨ P.guar w w' → acked w p → acked w' p
  reached_stable : ∀ {w w' seq}, P.rely w w' ∨ P.guar w w' → reached w seq → reached w' seq
  pending : ∀ {w} limit, P.inv w →
    ∀ e ∈ w.storage.readPendingOplog cfg.namespace limit, known w e
  push : ∀ {w env} {entries : List (OplogEntry B)}, P.inv w → (∀ e ∈ entries, known w e) →
    A (.push cfg.namespace (entries.map (toMutation L))) env w →
    let r := w.service.log.push cfg.namespace (entries.map (toMutation L))
    (P.inv (w.setLog r.2) ∧ P.guar w (w.setLog r.2)) ∧
      (∀ p ∈ entries.zip r.1, acked (w.setLog r.2) p) ∧ ∀ seq ∈ r.1, reached (w.setLog r.2) seq
  markSynced : ∀ {w} p now, P.inv w → acked w p →
    P.inv (w.setStorage (w.storage.markSynced p.1.id p.2 now)) ∧
      P.guar w (w.setStorage (w.storage.markSynced p.1.id p.2 now))
  markFailed : ∀ {w} id, P.inv w → P.inv (w.setStorage (w.storage.markFailed id)) ∧
    P.guar w (w.setStorage (w.storage.markFailed id))
  memory : ∀ {w} c, P.inv w → c.dedup = w.client.dedup →
    P.inv (w.setClient c) ∧ P.guar w (w.setClient c)
  setCursor : ∀ {w} seq, P.inv w → reached w seq →
    P.inv (w.setStoreCursor seq) ∧ P.guar w (w.setStoreCursor seq)

lemma recordFailures_dedup (retryAt : String → ℕ) (ids : List String) (c : Client B) :
    (RetryEngine.recordFailures cfg retryAt ids c).2.dedup = c.dedup := by
  induction ids generalizing c with
  | nil => rfl
  | cons id ids ih => exact ih _

lemma recordSuccesses_dedup (entries : List (OplogEntry B)) (c : Client B) :
    (entries.foldl (fun c e => RetryEngine.recordSuccess c e.id) c).dedup = c.dedup := by
  induction entries generalizing c with
  | nil => rfl
  | cons e entries ih => exact ih _

namespace Uploading

variable (H : Uploading L cfg n A P known acked reached)

include H

variable {l : List (OplogEntry B × ℕ)} {sequences : List ℕ} {entries : List (OplogEntry B)}

lemma safe_markEach (h : ∀ p ∈ l, acked w p) :
    Safe (machine n A) P (fun _ _ => True) (markEach l) w := by
  induction l generalizing w with
  | nil => exact safe_done
  | cons p rest ih =>
    refine safe_call fun w' e hi hr _ => ?_
    have hacked : ∀ q ∈ p :: rest, acked w' q := fun q hq => H.acked_stable (.inl hr) (h q hq)
    refine safe_onStorage hi (fun _ _ _ _ _ => trivial) fun _ => ?_
    obtain ⟨hi', hg⟩ := H.markSynced p e.now hi (hacked p List.mem_cons_self)
    refine ⟨hi', hg, ih fun q hq => ?_⟩
    exact H.acked_stable (.inr hg) (hacked q (List.mem_cons_of_mem p hq))

lemma safe_markAcked (h : ∀ p ∈ l, acked w p) :
    Safe (machine n A) P (fun _ _ => True) (markAcked l) w := by
  refine safe_query (fun _ _ => rfl) fun w' e _ hr _ => ?_
  exact H.safe_markEach fun p hp => H.acked_stable (.inl hr) (h p hp)

lemma safe_advanceCursor (h : ∀ seq ∈ sequences, reached w seq) :
    Safe (machine n A) P (fun _ _ => True) (advanceCursor cfg sequences) w := by
  unfold advanceCursor
  split
  · rename_i maxSeq _ hmax
    have hreach := h maxSeq (List.max?_mem hmax)
    have hsame : ∀ (e : Env B) (w : World B), (handle n .storeCursor e w).2 = w := fun e w => by
      simp only [handle, onCursor]
      cases e.cursorFault <;> rfl
    refine safe_query hsame fun w1 e _ hr1 _ => ?_
    refine safe_ite (fun _ => ?_) fun _ => safe_done
    rw [← Prog.bind_pure (AsyncFn.setCursor _ _)]
    refine safe_setCursor (fun _ _ _ _ => trivial) fun w2 _ hi2 hr2 _ => ?_
    have hreach2 := H.reached_stable (.inl hr2) (H.reached_stable (.inl hr1) hreach)
    obtain ⟨hi, hg⟩ := H.setCursor maxSeq hi2 hreach2
    exact ⟨hi, hg, safe_done⟩
  · exact safe_done

lemma safe_markFailedEach (msg : ℕ → String) (l : List (String × ℕ)) :
    Safe (machine n A) P (fun _ _ => True) (markFailedEach msg l) w := by
  induction l generalizing w with
  | nil => exact safe_done
  | cons p rest ih =>
    refine safe_call fun w' e hi hr _ => ?_
    refine safe_onStorage hi (fun _ _ _ _ _ => trivial) fun _ => ?_
    obtain ⟨hi', hg⟩ := H.markFailed p.1 hi
    exact ⟨hi', hg, ih⟩

lemma safe_pushFailed (entries : List (OplogEntry B)) (msg : ℕ → String) :
    Safe (machine n A) P (fun _ _ => True) (pushFailed cfg entries msg) w := by
  refine safe_query (fun _ _ => rfl) fun w' e _ _ _ => ?_
  refine safe_update fun w'' hi _ => ?_
  obtain ⟨hi', hg⟩ := H.memory _ hi (recordFailures_dedup _ _ w''.client)
  exact ⟨hi', hg, H.safe_markFailedEach _ _⟩

lemma safe_pushAcked (hi : P.inv w)
    (hacked : ∀ p ∈ entries.zip sequences, acked w p) (hreach : ∀ seq ∈ sequences, reached w seq) :
    Safe (machine n A) P (fun _ _ => True) (pushAcked cfg entries sequences) w := by
  have hmark := (H.safe_markAcked hacked).frame (F := fun w' => ∀ seq ∈ sequences, reached w' seq)
    (fun _ _ hstep h seq hseq => H.reached_stable hstep (h seq hseq)) hreach
  refine Safe.bind hi hmark (fun _ w1 hi1 hpost => ?_) fun _ _ _ _ => trivial
  refine Safe.bind hi1 (H.safe_advanceCursor hpost.2) (fun _ w2 _ _ => ?_) fun _ _ _ _ => trivial
  refine safe_modify_bind fun w3 hi3 _ => ?_
  obtain ⟨hi4, hg4⟩ := H.memory _ hi3 (recordSuccesses_dedup entries w3.client)
  exact ⟨hi4, hg4, safe_done⟩

lemma safe_pushEntries (h : ∀ e ∈ entries, known w e) :
    Safe (machine n A) P (fun _ _ => True) (pushEntries L cfg entries) w := by
  refine safe_push (fun w' e hi hr he => ?_) fun err w' hi => ?_
  · obtain ⟨hstep, hacked, hreach⟩ := H.push hi (fun e he => H.known_stable (.inl hr) (h e he)) he
    exact ⟨hstep, H.safe_pushAcked hstep.1 hacked hreach⟩
  · -- whether the entries were stored or not, they stay pending
    cases err <;>
      exact Safe.bind hi (H.safe_pushFailed entries _) (fun _ _ _ _ => fun _ _ _ => trivial)
        fun _ _ _ _ => trivial

lemma safe_processBatch (w : World B) :
    Safe (machine n A) P (fun _ _ => True) (processBatch L cfg) w := by
  refine safe_read fun w1 _ _ => ?_
  refine safe_ite (fun _ => safe_done) fun _ => ?_
  refine safe_call fun w2 e hi2 _ _ => ?_
  refine safe_onStorage hi2 (fun _ _ _ _ _ => trivial) fun _ => ⟨hi2, P.guar_refl w2, ?_⟩
  have hraw := H.pending cfg.uploadBatchSize hi2
  refine safe_ite (fun _ => safe_done) fun _ => ?_
  refine safe_query (fun _ _ => rfl) fun w3 e' _ hr3 _ => ?_
  refine safe_read fun w4 _ hr4 => ?_
  refine safe_ite (fun _ => safe_done) fun _ => ?_
  refine H.safe_pushEntries fun e he => ?_
  exact H.known_stable (.inl hr4) (H.known_stable (.inl hr3) (hraw e (List.mem_of_mem_filter he)))

end Uploading

end VaultSync.UploadQueue
