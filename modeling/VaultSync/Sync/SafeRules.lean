import VaultSync.Sync.Calls

/-! The awaited calls beside other calls of the pool. -/

namespace VaultSync

open Async AsyncFn World

variable {B α β : Type} {n : ℕ} {A : Call B → Env B → World B → Prop} {P : Protocol (World B)}
  {Q : Except VaultSyncError β → World B → Prop} {w : World B}

lemma safe_pure {b : β} (h : ∀ w', P.inv w' → P.rely w w' → Q (.ok b) w') :
    Safe (machine n A) P Q (pure b) w := h

lemma safe_done {b : β} : Safe (machine n A) P (fun _ _ => True) (pure b : AsyncFn B β) w :=
  fun _ _ _ => trivial

lemma safe_ofExcept_bind {r : Except VaultSyncError α} {f : α → AsyncFn B β}
    (hok : ∀ a, r = .ok a → Safe (machine n A) P Q (f a) w)
    (herr : ∀ err w', r = .error err → P.inv w' → P.rely w w' → Q (.error err) w') :
    Safe (machine n A) P Q (Prog.ofExcept r >>= f) w := by
  cases r with
  | ok a => exact hok a rfl
  | error err => exact fun w' hi hr => herr err w' rfl hi hr

lemma safe_read {g : Client B → α} {f : α → AsyncFn B β}
    (h : ∀ w', P.inv w' → P.rely w w' → Safe (machine n A) P Q (f (g w'.client)) w') :
    Safe (machine n A) P Q (AsyncFn.read g >>= f) w :=
  fun w' hi hr => ⟨hi, P.guar_refl w', h w' hi hr⟩

lemma safe_update {g : Client B → α × Client B} {f : α → AsyncFn B β}
    (h : ∀ w', P.inv w' → P.rely w w' →
      SafeStep (machine n A) P Q (f (g w'.client).1) w' (w'.setClient (g w'.client).2)) :
    Safe (machine n A) P Q (AsyncFn.update g >>= f) w := h

variable {f : Unit → AsyncFn B β} {g : Client B → Client B} {op : Call B} {e : Env B} {w' : World B}
  {a : α} {k : Key} {b : B} {seq : ℕ} {ns : String}

lemma safe_modify_bind
    (h : ∀ w', P.inv w' → P.rely w w' →
      SafeStep (machine n A) P Q (f ()) w' (w'.setClient (g w'.client))) :
    Safe (machine n A) P Q (AsyncFn.modify g >>= f) w := h

lemma safe_modify {Q : Except VaultSyncError Unit → World B → Prop}
    (h : ∀ w', P.inv w' → P.rely w w' →
      P.inv (w'.setClient (g w'.client)) ∧ P.guar w' (w'.setClient (g w'.client)) ∧
        ∀ w'', P.inv w'' → P.rely (w'.setClient (g w'.client)) w'' → Q (.ok ()) w'') :
    Safe (machine n A) P Q (AsyncFn.modify g) w := h

lemma safe_call {k : op.Ans → AsyncFn B β} (h : ∀ w' e, P.inv w' → P.rely w w' → A op e w' →
      SafeStep (machine n A) P Q (k (handle n op e w').1) w' (handle n op e w').2) :
    Safe (machine n A) P Q (.call op k) w :=
  fun w' hi hr e he => h w' e hi hr he

lemma safe_query {k : op.Ans → AsyncFn B β} (hsame : ∀ e w, (handle n op e w).2 = w)
    (h : ∀ w' e, P.inv w' → P.rely w w' → A op e w' →
      Safe (machine n A) P Q (k (handle n op e w').1) w') :
    Safe (machine n A) P Q (.call op k) w := by
  intro w' hi hr e he
  simp only [machine]
  rw [hsame e w']
  exact ⟨hi, P.guar_refl w', h w' e hi hr he⟩

lemma safe_hashOrder {keys : List Key} {f : List Key → AsyncFn B β}
    (h : ∀ w' e, P.inv w' → P.rely w w' → A (.hashOrder keys) e w' →
      Safe (machine n A) P Q (f (e.keyOrder keys).1) w') :
    Safe (machine n A) P Q (hashOrder keys >>= f) w :=
  safe_query (fun _ _ => rfl) h

lemma safe_onStorage {st : InMemoryStorage B} {k : α → AsyncFn B β} (hi : P.inv w')
    (herr : ∀ err, e.storageFault = some err → ∀ w'', P.inv w'' → P.rely w' w'' →
      Q (.error err) w'')
    (hok : e.storageFault = none → SafeStep (machine n A) P Q (k a) w' (w'.setStorage st)) :
    SafeStep (machine n A) P Q (Prog.ofExcept (onStorage e w' a st).1 >>= k) w'
      (onStorage e w' a st).2 := by
  unfold onStorage
  cases he : e.storageFault with
  | none => exact hok he
  | some err => exact ⟨hi, P.guar_refl w', herr err he⟩

section

variable (herr : ∀ err w', P.inv w' → P.rely w w' → Q (.error err) w')

include herr

lemma safe_getDocument {f : Option B → AsyncFn B β}
    (hok : ∀ w' e, P.inv w' → P.rely w w' → A (.getDocument k) e w' →
      SafeStep (machine n A) P Q (f (w'.storage.documents k)) w' (w'.recordRead n k)) :
    Safe (machine n A) P Q (getDocument k >>= f) w := by
  refine safe_call fun w' e hi hr he => ?_
  simp only [handle]
  cases e.storageFault with
  | none => exact hok w' e hi hr he
  | some err => exact ⟨hi, P.guar_refl w', fun u hu hru => herr err u hu (P.rely_trans hr hru)⟩

lemma safe_setCursor {caller : String}
    (hok : ∀ w' e, P.inv w' → P.rely w w' → A (.setCursor seq caller) e w' →
      SafeStep (machine n A) P Q (f ()) w' (w'.setStoreCursor seq)) :
    Safe (machine n A) P Q (setCursor seq caller >>= f) w := by
  refine safe_call fun w' e hi hr he => ?_
  simp only [handle, onCursor]
  cases e.cursorFault with
  | none => exact hok w' e hi hr he
  | some err => exact ⟨hi, P.guar_refl w', fun w'' hi'' hr'' => herr err w'' hi'' (P.rely_trans hr hr'')⟩

end

lemma safe_push {ms : List (EncryptedMutation B)}
    {f : Except CoordinatorError (List ℕ) → AsyncFn B β}
    (h : ∀ w' e, P.inv w' → P.rely w w' → A (.push ns ms) e w' →
      (P.inv (w'.setLog (w'.service.log.push ns ms).2) ∧
        P.guar w' (w'.setLog (w'.service.log.push ns ms).2)) ∧
      Safe (machine n A) P Q (f (.ok (w'.service.log.push ns ms).1))
        (w'.setLog (w'.service.log.push ns ms).2))
    (herr : ∀ err w', P.inv w' → Safe (machine n A) P Q (f (.error err)) w') :
    Safe (machine n A) P Q (push ns ms >>= f) w := by
  refine safe_call fun w' e hi hr he => ?_
  obtain ⟨hlog, hok⟩ := h w' e hi hr he
  simp only [handle, onCoordinator]
  cases e.coordinatorFault with
  | none => exact ⟨hlog.1, hlog.2, hok⟩
  | some err =>
    dsimp only
    split_ifs
    · exact ⟨hlog.1, hlog.2, herr err _ hlog.1⟩
    · exact ⟨hi, P.guar_refl w', herr err w' hi⟩

lemma safe_onCoordinator_query {k : Except CoordinatorError α → AsyncFn B β} (hi : P.inv w')
    (hok : Safe (machine n A) P Q (k (.ok a)) w')
    (herr : ∀ err, Safe (machine n A) P Q (k (.error err)) w') :
    SafeStep (machine n A) P Q (k (onCoordinator e w' a w'.service.log).1) w'
      (onCoordinator e w' a w'.service.log).2 := by
  have hsame : (onCoordinator e w' a w'.service.log).2 = w' := by
    unfold onCoordinator
    cases e.coordinatorFault with
    | none => rfl
    | some err => exact ite_id w'
  rw [hsame]
  refine ⟨hi, P.guar_refl w', ?_⟩
  unfold onCoordinator
  cases e.coordinatorFault with
  | none => exact hok
  | some err => exact herr err

lemma safe_pull {after limit : ℕ}
    {f : Except CoordinatorError (List (PendingMutation B)) → AsyncFn B β}
    (hok : ∀ w', P.inv w' → P.rely w w' →
      Safe (machine n A) P Q (f (.ok (w'.service.log.pull ns after limit))) w')
    (herr : ∀ err w', P.inv w' → P.rely w w' → Safe (machine n A) P Q (f (.error err)) w') :
    Safe (machine n A) P Q (pull ns after limit >>= f) w := by
  refine safe_call fun w' e hi hr _ => ?_
  exact safe_onCoordinator_query hi (hok w' hi hr) fun err => herr err w' hi hr

lemma safe_listSnapshots {f : Except CoordinatorError (List (Snapshot B)) → AsyncFn B β}
    (hok : ∀ w' e, P.inv w' → P.rely w w' → A (.listSnapshots ns) e w' →
      Safe (machine n A) P Q (f (.ok (e.snapshotOrder (w'.service.log.listSnapshots ns)).1)) w')
    (herr : ∀ err w', P.inv w' → P.rely w w' → Safe (machine n A) P Q (f (.error err)) w') :
    Safe (machine n A) P Q (listSnapshots ns >>= f) w := by
  refine safe_call fun w' e hi hr he => ?_
  exact safe_onCoordinator_query hi (hok w' e hi hr he) fun err => herr err w' hi hr

lemma safe_generationId {f : String → AsyncFn B β}
    (h : ∀ w', P.inv w' → P.rely w w' → Safe (machine n A) P Q (f w'.service.generationId) w') :
    Safe (machine n A) P Q (generationId >>= f) w :=
  safe_query (fun _ _ => rfl) fun w' _ hi hr _ => h w' hi hr

/-! ## The download cursor -/

lemma safe_loadLastSequence {f : ℕ → AsyncFn B β}
    (h : ∀ w' e, P.inv w' → P.rely w w' → A .loadLastSequence e w' →
      Safe (machine n A) P Q (f w'.lastSequence) w') :
    Safe (machine n A) P Q (loadLastSequence >>= f) w :=
  safe_query (fun _ _ => rfl) h

end VaultSync
