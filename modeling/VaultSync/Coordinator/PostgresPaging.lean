import VaultSync.Coordinator.Postgres

/-! What a reader of the Postgres coordinator receives. -/

namespace VaultSync.PostgresCoordinator

open Async PagedLog SQLiteCoordinator Slots

variable {B : Type} {ns : String} {start : ℕ} {w w' : PgWorld B} {db : Postgres B}

/-! ## The server -/

lemma pending_sequence (ns : String) (i : ℕ) (m : EncryptedMutation B) :
    (Postgres.pending ns i m).sequence = i := rfl

lemma query_eq_ok {after limit : ℕ} {ms : List (PendingMutation B)} (hafter : after < 2 ^ 63)
    (h : db.query ns after limit = .ok ms) :
    ms = page PendingMutation.sequence (db.mutations ns) after limit := by
  unfold Postgres.query at h
  split_ifs at h with hneg
  rw [asI64_of_lt hafter] at h
  cases h
  unfold page PagedLog.after
  simp only [Int.ofNat_lt]

/-- What a statement of push `n` can do: nothing that shows, a commit, or a notification. -/
inductive Handled (n : ℕ) (op : PgStatement B) (w : PgWorld B) : PgWorld B → Prop
  | unseen {db : Postgres B} : Slots.Evolves w.db.slots db.slots →
      (∀ ns, db.mutations ns ⊆ w.db.mutations ns) → Handled n op w { w with db := db }
  | commit : Handled n op w { w with
      db := w.db.commit n, unnotified := w.db.topics n ++ w.unnotified }
  | notify (ns : String) : op = .notify ns → Handled n op w (w.notify ns)

lemma Handled.refl {n : ℕ} {op : PgStatement B} : Handled n op w w :=
  .unseen (.refl _) fun _ _ hm => hm

lemma handled (n : ℕ) (op : PgStatement B) (e : Connection String) (w : PgWorld B) :
    Handled n op w (w.handle n op e).2 := by
  have hrollback : Handled n op w { w with db := w.db.rollback n } :=
    .unseen (evolves_discard w.db.slots n) fun _ _ => mem_shown_of_discard
  cases op with
  | nextval ns =>
    refine Connection.reply_holds (p := fun db => Handled n _ w { w with db := db }) .refl ?_
    unfold Postgres.nextval
    split_ifs
    · exact .unseen (evolves_draw w.db.slots n ns) fun _ _ => mem_shown_of_draw
    · exact .refl
  | insert seq m =>
    refine Connection.reply_holds (p := fun db => Handled n _ w { w with db := db }) .refl ?_
    dsimp only
    unfold Postgres.insert
    split_ifs
    · exact .refl
    · exact .unseen (evolves_fill w.db.slots n seq m) fun _ _ => mem_shown_of_fill
  | selectSequence id =>
    refine Connection.reply_holds .refl ?_
    cases w.db.find n id with
    | none | some seq => exact .refl
  | commit => exact Connection.reply_holds hrollback .commit
  | rollback => exact hrollback
  | notify ns => exact Connection.reply_holds .refl (.notify ns rfl)

structure Beside (w w' : PgWorld B) : Prop where
  slots : Slots.Evolves w.db.slots w'.db.slots
  received : w'.received = w.received
  answered : w'.answered = w.answered

lemma Handled.beside {n : ℕ} {op : PgStatement B} (h : Handled n op w w') : Beside w w' := by
  cases h with
  | unseen hevolves _ => exact ⟨hevolves, rfl, rfl⟩
  | commit => exact ⟨evolves_close w.db.slots n, rfl, rfl⟩
  | notify ns _ =>
    unfold PgWorld.notify
    dsimp only
    split_ifs
    · exact ⟨.refl _, rfl, rfl⟩
    · exact ⟨.refl _, rfl, rfl⟩

/-! ## A reader beside the pushes -/

/-- No open transaction of the namespace holds a value below a committed one that the reader has
still to read. -/
def Settled (ns : String) (start : ℕ) (w : PgWorld B) : Prop :=
  ∀ j ∈ held ns w.db.slots, ∀ m ∈ w.db.mutations ns,
    w.cursor start < m.sequence → m.sequence < j

/-- The reader may start from this value: it was drawn, and no open transaction of the namespace
holds one up to it. -/
def Fresh (ns : String) (start : ℕ) (db : Postgres B) : Prop :=
  start ≤ db.slots.length ∧ ∀ j ∈ held ns db.slots, start < j

def Caught (ns : String) (start : ℕ) (w : PgWorld B) : Prop :=
  Slots.Caught (Postgres.pending ns) PendingMutation.sequence ns start w.db.slots w.received

lemma Caught.new (h : Fresh ns start db) : Caught ns start (.new db) where
  received_eq := by
    refine (List.filter_eq_nil_iff.2 fun m hm => ?_).symm
    rw [decide_eq_true_eq, not_le]
    exact (mem_after.1 hm).2
  free := h.2
  le_length := h.1

section

variable (h : Caught ns start w)

include h

lemma Caught.beside (hb : Beside w w') : Caught ns start w' := by
  unfold Caught
  rw [hb.received]
  exact Slots.Caught.evolves (pending_sequence ns) h hb.slots

lemma Caught.cursor_lt : w.cursor start < 2 ^ 63 := by
  have hle : w.cursor start ≤ w.db.slots.length := h.le_length
  exact hle.trans_lt w.db.length_lt

lemma pull_cases (limit : ℕ) :
    w.pull ns start limit = w ∨
      w.pull ns start limit = { w with
        received := w.received ++ page PendingMutation.sequence (w.db.mutations ns)
          (w.cursor start) limit
        answered := if limit = 0 then w.answered else w.answered + 1 } := by
  unfold PgWorld.pull
  cases hq : w.db.query ns (w.cursor start) limit with
  | error msg => exact .inl rfl
  | ok ms =>
    rw [query_eq_ok h.cursor_lt hq]
    exact .inr rfl

end

structure Reads (ns : String) (start : ℕ) (w w' : PgWorld B) : Prop where
  db : w'.db = w.db
  caught : Caught ns start w'
  cursor : w.cursor start ≤ w'.cursor start

lemma reads_pull (h : Caught ns start w) (hs : Settled ns start w) (limit : ℕ) :
    Reads ns start w (w.pull ns start limit) := by
  rcases pull_cases h limit with heq | heq
  · rw [heq]
    exact ⟨rfl, h, le_rfl⟩
  · rw [heq]
    refine ⟨rfl, Slots.Caught.page (pending_sequence ns) h hs limit, ?_⟩
    unfold PgWorld.cursor
    rw [← cursor_append]
    exact cursor_le_page _ _

section runs

variable {room : PgStatement B → PgWorld B → Prop} {reader : PgWorld B → PgWorld B → Prop}
  {p q : Pool ⟨PgStatement B, PgStatement.Ans⟩ Unit CoordinatorError (PgWorld B)
    (ℕ × String × List (EncryptedMutation B)) (List ℕ)}

lemma invariant_of_pushes {inv : PgWorld B → Prop} (hb : ∀ w w', inv w → Beside w w' → inv w')
    (hr : ∀ w w', inv w → reader w w' → inv w') (hp : inv p.state)
    (hrun : (pushes room reader).Reachable p q) : inv q.state :=
  System.invariant_of_reachable hr (fun c op e w h _ => hb w _ h (handled c.1 op e w).beside)
    (fun _ _ _ h => h) hp hrun

variable (hreader : ∀ w w', Caught ns start w → reader w w' → Reads ns start w w')

include hreader

lemma caught_of_reachable (hp : Caught ns start p.state)
    (hrun : (pushes room reader).Reachable p q) : Caught ns start q.state :=
  invariant_of_pushes (fun _ _ h hb => h.beside hb) (fun w w' h hr => (hreader w w' h hr).caught)
    hp hrun

lemma upTo_cursor_of_reachable (hp : Caught ns start p.state)
    (hrun : (pushes room reader).Reachable p q) :
    (q.state.db.mutations ns).filter (·.sequence ≤ p.state.cursor start) =
      (p.state.db.mutations ns).filter (·.sequence ≤ p.state.cursor start) := by
  let inv (w : PgWorld B) : Prop := Caught ns start w ∧ p.state.cursor start ≤ w.cursor start ∧
    (w.db.mutations ns).filter (·.sequence ≤ p.state.cursor start) =
      (p.state.db.mutations ns).filter (·.sequence ≤ p.state.cursor start)
  have hinv : inv q.state := by
    refine invariant_of_pushes ?_ ?_ ⟨hp, le_rfl, rfl⟩ hrun
    · rintro w w' ⟨hcaught, hle, heq⟩ hb
      refine ⟨hcaught.beside hb, ?_, heq ▸ ?_⟩
      · unfold PgWorld.cursor at hle ⊢
        rwa [hb.received]
      · exact hb.slots.shown_upTo (pending_sequence ns) (hle.trans hcaught.le_length)
          fun j hj => hle.trans_lt (hcaught.free j hj)
    · rintro w w' ⟨hcaught, hle, heq⟩ hr
      obtain ⟨hdb, hcaught', hcursor⟩ := hreader w w' hcaught hr
      exact ⟨hcaught', hle.trans hcursor, hdb ▸ heq⟩
  exact hinv.2.2

omit hreader in
lemma received_of_answered {ok : PgWorld B → Prop} (hok : ∀ w, ok w → Settled ns start w)
    (hp : Caught ns start p.state) (hrun : (pushes room (Pulls ns start ok)).Reachable p q)
    {m : PendingMutation B} (hm : m ∈ p.state.db.mutations ns) (hstart : start < m.sequence)
    (hans : p.state.answered + m.sequence ≤ q.state.answered) : m ∈ q.state.received := by
  let inv (w : PgWorld B) : Prop := Caught ns start w ∧ m ∈ w.db.mutations ns ∧
    (m.sequence ≤ w.cursor start ∨ w.answered ≤ p.state.answered + w.cursor start)
  have hinv : inv q.state := by
    refine invariant_of_pushes ?_ ?_ ⟨hp, hm, .inr (Nat.le_add_right _ _)⟩ hrun
    · rintro w w' ⟨hcaught, hmem, hor⟩ hb
      refine ⟨hcaught.beside hb, hb.slots.mem_shown hmem, ?_⟩
      unfold PgWorld.cursor at hor ⊢
      rwa [hb.received, hb.answered]
    · rintro w w' ⟨hcaught, hmem, hor⟩ ⟨hw, limit, rfl⟩
      have hreads := reads_pull hcaught (hok w hw) limit
      refine ⟨hreads.caught, hreads.db ▸ hmem, ?_⟩
      rcases pull_cases hcaught limit with heq | heq
      · rwa [heq]
      · have hcursor := hreads.cursor
        rcases hor with hle | hle
        · exact .inl (hle.trans hcursor)
        · by_cases hlimit : limit = 0
          · right
            rw [heq] at hcursor ⊢
            simp only [hlimit, if_true] at hcursor ⊢
            omega
          · by_cases hpassed : m.sequence ≤ w.cursor start
            · exact .inl (hpassed.trans hcursor)
            · right
              have hlt : w.cursor start < (w.pull ns start limit).cursor start := by
                rw [heq]
                unfold PgWorld.cursor
                rw [← cursor_append]
                exact cursor_lt_cursor_page hmem (not_le.1 hpassed) hlimit
              have hanswered : (w.pull ns start limit).answered = w.answered + 1 := by
                rw [heq]
                exact if_neg hlimit
              omega
  obtain ⟨hcaught, hmem, hor⟩ := hinv
  have hle : m.sequence ≤ q.state.cursor start := by omega
  exact hcaught.mem hmem hstart hle

end runs

end VaultSync.PostgresCoordinator
