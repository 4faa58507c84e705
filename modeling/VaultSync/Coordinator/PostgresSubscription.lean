import VaultSync.Coordinator.PostgresPaging

/-! A subscription to the Postgres coordinator: it pulls when it is notified. -/

namespace VaultSync.PostgresCoordinator

open Async PagedLog SQLiteCoordinator PendingMutation PgWorld

variable {B : Type} {ns : String} {start : ℕ} {w : PgWorld B} {db : Postgres B}

/-! ## Notifications -/

def Room (op : PgStatement B) (w : PgWorld B) : Prop :=
  match op with
  | .notify _ => w.queue.length < 1024
  | _ => True

def Reliable (ns : String) (start : ℕ) (fault : Option String) (w : PgWorld B) : Prop :=
  fault = none ∧ Settled ns start w

def Drained (ns : String) (w : PgWorld B) : Prop :=
  ns ∉ w.unnotified ∧ ns ∉ w.queue ∧ w.task = .listening

structure Awaited (ns : String) (start : ℕ) (w : PgWorld B) : Prop where
  caught : Caught ns start w
  missed : w.missed = 0
  ahead : ∀ m ∈ w.db.mutations ns, w.cursor start < m.sequence →
    ns ∈ w.unnotified ∨ ns ∈ w.queue ∨ w.task = .pulling

lemma Awaited.handled {n : ℕ} {op : PgStatement B} {w' : PgWorld B} (h : Awaited ns start w)
    (hroom : Room op w) (hw : Handled n op w w') : Awaited ns start w' := by
  have hcaught := h.caught.beside hw.beside
  cases hw with
  | unseen _ hsub => exact ⟨hcaught, h.missed, fun m hm => h.ahead m (hsub ns hm)⟩
  | commit =>
    refine ⟨hcaught, h.missed, fun m hm hlt => ?_⟩
    rcases Slots.mem_shown_of_close hm with hm | ⟨s, hs, howner, htopic⟩
    · exact (h.ahead m hm hlt).imp_left fun hns => List.mem_append_right _ hns
    · refine .inl (List.mem_append_left _ (List.mem_map.2 ⟨s, ?_, htopic⟩))
      exact List.mem_filter.2 ⟨hs, decide_eq_true howner⟩
  | notify notified hop =>
    subst hop
    change w.queue.length < 1024 at hroom
    unfold PgWorld.notify
    rw [if_pos hroom]
    refine ⟨h.caught, h.missed, fun m hm hlt => ?_⟩
    by_cases hns : notified = ns
    · exact .inr (.inl (List.mem_append_right _ (hns ▸ List.mem_singleton_self _)))
    · rcases h.ahead m hm hlt with hun | hqueue | htask
      · exact .inl (List.mem_filter.2 ⟨hun, decide_eq_true fun heq => hns heq.symm⟩)
      · exact .inr (.inl (List.mem_append_left _ hqueue))
      · exact .inr (.inr htask)

lemma resume_pulling (h : Caught ns start w) (htask : w.task = .pulling) :
    w.resume ns start none = { w with
      received := w.received ++ page sequence (w.db.mutations ns)
        (w.cursor start) pullLimit
      answered := w.answered + 1
      task := if (page sequence (w.db.mutations ns) (w.cursor start)
        pullLimit).length < pullLimit then .listening else .pulling } := by
  have hquery : ∃ ms, w.db.query ns (w.cursor start) pullLimit = .ok ms := by
    unfold Postgres.query
    rw [if_neg (by decide)]
    exact ⟨_, rfl⟩
  obtain ⟨ms, hms⟩ := hquery
  have hpage := query_eq_ok h.cursor_lt hms
  unfold PgWorld.resume PgWorld.pull
  rw [htask, hms, hpage]
  rfl

lemma Awaited.resume_pulling (h : Awaited ns start w) (htask : w.task = .pulling)
    (hsettled : Settled ns start w) : Awaited ns start (w.resume ns start none) := by
  have hcaught : Caught ns start (w.resume ns start none) := by
    rw [PostgresCoordinator.resume_pulling h.caught htask]
    exact Slots.Caught.page (pending_sequence ns) h.caught hsettled pullLimit
  rw [PostgresCoordinator.resume_pulling h.caught htask] at hcaught ⊢
  refine ⟨hcaught, h.missed, fun m hm hlt => ?_⟩
  dsimp only
  split_ifs with hshort
  · -- the row was in the page, so the cursor has passed it
    have hmem : m ∈ page sequence (w.db.mutations ns) (w.cursor start)
        pullLimit := by
      unfold page at hshort ⊢
      rw [List.length_take] at hshort
      rw [List.take_of_length_le (by omega)]
      refine mem_after.2 ⟨hm, lt_of_le_of_lt ?_ hlt⟩
      unfold PgWorld.cursor
      rw [← cursor_append]
      exact cursor_le_page _ _
    exact absurd (hcaught.le_cursor (List.mem_append_right _ hmem)) (not_le.2 hlt)
  · exact .inr (.inr rfl)

lemma Awaited.resume_listening (h : Awaited ns start w) (htask : w.task = .listening)
    (fault : Option String) : Awaited ns start (w.resume ns start fault) := by
  unfold resume
  rw [htask]
  dsimp only
  rw [if_pos h.missed]
  cases hqueue : w.queue with
  | nil => exact h
  | cons notified queue =>
    refine ⟨h.caught, h.missed, fun m hm hlt => ?_⟩
    have hahead := h.ahead m hm hlt
    rw [hqueue, htask] at hahead
    dsimp only
    split_ifs with hns
    · exact .inr (.inr rfl)
    · rcases hahead with hun | hmem | hpulling
      · exact .inl hun
      · rcases List.mem_cons.1 hmem with heq | hmem
        · exact absurd heq.symm hns
        · exact .inr (.inl hmem)
      · cases hpulling

lemma reads_resume (h : Caught ns start w) {fault : Option String}
    (hok : w.task = .pulling → Settled ns start w) :
    Reads ns start w (w.resume ns start fault) := by
  have hstay : Reads ns start w w := ⟨rfl, h, le_rfl⟩
  unfold resume
  cases htask : w.task with
  | pulling =>
    have hreads := reads_pull h (hok htask) pullLimit
    dsimp only
    split
    · exact ⟨hreads.db, hreads.caught, hreads.cursor⟩
    · exact ⟨rfl, h, le_rfl⟩
  | listening =>
    dsimp only
    split_ifs
    · cases w.queue with
      | nil => exact hstay
      | cons notified queue => exact ⟨rfl, h, le_rfl⟩
    · exact ⟨rfl, h, le_rfl⟩

/-! ## Readers -/

/-- In every state reached, the reader has received the rows of the namespace up to its cursor, and
none is committed there later. -/
def NoneMissed (ns : String) (start : ℕ) (db : Postgres B)
    (reader : PgWorld B → PgWorld B → Prop) : Prop :=
  ∀ p, (pushes (fun _ _ => True) reader).Reachable ⟨[], .new db⟩ p →
    p.state.received = (p.state.db.mutations ns).filter
      (fun m => start < m.sequence ∧ m.sequence ≤ p.state.cursor start) ∧
    ∀ q, (pushes (fun _ _ => True) reader).Reachable p q →
      (q.state.db.mutations ns).filter (·.sequence ≤ p.state.cursor start) =
        (p.state.db.mutations ns).filter (·.sequence ≤ p.state.cursor start)

lemma Caught.received_eq_filter (h : Caught ns start w) :
    w.received = (w.db.mutations ns).filter
      (fun m => start < m.sequence ∧ m.sequence ≤ w.cursor start) := by
  refine h.received_eq.trans ?_
  unfold after PgWorld.cursor
  rw [List.filter_filter]
  refine List.filter_congr fun m _ => ?_
  rw [Bool.decide_and, Bool.and_comm]

lemma noneMissed_of_reads (hfresh : Fresh ns start db) {reader : PgWorld B → PgWorld B → Prop}
    (hreader : ∀ w w', Caught ns start w → reader w w' → Reads ns start w w') :
    NoneMissed ns start db reader := by
  intro p hp
  have hcaught := caught_of_reachable hreader (.new hfresh) hp
  exact ⟨hcaught.received_eq_filter, fun q hq => upTo_cursor_of_reachable hreader hcaught hq⟩

/-- **Paging.** A reader starts from a value up to which no transaction of the namespace is open,
and pulls only while no open transaction of the namespace holds a value below a committed one it
has still to read. Then in every run it misses nothing, and a committed row is received once the
reader has been answered as often as its sequence says. Nor does a subscription miss anything; if
moreover its queries succeed and its channel has room, then once it is drained it has delivered
every committed row of the namespace. -/
theorem noneMissed_of_settled (ns : String) (start : ℕ) (db : Postgres B)
    (hfresh : Fresh ns start db) :
    NoneMissed ns start db (Pulls ns start (Settled ns start)) ∧
    (∀ p q, (pushes (fun _ _ => True) (Pulls ns start (Settled ns start))).Reachable
        ⟨[], .new db⟩ p →
      (pushes (fun _ _ => True) (Pulls ns start (Settled ns start))).Reachable p q →
        ∀ m ∈ p.state.db.mutations ns, start < m.sequence →
          p.state.answered + m.sequence ≤ q.state.answered → m ∈ q.state.received) ∧
    NoneMissed ns start db (Subscribes ns start fun _ => Settled ns start) ∧
    ∀ q, (pushes Room (Subscribes ns start (Reliable ns start))).Reachable ⟨[], .new db⟩ q →
      Drained ns q.state →
        q.state.received = (q.state.db.mutations ns).filter (fun m => start < m.sequence) := by
  have hpulls : ∀ w w' : PgWorld B, Caught ns start w → Pulls ns start (Settled ns start) w w' →
      Reads ns start w w' := by
    rintro w _ hcaught ⟨hsettled, limit, rfl⟩
    exact reads_pull hcaught hsettled limit
  refine ⟨noneMissed_of_reads hfresh hpulls, ?_, noneMissed_of_reads hfresh ?_, ?_⟩
  · intro p q hp hq m hm hstart hans
    have hcaught := caught_of_reachable hpulls (.new hfresh) hp
    exact received_of_answered (fun _ h => h) hcaught hq hm hstart hans
  · rintro w _ hcaught ⟨fault, hok, rfl⟩
    exact reads_resume hcaught hok
  · intro q hq hdrained
    have hnew : Awaited ns start (.new db) := ⟨.new hfresh, rfl, fun _ _ _ => .inr (.inr rfl)⟩
    have hawaited : Awaited ns start q.state := by
      refine System.invariant_of_reachable ?_ ?_ (fun _ _ _ h => h) hnew hq
      · rintro w _ h ⟨fault, hok, rfl⟩
        cases htask : w.task with
        | pulling =>
          obtain ⟨rfl, hsettled⟩ := hok htask
          exact h.resume_pulling htask hsettled
        | listening => exact h.resume_listening htask fault
      · intro c op e w h hallow
        exact h.handled hallow.2 (handled c.1 op e w)
    refine hawaited.caught.complete fun m hm => ?_
    by_contra hlt
    rcases hawaited.ahead m hm (not_le.1 hlt) with hun | hqueue | htask
    · exact hdrained.1 hun
    · exact hdrained.2.1 hqueue
    · exact absurd (hdrained.2.2.symm.trans htask) (by decide)

/-! ## One push and two -/

def pushOne (n : ℕ) : ℕ × String × List (EncryptedMutation Unit) :=
  (n, "a", [⟨s!"m{n}", "a", "r", "d", "x", (), 0, 0, 1⟩])

def program (n : ℕ) : PgFn Unit (List ℕ) := push (pushOne n).2.1 (pushOne n).2.2

def statements (n k : ℕ) (t : PgFn Unit (List ℕ)) (w : PgWorld Unit) :
    PgFn Unit (List ℕ) × PgWorld Unit :=
  advance ((pushes (fun _ _ => True) fun _ _ => False).machine (pushOne n)) k t w

lemma room_of_lt (op : PgStatement B) (w : PgWorld B) (hw : w.queue.length < 1024) : Room op w := by
  cases op
  case notify => exact hw
  all_goals exact trivial

def listened (w : PgWorld Unit) : PgWorld Unit :=
  ((w.resume "a" 0 none).resume "a" 0 none).resume "a" 0 none

def alone : PgFn Unit (List ℕ) × PgWorld Unit := statements 0 4 (program 0) (.new .new)

def drawn : PgFn Unit (List ℕ) × PgWorld Unit := statements 0 1 (program 0) (.new .new)

def overtaken : PgFn Unit (List ℕ) × PgWorld Unit := statements 1 4 (program 1) drawn.2

section runs

variable {room : PgStatement Unit → PgWorld Unit → Prop} {reader : PgWorld Unit → PgWorld Unit → Prop}

lemma reachable_statements (n k : ℕ)
    (pre post : List ((ℕ × String × List (EncryptedMutation Unit)) × PgFn Unit (List ℕ)))
    (t : PgFn Unit (List ℕ)) (w : PgWorld Unit)
    (h : AllowedSteps ((pushes room reader).machine (pushOne n)) k t w) :
    (pushes room reader).Reachable ⟨pre ++ (pushOne n, t) :: post, w⟩
      ⟨pre ++ (pushOne n, (statements n k t w).1) :: post, (statements n k t w).2⟩ := by
  have hrun := System.reachable_advance_of_allowed k pre t post w h
  have hsame : advance ((pushes room reader).machine (pushOne n)) k t w = statements n k t w := by
    unfold statements
    apply advance_congr
    all_goals rfl
  rwa [hsame] at hrun

lemma reachable_alone (hroom : ∀ op w, w.queue.length < 1024 → room op w) :
    (pushes room reader).Reachable ⟨[], .new .new⟩ ⟨[(pushOne 0, alone.1)], alone.2⟩ := by
  have hallowed : AllowedSteps ((pushes room reader).machine (pushOne 0)) 4 (program 0)
      (.new .new) :=
    ⟨⟨trivial, hroom _ (.new .new) (by decide)⟩,
      ⟨.inr (by decide : ¬ (statements 0 1 (program 0) (.new .new)).2.db.Locked 0 "m0"),
        hroom _ (statements 0 1 (program 0) (.new .new)).2 (by decide)⟩,
      ⟨trivial, hroom _ (statements 0 2 (program 0) (.new .new)).2 (by decide)⟩,
      ⟨trivial, hroom _ (statements 0 3 (program 0) (.new .new)).2 (by decide)⟩, trivial⟩
  exact .head (.start (c := pushOne 0) List.not_mem_nil)
    (reachable_statements 0 4 [] [] _ _ hallowed)

lemma reachable_overtaken (hroom : ∀ op w, w.queue.length < 1024 → room op w) :
    (pushes room reader).Reachable ⟨[], .new .new⟩
    ⟨[(pushOne 1, overtaken.1), (pushOne 0, drawn.1)], overtaken.2⟩ := by
  have hfirst : (pushes room reader).Reachable ⟨[], .new .new⟩ ⟨[(pushOne 0, drawn.1)], drawn.2⟩ :=
    .head (.start (c := pushOne 0) List.not_mem_nil) (reachable_statements 0 1 [] [] _ _
      ⟨⟨trivial, hroom _ (.new .new) (by decide)⟩, trivial⟩)
  have hallowed : AllowedSteps ((pushes room reader).machine (pushOne 1)) 4 (program 1) drawn.2 :=
    ⟨⟨trivial, hroom _ drawn.2 (by decide)⟩,
      ⟨.inr (by decide : ¬ (statements 1 1 (program 1) drawn.2).2.db.Locked 1 "m1"),
        hroom _ (statements 1 1 (program 1) drawn.2).2 (by decide)⟩,
      ⟨trivial, hroom _ (statements 1 2 (program 1) drawn.2).2 (by decide)⟩,
      ⟨trivial, hroom _ (statements 1 3 (program 1) drawn.2).2 (by decide)⟩, trivial⟩
  exact hfirst.trans (.head (.start (c := pushOne 1) (by decide : 1 ∉ [0]))
    (reachable_statements 1 4 [] _ _ _ hallowed))

end runs

theorem noneMissed_alone :
    Fresh "a" 0 (.new : Postgres Unit) ∧
      NoneMissed "a" 0 (.new : Postgres Unit) (Pulls "a" 0 (Settled "a" 0)) ∧
      Drained "a" (listened alone.2) ∧
      (listened alone.2).received.map PendingMutation.sequence = [1] ∧
      (listened alone.2).received =
        ((listened alone.2).db.mutations "a").filter (fun m => 0 < m.sequence) := by
  have hfresh : Fresh "a" 0 (.new : Postgres Unit) := ⟨le_rfl, nofun⟩
  obtain ⟨hpulls, -, -, hsubscribes⟩ := noneMissed_of_settled "a" 0 (.new : Postgres Unit) hfresh
  have hheld : Slots.held "a" alone.2.db.slots = [] := by rfl
  have hok : ∀ w : PgWorld Unit, w.db = alone.2.db → Reliable "a" 0 none w := by
    intro w hw
    refine ⟨rfl, fun j hj => ?_⟩
    rw [hw, hheld] at hj
    cases hj
  have hread : Relation.ReflTransGen (Subscribes "a" 0 (Reliable "a" 0)) alone.2 (listened alone.2) :=
    .tail (.tail (.single ⟨none, fun _ => hok _ rfl, rfl⟩) ⟨none, fun _ => hok _ rfl, rfl⟩)
      ⟨none, fun _ => hok _ rfl, rfl⟩
  have hdrained : Drained "a" (listened alone.2) :=
    ⟨by decide +kernel, by decide +kernel, by decide +kernel⟩
  refine ⟨hfresh, hpulls, hdrained, by decide +kernel, ?_⟩
  exact hsubscribes _ ((reachable_alone room_of_lt).trans (System.reachable_of_env _ hread)) hdrained

def pulled : PgWorld Unit := overtaken.2.pull "a" 0 10

def late (w : PgWorld Unit) : PgFn Unit (List ℕ) × PgWorld Unit := statements 0 3 drawn.1 w

/-- Sequence 1 is drawn before sequence 2 and committed after it. A reader that pulls in between
has used 2 as its cursor by then, and a subscription never delivers 1. -/
theorem committed_below_cursor :
    ¬ NoneMissed "a" 0 (.new : Postgres Unit) (Pulls "a" 0 fun _ => True) ∧
    ∃ q, (pushes Room (Subscribes "a" 0 fun fault _ => fault = none)).Reachable
        ⟨[], .new (.new : Postgres Unit)⟩ q ∧
      (pushOne 0, .ret [1]) ∈ q.tasks ∧ (pushOne 1, .ret [2]) ∈ q.tasks ∧ Drained "a" q.state ∧
      (q.state.db.mutations "a").map PendingMutation.sequence = [1, 2] ∧
      q.state.received.map PendingMutation.sequence = [2] := by
  constructor
  · intro h
    let reader : PgWorld Unit → PgWorld Unit → Prop := Pulls "a" 0 fun _ => True
    have hread : Relation.ReflTransGen reader overtaken.2 pulled := .single ⟨trivial, 10, rfl⟩
    have hp : (pushes (fun _ _ => True) reader).Reachable ⟨[], .new .new⟩
        ⟨[(pushOne 1, overtaken.1), (pushOne 0, drawn.1)], pulled⟩ :=
      (reachable_overtaken fun _ _ _ => trivial).trans (System.reachable_of_env _ hread)
    have hq : (pushes (fun _ _ => True) reader).Reachable
        ⟨[(pushOne 1, overtaken.1), (pushOne 0, drawn.1)], pulled⟩
        ⟨[(pushOne 1, overtaken.1), (pushOne 0, (late pulled).1)], (late pulled).2⟩ :=
      reachable_statements 0 3 [(pushOne 1, overtaken.1)] [] _ _
        ⟨⟨.inr (by decide), trivial⟩, ⟨trivial, trivial⟩, ⟨trivial, trivial⟩, trivial⟩
    have hsame := congrArg (List.map PendingMutation.sequence) ((h _ hp).2 _ hq)
    revert hsame
    decide
  · let reader : PgWorld Unit → PgWorld Unit → Prop := Subscribes "a" 0 fun fault _ => fault = none
    have hread : ∀ w, Relation.ReflTransGen reader w (listened w) := fun w =>
      .tail (.tail (.single ⟨none, fun _ => rfl, rfl⟩) ⟨none, fun _ => rfl, rfl⟩)
        ⟨none, fun _ => rfl, rfl⟩
    have hp := (reachable_overtaken room_of_lt).trans (System.reachable_of_env _ (hread _))
    have hq : (pushes Room reader).Reachable
        ⟨[(pushOne 1, overtaken.1), (pushOne 0, drawn.1)], listened overtaken.2⟩
        ⟨[(pushOne 1, overtaken.1), (pushOne 0, (late (listened overtaken.2)).1)],
          (late (listened overtaken.2)).2⟩ :=
      reachable_statements 0 3 [(pushOne 1, overtaken.1)] [] _ _
        ⟨⟨.inr (by decide), trivial⟩, ⟨trivial, trivial⟩, ⟨trivial, room_of_lt (.notify "a")
          (statements 0 2 drawn.1 (listened overtaken.2)).2 (by decide)⟩, trivial⟩
    refine ⟨_, (hp.trans hq).trans (System.reachable_of_env _ (hread _)),
      List.mem_cons_of_mem _ List.mem_cons_self, List.mem_cons_self, ?_, ?_, ?_⟩
    · exact ⟨by decide +kernel, by decide +kernel, by decide +kernel⟩
    · decide +kernel
    · decide +kernel

end VaultSync.PostgresCoordinator
