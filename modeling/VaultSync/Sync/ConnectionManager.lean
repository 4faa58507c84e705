import VaultSync.Async.Along

/-! The connection manager: its states, and what its subscribers receive. -/

namespace VaultSync

open Async List

inductive ConnectionState where
  | offline
  | connecting
  | authenticating
  | registering
  | syncing
  | online
  | reconnecting (attempt : UInt8) (backoffMs : UInt64)
  | closing
  | closed
  deriving DecidableEq

/-- Those that a transition can make. -/
inductive ConnectionEvent where
  | opened
  | established
  | lost
  | reconnecting (attempt : UInt8) (backoffMs : UInt64)
  | reconnected
  deriving DecidableEq

structure ConnectionHealth where
  reconnects : ℕ
  lastConnectedAt : Option ℕ
  lastDisconnectedAt : Option ℕ
  consecutiveFailures : ℕ

/-- `sent` is what went to `event_tx`, whose receiver `new` returns. -/
structure ConnectionManager where
  state : ConnectionState
  health : ConnectionHealth
  sent : List ConnectionEvent

namespace ConnectionManager

def new : ConnectionManager := ⟨.offline, ⟨0, none, none, 0⟩, []⟩

/-- A `u64` and a `u8` are incremented. -/
def Counts (h : ConnectionHealth) (new : ConnectionState) : Prop :=
  new matches .reconnecting .. →
    h.reconnects + 1 < UInt64.size ∧ h.consecutiveFailures + 1 < UInt8.size

instance (h : ConnectionHealth) (new : ConnectionState) : Decidable (Counts h new) :=
  inferInstanceAs (Decidable (_ → _))

def recorded (h : ConnectionHealth) (now : ℕ) : ConnectionState → ConnectionHealth
  | .online => { h with lastConnectedAt := some now, consecutiveFailures := 0 }
  | .closed | .offline => { h with lastDisconnectedAt := some now }
  | .reconnecting .. =>
    { h with reconnects := h.reconnects + 1, consecutiveFailures := h.consecutiveFailures + 1 }
  | _ => h

def eventOf : ConnectionState → Option ConnectionEvent
  | .online => some .reconnected
  | .reconnecting attempt backoffMs => some (.reconnecting attempt backoffMs)
  | .connecting => some .opened
  | .closed => some .lost
  | .authenticating => some .established
  | _ => none

/-- Nothing if a counter overflows. -/
def transition (cm : ConnectionManager) (new : ConnectionState) (now : ℕ) :
    Option ((ConnectionState × Option ConnectionEvent) × ConnectionManager) :=
  if cm.state = new then some ((new, none), cm)
  else if Counts cm.health new then
    some ((cm.state, eventOf new),
      ⟨new, recorded cm.health now new, cm.sent ++ (eventOf new).toList⟩)
  else none

/-- What the receiver will deliver: its sender is dropped at once. -/
def subscribe (_ : ConnectionManager) : List ConnectionEvent := []

inductive Call where
  | subscribe
  | transition (new : ConnectionState) (now : ℕ)

/-- A manager with its receivers: what each delivers, and the events returned since `subscribe`
returned it. -/
structure Run where
  manager : ConnectionManager
  receivers : List (List ConnectionEvent × List ConnectionEvent)

def step : Option Run → Call → Option Run
  | none, _ => none
  | some r, .subscribe => some { r with receivers := r.receivers ++ [(r.manager.subscribe, [])] }
  | some r, .transition new now => (r.manager.transition new now).map fun a =>
      ⟨a.2, r.receivers.map fun q => (q.1, q.2 ++ a.1.2.toList)⟩

def Delivers : Option Run → Prop
  | none => False
  | some r => ∀ q ∈ r.receivers, q.1 = q.2

/-- A change of state overflows no counter, and makes no event once there is a subscriber. -/
def Unheard : Option Run → Call → Prop
  | some r, .transition new _ => r.manager.state ≠ new →
      Counts r.manager.health new ∧ (r.receivers = [] ∨ eventOf new = none)
  | _, _ => True

lemma delivers_transition {r : Run} (h : Delivers (some r)) (new : ConnectionState) (now : ℕ) :
    Delivers (step (some r) (.transition new now)) ↔ Unheard (some r) (.transition new now) := by
  unfold step transition Unheard
  dsimp only
  by_cases hsame : r.manager.state = new
  · simpa [hsame, Delivers] using h
  rw [if_neg hsame, imp_iff_right hsame]
  split_ifs with hcounts
  · rw [and_iff_right hcounts]
    have hdue : ∀ q ∈ r.receivers, q.1 = q.2 ++ (eventOf new).toList ↔ eventOf new = none := by
      intro q hq
      cases eventOf new <;> simp [h q hq]
    refine forall_mem_map.trans ⟨fun hall => ?_, ?_⟩
    · cases hr : r.receivers with
      | nil => exact .inl rfl
      | cons q qs =>
        have hq : q ∈ r.receivers := hr ▸ mem_cons_self
        exact .inr ((hdue q hq).1 (hall q hq))
    · rintro (hnil | hnone) q hq
      · exact absurd (hnil ▸ hq) not_mem_nil
      · exact (hdue q hq).2 hnone
  · exact iff_of_false id fun hok => hcounts hok.1

/-- **Connection events.** Nothing overflows and every receiver delivers the events that were
returned since, exactly if no call overflows a counter or returns an event once there is a
subscriber. -/
theorem delivers_iff_unheard (calls : List Call) :
    Throughout step Delivers (some ⟨new, []⟩) calls ↔
      Admitted step Unheard (some ⟨new, []⟩) calls := by
  apply always_iff_admitted
  · rintro c - (_ | r) h
    · cases h
    cases c with
    | subscribe =>
      refine iff_of_true (forall_mem_append.2 ⟨h, ?_⟩) trivial
      rw [forall_mem_singleton]
      rfl
    | transition new now => exact delivers_transition h new now
  · exact nofun

/-- The event reaches no subscriber; and the 256th attempt to reconnect overflows. -/
theorem event_lost :
    ([.subscribe, .transition .connecting 0].foldl step (some ⟨new, []⟩)).map Run.receivers =
      some [([], [.opened])] ∧
    (((range 256).map fun n => .transition (.reconnecting n.toUInt8 0) 0).foldl step
      (some ⟨new, []⟩)).isNone := by
  decide +kernel

end ConnectionManager

end VaultSync
