import VaultSync.Coordinator.Memory
import VaultSync.Coordinator.Sqlite

/-! A reader that pulls a namespace page by page while any namespaces are pushed to. -/

namespace VaultSync

open PagedLog List PendingMutation InMemoryCoordinator

variable {B : Type}

abbrev PushRequest (B : Type) := String × List (EncryptedMutation B)

structure SQLitePush (B : Type) where
  auto : SQLiteCoordinator.AutoIncrement
  fault : Option String
  request : PushRequest B

variable (c : InMemoryCoordinator B) (ns : String)

def InMemoryCoordinator.readerRun (start : ℕ)
    (events : List (Event (PushRequest B))) : Reader (InMemoryCoordinator B) (PendingMutation B) :=
  Reader.run PendingMutation.sequence (fun c p => (c.push p.1 p.2).2)
    (fun c after limit => (.ok (c.pull ns after limit) : Except CoordinatorError _)) start c events

def SQLiteCoordinator.readerRun (c : SQLiteCoordinator B) (ns : String) (start : ℕ)
    (events : List (Event (SQLitePush B))) : Reader (SQLiteCoordinator B) (PendingMutation B) :=
  Reader.run PendingMutation.sequence
    (fun c p => (c.push p.auto p.fault p.request.1 p.request.2).2)
    (fun c after limit => c.pull ns after limit) start c events

lemma InMemoryCoordinator.received_readerRun (start : ℕ) (events : List (Event (PushRequest B)))
    (hstart : start + 1 < 2 ^ 64) (hseq : (c.readerRun ns start events).log.nextSeq < 2 ^ 64) :
    (c.readerRun ns start events).received <+:
      after sequence ((c.readerRun ns start events).log.mutations ns) start := by
  refine Reader.run_received (fun c => c.mutations ns) (fun c => c.nextSeq < 2 ^ 64)
    (fun c => c.mutations_pairwise ns) (fun c p => (c.ops_push p.1 p.2).filter _)
    (fun c p h => (c.extends_push p.1 p.2).nextSeq.trans_lt h) ?_ c events hseq
  intro c a limit ms hc ha hms
  -- the cursor is the start or a stored sequence, so adding one to it does not wrap
  have hlt : a + 1 < 2 ^ 64 := by
    rcases ha with rfl | ⟨m, hm, rfl⟩
    · exact hstart
    · have := c.seq_lt m (mem_mutations.1 hm).1
      omega
  cases hms
  exact pull_eq_page limit hlt

lemma SQLiteCoordinator.received_readerRun (c : SQLiteCoordinator B) (ns : String)
    (start : ℕ) (events : List (Event (SQLitePush B))) :
    (c.readerRun ns start events).received <+:
      after sequence ((c.readerRun ns start events).log.mutations ns) start := by
  refine Reader.run_received (fun c => c.mutations ns) (fun _ => True)
    (fun c => c.mutations_pairwise ns)
    (fun c p => ((c.rows_push p.auto p.fault p.request.1 p.request.2).filter _).map _)
    (fun _ _ _ => trivial) (fun c a limit ms _ _ hms => pull_ok hms) c events trivial

lemma InMemoryCoordinator.after_zero : after sequence (c.mutations ns) 0 = c.mutations ns :=
  filter_eq_self.2 fun m hm => by simpa using c.seq_pos m (mem_mutations.1 hm).1

lemma SQLiteCoordinator.after_zero (c : SQLiteCoordinator B) (ns : String) :
    after sequence (c.mutations ns) 0 = c.mutations ns := by
  refine filter_eq_self.2 fun m hm => ?_
  obtain ⟨r, hr, rfl⟩ := mem_map.1 hm
  exact decide_eq_true (c.seq_pos r (mem_of_mem_filter hr))

/-- **Paging completeness.** At every moment of every run, what the reader has received from
the in-memory coordinator, or from SQLite, is a prefix of the namespace's mutations after its
start, in strictly increasing sequence order. -/
theorem received_prefix_of_mutations (ns : String) (start : ℕ) (hstart : start + 1 < 2 ^ 64) :
    (∀ (c : InMemoryCoordinator B) (events : List (Event (PushRequest B))),
      let r := c.readerRun ns start events
      r.log.nextSeq < 2 ^ 64 →
        r.received <+: (r.log.mutations ns).filter (fun m => start < m.sequence) ∧
        (start = 0 → r.received <+: r.log.mutations ns) ∧
        r.received.Pairwise fun a b => a.sequence < b.sequence) ∧
    (∀ (c : SQLiteCoordinator B) (events : List (Event (SQLitePush B))),
      let r := c.readerRun ns start events
      r.received <+: (r.log.mutations ns).filter (fun m => start < m.sequence) ∧
        (start = 0 → r.received <+: r.log.mutations ns) ∧
        r.received.Pairwise fun a b => a.sequence < b.sequence) := by
  constructor
  · intro c events r hseq
    have hr := c.received_readerRun ns start events hstart hseq
    refine ⟨hr, ?_, (after_pairwise (r.log.mutations_pairwise ns)).sublist hr.sublist⟩
    rintro rfl
    rwa [r.log.after_zero ns] at hr
  · intro c events r
    have hr := c.received_readerRun ns start events
    refine ⟨hr, ?_, (after_pairwise (r.log.mutations_pairwise ns)).sublist hr.sublist⟩
    rintro rfl
    rwa [r.log.after_zero ns] at hr

def twoPages : List (Event (PushRequest Unit)) :=
  let m (id : String) : EncryptedMutation Unit := ⟨id, "", "r", "d", "x", (), 0, 0, 1⟩
  [.append ("a", [m "1"]), .read 1, .append ("b", [m "2"]), .append ("a", [m "1", m "3"]), .read 7]

theorem received_twoPages :
    let r := (new (B := Unit)).readerRun "a" 0 twoPages
    r.received.map PendingMutation.sequence = [1, 3] ∧ r.received <+: r.log.mutations "a" :=
  ⟨by decide,
    ((received_prefix_of_mutations (B := Unit) "a" 0 (by decide)).1 .new twoPages (by decide)).2.1
      rfl⟩

end VaultSync
