import Mathlib.Algebra.Group.Nat.Defs
import Mathlib.Data.Multiset.AddSub

/-! The runtime scheduler of a tab: a heap of which only the top is looked at. -/

namespace VaultSync

namespace RuntimeScheduler

inductive TaskType where
  | broadcast | upload | heartbeat | download | prefetch | snapshot | garbageCollect | compaction
  | idlePrefetch
  deriving DecidableEq

def TaskType.priority : TaskType → ℕ
  | broadcast => 0
  | upload => 1
  | heartbeat | download => 2
  | prefetch | snapshot => 3
  | garbageCollect => 4
  | compaction => 5
  | idlePrefetch => 6

structure Task where
  taskType : TaskType
  name : String
  deadlineMs : Option ℕ
  budgetMs : Option ℕ
  deriving DecidableEq

structure ScheduledItem where
  task : Task
  scheduledAt : ℕ
  effectivePriority : ℕ
  deriving DecidableEq

/-- The heap is a max-heap. -/
def ScheduledItem.cmp (a b : ScheduledItem) : Ordering :=
  (compare b.effectivePriority a.effectivePriority).then (compare a.scheduledAt b.scheduledAt)

end RuntimeScheduler

structure RuntimeScheduler where
  queue : Multiset RuntimeScheduler.ScheduledItem
  currentTask : Option RuntimeScheduler.TaskType

namespace RuntimeScheduler

def new : RuntimeScheduler := ⟨0, none⟩

variable (s : RuntimeScheduler)

def schedule (task : Task) (now : ℕ) : RuntimeScheduler :=
  { s with queue := ⟨task, now, task.taskType.priority⟩ ::ₘ s.queue }

def scheduleAt (task : Task) (delayMs now : ℕ) : RuntimeScheduler :=
  { s with queue := ⟨task, (now + delayMs) % 2 ^ 64, task.taskType.priority⟩ ::ₘ s.queue }

/-- What `peek` may answer: any of the items that no other is greater than. -/
def Peeks (q : Multiset ScheduledItem) : Option ScheduledItem → Prop
  | none => q = 0
  | some top => top ∈ q ∧ ∀ i ∈ q, i.cmp top ≠ .gt

variable (now : ℕ)

def dequeue : Option ScheduledItem → Option Task × RuntimeScheduler
  | none => (none, s)
  | some top =>
    if now < top.scheduledAt then (none, s)
    else (some top.task, ⟨s.queue.erase top, some top.task.taskType⟩)

inductive Call where
  | schedule (task : Task) (now : ℕ)
  | scheduleAt (task : Task) (delayMs now : ℕ)
  | dequeue (now : ℕ) (peeked : Option ScheduledItem)

def step : Call → RuntimeScheduler
  | .schedule task now => s.schedule task now
  | .scheduleAt task delayMs now => s.scheduleAt task delayMs now
  | .dequeue now peeked => (s.dequeue now peeked).2

def run (calls : List Call) : RuntimeScheduler := calls.foldl step new

section

variable (q : Multiset ScheduledItem)

/-- `item` is due, and no due item of `q` is of a better priority, or of the same and earlier. -/
def FirstDue (item : ScheduledItem) : Prop :=
  item ∈ q ∧ item.scheduledAt ≤ now ∧ ∀ i ∈ q, i.scheduledAt ≤ now →
    item.effectivePriority < i.effectivePriority ∨
      item.effectivePriority = i.effectivePriority ∧ item.scheduledAt ≤ i.scheduledAt

def PicksRight (s : RuntimeScheduler) : Option Task × RuntimeScheduler → Prop
  | (none, s') => s'.queue = s.queue ∧ ∀ i ∈ s.queue, now < i.scheduledAt
  | (some task, s') => ∃ i, FirstDue now s.queue i ∧ i.task = task ∧ s'.queue = s.queue.erase i

def Best (item : ScheduledItem) : Prop :=
  ∀ i ∈ q, item.effectivePriority ≤ i.effectivePriority

/-- Nothing is due, or all items of the best priority are, and since the same moment. -/
def Level : Prop :=
  (∀ i ∈ q, now < i.scheduledAt) ∨ ∀ i ∈ q, Best q i → i.scheduledAt ≤ now ∧
    ∀ j ∈ q, Best q j → j.scheduledAt = i.scheduledAt

end

lemma cmp_ne_gt_iff {a b : ScheduledItem} : a.cmp b ≠ .gt ↔
    b.effectivePriority < a.effectivePriority ∨
      b.effectivePriority = a.effectivePriority ∧ a.scheduledAt ≤ b.scheduledAt := by
  unfold ScheduledItem.cmp
  rcases lt_trichotomy b.effectivePriority a.effectivePriority with h | h | h
  · simp [compare_lt_iff_lt.2 h, h, Ordering.then]
  · simp [h, Ordering.then, compare_gt_iff_gt]
  · simp [compare_gt_iff_gt.2 h, h.not_gt, h.ne', Ordering.then]

lemma picksRight_iff {s : RuntimeScheduler} {now : ℕ} {peeked : Option ScheduledItem}
    (h : Peeks s.queue peeked) : PicksRight now s (s.dequeue now peeked) ↔ Level now s.queue := by
  cases peeked with
  | none =>
    have hnone : ∀ i ∈ s.queue, now < i.scheduledAt := by
      rw [show s.queue = 0 from h]
      exact fun i hi => absurd hi (Multiset.notMem_zero i)
    exact iff_of_true ⟨rfl, hnone⟩ (.inl hnone)
  | some top =>
    obtain ⟨htop, hmax⟩ := h
    simp only [cmp_ne_gt_iff] at hmax
    have hbest : Best s.queue top := by
      intro i hi
      have := hmax i hi
      omega
    have hlast : ∀ i ∈ s.queue, Best s.queue i → i.scheduledAt ≤ top.scheduledAt := by
      intro i hi hbest
      have := hmax i hi
      have := hbest top htop
      omega
    by_cases hdue : now < top.scheduledAt
    · rw [dequeue, if_pos hdue]
      refine ⟨fun h => .inl h.2, ?_⟩
      rintro (hnone | hall)
      · exact ⟨rfl, hnone⟩
      · exact absurd (hall top htop hbest).1 (not_le.2 hdue)
    rw [dequeue, if_neg hdue]
    constructor
    · rintro ⟨i, ⟨hi, -, hfirst⟩, -, herase⟩
      obtain rfl : i = top := by
        rw [← Multiset.cons_inj_left (s.queue.erase i), Multiset.cons_erase hi, ← herase,
          Multiset.cons_erase htop]
      have hdues : ∀ j ∈ s.queue, Best s.queue j → j.scheduledAt ≤ now :=
        fun j hj hbest => (hlast j hj hbest).trans (not_lt.1 hdue)
      have hsame : ∀ j ∈ s.queue, Best s.queue j → j.scheduledAt = i.scheduledAt := by
        intro j hj hbestj
        have := hfirst j hj (hdues j hj hbestj)
        have := hbestj i htop
        have := hlast j hj hbestj
        omega
      exact .inr fun j hj hbestj => ⟨hdues j hj hbestj, fun k hk hbestk =>
        (hsame k hk hbestk).trans (hsame j hj hbestj).symm⟩
    · rintro (hnone | hall)
      · exact absurd (hnone top htop) hdue
      · refine ⟨top, ⟨htop, not_lt.1 hdue, fun i hi _ => ?_⟩, rfl, rfl⟩
        refine (hbest i hi).lt_or_eq.imp_right fun heq => ⟨heq, ?_⟩
        exact ((hall top htop hbest).2 i hi fun j hj => heq ▸ hbest j hj).ge

/-- **Runtime scheduler.** After any calls a dequeue picks the right task exactly when nothing is
due, or the items of the best priority are all due since the same moment. -/
theorem dequeue_right_iff (calls : List Call) (now : ℕ) (peeked : Option ScheduledItem)
    (h : Peeks (run calls).queue peeked) :
    PicksRight now (run calls) ((run calls).dequeue now peeked) ↔ Level now (run calls).queue :=
  picksRight_iff h

def upload : Task := ⟨.upload, "upload", none, none⟩

def gc : Task := ⟨.garbageCollect, "gc", none, none⟩

theorem dequeue_right_level : PicksRight 9 (run [.schedule gc 1, .scheduleAt upload 5 2])
    ((run [.schedule gc 1, .scheduleAt upload 5 2]).dequeue 9 (some ⟨upload, 7, 1⟩)) :=
  (dequeue_right_iff _ 9 _ (by unfold Peeks; decide)).2 (by unfold Level Best; decide)

def early : RuntimeScheduler := run [.schedule gc 1, .scheduleAt upload 50 2]

def twice : RuntimeScheduler := run [.schedule upload 1, .schedule upload 2]

/-- An upload that is not due hides a task that is, and of two uploads the later is picked. -/
theorem due_task_not_picked :
    (Peeks early.queue (some ⟨upload, 52, 1⟩) ∧
      ¬ PicksRight 9 early (early.dequeue 9 (some ⟨upload, 52, 1⟩))) ∧
    Peeks twice.queue (some ⟨upload, 2, 1⟩) ∧
      ¬ PicksRight 9 twice (twice.dequeue 9 (some ⟨upload, 2, 1⟩)) := by
  have hearly : Peeks early.queue (some ⟨upload, 52, 1⟩) := by unfold Peeks; decide
  have htwice : Peeks twice.queue (some ⟨upload, 2, 1⟩) := by unfold Peeks; decide
  rw [picksRight_iff hearly, picksRight_iff htwice]
  unfold Level Best
  exact ⟨⟨hearly, by decide⟩, htwice, by decide⟩

end RuntimeScheduler

end VaultSync
