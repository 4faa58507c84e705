import Mathlib.Data.List.DropRight

/-! The compaction scheduler: cooldowns kept in a bounded history of executions. -/

namespace VaultSync.CompactionScheduler

open List

inductive PlanAction where
  | splitPage (pageId : UInt64)
  | mergeDeltas (baseId : UInt64) (deltaCount : ℕ)
  | garbageCollect (thresholdBytes : UInt64)
  | createSnapshot («namespace» : String)
  | flushManifest
  | evictPages (count : ℕ)
  deriving DecidableEq

structure PageMetrics where
  pageId : UInt64
  byteSize : ℕ
  entryCount : ℕ

inductive SchedulePriority where
  | critical | high | normal | low
  deriving DecidableEq

structure ScheduledAction where
  action : PlanAction
  priority : SchedulePriority
  deriving DecidableEq

def priorityFor (pages : List PageMetrics) : PlanAction → SchedulePriority
  | .splitPage pageId =>
    match pages.find? fun p => p.pageId = pageId with
    | some page =>
      if page.byteSize > 16000000 ∨ page.entryCount > 8192 then .critical
      else if page.byteSize > 8000000 ∨ page.entryCount > 4096 then .high
      else .normal
    | none => .normal
  | .garbageCollect _ | .flushManifest => .low
  | .mergeDeltas .. | .createSnapshot _ | .evictPages _ => .normal

def cooldownMs : PlanAction → UInt64
  | .splitPage _ | .evictPages _ => 5000
  | .mergeDeltas .. => 2000
  | .garbageCollect _ => 10000
  | .createSnapshot _ => 30000
  | .flushManifest => 500

def descriptor : PlanAction → String
  | .splitPage pageId => s!"split_{pageId}"
  | .mergeDeltas baseId _ => s!"merge_{baseId}"
  | .garbageCollect _ => "gc"
  | .createSnapshot ns => s!"snap_{ns}"
  | .flushManifest => "flush"
  | .evictPages _ => "evict"

structure SchedulerState where
  lastExecuted : List (String × UInt64)

variable (s : SchedulerState)

def isOnCooldown (a : PlanAction) (now : UInt64) : Bool :=
  s.lastExecuted.any fun (d, t) => d = descriptor a ∧ now - t < cooldownMs a

def recordExecution (a : PlanAction) (now : UInt64) : SchedulerState :=
  ⟨(s.lastExecuted ++ [(descriptor a, now)]).rtake 100⟩

def scheduled (pages : List PageMetrics) (a : PlanAction) : ScheduledAction :=
  ⟨a, priorityFor pages a⟩

def schedule (actions : List PlanAction) (pages : List PageMetrics)
    (now : UInt64) : List ScheduledAction :=
  ((actions.filter fun a => !isOnCooldown s a now).map (scheduled pages)).mergeSort
    fun a b => a.priority.ctorIdx ≤ b.priority.ctorIdx

inductive Call where
  | recordExecution (a : PlanAction) (now : UInt64)
  | schedule (actions : List PlanAction) (pages : List PageMetrics) (now : UInt64)

def Call.now : Call → UInt64
  | recordExecution _ now | schedule _ _ now => now

def step : Call → SchedulerState
  | .recordExecution a now => CompactionScheduler.recordExecution s a now
  | .schedule .. => s

def run (calls : List Call) : SchedulerState := calls.foldl step ⟨[]⟩

/-- All executions recorded, the latest last. -/
def executions (calls : List Call) : List (String × UInt64) :=
  calls.filterMap fun
    | .recordExecution a now => some (descriptor a, now)
    | .schedule .. => none

variable (history : List (String × UInt64))

def recent (now : UInt64) (a : PlanAction) : Bool :=
  history.any fun (d, t) => d = descriptor a ∧ now.toNat < t.toNat + (cooldownMs a).toNat

/-- The actions that were not executed recently, by priority. -/
def Respects (actions : List PlanAction) (pages : List PageMetrics) (now : UInt64)
    (out : List ScheduledAction) : Prop :=
  out.Perm ((actions.filter fun a => !recent history now a).map (scheduled pages)) ∧
    out.Pairwise fun a b => a.priority.ctorIdx ≤ b.priority.ctorIdx

variable {calls : List Call} {now : UInt64}

lemma rtake_concat (n : ℕ) (l : List (String × UInt64)) (x : String × UInt64) :
    (l.rtake n ++ [x]).rtake n = (l ++ [x]).rtake n := by
  cases n <;> simp [rtake_eq_reverse_take_reverse, take_take]

lemma run_lastExecuted (calls : List Call) :
    (run calls).lastExecuted = (executions calls).rtake 100 := by
  induction calls using List.reverseRecOn with
  | nil => rfl
  | append_singleton calls c ih =>
    have hrun : run (calls ++ [c]) = step (run calls) c := foldl_concat ..
    cases c with
    | schedule actions pages t => simpa [hrun, step, executions] using ih
    | recordExecution a t =>
      simp only [hrun, step, recordExecution, ih, rtake_concat]
      simp [executions]

lemma isOnCooldown_run (h : (calls.map Call.now ++ [now]).Pairwise (· ≤ ·)) (a : PlanAction) :
    isOnCooldown (run calls) a now = recent ((executions calls).rtake 100) now a := by
  unfold isOnCooldown recent
  rw [run_lastExecuted, Bool.eq_iff_iff, any_eq_true, any_eq_true]
  refine exists_congr fun p => and_congr_right fun hp => ?_
  have hle : p.2 ≤ now := by
    obtain ⟨c, hc, hcp⟩ := mem_filterMap.1 ((drop_suffix _ _).subset hp)
    have hcnow := (pairwise_append.1 h).2.2 _ (mem_map_of_mem hc) now mem_cons_self
    cases c with
    | schedule => cases hcp
    | recordExecution => cases hcp; exact hcnow
  simp only [decide_eq_true_eq, UInt64.lt_iff_toNat_lt, UInt64.toNat_sub_of_le _ _ hle]
  have := UInt64.le_iff_toNat_le.1 hle
  refine and_congr_right fun _ => ?_
  omega

/-- A call of `schedule` at the end of a run respects the cooldowns exactly if every given action
that was executed too recently is still among the last hundred executions. -/
theorem schedule_respects_iff (actions : List PlanAction) (pages : List PageMetrics)
    (h : (calls.map Call.now ++ [now]).Pairwise (· ≤ ·)) :
    Respects (executions calls) actions pages now (schedule (run calls) actions pages now) ↔
      ∀ a ∈ actions, recent (executions calls) now a →
        recent ((executions calls).rtake 100) now a := by
  simp only [schedule, isOnCooldown_run h]
  constructor
  · rintro ⟨hperm, -⟩ a ha hrec
    by_contra hwin
    have hout := hperm.subset (mem_mergeSort.2 (mem_map_of_mem (mem_filter.2 ⟨ha, by simp [hwin]⟩)))
    simp [scheduled, hrec] at hout
  · intro hwin
    have hsame : (actions.filter fun a => !recent ((executions calls).rtake 100) now a) =
        actions.filter fun a => !recent (executions calls) now a := by
      refine filter_congr fun a ha => congrArg _ (Bool.eq_iff_iff.2 ⟨fun hr => ?_, hwin a ha⟩)
      obtain ⟨p, hp, hp'⟩ := any_eq_true.1 hr
      exact any_eq_true.2 ⟨p, (drop_suffix _ _).subset hp, hp'⟩
    rw [hsame]
    refine ⟨mergeSort_perm _ _, (pairwise_mergeSort (fun a b c hab hbc => ?_) (fun a b => ?_) _).imp
      of_decide_eq_true⟩
    · exact decide_eq_true ((of_decide_eq_true hab).trans (of_decide_eq_true hbc))
    · simpa using Nat.le_total _ _

def flushed : List Call := [.recordExecution .flushManifest 1]

theorem schedule_respects_flushed : recent (executions flushed) 100 .flushManifest ∧
    Respects (executions flushed) [.flushManifest, .garbageCollect 0] [] 100
      (schedule (run flushed) [.flushManifest, .garbageCollect 0] [] 100) :=
  ⟨by decide, (schedule_respects_iff _ _ (by decide)).2 (by decide)⟩

def flushes : List Call :=
  .recordExecution (.createSnapshot "ns") 1 :: replicate 100 (.recordExecution .flushManifest 2)

/-- A hundred flushes push the snapshot out of the history. -/
theorem recent_snapshot_scheduled :
    (flushes.map Call.now ++ [3]).Pairwise (· ≤ ·) ∧
      recent (executions flushes) 3 (.createSnapshot "ns") ∧
      schedule (run flushes) [.createSnapshot "ns"] [] 3 = [⟨.createSnapshot "ns", .normal⟩] := by
  decide +kernel

end VaultSync.CompactionScheduler
