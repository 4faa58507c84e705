import Mathlib.Data.List.Sort
import VaultSync.Async.Along
import VaultSync.Coordinator.Types

/-! The resource manager: the tier each page is in, and the pages that can be evicted. Each call
holds the lock on the pages. Scores are whatever the scorer computes at the time of the call. -/

namespace VaultSync

open Async

inductive MemoryTier where
  | residentActive
  | residentHot
  | recoverableWarm
  | recoverableCold
  | archived
  deriving DecidableEq

def MemoryTier.rank : MemoryTier → ℕ
  | residentActive => 0
  | residentHot => 1
  | recoverableWarm => 2
  | recoverableCold => 3
  | archived => 4

def tierFromScore (score : Float) : MemoryTier :=
  if 10.0 ≤ score then .residentActive
  else if 1.0 ≤ score then .residentHot
  else if 0.3 ≤ score then .recoverableWarm
  else if 0.1 ≤ score then .recoverableCold
  else .archived

structure PageContext where
  workingSetId : Option String
  pinned : Bool

structure PageAccessInfo where
  key : Key
  sizeBytes : ℕ
  lastAccessMs : ℕ
  accessCountLastHour : ℕ
  tier : MemoryTier
  pinned : Bool
  workingSetId : Option String

namespace PageAccessInfo

variable (info : PageAccessInfo)

def tierBudgetKey : MemoryTier := if info.pinned then .residentActive else info.tier

/-- The counter is of 32 bits and stays at its largest value. -/
def accessed (nowMs : ℕ) (ctx : PageContext) : PageAccessInfo :=
  let tier := if ctx.pinned then .residentActive else info.tier
  { info with
    accessCountLastHour := if nowMs - info.lastAccessMs < 3600000 then
      min (info.accessCountLastHour + 1) 4294967295 else 1
    lastAccessMs := nowMs
    pinned := ctx.pinned || info.pinned
    workingSetId := ctx.workingSetId.or info.workingSetId
    tier := if tier = .recoverableCold ∨ tier = .archived then .residentHot else tier }

def swept (score : Float) : PageAccessInfo :=
  let target := tierFromScore score
  if info.pinned then info
  else if info.tier.rank < target.rank ∨ target.rank < info.tier.rank then
    { info with tier := target }
  else info

def Settled : Prop := info.pinned → info.tier = .residentActive ∨ info.tier = .residentHot

end PageAccessInfo

structure ResourceManager where
  pages : Key → Option PageAccessInfo

namespace ResourceManager

def new : ResourceManager := ⟨fun _ => none⟩

section functions

variable (m : ResourceManager) (k : Key)

def put (page : Option PageAccessInfo) : ResourceManager := ⟨Function.update m.pages k page⟩

def modify (f : PageAccessInfo → PageAccessInfo) : ResourceManager := m.put k ((m.pages k).map f)

def recordAccessWithContext (sizeBytes nowMs : ℕ) (ctx : PageContext) : ResourceManager :=
  m.put k <| match m.pages k with
    | some info => some (info.accessed nowMs ctx)
    | none => some ⟨k, sizeBytes, nowMs, 1, if ctx.pinned then .residentActive else .residentHot,
        ctx.pinned, ctx.workingSetId⟩

def removePage : ResourceManager := m.put k none

def setPinned (pinned : Bool) : ResourceManager :=
  m.modify k fun info =>
    { info with pinned := pinned, tier := if pinned then .residentActive else info.tier }

def promoteToResident : ResourceManager :=
  m.modify k fun info => { info with tier := .residentHot }

def demoteToRecoverable : ResourceManager :=
  m.modify k fun info =>
    if info.tier = .residentHot then { info with tier := .recoverableWarm } else info

/-- Without the statistics that `sweep` returns. -/
def sweep (score : PageAccessInfo → Float) : ResourceManager :=
  ⟨fun k => (m.pages k).map fun info => info.swept (score info)⟩

/-- The pages of the tier, lowest score first. The map is iterated in the given order. -/
def candidates (order : List Key) (score : PageAccessInfo → Float) (tier : MemoryTier) :
    List (Key × Float) :=
  (order.filterMap fun k => (m.pages k).bind fun info =>
    if info.tierBudgetKey = tier ∧ ¬ info.pinned then some (k, score info) else none).insertionSort
      fun a b => ¬ b.2 < a.2

def select (targetBytes : ℕ) : ℕ → List (Key × Float) → List (Key × Float)
  | _, [] => []
  | freed, c :: rest =>
    if targetBytes ≤ freed then []
    else match m.pages c.1 with
      | some info => c :: select targetBytes ((freed + info.sizeBytes) % UInt64.size) rest
      | none => select targetBytes freed rest

def evictionCandidates (order : List Key) (score : PageAccessInfo → Float) (tier : MemoryTier)
    (targetBytes : ℕ) : List (Key × Float) :=
  m.select targetBytes 0 (m.candidates order score tier)

end functions

inductive Call where
  | recordAccessWithContext (k : Key) (sizeBytes nowMs : ℕ) (ctx : PageContext)
  | removePage (k : Key)
  | setPinned (k : Key) (pinned : Bool)
  | promoteToResident (k : Key)
  | demoteToRecoverable (k : Key)
  | sweep (score : PageAccessInfo → Float)

variable (m : ResourceManager)

def step : Call → ResourceManager
  | .recordAccessWithContext k sizeBytes nowMs ctx =>
    m.recordAccessWithContext k sizeBytes nowMs ctx
  | .removePage k => m.removePage k
  | .setPinned k pinned => m.setPinned k pinned
  | .promoteToResident k => m.promoteToResident k
  | .demoteToRecoverable k => m.demoteToRecoverable k
  | .sweep score => m.sweep score

def PinnedResident : Prop := ∀ k, ∀ info ∈ m.pages k, info.Settled

/-- No page is demoted that is pinned and hot. -/
def Ok : Call → Prop
  | .demoteToRecoverable k => ∀ info ∈ m.pages k, ¬ (info.pinned ∧ info.tier = .residentHot)
  | _ => True

variable {m : ResourceManager}

lemma PinnedResident.put_iff (h : m.PinnedResident) (k : Key) (page : Option PageAccessInfo) :
    (m.put k page).PinnedResident ↔ ∀ info ∈ page, info.Settled := by
  unfold put
  constructor
  · intro h' info hinfo
    exact h' k info (by simpa using hinfo)
  · intro hpage k' info hinfo
    by_cases hk : k' = k
    · subst hk
      exact hpage info (by simpa using hinfo)
    · exact h k' info (by simpa [hk] using hinfo)

lemma PinnedResident.modify_iff (h : m.PinnedResident) (k : Key)
    (f : PageAccessInfo → PageAccessInfo) :
    (m.modify k f).PinnedResident ↔ ∀ info ∈ m.pages k, (f info).Settled :=
  (h.put_iff k _).trans (by simp)

lemma PinnedResident.step_iff (h : m.PinnedResident) (c : Call) :
    (step m c).PinnedResident ↔ Ok m c := by
  cases c with
  | recordAccessWithContext k sizeBytes nowMs ctx =>
    refine iff_of_true ((h.put_iff k _).2 ?_) trivial
    cases hpage : m.pages k with
    | none => grind [PageAccessInfo.Settled]
    | some info =>
      have hinfo := h k info hpage
      grind [PageAccessInfo.Settled, PageAccessInfo.accessed]
  | removePage k => exact iff_of_true ((h.put_iff k none).2 (by simp)) trivial
  | setPinned k pinned =>
    refine iff_of_true ((h.modify_iff k _).2 fun info hinfo => ?_) trivial
    grind [PageAccessInfo.Settled]
  | promoteToResident k =>
    exact iff_of_true ((h.modify_iff k _).2 fun info hinfo _ => .inr rfl) trivial
  | demoteToRecoverable k =>
    refine (h.modify_iff k _).trans (forall₂_congr fun info hinfo => ?_)
    have hres := h k info hinfo
    grind [PageAccessInfo.Settled]
  | sweep score =>
    refine iff_of_true (fun k info hinfo => ?_) trivial
    obtain ⟨old, hold, rfl⟩ := Option.map_eq_some_iff.1 hinfo
    have hres := h k old hold
    grind [PageAccessInfo.Settled, PageAccessInfo.swept]

lemma mem_of_mem_select {targetBytes freed : ℕ} {l : List (Key × Float)} {c : Key × Float}
    (h : c ∈ m.select targetBytes freed l) : c ∈ l := by
  induction l generalizing freed with
  | nil => exact h
  | cons a rest ih =>
    unfold select at h
    grind

lemma not_pinned_of_mem_candidates {order : List Key} {score : PageAccessInfo → Float}
    {tier : MemoryTier} {c : Key × Float} (h : c ∈ m.candidates order score tier) :
    ∀ info ∈ m.pages c.1, ¬ info.pinned := by
  unfold candidates at h
  rw [List.mem_insertionSort, List.mem_filterMap] at h
  obtain ⟨k, -, hk⟩ := h
  obtain ⟨old, hold, hif⟩ := Option.bind_eq_some_iff.1 hk
  intro info hinfo
  grind

/-- **Pinned pages.** Pinned pages are resident in every state of a run exactly if no call demotes
one that is hot; and no page that is pinned can be evicted. -/
theorem pinned_resident_iff (calls : List Call) :
    (Throughout step PinnedResident new calls ↔ Admitted step Ok new calls) ∧
    ∀ (m : ResourceManager) order score tier targetBytes,
      ∀ c ∈ m.evictionCandidates order score tier targetBytes,
        ∀ info ∈ m.pages c.1, ¬ info.pinned := by
  constructor
  · apply always_iff_admitted
    · exact fun c _ m h => h.step_iff c
    · intro k info hinfo
      cases hinfo
  · intro m order score tier targetBytes c hc
    exact not_pinned_of_mem_candidates (mem_of_mem_select hc)

/-- A page that is accessed as pinned, promoted and then demoted is pinned and not resident. -/
theorem pinned_page_demoted :
    let k : Key := ⟨"d", "r"⟩
    let m := ((new.recordAccessWithContext k 1 0 ⟨none, true⟩).promoteToResident
      k).demoteToRecoverable k
    (m.pages k).map (fun info => (info.pinned, info.tier)) = some (true, .recoverableWarm) := rfl

end ResourceManager

end VaultSync
