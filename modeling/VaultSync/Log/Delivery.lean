import Mathlib.Data.Finset.Max
import VaultSync.Log.Feed

/-! When a listener of a broadcast log receives all of it: no message overtakes a smaller one of
its topic, and what its queue drops is read again. -/

namespace Feed

open List

variable {σ ρ α : Type}

/-- What completeness needs of the store, whose topic has the numbers `nums`: a reading gives
those above its start, and a request adds only larger ones, each of which it broadcasts. -/
structure Laws (S : Source σ ρ α) (nums : σ → Set ℕ) (pushOk : σ → ρ → Prop)
    (readOk : σ → ℕ → Prop) : Prop where
  read : ∀ {c n}, readOk c n → ∀ q, q ∈ (S.read c n).map S.seq ↔ q ∈ nums c ∧ n < q
  kept : ∀ {c r}, nums c ⊆ nums (S.push c r).2
  new : ∀ {c r q}, q ∈ nums (S.push c r).2 → q ∈ nums c ∨
    (∀ n ∈ nums c, n < q) ∧ ∃ m ∈ (S.push c r).1, S.mine m ∧ S.seq m = q
  stored : ∀ {c r}, pushOk c r → ∀ m ∈ (S.push c r).1, S.mine m → S.seq m ∈ nums (S.push c r).2

/-- Every number above `h` is on its way, and no message of the queue comes before a smaller
one. -/
structure Covered (S : Source σ ρ α) (T : Set ℕ) (h : ℕ) (queue waiting : List α) : Prop where
  pending : ∀ n ∈ T, h < n → ∃ m ∈ queue ++ waiting, S.mine m ∧ S.seq m = n
  noGap : ∀ pre m post, queue = pre ++ m :: post → S.mine m → ∀ n ∈ T, h < n → n < S.seq m →
    ∃ m' ∈ pre, S.mine m' ∧ S.seq m' = n

namespace Covered

variable {S : Source σ ρ α} {T : Set ℕ} {h : ℕ} {queue waiting : List α}

lemma of_le (hle : ∀ n ∈ T, n ≤ h) : Covered S T h queue waiting where
  pending n hn hlt := absurd hlt (hle n hn).not_gt
  noGap _ _ _ _ _ n hn hlt := absurd hlt (hle n hn).not_gt

lemma push {T' : Set ℕ} {new : List α} (hc : Covered S T h queue waiting)
    (hnew : ∀ q ∈ T', q ∈ T ∨ (∀ n ∈ T, n < q) ∧ ∃ m ∈ new, S.mine m ∧ S.seq m = q)
    (hknown : ∀ m ∈ queue, S.mine m → S.seq m ∈ T) : Covered S T' h queue (waiting ++ new) where
  pending n hn hlt := by
    rcases hnew n hn with hT | ⟨-, m, hm, hmine⟩
    · obtain ⟨m, hm, hmine⟩ := hc.pending n hT hlt
      exact ⟨m, by rw [← append_assoc]; exact mem_append_left _ hm, hmine⟩
    · exact ⟨m, mem_append_right _ (mem_append_right _ hm), hmine⟩
  noGap pre m post hq hmine n hn hlt hltm := by
    rcases hnew n hn with hT | ⟨habove, -⟩
    · exact hc.noGap pre m post hq hmine n hT hlt hltm
    · -- a new number is above every number of the queue
      have hmT : S.seq m ∈ T := hknown m (by rw [hq]; simp) hmine
      exact absurd (habove _ hmT) hltm.not_gt

variable {m : α}

lemma send {waiting' : List α} (hc : Covered S T h queue waiting)
    (hwaiting : ∀ x ∈ waiting, x = m ∨ x ∈ waiting')
    (hfirst : S.mine m → ∀ x ∈ waiting, S.mine x → S.seq m ≤ S.seq x) :
    Covered S T h (queue ++ [m]) waiting' where
  pending n hn hlt := by
    obtain ⟨x, hx, hmine⟩ := hc.pending n hn hlt
    refine ⟨x, ?_, hmine⟩
    rcases mem_append.1 hx with hx | hx
    · simp [hx]
    · rcases hwaiting x hx with rfl | hx <;> simp_all
  noGap pre x post hq hmine n hn hlt hltx := by
    rcases eq_nil_or_concat post with rfl | ⟨post', y, rfl⟩
    · -- the message just sent: what is smaller and still on its way is in the queue
      obtain ⟨rfl, hx⟩ := append_inj' hq rfl
      obtain rfl : m = x := by simpa using hx
      obtain ⟨y, hy, hymine, rfl⟩ := hc.pending n hn hlt
      rcases mem_append.1 hy with hy | hy
      · exact ⟨y, hy, hymine, rfl⟩
      · exact absurd (hfirst hmine y hy hymine) hltx.not_ge
    · rw [concat_eq_append, ← cons_append, ← append_assoc] at hq
      exact hc.noGap pre x post' (append_inj' hq rfl).1 hmine n hn hlt hltx

lemma tail {h' : ℕ} {q : List α} (hc : Covered S T h (m :: q) waiting) (hle : h ≤ h')
    (hm : S.mine m → S.seq m ≤ h') : Covered S T h' q waiting where
  pending n hn hlt := by
    obtain ⟨x, hx, hmine, rfl⟩ := hc.pending n hn (hle.trans_lt hlt)
    rcases mem_cons.1 hx with rfl | hx
    · exact absurd (hm hmine) hlt.not_ge
    · exact ⟨x, hx, hmine, rfl⟩
  noGap pre x post hq hmine n hn hlt hltx := by
    obtain ⟨y, hy, hymine, rfl⟩ :=
      hc.noGap (m :: pre) x post (by rw [hq]; rfl) hmine n hn (hle.trans_lt hlt) hltx
    rcases mem_cons.1 hy with rfl | hy
    · exact absurd (hm hymine) hlt.not_ge
    · exact ⟨y, hy, hymine, rfl⟩

end Covered

namespace State

/-- Once the task has read the store: it holds the numbers up to some `h`, and those above are
covered unless the queue has dropped messages. -/
def Awaits (S : Source σ ρ α) (T : Set ℕ) (start : ℕ) (s : State σ α) : Prop :=
  ∀ rest, s.remaining = some rest → ∃ h, s.lastSent ≤ h ∧ (h = start ∨ h ∈ T) ∧
    (∀ n, n ∈ rest.map S.seq ↔ n ∈ T ∧ s.lastSent < n ∧ n ≤ h) ∧
    (s.missed = 0 → Covered S T h s.queue s.unsent.flatten)

structure Tracks (S : Source σ ρ α) (nums : σ → Set ℕ) (start : ℕ) (s : State σ α) : Prop where
  start_le : start ≤ s.lastSent
  reached : s.lastSent = start ∨ s.lastSent ∈ nums s.store
  emitted : ∀ n, n ∈ s.emitted.map S.seq ↔ n ∈ nums s.store ∧ start < n ∧ n ≤ s.lastSent
  known : ∀ m ∈ s.inFlight, S.mine m → S.seq m ∈ nums s.store
  noLag : S.rereads = false → s.missed = 0
  awaits : s.Awaits S (nums s.store) start

section Complete

variable {S : Source σ ρ α} {nums : σ → Set ℕ} {pushOk : σ → ρ → Prop} {readOk : σ → ℕ → Prop}
  {start : ℕ} {s : State σ α}

lemma tracks_init (c : σ) : (init c start : State σ α).Tracks S nums start where
  start_le := le_rfl
  reached := .inl rfl
  emitted n := by
    simp only [init, map_nil, not_mem_nil, false_iff]
    omega
  known := by simp [init, inFlight]
  noLag _ := rfl
  awaits := by simp [Awaits, remaining, init]

lemma mem_of_le (laws : Laws S nums pushOk readOk) {c : σ} {r : ρ} {h a n : ℕ}
    (hh : h = start ∨ h ∈ nums c) (hn : n ∈ nums (S.push c r).2) (hle : n ≤ h) (ha : start ≤ a)
    (hlt : a < n) : n ∈ nums c := by
  rcases laws.new hn with hmem | ⟨habove, -⟩
  · exact hmem
  · rcases hh with rfl | hh
    · omega
    · exact absurd (habove h hh) hle.not_gt

variable {m : α} {rest : List α}

lemma mem_flatten_of_next {i : ℕ} (hnext : s.next i = some (m, rest)) :
    m ∈ s.unsent.flatten ∧ (∀ x ∈ s.unsent.flatten, x = m ∨ x ∈ (s.unsent.set i rest).flatten) ∧
      (s.unsent.set i rest).flatten ⊆ s.unsent.flatten := by
  have hget : s.unsent[i]? = some (m :: rest) := by
    unfold next at hnext
    split at hnext
    · cases hnext
      assumption
    · cases hnext
  obtain ⟨hi, hget⟩ := List.getElem?_eq_some_iff.1 hget
  have hsplit : s.unsent = s.unsent.take i ++ (m :: rest) :: s.unsent.drop (i + 1) := by
    rw [← hget, getElem_cons_drop, take_append_drop]
  have hset : s.unsent.set i rest = s.unsent.take i ++ rest :: s.unsent.drop (i + 1) :=
    set_eq_take_append_cons_drop.trans (if_pos hi)
  have hflat : s.unsent.flatten =
      (s.unsent.take i).flatten ++ (m :: rest ++ (s.unsent.drop (i + 1)).flatten) := by
    conv_lhs => rw [hsplit, flatten_append, flatten_cons]
  rw [hset, hflat, flatten_append, flatten_cons]
  refine ⟨by simp, fun x hx => ?_, fun x hx => ?_⟩ <;>
    simp only [mem_append, mem_cons] at hx ⊢ <;> tauto

section

variable (laws : Laws S nums pushOk readOk) (h : s.Tracks S nums start) (hinc : s.Increasing S)

include h

lemma Tracks.send (i : ℕ) (hok : s.SendOk S i) : (s.step S (.send i)).Tracks S nums start := by
  rcases s.step_send_cases S i with ⟨-, heq⟩ | ⟨m, rest, hnext, heq⟩
  · rw [heq]
    exact h
  rw [heq]
  obtain ⟨hm, hwaiting, hsub⟩ := mem_flatten_of_next hnext
  obtain ⟨hroom, hfirst⟩ := hok _ hnext
  have hknown : ∀ x, x = m ∨ x ∈ s.queue ∨ x ∈ (s.unsent.set i rest).flatten →
      S.mine x → S.seq x ∈ nums s.store := by
    rintro x (rfl | hx | hx)
    · exact h.known x (mem_append_right _ hm)
    · exact h.known x (mem_append_left _ hx)
    · exact h.known x (mem_append_right _ (hsub hx))
  rcases enqueue_cases S { s with unsent := s.unsent.set i rest } m with
    ⟨htask, heq⟩ | ⟨-, heq⟩ | ⟨hfull, heq⟩ <;> rw [heq]
  · refine ⟨h.start_le, h.reached, h.emitted, fun x hx => ?_, h.noLag, fun l hl => ?_⟩
    · exact hknown x (.inr (mem_append.1 hx))
    · simp [remaining, show s.task = .unsubscribed from htask] at hl
  · refine ⟨h.start_le, h.reached, h.emitted, fun x hx => ?_, h.noLag, fun l hl => ?_⟩
    · simp only [inFlight, append_assoc, mem_append, mem_singleton] at hx
      exact hknown x (by tauto)
    · obtain ⟨b, hle, hb, hiff, hcov⟩ := h.awaits l hl
      exact ⟨b, hle, hb, hiff, fun hm => (hcov hm).send hwaiting hfirst⟩
  · -- the oldest message is dropped, and the listener will read the store again
    have hr : S.rereads = true := hroom.resolve_right hfull
    refine ⟨h.start_le, h.reached, h.emitted, fun x hx => ?_, by simp [hr], fun l hl => ?_⟩
    · simp only [inFlight, append_assoc, mem_append, mem_singleton] at hx
      have htail : x ∈ s.queue.tail → x ∈ s.queue := fun hx => mem_of_mem_tail hx
      exact hknown x (by tauto)
    · obtain ⟨b, hle, hb, hiff, -⟩ := h.awaits l hl
      exact ⟨b, hle, hb, hiff, fun hm => absurd hm (Nat.succ_ne_zero _)⟩

lemma Tracks.mem_emit (hm : S.seq m ∈ nums s.store) (hlt : s.lastSent < S.seq m)
    (hfirst : ∀ n ∈ nums s.store, s.lastSent < n → S.seq m ≤ n)
    (n : ℕ) : n ∈ (s.emit S m).emitted.map S.seq ↔
      n ∈ nums s.store ∧ start < n ∧ n ≤ (s.emit S m).lastSent := by
  simp only [emit, max_eq_right hlt.le, map_append, map_cons, map_nil,
    mem_append, mem_singleton, h.emitted n]
  constructor
  · rintro (⟨hn, hst, hnl⟩ | rfl)
    · exact ⟨hn, hst, hnl.trans hlt.le⟩
    · exact ⟨hm, h.start_le.trans_lt hlt, le_rfl⟩
  · rintro ⟨hn, hst, hnm⟩
    by_cases hnl : n ≤ s.lastSent
    · exact .inl ⟨hn, hst, hnl⟩
    · exact .inr (le_antisymm hnm (hfirst n hn (not_le.1 hnl)))

lemma Tracks.emit_next (hinc : s.Increasing S) (htask : s.task = .sending (m :: rest)) :
    ({ s with task := .sending rest }.emit S m).Tracks S nums start := by
  obtain ⟨b, hle, hb, hiff, hcov⟩ := h.awaits (m :: rest) (by simp [remaining, htask])
  obtain ⟨hmT, hlt, hmb⟩ := (hiff (S.seq m)).1 mem_cons_self
  have hrest : ∀ n ∈ rest.map S.seq, S.seq m < n := by
    have hs := hinc.sorted
    simp only [scheduled, remaining, htask, Option.getD_some, map_append,
      pairwise_append, map_cons, pairwise_cons] at hs
    exact hs.2.1.1
  have hmax : max s.lastSent (S.seq m) = S.seq m := max_eq_right hlt.le
  have hfirst : ∀ n ∈ nums s.store, s.lastSent < n → S.seq m ≤ n := by
    intro n hn hltn
    by_cases hnb : n ≤ b
    · rcases mem_cons.1 ((hiff n).2 ⟨hn, hltn, hnb⟩) with rfl | hmem
      · exact le_rfl
      · exact (hrest n hmem).le
    · exact hmb.trans (not_le.1 hnb).le
  refine ⟨?_, ?_, h.mem_emit hmT hlt hfirst, h.known, h.noLag, fun l hl => ?_⟩
  · exact h.start_le.trans (le_max_left _ _)
  · exact .inr (by simpa only [emit, hmax] using hmT)
  · obtain rfl : rest = l := by simpa [remaining, emit] using hl
    refine ⟨b, max_le hle hmb, hb, fun n => ?_, hcov⟩
    simp only [emit, hmax]
    constructor
    · intro hn
      obtain ⟨hnT, -, hnb⟩ := (hiff n).1 (mem_cons_of_mem _ hn)
      exact ⟨hnT, hrest n hn, hnb⟩
    · rintro ⟨hn, hmn, hnb⟩
      have hmem := (hiff n).2 ⟨hn, hlt.trans hmn, hnb⟩
      exact (mem_cons.1 hmem).resolve_left hmn.ne'

lemma Tracks.receive (htask : s.task = .listening) : (s.receive S).Tracks S nums start := by
  obtain ⟨b, hle, hb, hiff, hcov⟩ := h.awaits [] (by simp [remaining, htask])
  -- nothing of the topic lies between the cursor and `b`
  have hnone : ∀ n ∈ nums s.store, s.lastSent < n → b < n := by
    intro n hn hlt
    by_contra hnb
    exact absurd ((hiff n).2 ⟨hn, hlt, not_lt.1 hnb⟩) not_mem_nil
  rcases s.receive_cases S with
    ⟨-, -, heq⟩ | ⟨hmissed, m, q, hq, ⟨hmine, hlt⟩, heq⟩ | ⟨hmissed, m, q, hq, hskip, heq⟩ |
    ⟨hmissed, heq⟩ <;> rw [heq]
  · exact h
  · have hcov := hcov hmissed
    rw [hq] at hcov
    have hmT : S.seq m ∈ nums s.store := h.known m (by simp [inFlight, hq]) hmine
    have hfirst : ∀ n ∈ nums s.store, s.lastSent < n → S.seq m ≤ n := by
      intro n hn hltn
      by_contra hnm
      obtain ⟨x, hx, -⟩ :=
        hcov.noGap [] m q rfl hmine n hn (hnone n hn hltn) (not_le.1 hnm)
      cases hx
    have hmax : max s.lastSent (S.seq m) = S.seq m := max_eq_right hlt.le
    refine ⟨?_, ?_, h.mem_emit hmT hlt hfirst, fun x hx => ?_, h.noLag, fun l hl => ?_⟩
    · exact h.start_le.trans (le_max_left _ _)
    · exact .inr (by simpa only [emit, hmax] using hmT)
    · exact h.known x (by
        simp only [inFlight, emit, mem_append, hq, mem_cons] at hx ⊢
        tauto)
    · obtain rfl : [] = l := by simpa [remaining, emit, htask] using hl
      refine ⟨S.seq m, by simp [emit, hmax], .inr hmT, fun n => ?_, fun _ => ?_⟩
      · simp only [emit, hmax, map_nil, not_mem_nil, false_iff]
        omega
      · exact hcov.tail (hnone _ hmT hlt).le fun _ => le_rfl
  · have hcov := hcov hmissed
    rw [hq] at hcov
    refine ⟨h.start_le, h.reached, h.emitted, fun x hx => ?_, h.noLag, fun l hl => ?_⟩
    · exact h.known x (by
        simp only [inFlight, mem_append, hq, mem_cons] at hx ⊢
        tauto)
    · obtain rfl : [] = l := by simpa [remaining, htask] using hl
      refine ⟨b, hle, hb, hiff, fun _ => hcov.tail le_rfl fun hmine => ?_⟩
      exact (not_lt.1 fun hlt => hskip ⟨hmine, hlt⟩).trans hle
  · cases hr : S.rereads with
    | false => exact absurd (h.noLag hr) hmissed
    | true =>
      refine ⟨h.start_le, h.reached, h.emitted, h.known, fun _ => rfl, fun l hl => ?_⟩
      simp [remaining] at hl

lemma Tracks.mem_emitted_of_drained (hd : s.Drained) (n : ℕ) :
    n ∈ s.emitted.map S.seq ↔ n ∈ nums s.store ∧ start < n := by
  obtain ⟨htask, hmissed, hq, hun⟩ := hd
  obtain ⟨b, -, -, hiff, hcov⟩ := h.awaits [] (by simp [remaining, htask])
  refine (h.emitted n).trans ⟨fun hn => ⟨hn.1, hn.2.1⟩, fun hn => ⟨hn.1, hn.2, ?_⟩⟩
  by_contra hlt
  have hnb : b < n := by
    by_contra hnb
    exact absurd ((hiff n).2 ⟨hn.1, not_le.1 hlt, not_lt.1 hnb⟩) not_mem_nil
  obtain ⟨m, hm, -⟩ := (hcov hmissed).pending n hn.1 hnb
  rw [hq, nil_append, mem_flatten] at hm
  obtain ⟨l, hl, hm⟩ := hm
  rw [hun l hl] at hm
  cases hm

include laws

lemma Tracks.push (r : ρ) (hok : pushOk s.store r) : (s.step S (.push r)).Tracks S nums start where
  start_le := h.start_le
  reached := h.reached.imp_right fun hm => laws.kept hm
  emitted n := by
    refine (h.emitted n).trans ⟨And.imp_left fun hn => laws.kept hn, fun hn => ?_⟩
    exact ⟨mem_of_le laws h.reached hn.1 hn.2.2 le_rfl hn.2.1, hn.2⟩
  known m hm hmine := by
    simp only [State.step, inFlight, flatten_append, flatten_cons, flatten_nil,
      append_nil, ← append_assoc] at hm
    rcases mem_append.1 hm with hm | hm
    · exact laws.kept (h.known m hm hmine)
    · exact laws.stored hok m hm hmine
  noLag := h.noLag
  awaits rest hrest := by
    obtain ⟨b, hle, hb, hiff, hcov⟩ := h.awaits rest hrest
    refine ⟨b, hle, hb.imp_right fun hm => laws.kept hm, fun n => ?_, fun hm => ?_⟩
    · refine (hiff n).trans ⟨And.imp_left fun hn => laws.kept hn, fun hn => ?_⟩
      exact ⟨mem_of_le laws hb hn.1 hn.2.2 h.start_le hn.2.1, hn.2⟩
    · have hpush : Covered S (nums (S.push s.store r).2) b s.queue
          (s.unsent.flatten ++ (S.push s.store r).1) :=
        (hcov hm).push (fun q => laws.new) fun m hm => h.known m (mem_append_left _ hm)
      simpa [State.step] using hpush

lemma Tracks.read (hok : readOk s.store s.lastSent) :
    { s with task := .sending (S.read s.store s.lastSent) : State σ α }.Tracks S nums start where
  start_le := h.start_le
  reached := h.reached
  emitted := h.emitted
  known := h.known
  noLag := h.noLag
  awaits rest hrest := by
    obtain rfl : S.read s.store s.lastSent = rest := by simpa [remaining] using hrest
    set l := (S.read s.store s.lastSent).map S.seq with hl
    have hmem := laws.read hok
    obtain ⟨b, hb, hmax⟩ := (s.lastSent :: l).toFinset.exists_max_image id ⟨s.lastSent, by simp⟩
    simp only [mem_toFinset, id] at hb hmax
    have hnums : ∀ n ∈ nums s.store, n ≤ b := by
      intro n hn
      by_cases hlt : s.lastSent < n
      · exact hmax n (mem_cons_of_mem _ ((hmem n).2 ⟨hn, hlt⟩))
      · exact (not_lt.1 hlt).trans (hmax _ mem_cons_self)
    refine ⟨b, hmax _ mem_cons_self, ?_, fun n => ?_, fun _ => .of_le hnums⟩
    · rcases mem_cons.1 hb with rfl | hb
      · exact h.reached
      · exact .inr ((hmem b).1 hb).1
    · exact (hmem n).trans ⟨fun hn => ⟨hn.1, hn.2, hnums n hn.1⟩, fun hn => ⟨hn.1, hn.2.1⟩⟩

include hinc

lemma Tracks.resume (hok : s.Ok S pushOk readOk .task) : (s.resume S).Tracks S nums start := by
  unfold State.resume
  cases htask : s.task with
  | unsubscribed =>
    exact ⟨h.start_le, h.reached, h.emitted, h.known, h.noLag, by simp [Awaits, remaining]⟩
  | starting | querying => exact h.read laws (hok (by rw [htask]))
  | sending l =>
    cases l with
    | nil =>
      refine ⟨h.start_le, h.reached, h.emitted, h.known, h.noLag, fun l hl => ?_⟩
      exact h.awaits l (by simpa [remaining, htask] using hl)
    | cons m rest => exact h.emit_next hinc htask
  | listening => exact h.receive htask

lemma Tracks.step (e : Event ρ) (hok : s.Ok S pushOk readOk e) :
    (s.step S e).Tracks S nums start := by
  cases e with
  | push r => exact h.push laws r hok
  | send i => exact h.send i hok
  | task => exact h.resume laws hinc hok

end

lemma Tracks.run (hread : ∀ c n, ((S.read c n).map S.seq).Pairwise (· < ·))
    (hgt : S.rereads → ∀ c n, ∀ m ∈ S.read c n, n < S.seq m) (laws : Laws S nums pushOk readOk)
    (h : s.Tracks S nums start) (hinc : s.Increasing S) (events : List (Event ρ))
    (hok : s.Guarded S (Ok S pushOk readOk) events) : (s.run S events).Tracks S nums start := by
  induction events generalizing s with
  | nil => exact h
  | cons e es ih => exact ih (h.step laws hinc e hok.1) (hinc.step hread hgt e) hok.2

lemma emitted_eq_of_drained (hread : ∀ c n, ((S.read c n).map S.seq).Pairwise (· < ·))
    (hgt : S.rereads → ∀ c n, ∀ m ∈ S.read c n, n < S.seq m) (laws : Laws S nums pushOk readOk)
    (c : σ) (events : List (Event ρ)) (hok : (init c start).Guarded S (Ok S pushOk readOk) events)
    (hd : ((init c start).run S events).Drained) {l : List ℕ} (hl : l.Pairwise (· < ·))
    (hmem : ∀ n, n ∈ l ↔ n ∈ nums ((init c start).run S events).store) :
    ((init c start).run S events).emitted.map S.seq = l.filter (start < ·) := by
  have hsorted := (increasing_init c start).emitted_run hread hgt events
  have htracks := (tracks_init c).run hread hgt laws (increasing_init c start) events hok
  refine hsorted.eq_of_mem_iff (hl.filter _) fun n => ?_
  rw [htracks.mem_emitted_of_drained hd, mem_filter, hmem, decide_eq_true_eq]

end Complete

end State

end Feed
