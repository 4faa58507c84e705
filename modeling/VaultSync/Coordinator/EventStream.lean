import VaultSync.Bytes.Drain
import VaultSync.Coordinator.Types

/-! The event stream that `HttpCoordinator::subscribe` falls back to: one connection of its loop,
while the receiver of the subscription stays open. -/

namespace VaultSync.HttpCoordinator.EventStream

open Bytes

variable {B ε : Type}

structure Feed (B : Type) where
  after : ℕ
  sent : List (PendingMutation B)

def isWhitespace (c : Char) : Bool :=
  c.toNat ∈ [0x20, 0x85, 0xA0, 0x1680, 0x2028, 0x2029, 0x202F, 0x205F, 0x3000] ∨
    0x09 ≤ c.toNat ∧ c.toNat ≤ 0x0D ∨ 0x2000 ≤ c.toNat ∧ c.toNat ≤ 0x200A

def trim (s : List Char) : List Char :=
  ((s.dropWhile isWhitespace).reverse.dropWhile isWhitespace).reverse

variable (fromStr : String → Option (PendingMutation B))

/-- A line that is not UTF-8, no data, or not a mutation is passed over. -/
def handleLine (feed : Feed B) (lineBytes : List UInt8) : Feed B :=
  match String.fromUTF8? lineBytes.toByteArray with
  | none => feed
  | some text =>
    let line := trim text.toList
    if "data:".toList.isPrefixOf line then
      match fromStr (String.ofList (trim (line.drop "data:".length))) with
      | some mutation => ⟨max feed.after mutation.sequence, feed.sent ++ [mutation]⟩
      | none => feed
    else feed

def receive : List (Except ε (List UInt8)) → List UInt8 × Feed B → Feed B
  | .ok chunk :: rest, (buffer, feed) =>
    receive rest (drain (· == 0x0A) (handleLine fromStr) (buffer ++ chunk) feed)
  | _, (_, feed) => feed

def connection (after : ℕ) (chunks : List (Except ε (List UInt8))) : Feed B :=
  receive fromStr chunks ([], ⟨after, []⟩)

def received : List (Except ε (List UInt8)) → List UInt8
  | .ok chunk :: rest => chunk ++ received rest
  | _ => []

variable {fromStr}

lemma receive_drain (chunks : List (Except ε (List UInt8))) (b : List UInt8) (feed : Feed B) :
    receive fromStr chunks (drain (· == 0x0A) (handleLine fromStr) b feed) =
      (drain (· == 0x0A) (handleLine fromStr) (b ++ received chunks) feed).2 := by
  induction chunks generalizing b with
  | nil => simp [receive, received]
  | cons chunk chunks ih =>
    cases chunk with
    | error e => simp [receive, received]
    | ok chunk => simp [receive, received, ← drain_append, ih]

lemma connection_eq (after : ℕ) (chunks : List (Except ε (List UInt8))) :
    connection fromStr after chunks =
      (drain (· == 0x0A) (handleLine fromStr) (received chunks) ⟨after, []⟩).2 := by
  have hempty : drain (· == 0x0A) (handleLine fromStr) [] ⟨after, []⟩ = ([], ⟨after, []⟩) :=
    drain_of_none rfl _
  rw [connection, ← hempty, receive_drain, List.nil_append]

def Feed.UpTo (feed : Feed B) (start : ℕ) : Prop :=
  feed.after = (feed.sent.map PendingMutation.sequence).foldl max start

variable {feed : Feed B} {start : ℕ}

lemma upTo_handleLine (h : feed.UpTo start) (line : List UInt8) :
    (handleLine fromStr feed line).UpTo start := by
  unfold handleLine
  split
  · exact h
  · dsimp only
    split
    · split
      · have hafter : feed.after = (feed.sent.map PendingMutation.sequence).foldl max start := h
        simp [Feed.UpTo, hafter]
      · exact h
    · exact h

lemma upTo_drain (h : feed.UpTo start) (b : List UInt8) :
    (drain (· == 0x0A) (handleLine fromStr) b feed).2.UpTo start := by
  fun_induction drain with
  | case1 => exact h
  | case2 b feed pos _ ih => exact ih (upTo_handleLine h _)

/-- **Chunks.** However the bytes of a connection are cut into chunks, the same mutations are sent
and the cursor is the same as if they came in one; and it is the largest sequence seen. -/
theorem connection_chunk_independent (fromStr : String → Option (PendingMutation B)) (start : ℕ)
    (chunks : List (Except ε (List UInt8))) :
    connection fromStr start chunks =
        connection fromStr start [(.ok (received chunks) : Except ε (List UInt8))] ∧
      (connection fromStr start chunks).UpTo start := by
  constructor
  · simp [connection_eq, received]
  · have hstart : Feed.UpTo (⟨start, []⟩ : Feed B) start := rfl
    rw [connection_eq]
    exact upTo_drain hstart _

end VaultSync.HttpCoordinator.EventStream
