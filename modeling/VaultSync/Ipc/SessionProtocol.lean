import Mathlib.Algebra.GroupWithZero.Nat
import Mathlib.Data.List.TakeWhile

/-! The mutation frames that the leader tab broadcasts to its followers: texts of fields that are
joined by `|`. -/

namespace VaultSync

open List

/-- `str::splitn`. -/
def splitn (sep : Char) : ℕ → List Char → List (List Char)
  | 0, _ => []
  | 1, s => [s]
  | n + 2, s =>
    match s.dropWhile (· ≠ sep) with
    | [] => [s]
    | _ :: rest => s.takeWhile (· ≠ sep) :: splitn sep (n + 1) rest

section Splitn

variable {sep : Char} {n : ℕ} {s piece : List Char}

lemma splitn_of_notMem (h : sep ∉ s) : splitn sep (n + 1) s = [s] := by
  have hdrop : s.dropWhile (· ≠ sep) = [] :=
    dropWhile_eq_nil_iff.2 fun c hc => decide_eq_true (ne_of_mem_of_not_mem hc h)
  cases n with
  | zero => rfl
  | succ n => simp only [splitn, hdrop]

lemma splitn_cons (h : sep ∉ piece) :
    splitn sep (n + 2) (piece ++ sep :: s) = piece :: splitn sep (n + 1) s := by
  have hpiece : ∀ c ∈ piece, decide (c ≠ sep) = true :=
    fun c hc => decide_eq_true (ne_of_mem_of_not_mem hc h)
  simp only [splitn, dropWhile_append_of_pos hpiece, takeWhile_append_of_pos hpiece]
  simp

/-- The pieces but for the last have no separator, the pieces and separators make up the text, and
there are fewer pieces than allowed only when none is left to be split. -/
lemma splitn_spec (sep : Char) (n : ℕ) (s : List Char) :
    (∀ piece ∈ (splitn sep (n + 1) s).dropLast, sep ∉ piece) ∧
      ((splitn sep (n + 1) s).map length).sum + (splitn sep (n + 1) s).length =
        s.length + 1 ∧
      (splitn sep (n + 1) s).length = min (n + 1) (s.count sep + 1) := by
  induction n generalizing s with
  | zero => simp [splitn]
  | succ n ih =>
    by_cases hmem : sep ∈ s
    · obtain ⟨piece, rest, rfl, hpiece⟩ := eq_append_cons_of_mem hmem
      obtain ⟨hfree, hlength, hcount⟩ := ih rest
      have hne : splitn sep (n + 1) rest ≠ [] := by
        intro hnil
        simp [hnil] at hcount
      rw [splitn_cons hpiece, dropLast_cons_of_ne_nil hne]
      refine ⟨forall_mem_cons.2 ⟨hpiece, hfree⟩, ?_, ?_⟩
      · simp only [map_cons, sum_cons, length_cons, length_append]
        omega
      · have hzero : piece.count sep = 0 := count_eq_zero.2 hpiece
        simp only [length_cons, count_append, count_cons_self, hzero, hcount]
        omega
    · have hzero : s.count sep = 0 := count_eq_zero.2 hmem
      rw [splitn_of_notMem hmem]
      simp [hzero]

end Splitn

namespace SessionProtocol

/-- The message, and the counter after it. -/
def sendMutation (bcSeq : ℕ) (tabId docId recordId fieldsJson : String) : String × ℕ :=
  (s!"MUTATION|{bcSeq}|{tabId}|{docId}|{recordId}|{fieldsJson}", (bcSeq + 1) % 2 ^ 64)

/-- The frame of version 1 has no counter. -/
def mutationV1 (tabId docId recordId fieldsJson : String) : String :=
  s!"MUTATION|{tabId}|{docId}|{recordId}|{fieldsJson}"

def parseMutation (msg : String) : Option (String × String × String × String) :=
  let parts := (splitn '|' 6 msg.toList).map String.ofList
  let hasBcSeq := 6 ≤ parts.length
  let tabIdx := if hasBcSeq then 2 else 1
  if (if hasBcSeq then 6 else 5) ≤ parts.length then do
    return (← parts[tabIdx]?, ← parts[tabIdx + 1]?, ← parts[tabIdx + 2]?, ← parts[tabIdx + 3]?)
  else none

variable {bcSeq : ℕ} {tabId docId recordId fieldsJson : String}

lemma notMem_toDigits : '|' ∉ Nat.toDigits 10 bcSeq := by
  intro hmem
  have hdigit : ('|').isDigit := Nat.isDigit_of_mem_toDigits (by decide) (by decide) hmem
  exact absurd hdigit (by decide)

/-- What stands after the tab in both versions. -/
def fields (docId recordId fieldsJson : String) : List Char :=
  docId.toList ++ '|' :: (recordId.toList ++ '|' :: fieldsJson.toList)

lemma count_fields : (fields docId recordId fieldsJson).count '|' =
    docId.toList.count '|' + recordId.toList.count '|' + fieldsJson.toList.count '|' + 2 := by
  simp only [fields, count_append, count_cons_self]
  omega

section

variable (htab : '|' ∉ tabId.toList)

include htab

lemma splitn_sendMutation :
    splitn '|' 6 (sendMutation bcSeq tabId docId recordId fieldsJson).1.toList =
      "MUTATION".toList :: Nat.toDigits 10 bcSeq :: tabId.toList ::
        splitn '|' 3 (fields docId recordId fieldsJson) := by
  have hlist : (sendMutation bcSeq tabId docId recordId fieldsJson).1.toList =
      "MUTATION".toList ++ '|' :: (Nat.toDigits 10 bcSeq ++ '|' ::
        (tabId.toList ++ '|' :: fields docId recordId fieldsJson)) := by
    change ("MUTATION|" ++ bcSeq.repr ++ "|" ++ tabId ++ "|" ++ docId ++ "|" ++ recordId ++ "|" ++
      fieldsJson).toList = _
    simp only [fields, String.toList_append, Nat.toList_repr, append_assoc]
    rfl
  rw [hlist, splitn_cons (by decide), splitn_cons notMem_toDigits, splitn_cons htab]

lemma splitn_mutationV1 :
    splitn '|' 6 (mutationV1 tabId docId recordId fieldsJson).toList =
      "MUTATION".toList :: tabId.toList :: splitn '|' 4 (fields docId recordId fieldsJson) := by
  have hlist : (mutationV1 tabId docId recordId fieldsJson).toList =
      "MUTATION".toList ++ '|' :: (tabId.toList ++ '|' :: fields docId recordId fieldsJson) := by
    change ("MUTATION|" ++ tabId ++ "|" ++ docId ++ "|" ++ recordId ++ "|" ++ fieldsJson).toList = _
    simp only [fields, String.toList_append, append_assoc]
    rfl
  rw [hlist, splitn_cons (by decide), splitn_cons htab]

lemma parseMutation_sendMutation_iff :
    parseMutation (sendMutation bcSeq tabId docId recordId fieldsJson).1 =
        some (tabId, docId, recordId, fieldsJson) ↔
      '|' ∉ docId.toList ∧ '|' ∉ recordId.toList := by
  have hsplit := @splitn_sendMutation bcSeq _ docId recordId fieldsJson htab
  constructor
  · intro h
    obtain ⟨hfree, -, hlength⟩ := splitn_spec '|' 2 (fields docId recordId fieldsJson)
    rw [count_fields, min_eq_left (by omega)] at hlength
    match hpieces : splitn '|' 3 (fields docId recordId fieldsJson), hlength with
    | [doc, record, json], _ =>
    rw [hpieces] at hsplit hfree
    have heq : String.ofList doc = docId ∧ String.ofList record = recordId ∧
        String.ofList json = fieldsJson := by
      simpa [parseMutation, hsplit] using h
    obtain ⟨rfl, rfl, -⟩ := heq
    simpa using hfree
  · rintro ⟨hdoc, hrecord⟩
    rw [fields, splitn_cons hdoc, splitn_cons hrecord, splitn] at hsplit
    rw [parseMutation, hsplit]
    simp only [map_cons, map_nil, String.ofList_toList]
    rfl

/-- A separator too many makes six pieces, which are read as a frame with a counter: were they the
fields, then the tab would stand in the frame twice. -/
lemma parseMutation_mutationV1_iff :
    parseMutation (mutationV1 tabId docId recordId fieldsJson) =
        some (tabId, docId, recordId, fieldsJson) ↔
      '|' ∉ docId.toList ∧ '|' ∉ recordId.toList ∧ '|' ∉ fieldsJson.toList := by
  have hsplit := @splitn_mutationV1 _ docId recordId fieldsJson htab
  constructor
  · intro h
    obtain ⟨-, hsum, hlength⟩ := splitn_spec '|' 3 (fields docId recordId fieldsJson)
    simp only [← count_eq_zero]
    by_contra hcount
    rw [count_fields, min_eq_left (by omega)] at hlength
    match hpieces : splitn '|' 4 (fields docId recordId fieldsJson), hlength with
    | [tab, doc, record, json], _ =>
    rw [hpieces] at hsplit hsum
    have heq : String.ofList tab = tabId ∧ String.ofList doc = docId ∧
        String.ofList record = recordId ∧ String.ofList json = fieldsJson := by
      simpa [parseMutation, hsplit] using h
    obtain ⟨-, rfl, rfl, rfl⟩ := heq
    simp [fields] at hsum
    omega
  · rintro ⟨hdoc, hrecord, hjson⟩
    rw [fields, splitn_cons hdoc, splitn_cons hrecord, splitn_of_notMem hjson] at hsplit
    rw [parseMutation, hsplit]
    simp only [map_cons, map_nil, String.ofList_toList]
    rfl

end

/-- **Mutation frames.** A frame is read back as it was sent exactly when the separator is not in the
fields before the last, and a frame of version 1 when it is in no field at all. -/
theorem mutation_frames_iff (bcSeq : ℕ) (tabId docId recordId fieldsJson : String)
    (htab : '|' ∉ tabId.toList) :
    (parseMutation (sendMutation bcSeq tabId docId recordId fieldsJson).1 =
        some (tabId, docId, recordId, fieldsJson) ↔
      '|' ∉ docId.toList ∧ '|' ∉ recordId.toList) ∧
    (parseMutation (mutationV1 tabId docId recordId fieldsJson) =
        some (tabId, docId, recordId, fieldsJson) ↔
      '|' ∉ docId.toList ∧ '|' ∉ recordId.toList ∧ '|' ∉ fieldsJson.toList) :=
  ⟨parseMutation_sendMutation_iff htab, parseMutation_mutationV1_iff htab⟩

theorem mutation_frames_plain :
    parseMutation (sendMutation 7 "tab" "notes" "n1" "\x7b\"a\":\"|\"\x7d").1 =
      some ("tab", "notes", "n1", "\x7b\"a\":\"|\"\x7d") :=
  (mutation_frames_iff 7 "tab" "notes" "n1" _ (by decide)).1.2 (by decide)

/-- A separator in the document id shifts the fields, and one in the JSON of version 1 does. -/
theorem mutation_frames_shifted :
    parseMutation (sendMutation 7 "tab" "a|b" "n1" "\x7b\x7d").1 =
        some ("tab", "a", "b", "n1|\x7b\x7d") ∧
      parseMutation (mutationV1 "tab" "notes" "n1" "\x7b\"a\":\"|\"\x7d") =
        some ("notes", "n1", "\x7b\"a\":\"", "\"\x7d") := by
  decide

end SessionProtocol

end VaultSync
