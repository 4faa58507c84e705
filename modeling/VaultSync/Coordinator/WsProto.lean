import VaultSync.Bytes.Buffer

/-! The frames of the WebSocket protocol: a type, four bytes of length and a JSON payload, in the
arithmetic of the target they are compiled for. -/

namespace VaultSync.WsProto

open Bytes

variable {T E : Type}

/-- The width of `usize`, and whether an overflow panics or wraps around. -/
structure Target where
  bits : ℕ
  overflowChecks : Bool
  bits_eq : bits = 32 ∨ bits = 64

inductive Panic where
  | overflow
  | sliceRange
  | capacityOverflow
  deriving DecidableEq, Repr

namespace Target

def usizeAdd (t : Target) (a b : ℕ) : Except Panic ℕ :=
  if a + b < 2 ^ t.bits then .ok (a + b)
  else if t.overflowChecks then .error .overflow
  else .ok ((a + b) % 2 ^ t.bits)

def isizeMax (t : Target) : ℕ := 2 ^ (t.bits - 1) - 1

end Target

variable (data : List UInt8)

def slice (start stop : ℕ) : Except Panic (List UInt8) :=
  if start ≤ stop ∧ stop ≤ data.length then .ok ((data.take stop).drop start)
  else .error .sliceRange

/-- `toVec` is `serde_json::to_vec`; the length is cast to `u32`. -/
def encodeFrame (t : Target) (toVec : T → Except E (List UInt8)) (msgType : UInt8) (payload : T) :
    Except Panic (Except E (List UInt8)) :=
  match toVec payload with
  | .error e => .ok (.error e)
  | .ok payloadBytes => do
    let capacity ← t.usizeAdd 5 payloadBytes.length
    if t.isizeMax < capacity then
      throw .capacityOverflow
    return .ok (msgType :: ((toLe 4 (payloadBytes.length % 2 ^ 32)).reverse ++ payloadBytes))

def lengthField : ℕ := ofLe ((data.take 5).drop 1).reverse

def decodeFrame (t : Target) (data : List UInt8) : Except Panic (Except String (UInt8 × List UInt8)) :=
  if data.length < 5 then
    .ok (.error "Frame too short")
  else do
    let length := lengthField data
    let stop ← t.usizeAdd 5 length
    if data.length < stop then
      return .error s!"Frame incomplete: expected {length} bytes payload, got {data.length - 5} bytes"
    let payload ← slice data 5 stop
    return .ok (data.headD 0, payload)

def roundTrip (t : Target) (toVec : T → Except E (List UInt8)) (msgType : UInt8) (payload : T) :
    Except Panic (Except E (Except String (UInt8 × List UInt8))) := do
  match ← encodeFrame t toVec msgType payload with
  | .error e => return .error e
  | .ok frame => return .ok (← decodeFrame t frame)

variable {t : Target} {json : List UInt8}

lemma usizeAdd_of_lt {a b : ℕ} (h : a + b < 2 ^ t.bits) :
    t.usizeAdd a b = .ok (a + b) := if_pos h

lemma isizeMax_lt (t : Target) : t.isizeMax < 2 ^ t.bits := by
  have hle : 2 ^ (t.bits - 1) ≤ 2 ^ t.bits := Nat.pow_le_pow_right Nat.two_pos (Nat.sub_le _ _)
  have hpos : 0 < 2 ^ t.bits := Nat.two_pow_pos _
  unfold Target.isizeMax
  omega

lemma lengthField_lt : lengthField data < 2 ^ 32 := by
  have hlen : (((data.take 5).drop 1).reverse.map UInt8.toNat).length ≤ 4 := by simp
  have hdigits : ∀ d ∈ ((data.take 5).drop 1).reverse.map UInt8.toNat, d < 256 := by
    intro d hd
    obtain ⟨b, -, rfl⟩ := List.mem_map.1 hd
    exact b.toNat_lt
  calc lengthField data < 256 ^ _ := Nat.ofDigits_lt_base_pow_length (by norm_num) hdigits
    _ ≤ 256 ^ 4 := Nat.pow_le_pow_right (by norm_num) hlen
    _ = 2 ^ 32 := by norm_num

lemma lengthField_frame (msgType : UInt8) (hlen : json.length < 2 ^ 32) :
    lengthField (msgType :: ((toLe 4 (json.length % 2 ^ 32)).reverse ++ json)) = json.length := by
  have htake : ((msgType :: ((toLe 4 (json.length % 2 ^ 32)).reverse ++ json)).take 5).drop 1 =
      (toLe 4 (json.length % 2 ^ 32)).reverse := by simp
  rw [lengthField, htake, List.reverse_reverse, ofLe_toLe, Nat.mod_eq_of_lt hlen]
  exact Nat.mod_eq_of_lt (by omega)

lemma decodeFrame_frame (msgType : UInt8)
    (hlen : json.length < 2 ^ 32) (hfits : 5 + json.length ≤ t.isizeMax) :
    decodeFrame t (msgType :: ((toLe 4 (json.length % 2 ^ 32)).reverse ++ json)) =
      .ok (.ok (msgType, json)) := by
  have hadd : t.usizeAdd 5 json.length = .ok (5 + json.length) :=
    usizeAdd_of_lt (hfits.trans_lt (isizeMax_lt t))
  have hsize : (msgType :: ((toLe 4 (json.length % 2 ^ 32)).reverse ++ json)).length =
      5 + json.length := by
    simp
    omega
  have hslice : slice (msgType :: ((toLe 4 (json.length % 2 ^ 32)).reverse ++ json)) 5
      (5 + json.length) = .ok json := by
    rw [slice, if_pos ⟨Nat.le_add_right _ _, hsize.ge⟩, List.take_of_length_le hsize.le]
    simp
  rw [decodeFrame, if_neg (by omega)]
  simp only [lengthField_frame msgType hlen, hadd, hsize]
  change (if 5 + json.length < 5 + json.length then _ else _) = _
  rw [if_neg (lt_irrefl _)]
  change Except.bind (slice _ 5 (5 + json.length)) _ = _
  rw [hslice]
  rfl

lemma add_mod_lt {data : List UInt8} (h : 2 ^ t.bits ≤ 5 + lengthField data) :
    (5 + lengthField data) % 2 ^ t.bits < 5 := by
  have hlt := lengthField_lt data
  rcases t.bits_eq with hbits | hbits
  · rw [hbits] at h ⊢
    omega
  · rw [hbits] at h
    omega

lemma decodeFrame_ok_iff (t : Target) (data : List UInt8) :
    (∃ r, decodeFrame t data = .ok r) ↔ data.length < 5 ∨ 5 + lengthField data < 2 ^ t.bits := by
  unfold decodeFrame
  by_cases hshort : data.length < 5
  · simp [hshort]
  by_cases hadd : 5 + lengthField data < 2 ^ t.bits
  · by_cases hlen : data.length < 5 + lengthField data
    · simp [hshort, hadd, hlen, usizeAdd_of_lt, bind, Except.bind, pure, Except.pure]
    · have hslice : slice data 5 (5 + lengthField data) = .ok _ :=
        if_pos ⟨Nat.le_add_right _ _, not_lt.1 hlen⟩
      simp [hshort, hadd, hlen, hslice, usizeAdd_of_lt, bind, Except.bind, pure, Except.pure]
  · have hwrap := add_mod_lt (not_lt.1 hadd)
    have hslice : slice data 5 ((5 + lengthField data) % 2 ^ t.bits) = .error .sliceRange :=
      if_neg fun h => absurd h.1 (by omega)
    have hlen : ¬data.length < (5 + lengthField data) % 2 ^ t.bits := by omega
    cases hchecks : t.overflowChecks with
    | true => simp [Target.usizeAdd, hshort, hadd, hchecks, bind, Except.bind]
    | false => simp [Target.usizeAdd, hshort, hadd, hchecks, hlen, hslice, bind, Except.bind]

/-- **Frames.** A payload comes back as it was sent if and only if its frame fits into a vector of
the target, and data is decoded without a panic if and only if it is too short for a frame or the
end of the payload that it announces is a `usize`. -/
theorem frames_iff (t : Target) (toVec : T → Except E (List UInt8)) :
    (∀ msgType payload json, toVec payload = .ok json → json.length < 2 ^ 32 →
      (roundTrip t toVec msgType payload = .ok (.ok (.ok (msgType, json))) ↔
        5 + json.length ≤ t.isizeMax)) ∧
    ∀ data, (∃ r, decodeFrame t data = .ok r) ↔
      data.length < 5 ∨ 5 + lengthField data < 2 ^ t.bits := by
  refine ⟨fun msgType payload json hjson hlen => ?_, decodeFrame_ok_iff t⟩
  rw [roundTrip, encodeFrame, hjson]
  by_cases hfits : 5 + json.length ≤ t.isizeMax
  · have hadd := usizeAdd_of_lt (hfits.trans_lt (isizeMax_lt t))
    have hback := decodeFrame_frame msgType hlen hfits
    refine iff_of_true ?_ hfits
    simp only [hadd, not_lt.2 hfits, bind, Except.bind, if_false, pure, Except.pure, hback]
  · refine iff_of_false (fun hback => ?_) hfits
    cases hcapacity : t.usizeAdd 5 json.length with
    | error panic => simp [hcapacity, bind, Except.bind] at hback
    | ok capacity =>
      by_cases hroom : t.isizeMax < capacity
      · simp [hcapacity, hroom, bind, Except.bind, throw, throwThe, MonadExceptOf.throw] at hback
      · -- The capacity has wrapped around, and so has the end of the payload when it is decoded.
        have hover : ¬5 + json.length < 2 ^ t.bits := fun hlt => by
          rw [usizeAdd_of_lt hlt] at hcapacity
          cases hcapacity
          exact hroom (not_le.1 hfits)
        cases hdecode : decodeFrame t
            (msgType :: ((toLe 4 (json.length % 2 ^ 32)).reverse ++ json)) with
        | error panic =>
          simp only [hcapacity, hroom, bind, Except.bind, if_false, pure, Except.pure,
            hdecode] at hback
          cases hback
        | ok r =>
          have hok := (decodeFrame_ok_iff t _).1 ⟨r, hdecode⟩
          rw [lengthField_frame msgType hlen] at hok
          simp [hover] at hok
          omega

theorem frames_iff_three :
    roundTrip (E := String) ⟨32, true, .inl rfl⟩ .ok 7 [1, 2, 3] = .ok (.ok (.ok (7, [1, 2, 3]))) :=
  ((frames_iff ⟨32, true, .inl rfl⟩ .ok).1 7 [1, 2, 3] [1, 2, 3] rfl (by decide)).2 (by decide)

/-- Where `usize` has 32 bits, a length field of `u32::MAX` is enough for a panic. -/
theorem decodeFrame_maximal_length :
    decodeFrame ⟨32, true, .inl rfl⟩ [1, 255, 255, 255, 255] = .error .overflow ∧
      decodeFrame ⟨32, false, .inl rfl⟩ [1, 255, 255, 255, 255] = .error .sliceRange := by
  decide

end VaultSync.WsProto
