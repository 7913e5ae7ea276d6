import SetadJang.Framework.ByteFields
import SetadJang.Framework.PyRound

/-!
# The duration of an MP4

`_extract_mp4_duration` walks over the boxes of a file to the first `moov` and over the boxes in
there to the first `mvhd`.  The outer walk knows sizes of 32 and of 64 bits and boxes that reach
to the end of the file; the inner one takes every size for one of 32 bits.
-/

namespace SetadJang.Tabyin

open SetadJang.Framework

/-! ## The walks -/

/-- What `except (OSError, ValueError)` would let through. -/
inductive Mp4Failure where
  | indexError
  | zeroDivisionError
deriving DecidableEq, Repr

/-- A box as the outer walk yields it: its type, and where its payload starts and ends. -/
structure FoundBox where
  type : List UInt8
  payloadStart : ℕ
  payloadEnd : ℕ
deriving DecidableEq, Repr

/-- `b"moov"`. -/
def moovType : List UInt8 := [0x6d, 0x6f, 0x6f, 0x76]

/-- `b"mvhd"`. -/
def mvhdType : List UInt8 := [0x6d, 0x76, 0x68, 0x64]

/-- The size of a box and of its header, or none if the 64-bit size is cut off. -/
def sizedHeader (file : List UInt8) (pos size : ℕ) : Option (ℕ × ℕ) :=
  if size = 1 then
    let large := readAt file (pos + 8) 8
    if large.length < 8 then none else some (beNat large, 16)
  else if size = 0 then some (file.length - pos, 8)
  else some (size, 8)

/-- The body of the loop in `read_boxes`. -/
def readBox (file : List UInt8) (pos : ℕ) : Option FoundBox :=
  let header := readAt file pos 8
  if header.length < 8 then none
  else
    match sizedHeader file pos (beNat (slice header 0 4)) with
    | none => none
    | some (size, headerSize) =>
        if size < headerSize then none
        else some ⟨slice header 4 8, pos + headerSize, pos + size⟩

theorem sizedHeader_header {file : List UInt8} {pos size : ℕ} {sized : ℕ × ℕ}
    (h : sizedHeader file pos size = some sized) : 8 ≤ sized.2 := by
  unfold sizedHeader at h
  dsimp only at h
  split_ifs at h <;> obtain rfl := Option.some.inj h <;> simp

/-- A box takes its header at least, so that the walk moves on. -/
theorem readBox_moves {file : List UInt8} {pos : ℕ} {box : FoundBox}
    (h : readBox file pos = some box) : pos + 8 ≤ box.payloadEnd := by
  unfold readBox at h
  dsimp only at h
  split at h
  · cases h
  · split at h
    · cases h
    · rename_i size headerSize hsized
      have hheader := sizedHeader_header hsized
      split at h
      · cases h
      · obtain rfl := Option.some.inj h
        dsimp only at hheader ⊢
        omega

/-- `read_boxes`. -/
def readBoxes (file : List UInt8) (limit pos : ℕ) : List FoundBox :=
  if _hpos : pos + 8 ≤ file.length ∧ pos < limit then
    match _hbox : readBox file pos with
    | none => []
    | some box => box :: readBoxes file limit box.payloadEnd
  else []
termination_by file.length - pos
decreasing_by
  have := readBox_moves _hbox
  omega

/-- The walk in `moov`: the body of its first `mvhd`, as far as it is read. -/
def mvhdBody (file : List UInt8) (moovEnd pos : ℕ) : Option (List UInt8) :=
  if pos + 8 ≤ moovEnd then
    let header := readAt file pos 8
    if _hheader : header.length < 8 then none
    else
      let size := beNat (slice header 0 4)
      if _hsize : size < 8 then none
      else if slice header 4 8 = mvhdType then some (readAt file (pos + 8) (min (size - 8) 32))
      else mvhdBody file moovEnd (pos + size)
  else none
termination_by file.length - pos
decreasing_by
  rw [length_readAt] at _hheader
  change file.length - (pos + size) < file.length - pos
  omega

/-- The body that the two walks lead to: the first `moov` decides. -/
def foundMvhd (file : List UInt8) : Option (List UInt8) :=
  match (readBoxes file file.length 0).find? fun box => box.type == moovType with
  | none => none
  | some moov => mvhdBody file moov.payloadEnd moov.payloadStart

section Duration

variable (div : ℕ → ℕ → ℚ)

/-- `duration / timescale`. -/
def trueDiv (a b : ℕ) : Except Mp4Failure ℚ :=
  if b = 0 then .error .zeroDivisionError else .ok (div a b)

/-- The timescale and the duration in the layout of the version. -/
def mvhdFields (version : UInt8) (body : List UInt8) : ℕ × ℕ :=
  if version = 1 ∧ 32 ≤ body.length then (beNat (slice body 20 24), beNat (slice body 24 32))
  else (beNat (slice body 12 16), beNat (slice body 16 20))

/-- What the function makes of the body of an `mvhd`. -/
def mvhdDuration (body : List UInt8) : Except Mp4Failure ℤ :=
  if body.length < 20 then .ok 0
  else
    match body[0]? with
    | none => .error .indexError
    | some version =>
        let fields := mvhdFields version body
        if fields.1 ≤ 0 then .ok 0
        else (trueDiv div fields.2 fields.1).map fun seconds => max 0 (pyRound seconds)

/-- `_extract_mp4_duration`. -/
def extractMp4Duration (file : List UInt8) : Except Mp4Failure ℤ :=
  match foundMvhd file with
  | none => .ok 0
  | some body => mvhdDuration div body

/-! ## Every file -/

variable {div}

theorem mvhdDuration_of_short {body : List UInt8} (h : body.length < 20) :
    mvhdDuration div body = .ok 0 := by
  rw [mvhdDuration, if_pos h]

/-- What becomes of a body that is long enough: nothing without a timescale, else the rounded
quotient. -/
theorem mvhdDuration_of_long {body : List UInt8} (h : 20 ≤ body.length) :
    ∃ version, body[0]? = some version ∧
      mvhdDuration div body = .ok (if (mvhdFields version body).1 = 0 then 0
        else max 0 (pyRound (div (mvhdFields version body).2 (mvhdFields version body).1))) := by
  have hfirst : body[0]? = some (body.get ⟨0, by omega⟩) := List.getElem?_eq_getElem (by omega)
  refine ⟨_, hfirst, ?_⟩
  rw [mvhdDuration, if_neg (by omega), hfirst]
  dsimp only
  by_cases hscale : (mvhdFields (body.get ⟨0, by omega⟩) body).1 = 0
  · rw [if_pos (by omega), if_pos hscale]
  · rw [if_neg (by omega), if_neg hscale, trueDiv, if_neg hscale]
    rfl

/-- On any bytes the function returns, and no negative number. -/
theorem extractMp4Duration_returns (file : List UInt8) :
    ∃ n : ℤ, 0 ≤ n ∧ extractMp4Duration div file = .ok n := by
  unfold extractMp4Duration
  split
  · exact ⟨0, le_rfl, rfl⟩
  · next body _ =>
      rcases Nat.lt_or_ge body.length 20 with hshort | hlong
      · exact ⟨0, le_rfl, mvhdDuration_of_short hshort⟩
      · obtain ⟨version, -, hduration⟩ := @mvhdDuration_of_long div body hlong
        refine ⟨_, ?_, hduration⟩
        split
        · exact le_rfl
        · exact le_max_left 0 _

end Duration

end SetadJang.Tabyin
