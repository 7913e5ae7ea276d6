import SetadJang.Tabyin.Mp4Duration

/-!
# Movie files

What an MP4 is, apart from the walks that read it: a sequence of boxes, each with its size, its
type and a payload; the payload of `moov` is such a sequence again, and that of `mvhd` a record
with a timescale and a duration.
-/

namespace SetadJang.Tabyin

open SetadJang.Framework

/-! ## Boxes -/

/-- How a box writes its size: in 32 bits, in 64 bits, or as reaching to the end of the file. -/
inductive SizeForm where
  | small
  | large
  | toEnd
deriving DecidableEq, Repr

namespace SizeForm

def headerLength : SizeForm → ℕ
  | small => 8
  | large => 16
  | toEnd => 8

/-- A payload of `n` bytes has a size that the form can write. -/
def Holds : SizeForm → ℕ → Prop
  | small, n => 8 + n < 256 ^ 4
  | large, n => 16 + n < 256 ^ 8
  | toEnd, _ => True

/-- The number in the first four bytes. -/
def sizeField : SizeForm → ℕ → ℕ
  | small, n => 8 + n
  | large, _ => 1
  | toEnd, _ => 0

/-- What stands between the type and the payload. -/
def largeField : SizeForm → ℕ → List UInt8
  | large, n => beBytes 8 (16 + n)
  | small, _ => []
  | toEnd, _ => []

theorem sizeField_lt {form : SizeForm} {n : ℕ} (h : form.Holds n) : form.sizeField n < 256 ^ 4 := by
  cases form with
  | small => exact h
  | large => exact (by decide : 1 < 256 ^ 4)
  | toEnd => exact (by decide : 0 < 256 ^ 4)

end SizeForm

structure Box where
  form : SizeForm
  type : List UInt8
  payload : List UInt8
  type_length : type.length = 4
  holds : form.Holds payload.length

namespace Box

def bytes (b : Box) : List UInt8 :=
  beBytes 4 (b.form.sizeField b.payload.length) ++
    (b.type ++ (b.form.largeField b.payload.length ++ b.payload))

/-- A box is its header and its payload. -/
theorem exists_header (b : Box) :
    ∃ header, header.length = b.form.headerLength ∧ b.bytes = header ++ b.payload := by
  refine ⟨beBytes 4 (b.form.sizeField b.payload.length) ++
    (b.type ++ b.form.largeField b.payload.length), ?_, ?_⟩
  · rw [List.length_append, List.length_append, length_beBytes, b.type_length]
    cases b.form with
    | small => rfl
    | large => rw [SizeForm.largeField, length_beBytes, SizeForm.headerLength]
    | toEnd => rfl
  · rw [bytes, List.append_assoc, List.append_assoc]

theorem length_bytes (b : Box) : b.bytes.length = b.form.headerLength + b.payload.length := by
  obtain ⟨header, hlength, hbytes⟩ := b.exists_header
  rw [hbytes, List.length_append, hlength]

theorem length_bytes_ge (b : Box) : 8 ≤ b.bytes.length := by
  have hheader : 8 ≤ b.form.headerLength := by cases b.form <;> decide
  rw [length_bytes]
  omega

variable {front rest : List UInt8}

/-- The eight bytes that both walks read first. -/
theorem readAt_header (b : Box) :
    readAt (front ++ (b.bytes ++ rest)) front.length 8 =
      beBytes 4 (b.form.sizeField b.payload.length) ++ b.type := by
  have hread := @readAt_append front [] (b.bytes ++ rest) front.length 8 rfl
  rw [List.nil_append] at hread
  rw [hread, bytes, List.append_assoc, List.append_assoc, ← List.append_assoc]
  exact List.take_left' (by rw [List.length_append, length_beBytes, b.type_length])

theorem size_header (b : Box) :
    beNat (slice (beBytes 4 (b.form.sizeField b.payload.length) ++ b.type) 0 4) =
      b.form.sizeField b.payload.length := by
  have hslice := @slice_append [] (beBytes 4 (b.form.sizeField b.payload.length)) b.type 0 4 rfl
    (by rw [length_beBytes])
  rw [List.nil_append] at hslice
  rw [hslice, beNat_beBytes (SizeForm.sizeField_lt b.holds)]

theorem type_header (b : Box) :
    slice (beBytes 4 (b.form.sizeField b.payload.length) ++ b.type) 4 8 = b.type := by
  have hslice := @slice_append (beBytes 4 (b.form.sizeField b.payload.length)) b.type [] 4 8
    (length_beBytes _ _) (by rw [b.type_length])
  rwa [List.append_nil] at hslice

/-- The 64-bit size, behind the first eight bytes. -/
theorem readAt_largeField {b : Box} (h : b.form = .large) :
    readAt (front ++ (b.bytes ++ rest)) (front.length + 8) 8 =
      beBytes 8 (16 + b.payload.length) := by
  have hlarge : b.form.largeField b.payload.length = beBytes 8 (16 + b.payload.length) := by
    rw [h, SizeForm.largeField]
  have hbytes : b.bytes ++ rest =
      (beBytes 4 (b.form.sizeField b.payload.length) ++ b.type) ++
        (beBytes 8 (16 + b.payload.length) ++ (b.payload ++ rest)) := by
    rw [bytes, hlarge]
    simp only [List.append_assoc]
  rw [hbytes, readAt_append (by rw [List.length_append, length_beBytes, b.type_length])]
  exact List.take_left' (length_beBytes _ _)

/-- The payload of a box with a 32-bit size, behind the first eight bytes. -/
theorem readAt_payload {b : Box} (h : b.form = .small) {n : ℕ} (hn : n ≤ b.payload.length) :
    readAt (front ++ (b.bytes ++ rest)) (front.length + 8) n = b.payload.take n := by
  have hbytes : b.bytes ++ rest =
      (beBytes 4 (b.form.sizeField b.payload.length) ++ b.type) ++ (b.payload ++ rest) := by
    rw [bytes, h, SizeForm.largeField]
    simp only [List.append_assoc, List.nil_append]
  rw [hbytes, readAt_append (by rw [List.length_append, length_beBytes, b.type_length]),
    List.take_append_of_le_length hn]

/-! ## The outer walk -/

/-- The size of a box, in each of the three forms. -/
theorem sizedHeader_bytes (b : Box) (hend : b.form = .toEnd → rest = []) :
    sizedHeader (front ++ (b.bytes ++ rest)) front.length (b.form.sizeField b.payload.length) =
      some (b.bytes.length, b.form.headerLength) := by
  have hholds := b.holds
  rw [length_bytes]
  unfold sizedHeader
  dsimp only
  cases hform : b.form with
  | small =>
      rw [if_neg, if_neg]
      · rfl
      · simp only [SizeForm.sizeField]
        omega
      · simp only [SizeForm.sizeField]
        omega
  | large =>
      rw [hform] at hholds
      rw [SizeForm.sizeField, if_pos rfl, readAt_largeField hform, length_beBytes,
        if_neg (by omega), beNat_beBytes hholds, SizeForm.headerLength]
  | toEnd =>
      rw [SizeForm.sizeField, if_neg (by omega), if_pos rfl, hend hform, List.append_nil,
        List.length_append, Nat.add_sub_cancel_left, length_bytes, hform, SizeForm.headerLength]

/-- The outer walk reads every box of a file. -/
theorem readBox_bytes (b : Box) (hend : b.form = .toEnd → rest = []) :
    readBox (front ++ (b.bytes ++ rest)) front.length =
      some ⟨b.type, front.length + b.form.headerLength, front.length + b.bytes.length⟩ := by
  have hlength : (beBytes 4 (b.form.sizeField b.payload.length) ++ b.type).length = 8 := by
    rw [List.length_append, length_beBytes, b.type_length]
  have hheader : ¬ b.bytes.length < b.form.headerLength := by
    rw [length_bytes]
    omega
  unfold readBox
  dsimp only
  rw [readAt_header, if_neg (by omega), size_header, sizedHeader_bytes b hend, type_header]
  dsimp only
  rw [if_neg hheader]

end Box

theorem readBoxes_cons {file : List UInt8} {limit pos : ℕ} {box : FoundBox}
    (hpos : pos + 8 ≤ file.length) (hlimit : pos < limit) (hbox : readBox file pos = some box) :
    readBoxes file limit pos = box :: readBoxes file limit box.payloadEnd := by
  rw [readBoxes, dif_pos ⟨hpos, hlimit⟩]
  split
  · next hnone => rw [hbox] at hnone; cases hnone
  · next found hfound =>
      rw [hbox] at hfound
      obtain rfl := Option.some.inj hfound
      rfl

/-- The first `moov` of a sequence is found behind the boxes before it. -/
theorem find_moov {boxes later : List Box} {moov : Box} (hmoov : moov.type = moovType)
    (hsized : ∀ b ∈ boxes, b.form ≠ .toEnd) (hother : ∀ b ∈ boxes, b.type ≠ moovType)
    (hend : moov.form = .toEnd → later = []) {file front : List UInt8}
    (hfile : file = front ++ (boxes ++ moov :: later).flatMap Box.bytes) :
    (readBoxes file file.length front.length).find? (fun box => box.type == moovType) =
      some ⟨moovType, (front ++ boxes.flatMap Box.bytes).length + moov.form.headerLength,
        (front ++ boxes.flatMap Box.bytes).length + moov.bytes.length⟩ := by
  induction boxes generalizing front with
  | nil =>
      have hlength := moov.length_bytes_ge
      have hbytes : file = front ++ (moov.bytes ++ later.flatMap Box.bytes) := by
        rw [hfile, List.nil_append, List.flatMap_cons]
      have hbox := @Box.readBox_bytes front (later.flatMap Box.bytes) moov
        (fun h => by rw [hend h, List.flatMap_nil])
      rw [← hbytes] at hbox
      have hfits : front.length + 8 ≤ file.length := by
        rw [hbytes, List.length_append, List.length_append]
        omega
      rw [readBoxes_cons hfits (by omega) hbox, List.find?_cons_of_pos (by simp [hmoov]), hmoov,
        List.flatMap_nil, List.append_nil]
  | cons b boxes ih =>
      have hlength := b.length_bytes_ge
      have hbytes : file = front ++ (b.bytes ++ (boxes ++ moov :: later).flatMap Box.bytes) := by
        rw [hfile, List.cons_append, List.flatMap_cons]
      have hbox := @Box.readBox_bytes front ((boxes ++ moov :: later).flatMap Box.bytes) b
        (fun h => absurd h (hsized b List.mem_cons_self))
      rw [← hbytes] at hbox
      have hfits : front.length + 8 ≤ file.length := by
        rw [hbytes, List.length_append, List.length_append]
        omega
      have hne := hother b List.mem_cons_self
      have hrest := @ih (fun c hc => hsized c (List.mem_cons_of_mem b hc))
        (fun c hc => hother c (List.mem_cons_of_mem b hc)) (front ++ b.bytes)
        (by rw [hbytes, List.append_assoc])
      rw [List.length_append] at hrest
      rw [readBoxes_cons hfits (by omega) hbox, List.find?_cons_of_neg (by simpa using hne), hrest,
        List.flatMap_cons, List.append_assoc]

/-! ## The inner walk -/

section Inner

variable {front rest : List UInt8} {moovEnd : ℕ}

/-- One turn of the inner walk over a box: past it, into it, or out of the loop. -/
theorem mvhdBody_bytes (b : Box) (hend : front.length + b.bytes.length ≤ moovEnd) :
    mvhdBody (front ++ (b.bytes ++ rest)) moovEnd front.length =
      if b.form ≠ .small then none
      else if b.type = mvhdType then some (b.payload.take 32)
      else mvhdBody (front ++ (b.bytes ++ rest)) moovEnd (front.length + b.bytes.length) := by
  have hlength := b.length_bytes_ge
  have hheader : (beBytes 4 (b.form.sizeField b.payload.length) ++ b.type).length = 8 := by
    rw [List.length_append, length_beBytes, b.type_length]
  rw [mvhdBody, if_pos (by omega)]
  dsimp only
  rw [Box.readAt_header, dif_neg (by omega), Box.size_header, Box.type_header]
  by_cases hform : b.form = .small
  · have hsize : b.form.sizeField b.payload.length = b.bytes.length := by
      rw [Box.length_bytes, hform, SizeForm.sizeField, SizeForm.headerLength]
    have hpayload : b.bytes.length - 8 = b.payload.length := by
      rw [Box.length_bytes, hform, SizeForm.headerLength, Nat.add_sub_cancel_left]
    rw [hsize, dif_neg (by omega), if_neg (not_not_intro hform), hpayload,
      Box.readAt_payload hform (Nat.min_le_left _ _), Nat.min_comm, ← List.take_eq_take_min]
  · -- the first four bytes of the other forms are not a size
    have hsize : b.form.sizeField b.payload.length < 8 := by
      cases hb : b.form with
      | small => exact absurd hb hform
      | large => exact (by decide : 1 < 8)
      | toEnd => exact (by decide : 0 < 8)
    rw [dif_pos hsize, if_pos hform]

/-- The inner walk over a sequence of boxes with an `mvhd`: it gets there if all sizes on the
way are of 32 bits. -/
theorem mvhdBody_sequence {boxes later : List Box} {mvhd : Box} (hmvhd : mvhd.type = mvhdType)
    (hother : ∀ b ∈ boxes, b.type ≠ mvhdType) {file : List UInt8}
    (hfile : file = front ++ ((boxes ++ mvhd :: later).flatMap Box.bytes ++ rest))
    (hend : front.length + ((boxes ++ mvhd :: later).flatMap Box.bytes).length ≤ moovEnd) :
    mvhdBody file moovEnd front.length =
      if (∀ b ∈ boxes, b.form = .small) ∧ mvhd.form = .small then some (mvhd.payload.take 32)
      else none := by
  induction boxes generalizing front with
  | nil =>
      rw [List.nil_append, List.flatMap_cons] at hfile hend
      rw [List.append_assoc] at hfile
      rw [List.length_append] at hend
      rw [hfile, mvhdBody_bytes mvhd (by omega), if_pos hmvhd]
      by_cases hform : mvhd.form = .small
      · rw [if_neg (not_not_intro hform), if_pos ⟨List.forall_mem_nil _, hform⟩]
      · rw [if_pos hform, if_neg fun h => hform h.2]
  | cons b boxes ih =>
      rw [List.cons_append, List.flatMap_cons] at hfile hend
      rw [List.append_assoc] at hfile
      rw [List.length_append] at hend
      have hne := hother b List.mem_cons_self
      have hnext := @ih (front ++ b.bytes) (fun c hc => hother c (List.mem_cons_of_mem b hc))
        (by rw [hfile, List.append_assoc]) (by rw [List.length_append]; omega)
      rw [List.length_append] at hnext
      have hturn := @mvhdBody_bytes front
        ((boxes ++ mvhd :: later).flatMap Box.bytes ++ rest) moovEnd b (by omega)
      rw [← hfile] at hturn
      rw [hturn, if_neg hne, hnext]
      by_cases hform : b.form = .small
      · rw [if_neg (not_not_intro hform)]
        simp only [List.forall_mem_cons, hform, true_and]
      · rw [if_pos hform, if_neg fun h => hform (h.1 b List.mem_cons_self)]

end Inner

/-! ## Movie files -/

/-- The two layouts of `mvhd`. -/
inductive MvhdVersion where
  | zero
  | one
deriving DecidableEq, Repr

namespace MvhdVersion

def byte : MvhdVersion → UInt8
  | zero => 0
  | one => 1

/-- The bytes of a time or a duration. -/
def width : MvhdVersion → ℕ
  | zero => 4
  | one => 8

end MvhdVersion

structure MovieHeader where
  version : MvhdVersion
  timescale : ℕ
  duration : ℕ
  timescale_pos : 0 < timescale
  timescale_lt : timescale < 256 ^ 4
  duration_lt : duration < 256 ^ version.width

namespace MovieHeader

/-- The payload of an `mvhd`: version and flags, two times, timescale, duration, and the rest. -/
def IsBody (h : MovieHeader) (body : List UInt8) : Prop :=
  ∃ flags times rest, flags.length = 3 ∧ times.length = 2 * h.version.width ∧
    body = (h.version.byte :: flags ++ times) ++
      (beBytes 4 h.timescale ++ (beBytes h.version.width h.duration ++ rest))

/-- The duration in seconds, rounded. -/
def seconds (h : MovieHeader) : ℤ := pyRound ((h.duration : ℚ) / h.timescale)

/-- The timescale and the duration, behind a front of `k` bytes. -/
theorem slices_body (h : MovieHeader) {front rest : List UInt8} {k : ℕ} (hfront : front.length = k)
    (hk : k + 4 + h.version.width ≤ 32) :
    let body := (front ++ (beBytes 4 h.timescale ++ (beBytes h.version.width h.duration ++ rest)))
    beNat (slice (body.take 32) k (k + 4)) = h.timescale ∧
      beNat (slice (body.take 32) (k + 4) (k + 4 + h.version.width)) = h.duration := by
  intro body
  constructor
  · rw [slice_take (by omega), slice_append hfront (by rw [length_beBytes]),
      beNat_beBytes h.timescale_lt]
  · have hsplit : body =
        (front ++ beBytes 4 h.timescale) ++ (beBytes h.version.width h.duration ++ rest) := by
      rw [List.append_assoc]
    rw [slice_take hk, hsplit, slice_append (by rw [List.length_append, hfront, length_beBytes])
      (by rw [length_beBytes]), beNat_beBytes h.duration_lt]

/-- The walk reads the fields of a body in the layout of its version. -/
theorem mvhdFields_body {h : MovieHeader} {body : List UInt8} (hbody : h.IsBody body) :
    20 ≤ (body.take 32).length ∧ (body.take 32)[0]? = some h.version.byte ∧
      mvhdFields h.version.byte (body.take 32) = (h.timescale, h.duration) := by
  obtain ⟨flags, times, rest, hflags, htimes, rfl⟩ := hbody
  have hfront : (h.version.byte :: flags ++ times).length = 4 + 2 * h.version.width := by
    rw [List.length_append, List.length_cons, hflags, htimes]
  have hslices := @slices_body h (h.version.byte :: flags ++ times) rest _ hfront
  have hlength : (((h.version.byte :: flags ++ times) ++ (beBytes 4 h.timescale ++
      (beBytes h.version.width h.duration ++ rest))).take 32).length =
        min 32 (8 + 3 * h.version.width + rest.length) := by
    rw [List.length_take, List.length_append, hfront]
    simp only [List.length_append, length_beBytes]
    congr 1
    omega
  unfold mvhdFields
  rw [hlength]
  cases hversion : h.version with
  | zero =>
      rw [hversion] at hslices
      obtain ⟨hscale, hduration⟩ := hslices (by decide)
      refine ⟨by simp only [MvhdVersion.width]; omega, rfl, ?_⟩
      rw [if_neg fun hone => absurd hone.1 (by decide)]
      exact Prod.ext hscale hduration
  | one =>
      rw [hversion] at hslices
      obtain ⟨hscale, hduration⟩ := hslices (by decide)
      refine ⟨by simp only [MvhdVersion.width]; omega, rfl, ?_⟩
      rw [if_pos ⟨rfl, by simp only [MvhdVersion.width]; omega⟩]
      exact Prod.ext hscale hduration

theorem mvhdDuration_body {div : ℕ → ℕ → ℚ} {h : MovieHeader} {body : List UInt8}
    (hbody : h.IsBody body) :
    mvhdDuration div (body.take 32) = .ok (max 0 (pyRound (div h.duration h.timescale))) := by
  obtain ⟨hlength, hversion, hfields⟩ := mvhdFields_body hbody
  obtain ⟨version, hfirst, hduration⟩ := @mvhdDuration_of_long div _ hlength
  rw [hversion] at hfirst
  obtain rfl := Option.some.inj hfirst
  rw [hduration, hfields, if_neg h.timescale_pos.ne']

end MovieHeader

/-- A file of boxes whose first `moov` is a sequence of boxes with a movie header. -/
structure MovieFile where
  boxes : List Box
  moov : Box
  children : List Box
  mvhd : Box
  header : MovieHeader
  boxes_sized : ∀ b ∈ boxes.dropLast, b.form ≠ .toEnd
  moov_found : boxes.find? (fun b => b.type == moovType) = some moov
  moov_payload : moov.payload = children.flatMap Box.bytes
  children_sized : ∀ b ∈ children, b.form ≠ .toEnd
  mvhd_found : children.find? (fun b => b.type == mvhdType) = some mvhd
  mvhd_body : header.IsBody mvhd.payload

namespace MovieFile

def bytes (movie : MovieFile) : List UInt8 := movie.boxes.flatMap Box.bytes

/-- The children of `moov` up to the movie header have sizes of 32 bits. -/
def SmallToHeader (movie : MovieFile) : Prop :=
  (∀ b ∈ movie.children.takeWhile (fun b => !(b.type == mvhdType)), b.form = .small) ∧
    movie.mvhd.form = .small

instance (movie : MovieFile) : Decidable movie.SmallToHeader := inferInstanceAs (Decidable (_ ∧ _))

/-- Where the walks lead in a movie file. -/
theorem foundMvhd_bytes (movie : MovieFile) :
    foundMvhd movie.bytes =
      if movie.SmallToHeader then some (movie.mvhd.payload.take 32) else none := by
  obtain ⟨hmoov, before, after, hboxes, hbefore⟩ :=
    List.find?_eq_some_iff_append.mp movie.moov_found
  obtain ⟨hmvhd, first, later, hchildren, hfirst⟩ :=
    List.find?_eq_some_iff_append.mp movie.mvhd_found
  obtain ⟨header, hheader, hmoovBytes⟩ := movie.moov.exists_header
  simp only [Bool.not_eq_eq_eq_not, Bool.not_true, beq_eq_false_iff_ne, beq_iff_eq] at *
  have hsized := movie.boxes_sized
  rw [hboxes, List.dropLast_append_cons] at hsized
  have hend : movie.moov.form = .toEnd → after = [] := by
    intro htoEnd
    cases after with
    | nil => rfl
    | cons b after => exact absurd htoEnd (hsized _ (List.mem_append_right _ List.mem_cons_self))
  have hfile : movie.bytes = [] ++ (before ++ movie.moov :: after).flatMap Box.bytes := by
    rw [List.nil_append, bytes, hboxes]
  have hfound := find_moov hmoov (fun b hb => hsized b (List.mem_append_left _ hb)) hbefore hend hfile
  -- the children lie between the header of `moov` and its end
  have hpayload : movie.bytes = (before.flatMap Box.bytes ++ header) ++
      ((first ++ movie.mvhd :: later).flatMap Box.bytes ++ after.flatMap Box.bytes) := by
    rw [bytes, hboxes, List.flatMap_append, List.flatMap_cons, hmoovBytes, movie.moov_payload,
      hchildren]
    simp only [List.append_assoc]
  have hstart : (before.flatMap Box.bytes ++ header).length =
      ([] ++ before.flatMap Box.bytes).length + movie.moov.form.headerLength := by
    rw [List.length_append, hheader, List.nil_append]
  have hreach : (before.flatMap Box.bytes ++ header).length +
      ((first ++ movie.mvhd :: later).flatMap Box.bytes).length ≤
        ([] ++ before.flatMap Box.bytes).length + movie.moov.bytes.length := by
    rw [hmoovBytes, movie.moov_payload, hchildren, List.nil_append, List.length_append,
      List.length_append]
    omega
  have hwalk := mvhdBody_sequence hmvhd hfirst hpayload hreach
  have hway : movie.children.takeWhile (fun b => !(b.type == mvhdType)) = first := by
    rw [hchildren, List.takeWhile_append_of_pos (by simpa using hfirst),
      List.takeWhile_cons_of_neg (by simpa using hmvhd), List.append_nil]
  have hsmall : movie.SmallToHeader ↔
      (∀ b ∈ first, b.form = .small) ∧ movie.mvhd.form = .small := by rw [SmallToHeader, hway]
  rw [foundMvhd, ← @List.length_nil UInt8, hfound]
  dsimp only
  rw [← hstart, hwalk]
  exact if_congr hsmall.symm rfl rfl

/-- What the function makes of a movie file. -/
theorem extractMp4Duration_bytes (div : ℕ → ℕ → ℚ) (movie : MovieFile) :
    extractMp4Duration div movie.bytes =
      if movie.SmallToHeader then
        .ok (max 0 (pyRound (div movie.header.duration movie.header.timescale)))
      else .ok 0 := by
  rw [extractMp4Duration, foundMvhd_bytes]
  by_cases hsmall : movie.SmallToHeader
  · rw [if_pos hsmall, if_pos hsmall]
    exact MovieHeader.mvhdDuration_body movie.mvhd_body
  · rw [if_neg hsmall, if_neg hsmall]

/-- `/` as the exact quotient. -/
def exactDiv (a b : ℕ) : ℚ := a / b

/-- **Durations of movies.**  On any bytes the function returns a number that is not negative;
on a movie file it is the rounded duration exactly when all sizes up to the movie header are of
32 bits, or when the duration rounds to nothing. -/
theorem extractMp4Duration_seconds_iff (file : List UInt8) (movie : MovieFile) :
    (∃ n : ℤ, 0 ≤ n ∧ extractMp4Duration exactDiv file = .ok n) ∧
      (extractMp4Duration exactDiv movie.bytes = .ok movie.header.seconds ↔
        movie.SmallToHeader ∨ 2 * movie.header.duration ≤ movie.header.timescale) := by
  refine ⟨extractMp4Duration_returns file, ?_⟩
  have hscale : (0 : ℚ) < movie.header.timescale := by exact_mod_cast movie.header.timescale_pos
  have hquotient : (0 : ℚ) ≤ (movie.header.duration : ℚ) / movie.header.timescale := by positivity
  have hzero : movie.header.seconds = 0 ↔ 2 * movie.header.duration ≤ movie.header.timescale := by
    rw [MovieHeader.seconds, pyRound_eq_zero_iff hquotient, div_le_div_iff₀ hscale two_pos]
    norm_cast
    omega
  rw [extractMp4Duration_bytes]
  by_cases hsmall : movie.SmallToHeader
  · rw [if_pos hsmall, exactDiv]
    have hmax := max_eq_right (pyRound_nonneg hquotient)
    rw [hmax]
    exact iff_of_true rfl (Or.inl hsmall)
  · rw [if_neg hsmall, ← hzero]
    constructor
    · intro h
      exact Or.inr (Except.ok.inj h).symm
    · rintro (h | h)
      · exact absurd h hsmall
      · rw [h]

end MovieFile

/-! ## A 64-bit size in `moov` -/

theorem length_mvhdType : mvhdType.length = 4 := rfl

theorem length_moovType : moovType.length = 4 := rfl

/-- Five seconds. -/
def fiveSeconds : MovieHeader :=
  ⟨.zero, 1000, 5000, by decide, by decide, by decide⟩

/-- The movie header, with its size in 64 bits. -/
def wideMvhd : Box where
  form := .large
  type := mvhdType
  payload := (0 :: [0, 0, 0] ++ List.replicate 8 0) ++ (beBytes 4 1000 ++ (beBytes 4 5000 ++ []))
  type_length := length_mvhdType
  holds := by
    rw [SizeForm.Holds, List.length_append, List.length_append, List.length_append,
      List.length_append, length_beBytes, length_beBytes]
    decide

def wideMoov : Box where
  form := .small
  type := moovType
  payload := [wideMvhd].flatMap Box.bytes
  type_length := length_moovType
  holds := (by decide : 8 + 36 < 256 ^ 4)

def wideMovie : MovieFile where
  boxes := [wideMoov]
  moov := wideMoov
  children := [wideMvhd]
  mvhd := wideMvhd
  header := fiveSeconds
  boxes_sized := by simp
  moov_found := rfl
  moov_payload := rfl
  children_sized := by simp [wideMvhd]
  mvhd_found := rfl
  mvhd_body := ⟨[0, 0, 0], List.replicate 8 0, [], rfl, rfl, rfl⟩

/-- The inner walk takes the 64-bit size for an end: five seconds are read as none. -/
theorem wideMovie_loses_duration :
    extractMp4Duration MovieFile.exactDiv wideMovie.bytes = .ok 0 ∧
      wideMovie.header.seconds = 5 := by
  constructor
  · rw [MovieFile.extractMp4Duration_bytes, if_neg]
    intro hsmall
    exact absurd hsmall.2 (by decide)
  · decide +kernel

end SetadJang.Tabyin
