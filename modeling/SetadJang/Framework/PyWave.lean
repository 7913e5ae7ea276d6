import SetadJang.Framework.ByteFields
import SetadJang.Framework.Txn

/-!
# WAV headers

`wave.open` of the standard library, up to the number of frames and their rate.  The file is one
RIFF chunk, its chunks are read through it, and a chunk is skipped by a seek in it.  A seek to a
place beyond the RIFF chunk raises a `RuntimeError`, which is none of the exceptions that the
module documents.
-/

namespace SetadJang.Framework

/-- What `wave.open` raises: `wave.Error`, `EOFError`, or the `RuntimeError` of a seek. -/
inductive WaveFailure where
  | error
  | eofError
  | runtimeError
deriving DecidableEq, Repr

/-- `_Chunk.read` of a chunk of `size` bytes: the state is how many of them have been read, and
the state of what lies below.  An odd chunk is followed by a byte of padding. -/
def chunkRead {σ : Type} (fileRead : ℕ → σ → List UInt8 × σ) (size n : ℕ) (state : ℕ × σ) :
    List UInt8 × (ℕ × σ) :=
  if size ≤ state.1 then ([], state)
  else
    let got := fileRead (min n (size - state.1)) state.2
    let sizeRead := state.1 + got.1.length
    if sizeRead = size ∧ size % 2 = 1 then
      let padding := fileRead 1 got.2
      (got.1, sizeRead + padding.1.length, padding.2)
    else (got.1, sizeRead, got.2)

/-- `file.read(n)`. -/
def fileRead (bytes : List UInt8) (n pos : ℕ) : List UInt8 × ℕ :=
  (readAt bytes pos n, pos + (readAt bytes pos n).length)

/-- The RIFF chunk of a file. -/
structure Riff where
  bytes : List UInt8
  size : ℕ

/-- `self._file.read(n)`, when `pos` bytes of the RIFF chunk have been read: the file is eight
bytes ahead. -/
def Riff.read (riff : Riff) (n pos : ℕ) : List UInt8 × ℕ :=
  let got := chunkRead (fileRead riff.bytes) riff.size n (pos, 8 + pos)
  (got.1, got.2.1)

/-- A read counts what it got, and gets what lies below, or nothing. -/
theorem chunkRead_counts {σ : Type} (fileRead : ℕ → σ → List UInt8 × σ) (size n : ℕ)
    (state : ℕ × σ) :
    state.1 + (chunkRead fileRead size n state).1.length ≤ (chunkRead fileRead size n state).2.1 ∧
      ((chunkRead fileRead size n state).1 = [] ∨
        (chunkRead fileRead size n state).1 = (fileRead (min n (size - state.1)) state.2).1) := by
  unfold chunkRead
  split
  · exact ⟨le_rfl, Or.inl rfl⟩
  · dsimp only
    split
    · exact ⟨Nat.le_add_right _ _, Or.inr rfl⟩
    · exact ⟨le_rfl, Or.inr rfl⟩

/-- Nothing below goes back. -/
theorem chunkRead_below {fileRead : ℕ → ℕ → List UInt8 × ℕ} {size n : ℕ} {state : ℕ × ℕ}
    (h : ∀ k pos, pos ≤ (fileRead k pos).2) : state.2 ≤ (chunkRead fileRead size n state).2.2 := by
  unfold chunkRead
  split
  · exact le_rfl
  · dsimp only
    split
    · exact le_trans (h _ _) (h _ _)
    · exact h _ _

namespace Riff

theorem le_read (riff : Riff) (n pos : ℕ) : pos ≤ (riff.read n pos).2 := by
  have hcount := (chunkRead_counts (fileRead riff.bytes) riff.size n (pos, 8 + pos)).1
  rw [read]
  dsimp only at hcount ⊢
  omega

/-- What was read was there, and moves the position. -/
theorem read_moves {riff : Riff} {n pos k : ℕ} (hk : 0 < k)
    (h : k ≤ (riff.read n pos).1.length) :
    pos + k ≤ (riff.read n pos).2 ∧ pos + k ≤ riff.bytes.length := by
  obtain ⟨hcount, hdata⟩ := chunkRead_counts (fileRead riff.bytes) riff.size n (pos, 8 + pos)
  rw [read] at h ⊢
  dsimp only at h hcount ⊢
  refine ⟨by omega, ?_⟩
  rcases hdata with hnone | hsome
  · rw [hnone, List.length_nil] at h
    omega
  · rw [hsome, fileRead, length_readAt] at h
    omega

end Riff

/-! ## The format -/

/-- The fields of a `fmt ` chunk that are kept. -/
structure WaveFormat where
  channels : ℕ
  framerate : ℕ
  sampleWidth : ℕ
deriving DecidableEq, Repr

def WaveFormat.framesize (format : WaveFormat) : ℕ := format.channels * format.sampleWidth

/-- `WAVE_FORMAT_PCM`. -/
def waveFormatPcm : ℕ := 1

/-- `WAVE_FORMAT_EXTENSIBLE`. -/
def waveFormatExtensible : ℕ := 0xFFFE

/-- `KSDATAFORMAT_SUBTYPE_PCM`. -/
def subtypePcm : List UInt8 :=
  [0x01, 0x00, 0x00, 0x00, 0x00, 0x00, 0x10, 0x00, 0x80, 0x00, 0x00, 0xaa, 0x00, 0x38, 0x9b, 0x71]

/-- A read of exactly `n` bytes of the chunk, or an `EOFError`. -/
def Riff.readExactly (riff : Riff) (size n : ℕ) (state : ℕ × ℕ) :
    Except WaveFailure (List UInt8 × (ℕ × ℕ)) :=
  let got := chunkRead riff.read size n state
  if got.1.length < n then .error .eofError else .ok got

/-- The part of the chunk that an extensible format adds. -/
def Riff.readExtension (riff : Riff) (size formatTag : ℕ) (state : ℕ × ℕ) :
    Except WaveFailure (ℕ × ℕ) :=
  if formatTag = waveFormatExtensible then do
    let (_, state) ← riff.readExactly size 8 state
    let (subFormat, state) ← riff.readExactly size 16 state
    if subFormat = subtypePcm then .ok state else .error .error
  else .ok state

/-- `_read_fmt_chunk`: the format, and the state of the chunk behind it. -/
def Riff.readFmtChunk (riff : Riff) (size pos : ℕ) : Except WaveFailure (WaveFormat × (ℕ × ℕ)) := do
  let (header, state) ← riff.readExactly size 14 (0, pos)
  let formatTag := leNat (slice header 0 2)
  if formatTag ≠ waveFormatPcm ∧ formatTag ≠ waveFormatExtensible then .error .error
  else do
    let (bits, state) ← riff.readExactly size 2 state
    let state ← riff.readExtension size formatTag state
    let format : WaveFormat :=
      ⟨leNat (slice header 2 4), leNat (slice header 4 8), (leNat bits + 7) / 8⟩
    if format.sampleWidth = 0 then .error .error
    else if format.channels = 0 then .error .error
    else .ok (format, state)

namespace Riff

variable {riff : Riff} {size : ℕ}

theorem readExactly_below {n : ℕ} {state : ℕ × ℕ} {got : List UInt8 × (ℕ × ℕ)}
    (h : riff.readExactly size n state = .ok got) : state.2 ≤ got.2.2 := by
  unfold readExactly at h
  dsimp only at h
  split at h
  · cases h
  · obtain rfl := Except.ok.inj h
    exact chunkRead_below riff.le_read

theorem readExtension_below {formatTag : ℕ} {state after : ℕ × ℕ}
    (h : riff.readExtension size formatTag state = .ok after) : state.2 ≤ after.2 := by
  unfold readExtension at h
  split at h
  · obtain ⟨first, hfirst, h⟩ := except_bind_ok_iff.mp h
    obtain ⟨second, hsecond, h⟩ := except_bind_ok_iff.mp h
    dsimp only at h
    split at h
    · obtain rfl := Except.ok.inj h
      exact le_trans (readExactly_below hfirst) (readExactly_below hsecond)
    · cases h
  · obtain rfl := Except.ok.inj h
    exact le_rfl

/-- Reading the format does not go back. -/
theorem readFmtChunk_below {pos : ℕ} {got : WaveFormat × (ℕ × ℕ)}
    (h : riff.readFmtChunk size pos = .ok got) : pos ≤ got.2.2 := by
  obtain ⟨header, hheader, h⟩ := except_bind_ok_iff.mp h
  dsimp only at h
  split at h
  · cases h
  · obtain ⟨bits, hbits, h⟩ := except_bind_ok_iff.mp h
    obtain ⟨state, hstate, h⟩ := except_bind_ok_iff.mp h
    split_ifs at h
    obtain rfl := Except.ok.inj h
    exact le_trans (le_trans (readExactly_below hheader) (readExactly_below hbits))
      (readExtension_below hstate)

end Riff

/-! ## The chunks -/

/-- `b"fmt "`. -/
def fmtName : List UInt8 := [0x66, 0x6d, 0x74, 0x20]

/-- `b"data"`. -/
def dataName : List UInt8 := [0x64, 0x61, 0x74, 0x61]

/-- The format so far, behind a chunk that may bring one. -/
def Riff.formatAfter (riff : Riff) (name : List UInt8) (size : ℕ) (format : Option WaveFormat)
    (pos : ℕ) : Except WaveFailure (Option WaveFormat × (ℕ × ℕ)) :=
  if name = fmtName then (riff.readFmtChunk size pos).map fun got => (some got.1, got.2)
  else .ok (format, 0, pos)

theorem Riff.formatAfter_below {riff : Riff} {name : List UInt8} {size pos : ℕ}
    {format : Option WaveFormat} {got : Option WaveFormat × (ℕ × ℕ)}
    (h : riff.formatAfter name size format pos = .ok got) : pos ≤ got.2.2 := by
  unfold formatAfter at h
  split at h
  · cases hread : riff.readFmtChunk size pos with
    | error e =>
        rw [hread] at h
        cases h
    | ok read =>
        rw [hread] at h
        obtain rfl := Except.ok.inj h
        exact readFmtChunk_below hread
  · obtain rfl := Except.ok.inj h
    exact le_rfl

/-- The loop over the chunks, from `pos` on: frames and rate.  A chunk is skipped with its
padding; no read of it gets further than that. -/
def Riff.frames (riff : Riff) (format : Option WaveFormat) (pos : ℕ) : Except WaveFailure (ℕ × ℕ) :=
  let name := riff.read 4 pos
  if _hname : name.1.length < 4 then .error .error
  else
    let sizeField := riff.read 4 name.2
    if sizeField.1.length < 4 then .error .error
    else
      let size := leNat sizeField.1
      if name.1 = dataName then
        match format with
        | none => .error .error
        | some format => .ok (size / format.framesize, format.framerate)
      else
        match _hread : riff.formatAfter name.1 size format sizeField.2 with
        | .error e => .error e
        | .ok (format, sizeRead, behind) =>
            let next := behind + (size + size % 2 - sizeRead)
            if riff.size < next then .error .runtimeError else riff.frames format next
termination_by riff.bytes.length - pos
decreasing_by
  have hmoves : pos + 4 ≤ name.2 ∧ pos + 4 ≤ riff.bytes.length :=
    Riff.read_moves (by decide) (Nat.le_of_not_lt _hname)
  have hsize : name.2 ≤ sizeField.2 := riff.le_read 4 name.2
  have hbelow : sizeField.2 ≤ behind := Riff.formatAfter_below _hread
  omega

/-- `wave.open(file)`, `getnframes()` and `getframerate()`. -/
def waveOpen (bytes : List UInt8) : Except WaveFailure (ℕ × ℕ) :=
  let name := readAt bytes 0 4
  let sizeField := readAt bytes 4 4
  if name.length < 4 ∨ sizeField.length < 4 then .error .eofError
  else if name ≠ [0x52, 0x49, 0x46, 0x46] then .error .error
  else
    let riff : Riff := ⟨bytes, leNat sizeField⟩
    let form := riff.read 4 0
    if form.1 ≠ [0x57, 0x41, 0x56, 0x45] then .error .error else riff.frames none form.2

end SetadJang.Framework
