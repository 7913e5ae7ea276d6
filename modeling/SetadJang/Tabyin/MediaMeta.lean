import SetadJang.Framework.PyFloat
import SetadJang.Framework.PyWave
import SetadJang.Tabyin.Model
import SetadJang.Tabyin.Mp4Duration

/-!
# The metadata of a file

`extract_media_meta` reads the dimensions of an image through Pillow, the duration of a WAV
through `wave` and the duration of an MP4 by itself, and counts kilobytes.
-/

namespace SetadJang.Tabyin

open SetadJang.Framework

/-- An `UnidentifiedImageError`, `OSError` or `ValueError`, or another exception: a
decompression bomb, say. -/
inductive PillowError where
  | caught
  | other
deriving DecidableEq, Repr

/-- Pillow: the width and the height of an image, and `verify`. -/
structure Pillow where
  openImage : List UInt8 → Except PillowError (ℕ × ℕ)
  verify : List UInt8 → Except PillowError Unit

/-- What `extract_media_meta` raises: its `ValueError` for an image, or what it does not catch. -/
inductive MetaFailure where
  | unhealthyImage
  | pillow
  | wave (failure : WaveFailure)
  | mp4 (failure : Mp4Failure)
deriving DecidableEq, Repr

structure MediaMeta where
  size : String
  duration : ℤ
  fileSize : ℤ
deriving DecidableEq, Repr

/-- `f"{img.width}X{img.height}"`. -/
def dimensionsText (dimensions : ℕ × ℕ) : String :=
  toString dimensions.1 ++ "X" ++ toString dimensions.2

/-- `_extract_image_dimensions`. -/
def extractImageDimensions (pillow : Pillow) (file : List UInt8) : Except PillowError String := do
  let _ ← pillow.openImage file
  pillow.verify file
  let dimensions ← pillow.openImage file
  return dimensionsText dimensions

/-- `_extract_wav_duration`. -/
def extractWavDuration (file : List UInt8) : Except WaveFailure ℤ :=
  match waveOpen file with
  | .error .runtimeError => .error .runtimeError
  | .error .error => .ok 0
  | .error .eofError => .ok 0
  | .ok (frames, framerate) =>
      let rate := if framerate = 0 then 1 else framerate
      .ok (max 0 (pyRound (doubleDiv frames rate)))

/-- `file_size`. -/
def kilobytes (sizeBytes : ℕ) : ℤ :=
  if sizeBytes = 0 then 0 else max 1 ⌈doubleDiv sizeBytes 1024⌉

/-- `extract_media_meta`. -/
def extractMediaMeta (pillow : Pillow) (file : List UInt8) (mediaType : MediaType)
    (sizeBytes : ℕ) : Except MetaFailure MediaMeta :=
  match mediaType with
  | .image =>
      match extractImageDimensions pillow file with
      | .ok size => .ok ⟨size, 0, kilobytes sizeBytes⟩
      | .error .caught => .error .unhealthyImage
      | .error .other => .error .pillow
  | .audio =>
      match extractWavDuration file with
      | .ok duration => .ok ⟨"", duration, kilobytes sizeBytes⟩
      | .error failure => .error (.wave failure)
  | .video =>
      match extractMp4Duration doubleDiv file with
      | .ok duration => .ok ⟨"", duration, kilobytes sizeBytes⟩
      | .error failure => .error (.mp4 failure)
  | .other => .ok ⟨"", 0, kilobytes sizeBytes⟩

/-! ## Durations that fit -/

/-- The quotients that round to at most `2147483647` seconds, as doubles: those below a half more,
less half the distance of the doubles there. -/
def SecondsFit (amount rate : ℕ) : Prop :=
  (amount : ℚ) / rate < 2147483647 + 1 / 2 - 1 / 2 ^ 23

theorem secondsFit_iff {amount rate : ℕ} :
    max 0 (pyRound (doubleDiv amount rate)) ≤ (integerMax : ℤ) ↔ SecondsFit amount rate := by
  have hmax : (0 : ℤ) ≤ (integerMax : ℤ) := by decide
  rw [max_le_iff, and_iff_right hmax]
  exact pyRound_toDouble_le_iff _

/-- The frames of a WAV take no longer than the column holds. -/
def WavFits (file : List UInt8) : Prop :=
  ∀ frames framerate, waveOpen file = .ok (frames, framerate) →
    SecondsFit frames (if framerate = 0 then 1 else framerate)

/-- The movie header that the walks lead to, if any, is too short, has no timescale, or a
duration that the column holds. -/
def Mp4Fits (file : List UInt8) : Prop :=
  ∀ body ∈ foundMvhd file, 20 ≤ body.length → ∀ version ∈ body[0]?,
    let fields := mvhdFields version body
    fields.1 = 0 ∨ SecondsFit fields.2 fields.1

theorem mvhdDuration_fits_iff {body : List UInt8} {duration : ℤ}
    (h : mvhdDuration doubleDiv body = .ok duration) :
    duration ≤ (integerMax : ℤ) ↔ (20 ≤ body.length → ∀ version ∈ body[0]?,
      (mvhdFields version body).1 = 0 ∨
        SecondsFit (mvhdFields version body).2 (mvhdFields version body).1) := by
  have hzero : (0 : ℤ) ≤ (integerMax : ℤ) := by decide
  rcases Nat.lt_or_ge body.length 20 with hshort | hlong
  · rw [mvhdDuration_of_short hshort] at h
    obtain rfl := Except.ok.inj h
    exact iff_of_true hzero fun hlong => absurd hlong (by omega)
  · obtain ⟨version, hfirst, hduration⟩ := @mvhdDuration_of_long doubleDiv body hlong
    rw [hduration] at h
    obtain rfl := Except.ok.inj h
    simp only [hfirst, Option.mem_some_iff, forall_eq', hlong, forall_const]
    by_cases hscale : (mvhdFields version body).1 = 0
    · rw [if_pos hscale]
      exact iff_of_true hzero (Or.inl hscale)
    · rw [if_neg hscale, or_iff_right hscale, secondsFit_iff]

/-- The duration of an MP4 fits where its movie header does. -/
theorem extractMp4Duration_fits_iff {file : List UInt8} {duration : ℤ}
    (h : extractMp4Duration doubleDiv file = .ok duration) :
    duration ≤ (integerMax : ℤ) ↔ Mp4Fits file := by
  unfold Mp4Fits
  unfold extractMp4Duration at h
  split at h
  · next hnone =>
      obtain rfl := Except.ok.inj h
      rw [hnone]
      exact iff_of_true (by decide) fun body hbody => by cases hbody
  · next body hbody =>
      rw [hbody, mvhdDuration_fits_iff h]
      simp only [Option.mem_some_iff, forall_eq']

theorem extractWavDuration_of_ok {file : List UInt8} {frames framerate : ℕ}
    (h : waveOpen file = .ok (frames, framerate)) :
    extractWavDuration file =
      .ok (max 0 (pyRound (doubleDiv frames (if framerate = 0 then 1 else framerate)))) := by
  rw [extractWavDuration, h]

/-- Errors that `wave` documents make the duration nothing; its `RuntimeError` comes through. -/
theorem extractWavDuration_of_error {file : List UInt8} {failure : WaveFailure}
    (h : waveOpen file = .error failure) :
    extractWavDuration file =
      if failure = .runtimeError then .error .runtimeError else .ok 0 := by
  rw [extractWavDuration, h]
  cases failure <;> rfl

/-- The duration of a WAV fits where its frames do. -/
theorem extractWavDuration_fits_iff {file : List UInt8} {duration : ℤ}
    (h : extractWavDuration file = .ok duration) :
    0 ≤ duration ∧ (duration ≤ (integerMax : ℤ) ↔ WavFits file) := by
  unfold WavFits
  cases hopen : waveOpen file with
  | error failure =>
      rw [extractWavDuration_of_error hopen] at h
      split at h
      · cases h
      · obtain rfl := Except.ok.inj h
        exact ⟨le_rfl, iff_of_true (by decide) fun _ _ hnone => by cases hnone⟩
  | ok got =>
      obtain ⟨frames, framerate⟩ := got
      rw [extractWavDuration_of_ok hopen] at h
      obtain rfl := Except.ok.inj h
      refine ⟨le_max_left 0 _, ?_⟩
      rw [secondsFit_iff]
      constructor
      · rintro hfits _ _ ⟨⟩
        exact hfits
      · intro hall
        exact hall _ _ rfl

/-- The size in kilobytes fits up to two tebibytes, less one kilobyte. -/
theorem kilobytes_fits_iff (sizeBytes : ℕ) :
    0 ≤ kilobytes sizeBytes ∧
      (kilobytes sizeBytes ≤ (integerMax : ℤ) ↔ sizeBytes ≤ 2147483647 * 1024) := by
  unfold kilobytes
  split
  · next hzero =>
      exact ⟨le_rfl, iff_of_true (by decide) (by omega)⟩
  · have hone : (1 : ℤ) ≤ (integerMax : ℤ) := by decide
    refine ⟨le_trans zero_le_one (le_max_left 1 _), ?_⟩
    rw [max_le_iff, and_iff_right hone]
    exact ceil_doubleDiv_le_iff sizeBytes

end SetadJang.Tabyin
