import SetadJang.Framework.Runs
import SetadJang.Framework.Slots
import Mathlib.Logic.Function.Basic

/-!
# The global guard of one-time codes

`is_global_otp_guard_tripped` counts the requests for a code in the whole system, in windows
of a fixed length, and stops them past a threshold.  A call reads the counter and then either
increments it or, when it was missing, writes a first one.  Between the read and the write
other workers may have counted, and the write starts their count anew.
-/

namespace SetadJang.Authentication

open SetadJang.Framework

/-- Where a worker is in a call. -/
inductive GuardPhase
  /-- Before `cache.get`. -/
  | start
  /-- The counter was there: `cache.incr` is next. -/
  | counted
  /-- The counter was missing, or expired before `cache.incr`: `cache.set` is next. -/
  | missing
deriving DecidableEq, Repr

/-- `AUTH_OTP_GLOBAL_THRESHOLD` and `AUTH_OTP_GLOBAL_WINDOW_SECONDS`. -/
structure GlobalGuardSettings where
  threshold : ℤ
  windowSeconds : ℤ
deriving DecidableEq, Repr

/-- The counter key and the workers; beside them, since the key last expired, the calls that
returned `False` and the times the key was written anew. -/
structure GlobalGuard where
  counter : Slot ℕ
  workers : ℕ → GuardPhase
  falses : ℕ
  writes : ℕ

namespace GlobalGuard

/-- The key is gone once its timeout has passed. -/
def expire (now : ℤ) (s : GlobalGuard) : GlobalGuard :=
  match s.counter with
  | some entry =>
      if now < entry.expiresAt then s else { s with counter := none, falses := 0, writes := 0 }
  | none => s

/-- The call returns: `counter > threshold`. -/
def answer (cfg : GlobalGuardSettings) (worker counter : ℕ) (s : GlobalGuard) : GlobalGuard :=
  { s with
    workers := Function.update s.workers worker .start
    falses := if cfg.threshold < counter then s.falses else s.falses + 1 }

def toPhase (worker : ℕ) (phase : GuardPhase) (s : GlobalGuard) : GlobalGuard :=
  { s with workers := Function.update s.workers worker phase }

/-- The next cache operation of a worker's call. -/
def advance (cfg : GlobalGuardSettings) (worker : ℕ) (now : ℤ) (s : GlobalGuard) : GlobalGuard :=
  match s.workers worker with
  | .start =>
      match s.counter.get now with
      | none => s.toPhase worker .missing
      | some _ => s.toPhase worker .counted
  | .counted =>
      match s.counter.incr now with
      | some (counter, slot) => { s with counter := slot }.answer cfg worker counter
      | none => s.toPhase worker .missing
  | .missing =>
      { s with
        counter := Slot.put now cfg.windowSeconds 1
        writes := s.writes + 1 }.answer cfg worker 1

/-- A worker moves at an instant; the key may have expired before. -/
def step (cfg : GlobalGuardSettings) (s : GlobalGuard) (act : ℕ × ℤ) : GlobalGuard :=
  (s.expire act.2).advance cfg act.1 act.2

def init : GlobalGuard := ⟨none, fun _ => .start, 0, 0⟩

/-- The worker that writes a first counter finds the key still missing. -/
def WritesOnce (s : GlobalGuard) (act : ℕ × ℤ) : Prop :=
  s.workers act.1 = .missing → (s.expire act.2).counter = none

/-! ## Counting -/

/-- Every write of the key lets at most the threshold through, the last one no more than it
has counted. -/
structure Counts (cfg : GlobalGuardSettings) (s : GlobalGuard) : Prop where
  idle : s.counter = none → s.falses = 0 ∧ s.writes = 0
  running : ∀ entry, s.counter = some entry → 1 ≤ s.writes ∧
    s.falses + cfg.threshold.toNat ≤
      s.writes * cfg.threshold.toNat + min entry.value cfg.threshold.toNat

section counts

variable {cfg : GlobalGuardSettings} {s : GlobalGuard}

theorem counts_init : Counts cfg init where
  idle := fun _ => ⟨rfl, rfl⟩
  running := by
    intro entry hentry
    cases hentry

theorem counts_expire (h : Counts cfg s) (now : ℤ) : Counts cfg (s.expire now) := by
  unfold expire
  split
  · split
    · exact h
    · constructor
      · exact fun _ => ⟨rfl, rfl⟩
      · intro entry hentry
        cases hentry
  · exact h

theorem counts_toPhase (h : Counts cfg s) (worker : ℕ) (phase : GuardPhase) :
    Counts cfg (s.toPhase worker phase) := ⟨h.idle, h.running⟩

/-- **Step lemma.** Every cache operation keeps the account. -/
theorem counts_advance (h : Counts cfg s) (worker : ℕ) (now : ℤ) :
    Counts cfg (s.advance cfg worker now) := by
  unfold advance
  cases s.workers worker with
  | start =>
      dsimp only
      split <;> exact counts_toPhase h worker _
  | counted =>
      dsimp only
      cases hcounter : s.counter with
      | none => exact counts_toPhase h worker _
      | some entry =>
          obtain ⟨hwrites, hfalses⟩ := h.running entry hcounter
          by_cases hlive : now < entry.expiresAt
          · rw [Slot.incr_of_lt hlive]
            refine ⟨nofun, fun entry' hentry' => ⟨hwrites, ?_⟩⟩
            obtain rfl := Option.some.inj hentry'
            show (if cfg.threshold < ((entry.value + 1 : ℕ) : ℤ) then s.falses else s.falses + 1) +
              _ ≤ s.writes * _ + min (entry.value + 1) _
            split <;> omega
          · rw [Slot.incr_eq_none_iff.mpr (by rintro ⟨_, ⟨⟩, hlt⟩; exact hlive hlt)]
            exact counts_toPhase h worker _
  | missing =>
      refine ⟨nofun, fun entry hentry => ?_⟩
      obtain rfl := Option.some.inj hentry
      refine ⟨Nat.le_add_left _ _, ?_⟩
      show (if cfg.threshold < ((1 : ℕ) : ℤ) then s.falses else s.falses + 1) + _ ≤
        (s.writes + 1) * _ + min 1 _
      have hbefore : s.falses ≤ s.writes * cfg.threshold.toNat := by
        cases hcounter : s.counter with
        | none => rw [(h.idle hcounter).1]; exact Nat.zero_le _
        | some entry =>
            have hfalses := (h.running entry hcounter).2
            omega
      rw [Nat.succ_mul]
      split <;> omega

theorem counts_step (h : Counts cfg s) (act : ℕ × ℤ) : Counts cfg (s.step cfg act) :=
  counts_advance (counts_expire h act.2) act.1 act.2

theorem writes_expire_le (now : ℤ) : (s.expire now).writes ≤ s.writes := by
  unfold expire
  split
  · split
    · exact Nat.le_refl _
    · exact Nat.zero_le _
  · exact Nat.le_refl _

/-- A cache operation writes the key when its worker found it missing, and only then. -/
theorem writes_advance (worker : ℕ) (now : ℤ) :
    (s.advance cfg worker now).writes =
      if s.workers worker = .missing then s.writes + 1 else s.writes := by
  unfold advance
  cases s.workers worker with
  | start =>
      dsimp only
      split <;> rfl
  | counted =>
      dsimp only
      split <;> rfl
  | missing => rfl

theorem workers_expire (now : ℤ) : (s.expire now).workers = s.workers := by
  unfold expire
  split
  · split <;> rfl
  · rfl

/-- A step that finds the key still missing makes the first write since it expired. -/
theorem writes_step (h : Counts cfg s) (hone : s.writes ≤ 1) {act : ℕ × ℤ}
    (honce : s.WritesOnce act) : (s.step cfg act).writes ≤ 1 := by
  have hbefore := Nat.le_trans (writes_expire_le act.2) hone
  unfold step
  rw [writes_advance, workers_expire]
  split_ifs with hmissing
  · rw [((counts_expire h act.2).idle (honce hmissing)).2]
  · exact hbefore

end counts

/-- Since the key last expired, each write of it has let at most the threshold through. -/
theorem falses_le_writes (cfg : GlobalGuardSettings) (acts : List (ℕ × ℤ)) :
    (run (step cfg) init acts).falses ≤
      (run (step cfg) init acts).writes * cfg.threshold.toNat := by
  have h : Counts cfg (run (step cfg) init acts) :=
    invariant_run (I := Counts cfg) (fun s act hs => counts_step hs act) counts_init acts
  cases hcounter : (run (step cfg) init acts).counter with
  | none =>
      rw [(h.idle hcounter).1]
      exact Nat.zero_le _
  | some entry =>
      have hfalses := (h.running entry hcounter).2
      omega

/-- **The global guard.** In every run in which a worker that found the counter missing writes
it only while it is still missing, at most the threshold of calls return `False` between two
expiries of the key. -/
theorem global_guard_falses_le {cfg : GlobalGuardSettings} {acts : List (ℕ × ℤ)}
    (honce : Along (step cfg) WritesOnce init acts) :
    (run (step cfg) init acts).falses ≤ cfg.threshold.toNat := by
  have hwrites : Counts cfg (run (step cfg) init acts) ∧ (run (step cfg) init acts).writes ≤ 1 :=
    invariant_along (I := fun s => Counts cfg s ∧ s.writes ≤ 1)
      (fun s act hs hact => ⟨counts_step hs.1 act, writes_step hs.1 hs.2 hact⟩)
      ⟨counts_init, Nat.zero_le 1⟩ honce
  calc (run (step cfg) init acts).falses
      ≤ (run (step cfg) init acts).writes * cfg.threshold.toNat := falses_le_writes cfg acts
    _ ≤ 1 * cfg.threshold.toNat := Nat.mul_le_mul_right _ hwrites.2
    _ = cfg.threshold.toNat := Nat.one_mul _

/-- Two workers whose calls overlap, after a first write. -/
theorem global_guard_two_workers :
    (run (step ⟨2, 60⟩) init
      [(0, 0), (0, 0), (0, ticks 1), (1, ticks 1), (1, ticks 2), (0, ticks 2)]).falses ≤ 2 :=
  global_guard_falses_le
    ⟨nofun, fun _ => rfl, nofun, nofun, nofun, nofun, trivial⟩

/-- Both workers find the counter missing.  The first writes it and a further call counts; the
second writes it anew: three calls of two pass. -/
theorem global_guard_written_anew :
    ¬ (run (step ⟨2, 60⟩) init
      [(0, 0), (1, 0), (0, ticks 1), (0, ticks 1), (0, ticks 2), (1, ticks 2)]).falses ≤ 2 := by
  decide +kernel

end GlobalGuard

end SetadJang.Authentication
