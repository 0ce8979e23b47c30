import IGate.Countdown
import Mathlib

/-! The countdown to the next attempt in numbers: what a failure starts, and what the clock
takes. -/

namespace IGate

theorem Duration.toNat_millisWord_eq (d : Duration) :
    (millisWord d).toNat = min (millis d) (UInt64.size - 1) := by
  unfold millisWord
  split
  · next h =>
    rw [UInt64.toNat_ofNat_of_lt' h]
    omega
  · next h =>
    rw [UInt64.toNat_ofNat_of_lt' (by decide)]
    omega

theorem Duration.toNat_millisWord_ofMillis {ms : Nat} (h : ms < UInt64.size) :
    (millisWord (ofMillis ms)).toNat = ms := by
  rw [toNat_millisWord_eq, millis_ofMillis]
  omega

namespace Countdown

theorem toNat_left_clock (t : Countdown) (ms : UInt64) :
    (t.clock ms).left.toNat = t.left.toNat - ms.toNat := by
  unfold clock left
  cases hr : t.running with
  | false => simp [hr]
  | true =>
    by_cases h : ms ≤ t.remaining
    · simp [h, UInt64.toNat_sub_of_le _ _ h]
    · have hlt : t.remaining.toNat < ms.toNat := by
        simpa [UInt64.le_iff_toNat_le] using h
      simp only [if_true, h, if_false, UInt64.toNat_zero]
      omega

@[simp] theorem running_clock (t : Countdown) (ms : UInt64) :
    (t.clock ms).running = t.running := by
  unfold clock
  split <;> rfl

@[simp] theorem timeout_clock (t : Countdown) (ms : UInt64) :
    (t.clock ms).timeout = t.timeout := by
  unfold clock
  split <;> rfl

theorem clock_of_stopped {t : Countdown} (h : t.running = false) (ms : UInt64) :
    t.clock ms = t := by
  simp [clock, h]

theorem expired_iff (t : Countdown) : t.expired = true ↔ t.running = true ∧ t.left.toNat = 0 := by
  unfold expired left
  cases t.running <;> simp [← UInt64.toNat_inj]

end Countdown

namespace Backoff

variable {b : Backoff} {ms : UInt64}

theorem delayAfter_eq (attempts : Nat) :
    delayAfter attempts = Duration.ofMillis (attempts * 60000) := by
  simp only [delayAfter, reconnectStep, Duration.ofSeconds, Duration.ofMillis,
    Duration.perSecond, Duration.perMilli]
  ring

theorem attempts_fail : b.fail.attempts = min (b.attempts + 1) maxAttempts := rfl

theorem one_le_attempts_fail : 1 ≤ b.fail.attempts := by
  simp [attempts_fail, maxAttempts]

theorem attempts_fail_le : b.fail.attempts ≤ maxAttempts := by
  rw [attempts_fail]
  exact Nat.min_le_right _ _

/-- A minute for each failure in a row, up to ten. -/
theorem toNat_delay_fail : b.fail.delay.toNat = b.fail.attempts * 60000 := by
  have hle : b.fail.attempts ≤ 10 := attempts_fail_le
  have hd : b.fail.delay = Duration.millisWord (delayAfter b.fail.attempts) := rfl
  rw [hd, delayAfter_eq]
  apply Duration.toNat_millisWord_ofMillis
  simp only [UInt64.size]
  omega

@[simp] theorem left_fail : b.fail.left = b.fail.delay := rfl

@[simp] theorem running_clock : (b.clock ms).running = b.running := Countdown.running_clock _ _
@[simp] theorem delay_clock : (b.clock ms).delay = b.delay := Countdown.timeout_clock _ _
@[simp] theorem attempts_clock : (b.clock ms).attempts = b.attempts := rfl

theorem toNat_left_clock : (b.clock ms).left.toNat = b.left.toNat - ms.toNat :=
  Countdown.toNat_left_clock _ _

theorem clock_of_stopped (h : b.running = false) (ms : UInt64) : b.clock ms = b := by
  rw [clock, Countdown.clock_of_stopped h]

theorem expired_clock_iff (hr : b.running = true) :
    (b.clock ms).expired = true ↔ b.left.toNat ≤ ms.toNat := by
  have h := Countdown.expired_iff (b.countdown.clock ms)
  rw [Countdown.running_clock, Countdown.toNat_left_clock] at h
  exact h.trans ⟨fun h => by have := h.2; simp only [left]; omega,
    fun h => ⟨hr, by simp only [left] at h; omega⟩⟩

end Backoff

end IGate
