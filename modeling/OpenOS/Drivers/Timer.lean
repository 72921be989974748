import Mathlib

/-! The tick counter of `drivers/timer.c`. The PIT's port writes change nothing the model
reads. `timer_get_uptime_ms` cuts the 64-bit tick count to 32 bits and multiplies by 1000 in
32 bits, so the uptime is exact only while `ticks * 1000` stays below `2^32`: at 100 Hz, for
4294967 ticks, just under twelve hours. At the next tick the product wraps and the uptime
falls back to 7 ms. -/
namespace OpenOS.Drivers

/-- The static state of the driver: `system_ticks` and `timer_frequency`. -/
structure Timer where
  systemTicks : UInt64
  timerFrequency : UInt32

/-- Both statics start at 0. -/
def Timer.boot : Timer := ⟨0, 0⟩

/-- `timer_init`: the frequency, and the tick counter reset. -/
def timerInit (frequency : UInt32) (timer : Timer) : Timer :=
  { timer with timerFrequency := frequency, systemTicks := 0 }

/-- `timer_handler`: one more tick. -/
def timerHandler (timer : Timer) : Timer := { timer with systemTicks := timer.systemTicks + 1 }

/-- `timer_get_uptime_ms`. -/
def timerGetUptimeMs (timer : Timer) : UInt64 :=
  if timer.timerFrequency = 0 then 0
  else
    -- 32-bit arithmetic, to avoid the 64-bit division of `__udivdi3`
    let ticksLow := timer.systemTicks.toUInt32
    let ms := ticksLow * 1000 / timer.timerFrequency
    ms.toUInt64

/-- The driver after `timer_init(frequency)` and `t` ticks. -/
def ticked (frequency : UInt32) (t : Nat) : Timer := timerHandler^[t] (timerInit frequency Timer.boot)

theorem toNat_systemTicks_ticked (frequency : UInt32) (t : Nat) :
    (ticked frequency t).systemTicks.toNat = t % 2^64 := by
  induction t with
  | zero => rfl
  | succ t ih =>
    rw [ticked, Function.iterate_succ_apply', ← ticked, timerHandler]
    rw [UInt64.toNat_add, ih, show (1 : UInt64).toNat = 1 from rfl, Nat.mod_add_mod]

@[simp] theorem timerFrequency_ticked (frequency : UInt32) (t : Nat) :
    (ticked frequency t).timerFrequency = frequency := by
  induction t with
  | zero => rfl
  | succ t ih => rw [ticked, Function.iterate_succ_apply', ← ticked, timerHandler, ih]

theorem toNat_timerGetUptimeMs (frequency : UInt32) (positive : frequency ≠ 0) (t : Nat) :
    (timerGetUptimeMs (ticked frequency t)).toNat = t % 2^32 * 1000 % 2^32 / frequency.toNat := by
  rw [timerGetUptimeMs, timerFrequency_ticked, if_neg positive]
  simp only [UInt32.toNat_toUInt64, UInt32.toNat_div, UInt32.toNat_mul, UInt64.toNat_toUInt32,
    toNat_systemTicks_ticked, show (1000 : UInt32).toNat = 1000 from rfl]
  rw [Nat.mod_mod_of_dvd t (by norm_num : 2^32 ∣ 2^64)]

theorem uptime_exact (frequency : UInt32) (positive : frequency ≠ 0) (t : Nat) (fits : t * 1000 < 2^32) :
    (timerGetUptimeMs (ticked frequency t)).toNat = t * 1000 / frequency.toNat := by
  rw [toNat_timerGetUptimeMs frequency positive, Nat.mod_eq_of_lt (by omega : t < 2^32),
    Nat.mod_eq_of_lt fits]

/-- So over that range it never decreases from one tick to the next. -/
theorem uptime_monotone (frequency : UInt32) (positive : frequency ≠ 0) (t : Nat)
    (fits : (t + 1) * 1000 < 2^32) :
    (timerGetUptimeMs (ticked frequency t)).toNat ≤ (timerGetUptimeMs (ticked frequency (t + 1))).toNat := by
  have step : t * 1000 ≤ (t + 1) * 1000 := Nat.mul_le_mul_right 1000 (Nat.le_succ t)
  rw [uptime_exact frequency positive t (lt_of_le_of_lt step fits),
    uptime_exact frequency positive (t + 1) fits]
  exact Nat.div_le_div_right step

theorem uptime_monotone_hundred :
    (100 : UInt32) ≠ 0 ∧ (41 + 1) * 1000 < 2^32 ∧
      (timerGetUptimeMs (ticked 100 41)).toNat ≤ (timerGetUptimeMs (ticked 100 (41 + 1))).toNat :=
  ⟨by decide, by decide, uptime_monotone 100 (by decide) 41 (by decide)⟩

/-- At 100 Hz, tick 4294967 gives 42949670 ms, and the next tick gives 7 ms where
`4294968 * 1000 / 100` is 42949680: the 32-bit product has wrapped, long before `2^32`
ticks. -/
theorem timer_uptime_wraps :
    (4294968 : Nat) < 2^32 ∧
      (timerGetUptimeMs (ticked 100 4294967)).toNat = 42949670 ∧
      (timerGetUptimeMs (ticked 100 4294968)).toNat = 7 ∧ 4294968 * 1000 / 100 = 42949680 := by
  refine ⟨by norm_num, ?_, ?_, by norm_num⟩
  · rw [toNat_timerGetUptimeMs 100 (by decide)]
    rfl
  · rw [toNat_timerGetUptimeMs 100 (by decide)]
    rfl

end OpenOS.Drivers
