import Mathlib.Algebra.Group.Nat.Defs
import OtEsp32.Platform
import OtEsp32.Lib.WrapClock

/-!
# Alarm

`alarm.c`. The true time is `us`, the microseconds since boot that `esp_timer_get_time` returns;
`otPlatAlarmMilliGetNow` keeps the low 32 bits of its milliseconds.
-/

namespace OtEsp32

open WrapClock

/-- The statics of `alarm.c`. -/
structure Alarm where
  sAlarmT0 : UInt64
  sAlarmDt : UInt64
  sIsRunning : Bool
  deriving DecidableEq, Repr

def Alarm.init : Alarm := ⟨0, 0, false⟩

def otPlatAlarmMilliGetNow (us : Nat) : UInt32 := UInt32.ofNat (us / otUsPerMs.toNat)

def otPlatAlarmMilliStartAt (aT0 aDt : UInt32) : Alarm :=
  { sAlarmT0 := aT0.toUInt64, sAlarmDt := aDt.toUInt64, sIsRunning := true }

def otPlatAlarmMilliStop (alarm : Alarm) : Alarm := { alarm with sIsRunning := false }

def platformAlarmUpdate (us : Nat) (alarm : Alarm) (aMainloop : MainloopContext) :
    MainloopContext :=
  let now := otPlatAlarmMilliGetNow us
  if !alarm.sIsRunning then
    { aMainloop with mTimeout := ⟨int32Max, 0⟩ }
  else if alarm.sAlarmDt + alarm.sAlarmT0 > now.toUInt64 then
    let remaining := alarm.sAlarmDt + alarm.sAlarmT0 - now.toUInt64
    { aMainloop with
      mTimeout := ⟨(remaining / otMsPerS).toNat, (remaining % otMsPerS * otUsPerMs).toNat⟩ }
  else
    { aMainloop with mTimeout := ⟨0, 0⟩ }

inductive AlarmCallback where
  | otPlatDiagAlarmFired
  | otPlatAlarmMilliFired
  deriving DecidableEq, Repr

/-- The alarm as it is when the callback begins, and the callback, which is the last thing the
function does. `diagEnable` is `OPENTHREAD_CONFIG_DIAG_ENABLE`, `diagMode` what
`otPlatDiagModeGet` returns. -/
def platformAlarmProcess (diagEnable diagMode : Bool) (us : Nat) (alarm : Alarm) :
    Alarm × Option AlarmCallback :=
  if alarm.sIsRunning then
    if alarm.sAlarmT0 + alarm.sAlarmDt ≤ (otPlatAlarmMilliGetNow us).toUInt64 then
      let alarm := { alarm with sIsRunning := false }
      if diagEnable && diagMode then (alarm, some .otPlatDiagAlarmFired)
      else (alarm, some .otPlatAlarmMilliFired)
    else (alarm, none)
  else (alarm, none)

@[simp] theorem otPlatAlarmMilliGetNow_toNat (us : Nat) :
    (otPlatAlarmMilliGetNow us).toNat = us / 1000 % 2 ^ 32 := by
  have h : otUsPerMs.toNat = 1000 := rfl
  rw [otPlatAlarmMilliGetNow, UInt32.toNat_ofNat', h]

/-- The test that `platformAlarmProcess` and `platformAlarmUpdate` make of a running alarm. -/
def Alarm.due (alarm : Alarm) (us : Nat) : Prop :=
  alarm.sAlarmT0 + alarm.sAlarmDt ≤ (otPlatAlarmMilliGetNow us).toUInt64

instance (alarm : Alarm) (us : Nat) : Decidable (alarm.due us) :=
  inferInstanceAs (Decidable (_ ≤ _))

/-- The 64-bit sum of two widened 32-bit values does not wrap. -/
theorem due_startAt_iff (aT0 aDt : UInt32) (us : Nat) :
    (otPlatAlarmMilliStartAt aT0 aDt).due us ↔ aT0.toNat + aDt.toNat ≤ us / 1000 % 2 ^ 32 := by
  have h0 := aT0.toNat_lt
  have h1 := aDt.toNat_lt
  simp only [Alarm.due, otPlatAlarmMilliStartAt, UInt64.le_iff_toNat_le, UInt64.toNat_add,
    UInt32.toNat_toUInt64, otPlatAlarmMilliGetNow_toNat]
  rw [Nat.mod_eq_of_lt (by omega)]

/-- The test compares the faces that the instants show on the 32-bit clock. -/
theorem due_startAt_face (t0 : Nat) (aDt : UInt32) (us : Nat) :
    (otPlatAlarmMilliStartAt (UInt32.ofNat t0) aDt).due us ↔
      FaceDue (2 ^ 32) t0 aDt.toNat (us / 1000) := by
  rw [due_startAt_iff, UInt32.toNat_ofNat']
  exact Iff.rfl

/-- The call fires exactly when the alarm runs and is due, and then leaves it stopped. -/
theorem platformAlarmProcess_eq (diagEnable diagMode : Bool) (us : Nat) (alarm : Alarm) :
    platformAlarmProcess diagEnable diagMode us alarm =
      if alarm.sIsRunning = true ∧ alarm.due us then
        (otPlatAlarmMilliStop alarm,
          some (if diagEnable && diagMode then .otPlatDiagAlarmFired else .otPlatAlarmMilliFired))
      else (alarm, none) := by
  unfold platformAlarmProcess Alarm.due
  by_cases hr : alarm.sIsRunning = true
  · by_cases hd : alarm.sAlarmT0 + alarm.sAlarmDt ≤ (otPlatAlarmMilliGetNow us).toUInt64
    · simp only [hr, hd, and_self, if_true]
      split <;> rfl
    · simp [hr, hd]
  · simp [hr]

theorem platformAlarmProcess_fires_iff (diagEnable diagMode : Bool) (us : Nat) (alarm : Alarm) :
    (platformAlarmProcess diagEnable diagMode us alarm).2.isSome = true ↔
      alarm.sIsRunning = true ∧ alarm.due us := by
  rw [platformAlarmProcess_eq]
  split
  · rename_i h
    exact ⟨fun _ => h, fun _ => rfl⟩
  · rename_i h
    exact ⟨nofun, fun hd => absurd hd h⟩

end OtEsp32
