import OtEsp32.Alarm
import OtEsp32.VfsEvent

/-!
# Mainloop

`otSysMainloopInit` and `otSysMainloopUpdate` of `system.c`, with the drivers they call, and what
the timeout is that they leave.
-/

namespace OtEsp32

/-- The descriptors that the drivers hold open. -/
structure Fds where
  sEventFd : Int
  sCliUartFd : Int
  mUartFd : Int
  deriving DecidableEq, Repr

def otSysMainloopInit : MainloopContext :=
  { mReadFdSet := []
    mWriteFdSet := []
    mErrorFdSet := []
    mMaxFd := -1
    mTimeout := ⟨10, 0⟩ }

def platformCliUartUpdate (sCliUartFd : Int) (aMainloop : MainloopContext) : MainloopContext :=
  aMainloop.addRead sCliUartFd

/-- `HdlcInterface::Update` -/
def hdlcUpdate (mUartFd : Int) (aMainloop : MainloopContext) : MainloopContext :=
  aMainloop.addRead mUartFd

def platformRadioUpdate (mUartFd : Int) (aMainloop : MainloopContext) : MainloopContext :=
  hdlcUpdate mUartFd aMainloop

def otSysMainloopUpdate (fds : Fds) (us : Nat) (alarm : Alarm) (otTaskletsArePending : Bool)
    (aMainloop : MainloopContext) : MainloopContext :=
  let aMainloop := platformVfsEventUpdate fds.sEventFd aMainloop
  let aMainloop := platformAlarmUpdate us alarm aMainloop
  let aMainloop := platformCliUartUpdate fds.sCliUartFd aMainloop
  let aMainloop := platformRadioUpdate fds.mUartFd aMainloop
  if otTaskletsArePending then { aMainloop with mTimeout := ⟨0, 0⟩ } else aMainloop

section Timeout

variable {fds : Fds} {us : Nat} {alarm : Alarm} {pending : Bool} {aMainloop : MainloopContext}

theorem platformAlarmUpdate_stopped (h : alarm.sIsRunning = false) :
    (platformAlarmUpdate us alarm aMainloop).mTimeout = ⟨int32Max, 0⟩ := by
  simp [platformAlarmUpdate, h]

theorem platformAlarmUpdate_due (hr : alarm.sIsRunning = true) (hd : alarm.due us) :
    (platformAlarmUpdate us alarm aMainloop).mTimeout = .zero := by
  unfold Alarm.due at hd
  have hd : ¬ alarm.sAlarmDt + alarm.sAlarmT0 > (otPlatAlarmMilliGetNow us).toUInt64 := by
    rw [UInt64.add_comm]
    exact UInt64.not_lt.mpr hd
  simp [platformAlarmUpdate, hr, hd, Timeval.zero]

/-- The seconds and microseconds into which `platformAlarmUpdate` splits a time in milliseconds. -/
theorem splitMs_us (remaining : UInt64) :
    Timeval.us ⟨(remaining / otMsPerS).toNat, (remaining % otMsPerS * otUsPerMs).toNat⟩ =
      remaining.toNat * 1000 := by
  have hs : otMsPerS.toNat = 1000 := rfl
  have hu : otUsPerMs.toNat = 1000 := rfl
  have hmod : remaining.toNat % 1000 < 1000 := Nat.mod_lt _ (by decide)
  simp only [Timeval.us, UInt64.toNat_div, UInt64.toNat_mul, UInt64.toNat_mod, hs, hu]
  rw [Nat.mod_eq_of_lt (by omega)]
  omega

/-- The timeout of an alarm that is not due is the time that remains, exactly. -/
theorem platformAlarmUpdate_us (hr : alarm.sIsRunning = true) (hd : ¬ alarm.due us) :
    (platformAlarmUpdate us alarm aMainloop).mTimeout.us =
      ((alarm.sAlarmT0 + alarm.sAlarmDt).toNat - us / 1000 % 2 ^ 32) * 1000 := by
  unfold Alarm.due at hd
  have hlt : (otPlatAlarmMilliGetNow us).toUInt64 < alarm.sAlarmDt + alarm.sAlarmT0 := by
    rw [UInt64.add_comm]
    exact UInt64.not_le.mp hd
  unfold platformAlarmUpdate
  simp only [hr, Bool.not_true, Bool.false_eq_true, if_false, gt_iff_lt, if_pos hlt]
  rw [splitMs_us, UInt64.toNat_sub_of_le _ _ (UInt64.le_of_lt hlt), UInt64.add_comm,
    UInt32.toNat_toUInt64, otPlatAlarmMilliGetNow_toNat]

theorem due_iff_toNat :
    alarm.due us ↔ (alarm.sAlarmT0 + alarm.sAlarmDt).toNat ≤ us / 1000 % 2 ^ 32 := by
  rw [Alarm.due, UInt64.le_iff_toNat_le, UInt32.toNat_toUInt64, otPlatAlarmMilliGetNow_toNat]

theorem platformAlarmUpdate_zero_iff :
    (platformAlarmUpdate us alarm aMainloop).mTimeout = .zero ↔
      alarm.sIsRunning = true ∧ alarm.due us := by
  constructor
  · intro h
    cases hr : alarm.sIsRunning with
    | false =>
      rw [platformAlarmUpdate_stopped hr] at h
      cases h
    | true =>
      refine ⟨rfl, Decidable.byContradiction fun hd => ?_⟩
      rw [Timeval.eq_zero_iff, platformAlarmUpdate_us hr hd] at h
      rw [due_iff_toNat] at hd
      omega
  · rintro ⟨hr, hd⟩
    exact platformAlarmUpdate_due hr hd

theorem otSysMainloopUpdate_pending :
    (otSysMainloopUpdate fds us alarm true aMainloop).mTimeout = .zero := rfl

theorem otSysMainloopUpdate_idle :
    (otSysMainloopUpdate fds us alarm false aMainloop).mTimeout =
      (platformAlarmUpdate us alarm (platformVfsEventUpdate fds.sEventFd aMainloop)).mTimeout :=
  rfl

/-- The timeout is zero exactly when a tasklet is pending or the alarm is due. -/
theorem otSysMainloopUpdate_zero_iff :
    (otSysMainloopUpdate fds us alarm pending aMainloop).mTimeout = .zero ↔
      pending = true ∨ (alarm.sIsRunning = true ∧ alarm.due us) := by
  cases pending with
  | true => simp [otSysMainloopUpdate_pending]
  | false => simp [otSysMainloopUpdate_idle, platformAlarmUpdate_zero_iff]

end Timeout

end OtEsp32
