import OtEsp32.Mainloop

/-!
# AlarmTimeout

The timeout that `otSysMainloopUpdate` leaves for `select`, against the alarm that it is taken from
and against `platformAlarmProcess` after the sleep.

The alarm is one started at `T0`, an instant in milliseconds of which `otPlatAlarmMilliStartAt` was
given the low 32 bits, and neither stopped nor fired since. The update is at `t` and the process at
`t'`, in microseconds. `timeout_agrees_iff` says when the two agree with true time.
-/

namespace OtEsp32

open WrapClock

def alarmAt (T0 : Nat) (aDt : UInt32) : Alarm := otPlatAlarmMilliStartAt (UInt32.ofNat T0) aDt

/-- When the alarm seems to be due to who looks at the clock in millisecond `b`. -/
def shownDeadline (T0 : Nat) (aDt : UInt32) (b : Nat) : Nat :=
  T0 + aDt.toNat + 2 ^ 32 * wraps (2 ^ 32) T0 b

section Remaining

variable {T0 t t' : Nat} {aDt : UInt32} {aMainloop : MainloopContext}

theorem ofNat_face (T0 : Nat) : (UInt32.ofNat T0).toNat = T0 % 2 ^ 32 := UInt32.toNat_ofNat'

theorem alarmAt_due_iff (h : T0 ≤ t / 1000) :
    (alarmAt T0 aDt).due t ↔ shownDeadline T0 aDt (t / 1000) ≤ t / 1000 := by
  rw [alarmAt, due_startAt_face]
  exact faceDue_iff h

theorem alarmAt_sum (T0 : Nat) (aDt : UInt32) :
    ((alarmAt T0 aDt).sAlarmT0 + (alarmAt T0 aDt).sAlarmDt).toNat = T0 % 2 ^ 32 + aDt.toNat := by
  have h0 := (UInt32.ofNat T0).toNat_lt
  have h1 := aDt.toNat_lt
  have hf := ofNat_face T0
  simp only [alarmAt, otPlatAlarmMilliStartAt, UInt64.toNat_add, UInt32.toNat_toUInt64]
  rw [Nat.mod_eq_of_lt (by omega), hf]

/-- No subtraction in `platformAlarmUpdate` goes below 0, due or not. -/
theorem alarmAt_update_us (T0 : Nat) (aDt : UInt32) (t : Nat) (aMainloop : MainloopContext) :
    (platformAlarmUpdate t (alarmAt T0 aDt) aMainloop).mTimeout.us =
      (T0 % 2 ^ 32 + aDt.toNat - t / 1000 % 2 ^ 32) * 1000 := by
  by_cases hd : (alarmAt T0 aDt).due t
  · rw [platformAlarmUpdate_due rfl hd]
    rw [due_iff_toNat, alarmAt_sum] at hd
    simp only [Timeval.zero, Timeval.us]
    omega
  · rw [platformAlarmUpdate_us rfl hd, alarmAt_sum]

theorem alarmAt_update_shown (h : T0 ≤ t / 1000) :
    (platformAlarmUpdate t (alarmAt T0 aDt) aMainloop).mTimeout.us =
      (shownDeadline T0 aDt (t / 1000) - t / 1000) * 1000 := by
  rw [alarmAt_update_us, face_remaining h]
  rfl

theorem platformAlarmUpdate_usec_lt (us : Nat) (alarm : Alarm) (aMainloop : MainloopContext) :
    (platformAlarmUpdate us alarm aMainloop).mTimeout.tvUsec < 1000000 := by
  have hs : otMsPerS.toNat = 1000 := rfl
  have hu : otUsPerMs.toNat = 1000 := rfl
  unfold platformAlarmUpdate
  simp only
  split
  · exact Nat.zero_lt_succ _
  · split
    · generalize alarm.sAlarmDt + alarm.sAlarmT0 - (otPlatAlarmMilliGetNow us).toUInt64 = remaining
      have hmod : remaining.toNat % 1000 < 1000 := Nat.mod_lt _ (by decide)
      simp only [UInt64.toNat_mul, UInt64.toNat_mod, hs, hu]
      rw [Nat.mod_eq_of_lt (by omega)]
      omega
    · exact Nat.zero_lt_succ _

theorem alarmAt_fires_iff (diagEnable diagMode : Bool) (h : T0 ≤ t / 1000) :
    (platformAlarmProcess diagEnable diagMode t (alarmAt T0 aDt)).2.isSome = true ↔
      shownDeadline T0 aDt (t / 1000) ≤ t / 1000 := by
  rw [platformAlarmProcess_fires_iff, alarmAt_due_iff h]
  exact ⟨And.right, fun hd => ⟨rfl, hd⟩⟩

end Remaining

/-! ## The agreement -/

/-- The timeout of an update at `t` with the alarm, and the process at `t'` after it. -/
structure TimeoutAgrees (fds : Fds) (aMainloop : MainloopContext) (diagEnable diagMode : Bool)
    (T0 : Nat) (aDt : UInt32) (otTaskletsArePending : Bool) (t t' : Nat) : Prop where
  normalised : (otSysMainloopUpdate fds t (alarmAt T0 aDt) otTaskletsArePending
    aMainloop).mTimeout.tvUsec < 1000000
  no_underflow : (platformAlarmUpdate t (alarmAt T0 aDt) aMainloop).mTimeout.us =
    ((UInt32.ofNat T0).toNat + aDt.toNat - (otPlatAlarmMilliGetNow t).toNat) * 1000
  exact : (otSysMainloopUpdate fds t (alarmAt T0 aDt) otTaskletsArePending aMainloop).mTimeout.us =
    if otTaskletsArePending then 0 else (T0 + aDt.toNat - t / 1000) * 1000
  elapsed : t + (platformAlarmUpdate t (alarmAt T0 aDt) aMainloop).mTimeout.us ≤ t' →
    (platformAlarmProcess diagEnable diagMode t' (alarmAt T0 aDt)).2.isSome = true
  earlier :
    t' / 1000 < (t + (platformAlarmUpdate t (alarmAt T0 aDt) aMainloop).mTimeout.us) / 1000 →
    (platformAlarmProcess diagEnable diagMode t' (alarmAt T0 aDt)).2.isSome = false

/-- The wraps of the clock do no harm: until `t` there is none, or the deadline with all of them has
passed; from `t` to `t'` there is none, or the same, or the sleep is cut short. -/
structure WrapsHarmless (T0 : Nat) (aDt : UInt32) (otTaskletsArePending : Bool) (t t' : Nat) :
    Prop where
  update : otTaskletsArePending = true ∨ wraps (2 ^ 32) T0 (t / 1000) = 0 ∨
    shownDeadline T0 aDt (t / 1000) ≤ t / 1000
  process : wraps (2 ^ 32) T0 (t' / 1000) = wraps (2 ^ 32) T0 (t / 1000) ∨
    shownDeadline T0 aDt (t' / 1000) ≤ t' / 1000 ∨
    t' < t + (shownDeadline T0 aDt (t / 1000) - t / 1000) * 1000

section Agreement

variable {T0 t t' : Nat} {aDt : UInt32}

/-- The time that seems to remain is the true one. -/
theorem remaining_exact_iff (T0 : Nat) (aDt : UInt32) (b : Nat) :
    shownDeadline T0 aDt b - b = T0 + aDt.toNat - b ↔
      wraps (2 ^ 32) T0 b = 0 ∨ shownDeadline T0 aDt b ≤ b := by
  unfold shownDeadline
  omega

/-- After the whole timeout the alarm is due, if the clock has not wrapped meanwhile. -/
theorem elapsed_fires_iff :
    (t + (shownDeadline T0 aDt (t / 1000) - t / 1000) * 1000 ≤ t' →
        shownDeadline T0 aDt (t' / 1000) ≤ t' / 1000) ↔
      wraps (2 ^ 32) T0 (t' / 1000) = wraps (2 ^ 32) T0 (t / 1000) ∨
        shownDeadline T0 aDt (t' / 1000) ≤ t' / 1000 ∨
        t' < t + (shownDeadline T0 aDt (t / 1000) - t / 1000) * 1000 := by
  constructor
  · intro h
    by_cases he : t + (shownDeadline T0 aDt (t / 1000) - t / 1000) * 1000 ≤ t'
    · exact .inr (.inl (h he))
    · exact .inr (.inr (Nat.not_le.mp he))
  · rintro (hw | hd | hlt) he
    · unfold shownDeadline at he ⊢
      rw [hw]
      omega
    · exact hd
    · omega

/-- Before that millisecond it is not, wrap or no wrap. -/
theorem earlier_not_due (ht : t ≤ t')
    (h : t' / 1000 < (t + (shownDeadline T0 aDt (t / 1000) - t / 1000) * 1000) / 1000) :
    ¬ shownDeadline T0 aDt (t' / 1000) ≤ t' / 1000 := by
  have hmono : wraps (2 ^ 32) T0 (t / 1000) ≤ wraps (2 ^ 32) T0 (t' / 1000) :=
    wraps_mono (Nat.div_le_div_right ht)
  unfold shownDeadline at h ⊢
  omega

theorem otSysMainloopUpdate_usec_lt (fds : Fds) (us : Nat) (alarm : Alarm) (pending : Bool)
    (aMainloop : MainloopContext) :
    (otSysMainloopUpdate fds us alarm pending aMainloop).mTimeout.tvUsec < 1000000 := by
  cases pending with
  | true => exact Nat.zero_lt_succ _
  | false =>
    rw [otSysMainloopUpdate_idle]
    exact platformAlarmUpdate_usec_lt us alarm _

theorem otSysMainloopUpdate_exact_iff (fds : Fds) (aMainloop : MainloopContext) (pending : Bool)
    (h0 : T0 ≤ t / 1000) :
    (otSysMainloopUpdate fds t (alarmAt T0 aDt) pending aMainloop).mTimeout.us =
        (if pending then 0 else (T0 + aDt.toNat - t / 1000) * 1000) ↔
      pending = true ∨ wraps (2 ^ 32) T0 (t / 1000) = 0 ∨
        shownDeadline T0 aDt (t / 1000) ≤ t / 1000 := by
  cases pending with
  | true =>
    rw [otSysMainloopUpdate_pending]
    exact ⟨fun _ => .inl rfl, fun _ => rfl⟩
  | false =>
    rw [otSysMainloopUpdate_idle, alarmAt_update_shown h0, ← remaining_exact_iff]
    simp only [Bool.false_eq_true, false_or, if_false]
    omega

/-- For every alarm, every update after its start and every process after that: the timeout agrees
with true time and with the process if and only if the wraps of the clock do no harm. -/
theorem timeout_agrees_iff (fds : Fds) (aMainloop : MainloopContext) (diagEnable diagMode : Bool)
    (T0 : Nat) (aDt : UInt32) (otTaskletsArePending : Bool) (t t' : Nat) (h0 : T0 ≤ t / 1000)
    (ht : t ≤ t') :
    TimeoutAgrees fds aMainloop diagEnable diagMode T0 aDt otTaskletsArePending t t' ↔
      WrapsHarmless T0 aDt otTaskletsArePending t t' := by
  have h0' : T0 ≤ t' / 1000 := Nat.le_trans h0 (Nat.div_le_div_right ht)
  have hus : (platformAlarmUpdate t (alarmAt T0 aDt) aMainloop).mTimeout.us =
      (shownDeadline T0 aDt (t / 1000) - t / 1000) * 1000 := alarmAt_update_shown h0
  constructor
  · intro h
    have helapsed := h.elapsed
    rw [hus, alarmAt_fires_iff diagEnable diagMode h0'] at helapsed
    exact ⟨(otSysMainloopUpdate_exact_iff fds aMainloop _ h0).mp h.exact,
      elapsed_fires_iff.mp helapsed⟩
  · intro h
    refine ⟨otSysMainloopUpdate_usec_lt fds t _ _ aMainloop, ?_,
      (otSysMainloopUpdate_exact_iff fds aMainloop _ h0).mpr h.update, ?_, ?_⟩
    · rw [alarmAt_update_us, ofNat_face, otPlatAlarmMilliGetNow_toNat]
    · rw [hus, alarmAt_fires_iff diagEnable diagMode h0']
      exact elapsed_fires_iff.mpr h.process
    · rw [hus]
      intro hlt
      rw [Bool.eq_false_iff, ne_eq, alarmAt_fires_iff diagEnable diagMode h0']
      exact earlier_not_due ht hlt

/-- An alarm of one second, five seconds after the boot. -/
theorem timeout_agrees_iff_early :
    (5000 ≤ 5200000 / 1000 ∧ 5200000 ≤ 6000000) ∧
      (TimeoutAgrees ⟨8, 3, 4⟩ otSysMainloopInit false false 5000 1000 false 5200000 6000000 ↔
        WrapsHarmless 5000 1000 false 5200000 6000000) :=
  ⟨by decide, timeout_agrees_iff ⟨8, 3, 4⟩ otSysMainloopInit false false 5000 1000 false 5200000
    6000000 (by decide) (by decide)⟩

/-- An alarm of 1 ms that is started in the last millisecond before the wrap: one millisecond later
it is due and the timeout is 49 days. -/
theorem timeout_disagrees :
    ¬ ∀ (fds : Fds) (aMainloop : MainloopContext) (diagEnable diagMode : Bool) (T0 : Nat)
      (aDt : UInt32) (otTaskletsArePending : Bool) (t t' : Nat), T0 ≤ t / 1000 → t ≤ t' →
      TimeoutAgrees fds aMainloop diagEnable diagMode T0 aDt otTaskletsArePending t t' := by
  intro h
  have hex := (h ⟨8, 3, 4⟩ otSysMainloopInit false false 4294967295 1 false 4294967296000
    4294967296000 (by decide) (by decide)).exact
  exact absurd hex (by decide)

end Agreement

end OtEsp32
