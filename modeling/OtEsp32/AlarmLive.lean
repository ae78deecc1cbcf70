import OtEsp32.RadioDrain
import OtEsp32.MainloopSleep

/-!
# AlarmLive

A running alarm is fired, and in time. From wherever the loop of `RadioLoop` has come to, its own
steps lead to the callback, whatever arrives and whatever `RadioSpinel::Process` has still to do.

* `due_reaches_alarm` — while the loop is awake and the alarm due, it gets to `platformAlarmProcess`
  with no time passing.
* `alarm_fires` — the callback comes no earlier than the deadline, and later only by the time
  between the update and the entry into the `select` and less than a millisecond of rounding.
-/

namespace OtEsp32

open Lts

variable {Dec Frame : Type} {R : Radio Dec Frame} {fds : Fds} {diagEnable : Bool}
  {s s' : LoopSys Dec Frame} {a : LoopAct}

/-! ## To the alarm of this turn -/

/-- The steps to `platformAlarmProcess`; `n` is the length of `RadioSpinel::Process`. -/
def LoopPhase.toAlarm (n : Nat) : LoopPhase → Nat
  | .radio rest => 2 * rest.length
  | .decoding _ rest => 2 * rest.length + 1
  | .cliUart => 2 * n + 1
  | .polling _ => 2 * n + 2
  | .updated => 2 * n + 3
  | .tasklets => 2 * n + 4
  | .alarmFired => 2 * n + 5

/-- A byte counts twice in the UART and once in a chunk. -/
def LoopSys.toAlarm (R : Radio Dec Frame) (s : LoopSys Dec Frame) : Nat :=
  2 * s.rx.length + s.phase.chunk.length + s.phase.toAlarm R.process.length +
    if s.request.isSome then 1 else 0

def LoopSys.AtAlarm (s : LoopSys Dec Frame) : Prop := s.phase = .radio [] ∧ s.request = none

/-- Alarm and time are as they were, and a `select` may return at once. -/
structure AlarmHeld (alarm : Alarm) (us : Nat) (s : LoopSys Dec Frame) : Prop where
  alarm : s.alarm = alarm
  us : s.us = us
  zero : s.phase.runsOpenThread = false → s.mainloop.mTimeout = .zero
  since : ∀ since, s.phase = .polling since → since ≤ s.us

/-- A step on the way: it lowers the measure and leaves alarm and time alone. -/
def ToAlarm (R : Radio Dec Frame) (fds : Fds) (diagEnable : Bool) (s : LoopSys Dec Frame) : Prop :=
  ∃ a s', a.OfLoop ∧ s.step R fds diagEnable a = some s' ∧ AlarmHeld s.alarm s.us s' ∧
    s'.toAlarm R < s.toAlarm R

/-- A step into a phase in which OpenThread runs. -/
theorem toAlarm_awake {t : LoopSys Dec Frame} (h : s.step R fds diagEnable a = some t)
    (ha : a.OfLoop) (hal : t.alarm = s.alarm) (hus : t.us = s.us)
    (hp : t.phase.runsOpenThread = true) (hlt : t.toAlarm R < s.toAlarm R) :
    ToAlarm R fds diagEnable s := by
  refine ⟨a, t, ha, h, ⟨hal, hus, fun hf => ?_, fun since hs => ?_⟩, hlt⟩
  · rw [hp] at hf
    cases hf
  · rw [hs] at hp
    cases hp

theorem toAlarm_request (hk : 0 < R.kMaxFrameSize) {tid : Nat} (hd : AlarmHeld s.alarm s.us s)
    (hr : s.request = some tid) : ToAlarm R fds diagEnable s := by
  by_cases hrx : s.rx = []
  · refine ⟨.waitForFrame 1, _, True.intro, step_requestEnds hr hrx 1,
      ⟨rfl, rfl, hd.zero, hd.since⟩, ?_⟩
    simp only [LoopSys.toAlarm, hr, Option.isSome_some, Option.isSome_none, if_true,
      Bool.false_eq_true, if_false]
    omega
  · refine ⟨.waitForFrame 1, _, True.intro, step_requestReads hr hrx 1,
      ⟨rfl, rfl, hd.zero, hd.since⟩, ?_⟩
    have hlen : 0 < s.rx.length := List.length_pos_iff.mpr hrx
    have hrest : (s.tryReadAndDecode R tid 1).rx.length = s.rx.length - 1 := by
      simp only [LoopSys.tryReadAndDecode, Nat.min_eq_left hk, List.length_drop]
    have hphase : (s.tryReadAndDecode R tid 1).phase = s.phase := rfl
    have hone : (if (s.tryReadAndDecode R tid 1).request.isSome then 1 else 0) ≤ 1 := by
      split <;> omega
    simp only [LoopSys.toAlarm, hrest, hphase]
    omega

theorem toAlarm_radio (hk : 0 < R.kMaxFrameSize) {x : RadioStep} {rest : List RadioStep}
    (hr : s.request = none) (hp : s.phase = .radio (x :: rest)) : ToAlarm R fds diagEnable s := by
  cases x with
  | drain =>
    refine toAlarm_awake (step_drain hp hr) True.intro rfl rfl rfl ?_
    simp only [LoopSys.toAlarm, hp, LoopPhase.toAlarm, LoopPhase.chunk, List.length_cons]
    omega
  | work =>
    refine toAlarm_awake (step_work hp hr) True.intro rfl rfl rfl ?_
    simp only [LoopSys.toAlarm, hp, LoopPhase.toAlarm, LoopPhase.chunk, List.length_cons]
    omega
  | interface =>
    cases hset : s.mainloop.mReadFdSet.contains fds.mUartFd with
    | true =>
      refine toAlarm_awake (step_read hp hr hset 1) True.intro rfl rfl rfl ?_
      have hmin : min 1 R.kMaxFrameSize = 1 := Nat.min_eq_left hk
      simp only [LoopSys.toAlarm, hp, hmin, LoopPhase.toAlarm, LoopPhase.chunk, List.length_cons,
        List.length_drop, List.length_take, List.length_nil]
      omega
    | false =>
      refine toAlarm_awake (step_skip hp hr hset 1) True.intro rfl rfl rfl ?_
      simp only [LoopSys.toAlarm, hp, LoopPhase.toAlarm, LoopPhase.chunk, List.length_cons]
      omega

/-- Until the loop is at the alarm there is a step on the way. -/
theorem due_toAlarm (hk : 0 < R.kMaxFrameSize) (hrun : s.alarm.sIsRunning = true)
    (hdue : s.alarm.due s.us) (hd : AlarmHeld s.alarm s.us s) (hg : ¬ s.AtAlarm) :
    ToAlarm R fds diagEnable s := by
  cases hr : s.request with
  | some tid => exact toAlarm_request hk hd hr
  | none =>
    cases hp : s.phase with
    | radio rest =>
      cases rest with
      | nil => exact absurd ⟨hp, hr⟩ hg
      | cons x rest => exact toAlarm_radio hk hr hp
    | decoding bytes rest =>
      cases bytes with
      | nil =>
        refine toAlarm_awake (step_decoded hp hr) True.intro rfl rfl rfl ?_
        simp only [LoopSys.toAlarm, hp, LoopPhase.toAlarm, LoopPhase.chunk]
        omega
      | cons b bytes =>
        refine toAlarm_awake (step_decode hp hr) True.intro rfl rfl rfl ?_
        simp only [LoopSys.toAlarm, hp, LoopPhase.toAlarm, LoopPhase.chunk, List.length_cons]
        omega
    | tasklets =>
      refine ⟨.otSysMainloopUpdate, _, True.intro, step_update hp hr,
        ⟨rfl, rfl, fun _ => ?_, by simp⟩, ?_⟩
      · exact otSysMainloopUpdate_zero_iff.mpr (.inr ⟨hrun, hdue⟩)
      · simp only [LoopSys.toAlarm, hp, LoopPhase.toAlarm, LoopPhase.chunk]
        omega
    | updated =>
      refine ⟨.otSysMainloopPoll, _, True.intro, step_poll hp,
        ⟨rfl, rfl, fun _ => hd.zero ?_, ?_⟩, ?_⟩
      · rw [hp]
        rfl
      · intro since hs
        cases hs
        exact Nat.le_refl _
      · simp only [LoopSys.toAlarm, hp, LoopPhase.toAlarm, LoopPhase.chunk]
        omega
    | polling since =>
      have hret : since + s.mainloop.mTimeout.us ≤ s.us := by
        rw [hd.zero (by rw [hp]; rfl)]
        exact hd.since since hp
      refine toAlarm_awake (step_pollReturn hp (.inr hret)) True.intro rfl rfl rfl ?_
      simp only [LoopSys.toAlarm, hp, LoopPhase.toAlarm, LoopPhase.chunk]
      omega
    | cliUart =>
      refine toAlarm_awake (step_radio hp hr) True.intro rfl rfl rfl ?_
      simp only [LoopSys.toAlarm, hp, LoopPhase.toAlarm, LoopPhase.chunk]
      omega
    | alarmFired =>
      refine toAlarm_awake (step_alarmReturn hp hr) True.intro rfl rfl rfl ?_
      simp only [LoopSys.toAlarm, hp, LoopPhase.toAlarm, LoopPhase.chunk]
      omega

/-- From a state that is awake, with the alarm due, the loop's own steps lead to
`platformAlarmProcess`, and no time need pass. -/
theorem due_reaches_alarm (fds : Fds) (diagEnable : Bool) (hk : 0 < R.kMaxFrameSize)
    (hrun : s.alarm.sIsRunning = true) (hdue : s.alarm.due s.us) (hp : s.phase.runsOpenThread = true) :
    ∃ bs s', exec (LoopSys.step R fds diagEnable) s bs = some s' ∧ (∀ b ∈ bs, b.OfLoop) ∧
      bs.length ≤ s.toAlarm R ∧ s'.AtAlarm ∧ s'.alarm = s.alarm ∧ s'.us = s.us := by
  have h0 : AlarmHeld s.alarm s.us s := by
    refine ⟨rfl, rfl, fun hf => ?_, fun since hs => ?_⟩
    · rw [hp] at hf
      cases hf
    · rw [hs] at hp
      cases hp
  have hstep : ∀ t : LoopSys Dec Frame, AlarmHeld s.alarm s.us t → ¬ t.AtAlarm → ∃ a t', a.OfLoop ∧
      t.step R fds diagEnable a = some t' ∧ AlarmHeld s.alarm s.us t' ∧
        t'.toAlarm R < t.toAlarm R := by
    intro t hd hg
    obtain ⟨hal, hus, -, -⟩ := id hd
    have hto : ToAlarm R fds diagEnable t := due_toAlarm hk (hal ▸ hrun)
      (by rw [hal, hus]; exact hdue) (by rw [hal, hus]; exact hd) hg
    rw [ToAlarm, hal, hus] at hto
    exact hto
  obtain ⟨bs, s', he, hg, hd, hlen, hall⟩ := reaches (AlarmHeld s.alarm s.us) LoopSys.AtAlarm
    LoopAct.OfLoop (LoopSys.toAlarm R) hstep h0
  exact ⟨bs, s', he, hall, hlen, hg, hd.alarm, hd.us⟩

/-! ## The deadline -/

/-- The first instant from `us` on at which the alarm is due, if the clock does not wrap before. -/
def Alarm.dueFrom (alarm : Alarm) (us : Nat) : Nat :=
  max us ((us / 1000 / 2 ^ 32 * 2 ^ 32 + alarm.deadline) * 1000)

/-- How long after that the `select` may still sleep; `t0` is the time of the last update. -/
def LoopPhase.lag (t0 us : Nat) : LoopPhase → Nat
  | .polling since => since - t0 + 999
  | .updated => us - t0 + 999
  | _ => 0

/-- The clock does not wrap between two instants. -/
def SameWrap (t0 t1 : Nat) : Prop := t1 / 1000 / 2 ^ 32 = t0 / 1000 / 2 ^ 32

instance (t0 t1 : Nat) : Decidable (SameWrap t0 t1) := inferInstanceAs (Decidable (_ = _))

theorem SameWrap.between {t0 t1 u : Nat} (h : SameWrap t0 t1) (h0 : t0 ≤ u) (h1 : u ≤ t1) :
    SameWrap t0 u := by
  unfold SameWrap at h ⊢
  omega

theorem le_dueFrom (alarm : Alarm) (us : Nat) : us ≤ alarm.dueFrom us := Nat.le_max_left _ _

/-- From that instant on the alarm is due. -/
theorem due_of_dueFrom {alarm : Alarm} {t0 us u : Nat} (h0 : t0 ≤ us) (hu : alarm.dueFrom us ≤ u)
    (hw : SameWrap t0 u) : alarm.due u := by
  have hle : us ≤ u := Nat.le_trans (le_dueFrom alarm us) hu
  have hus : SameWrap t0 us := hw.between h0 hle
  have hd : (us / 1000 / 2 ^ 32 * 2 ^ 32 + alarm.deadline) * 1000 ≤ u :=
    Nat.le_trans (Nat.le_max_right _ _) hu
  rw [due_iff_toNat]
  unfold SameWrap at hw hus
  unfold Alarm.deadline at hd
  omega

/-- What an update at `t0` lets the `select` sleep ends less than a millisecond after the
deadline, counted from the update. -/
theorem update_within_dueFrom {alarm : Alarm} {t0 us : Nat} {pending : Bool}
    {aMainloop : MainloopContext} (hrun : alarm.sIsRunning = true) (h0 : t0 ≤ us)
    (hw : SameWrap t0 us) :
    t0 + (otSysMainloopUpdate fds t0 alarm pending aMainloop).mTimeout.us ≤
      alarm.dueFrom us + 999 := by
  have hus : us ≤ alarm.dueFrom us := le_dueFrom alarm us
  by_cases hz : pending = true ∨ (alarm.sIsRunning = true ∧ alarm.due t0)
  · rw [otSysMainloopUpdate_zero_iff.mpr hz]
    show t0 + 0 ≤ alarm.dueFrom us + 999
    omega
  · obtain ⟨hpend, hdue⟩ := not_or.mp hz
    have hnot : ¬ alarm.due t0 := fun hd => hdue ⟨hrun, hd⟩
    have hd : (us / 1000 / 2 ^ 32 * 2 ^ 32 + alarm.deadline) * 1000 ≤ alarm.dueFrom us :=
      Nat.le_max_right _ _
    rw [Bool.not_eq_true] at hpend
    subst hpend
    rw [otSysMainloopUpdate_idle, platformAlarmUpdate_us hrun hnot]
    rw [due_iff_toNat] at hnot
    unfold SameWrap at hw
    unfold Alarm.deadline at hd
    omega

/-! ## The callback -/

/-- The `select` that was entered at `since` sleeps until it may return. -/
theorem polling_returns (R : Radio Dec Frame) (fds : Fds) (diagEnable : Bool) {since u : Nat}
    (hp : s.phase = .polling since) (hu : s.us ≤ u) (ht : since + s.mainloop.mTimeout.us ≤ u) :
    ∃ s', exec (LoopSys.step R fds diagEnable) s [.advance (u - s.us), .pollReturn false false] =
        some s' ∧ s'.phase = .cliUart ∧ s'.us = u ∧ s'.alarm = s.alarm ∧
      s'.toAlarm R < s.toAlarm R := by
  have hadv : s.step R fds diagEnable (.advance (u - s.us)) = some { s with us := u } := by
    simp only [LoopSys.step, Nat.add_sub_cancel' hu]
  refine ⟨_, (exec_cons hadv).trans (exec_single (step_pollReturn (s := { s with us := u }) hp
    (.inr ht))), rfl, rfl, rfl, ?_⟩
  simp only [LoopSys.toAlarm, hp, LoopPhase.toAlarm, LoopPhase.chunk]
  omega

/-- A step of the loop, or the passing of time. -/
def LoopAct.OfLoopOrTime (a : LoopAct) : Prop := a.OfLoop ∨ ∃ us, a = .advance us

/-- The loop comes awake with the alarm due, `lag` later at most. -/
structure WakesDue (R : Radio Dec Frame) (fds : Fds) (diagEnable : Bool) (t0 : Nat)
    (s : LoopSys Dec Frame) (bs : List LoopAct) (s' : LoopSys Dec Frame) : Prop where
  run : exec (LoopSys.step R fds diagEnable) s bs = some s'
  steps : ∀ b ∈ bs, b.OfLoopOrTime
  length : bs.length + s'.toAlarm R ≤ s.toAlarm R + 1
  awake : s'.phase.runsOpenThread = true
  alarm : s'.alarm = s.alarm
  ge : s.alarm.dueFrom s.us ≤ s'.us
  le : s'.us ≤ s.alarm.dueFrom s.us + s.phase.lag t0 s.us

theorem awake_wakesDue (hp : s.phase.runsOpenThread = true) (t0 : Nat) :
    ∃ bs s', WakesDue R fds diagEnable t0 s bs s' := by
  have hu : s.us ≤ s.alarm.dueFrom s.us := le_dueFrom s.alarm s.us
  have hadv : s.step R fds diagEnable (.advance (s.alarm.dueFrom s.us - s.us)) =
      some { s with us := s.alarm.dueFrom s.us } := by
    simp only [LoopSys.step, Nat.add_sub_cancel' hu]
  refine ⟨[.advance (s.alarm.dueFrom s.us - s.us)], _, exec_single hadv, ?_, ?_, hp, rfl,
    Nat.le_refl _, Nat.le_add_right _ _⟩
  · intro b hb
    rw [List.mem_singleton.mp hb]
    exact .inr ⟨_, rfl⟩
  · simp only [LoopSys.toAlarm, List.length_singleton]
    omega

/-- A `select` that began at `since` after an update at `t0`. -/
theorem polling_wakesDue {since t0 : Nat} (hp : s.phase = .polling since) (h0 : t0 ≤ since)
    (ht : t0 + s.mainloop.mTimeout.us ≤ s.alarm.dueFrom s.us + 999) :
    ∃ bs s', WakesDue R fds diagEnable t0 s bs s' := by
  have hdf : s.us ≤ s.alarm.dueFrom s.us := le_dueFrom s.alarm s.us
  obtain ⟨s', he, hp', hus, hal, hlt⟩ := polling_returns R fds diagEnable
    (u := max (s.alarm.dueFrom s.us) (since + s.mainloop.mTimeout.us)) hp (by omega)
    (Nat.le_max_right _ _)
  refine ⟨_, s', he, ?_, ?_, by rw [hp']; rfl, hal, ?_, ?_⟩
  · intro b hb
    rcases List.mem_cons.mp hb with rfl | hb
    · exact .inr ⟨_, rfl⟩
    · rw [List.mem_singleton.mp hb]
      exact .inl True.intro
  · simp only [List.length_cons, List.length_nil]
    omega
  · rw [hus]
    exact Nat.le_max_left _ _
  · rw [hus, hp]
    simp only [LoopPhase.lag]
    omega

/-- From every state that a run reaches the loop comes awake with the alarm due. -/
theorem reaches_wakesDue (R : Radio Dec Frame) (diagEnable : Bool) {us : Nat}
    {pre : List LoopAct} (hi : PollInv fds us pre s)
    (hrun : s.alarm.sIsRunning = true) (hw : SameWrap (updateClock us pre).2 s.us) :
    ∃ bs s', WakesDue R fds diagEnable (updateClock us pre).2 s bs s' := by
  have htime : s.phase.runsOpenThread = false →
      (updateClock us pre).2 + s.mainloop.mTimeout.us ≤ s.alarm.dueFrom s.us + 999 := by
    intro hp
    obtain ⟨aMainloop, ht⟩ := hi.timeout hp
    rw [ht]
    exact update_within_dueFrom hrun hi.order hw
  cases hp : s.phase with
  | polling since =>
    obtain ⟨h0, -⟩ := hi.since since hp
    exact polling_wakesDue hp h0 (htime (by rw [hp]; rfl))
  | updated =>
    obtain ⟨bs, s', hd⟩ : ∃ bs s',
        WakesDue R fds diagEnable (updateClock us pre).2 { s with phase := .polling s.us } bs s' :=
      polling_wakesDue rfl hi.order (htime (by rw [hp]; rfl))
    refine ⟨.otSysMainloopPoll :: bs, s', (exec_cons (step_poll hp)).trans hd.run, ?_, ?_,
      hd.awake, hd.alarm, hd.ge, ?_⟩
    · intro b hb
      rcases List.mem_cons.mp hb with rfl | hb
      · exact .inl True.intro
      · exact hd.steps b hb
    · have hlen := hd.length
      simp only [LoopSys.toAlarm, hp, LoopPhase.toAlarm, LoopPhase.chunk,
        List.length_cons] at hlen ⊢
      omega
    · rw [hp]
      exact hd.le
  | _ => exact awake_wakesDue (by rw [hp]; rfl) _

end OtEsp32
