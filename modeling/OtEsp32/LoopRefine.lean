import OtEsp32.RadioDrain
import OtEsp32.MainloopSleep

/-!
# LoopRefine

The two models of the main loop. `RadioLoop` has the radio and runs one task; `MainloopSleep` has
the API lock, the event device and the application tasks, and of the processing only the alarm.

`loop_refines`: every run of the first is a run of the second in which only the platform task moves.
What comes on the radio, and what is done with it, is not seen there.
-/

namespace OtEsp32

open Lts

variable {Dec Frame : Type} {R : Radio Dec Frame} {fds : Fds} {diagEnable : Bool}
  {s s' : LoopSys Dec Frame} {t : SleepSys} {a : LoopAct}

/-! ## What a step is under the lock -/

/-- From the end of the processing to the tasklets of the next turn. -/
def nextTurn : List SleepAct := [.unlock .cli, .check, .lock .cli]

/-- Out of the lock and into the `select`. -/
def intoPoll : List SleepAct :=
  [.unlock .cli, .event (.startLock true), .event .startStore, .event .startCheck,
    .event .startUnlock]

def outOfPoll : List SleepAct := [.event .wake, .event .endSelect, .lock .cli]

def LoopSys.lin (diagEnable : Bool) (s : LoopSys Dec Frame) : LoopAct → List SleepAct
  | .advance us => [.advance us]
  | .otPlatAlarmMilliStartAt aT0 aDt => [.otPlatAlarmMilliStartAt .cli aT0 aDt]
  | .otPlatAlarmMilliStop => [.otPlatAlarmMilliStop .cli]
  | .tasklets pending => [.tasklets .cli pending]
  | .otSysMainloopUpdate => [.otSysMainloopUpdate]
  | .otSysMainloopPoll => intoPoll
  | .pollReturn event _ => outOfPoll ++ if event then [.event .read] else []
  | .platformAlarmProcess diagMode =>
    .platformAlarmProcess diagEnable diagMode ::
      if (platformAlarmProcess diagEnable diagMode s.us s.alarm).2.isSome then [] else nextTurn
  | .alarmReturn => nextTurn
  | .arrive _ | .request _ | .waitForFrame _ | .platformRadioProcess | .radioDrain
  | .radioInterface _ | .radioWork | .decodeByte => []

def LoopPhase.sleepPc : LoopPhase → SleepPc
  | .tasklets => .tasklets
  | .updated => .updated
  | .polling _ => .inPoll
  | _ => .process

/-- The event device between two `select`s, and in one, when no task is writing. -/
def SelSys.Rests (d : SelSys) (pc : SleepPc) : Prop :=
  d.lockFree = true ∧ if pc = .inPoll then ∃ sem, d.main = .asleep sem else d.main = .idle

/-- The two are in the same place, with the same clock, alarm and tasklets, and up to the return of
the `select` with the same context. -/
structure SameLoop (s : LoopSys Dec Frame) (t : SleepSys) : Prop where
  us : t.us = s.us
  alarm : t.alarm = s.alarm
  pending : t.otTaskletsArePending = s.otTaskletsArePending
  cli : t.cli = s.phase.sleepPc
  lock : t.apiLock = if s.phase.sleepPc = .inPoll then none else some .cli
  reset : t.gPlatformPseudoResetWasRequested = false
  mainloop : s.phase.sleepPc ≠ .process → t.mainloop = s.mainloop
  sel : t.sel.Rests s.phase.sleepPc

/-- A step that `MainloopSleep` does not see. -/
theorem SameLoop.stutter (h : SameLoop s t) (hus : s'.us = s.us) (hal : s'.alarm = s.alarm)
    (hpend : s'.otTaskletsArePending = s.otTaskletsArePending)
    (hp : s'.phase.sleepPc = s.phase.sleepPc) (hm : s'.mainloop = s.mainloop) :
    SameLoop s' t where
  us := h.us.trans hus.symm
  alarm := h.alarm.trans hal.symm
  pending := h.pending.trans hpend.symm
  cli := h.cli.trans hp.symm
  lock := by
    rw [hp]
    exact h.lock
  reset := h.reset
  mainloop hne := by
    rw [hm]
    exact h.mainloop (hp ▸ hne)
  sel := by
    rw [hp]
    exact h.sel

theorem SameLoop.runs (h : SameLoop s t) (hp : s.phase.runsOpenThread = true) :
    t.runsOpenThread .cli = true := by
  unfold SleepSys.runsOpenThread
  rw [h.cli]
  cases hph : s.phase with
  | updated =>
    rw [hph] at hp
    cases hp
  | polling since =>
    rw [hph] at hp
    cases hp
  | _ => rfl

/-! ## The sequences -/

theorem nextTurn_exec (hc : t.cli = .process) (hr : t.gPlatformPseudoResetWasRequested = false) :
    exec (SleepSys.step fds) t nextTurn = some { t with
      apiLock := some .cli
      cli := .tasklets
      mainloop := otSysMainloopInit } := by
  have hunlock : t.step fds (.unlock .cli) = some { t with apiLock := none, cli := .check } := by
    simp only [SleepSys.step, hc, SleepPc.unlock]
  rw [nextTurn, exec_cons hunlock]
  simp [exec, SleepSys.step, SleepPc.lock, hr]

theorem step_event (t : SleepSys) {pc : SleepPc} {d : SelSys} {b : SelAct}
    (hpc : t.cli.event b = some pc) (hd : t.sel.step b = some d) :
    t.step fds (.event b) = some { t with cli := pc, sel := d } := by
  simp only [SleepSys.step, hpc, hd]

/-- Whatever the counter is, `event_start_select` gets through. -/
theorem startCheck_checked {d : SelSys} {sem : SelectSem} (h : d.main = .stored sem) :
    ∃ d', d.step .startCheck = some d' ∧ d'.main = .checked sem := by
  by_cases hc : d.dev.sEvent.mCounter > 0
  · exact ⟨{ d with
      main := .checked sem, dev := espVfsSelectTriggered d.dev.sSignalSemaphore d.dev },
      by simp only [SelSys.step, h, if_pos hc], rfl⟩
  · exact ⟨{ d with main := .checked sem }, by simp only [SelSys.step, h, if_neg hc], rfl⟩

theorem intoPoll_exec (fds : Fds) (hc : t.cli = .updated) (hr : t.sel.Rests .updated) :
    ∃ d, exec (SleepSys.step fds) t intoPoll =
        some { t with apiLock := none, cli := .inPoll, sel := d } ∧ d.Rests .inPoll := by
  obtain ⟨hf, hm⟩ := hr
  have hm : t.sel.main = .idle := hm
  let sem : SelectSem := ⟨true, some t.sel.nextSem⟩
  let d1 : SelSys := { t.sel with
    lockFree := false, main := .locked sem, nextSem := t.sel.nextSem + 1 }
  let d2 : SelSys := { d1 with
    main := .stored sem, dev := { d1.dev with sSignalSemaphore := sem } }
  obtain ⟨d3, h3, hm3⟩ := startCheck_checked (d := d2) rfl
  have hunlock : t.step fds (.unlock .cli) =
      some { t with apiLock := none, cli := .beforePoll } := by
    simp only [SleepSys.step, hc, SleepPc.unlock]
  have h1 : t.sel.step (.startLock true) = some d1 := by
    simp only [SelSys.step, hm, hf, and_self, if_true]
    rfl
  have h4 : d3.step .startUnlock = some { d3 with main := .asleep sem, lockFree := true } := by
    simp only [SelSys.step, hm3]
  let t0 : SleepSys := { t with apiLock := none, cli := .beforePoll }
  let t1 : SleepSys := { t0 with cli := .inPoll, sel := d1 }
  refine ⟨{ d3 with main := .asleep sem, lockFree := true }, ?_, rfl, sem, rfl⟩
  rw [intoPoll, exec_cons hunlock, exec_cons (step_event t0 rfl h1),
    exec_cons (step_event t1 (d := d2) rfl rfl),
    exec_cons (step_event { t1 with sel := d2 } rfl h3),
    exec_single (step_event { t1 with sel := d3 } rfl h4)]

/-- Back from the `select`, with the event read or not. -/
theorem outOfPoll_exec (fds : Fds) (hc : t.cli = .inPoll) (hl : t.apiLock = none)
    (hr : t.sel.Rests .inPoll) (event : Bool) :
    ∃ d, exec (SleepSys.step fds) t (outOfPoll ++ if event then [.event .read] else []) =
        some { t with apiLock := some .cli, cli := .process, sel := d } ∧ d.Rests .process := by
  obtain ⟨hf, sem, hm⟩ := hr
  let d1 : SelSys := { t.sel with main := .awake sem }
  let d2 : SelSys := { d1 with main := .idle, dev := eventEndSelect d1.dev }
  have h1 : t.sel.step .wake = some d1 := by
    simp only [SelSys.step, hm]
    rfl
  have hpc : t.cli.event .wake = some .inPoll := by
    rw [hc]
    rfl
  have hlock : ({ t with cli := .beforeProcess, sel := d2 } : SleepSys).step fds (.lock .cli) =
      some { t with apiLock := some .cli, cli := .process, sel := d2 } := by
    simp only [SleepSys.step, SleepPc.lock, hl, if_true]
  have hout : exec (SleepSys.step fds) t outOfPoll =
      some { t with apiLock := some .cli, cli := .process, sel := d2 } := by
    rw [outOfPoll, exec_cons (step_event t hpc h1),
      exec_cons (step_event { t with cli := .inPoll, sel := d1 } (d := d2) rfl rfl),
      exec_single hlock]
  cases event with
  | false => exact ⟨d2, by rw [if_neg (by decide), List.append_nil, hout], hf, rfl⟩
  | true =>
    have hread : d2.step .read = some { d2 with
        dev := (eventRead d2.dev.sEvent.mFd d2.dev).2 } := by
      have hf2 : d2.lockFree = true := hf
      have hm2 : d2.main = .idle := rfl
      simp only [SelSys.step, hm2, hf2, and_self, if_true]
    let t2 : SleepSys := { t with apiLock := some .cli, cli := .process, sel := d2 }
    refine ⟨{ d2 with dev := (eventRead d2.dev.sEvent.mFd d2.dev).2 }, ?_, hf, rfl⟩
    rw [if_pos rfl, exec_append hout]
    exact exec_single (step_event t2 rfl hread)

/-! ## The simulation -/

/-- A step of OpenThread that sets the alarm or the tasklets. -/
theorem sameLoop_alarm (h : SameLoop s t) (alarm : Alarm) :
    SameLoop { s with alarm := alarm } { t with alarm := alarm } :=
  ⟨h.us, rfl, h.pending, h.cli, h.lock, h.reset, h.mainloop, h.sel⟩

/-- Back to the tasklets, from a phase of the processing. -/
theorem sameLoop_nextTurn (h : SameLoop s t) (hp : s.phase.sleepPc = .process) :
    ∃ t', exec (SleepSys.step fds) t nextTurn = some t' ∧
      SameLoop { s with phase := .tasklets, mainloop := otSysMainloopInit } t' := by
  have hsel : t.sel.Rests .process := hp ▸ h.sel
  exact ⟨_, nextTurn_exec (h.cli.trans hp) h.reset, h.us, h.alarm, h.pending, rfl, rfl, h.reset,
    fun _ => rfl, hsel⟩

theorem sim_poll (h : SameLoop s t) (hp : s.phase = .updated) :
    ∃ t', exec (SleepSys.step fds) t intoPoll = some t' ∧
      SameLoop { s with phase := .polling s.us } t' := by
  have hpc : s.phase.sleepPc = .updated := by rw [hp]; rfl
  obtain ⟨d, he, hr⟩ := intoPoll_exec fds (h.cli.trans hpc) (hpc ▸ h.sel)
  exact ⟨_, he, h.us, h.alarm, h.pending, rfl, rfl, h.reset,
    fun _ => h.mainloop (by simp [hpc]), hr⟩

theorem sim_pollReturn (h : SameLoop s t) {since : Nat} (hp : s.phase = .polling since)
    (event : Bool) (aMainloop : MainloopContext) :
    ∃ t', exec (SleepSys.step fds) t (outOfPoll ++ if event then [.event .read] else []) = some t' ∧
      SameLoop { s with mainloop := aMainloop, phase := .cliUart } t' := by
  have hpc : s.phase.sleepPc = .inPoll := by rw [hp]; rfl
  have hlock : t.apiLock = none := by rw [h.lock, if_pos hpc]
  obtain ⟨d, he, hr⟩ := outOfPoll_exec fds (h.cli.trans hpc) hlock (hpc ▸ h.sel) event
  exact ⟨_, he, h.us, h.alarm, h.pending, rfl, rfl, h.reset, fun hne => absurd rfl hne, hr⟩

theorem sim_alarm (h : SameLoop s t) (hp : s.phase = .radio []) (hr : s.request = none)
    {diagMode : Bool} (hs : s.step R fds diagEnable (.platformAlarmProcess diagMode) = some s') :
    ∃ t', exec (SleepSys.step fds) t (s.lin diagEnable (.platformAlarmProcess diagMode)) = some t' ∧
      SameLoop s' t' := by
  have hpc : s.phase.sleepPc = .process := by rw [hp]; rfl
  have hlock : t.apiLock = some .cli := h.lock.trans (by rw [hpc]; rfl)
  have hsel : t.sel.Rests .process := hpc ▸ h.sel
  have hstep : t.step fds (.platformAlarmProcess diagEnable diagMode) = some { t with
      alarm := (platformAlarmProcess diagEnable diagMode s.us s.alarm).1 } := by
    rw [← h.us, ← h.alarm]
    simp only [SleepSys.step, h.cli.trans hpc, if_true]
  rw [LoopSys.lin, exec_cons hstep, platformAlarmProcess_eq]
  by_cases hdue : s.alarm.sIsRunning = true ∧ s.alarm.due s.us
  · rw [step_alarmFires hp hr hdue] at hs
    cases hs
    rw [if_pos hdue]
    exact ⟨_, rfl, h.us, rfl, h.pending, h.cli.trans hpc, hlock, h.reset,
      fun hne => absurd rfl hne, hsel⟩
  · rw [step_alarmWaits hp hr hdue] at hs
    cases hs
    rw [if_neg hdue]
    exact sameLoop_nextTurn (sameLoop_alarm h s.alarm) hpc

/-- Each step of the loop with the radio is a sequence of steps of the platform task. -/
theorem loop_simulates (R : Radio Dec Frame) (fds : Fds) (diagEnable : Bool) :
    Simulates (LoopSys.step R fds diagEnable) (SleepSys.step fds) (LoopSys.lin diagEnable)
      (fun _ _ => True) SameLoop := by
  intro s t a s' h _ hs
  cases a with
  | arrive bytes =>
    cases hs
    exact ⟨t, rfl, h.stutter rfl rfl rfl rfl rfl⟩
  | advance us =>
    cases hs
    exact ⟨{ t with us := t.us + us }, rfl, congrArg (· + us) h.us, h.alarm, h.pending, h.cli,
      h.lock, h.reset, h.mainloop, h.sel⟩
  | otPlatAlarmMilliStartAt aT0 aDt =>
    simp only [LoopSys.step] at hs
    split at hs
    · rename_i hp
      cases hs
      exact ⟨_, exec_single (by simp only [SleepSys.step, h.runs hp, if_true]), sameLoop_alarm h _⟩
    · cases hs
  | otPlatAlarmMilliStop =>
    simp only [LoopSys.step] at hs
    split at hs
    · rename_i hp
      cases hs
      refine ⟨{ t with alarm := OtEsp32.otPlatAlarmMilliStop s.alarm }, exec_single ?_,
        sameLoop_alarm h _⟩
      simp only [SleepSys.step, h.runs hp, h.alarm, if_true]
    · cases hs
  | tasklets pending =>
    simp only [LoopSys.step] at hs
    split at hs
    · rename_i hp
      cases hs
      exact ⟨{ t with otTaskletsArePending := pending },
        exec_single (by simp only [SleepSys.step, h.runs hp, if_true]), h.us, h.alarm, rfl, h.cli,
        h.lock, h.reset, h.mainloop, h.sel⟩
    · cases hs
  | otSysMainloopUpdate =>
    simp only [LoopSys.step] at hs
    split at hs
    · rename_i hp
      cases hs
      have hpc : s.phase.sleepPc = .tasklets := by rw [hp.1]; rfl
      have hlock : t.apiLock = some .cli := h.lock.trans (by rw [hpc]; rfl)
      have hsel : t.sel.Rests .tasklets := hpc ▸ h.sel
      have hstep : t.step fds .otSysMainloopUpdate = some { t with
          mainloop := OtEsp32.otSysMainloopUpdate fds t.us t.alarm t.otTaskletsArePending t.mainloop
          updatedAt := t.us
          cli := .updated } := by
        simp only [SleepSys.step, h.cli.trans hpc, if_true]
      refine ⟨_, exec_single hstep, h.us, h.alarm, h.pending, rfl, hlock, h.reset, fun _ => ?_,
        hsel⟩
      show OtEsp32.otSysMainloopUpdate fds t.us t.alarm t.otTaskletsArePending t.mainloop = _
      rw [h.us, h.alarm, h.pending, h.mainloop (by simp [hpc])]
    · cases hs
  | otSysMainloopPoll =>
    simp only [LoopSys.step] at hs
    split at hs
    · rename_i hp
      cases hs
      exact sim_poll h hp
    · cases hs
  | pollReturn event cliUart =>
    simp only [LoopSys.step] at hs
    split at hs
    · rename_i since hp
      split at hs
      · cases hs
        exact sim_pollReturn h hp event _
      · cases hs
    · cases hs
  | platformAlarmProcess diagMode =>
    have hat : s.phase = .radio [] ∧ s.request = none := by
      simp only [LoopSys.step] at hs
      split at hs
      · exact ⟨‹_›, ‹_›⟩
      · cases hs
    exact sim_alarm h hat.1 hat.2 hs
  | alarmReturn =>
    simp only [LoopSys.step] at hs
    split at hs
    · rename_i hp
      cases hs
      exact sameLoop_nextTurn h (by rw [hp.1]; rfl)
    · cases hs
  | waitForFrame rval =>
    simp only [LoopSys.step] at hs
    repeat' split at hs
    all_goals cases hs
    all_goals exact ⟨t, rfl, h.stutter rfl rfl rfl rfl rfl⟩
  | _ =>
    simp only [LoopSys.step] at hs
    repeat' split at hs
    all_goals cases hs
    all_goals refine ⟨t, rfl, h.stutter rfl rfl rfl ?_ rfl⟩
    all_goals simp_all [LoopPhase.sleepPc]

/-- A step of `run_cli`, or of none. -/
def SleepAct.OfPlatform : SleepAct → Prop
  | .lock t | .unlock t | .otPlatAlarmMilliStartAt t _ _ | .otPlatAlarmMilliStop t
  | .otPlatReset t | .tasklets t _ => t = .cli
  | .event (.incr _) | .event (.test _) | .event (.trigger _) => False
  | _ => True

theorem lin_ofPlatform (s : LoopSys Dec Frame) (a : LoopAct) :
    ∀ b ∈ s.lin diagEnable a, b.OfPlatform := by
  cases a with
  | pollReturn event cliUart =>
    cases event <;> simp [LoopSys.lin, outOfPoll, SleepAct.OfPlatform]
  | platformAlarmProcess diagMode =>
    simp only [LoopSys.lin, List.forall_mem_cons]
    refine ⟨trivial, ?_⟩
    split <;> simp [nextTurn, SleepAct.OfPlatform]
  | _ => simp [LoopSys.lin, nextTurn, intoPoll, SleepAct.OfPlatform]

theorem init_sameLoop (R : Radio Dec Frame) (fds : Fds) (us : Nat) :
    ∃ t, exec (SleepSys.step fds) (.init us .init false) [.check, .lock .cli] = some t ∧
      SameLoop (LoopSys.init R us) t :=
  ⟨_, rfl, rfl, rfl, rfl, rfl, rfl, rfl, fun _ => rfl, rfl, rfl⟩

/-- Every run of the loop with the radio is, from the first check of the reset flag on, a run of the
main loop under the API lock over the event device, in which no application task moves. The two
agree on where the loop is, the clock, the alarm, the tasklets and what the `select` waits for. -/
theorem loop_refines (R : Radio Dec Frame) (fds : Fds) (diagEnable : Bool) (us : Nat)
    (as : List LoopAct) (s : LoopSys Dec Frame)
    (h : exec (LoopSys.step R fds diagEnable) (.init R us) as = some s) :
    ∃ bs t, bs = trace (LoopSys.step R fds diagEnable) (LoopSys.lin diagEnable) (.init R us) as ∧
      (∀ b ∈ bs, b.OfPlatform) ∧
      exec (SleepSys.step fds) (.init us .init false) ([.check, .lock .cli] ++ bs) = some t ∧
      SameLoop s t := by
  obtain ⟨t0, h0, hR⟩ := init_sameLoop R fds us
  obtain ⟨t, ht, hsame⟩ := (loop_simulates R fds diagEnable).run hR (fun _ _ _ _ _ _ => trivial) h
  exact ⟨_, t, rfl, trace_all lin_ofPlatform, (exec_append h0).trans ht, hsame⟩

/-- A turn with a byte on the radio and an alarm that is due. -/
def turnRun : List LoopAct :=
  [.arrive [7], .otPlatAlarmMilliStartAt 0 0, .otSysMainloopUpdate, .otSysMainloopPoll,
    .pollReturn true false, .platformRadioProcess, .radioDrain, .radioInterface 1, .decodeByte,
    .decodeByte, .radioWork, .platformAlarmProcess false, .alarmReturn]

theorem loop_refines_turn :
    ∃ s, exec (LoopSys.step byteRadio ⟨8, 3, 4⟩ false) (.init byteRadio 0) turnRun = some s ∧
      ∃ bs t, bs = trace (LoopSys.step byteRadio ⟨8, 3, 4⟩ false) (LoopSys.lin false)
          (.init byteRadio 0) turnRun ∧
        (∀ b ∈ bs, b.OfPlatform) ∧
        exec (SleepSys.step ⟨8, 3, 4⟩) (.init 0 .init false) ([.check, .lock .cli] ++ bs) =
          some t ∧ SameLoop s t :=
  ⟨_, rfl, loop_refines byteRadio ⟨8, 3, 4⟩ false 0 turnRun _ rfl⟩

end OtEsp32
