import OtEsp32.ApiLock
import OtEsp32.EventSelect
import OtEsp32.Mainloop

/-!
# MainloopSleep

The main loop and any number of application tasks that call OpenThread under the API lock. The
event device is the one of `EventSelect`: `otSysMainloopBreak` is a writer's `incr`, `test` and
`trigger`, and the `select` of `otSysMainloopPoll` is the selecting task. While the loop runs the
mutex of the API lock stays, so the lock is taken and given in one step here
(`otSysApiLock_steps`, `otSysApiUnlock_steps`).

`otPlatAlarmMilliStartAt` and `otPlatReset` do not wake the `select`; the caller can, with
`otSysMainloopBreak`. `sleep_settled` says what is then true of a main loop that sleeps.
-/

namespace OtEsp32

open Lts

/-- Where `run_cli` is in its loop; `left` is after the loop. -/
inductive SleepPc where
  | check
  | beforeTasklets
  | tasklets
  | updated
  | beforePoll
  | inPoll
  | beforeProcess
  | process
  | left
  deriving DecidableEq, Repr

/-- From the check of the flag to the return of `select`. -/
def SleepPc.toPoll : SleepPc → Bool
  | .beforeTasklets | .tasklets | .updated | .beforePoll | .inPoll => true
  | _ => false

/-- From `otSysMainloopUpdate` to the return of `select`. -/
def SleepPc.hasTimeout : SleepPc → Bool
  | .updated | .beforePoll | .inPoll => true
  | _ => false

/-- `updatedAt` is the instant of the last `otSysMainloopUpdate`. -/
structure SleepSys where
  us : Nat
  updatedAt : Nat
  alarm : Alarm
  gPlatformPseudoResetWasRequested : Bool
  otTaskletsArePending : Bool
  apiLock : Option ApiTask
  cli : SleepPc
  mainloop : MainloopContext
  sel : SelSys

/-- After the first initialisation, which may have started the alarm and asked for a reset. -/
def SleepSys.init (us : Nat) (alarm : Alarm) (reset : Bool) : SleepSys :=
  { us := us
    updatedAt := us
    alarm := alarm
    gPlatformPseudoResetWasRequested := reset
    otTaskletsArePending := false
    apiLock := none
    cli := .check
    mainloop := otSysMainloopInit
    sel := .init }

inductive SleepAct where
  | advance (us : Nat)
  | lock (t : ApiTask)
  | unlock (t : ApiTask)
  | otPlatAlarmMilliStartAt (t : ApiTask) (aT0 aDt : UInt32)
  | otPlatAlarmMilliStop (t : ApiTask)
  | otPlatReset (t : ApiTask)
  | tasklets (t : ApiTask) (pending : Bool)
  | check
  | otSysMainloopUpdate
  | platformAlarmProcess (diagEnable diagMode : Bool)
  | event (a : SelAct)
  deriving DecidableEq, Repr

/-- Whether `t` is in an OpenThread call. -/
def SleepSys.runsOpenThread (s : SleepSys) : ApiTask → Bool
  | .cli => decide (s.cli = .tasklets ∨ s.cli = .process)
  | .app n => decide (s.apiLock = some (.app n))

/-- `run_cli` takes the lock before the tasklets and before the processing. -/
def SleepPc.lock : SleepPc → Option SleepPc
  | .beforeTasklets => some .tasklets
  | .beforeProcess => some .process
  | _ => none

def SleepPc.unlock : SleepPc → Option SleepPc
  | .updated => some .beforePoll
  | .process => some .check
  | _ => none

/-- The `select` runs in `otSysMainloopPoll`, the read in `platformVfsEventProcess`, and a write
anywhere. The UARTs and the timeout may end the `select` at any time. -/
def SleepPc.event : SleepPc → SelAct → Option SleepPc
  | .beforePoll, .startLock _ => some .inPoll
  | .inPoll, .startStore => some .inPoll
  | .inPoll, .startCheck => some .inPoll
  | .inPoll, .startUnlock => some .inPoll
  | .inPoll, .wake => some .inPoll
  | .inPoll, .endSelect => some .beforeProcess
  | .process, .read => some .process
  | pc, .incr _ => some pc
  | pc, .test _ => some pc
  | pc, .trigger _ => some pc
  | _, _ => none

def SleepSys.step (fds : Fds) (s : SleepSys) : SleepAct → Option SleepSys
  | .advance us => some { s with us := s.us + us }
  | .lock .cli =>
    match s.cli.lock with
    | some pc => if s.apiLock = none then some { s with apiLock := some .cli, cli := pc } else none
    | none => none
  | .lock (.app n) => if s.apiLock = none then some { s with apiLock := some (.app n) } else none
  | .unlock .cli =>
    match s.cli.unlock with
    | some pc => some { s with apiLock := none, cli := pc }
    | none => none
  | .unlock (.app n) =>
    if s.apiLock = some (.app n) then some { s with apiLock := none } else none
  | .otPlatAlarmMilliStartAt t aT0 aDt =>
    if s.runsOpenThread t then some { s with alarm := OtEsp32.otPlatAlarmMilliStartAt aT0 aDt }
    else none
  | .otPlatAlarmMilliStop t =>
    if s.runsOpenThread t then some { s with alarm := OtEsp32.otPlatAlarmMilliStop s.alarm }
    else none
  | .otPlatReset t =>
    if s.runsOpenThread t then some { s with gPlatformPseudoResetWasRequested := true } else none
  | .tasklets t pending =>
    if s.runsOpenThread t then some { s with otTaskletsArePending := pending } else none
  | .check =>
    if s.cli = .check then
      if s.gPlatformPseudoResetWasRequested then some { s with cli := .left }
      else some { s with cli := .beforeTasklets, mainloop := otSysMainloopInit }
    else none
  | .otSysMainloopUpdate =>
    if s.cli = .tasklets then
      some { s with
        mainloop := OtEsp32.otSysMainloopUpdate fds s.us s.alarm s.otTaskletsArePending s.mainloop
        updatedAt := s.us
        cli := .updated }
    else none
  | .platformAlarmProcess diagEnable diagMode =>
    if s.cli = .process then
      some { s with alarm := (OtEsp32.platformAlarmProcess diagEnable diagMode s.us s.alarm).1 }
    else none
  | .event a =>
    match s.cli.event a, s.sel.step a with
    | some pc, some sel => some { s with cli := pc, sel := sel }
    | _, _ => none

/-! ## What a sleep may be like -/

/-- The deadline in milliseconds. -/
def Alarm.deadline (alarm : Alarm) : Nat := (alarm.sAlarmT0 + alarm.sAlarmDt).toNat

/-- `run_cli` sleeps in `otSysMainloopPoll`. -/
def SleepSys.Blocked (s : SleepSys) : Prop := s.cli = .inPoll ∧ ∃ sem, s.sel.main = .asleep sem

/-- The `select` that sleeps has been signalled, or a task is inside `event_write`, past its
increment, and is about to signal it. -/
def SleepSys.WakePending (s : SleepSys) : Prop :=
  (∃ sem, s.sel.main = .asleep sem ∧ sem ∈ s.sel.dev.triggered) ∨ ∃ t, s.sel.writers t ≠ .idle

/-- Counted from the last `otSysMainloopUpdate`, the timeout ends no later than the alarm's
deadline, or at once. -/
def SleepSys.InTime (s : SleepSys) : Prop :=
  s.mainloop.mTimeout.us ≤ (s.alarm.deadline - s.updatedAt / 1000) * 1000

/-- An application task starts the alarm. -/
def SleepAct.StartsFromApp : SleepAct → Prop
  | .otPlatAlarmMilliStartAt (.app _) _ _ => True
  | _ => False

def SleepAct.Resets : SleepAct → Prop
  | .otPlatReset _ => True
  | _ => False

/-- `otSysMainloopBreak` writes to the event device. -/
def SleepAct.Breaks : SleepAct → Prop
  | .event (.incr _) => True
  | _ => False

/-- The writes since the event was last read. -/
def unread (as : List SleepAct) : Nat :=
  as.foldl (fun n a =>
    match a with
    | .event (.incr _) => n + 1
    | .event .read => 0
    | _ => n) 0

/-! ## The counter -/

theorem unread_concat (as : List SleepAct) (a : SleepAct) :
    unread (as ++ [a]) =
      match a with
      | .event (.incr _) => unread as + 1
      | .event .read => 0
      | _ => unread as := by
  simp only [unread, List.foldl_append, List.foldl_cons, List.foldl_nil]

variable {fds : Fds} {s s' : SleepSys} {pre : List SleepAct} {a : SleepAct}

/-- The counter holds the writes since the last read, in 8 bits. -/
structure CounterInv (pre : List SleepAct) (s : SleepSys) : Prop where
  sel : SelInv s.sel
  isOpen : s.sel.dev.sEvent.mIsOpen = true
  counter : s.sel.dev.sEvent.mCounter.toNat = unread pre % 256

/-- `run_cli` moves from `pc` to `pc'`, and comes neither between the update and the poll nor between
the check and the poll that way. -/
structure SleepPc.Keeps (pc pc' : SleepPc) : Prop where
  hasTimeout : pc'.hasTimeout = true → pc.hasTimeout = true
  toPoll : pc'.toPoll = true → pc.toPoll = true

theorem SleepPc.lock_keeps {pc pc' : SleepPc} (h : pc.lock = some pc') : pc.Keeps pc' := by
  unfold SleepPc.lock at h
  split at h <;> cases h
  · exact ⟨nofun, fun _ => rfl⟩
  · exact ⟨nofun, nofun⟩

theorem SleepPc.unlock_keeps {pc pc' : SleepPc} (h : pc.unlock = some pc') : pc.Keeps pc' := by
  unfold SleepPc.unlock at h
  split at h <;> cases h
  · exact ⟨fun _ => rfl, fun _ => rfl⟩
  · exact ⟨nofun, nofun⟩

theorem SleepPc.event_keeps {pc pc' : SleepPc} {b : SelAct} (h : pc.event b = some pc') :
    pc.Keeps pc' := by
  unfold SleepPc.event at h
  split at h <;> cases h
  all_goals first
    | exact ⟨id, id⟩
    | exact ⟨fun _ => rfl, fun _ => rfl⟩

/-- The processing reads the event, and it is not before the poll. -/
theorem SleepPc.event_read {pc pc' : SleepPc} (h : pc.event .read = some pc') :
    pc'.hasTimeout = false ∧ pc'.toPoll = false := by
  unfold SleepPc.event at h
  split at h <;> cases h
  all_goals first
    | exact ⟨rfl, rfl⟩
    | contradiction

/-- Taking or giving the lock changes the lock and where its taker is. -/
theorem step_apiLock {t : ApiTask} (ha : a = .lock t ∨ a = .unlock t)
    (h : s.step fds a = some s') :
    s' = { s with apiLock := s'.apiLock, cli := s'.cli } ∧ s.cli.Keeps s'.cli := by
  rcases ha with rfl | rfl
  · cases t with
    | cli =>
      simp only [SleepSys.step] at h
      split at h
      · rename_i pc hpc
        split at h
        · cases h
          exact ⟨rfl, SleepPc.lock_keeps hpc⟩
        · cases h
      · cases h
    | app n =>
      simp only [SleepSys.step] at h
      split at h
      · cases h
        exact ⟨rfl, id, id⟩
      · cases h
  · cases t with
    | cli =>
      simp only [SleepSys.step] at h
      split at h
      · rename_i pc hpc
        cases h
        exact ⟨rfl, SleepPc.unlock_keeps hpc⟩
      · cases h
    | app n =>
      simp only [SleepSys.step] at h
      split at h
      · cases h
        exact ⟨rfl, id, id⟩
      · cases h

/-- Only the steps of the event device touch it. -/
theorem step_sel (h : s.step fds a = some s') :
    (∃ b, a = .event b ∧ s.sel.step b = some s'.sel) ∨ ((∀ b, a ≠ .event b) ∧ s'.sel = s.sel) := by
  cases a with
  | event b =>
    simp only [SleepSys.step] at h
    split at h
    · rename_i pc sel hpc hsel
      cases h
      exact .inl ⟨b, rfl, hsel⟩
    · cases h
  | lock t =>
    right
    rw [(step_apiLock (.inl rfl) h).1]
    exact ⟨nofun, rfl⟩
  | unlock t =>
    right
    rw [(step_apiLock (.inr rfl) h).1]
    exact ⟨nofun, rfl⟩
  | _ =>
    right
    simp only [SleepSys.step] at h
    repeat' split at h
    all_goals cases h
    all_goals exact ⟨nofun, rfl⟩

theorem step_counterInv (hi : CounterInv pre s) (h : s.step fds a = some s') :
    CounterInv (pre ++ [a]) s' := by
  obtain ⟨hsel, ho, hc⟩ := hi
  rcases step_sel h with ⟨b, rfl, hb⟩ | ⟨ha, hs⟩
  · obtain ⟨ho', hc'⟩ := SelSys.step_counter ho hb
    refine ⟨step_selInv hsel hb, ho', ?_⟩
    rw [hc', unread_concat]
    cases b with
    | incr t =>
      have h1 : (1 : UInt8).toNat = 1 := rfl
      simp only [UInt8.toNat_add, hc, h1]
      omega
    | read => rfl
    | _ => exact hc
  · rw [← hs] at hsel ho hc
    refine ⟨hsel, ho, ?_⟩
    rw [hc, unread_concat]
    cases a with
    | event b => exact absurd rfl (ha b)
    | _ => rfl

theorem counter_pos (hi : CounterInv pre s) (h0 : 0 < unread pre) (h : unread pre < 256) :
    s.sel.dev.sEvent.mCounter ≠ 0 := by
  intro hz
  have hc := hi.counter
  rw [hz, Nat.mod_eq_of_lt h] at hc
  exact absurd hc (Nat.ne_of_lt h0)

theorem wakePending_of_counter (hi : CounterInv pre s) (hb : s.Blocked)
    (hc : s.sel.dev.sEvent.mCounter ≠ 0) : s.WakePending := by
  obtain ⟨-, sem, ha⟩ := hb
  rcases hi.sel.covered sem (by rw [ha]; rfl) hc with hsig | hw
  · exact .inl ⟨sem, ha, hsig⟩
  · exact .inr hw

/-! ## The alarm and the flag -/

/-- The alarm was started by an application task, with no `otSysMainloopUpdate` and no
`otSysMainloopBreak` since. -/
def StartedUnseen (fds : Fds) (s0 : SleepSys) (as : List SleepAct) : Prop :=
  Since (SleepSys.step fds) s0 as (fun _ a => a.StartsFromApp)
    (fun a => a = .otSysMainloopUpdate ∨ a.Breaks)

/-- A reset was asked for, with no check of the flag and no `otSysMainloopBreak` since. -/
def ResetUnseen (fds : Fds) (s0 : SleepSys) (as : List SleepAct) : Prop :=
  Since (SleepSys.step fds) s0 as (fun _ a => a.Resets) (fun a => a = .check ∨ a.Breaks)

/-- From the update to the poll a running alarm is in time, from the check to the poll no reset is
asked for, or else an application task did it unseen or the event is unread. -/
structure SleepInv (fds : Fds) (s0 : SleepSys) (pre : List SleepAct) (s : SleepSys) : Prop where
  run : exec (SleepSys.step fds) s0 pre = some s
  counter : CounterInv pre s
  alarm : s.cli.hasTimeout = true → s.us / 1000 < 2 ^ 32 → s.alarm.sIsRunning = true →
    s.InTime ∨ StartedUnseen fds s0 pre ∨ 0 < unread pre
  reset : s.cli.toPoll = true → s.gPlatformPseudoResetWasRequested = true →
    ResetUnseen fds s0 pre ∨ 0 < unread pre

variable {s0 : SleepSys}

/-- What was unseen stays so over a step that neither shows it nor ends it. -/
theorem StartedUnseen.step (he : exec (SleepSys.step fds) s0 pre = some s)
    (h : StartedUnseen fds s0 pre) (ha : a ≠ .otSysMainloopUpdate) (hb : ¬ a.Breaks) :
    StartedUnseen fds s0 (pre ++ [a]) :=
  (since_concat he).mpr (.inr ⟨fun hq => hq.elim ha hb, h⟩)

theorem ResetUnseen.step (he : exec (SleepSys.step fds) s0 pre = some s)
    (h : ResetUnseen fds s0 pre) (ha : a ≠ .check) (hb : ¬ a.Breaks) :
    ResetUnseen fds s0 (pre ++ [a]) :=
  (since_concat he).mpr (.inr ⟨fun hq => hq.elim ha hb, h⟩)

/-- A write leaves the event unread until the processing reads it. -/
theorem unread_step (h : 0 < unread pre ∨ a.Breaks) (hr : a ≠ .event .read) :
    0 < unread (pre ++ [a]) := by
  rw [unread_concat]
  split
  · exact Nat.succ_pos _
  · exact absurd rfl hr
  · rename_i hi _
    rcases h with h | h
    · exact h
    · unfold SleepAct.Breaks at h
      split at h
      · exact absurd rfl (hi _)
      · exact h.elim

/-- The timeout that `otSysMainloopUpdate` leaves for a running alarm is no longer than what remains
to its deadline. -/
theorem otSysMainloopUpdate_inTime {us : Nat} {alarm : Alarm} {pending : Bool}
    {aMainloop : MainloopContext} (hw : us / 1000 < 2 ^ 32) (hr : alarm.sIsRunning = true) :
    (otSysMainloopUpdate fds us alarm pending aMainloop).mTimeout.us ≤
      (alarm.deadline - us / 1000) * 1000 := by
  cases pending with
  | true =>
    rw [otSysMainloopUpdate_pending]
    exact Nat.zero_le _
  | false =>
    rw [otSysMainloopUpdate_idle]
    by_cases hd : alarm.due us
    · rw [platformAlarmUpdate_due hr hd]
      exact Nat.zero_le _
    · rw [platformAlarmUpdate_us hr hd, Nat.mod_eq_of_lt hw]
      exact Nat.le_refl _

theorem step_us (h : s.step fds a = some s') : s.us ≤ s'.us := by
  cases a with
  | advance us =>
    cases h
    exact Nat.le_add_right _ _
  | lock t =>
    have hus : s'.us = s.us := by rw [(step_apiLock (.inl rfl) h).1]
    exact Nat.le_of_eq hus.symm
  | unlock t =>
    have hus : s'.us = s.us := by rw [(step_apiLock (.inr rfl) h).1]
    exact Nat.le_of_eq hus.symm
  | _ =>
    simp only [SleepSys.step] at h
    repeat' split at h
    all_goals cases h
    all_goals exact Nat.le_refl _

section Step

variable (hi : SleepInv fds s0 pre s)
include hi

/-- A step that leaves the alarm and the context as they are keeps a sleep in time. -/
theorem SleepInv.alarm_same (hp : s'.cli.hasTimeout = true → s.cli.hasTimeout = true)
    (hus : s.us ≤ s'.us) (halarm : s'.alarm = s.alarm) (hm : s'.mainloop = s.mainloop)
    (hu : s'.updatedAt = s.updatedAt) (ha : a ≠ .otSysMainloopUpdate) (hr : a ≠ .event .read) :
    s'.cli.hasTimeout = true → s'.us / 1000 < 2 ^ 32 → s'.alarm.sIsRunning = true →
      s'.InTime ∨ StartedUnseen fds s0 (pre ++ [a]) ∨ 0 < unread (pre ++ [a]) := by
  intro hp' hw hrun
  have hw' : s.us / 1000 < 2 ^ 32 := Nat.lt_of_le_of_lt (Nat.div_le_div_right hus) hw
  have hrun' : s.alarm.sIsRunning = true := halarm ▸ hrun
  by_cases hb : a.Breaks
  · exact .inr (.inr (unread_step (.inr hb) hr))
  · rcases hi.alarm (hp hp') hw' hrun' with ht | hs | h0
    · left
      unfold SleepSys.InTime at ht ⊢
      rw [halarm, hm, hu]
      exact ht
    · exact .inr (.inl (hs.step hi.run ha hb))
    · exact .inr (.inr (unread_step (.inl h0) hr))

theorem SleepInv.reset_same (hp : s'.cli.toPoll = true → s.cli.toPoll = true)
    (hf : s'.gPlatformPseudoResetWasRequested = s.gPlatformPseudoResetWasRequested)
    (ha : a ≠ .check) (hr : a ≠ .event .read) :
    s'.cli.toPoll = true → s'.gPlatformPseudoResetWasRequested = true →
      ResetUnseen fds s0 (pre ++ [a]) ∨ 0 < unread (pre ++ [a]) := by
  intro hp' hreq
  by_cases hb : a.Breaks
  · exact .inr (unread_step (.inr hb) hr)
  · rcases hi.reset (hp hp') (hf ▸ hreq) with hs | h0
    · exact .inl (hs.step hi.run ha hb)
    · exact .inr (unread_step (.inl h0) hr)

theorem SleepInv.step_alarm (h : s.step fds a = some s') :
    s'.cli.hasTimeout = true → s'.us / 1000 < 2 ^ 32 → s'.alarm.sIsRunning = true →
      s'.InTime ∨ StartedUnseen fds s0 (pre ++ [a]) ∨ 0 < unread (pre ++ [a]) := by
  have hus := step_us h
  cases a with
  | advance us =>
    cases h
    exact hi.alarm_same id hus rfl rfl rfl nofun nofun
  | lock t =>
    obtain ⟨heq, hk⟩ := step_apiLock (.inl rfl) h
    rw [heq]
    exact hi.alarm_same hk.hasTimeout (Nat.le_refl _) rfl rfl rfl nofun nofun
  | unlock t =>
    obtain ⟨heq, hk⟩ := step_apiLock (.inr rfl) h
    rw [heq]
    exact hi.alarm_same hk.hasTimeout (Nat.le_refl _) rfl rfl rfl nofun nofun
  | otPlatAlarmMilliStartAt t aT0 aDt =>
    cases t with
    | cli =>
      simp only [SleepSys.step] at h
      split at h
      · rename_i hc
        cases h
        intro hp
        simp only [SleepSys.runsOpenThread, decide_eq_true_eq] at hc
        rcases hc with hc | hc <;> simp [hc, SleepPc.hasTimeout] at hp
      · cases h
    | app n => exact fun _ _ _ => .inr (.inl ((since_concat hi.run).mpr (.inl trivial)))
  | otPlatAlarmMilliStop t =>
    simp only [SleepSys.step] at h
    split at h
    · cases h
      intro _ _ hrun
      cases hrun
    · cases h
  | otPlatReset t =>
    simp only [SleepSys.step] at h
    split at h
    · cases h
      exact hi.alarm_same id hus rfl rfl rfl nofun nofun
    · cases h
  | tasklets t pending =>
    simp only [SleepSys.step] at h
    split at h
    · cases h
      exact hi.alarm_same id hus rfl rfl rfl nofun nofun
    · cases h
  | check =>
    simp only [SleepSys.step] at h
    split at h
    · split at h <;> cases h <;> exact nofun
    · cases h
  | otSysMainloopUpdate =>
    simp only [SleepSys.step] at h
    split at h
    · cases h
      exact fun _ hw hrun => .inl (otSysMainloopUpdate_inTime hw hrun)
    · cases h
  | platformAlarmProcess diagEnable diagMode =>
    simp only [SleepSys.step] at h
    split at h
    · rename_i hc
      cases h
      intro hp
      simp [hc, SleepPc.hasTimeout] at hp
    · cases h
  | event b =>
    simp only [SleepSys.step] at h
    split at h
    · rename_i pc sel hpc hsel
      cases h
      intro hp
      refine hi.alarm_same (SleepPc.event_keeps hpc).hasTimeout hus rfl rfl rfl nofun ?_ hp
      rintro ⟨⟩
      rw [(SleepPc.event_read hpc).1] at hp
      cases hp
    · cases h

theorem SleepInv.step_reset (h : s.step fds a = some s') :
    s'.cli.toPoll = true → s'.gPlatformPseudoResetWasRequested = true →
      ResetUnseen fds s0 (pre ++ [a]) ∨ 0 < unread (pre ++ [a]) := by
  cases a with
  | advance us =>
    cases h
    exact hi.reset_same id rfl nofun nofun
  | lock t =>
    obtain ⟨heq, hk⟩ := step_apiLock (.inl rfl) h
    rw [heq]
    exact hi.reset_same hk.toPoll rfl nofun nofun
  | unlock t =>
    obtain ⟨heq, hk⟩ := step_apiLock (.inr rfl) h
    rw [heq]
    exact hi.reset_same hk.toPoll rfl nofun nofun
  | otPlatReset t => exact fun _ _ => .inl ((since_concat hi.run).mpr (.inl trivial))
  | check =>
    simp only [SleepSys.step] at h
    split at h
    · split at h
      · cases h
        exact nofun
      · rename_i hf
        cases h
        exact fun _ hreq => absurd hreq hf
    · cases h
  | otSysMainloopUpdate =>
    simp only [SleepSys.step] at h
    split at h
    · rename_i hc
      cases h
      refine hi.reset_same ?_ rfl nofun nofun
      intro _
      rw [hc]
      rfl
    · cases h
  | event b =>
    simp only [SleepSys.step] at h
    split at h
    · rename_i pc sel hpc hsel
      cases h
      intro hp
      refine hi.reset_same (SleepPc.event_keeps hpc).toPoll rfl nofun ?_ hp
      rintro ⟨⟩
      rw [(SleepPc.event_read hpc).2] at hp
      cases hp
    · cases h
  | _ =>
    simp only [SleepSys.step] at h
    split at h
    · cases h
      exact hi.reset_same id rfl nofun nofun
    · cases h

end Step

theorem init_sleepInv (us : Nat) (alarm : Alarm) (reset : Bool) :
    SleepInv fds (.init us alarm reset) [] (.init us alarm reset) where
  run := rfl
  counter := ⟨init_selInv, rfl, rfl⟩
  alarm := nofun
  reset := nofun

theorem step_sleepInv (hi : SleepInv fds s0 pre s) (h : s.step fds a = some s') :
    SleepInv fds s0 (pre ++ [a]) s' where
  run := exec_concat.mpr ⟨s, hi.run, h⟩
  counter := step_counterInv hi.counter h
  alarm := hi.step_alarm h
  reset := hi.step_reset h

theorem run_sleepInv {us : Nat} {alarm : Alarm} {reset : Bool} {as : List SleepAct}
    (h : exec (SleepSys.step fds) (.init us alarm reset) as = some s) :
    SleepInv fds (.init us alarm reset) as s :=
  exec_inv (SleepInv fds (.init us alarm reset)) (fun _ _ _ => True) (init_sleepInv us alarm reset)
    (fun _ _ _ _ hi _ h => step_sleepInv hi h) (fun _ _ _ _ _ _ => trivial) h

/-! ## What a sleeping main loop may miss -/

/-- In every reachable state in which `run_cli` sleeps in `otSysMainloopPoll`: a running alarm is in
time or a wake-up is pending, unless an application task has started it since the last
`otSysMainloopUpdate` without `otSysMainloopBreak`; and for a requested reset a wake-up is pending,
unless it was requested since the last check of the flag without `otSysMainloopBreak`. -/
theorem sleep_settled (fds : Fds) (us : Nat) (alarm : Alarm) (reset : Bool) (as : List SleepAct)
    (s : SleepSys) (h : exec (SleepSys.step fds) (.init us alarm reset) as = some s)
    (hb : s.Blocked) (hu : unread as < 256) :
    (s.us / 1000 < 2 ^ 32 → s.alarm.sIsRunning = true →
      s.WakePending ∨ s.InTime ∨ StartedUnseen fds (.init us alarm reset) as) ∧
    (s.gPlatformPseudoResetWasRequested = true →
      s.WakePending ∨ ResetUnseen fds (.init us alarm reset) as) := by
  have hi := run_sleepInv h
  have hwake : 0 < unread as → s.WakePending := fun h0 =>
    wakePending_of_counter hi.counter hb (counter_pos hi.counter h0 hu)
  have hpc := hb.1
  refine ⟨?_, ?_⟩
  · intro hw hrun
    rcases hi.alarm (by rw [hpc]; rfl) hw hrun with ht | hs | h0
    · exact .inr (.inl ht)
    · exact .inr (.inr hs)
    · exact .inl (hwake h0)
  · intro hreq
    rcases hi.reset (by rw [hpc]; rfl) hreq with hs | h0
    · exact .inr hs
    · exact .inl (hwake h0)

/-- One turn of the loop up to the sleep, with `tasklets` done in `otTaskletsProcess` and `apps`
done by application tasks between the update and the poll. -/
def sleepTurn (tasklets apps : List SleepAct) : List SleepAct :=
  [.check, .lock .cli] ++ tasklets ++ [.otSysMainloopUpdate, .unlock .cli] ++ apps ++
    [.event (.startLock true), .event .startStore, .event .startCheck, .event .startUnlock]

/-- A tasklet starts the alarm, and an application task calls `otSysMainloopBreak`. -/
def settledRun : List SleepAct :=
  sleepTurn [.otPlatAlarmMilliStartAt .cli 0 5] [.event (.incr 0), .event (.test 0)]

theorem sleep_settled_break :
    ∃ s, exec (SleepSys.step ⟨8, 3, 4⟩) (.init 0 .init false) settledRun = some s ∧
      s.Blocked ∧
      (s.us / 1000 < 2 ^ 32 → s.alarm.sIsRunning = true →
        s.WakePending ∨ s.InTime ∨ StartedUnseen ⟨8, 3, 4⟩ (.init 0 .init false) settledRun) ∧
      (s.gPlatformPseudoResetWasRequested = true →
        s.WakePending ∨ ResetUnseen ⟨8, 3, 4⟩ (.init 0 .init false) settledRun) := by
  refine ⟨_, rfl, ⟨rfl, _, rfl⟩, ?_⟩
  exact sleep_settled ⟨8, 3, 4⟩ 0 .init false settledRun _ rfl ⟨rfl, _, rfl⟩ (by decide)

/-- Between the update and the poll an application task starts the alarm and asks for a reset. -/
def unsettledRun : List SleepAct :=
  sleepTurn [] [.lock (.app 0), .otPlatAlarmMilliStartAt (.app 0) 0 5, .otPlatReset (.app 0),
    .unlock (.app 0)]

/-- A tasklet starts the alarm, and two milliseconds pass between the update and the poll. -/
def lateRun : List SleepAct := sleepTurn [.otPlatAlarmMilliStartAt .cli 0 5] [.advance 2000]

theorem not_wakePending (ht : s.sel.dev.triggered = []) (hw : ∀ t, s.sel.writers t = .idle) :
    ¬ s.WakePending := by
  rintro (⟨sem, -, hsig⟩ | ⟨t, ht⟩)
  · rw [ht] at hsig
    cases hsig
  · exact ht (hw t)

/-- In `unsettledRun` the `select` sleeps with the timeout of a stopped alarm and nothing pending;
in `lateRun` it falls asleep with a timeout that ends after the deadline. -/
theorem sleep_unsettled :
    (¬ ∀ (fds : Fds) (us : Nat) (alarm : Alarm) (reset : Bool) (as : List SleepAct) (s : SleepSys),
      exec (SleepSys.step fds) (.init us alarm reset) as = some s → s.Blocked →
      s.us / 1000 < 2 ^ 32 → s.alarm.sIsRunning = true → s.WakePending ∨ s.InTime) ∧
    (¬ ∀ (fds : Fds) (us : Nat) (alarm : Alarm) (reset : Bool) (as : List SleepAct) (s : SleepSys),
      exec (SleepSys.step fds) (.init us alarm reset) as = some s → s.Blocked →
      s.gPlatformPseudoResetWasRequested = true → s.WakePending) ∧
    ∃ s, exec (SleepSys.step ⟨8, 3, 4⟩) (.init 0 .init false) lateRun = some s ∧ s.Blocked ∧
      s.alarm.sIsRunning = true ∧ ¬ s.WakePending ∧
      s.alarm.deadline * 1000 < s.us + s.mainloop.mTimeout.us := by
  have hrun : ∃ s, exec (SleepSys.step ⟨8, 3, 4⟩) (.init 0 .init false) unsettledRun = some s ∧
      s.Blocked ∧ s.us = 0 ∧ s.alarm.sIsRunning = true ∧ ¬ s.InTime ∧
      s.gPlatformPseudoResetWasRequested = true ∧ ¬ s.WakePending :=
    ⟨_, rfl, ⟨rfl, _, rfl⟩, rfl, rfl, by unfold SleepSys.InTime; decide, rfl,
      not_wakePending rfl fun _ => rfl⟩
  obtain ⟨s, hs, hb, hus, halarm, hlate, hreq, hwake⟩ := hrun
  refine ⟨fun hclaim => ?_, fun hclaim => hwake (hclaim _ _ _ _ _ s hs hb hreq), ?_⟩
  · exact (hclaim _ _ _ _ _ s hs hb (by rw [hus]; decide) halarm).elim hwake hlate
  · exact ⟨_, rfl, ⟨rfl, _, rfl⟩, rfl, not_wakePending rfl fun _ => rfl, by decide⟩

end OtEsp32
