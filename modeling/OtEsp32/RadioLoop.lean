import OtEsp32.Mainloop
import OtEsp32.Lib.Lts

/-!
# RadioLoop

The main loop as it reads the radio: `otTaskletsProcess`, `otSysMainloopUpdate`,
`otSysMainloopPoll` and `otSysMainloopProcess`, with the two paths on which a byte leaves the UART,
`HdlcInterface::Process` after the `select` and `HdlcInterface::WaitForFrame` inside a blocking
request.

`Radio` is what OpenThread brings: the HDLC decoder, the frames that end a request, the frames that
can be handled while one waits, and the order in which `RadioSpinel::Process` drains its queue and
calls `HdlcInterface::Process`. Bytes arrive at any time and a read returns any number of them.
-/

namespace OtEsp32

open Lts

/-- A step of `RadioSpinel::Process`. -/
inductive RadioStep where
  | drain
  | interface
  | work
  deriving DecidableEq, Repr

/-- `decodeByte` gives `some none` where a frame ends that fails its check, and `some (some f)` where
the frame `f` does. -/
structure Radio (Dec Frame : Type) where
  kMaxFrameSize : Nat
  decoder : Dec
  decodeByte : Dec → UInt8 → Dec × Option (Option Frame)
  answers : Nat → Frame → Bool
  handledNow : Frame → Bool
  process : List RadioStep

/-- The frames for which `Hdlc::Decoder::Decode` calls `HandleHdlcFrame`, less those that it
discards. -/
def Radio.decode {Dec Frame : Type} (R : Radio Dec Frame) : Dec → List UInt8 → Dec × List Frame
  | dec, [] => (dec, [])
  | dec, b :: bs =>
    let (dec, out) := R.decodeByte dec b
    let (dec, frames) := R.decode dec bs
    match out with
    | some (some frame) => (dec, frame :: frames)
    | _ => (dec, frames)

section Machine

variable {Dec Frame : Type} (R : Radio Dec Frame)

/-- The frames that go to the queue while the request `tid` waits. -/
def Radio.saved (tid : Nat) (frames : List Frame) : List Frame :=
  frames.filter fun frame => !R.answers tid frame && !R.handledNow frame

inductive LoopPhase where
  | tasklets
  | updated
  | polling (since : Nat)
  | cliUart
  | radio (rest : List RadioStep)
  | decoding (bytes : List UInt8) (rest : List RadioStep)
  | alarmFired
  deriving DecidableEq, Repr

/-- Whether OpenThread code runs, which may call the alarm, post tasklets and make requests. -/
def LoopPhase.runsOpenThread : LoopPhase → Bool
  | .updated | .polling _ => false
  | _ => true

/-- `rx` is what has arrived at the UART and has not been read. -/
structure LoopSys (Dec Frame : Type) where
  us : Nat
  alarm : Alarm
  otTaskletsArePending : Bool
  rx : List UInt8
  dec : Dec
  queue : List Frame
  request : Option Nat
  phase : LoopPhase
  mainloop : MainloopContext
  deriving DecidableEq, Repr

def LoopSys.init (us : Nat) : LoopSys Dec Frame :=
  { us := us
    alarm := .init
    otTaskletsArePending := false
    rx := []
    dec := R.decoder
    queue := []
    request := none
    phase := .tasklets
    mainloop := otSysMainloopInit }

inductive LoopAct where
  | arrive (bytes : List UInt8)
  | advance (us : Nat)
  | otPlatAlarmMilliStartAt (aT0 aDt : UInt32)
  | otPlatAlarmMilliStop
  | tasklets (pending : Bool)
  | request (tid : Nat)
  | waitForFrame (rval : Nat)
  | otSysMainloopUpdate
  | otSysMainloopPoll
  | pollReturn (event cliUart : Bool)
  | platformRadioProcess
  | radioDrain
  | radioInterface (rval : Nat)
  | radioWork
  | decodeByte
  | platformAlarmProcess (diagMode : Bool)
  | alarmReturn
  deriving DecidableEq, Repr

/-- `TryReadAndDecode` inside the request `tid`. -/
def LoopSys.tryReadAndDecode (tid rval : Nat) (s : LoopSys Dec Frame) : LoopSys Dec Frame :=
  let n := min rval R.kMaxFrameSize
  let (dec, frames) := R.decode s.dec (s.rx.take n)
  { s with
    rx := s.rx.drop n
    dec := dec
    queue := s.queue ++ R.saved tid frames
    request := if frames.any (R.answers tid) then none else some tid }

/-- The descriptors that are ready. -/
def LoopSys.ready (fds : Fds) (event cliUart : Bool) (s : LoopSys Dec Frame) : List Int :=
  (if event then [fds.sEventFd] else []) ++ (if cliUart then [fds.sCliUartFd] else []) ++
    if s.rx.isEmpty then [] else [fds.mUartFd]

def LoopSys.step (fds : Fds) (diagEnable : Bool) (s : LoopSys Dec Frame) :
    LoopAct → Option (LoopSys Dec Frame)
  | .arrive bytes => some { s with rx := s.rx ++ bytes }
  | .advance us => some { s with us := s.us + us }
  | .otPlatAlarmMilliStartAt aT0 aDt =>
    if s.phase.runsOpenThread then some { s with alarm := OtEsp32.otPlatAlarmMilliStartAt aT0 aDt }
    else none
  | .otPlatAlarmMilliStop =>
    if s.phase.runsOpenThread then some { s with alarm := OtEsp32.otPlatAlarmMilliStop s.alarm }
    else none
  | .tasklets pending =>
    if s.phase.runsOpenThread then some { s with otTaskletsArePending := pending } else none
  | .request tid =>
    if s.phase.runsOpenThread ∧ s.request = none then some { s with request := some tid } else none
  -- with nothing to read `WaitForFrame` times out, and the request ends with its error
  | .waitForFrame rval =>
    match s.request with
    | none => none
    | some tid =>
      if s.rx.isEmpty then some { s with request := none }
      else some (s.tryReadAndDecode R tid rval)
  | .otSysMainloopUpdate =>
    if s.phase = .tasklets ∧ s.request = none then
      some { s with
        mainloop := OtEsp32.otSysMainloopUpdate fds s.us s.alarm s.otTaskletsArePending s.mainloop
        phase := .updated }
    else none
  | .otSysMainloopPoll =>
    if s.phase = .updated then some { s with phase := .polling s.us } else none
  | .pollReturn event cliUart =>
    match s.phase with
    | .polling since =>
      if s.ready fds event cliUart ≠ [] ∨ since + s.mainloop.mTimeout.us ≤ s.us then
        some { s with
          mainloop := { s.mainloop with mReadFdSet := s.ready fds event cliUart }
          phase := .cliUart }
      else none
    | _ => none
  | .platformRadioProcess =>
    if s.phase = .cliUart ∧ s.request = none then some { s with phase := .radio R.process } else none
  | .radioDrain =>
    match s.phase, s.request with
    | .radio (.drain :: rest), none => some { s with queue := [], phase := .radio rest }
    | _, _ => none
  | .radioInterface rval =>
    match s.phase, s.request with
    | .radio (.interface :: rest), none =>
      let n := min rval R.kMaxFrameSize
      if s.mainloop.mReadFdSet.contains fds.mUartFd then
        some { s with rx := s.rx.drop n, phase := .decoding (s.rx.take n) rest }
      else some { s with phase := .radio rest }
    | _, _ => none
  | .radioWork =>
    match s.phase, s.request with
    | .radio (.work :: rest), none => some { s with phase := .radio rest }
    | _, _ => none
  -- outside a request every frame is handled at once
  | .decodeByte =>
    match s.phase, s.request with
    | .decoding (b :: bytes) rest, none =>
      some { s with dec := (R.decodeByte s.dec b).1, phase := .decoding bytes rest }
    | .decoding [] rest, none => some { s with phase := .radio rest }
    | _, _ => none
  | .platformAlarmProcess diagMode =>
    match s.phase, s.request with
    | .radio [], none =>
      match OtEsp32.platformAlarmProcess diagEnable diagMode s.us s.alarm with
      | (alarm, some _) => some { s with alarm := alarm, phase := .alarmFired }
      | (alarm, none) =>
        some { s with alarm := alarm, phase := .tasklets, mainloop := otSysMainloopInit }
    | _, _ => none
  | .alarmReturn =>
    if s.phase = .alarmFired ∧ s.request = none then
      some { s with phase := .tasklets, mainloop := otSysMainloopInit }
    else none

/-- While no request comes between, the steps of `HdlcInterface::Process` are one call of the
decoder. -/
theorem decodeByte_steps {R : Radio Dec Frame} {fds : Fds} {diagEnable : Bool}
    {s : LoopSys Dec Frame} {bytes : List UInt8} {rest : List RadioStep}
    (hp : s.phase = .decoding bytes rest) (hr : s.request = none) :
    exec (LoopSys.step R fds diagEnable) s (List.replicate (bytes.length + 1) .decodeByte) =
      some { s with dec := (R.decode s.dec bytes).1, phase := .radio rest } := by
  induction bytes generalizing s with
  | nil =>
    simp only [List.length_nil, List.replicate, exec, LoopSys.step, hp, hr, Radio.decode]
  | cons b bytes ih =>
    rw [List.length_cons, List.replicate_succ]
    have hstep : s.step R fds diagEnable .decodeByte =
        some { s with dec := (R.decodeByte s.dec b).1, phase := .decoding bytes rest } := by
      simp only [LoopSys.step, hp, hr]
    rw [exec_cons hstep]
    refine Eq.trans (ih rfl hr) ?_
    simp only [Radio.decode]
    split <;> rfl

/-! ## What fills the queue, and what makes the timeout zero -/

/-- A blocking request decodes a frame that it puts into the queue. -/
def LoopSys.Saves (s : LoopSys Dec Frame) : LoopAct → Prop
  | .waitForFrame rval =>
    ∃ tid, s.request = some tid ∧
      R.saved tid (R.decode s.dec (s.rx.take (min rval R.kMaxFrameSize))).2 ≠ []
  | _ => False

/-- `otSysMainloopUpdate` runs while a tasklet is pending or the alarm is due. -/
def LoopSys.UpdatesBusy (s : LoopSys Dec Frame) (a : LoopAct) : Prop :=
  a = .otSysMainloopUpdate ∧
    (s.otTaskletsArePending = true ∨ (s.alarm.sIsRunning = true ∧ s.alarm.due s.us))

/-- `otSysMainloopPoll` is entered. -/
def LoopSys.EntersPoll (s : LoopSys Dec Frame) (a : LoopAct) : Prop :=
  a = .otSysMainloopPoll ∧ s.phase = .updated

variable {R} {fds : Fds} {diagEnable : Bool} {s s' : LoopSys Dec Frame} {a : LoopAct}

theorem step_queue (h : s.step R fds diagEnable a = some s') :
    s'.queue ≠ [] ↔ s.Saves R a ∨ (a ≠ .radioDrain ∧ s.queue ≠ []) := by
  cases a with
  | waitForFrame rval =>
    simp only [LoopSys.step] at h
    split at h
    · cases h
    · rename_i tid ht
      split at h
      · rename_i hrx
        cases h
        have hnil : s.rx = [] := List.isEmpty_iff.mp hrx
        simp [LoopSys.Saves, hnil, Radio.decode, Radio.saved]
      · cases h
        by_cases hq : s.queue = []
        · simp [LoopSys.Saves, LoopSys.tryReadAndDecode, ht, hq]
        · simp [LoopSys.Saves, LoopSys.tryReadAndDecode, ht, hq]
  | radioDrain =>
    simp only [LoopSys.step] at h
    split at h
    · cases h
      simp [LoopSys.Saves]
    · cases h
  | _ =>
    simp only [LoopSys.step] at h
    repeat' split at h
    all_goals cases h
    all_goals simp [LoopSys.Saves]

/-- Between `otSysMainloopUpdate` and `otSysMainloopPoll` the context stays as it is. -/
theorem step_updated (h : s.step R fds diagEnable a = some s') (hp : s'.phase = .updated) :
    (a = .otSysMainloopUpdate ∧ (s'.mainloop.mTimeout = .zero ↔ s.UpdatesBusy a)) ∨
      (a ≠ .otSysMainloopUpdate ∧ s.phase = .updated ∧ s'.mainloop = s.mainloop) := by
  cases a with
  | otSysMainloopUpdate =>
    simp only [LoopSys.step] at h
    split at h
    · cases h
      simp [LoopSys.UpdatesBusy, otSysMainloopUpdate_zero_iff]
    · cases h
  | arrive bytes =>
    cases h
    exact .inr ⟨nofun, hp, rfl⟩
  | advance us =>
    cases h
    exact .inr ⟨nofun, hp, rfl⟩
  | waitForFrame rval =>
    simp only [LoopSys.step] at h
    split at h
    · cases h
    · split at h
      · cases h
        exact .inr ⟨nofun, hp, rfl⟩
      · cases h
        exact .inr ⟨nofun, hp, rfl⟩
  | _ =>
    simp only [LoopSys.step] at h
    repeat' split at h
    all_goals cases h
    all_goals simp_all [LoopPhase.runsOpenThread]

/-! ## Every run -/

/-- The queue holds a frame exactly when one was saved since the last drain, and before
`otSysMainloopPoll` the timeout is zero exactly when the last update was a busy one. -/
structure LoopInv (R : Radio Dec Frame) (fds : Fds) (diagEnable : Bool) (us : Nat)
    (pre : List LoopAct) (s : LoopSys Dec Frame) : Prop where
  run : exec (LoopSys.step R fds diagEnable) (.init R us) pre = some s
  queue : s.queue ≠ [] ↔
    Since (LoopSys.step R fds diagEnable) (.init R us) pre (fun s a => s.Saves R a)
      (· = .radioDrain)
  timeout : s.phase = .updated → (s.mainloop.mTimeout = .zero ↔
    Since (LoopSys.step R fds diagEnable) (.init R us) pre LoopSys.UpdatesBusy
      (· = .otSysMainloopUpdate))

theorem init_loopInv (us : Nat) : LoopInv R fds diagEnable us [] (.init R us) where
  run := rfl
  queue := by simp [LoopSys.init, not_since_nil]
  timeout h := by cases h

theorem step_loopInv {us : Nat} {pre : List LoopAct} (hi : LoopInv R fds diagEnable us pre s)
    (h : s.step R fds diagEnable a = some s') :
    LoopInv R fds diagEnable us (pre ++ [a]) s' where
  run := exec_concat.mpr ⟨s, hi.run, h⟩
  queue := by rw [since_concat hi.run, step_queue h, hi.queue]
  timeout hp := by
    rw [since_concat hi.run]
    rcases step_updated h hp with ⟨rfl, hz⟩ | ⟨ha, hu, hm⟩
    · simp [hz]
    · rw [hm, ← hi.timeout hu]
      simp [ha, LoopSys.UpdatesBusy]

/-- In every run: `otSysMainloopPoll` is never entered with a frame in the queue and a timeout that
is not zero, exactly when each time it is entered either no blocking request has saved a frame since
the last drain, or the last `otSysMainloopUpdate` found a tasklet pending or the alarm due. -/
theorem poll_settled_iff (R : Radio Dec Frame) (fds : Fds) (diagEnable : Bool) (us : Nat)
    (as : List LoopAct) :
    (AtSteps (LoopSys.step R fds diagEnable) (.init R us) as fun _ s a =>
        s.EntersPoll a → s.queue ≠ [] → s.mainloop.mTimeout = .zero) ↔
      AtSteps (LoopSys.step R fds diagEnable) (.init R us) as fun pre s a =>
        s.EntersPoll a →
          ¬ Since (LoopSys.step R fds diagEnable) (.init R us) pre (fun s a => s.Saves R a)
              (· = .radioDrain) ∨
            Since (LoopSys.step R fds diagEnable) (.init R us) pre LoopSys.UpdatesBusy
              (· = .otSysMainloopUpdate) := by
  refine atSteps_congr (LoopInv R fds diagEnable us) (init_loopInv us)
    (fun _ _ _ _ hi h => step_loopInv hi h) ?_
  intro pre s a hi
  refine forall_congr' fun hp => ?_
  rw [← hi.queue, ← hi.timeout hp.2]
  exact Decidable.imp_iff_not_or

end Machine

/-- Every byte is a frame, and the frame 0 answers every request. -/
def byteRadio : Radio Unit UInt8 :=
  { kMaxFrameSize := 8192
    decoder := ()
    decodeByte := fun _ b => ((), some (some b))
    answers := fun _ frame => frame == 0
    handledNow := fun _ => false
    process := [.drain, .interface, .work] }

/-- A request made by a tasklet reads the frame 1 on the way to its response. -/
def requestRun : List LoopAct :=
  [.arrive [1, 0], .request 0, .waitForFrame 2, .otSysMainloopUpdate]

/-- `select` is entered with the frame in the queue, no byte left in the UART and the timeout of a
stopped alarm. -/
theorem poll_unsettled :
    ¬ ∀ (R : Radio Unit UInt8) (fds : Fds) (diagEnable : Bool) (us : Nat) (as : List LoopAct),
      AtSteps (LoopSys.step R fds diagEnable) (.init R us) as fun _ s a =>
        s.EntersPoll a → s.queue ≠ [] → s.mainloop.mTimeout = .zero := by
  intro hclaim
  have hzero := hclaim byteRadio ⟨8, 3, 4⟩ false 0 (requestRun ++ [.otSysMainloopPoll]) requestRun
    .otSysMainloopPoll [] _ rfl rfl ⟨rfl, rfl⟩ (by decide)
  cases hzero

end OtEsp32
