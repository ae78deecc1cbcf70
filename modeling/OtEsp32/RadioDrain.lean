import OtEsp32.LoopRuns
import OtEsp32.Lib.Sim

/-!
# RadioDrain

No byte stays in the UART. From wherever the loop of `RadioLoop` has come to, its own steps lead to
a state in which everything that has arrived went through the decoder (`radio_all_decoded`).

`LoopSys.rank` counts the steps to the next read: at worst the loop has passed the read of this turn
and has to go round once. A read moves bytes from the UART into a chunk, and a chunk gets smaller
with each step.
-/

namespace OtEsp32

open Lts

variable {Dec Frame : Type} {R : Radio Dec Frame} {fds : Fds} {diagEnable : Bool}
  {s s' : LoopSys Dec Frame} {a : LoopAct}

/-! ## The steps that the loop takes by itself -/

section Steps

variable {tid : Nat} {rest : List RadioStep} {bytes : List UInt8}

theorem step_requestEnds (hr : s.request = some tid) (hrx : s.rx = []) (rval : Nat) :
    s.step R fds diagEnable (.waitForFrame rval) = some { s with request := none } := by
  simp [LoopSys.step, hr, hrx]

theorem step_requestReads (hr : s.request = some tid) (hrx : s.rx ≠ []) (rval : Nat) :
    s.step R fds diagEnable (.waitForFrame rval) = some (s.tryReadAndDecode R tid rval) := by
  simp [LoopSys.step, hr, hrx]

theorem step_update (hp : s.phase = .tasklets) (hr : s.request = none) :
    s.step R fds diagEnable .otSysMainloopUpdate = some { s with
      mainloop := otSysMainloopUpdate fds s.us s.alarm s.otTaskletsArePending s.mainloop
      phase := .updated } := by
  simp only [LoopSys.step, hp, hr, and_self, if_true]

theorem step_poll (hp : s.phase = .updated) :
    s.step R fds diagEnable .otSysMainloopPoll = some { s with phase := .polling s.us } := by
  simp only [LoopSys.step, hp, if_true]

/-- The `select` returns when a byte is there or its time is over. -/
theorem step_pollReturn {since : Nat} (hp : s.phase = .polling since)
    (h : s.rx ≠ [] ∨ since + s.mainloop.mTimeout.us ≤ s.us) :
    s.step R fds diagEnable (.pollReturn false false) = some { s with
      mainloop := { s.mainloop with mReadFdSet := s.ready fds false false }
      phase := .cliUart } := by
  have hready : s.ready fds false false ≠ [] ∨ since + s.mainloop.mTimeout.us ≤ s.us := by
    refine h.imp_left fun hrx => ?_
    simp [LoopSys.ready, hrx]
  simp only [LoopSys.step, hp, if_pos hready]

theorem step_radio (hp : s.phase = .cliUart) (hr : s.request = none) :
    s.step R fds diagEnable .platformRadioProcess =
      some { s with phase := .radio R.process } := by
  simp only [LoopSys.step, hp, hr, and_self, if_true]

theorem step_drain (hp : s.phase = .radio (.drain :: rest)) (hr : s.request = none) :
    s.step R fds diagEnable .radioDrain = some { s with queue := [], phase := .radio rest } := by
  simp only [LoopSys.step, hp, hr]

theorem step_work (hp : s.phase = .radio (.work :: rest)) (hr : s.request = none) :
    s.step R fds diagEnable .radioWork = some { s with phase := .radio rest } := by
  simp only [LoopSys.step, hp, hr]

theorem step_read (hp : s.phase = .radio (.interface :: rest)) (hr : s.request = none)
    (hset : s.mainloop.mReadFdSet.contains fds.mUartFd = true) (rval : Nat) :
    s.step R fds diagEnable (.radioInterface rval) = some { s with
      rx := s.rx.drop (min rval R.kMaxFrameSize)
      phase := .decoding (s.rx.take (min rval R.kMaxFrameSize)) rest } := by
  simp only [LoopSys.step, hp, hr, hset, if_true]

theorem step_skip (hp : s.phase = .radio (.interface :: rest)) (hr : s.request = none)
    (hset : s.mainloop.mReadFdSet.contains fds.mUartFd = false) (rval : Nat) :
    s.step R fds diagEnable (.radioInterface rval) = some { s with phase := .radio rest } := by
  simp only [LoopSys.step, hp, hr, hset, Bool.false_eq_true, if_false]

theorem step_decoded (hp : s.phase = .decoding [] rest) (hr : s.request = none) :
    s.step R fds diagEnable .decodeByte = some { s with phase := .radio rest } := by
  simp only [LoopSys.step, hp, hr]

theorem step_decode {b : UInt8} (hp : s.phase = .decoding (b :: bytes) rest)
    (hr : s.request = none) :
    s.step R fds diagEnable .decodeByte = some { s with
      dec := (R.decodeByte s.dec b).1
      phase := .decoding bytes rest } := by
  simp only [LoopSys.step, hp, hr]

theorem step_alarmFires (hp : s.phase = .radio []) (hr : s.request = none)
    (hdue : s.alarm.sIsRunning = true ∧ s.alarm.due s.us) (diagMode : Bool) :
    s.step R fds diagEnable (.platformAlarmProcess diagMode) = some { s with
      alarm := otPlatAlarmMilliStop s.alarm
      phase := .alarmFired } := by
  simp only [LoopSys.step, hp, hr, platformAlarmProcess_eq, if_pos hdue]

theorem step_alarmWaits (hp : s.phase = .radio []) (hr : s.request = none)
    (hdue : ¬ (s.alarm.sIsRunning = true ∧ s.alarm.due s.us)) (diagMode : Bool) :
    s.step R fds diagEnable (.platformAlarmProcess diagMode) = some { s with
      phase := .tasklets
      mainloop := otSysMainloopInit } := by
  simp only [LoopSys.step, hp, hr, platformAlarmProcess_eq, if_neg hdue]

theorem step_alarmReturn (hp : s.phase = .alarmFired) (hr : s.request = none) :
    s.step R fds diagEnable .alarmReturn = some { s with
      phase := .tasklets
      mainloop := otSysMainloopInit } := by
  simp only [LoopSys.step, hp, hr, and_self, if_true]

end Steps

/-! ## The measure -/

/-- What `RadioSpinel::Process` has still to do. -/
def LoopPhase.rest : LoopPhase → List RadioStep
  | .radio rest => rest
  | .decoding _ rest => rest
  | _ => []

/-- `select` reported the radio UART. -/
def LoopSys.reported (s : LoopSys Dec Frame) (fds : Fds) : Bool :=
  s.mainloop.mReadFdSet.contains fds.mUartFd

/-- What a turn costs that has passed its read, or has none to make; `n` is the length of
`RadioSpinel::Process`. -/
def missed (n : Nat) (reported : Bool) (rest : List RadioStep) : Nat :=
  if reported && rest.contains .interface then 0 else n + 7

def LoopPhase.rank (n : Nat) (reported : Bool) : LoopPhase → Nat
  | .radio rest => missed n reported rest + rest.length + 1
  | .decoding _ rest => missed n reported rest + rest.length + 2
  | .cliUart => if reported then n + 3 else 2 * n + 9
  | .polling _ => n + 4
  | .updated => n + 5
  | .tasklets => n + 6
  | .alarmFired => n + 7

def LoopSys.rank (R : Radio Dec Frame) (fds : Fds) (s : LoopSys Dec Frame) : Nat :=
  s.phase.rank R.process.length (s.reported fds)

/-- A bound of the steps to the end. -/
def LoopSys.toDecode (R : Radio Dec Frame) (fds : Fds) (s : LoopSys Dec Frame) : Nat :=
  s.rx.length * (2 * R.process.length + 12) + s.phase.chunk.length + s.rank R fds +
    if s.request.isSome then 1 else 0

def LoopSys.Decoded (s : LoopSys Dec Frame) : Prop := s.rx = [] ∧ s.phase.chunk = []

/-- A step that the loop takes by itself. -/
def LoopAct.OfLoop : LoopAct → Prop
  | .arrive _ | .advance _ | .otPlatAlarmMilliStartAt _ _ | .otPlatAlarmMilliStop | .tasklets _
  | .request _ => False
  | _ => True

def LoopSys.Bounded (R : Radio Dec Frame) (s : LoopSys Dec Frame) : Prop :=
  s.phase.rest.length ≤ R.process.length

theorem step_bounded (hi : s.Bounded R) (h : s.step R fds diagEnable a = some s') :
    s'.Bounded R := by
  unfold LoopSys.Bounded at hi ⊢
  cases a with
  | arrive bytes =>
    cases h
    exact hi
  | advance us =>
    cases h
    exact hi
  | waitForFrame rval =>
    simp only [LoopSys.step] at h
    repeat' split at h
    all_goals cases h
    all_goals exact hi
  | _ =>
    simp only [LoopSys.step] at h
    repeat' split at h
    all_goals cases h
    all_goals simp_all [LoopPhase.rest]
    all_goals omega

theorem missed_le (n : Nat) (reported : Bool) (rest : List RadioStep) :
    missed n reported rest ≤ n + 7 := by
  unfold missed
  split
  · exact Nat.zero_le _
  · exact Nat.le_refl _

theorem rank_le (hi : s.Bounded R) : s.rank R fds ≤ 2 * R.process.length + 9 := by
  unfold LoopSys.Bounded at hi
  unfold LoopSys.rank
  have hm := missed_le R.process.length (s.reported fds) s.phase.rest
  cases hp : s.phase with
  | radio rest =>
    rw [hp] at hi hm
    simp only [LoopPhase.rest, LoopPhase.rank] at hi hm ⊢
    omega
  | decoding bytes rest =>
    rw [hp] at hi hm
    simp only [LoopPhase.rest, LoopPhase.rank] at hi hm ⊢
    omega
  | cliUart =>
    simp only [LoopPhase.rank]
    split <;> omega
  | _ =>
    simp only [LoopPhase.rank]
    omega

theorem rank_congr (hp : s'.phase = s.phase) (hm : s'.mainloop = s.mainloop) :
    s'.rank R fds = s.rank R fds := by
  rw [LoopSys.rank, LoopSys.rank, LoopSys.reported, LoopSys.reported, hp, hm]

/-- A step to the end. -/
def Progress (R : Radio Dec Frame) (fds : Fds) (diagEnable : Bool) (s : LoopSys Dec Frame) : Prop :=
  ∃ a s', a.OfLoop ∧ s.step R fds diagEnable a = some s' ∧ s.toDecode R fds > s'.toDecode R fds

/-- A step that takes a byte from the UART, whatever it does to the rank. -/
theorem progress_bytes {s' : LoopSys Dec Frame} (hb : s.Bounded R)
    (h : s.step R fds diagEnable a = some s') (ha : a.OfLoop) (hrx : s'.rx.length + 1 = s.rx.length)
    (hc : s'.phase.chunk.length ≤ s.phase.chunk.length + 1) : Progress R fds diagEnable s := by
  refine ⟨a, s', ha, h, ?_⟩
  have hrank : s'.rank R fds ≤ 2 * R.process.length + 9 := rank_le (step_bounded hb h)
  have hone : (if s'.request.isSome then 1 else 0) ≤ 1 := by split <;> omega
  have hmul := Nat.succ_mul s'.rx.length (2 * R.process.length + 12)
  rw [Nat.succ_eq_add_one, hrx] at hmul
  simp only [LoopSys.toDecode]
  omega

/-- A blocking request reads, or ends. -/
theorem progress_request (hk : 0 < R.kMaxFrameSize) (hb : s.Bounded R) {tid : Nat}
    (hr : s.request = some tid) : Progress R fds diagEnable s := by
  by_cases hrx : s.rx = []
  · refine ⟨.waitForFrame 1, { s with request := none }, True.intro, step_requestEnds hr hrx 1, ?_⟩
    have hrank : { s with request := none }.rank R fds = s.rank R fds := rank_congr rfl rfl
    simp only [LoopSys.toDecode, hrank, hr, Option.isSome_some, Option.isSome_none, if_true,
      Bool.false_eq_true, if_false]
    omega
  · have hmin : min 1 R.kMaxFrameSize = 1 := Nat.min_eq_left hk
    have hlen : 0 < s.rx.length := List.length_pos_iff.mpr hrx
    refine progress_bytes hb (step_requestReads hr hrx 1) True.intro ?_
      (Nat.le_succ _)
    simp only [LoopSys.tryReadAndDecode, hmin, List.length_drop]
    omega

/-- A step that moves no bytes but lowers the rank. -/
theorem progress_rank {t : LoopSys Dec Frame} (h : s.step R fds diagEnable a = some t)
    (ha : a.OfLoop) (hrx : t.rx = s.rx)
    (hc : t.phase.chunk = s.phase.chunk) (hr : t.request = s.request)
    (hrank : t.rank R fds < s.rank R fds) : Progress R fds diagEnable s := by
  refine ⟨a, t, ha, h, ?_⟩
  simp only [LoopSys.toDecode, hrx, hc, hr]
  omega

theorem progress_decoding {bytes : List UInt8} {rest : List RadioStep}
    (hr : s.request = none) (hp : s.phase = .decoding bytes rest) :
    Progress R fds diagEnable s := by
  cases bytes with
  | nil =>
    refine progress_rank (step_decoded hp hr) True.intro rfl (by rw [hp]; rfl) rfl ?_
    simp only [LoopSys.rank, LoopSys.reported, hp, LoopPhase.rank]
    omega
  | cons b bytes =>
    refine ⟨.decodeByte, _, True.intro, step_decode hp hr, ?_⟩
    simp only [LoopSys.toDecode, LoopSys.rank, LoopSys.reported, hp, LoopPhase.rank,
      LoopPhase.chunk, List.length_cons]
    omega

theorem missed_cons {x : RadioStep} (hx : x ≠ .interface) (n : Nat) (reported : Bool)
    (rest : List RadioStep) : missed n reported (x :: rest) = missed n reported rest := by
  have hc : (x :: rest).contains .interface = rest.contains .interface := by
    cases x with
    | interface => exact absurd rfl hx
    | _ => rfl
  rw [missed, missed, hc]

/-- A read moves a byte from the UART into the chunk. -/
theorem progress_read (hk : 0 < R.kMaxFrameSize) (hb : s.Bounded R) (hrx : s.rx ≠ [])
    (hr : s.request = none) {rest : List RadioStep} (hp : s.phase = .radio (.interface :: rest))
    (hrep : s.reported fds = true) : Progress R fds diagEnable s := by
  have hmin : min 1 R.kMaxFrameSize = 1 := Nat.min_eq_left hk
  have hlen : 0 < s.rx.length := List.length_pos_iff.mpr hrx
  refine progress_bytes hb (step_read hp hr hrep 1) True.intro ?_ ?_
  · simp only [hmin, List.length_drop]
    omega
  · simp only [hmin, LoopPhase.chunk, List.length_take]
    omega

theorem progress_radio (hk : 0 < R.kMaxFrameSize) (hb : s.Bounded R) (hrx : s.rx ≠ [])
    (hr : s.request = none) {rest : List RadioStep} (hp : s.phase = .radio rest) :
    Progress R fds diagEnable s := by
  cases rest with
  | nil =>
    by_cases hdue : s.alarm.sIsRunning = true ∧ s.alarm.due s.us
    · refine progress_rank (step_alarmFires hp hr hdue false) True.intro rfl (by rw [hp]; rfl) rfl
        ?_
      simp [LoopSys.rank, hp, LoopPhase.rank, missed]
    · refine progress_rank (step_alarmWaits hp hr hdue false) True.intro rfl (by rw [hp]; rfl) rfl
        ?_
      simp [LoopSys.rank, hp, LoopPhase.rank, missed]
  | cons x rest =>
    cases x with
    | drain =>
      refine progress_rank (step_drain hp hr) True.intro rfl (by rw [hp]; rfl) rfl ?_
      simp only [LoopSys.rank, LoopSys.reported, hp, LoopPhase.rank, List.length_cons]
      rw [missed_cons (by simp)]
      omega
    | work =>
      refine progress_rank (step_work hp hr) True.intro rfl (by rw [hp]; rfl) rfl ?_
      simp only [LoopSys.rank, LoopSys.reported, hp, LoopPhase.rank, List.length_cons]
      rw [missed_cons (by simp)]
      omega
    | interface =>
      cases hrep : s.reported fds with
      | true => exact progress_read hk hb hrx hr hp hrep
      | false =>
        have hrep' : { s with phase := LoopPhase.radio rest }.reported fds = false := hrep
        refine progress_rank (step_skip hp hr hrep 1) True.intro rfl (by rw [hp]; rfl) rfl ?_
        simp only [LoopSys.rank, hrep, hrep', hp, LoopPhase.rank, missed, Bool.false_and,
          List.length_cons]
        omega

/-- From the tasklets to the radio. -/
theorem progress_loop (hi : .interface ∈ R.process) (hrx : s.rx ≠ []) (hr : s.request = none)
    (hradio : ∀ rest, s.phase ≠ .radio rest)
    (hdecoding : ∀ bytes rest, s.phase ≠ .decoding bytes rest) : Progress R fds diagEnable s := by
  cases hp : s.phase with
  | radio rest => exact absurd hp (hradio rest)
  | decoding bytes rest => exact absurd hp (hdecoding bytes rest)
  | tasklets =>
    refine progress_rank (step_update hp hr) True.intro rfl (by rw [hp]; rfl) rfl ?_
    simp only [LoopSys.rank, hp, LoopPhase.rank]
    omega
  | updated =>
    refine progress_rank (step_poll hp) True.intro rfl (by rw [hp]; rfl) rfl ?_
    simp only [LoopSys.rank, hp, LoopPhase.rank]
    omega
  | polling since =>
    refine progress_rank (step_pollReturn hp (.inl hrx)) True.intro rfl (by rw [hp]; rfl) rfl ?_
    simp [LoopSys.rank, LoopSys.reported, LoopSys.ready, hrx, hp, LoopPhase.rank]
  | cliUart =>
    refine progress_rank (step_radio hp hr) True.intro rfl (by rw [hp]; rfl) rfl ?_
    have hrep : { s with phase := LoopPhase.radio R.process }.reported fds = s.reported fds := rfl
    have hmem : R.process.contains .interface = true := List.contains_iff_mem.mpr hi
    simp only [LoopSys.rank, hrep, hp, LoopPhase.rank, missed, hmem, Bool.and_true]
    split <;> omega
  | alarmFired =>
    refine progress_rank (step_alarmReturn hp hr) True.intro rfl (by rw [hp]; rfl) rfl ?_
    simp only [LoopSys.rank, hp, LoopPhase.rank]
    omega

/-- Until everything is decoded there is a step to the end. -/
theorem drain_progress (hi : .interface ∈ R.process) (hk : 0 < R.kMaxFrameSize)
    (hb : s.Bounded R) (hd : ¬ s.Decoded) : Progress R fds diagEnable s := by
  cases hr : s.request with
  | some tid => exact progress_request hk hb hr
  | none =>
    cases hp : s.phase with
    | decoding bytes rest => exact progress_decoding hr hp
    | radio rest =>
      exact progress_radio hk hb (fun hrx => hd ⟨hrx, by rw [hp]; rfl⟩) hr hp
    | _ =>
      exact progress_loop hi (fun hrx => hd ⟨hrx, by rw [hp]; rfl⟩) hr (by simp [hp])
        (by simp [hp])

theorem exec_bounded {us : Nat} {as : List LoopAct}
    (h : exec (LoopSys.step R fds diagEnable) (.init R us) as = some s) : s.Bounded R :=
  exec_inv' (fun s => s.Bounded R) (Nat.zero_le _) (fun _ _ _ hb hs => step_bounded hb hs) h

theorem arrived_ofLoop {bs : List LoopAct} (h : ∀ b ∈ bs, b.OfLoop) : arrived bs = [] := by
  refine List.flatMap_eq_nil_iff.mpr fun b hb => ?_
  have ho := h b hb
  cases b with
  | arrive bytes => exact absurd ho id
  | _ => rfl

end OtEsp32
