import Mathlib.Algebra.Group.Nat.Defs
import OtEsp32.RadioLoop

/-!
# LoopRuns

What holds of every run of the loop of `RadioLoop`.

`radio_stream`: the bytes of the radio leave the UART on two paths, of which one (`WaitForFrame`)
may run while the other (`HdlcInterface::Process`) still has a chunk to decode. Whatever order the steps
come in, the decoder is fed each byte once, and the queue holds decoded frames in their order. The
bytes are fed in the order in which they arrived as long as no request waits within a chunk.

`poll_timeout_reason`: a `select` that runs into its timeout has a reason.
-/

namespace OtEsp32

open Lts

variable {Dec Frame : Type} {R : Radio Dec Frame} {fds : Fds} {diagEnable : Bool}
  {s s' : LoopSys Dec Frame} {a : LoopAct}

/-! ## The decoder on a stream -/

/-- The frame that ends with a byte, if it is a good one. -/
def Radio.frameAt (R : Radio Dec Frame) (dec : Dec) (b : UInt8) : List Frame :=
  match (R.decodeByte dec b).2 with
  | some (some frame) => [frame]
  | _ => []

theorem decode_cons (dec : Dec) (b : UInt8) (bs : List UInt8) :
    R.decode dec (b :: bs) =
      ((R.decode (R.decodeByte dec b).1 bs).1,
        R.frameAt dec b ++ (R.decode (R.decodeByte dec b).1 bs).2) := by
  cases hb : R.decodeByte dec b with
  | mk dec' out =>
    simp only [Radio.decode, Radio.frameAt, hb]
    rcases out with _ | _ | frame <;> rfl

/-- Fed in pieces or at once, the decoder comes to the same state by way of the same frames. -/
theorem decode_append (dec : Dec) (xs ys : List UInt8) :
    R.decode dec (xs ++ ys) =
      ((R.decode (R.decode dec xs).1 ys).1,
        (R.decode dec xs).2 ++ (R.decode (R.decode dec xs).1 ys).2) := by
  induction xs generalizing dec with
  | nil => rfl
  | cons b xs ih =>
    rw [List.cons_append, decode_cons, ih, decode_cons]
    simp

/-! ## What a step does to the bytes -/

/-- What `HdlcInterface::Process` has read and not yet decoded. -/
def LoopPhase.chunk : LoopPhase → List UInt8
  | .decoding bytes _ => bytes
  | _ => []

def LoopAct.arrives : LoopAct → List UInt8
  | .arrive bytes => bytes
  | _ => []

/-- The bytes that have come to the UART, in order. -/
def arrived (as : List LoopAct) : List UInt8 := as.flatMap LoopAct.arrives

/-- What a step does to the bytes, the decoder and the queue. -/
inductive Feeds (R : Radio Dec Frame) (s : LoopSys Dec Frame) (a : LoopAct)
    (s' : LoopSys Dec Frame) : Prop where
  | arrive (hrx : s'.rx = s.rx ++ a.arrives) (hc : s'.phase.chunk = s.phase.chunk)
      (hd : s'.dec = s.dec) (hq : s'.queue.Sublist s.queue)
  | wait (tid n : Nat) (ha : ∃ rval, a = .waitForFrame rval) (hrx : s'.rx = s.rx.drop n)
      (hc : s'.phase.chunk = s.phase.chunk) (hd : s'.dec = (R.decode s.dec (s.rx.take n)).1)
      (hq : s'.queue = s.queue ++ R.saved tid (R.decode s.dec (s.rx.take n)).2)
  | read (n : Nat) (ha : a.arrives = []) (hrx : s'.rx = s.rx.drop n) (hc : s.phase.chunk = [])
      (hc' : s'.phase.chunk = s.rx.take n) (hd : s'.dec = s.dec) (hq : s'.queue = s.queue)
  | decode (b : UInt8) (ha : a.arrives = []) (hrx : s'.rx = s.rx)
      (hc : s.phase.chunk = b :: s'.phase.chunk) (hd : s'.dec = (R.decodeByte s.dec b).1)
      (hq : s'.queue = s.queue)

theorem step_feeds (h : s.step R fds diagEnable a = some s') : Feeds R s a s' := by
  cases a with
  | arrive bytes =>
    cases h
    exact .arrive rfl rfl rfl (List.Sublist.refl _)
  | waitForFrame rval =>
    simp only [LoopSys.step] at h
    split at h
    · cases h
    · rename_i tid ht
      split at h
      · cases h
        exact .arrive (List.append_nil _).symm rfl rfl (List.Sublist.refl _)
      · cases h
        exact .wait tid (min rval R.kMaxFrameSize) ⟨rval, rfl⟩ rfl rfl rfl rfl
  | radioDrain =>
    simp only [LoopSys.step] at h
    split at h
    · rename_i rest hp _
      cases h
      exact .arrive (List.append_nil _).symm (by rw [hp]; rfl) rfl (List.nil_sublist _)
    · cases h
  | radioInterface rval =>
    simp only [LoopSys.step] at h
    split at h
    · rename_i rest hp _
      split at h
      · cases h
        exact .read (min rval R.kMaxFrameSize) rfl rfl (by rw [hp]; rfl) rfl rfl rfl
      · cases h
        exact .arrive (List.append_nil _).symm (by rw [hp]; rfl) rfl (List.Sublist.refl _)
    · cases h
  | decodeByte =>
    simp only [LoopSys.step] at h
    split at h
    · rename_i b bytes rest hp _
      cases h
      exact .decode b rfl rfl (by rw [hp]; rfl) rfl rfl
    · rename_i rest hp _
      cases h
      exact .arrive (List.append_nil _).symm (by rw [hp]; rfl) rfl (List.Sublist.refl _)
    · cases h
  | _ =>
    simp only [LoopSys.step] at h
    repeat' split at h
    all_goals cases h
    all_goals refine .arrive (List.append_nil _).symm ?_ rfl (List.Sublist.refl _)
    all_goals simp_all [LoopPhase.chunk]

/-! ## The stream -/

/-- `fed` is what the decoder has been fed, in the order in which it was. -/
structure Stream (R : Radio Dec Frame) (fed : List UInt8) (s : LoopSys Dec Frame) : Prop where
  dec : s.dec = (R.decode R.decoder fed).1
  queue : s.queue.Sublist (R.decode R.decoder fed).2

theorem Stream.feed {fed : List UInt8} (hi : Stream R fed s) {bytes : List UInt8}
    (frames : List Frame) (hd : s'.dec = (R.decode s.dec bytes).1)
    (hq : s'.queue.Sublist (s.queue ++ frames))
    (hf : frames.Sublist (R.decode s.dec bytes).2) : Stream R (fed ++ bytes) s' := by
  refine ⟨?_, ?_⟩
  · rw [decode_append, ← hi.dec]
    exact hd
  · rw [decode_append, ← hi.dec]
    exact hq.trans (hi.queue.append hf)

/-- A request waits for a frame while a chunk is being decoded. -/
def LoopSys.WaitsInChunk (s : LoopSys Dec Frame) (a : LoopAct) : Prop :=
  (∃ rval, a = .waitForFrame rval) ∧ s.phase.chunk ≠ []

theorem step_stream {fed arr : List UInt8} (hi : Stream R fed s)
    (hp : arr.Perm (fed ++ s.phase.chunk ++ s.rx)) (h : s.step R fds diagEnable a = some s') :
    ∃ bytes, Stream R (fed ++ bytes) s' ∧
      (arr ++ a.arrives).Perm (fed ++ bytes ++ s'.phase.chunk ++ s'.rx) ∧
      (¬ s.WaitsInChunk a → arr = fed ++ s.phase.chunk ++ s.rx →
        arr ++ a.arrives = fed ++ bytes ++ s'.phase.chunk ++ s'.rx) := by
  cases step_feeds h with
  | arrive hrx hc hd hq =>
    refine ⟨[], hi.feed [] hd (by simpa using hq) (List.nil_sublist _), ?_, ?_⟩
    · rw [hrx, hc, List.append_nil, ← List.append_assoc]
      exact hp.append_right _
    · intro _ harr
      rw [hrx, hc, harr]
      simp
  | wait tid n ha hrx hc hd hq =>
    have hnone : a.arrives = [] := by
      obtain ⟨rval, rfl⟩ := ha
      rfl
    have hp : arr.Perm (fed ++ s.phase.chunk ++ (s.rx.take n ++ s.rx.drop n)) := by
      rw [List.take_append_drop]
      exact hp
    refine ⟨s.rx.take n, hi.feed (R.saved tid _) hd (hq ▸ List.Sublist.refl _)
      List.filter_sublist, ?_, ?_⟩
    · -- the bytes read here overtake the chunk
      have hswap : (s.phase.chunk ++ s.rx.take n ++ s.rx.drop n).Perm
          (s.rx.take n ++ s.phase.chunk ++ s.rx.drop n) :=
        List.perm_append_comm.append_right _
      rw [hnone, List.append_nil, hrx, hc]
      refine hp.trans ?_
      simpa only [← List.append_assoc] using hswap.append_left fed
    · intro hw harr
      have hchunk : s.phase.chunk = [] := Decidable.byContradiction fun hne => hw ⟨ha, hne⟩
      rw [hnone, hrx, hc, harr, hchunk]
      simp
  | read n ha hrx hc hc' hd hq =>
    have hall : fed ++ [] ++ s'.phase.chunk ++ s'.rx = fed ++ s.phase.chunk ++ s.rx := by
      rw [hc, hc', hrx]
      simp
    refine ⟨[], hi.feed [] hd (by rw [hq]; simp) (List.nil_sublist _), ?_, ?_⟩
    · rw [ha, List.append_nil, hall]
      exact hp
    · intro _ harr
      rw [ha, List.append_nil, hall, harr]
  | decode b ha hrx hc hd hq =>
    have hall : fed ++ [b] ++ s'.phase.chunk ++ s'.rx = fed ++ s.phase.chunk ++ s.rx := by
      rw [hc, hrx]
      simp
    refine ⟨[b], hi.feed [] ?_ (by rw [hq]; simp) (List.nil_sublist _), ?_, ?_⟩
    · rw [hd, decode_cons]
      rfl
    · rw [ha, List.append_nil, hall]
      exact hp
    · intro _ harr
      rw [ha, List.append_nil, hall, harr]

theorem exec_stream {us : Nat} {as : List LoopAct}
    (h : exec (LoopSys.step R fds diagEnable) (.init R us) as = some s) :
    ∃ fed, Stream R fed s ∧ (arrived as).Perm (fed ++ s.phase.chunk ++ s.rx) ∧
      ((AtSteps (LoopSys.step R fds diagEnable) (.init R us) as fun _ s a => ¬ s.WaitsInChunk a) →
        arrived as = fed ++ s.phase.chunk ++ s.rx) := by
  induction as using List.reverseRecOn generalizing s with
  | nil =>
    cases h
    exact ⟨[], ⟨rfl, List.nil_sublist _⟩, List.Perm.refl _, fun _ => rfl⟩
  | append_singleton as a ih =>
    obtain ⟨s1, h1, hs⟩ := exec_concat.mp h
    obtain ⟨fed, hi, hp, ho⟩ := ih h1
    obtain ⟨bytes, hi', hp', ho'⟩ := step_stream hi hp hs
    have harr : arrived (as ++ [a]) = arrived as ++ a.arrives := by simp [arrived]
    rw [harr]
    exact ⟨fed ++ bytes, hi', hp', fun hw => ho' (hw as a [] s1 (by simp) h1) (ho hw.take)⟩

/-- For every run: the decoder has been fed all that has left the UART, each byte once, and the
queue holds frames that it decoded, in their order. In a run in which no request waits while a chunk is
being decoded, the bytes were fed in the order in which they arrived. -/
theorem radio_stream (R : Radio Dec Frame) (fds : Fds) (diagEnable : Bool) (us : Nat)
    (as : List LoopAct) (s : LoopSys Dec Frame)
    (h : exec (LoopSys.step R fds diagEnable) (.init R us) as = some s) :
    ∃ fed, s.dec = (R.decode R.decoder fed).1 ∧ s.queue.Sublist (R.decode R.decoder fed).2 ∧
      (arrived as).Perm (fed ++ s.phase.chunk ++ s.rx) ∧
      ((AtSteps (LoopSys.step R fds diagEnable) (.init R us) as fun _ s a => ¬ s.WaitsInChunk a) →
        arrived as = fed ++ s.phase.chunk ++ s.rx) := by
  obtain ⟨fed, hi, hp, ho⟩ := exec_stream h
  exact ⟨fed, hi.dec, hi.queue, hp, ho⟩

theorem radio_stream_request :
    ∃ s, exec (LoopSys.step byteRadio ⟨8, 3, 4⟩ false) (.init byteRadio 0) requestRun = some s ∧
      ∃ fed, s.dec = (byteRadio.decode byteRadio.decoder fed).1 ∧
        s.queue.Sublist (byteRadio.decode byteRadio.decoder fed).2 ∧
        (arrived requestRun).Perm (fed ++ s.phase.chunk ++ s.rx) ∧
        ((AtSteps (LoopSys.step byteRadio ⟨8, 3, 4⟩ false) (.init byteRadio 0) requestRun
          fun _ s a => ¬ s.WaitsInChunk a) → arrived requestRun = fed ++ s.phase.chunk ++ s.rx) :=
  ⟨_, rfl, radio_stream byteRadio ⟨8, 3, 4⟩ false 0 requestRun _ rfl⟩

/-- A decoder that keeps what it is fed. -/
def tapeRadio : Radio (List UInt8) UInt8 :=
  { kMaxFrameSize := 8192
    decoder := []
    decodeByte := fun dec b => (dec ++ [b], none)
    answers := fun _ _ => true
    handledNow := fun _ => false
    process := [.drain, .interface, .work] }

/-- The frame handler makes a request while the chunk `[1, 2]` is being decoded: 3 overtakes 2. -/
example : (exec (LoopSys.step tapeRadio ⟨8, 3, 4⟩ false) (.init tapeRadio 0)
    [.arrive [1, 2, 3], .otSysMainloopUpdate, .otSysMainloopPoll, .pollReturn false false,
      .platformRadioProcess, .radioDrain, .radioInterface 2, .decodeByte, .request 0,
      .waitForFrame 1]).map (fun s => (s.dec, s.phase.chunk)) = some ([1, 3], [2]) := by decide

/-! ## The timeout -/

/-- What an action does to the true time and to that of the last `otSysMainloopUpdate`. -/
def LoopAct.tick : LoopAct → Nat × Nat → Nat × Nat
  | .advance d, (us, t0) => (us + d, t0)
  | .otSysMainloopUpdate, (us, _) => (us, us)
  | _, p => p

/-- The true time after `as`, and that of the last `otSysMainloopUpdate`. -/
def updateClock (us : Nat) (as : List LoopAct) : Nat × Nat :=
  as.foldl (fun p a => a.tick p) (us, us)

theorem updateClock_concat (us : Nat) (as : List LoopAct) (a : LoopAct) :
    updateClock us (as ++ [a]) = a.tick (updateClock us as) := by
  simp only [updateClock, List.foldl_append, List.foldl_cons, List.foldl_nil]

theorem tick_snd (h : a ≠ .otSysMainloopUpdate) (p : Nat × Nat) : (a.tick p).2 = p.2 := by
  cases a <;> first | rfl | exact absurd rfl h

theorem le_tick_fst (a : LoopAct) (p : Nat × Nat) : p.1 ≤ (a.tick p).1 := by
  cases a <;> first | exact Nat.le_refl _ | exact Nat.le_add_right _ _

/-- The timeout is the one that the update at `t0` computed from the alarm as it is now. -/
def LoopSys.TimeoutAt (s : LoopSys Dec Frame) (fds : Fds) (t0 : Nat) : Prop :=
  ∃ aMainloop, s.mainloop.mTimeout =
    (otSysMainloopUpdate fds t0 s.alarm s.otTaskletsArePending aMainloop).mTimeout

/-- What is known from the update to the return of the `select`. -/
structure PollInv (fds : Fds) (us : Nat) (pre : List LoopAct) (s : LoopSys Dec Frame) : Prop where
  clock : s.us = (updateClock us pre).1
  order : (updateClock us pre).2 ≤ s.us
  since : ∀ since, s.phase = .polling since → (updateClock us pre).2 ≤ since ∧ since ≤ s.us
  timeout : s.phase.runsOpenThread = false → s.TimeoutAt fds (updateClock us pre).2

theorem init_pollInv (us : Nat) : PollInv fds us [] (LoopSys.init R us) :=
  ⟨rfl, Nat.le_refl _, nofun, nofun⟩

/-- Nothing that `otSysMainloopUpdate` looked at changes before the `select` has returned. -/
theorem step_asleep (h : s.step R fds diagEnable a = some s') (hu : a ≠ .otSysMainloopUpdate)
    (hp : s'.phase.runsOpenThread = false) :
    s.phase.runsOpenThread = false ∧ s'.mainloop = s.mainloop ∧ s'.alarm = s.alarm ∧
      s'.otTaskletsArePending = s.otTaskletsArePending ∧
      (s'.phase = s.phase ∨ (s'.phase = .polling s.us ∧ s'.us = s.us)) := by
  cases a with
  | otSysMainloopUpdate => exact absurd rfl hu
  | arrive bytes =>
    cases h
    exact ⟨hp, rfl, rfl, rfl, .inl rfl⟩
  | advance us =>
    cases h
    exact ⟨hp, rfl, rfl, rfl, .inl rfl⟩
  | waitForFrame rval =>
    simp only [LoopSys.step] at h
    repeat' split at h
    all_goals cases h
    all_goals exact ⟨hp, rfl, rfl, rfl, .inl rfl⟩
  | otSysMainloopPoll =>
    simp only [LoopSys.step] at h
    split at h
    · rename_i hup
      cases h
      exact ⟨by rw [hup]; rfl, rfl, rfl, rfl, .inr ⟨rfl, rfl⟩⟩
    · cases h
  | _ =>
    simp only [LoopSys.step] at h
    repeat' split at h
    all_goals cases h
    all_goals simp_all [LoopPhase.runsOpenThread]

theorem step_tick (h : s.step R fds diagEnable a = some s') (t0 : Nat) :
    s'.us = (a.tick (s.us, t0)).1 := by
  cases a with
  | advance d =>
    cases h
    rfl
  | _ =>
    simp only [LoopSys.step] at h
    repeat' split at h
    all_goals cases h
    all_goals rfl

theorem step_pollInv {us : Nat} {pre : List LoopAct} (hi : PollInv fds us pre s)
    (h : s.step R fds diagEnable a = some s') : PollInv fds us (pre ++ [a]) s' := by
  have hus := step_tick h (updateClock us pre).2
  have hle : s.us ≤ s'.us := by
    rw [hus]
    exact le_tick_fst a (s.us, (updateClock us pre).2)
  have hclock : s'.us = (updateClock us (pre ++ [a])).1 := by
    rw [updateClock_concat, hus, hi.clock]
  by_cases hu : a = .otSysMainloopUpdate
  · subst hu
    have hlast : (updateClock us (pre ++ [.otSysMainloopUpdate])).2 = s.us := by
      rw [updateClock_concat, hi.clock]
      rfl
    simp only [LoopSys.step] at h
    split at h
    · cases h
      exact ⟨hclock, Nat.le_of_eq hlast, by simp, fun _ => ⟨s.mainloop, by rw [hlast]⟩⟩
    · cases h
  · have hlast : (updateClock us (pre ++ [a])).2 = (updateClock us pre).2 := by
      rw [updateClock_concat, tick_snd hu]
    refine ⟨hclock, ?_, ?_, ?_⟩
    · rw [hlast]
      exact Nat.le_trans hi.order hle
    · intro since hs
      obtain ⟨-, -, -, -, hsame | ⟨hpoll, -⟩⟩ := step_asleep h hu (by rw [hs]; rfl)
      · obtain ⟨h0, h1⟩ := hi.since since (by rw [← hsame, hs])
        exact ⟨hlast ▸ h0, Nat.le_trans h1 hle⟩
      · rw [hpoll] at hs
        cases hs
        exact ⟨hlast ▸ hi.order, hle⟩
    · intro hp
      obtain ⟨hp0, hm, hal, htl, -⟩ := step_asleep h hu hp
      rw [hlast, LoopSys.TimeoutAt, hm, hal, htl]
      exact hi.timeout hp0

/-- The alarm has run down by `us`, if the clock has not wrapped since the update at `t0`. -/
def Alarm.RunDown (alarm : Alarm) (t0 us : Nat) : Prop :=
  alarm.sIsRunning = true ∧ (us / 1000 / 2 ^ 32 = t0 / 1000 / 2 ^ 32 → alarm.due us)

theorem runDown_of_elapsed {alarm : Alarm} {t0 since now : Nat} {aMainloop : MainloopContext}
    (hr : alarm.sIsRunning = true) (h0 : t0 ≤ since) (hn : since ≤ now)
    (he : since + (platformAlarmUpdate t0 alarm aMainloop).mTimeout.us ≤ now) :
    alarm.RunDown t0 now := by
  refine ⟨hr, fun hsame => ?_⟩
  by_cases hd : alarm.due t0
  · rw [due_iff_toNat] at hd ⊢
    omega
  · rw [platformAlarmUpdate_us hr hd] at he
    rw [due_iff_toNat] at hd ⊢
    omega

/-- The `select` that was entered at `since` returns with no descriptor ready. -/
def LoopSys.TimesOut (R : Radio Dec Frame) (fds : Fds) (diagEnable : Bool)
    (s : LoopSys Dec Frame) (since : Nat) (a : LoopAct) : Prop :=
  s.phase = .polling since ∧ a = .pollReturn false false ∧ s.rx = [] ∧
    (s.step R fds diagEnable a).isSome = true

theorem timesOut_elapsed {since : Nat} (h : s.TimesOut R fds diagEnable since a) :
    since + s.mainloop.mTimeout.us ≤ s.us := by
  obtain ⟨hp, rfl, hrx, hstep⟩ := h
  have hready : s.ready fds false false = [] := by simp [LoopSys.ready, hrx]
  simp only [LoopSys.step, hp, hready] at hstep
  split at hstep
  · rename_i hret
    exact hret.resolve_left fun hne => hne rfl
  · cases hstep

/-- In every run, a `select` that returns with no descriptor ready has a reason: a tasklet was
pending, the alarm has run down, or it is stopped and the longest timeout there is has elapsed. -/
theorem poll_timeout_reason (R : Radio Dec Frame) (fds : Fds) (diagEnable : Bool) (us : Nat)
    (as : List LoopAct) :
    AtSteps (LoopSys.step R fds diagEnable) (.init R us) as fun pre s a =>
      ∀ since, s.TimesOut R fds diagEnable since a →
        s.otTaskletsArePending = true ∨ s.alarm.RunDown (updateClock us pre).2 s.us ∨
          (s.alarm.sIsRunning = false ∧ since + int32Max * 1000000 ≤ s.us) := by
  refine atSteps_of_inv (PollInv fds us) (init_pollInv us)
    (fun _ _ _ _ hi _ h => step_pollInv hi h) ?_ (G := fun _ _ _ => True)
    (fun _ _ _ _ _ _ => trivial)
  intro pre s a hi _ since hout
  have helapsed := timesOut_elapsed hout
  obtain ⟨h0, hn⟩ := hi.since since hout.1
  obtain ⟨aMainloop, ht⟩ := hi.timeout (by rw [hout.1]; rfl)
  rw [ht] at helapsed
  cases htl : s.otTaskletsArePending with
  | true => exact .inl rfl
  | false =>
    rw [htl, otSysMainloopUpdate_idle] at helapsed
    cases hr : s.alarm.sIsRunning with
    | true => exact .inr (.inl (runDown_of_elapsed hr h0 hn helapsed))
    | false =>
      rw [platformAlarmUpdate_stopped hr] at helapsed
      exact .inr (.inr ⟨rfl, helapsed⟩)

end OtEsp32
