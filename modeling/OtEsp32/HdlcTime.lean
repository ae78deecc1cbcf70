import OtEsp32.HdlcSend
import OtEsp32.Lib.LoopTotal

/-!
# HdlcTime

How long `WaitForWritable` and `SendFrame` take, on a clock that goes forwards and a `select` that
keeps to its timeout.

* `waitForWritable_in_time`: the wait is over within `kMaxWaitTime`, and the `select`s before its
  last were interrupted.
* `waitForWritable_returns`: it comes to an end, even if the `select`s are interrupted for ever.
* `sendFrame_completes`: a UART that takes at least one byte after each wait gets the whole frame.
-/

namespace OtEsp32

open Lts

/-! ## A clock to rely on -/

/-- The last reading. -/
def WaitState.last (s : WaitState) (first : UInt64) : UInt64 := s.readings.headD first

/-- The reading after a `select`: the clock has not gone back, the `select` has taken no more than
its timeout and `slack`, and has not timed out early. -/
structure OnTime (slack : Nat) (first : UInt64) (s : WaitState) (turn : WaitTurn) (now : UInt64) :
    Prop where
  mono : s.last first ≤ now
  overstay : now.toNat ≤ (s.last first).toNat + s.timeout.us + slack
  elapsed : turn.select = .timeout → (s.last first).toNat + s.timeout.us ≤ now.toNat

/-- Every reading that the wait takes is on time. -/
def ClockHonest (slack : Nat) (first : UInt64) (turns : List WaitTurn) : Prop :=
  AtSteps waitForWritableLoop.step (.init first) turns fun _ s turn =>
    ∀ now, otPlatTimeGet turn.tvNow = .ok now → OnTime slack first s turn now

/-- At the top of each turn the timeout ends at the deadline, and no `select` has timed out. -/
structure TimeInv (first : UInt64) (s : WaitState) : Prop where
  endUs : s.endUs.toNat = first.toNat + kMaxWaitTime.toNat * 1000
  ahead : (s.last first).toNat + s.timeout.us = first.toNat + kMaxWaitTime.toNat * 1000
  early : ∀ now ∈ s.readings, now.toNat ≤ first.toNat + kMaxWaitTime.toNat * 1000
  interrupted : ∀ p ∈ s.selects, p.2 = .failed .eintr

variable {first : UInt64} {slack : Nat} {s s' : WaitState} {turn : WaitTurn}

theorem init_timeInv (hmax : first.toNat + kMaxWaitTime.toNat * 1000 < 2 ^ 64) :
    TimeInv first (.init first) where
  endUs := by
    have hend := endUs_toNat first
    rw [if_pos hmax] at hend
    exact hend
  ahead := by
    have hw : kMaxWaitTime.toNat = 2000 := rfl
    have ht : (WaitState.init first).timeout = ⟨2, 0⟩ := rfl
    have hl : (WaitState.init first).last first = first := rfl
    rw [hl, ht, hw]
    simp [Timeval.us]
  early := by simp [WaitState.init]
  interrupted := by simp [WaitState.init]

/-- The loop goes round after a timeout or an interruption. -/
theorem next_select (h : waitForWritableLoop.body s turn = .next s') :
    turn.select = .timeout ∨ turn.select = .failed .eintr := by
  simp only [waitForWritableLoop] at h
  split at h
  · cases h
  · cases h
  · cases h
  · rename_i hs
    exact .inl hs
  · rename_i errno hs
    split at h
    · cases h
    · rename_i he
      rw [Decidable.not_not.mp he] at hs
      exact .inr hs

theorem next_timeInv (hi : TimeInv first s)
    (hc : ∀ now, otPlatTimeGet turn.tvNow = .ok now → OnTime slack first s turn now)
    (h : waitForWritableLoop.body s turn = .next s') :
    TimeInv first s' ∧ turn.select = .failed .eintr := by
  obtain ⟨now, hnow, hlt, rfl⟩ := remaining_next (waitForWritable_next h)
  have hlt := UInt64.lt_iff_toNat_lt.mp hlt
  have hend := hi.endUs
  rw [selected_endUs] at hlt
  have hselect : turn.select = .failed .eintr := by
    refine (next_select h).resolve_left fun ht => ?_
    have he := (hc now hnow).elapsed ht
    have ha := hi.ahead
    omega
  refine ⟨⟨hi.endUs, ?_, ?_, ?_⟩, hselect⟩
  · have hsub := UInt64.toNat_sub_of_le _ _ (UInt64.le_of_lt (UInt64.lt_iff_toNat_lt.mpr hlt))
    simp only [WaitState.last, List.headD_cons, selected_endUs, Timeval.us_ofUs, hsub]
    omega
  · simp only [selected_readings, List.forall_mem_cons]
    exact ⟨by omega, hi.early⟩
  · simp only [selected_selects, List.forall_mem_cons]
    exact ⟨hselect, hi.interrupted⟩

/-- What is true of a wait that returns. -/
structure WaitInTime (slack : Nat) (first : UInt64) (error : OtError) (s : WaitState) : Prop where
  readings : ∀ now ∈ s.readings, now.toNat ≤ first.toNat + kMaxWaitTime.toNat * 1000 + slack
  interrupted : ∀ p ∈ s.selects.tail, p.2 = .failed .eintr
  failed : error = .failed → first.toNat + kMaxWaitTime.toNat * 1000 ≤ (s.last first).toNat

theorem leave_inTime {error : OtError} (hi : TimeInv first s)
    (hc : ∀ now, otPlatTimeGet turn.tvNow = .ok now → OnTime slack first s turn now)
    (h : waitForWritableLoop.body s turn = .leave (.ok (error, s'))) :
    WaitInTime slack first error s' := by
  have hend := hi.endUs
  have ha := hi.ahead
  have hearly : ∀ now ∈ s.readings,
      now.toNat ≤ first.toNat + kMaxWaitTime.toNat * 1000 + slack :=
    fun now hm => Nat.le_trans (hi.early now hm) (Nat.le_add_right _ _)
  rcases waitForWritable_leave h with ⟨rfl, -, rfl⟩ | ⟨-, hl⟩
  · exact ⟨hearly, hi.interrupted, nofun⟩
  · obtain ⟨now, hnow, hle, -, rfl⟩ := remaining_leave hl
    have hle := UInt64.le_iff_toNat_le.mp hle
    rw [selected_endUs] at hle
    refine ⟨?_, hi.interrupted, fun _ => ?_⟩
    · have ho := (hc now hnow).overstay
      rw [ha] at ho
      rw [selected_readings, List.forall_mem_cons]
      exact ⟨ho, hearly⟩
    · rw [← hend]
      exact hle

/-- For every wait that returns on an honest clock: it takes no reading later than `kMaxWaitTime`
after the first, but for the slack of the last `select`; before its last `select` all were
interrupted; and it fails only when `kMaxWaitTime` is over. -/
theorem waitForWritable_in_time (slack : Nat) (tvFirst : Option Timeval) (first : UInt64)
    (turns : List WaitTurn) (error : OtError) (s : WaitState)
    (hf : otPlatTimeGet tvFirst = .ok first)
    (hmax : first.toNat + kMaxWaitTime.toNat * 1000 < 2 ^ 64)
    (hclock : ClockHonest slack first turns)
    (h : waitForWritable tvFirst turns = some (.ok (error, s))) :
    WaitInTime slack first error s := by
  unfold waitForWritable at h
  rw [hf] at h
  obtain ⟨pre, post, s1, rfl, he, ⟨hg, -⟩ | ⟨-, turn, rest, rfl, hb⟩⟩ := EnvLoop.run_iff.mp h
  · cases hg
  · have hi : TimeInv first s1 := exec_inv (fun _ => TimeInv first) _ (init_timeInv hmax)
      (fun _ _ _ _ hi hc hs => (next_timeInv hi hc (EnvLoop.step_some.mp hs).2).1) hclock.take he
    exact leave_inTime hi (hclock pre turn rest s1 rfl he) hb

/-- An interruption after a second, and then the rest of the two seconds. -/
def interruptedTurns : List WaitTurn :=
  [⟨.failed .eintr, some ⟨11, 0⟩⟩, ⟨.timeout, some ⟨12, 7⟩⟩]

theorem interruptedTurns_honest : ClockHonest 7 10000000 interruptedTurns := by
  intro pre turn post s hsplit he now hnow
  rcases pre with _ | ⟨first, _ | ⟨second, pre⟩⟩
  · cases hsplit
    cases he
    cases hnow
    exact ⟨by decide, by decide, nofun⟩
  · cases hsplit
    cases he
    cases hnow
    exact ⟨by decide, by decide, fun _ => by decide⟩
  · cases pre <;> cases hsplit

theorem waitForWritable_in_time_interrupted :
    ∃ s, waitForWritable (some ⟨10, 0⟩) interruptedTurns = some (.ok (.failed, s)) ∧
      WaitInTime 7 10000000 .failed s :=
  ⟨_, rfl, waitForWritable_in_time 7 (some ⟨10, 0⟩) 10000000 interruptedTurns .failed _ rfl
    (by decide) interruptedTurns_honest rfl⟩

/-! ## The end of the wait -/

/-- The readings succeed, and `select` reports no error. -/
def WaitTurn.Sound (turn : WaitTurn) : Prop :=
  (∃ now, otPlatTimeGet turn.tvNow = .ok now) ∧
    ((∃ errorSet, turn.select = .ready true errorSet) ∨ turn.select = .timeout ∨
      turn.select = .failed .eintr)

theorem sound_leave {r : WaitResult} (hs : turn.Sound)
    (h : waitForWritableLoop.body s turn = .leave r) : ∃ error s', r = .ok (error, s') := by
  obtain ⟨⟨now, hnow⟩, hsel⟩ := hs
  have hremaining : ∀ {s1 : WaitState}, s1.remaining turn.tvNow = .leave r →
      ∃ error s', r = .ok (error, s') := by
    intro s1 hr
    unfold WaitState.remaining at hr
    simp only [hnow] at hr
    split at hr
    · cases hr
    · cases hr
      exact ⟨_, _, rfl⟩
  rcases hsel with ⟨errorSet, hsel⟩ | hsel | hsel
  · simp only [waitForWritableLoop, hsel] at h
    cases h
    exact ⟨_, _, rfl⟩
  · simp only [waitForWritableLoop, hsel] at h
    exact hremaining h
  · simp only [waitForWritableLoop, hsel, ne_eq, not_true, if_false] at h
    exact hremaining h

/-- Each reading is later than the one before it. -/
def ClockAdvances (first : UInt64) (turns : List WaitTurn) : Prop :=
  AtSteps waitForWritableLoop.step (.init first) turns fun _ s turn =>
    ∀ now, otPlatTimeGet turn.tvNow = .ok now → s.last first < now

theorem wait_stuck {turns : List WaitTurn}
    (hmax : first.toNat + kMaxWaitTime.toNat * 1000 < 2 ^ 64)
    (hclock : ClockHonest slack first turns)
    (hturn : ∃ turn ∈ turns, turn.select ≠ .failed .eintr) :
    exec waitForWritableLoop.step (.init first) turns = none := by
  obtain ⟨turn, hmem, hne⟩ := hturn
  refine Option.eq_none_iff_forall_ne_some.mpr fun s' he => ?_
  have hi : TimeInv first s' ∧ ∀ turn ∈ turns, turn.select = .failed .eintr := by
    refine exec_inv (fun pre s => TimeInv first s ∧ ∀ turn ∈ pre, turn.select = .failed .eintr) _
      ⟨init_timeInv hmax, by simp⟩ ?_ hclock he
    rintro pre s1 turn s2 ⟨hi, hpre⟩ hc hs
    obtain ⟨hi2, hsel⟩ := next_timeInv hi hc (EnvLoop.step_some.mp hs).2
    refine ⟨hi2, ?_⟩
    intro t ht
    rcases List.mem_append.mp ht with ht | ht
    · exact hpre t ht
    · rw [List.mem_singleton.mp ht]
      exact hsel
  exact hne (hi.2 turn hmem)

/-- The microseconds that are left of the wait. -/
def WaitState.left (s : WaitState) (first : UInt64) : Nat :=
  first.toNat + kMaxWaitTime.toNat * 1000 - (s.last first).toNat

theorem next_left (hi : TimeInv first s)
    (ha : ∀ now, otPlatTimeGet turn.tvNow = .ok now → s.last first < now)
    (h : waitForWritableLoop.body s turn = .next s') :
    0 < s'.left first ∧ s'.left first < s.left first := by
  obtain ⟨now, hnow, hlt, rfl⟩ := remaining_next (waitForWritable_next h)
  have hlt := UInt64.lt_iff_toNat_lt.mp hlt
  have hadv := UInt64.lt_iff_toNat_lt.mp (ha now hnow)
  rw [selected_endUs, hi.endUs] at hlt
  simp only [WaitState.left, WaitState.last, List.headD_cons] at hadv ⊢
  omega

/-- On an honest clock, `WaitForWritable` returns when one of its `select`s is not interrupted, and
also when all are but the clock goes forwards. -/
theorem waitForWritable_returns (slack : Nat) (tvFirst : Option Timeval) (first : UInt64)
    (turns : List WaitTurn) (hf : otPlatTimeGet tvFirst = .ok first)
    (hmax : first.toNat + kMaxWaitTime.toNat * 1000 < 2 ^ 64)
    (hsound : ∀ turn ∈ turns, turn.Sound) (hclock : ClockHonest slack first turns)
    (hend : (∃ turn ∈ turns, turn.select ≠ .failed .eintr) ∨
      (ClockAdvances first turns ∧ kMaxWaitTime.toNat * 1000 ≤ turns.length)) :
    ∃ error s, waitForWritable tvFirst turns = some (.ok (error, s)) := by
  have hrun : ∃ r, waitForWritableLoop.run (.init first) turns = some r := by
    rcases hend with hturn | ⟨hadv, hlen⟩
    · exact EnvLoop.run_of_stuck (wait_stuck hmax hclock hturn)
    · have hl : (WaitState.init first).left first = kMaxWaitTime.toNat * 1000 :=
        Nat.add_sub_cancel_left _ _
      refine EnvLoop.run_total (fun _ s => TimeInv first s ∧ 0 < s.left first)
        (fun _ s turn => ∀ now, otPlatTimeGet turn.tvNow = .ok now →
          OnTime slack first s turn now ∧ s.last first < now)
        (fun _ s => s.left first) ⟨init_timeInv hmax, by rw [hl]; decide⟩ ?_ ?_ ?_
        (by rw [hl]; exact hlen)
      · intro _ s1 turn s2 hi hg hs
        have hb := (EnvLoop.step_some.mp hs).2
        obtain ⟨hpos, hlt⟩ := next_left hi.1 (fun now hnow => (hg now hnow).2) hb
        exact ⟨⟨(next_timeInv hi.1 (fun now hnow => (hg now hnow).1) hb).1, hpos⟩, hlt⟩
      · intro _ s1 hi hz
        exact absurd hi.2 (by rw [hz]; exact Nat.lt_irrefl 0)
      · intro pre turn post s1 hsplit he now hnow
        exact ⟨hclock pre turn post s1 hsplit he now hnow, hadv pre turn post s1 hsplit he now hnow⟩
  obtain ⟨r, hr⟩ := hrun
  have hok : ∃ error s, r = .ok (error, s) := by
    obtain ⟨pre, post, s1, rfl, -, ⟨hg, -⟩ | ⟨-, turn, rest, rfl, hb⟩⟩ := EnvLoop.run_iff.mp hr
    · cases hg
    · exact sound_leave (hsound turn (by simp)) hb
  obtain ⟨error, s, rfl⟩ := hok
  exact ⟨error, s, by simp only [waitForWritable, hf, hr]⟩

theorem waitForWritable_returns_interrupted :
    ∃ error s, waitForWritable (some ⟨10, 0⟩) interruptedTurns = some (.ok (error, s)) := by
  refine waitForWritable_returns 7 (some ⟨10, 0⟩) 10000000 interruptedTurns rfl (by decide) ?_
    interruptedTurns_honest (.inl ⟨⟨.timeout, some ⟨12, 7⟩⟩, by decide, by decide⟩)
  intro turn hturn
  simp only [interruptedTurns, List.mem_cons, List.not_mem_nil, or_false] at hturn
  rcases hturn with rfl | rfl
  · exact ⟨⟨_, rfl⟩, .inr (.inr rfl)⟩
  · exact ⟨⟨_, rfl⟩, .inr (.inl rfl)⟩

/-! ## The whole frame -/

/-- The `write` takes at least one byte of a buffer that has one. -/
def WriteAnswer.takes : WriteAnswer → Bool
  | .accept k => decide (0 < k)
  | .refuse _ => false

/-- The turn takes a byte, or it takes none and waits until the UART is writable, the turn before it
having taken one. -/
def WriteTurn.Moves (pre : List WriteTurn) (turn : WriteTurn) : Prop :=
  turn.write.takes = true ∨
    (turn.write.takes = false ∧ turn.write.aborts = false ∧
      (∃ w, waitForWritable turn.tvFirst turn.wait = some (.ok (.none, w))) ∧
      ∀ last, pre.getLast? = some last → last.write.takes = true)

theorem takes_iff {buf : List UInt8} {answer : WriteAnswer} (hb : buf ≠ []) :
    0 < (answer.taken buf).length ↔ answer.takes = true := by
  have hpos : 0 < buf.length := List.length_pos_iff.mpr hb
  cases answer with
  | accept k =>
    simp only [WriteAnswer.taken, WriteAnswer.takes, List.length_take, decide_eq_true_eq]
    omega
  | refuse errno => simp [WriteAnswer.taken, WriteAnswer.takes]

variable {encoded : List UInt8} {tx : UartTx} {w w' : WriteState} {wturn : WriteTurn}

theorem writable_buffer (hi : WriteInv encoded tx w) (hg : writeLoop.guard w = true) :
    w.aFrame.take w.aLength.toNat = w.aFrame ∧ w.aFrame ≠ [] := by
  have hlen := hi.length
  refine ⟨List.take_of_length_le (by omega), fun hnil => ?_⟩
  rw [(aFrame_nil_iff hi).mp hnil] at hg
  cases hg

/-- Such a turn goes round, with less to send if it took a byte. -/
theorem moves_next {pre : List WriteTurn} (hi : WriteInv encoded tx w)
    (hg : writeLoop.guard w = true) (hm : wturn.Moves pre) :
    ∃ w', writeLoop.body w wturn = .next w' ∧
      (wturn.write.takes = true → w'.aLength.toNat < w.aLength.toNat) ∧
      (wturn.write.takes = false → w'.aLength = w.aLength) := by
  obtain ⟨htake, hne⟩ := writable_buffer hi hg
  have hb := writeLoop_body w wturn
  rw [htake] at hb
  simp only [takes_iff hne] at hb
  rcases hm with ht | ⟨ht, ha, ⟨wait, hw⟩, -⟩
  · rw [if_pos ht] at hb
    refine ⟨_, hb, fun _ => ?_, fun hf => absurd (hf.symm.trans ht) Bool.false_ne_true⟩
    have hi' := (next_writeInv hi hb).length
    have hpos : 0 < (wturn.write.taken w.aFrame).length := (takes_iff hne).mpr ht
    have hlen := hi.length
    have hw : 0 < w.aFrame.length := List.length_pos_iff.mpr hne
    rw [hi', List.length_drop, hlen]
    omega
  · rw [if_neg (by rw [ht]; exact Bool.false_ne_true)] at hb
    refine ⟨{ w with tx := w.written wturn.write }, ?_,
      fun hf => absurd (ht.symm.trans hf) Bool.false_ne_true, fun _ => rfl⟩
    rw [hb]
    simp [WriteState.await, ha, hw]

/-- The turns that are left: two for each byte, and one more if the last turn took one. -/
def writeLeft (pre : List WriteTurn) (w : WriteState) : Nat :=
  2 * w.aLength.toNat + if pre.getLast?.all fun turn => turn.write.takes then 1 else 0

theorem next_writeLeft {pre : List WriteTurn} (hm : wturn.Moves pre)
    (ht : wturn.write.takes = true → w'.aLength.toNat < w.aLength.toNat)
    (hf : wturn.write.takes = false → w'.aLength = w.aLength) :
    writeLeft (pre ++ [wturn]) w' < writeLeft pre w := by
  unfold writeLeft
  rw [List.getLast?_concat]
  rcases hm with hm | ⟨hm, -, -, hlast⟩
  · have := ht hm
    simp only [Option.all_some, hm, if_true]
    split <;> omega
  · have hall : pre.getLast?.all (fun turn => turn.write.takes) = true := by
      cases hl : pre.getLast? with
      | none => rfl
      | some last => exact hlast last hl
    rw [hf hm, hall]
    simp [hm]

/-- When every turn moves, two turns for each byte and one more are enough, and `SendFrame` then
returns with the whole encoded frame on the line. -/
theorem sendFrame_completes {Buf : Type} (enc : HdlcEncoder Buf) (aFrame encoded : List UInt8)
    (turns : List WriteTurn) (tx : UartTx)
    (he : (((enc.beginFrame enc.empty).bind (enc.encode aFrame)).bind enc.endFrame).map
      enc.getFrame = some encoded)
    (hmoves : ∀ pre turn post, turns = pre ++ turn :: post → turn.Moves pre)
    (hlen : 2 * encoded.length + 1 ≤ turns.length) :
    ∃ tx', sendFrame enc aFrame turns tx = some (.ok (.none, tx')) ∧
      tx'.line = tx.line ++ encoded := by
  rw [← frame_eq] at he
  have hl := frame_length_lt he
  have hlength : (UInt16.ofNat encoded.length).toNat = encoded.length := by
    rw [UInt16.toNat_ofNat', Nat.mod_eq_of_lt hl]
  have hleft : writeLeft [] ⟨encoded, UInt16.ofNat encoded.length, tx⟩ =
      2 * encoded.length + 1 := by
    simp [writeLeft, hlength]
  obtain ⟨r, hr⟩ : ∃ r,
      writeLoop.run ⟨encoded, UInt16.ofNat encoded.length, tx⟩ turns = some r := by
    refine EnvLoop.run_total (fun _ => WriteInv encoded tx) (fun pre _ turn => turn.Moves pre)
      writeLeft (init_writeInv hl) ?_ ?_ (fun pre turn post _ hs _ => hmoves pre turn post hs)
      (by rw [hleft]; exact hlen)
    · intro pre s1 turn s2 hi hm hs
      obtain ⟨hg, hb⟩ := EnvLoop.step_some.mp hs
      obtain ⟨s2', hb', ht, hf⟩ := moves_next hi hg hm
      rw [hb] at hb'
      cases hb'
      exact ⟨next_writeInv hi hb, next_writeLeft hm ht hf⟩
    · intro pre s1 hi hz
      have hlen0 := hi.length
      have hnil : s1.aFrame.length = 0 := by
        unfold writeLeft at hz
        omega
      exact (aFrame_nil_iff hi).mp (List.eq_nil_of_length_eq_zero hnil)
  obtain ⟨pre, post, s1, hsplit, hrun, hleave⟩ := EnvLoop.run_iff.mp hr
  have hi : WriteInv encoded tx s1 := exec_inv' (WriteInv encoded tx) (init_writeInv hl)
    (fun _ _ _ hi hs => next_writeInv hi (EnvLoop.step_some.mp hs).2) hrun
  rcases hleave with ⟨hg, rfl⟩ | ⟨hg, turn, rest, rfl, hb⟩
  · refine ⟨s1.tx, ?_, ?_⟩
    · simp only [sendFrame, he, hdlcWrite, hr]
      rfl
    · obtain ⟨sent, hline, hsent⟩ := hi.split
      rw [(aFrame_nil_iff hi).mpr hg, List.append_nil] at hsent
      rw [hline, hsent]
  · obtain ⟨s2, hb', -⟩ := moves_next hi hg (hmoves pre turn rest hsplit)
    rw [hb'] at hb
    cases hb

/-- One byte at a time. -/
theorem sendFrame_completes_bytewise :
    ∃ tx', sendFrame lineFeedEncoder [10] (List.replicate 11 ⟨.accept 1, none, []⟩)
        ⟨.crlf, [], 0⟩ = some (.ok (.none, tx')) ∧ tx'.line = [] ++ [0x7e, 10, 34, 95, 0x7e] := by
  refine sendFrame_completes lineFeedEncoder [10] [0x7e, 10, 34, 95, 0x7e] _ ⟨.crlf, [], 0⟩ rfl ?_
    (by decide)
  intro pre turn post hsplit
  have hmem : turn ∈ List.replicate 11 ⟨.accept 1, none, []⟩ := by simp [hsplit]
  rw [(List.mem_replicate.mp hmem).2]
  exact .inl rfl

end OtEsp32
