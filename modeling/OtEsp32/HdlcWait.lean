import Mathlib.Algebra.Group.Nat.Defs
import OtEsp32.Platform
import OtEsp32.Lib.Loop

/-!
# HdlcWait

`HdlcInterface::WaitForWritable` of `spinel_hdlc.cpp` and the clock that it reads, `otPlatTimeGet`
of `alarm.c`.

The deadline is taken from the wall clock. `waitForWritable_promise_iff` says what that costs: the
wait keeps to `kMaxWaitTime` exactly when no reading taken on the way is older than the first.
-/

namespace OtEsp32

/-- `enum` of `spinel_hdlc.hpp`, in milliseconds. -/
def kMaxWaitTime : UInt64 := 2000

/-- `tvNow` is what `gettimeofday` stores, `none` when it fails. The casts keep 64 bits, so every
value of `time_t` is covered. -/
def otPlatTimeGet (tvNow : Option Timeval) : Except Halt UInt64 :=
  match tvNow with
  | none => .error .exitFailure
  | some tv => .ok (UInt64.ofNat tv.tvSec * otUsPerS + UInt64.ofNat tv.tvUsec)

/-- A turn's `select`, and what `gettimeofday` stores after it if the turn comes to that. -/
structure WaitTurn where
  select : SelectAnswer
  tvNow : Option Timeval
  deriving DecidableEq, Repr

/-- The locals (`endUs` is `end`), and a record, newest first, of the timeouts that went to `select`
with its answers and of the clock readings after the first. -/
structure WaitState where
  timeout : Timeval
  endUs : UInt64
  selects : List (Timeval × SelectAnswer)
  readings : List UInt64
  deriving DecidableEq, Repr

def WaitState.init (now : UInt64) : WaitState :=
  { timeout := ⟨(kMaxWaitTime / otMsPerS).toNat, (kMaxWaitTime % otMsPerS * otUsPerMs).toNat⟩
    endUs := now + kMaxWaitTime * otUsPerMs
    selects := []
    readings := [] }

abbrev WaitResult := Except Halt (OtError × WaitState)

/-- The end of the loop body, from the second `otPlatTimeGet`. -/
def WaitState.remaining (s : WaitState) (tvNow : Option Timeval) : Turn WaitState WaitResult :=
  match otPlatTimeGet tvNow with
  | .error halt => .leave (.error halt)
  | .ok now =>
    let s := { s with readings := now :: s.readings }
    if s.endUs > now then
      let remain := s.endUs - now
      .next { s with timeout := .ofUs remain }
    else .leave (.ok (.failed, s))

def waitForWritableLoop : EnvLoop WaitState WaitTurn WaitResult where
  guard _ := true
  body s turn :=
    let s := { s with selects := (s.timeout, turn.select) :: s.selects }
    match turn.select with
    | .ready true _ => .leave (.ok (.none, s))
    | .ready false true => .leave (.error .exitFailure)
    | .ready false false => .leave (.error .assertFailed)
    | .timeout => s.remaining turn.tvNow
    | .failed errno =>
      if errno ≠ .eintr then .leave (.error .exitFailure) else s.remaining turn.tvNow
  after s := .ok (.failed, s)

/-- `HdlcInterface::WaitForWritable`; `none` when it has not returned after these turns. -/
def waitForWritable (tvFirst : Option Timeval) (turns : List WaitTurn) : Option WaitResult :=
  match otPlatTimeGet tvFirst with
  | .error halt => some (.error halt)
  | .ok now => waitForWritableLoop.run (.init now) turns

/-! ## What a turn does -/

/-- A turn comes back to the top with the time that remains at a reading before the deadline. -/
theorem remaining_next {s s' : WaitState} {tvNow : Option Timeval}
    (h : s.remaining tvNow = .next s') :
    ∃ now, otPlatTimeGet tvNow = .ok now ∧ now < s.endUs ∧
      s' = { s with timeout := .ofUs (s.endUs - now), readings := now :: s.readings } := by
  unfold WaitState.remaining at h
  split at h
  · cases h
  · rename_i now hnow
    simp only at h
    split at h
    · rename_i hlt
      cases h
      exact ⟨now, hnow, hlt, rfl⟩
    · cases h

theorem remaining_leave {s s' : WaitState} {tvNow : Option Timeval} {error : OtError}
    (h : s.remaining tvNow = .leave (.ok (error, s'))) :
    ∃ now, otPlatTimeGet tvNow = .ok now ∧ s.endUs ≤ now ∧ error = .failed ∧
      s' = { s with readings := now :: s.readings } := by
  unfold WaitState.remaining at h
  split at h
  · cases h
  · rename_i now hnow
    simp only at h
    split at h
    · cases h
    · rename_i hlt
      cases h
      exact ⟨now, hnow, UInt64.not_lt.mp hlt, rfl, rfl⟩

def WaitState.selected (s : WaitState) (answer : SelectAnswer) : WaitState :=
  { s with selects := (s.timeout, answer) :: s.selects }

@[simp] theorem selected_selects (s : WaitState) (answer : SelectAnswer) :
    (s.selected answer).selects = (s.timeout, answer) :: s.selects := rfl

@[simp] theorem selected_readings (s : WaitState) (answer : SelectAnswer) :
    (s.selected answer).readings = s.readings := rfl

@[simp] theorem selected_endUs (s : WaitState) (answer : SelectAnswer) :
    (s.selected answer).endUs = s.endUs := rfl

theorem waitForWritable_next {s s' : WaitState} {turn : WaitTurn}
    (h : waitForWritableLoop.body s turn = .next s') :
    (s.selected turn.select).remaining turn.tvNow = .next s' := by
  simp only [waitForWritableLoop] at h
  split at h
  · cases h
  · cases h
  · cases h
  · exact h
  · split at h
    · cases h
    · exact h

/-- A turn returns because the descriptor is writable, or because the deadline has passed. -/
theorem waitForWritable_leave {s s' : WaitState} {turn : WaitTurn} {error : OtError}
    (h : waitForWritableLoop.body s turn = .leave (.ok (error, s'))) :
    (error = .none ∧ (∃ errorSet, turn.select = .ready true errorSet) ∧
        s' = s.selected turn.select) ∨
      ((∀ errorSet, turn.select ≠ .ready true errorSet) ∧
        (s.selected turn.select).remaining turn.tvNow = .leave (.ok (error, s'))) := by
  simp only [waitForWritableLoop] at h
  split at h
  · rename_i errorSet hs
    cases h
    exact .inl ⟨rfl, ⟨errorSet, hs⟩, rfl⟩
  · cases h
  · cases h
  · rename_i hs
    refine .inr ⟨?_, h⟩
    rw [hs]
    nofun
  · rename_i errno hs
    split at h
    · cases h
    · refine .inr ⟨?_, h⟩
      rw [hs]
      nofun

/-! ## The promise -/

/-- Normalised and at most `kMaxWaitTime`. -/
structure TimeoutKept (t : Timeval) : Prop where
  usec_lt : t.tvUsec < 1000000
  us_le : t.us ≤ kMaxWaitTime.toNat * 1000

/-- What `spinel_hdlc.hpp` promises of a wait that returns `error`. -/
structure WaitPromise (first : UInt64) (error : OtError) (s : WaitState) : Prop where
  timeouts : ∀ p ∈ s.selects, TimeoutKept p.1
  none_iff : error = .none ↔ ∃ errorSet, s.selects.head?.map Prod.snd = some (.ready true errorSet)
  failed_late : error = .failed →
    ∃ now ∈ s.readings, first.toNat + kMaxWaitTime.toNat * 1000 ≤ now.toNat

/-- The reading does not go back behind the first. (Within two seconds of the end of the 64-bit
range the deadline wraps, and then no reading may reach it.) -/
def ClockKept (first now : UInt64) : Prop :=
  if first.toNat + kMaxWaitTime.toNat * 1000 < 2 ^ 64 then first ≤ now
  else now.toNat + 2 ^ 64 < first.toNat + kMaxWaitTime.toNat * 1000

/-- The 64-bit deadline, in unbounded time. -/
theorem endUs_toNat (first : UInt64) :
    (first + kMaxWaitTime * otUsPerMs).toNat =
      if first.toNat + kMaxWaitTime.toNat * 1000 < 2 ^ 64 then first.toNat + kMaxWaitTime.toNat * 1000
      else first.toNat + kMaxWaitTime.toNat * 1000 - 2 ^ 64 := by
  have hk : (kMaxWaitTime * otUsPerMs).toNat = kMaxWaitTime.toNat * 1000 := rfl
  have hw : kMaxWaitTime.toNat = 2000 := rfl
  have hf := first.toNat_lt
  rw [UInt64.toNat_add, hk]
  split
  · rw [Nat.mod_eq_of_lt (by omega)]
  · rw [Nat.mod_eq_sub_mod (by omega), Nat.mod_eq_of_lt (by omega)]

theorem ofUs_kept_iff (remain : UInt64) :
    TimeoutKept (.ofUs remain) ↔ remain.toNat ≤ kMaxWaitTime.toNat * 1000 := by
  constructor
  · intro h
    rw [← Timeval.us_ofUs]
    exact h.us_le
  · intro h
    exact ⟨Timeval.ofUs_usec_lt remain, by rw [Timeval.us_ofUs]; exact h⟩

/-- The timeout for the rest of the wait, at a reading before the deadline. -/
theorem remain_kept_iff {first now : UInt64} (h : now < first + kMaxWaitTime * otUsPerMs) :
    TimeoutKept (.ofUs (first + kMaxWaitTime * otUsPerMs - now)) ↔ ClockKept first now := by
  have hw : kMaxWaitTime.toNat = 2000 := rfl
  have hlt := UInt64.lt_iff_toNat_lt.mp h
  have hn := now.toNat_lt
  have hf := first.toNat_lt
  rw [ofUs_kept_iff, UInt64.toNat_sub_of_le _ _ (UInt64.le_of_lt h)]
  rw [endUs_toNat] at hlt ⊢
  unfold ClockKept
  rw [UInt64.le_iff_toNat_le]
  split at hlt
  · rename_i hno
    rw [if_pos hno, if_pos hno]
    omega
  · rename_i hno
    rw [if_neg hno, if_neg hno]
    omega

/-- At a reading that ends the wait, as late as promised means that the clock was kept. -/
theorem late_iff {first now : UInt64} (h : first + kMaxWaitTime * otUsPerMs ≤ now) :
    first.toNat + kMaxWaitTime.toNat * 1000 ≤ now.toNat ↔ ClockKept first now := by
  have hle := UInt64.le_iff_toNat_le.mp h
  have hn := now.toNat_lt
  rw [endUs_toNat] at hle
  unfold ClockKept
  rw [UInt64.le_iff_toNat_le]
  split at hle
  · rename_i hno
    rw [if_pos hno]
    omega
  · rename_i hno
    rw [if_neg hno]
    omega

/-- A reading before the deadline is not a late one. -/
theorem not_late_of_lt {first now : UInt64} (h : now < first + kMaxWaitTime * otUsPerMs) :
    ¬ first.toNat + kMaxWaitTime.toNat * 1000 ≤ now.toNat := by
  have hlt := UInt64.lt_iff_toNat_lt.mp h
  have hn := now.toNat_lt
  rw [endUs_toNat] at hlt
  split at hlt
  · omega
  · omega

/-! ## The loop -/

/-- At the top of each turn: the readings so far are before the deadline, and the timeouts, the
next one included, are kept exactly when the clock was. -/
structure WaitInv (first : UInt64) (s : WaitState) : Prop where
  endUs : s.endUs = first + kMaxWaitTime * otUsPerMs
  early : ∀ now ∈ s.readings, now < s.endUs
  kept : (TimeoutKept s.timeout ∧ ∀ p ∈ s.selects, TimeoutKept p.1) ↔
    ∀ now ∈ s.readings, ClockKept first now

theorem init_timeoutKept (first : UInt64) : TimeoutKept (WaitState.init first).timeout := by
  have ht : (WaitState.init first).timeout = ⟨2, 0⟩ := rfl
  have hw : kMaxWaitTime.toNat = 2000 := rfl
  rw [ht]
  refine ⟨by decide, ?_⟩
  simp [Timeval.us, hw]

theorem init_waitInv (first : UInt64) : WaitInv first (.init first) := by
  refine ⟨rfl, by simp [WaitState.init], ?_⟩
  have ht := init_timeoutKept first
  constructor
  · intro _ now hnow
    simp [WaitState.init] at hnow
  · intro _
    refine ⟨ht, ?_⟩
    intro p hp
    simp [WaitState.init] at hp

theorem next_waitInv {first : UInt64} {s s' : WaitState} {turn : WaitTurn} (hi : WaitInv first s)
    (h : waitForWritableLoop.body s turn = .next s') : WaitInv first s' := by
  obtain ⟨now, -, hlt, rfl⟩ := remaining_next (waitForWritable_next h)
  rw [selected_endUs] at hlt
  refine ⟨hi.endUs, ?_, ?_⟩
  · simp only [selected_readings, selected_endUs, List.forall_mem_cons]
    exact ⟨hlt, hi.early⟩
  · rw [hi.endUs] at hlt
    simp only [selected_readings, selected_selects, selected_endUs, List.forall_mem_cons]
    rw [hi.endUs, remain_kept_iff hlt, hi.kept]

/-- A wait that returns because the descriptor is writable. -/
theorem promise_writable {first : UInt64} {s : WaitState} {answer : SelectAnswer}
    (hi : WaitInv first s) (hw : ∃ errorSet, answer = .ready true errorSet) :
    WaitPromise first .none (s.selected answer) ↔
      ∀ now ∈ (s.selected answer).readings, ClockKept first now := by
  rw [selected_readings, ← hi.kept]
  constructor
  · intro hp
    have ht := hp.timeouts
    rw [selected_selects, List.forall_mem_cons] at ht
    exact ht
  · intro hk
    refine ⟨?_, ?_, nofun⟩
    · rw [selected_selects, List.forall_mem_cons]
      exact hk
    · obtain ⟨errorSet, rfl⟩ := hw
      exact ⟨fun _ => ⟨errorSet, rfl⟩, fun _ => rfl⟩

/-- A wait that returns at a reading after the deadline. -/
theorem promise_failed {first now : UInt64} {s : WaitState} {answer : SelectAnswer}
    (hi : WaitInv first s) (hw : ∀ errorSet, answer ≠ .ready true errorSet) (hle : s.endUs ≤ now) :
    WaitPromise first .failed { s.selected answer with readings := now :: s.readings } ↔
      ∀ now' ∈ now :: s.readings, ClockKept first now' := by
  have hearly := hi.early
  rw [hi.endUs] at hle hearly
  rw [List.forall_mem_cons, ← late_iff hle, ← hi.kept]
  constructor
  · intro hp
    have ht := hp.timeouts
    simp only [selected_selects, List.forall_mem_cons] at ht
    refine ⟨?_, ht⟩
    obtain ⟨now', hmem, hlate⟩ := hp.failed_late rfl
    rcases List.mem_cons.mp hmem with rfl | hmem
    · exact hlate
    · exact absurd hlate (not_late_of_lt (hearly now' hmem))
  · rintro ⟨hlate, hk⟩
    refine ⟨?_, ?_, fun _ => ⟨now, List.mem_cons_self, hlate⟩⟩
    · simp only [selected_selects, List.forall_mem_cons]
      exact hk
    · constructor
      · intro he
        cases he
      · rintro ⟨errorSet, he⟩
        simp only [selected_selects, List.head?_cons, Option.map_some, Option.some.injEq] at he
        exact absurd he (hw errorSet)

/-- `WaitForWritable` returns no other error than `OT_ERROR_FAILED`. -/
theorem waitForWritable_error {tvFirst : Option Timeval} {turns : List WaitTurn}
    {error : OtError} {w : WaitState} (h : waitForWritable tvFirst turns = some (.ok (error, w))) :
    error = .none ∨ error = .failed := by
  unfold waitForWritable at h
  split at h
  · cases h
  · obtain ⟨s, -, ⟨hg, -⟩ | ⟨-, turn, hb⟩⟩ :=
      EnvLoop.run_inv (fun _ => True) trivial (fun _ _ _ _ _ _ => trivial) h
    · cases hg
    · rcases waitForWritable_leave hb with ⟨he, -, -⟩ | ⟨-, hl⟩
      · exact .inl he
      · obtain ⟨now, -, -, he, -⟩ := remaining_leave hl
        exact .inr he

/-- For every wait that returns, on any clock: it keeps its promise if and only if every reading
taken after the first keeps to the first. -/
theorem waitForWritable_promise_iff (tvFirst : Option Timeval) (first : UInt64)
    (turns : List WaitTurn) (error : OtError) (s : WaitState)
    (hf : otPlatTimeGet tvFirst = .ok first)
    (h : waitForWritable tvFirst turns = some (.ok (error, s))) :
    WaitPromise first error s ↔ ∀ now ∈ s.readings, ClockKept first now := by
  unfold waitForWritable at h
  rw [hf] at h
  obtain ⟨s1, hi, ⟨hg, -⟩ | ⟨-, turn, hb⟩⟩ := EnvLoop.run_inv (WaitInv first) (init_waitInv first)
    (fun _ _ _ hi _ hb => next_waitInv hi hb) h
  · cases hg
  · rcases waitForWritable_leave hb with ⟨rfl, hw, rfl⟩ | ⟨hw, hl⟩
    · exact promise_writable hi hw
    · obtain ⟨now, -, hle, rfl, rfl⟩ := remaining_leave hl
      exact promise_failed hi hw hle

/-- The clock is set back to 0 at the second reading, ten seconds after the first. -/
def setBackTurns : List WaitTurn :=
  [⟨.failed .eintr, some ⟨0, 0⟩⟩, ⟨.ready true false, none⟩]

theorem waitForWritable_promise_iff_setBack :
    ∃ s, waitForWritable (some ⟨10, 0⟩) setBackTurns = some (.ok (.none, s)) ∧
      (WaitPromise 10000000 .none s ↔ ∀ now ∈ s.readings, ClockKept 10000000 now) :=
  ⟨_, rfl, waitForWritable_promise_iff (some ⟨10, 0⟩) 10000000 setBackTurns .none _ rfl rfl⟩

/-- The second `select` of that wait may take 12 seconds. -/
theorem waitForWritable_overlong :
    ¬ ∀ (tvFirst : Option Timeval) (first : UInt64) (turns : List WaitTurn) (error : OtError)
      (s : WaitState), otPlatTimeGet tvFirst = .ok first →
      waitForWritable tvFirst turns = some (.ok (error, s)) → WaitPromise first error s := by
  intro h
  have hp := h (some ⟨10, 0⟩) 10000000 setBackTurns .none _ rfl rfl
  have hlong := (hp.timeouts (⟨12, 0⟩, .ready true false) List.mem_cons_self).us_le
  have hw : kMaxWaitTime.toNat = 2000 := rfl
  simp [Timeval.us, hw] at hlong

end OtEsp32
