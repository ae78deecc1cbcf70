import Mathlib.Algebra.Group.Nat.Defs
import OtEsp32.Platform
import OtEsp32.Lib.Lts

/-!
# UartReceive

The two paths on which the platform reads a UART: `platformCliUartProcess` of `uart.c`, and
`HdlcInterface::TryReadAndDecode` of `spinel_hdlc.cpp`, which `Process` and `WaitForFrame` call.

A run is any sequence of these calls, so it covers every interleaving of main loop iterations and
blocking waits. `receive_policy_iff`: no byte is lost on either path, and the two stop the run at the
same outcomes, exactly when no read of the CLI UART fails for good.
-/

namespace OtEsp32

open Lts

/-- What `read` on a UART comes back with: bytes, of which the buffer bounds the number, or -1. -/
inductive ReadAnswer where
  | data (bytes : List UInt8)
  | fail (errno : Errno)
  deriving DecidableEq, Repr

/-- The bytes that `read` stores in a buffer of `size` bytes. -/
def ReadAnswer.bytes (size : Nat) : ReadAnswer → List UInt8
  | .data bytes => bytes.take size
  | .fail _ => []

def ReadAnswer.rval (size : Nat) : ReadAnswer → Int
  | .data bytes => (bytes.take size).length
  | .fail _ => -1

def ReadAnswer.errno : ReadAnswer → Option Errno
  | .data _ => none
  | .fail errno => some errno

/-- -1 with an `errno` other than `EAGAIN` and `EINTR`. -/
def ReadAnswer.fatal : ReadAnswer → Bool
  | .data _ => false
  | .fail .eagain => false
  | .fail .eintr => false
  | .fail (.other _) => true

/-- The bytes handed to `otPlatUartReceived` and to the HDLC decoder, and how the run ended. -/
structure RxState where
  received : List UInt8
  decoded : List UInt8
  stopped : Option Halt
  deriving DecidableEq, Repr

def RxState.init : RxState := ⟨[], [], none⟩

def otPlatUartReceived (aBuf : List UInt8) (aBufLength : UInt16) (s : RxState) : RxState :=
  { s with received := s.received ++ aBuf.take aBufLength.toNat }

/-- `Hdlc::Decoder::Decode` -/
def hdlcDecode (aData : List UInt8) (aLength : UInt16) (s : RxState) : RxState :=
  { s with decoded := s.decoded ++ aData.take aLength.toNat }

/-- `isSet` is `FD_ISSET(sCliUartFd, &aMainloop->mReadFdSet)`. -/
def platformCliUartProcess (isSet : Bool) (answer : ReadAnswer) (s : RxState) :
    Except Halt RxState :=
  if isSet then
    let rval := answer.rval 256
    if rval > 0 then
      .ok (otPlatUartReceived (answer.bytes 256) (UInt16.ofNat rval.toNat) s)
    else if rval > 0 then
      -- the test of the branch above again: this one is never taken
      if answer.errno = some .eagain ∨ answer.errno = some .eintr then .ok s
      else .error .exitFailure
    else .ok s
  else .ok s

variable (kMaxFrameSize : UInt16)

/-- `HdlcInterface::TryReadAndDecode` -/
def tryReadAndDecode (answer : ReadAnswer) (s : RxState) : Except Halt (Int × RxState) :=
  let rval := answer.rval kMaxFrameSize.toNat
  if rval > 0 then
    .ok (rval, hdlcDecode (answer.bytes kMaxFrameSize.toNat) (UInt16.ofNat rval.toNat) s)
  else if rval < 0 ∧ answer.errno ≠ some .eagain ∧ answer.errno ≠ some .eintr then
    .error .abort
  else .ok (rval, s)

/-- `HdlcInterface::Process`; `isSet` is `FD_ISSET(mUartFd, &aMainloop.mReadFdSet)`. -/
def hdlcProcess (isSet : Bool) (answer : ReadAnswer) (s : RxState) : Except Halt RxState :=
  if isSet then
    match tryReadAndDecode kMaxFrameSize answer s with
    | .error halt => .error halt
    | .ok (_, s) => .ok s
  else .ok s

/-- `HdlcInterface::WaitForFrame`; `select` answers by the timeout that it is given. -/
def waitForFrame (aTimeoutUs : UInt64) (select : Timeval → SelectAnswer) (answer : ReadAnswer)
    (s : RxState) : Except Halt (OtError × RxState) :=
  match select (.ofUs aTimeoutUs) with
  | .ready true _ =>
    match tryReadAndDecode kMaxFrameSize answer s with
    | .error halt => .error halt
    | .ok (_, s) => .ok (.none, s)
  | .ready false true => .error .abort
  | .ready false false => .error .abort
  | .timeout => .ok (.responseTimeout, s)
  | .failed errno => if errno ≠ .eintr then .error .abort else .ok (.none, s)

/-! ## Runs -/

inductive RxAct where
  | platformCliUartProcess (isSet : Bool) (answer : ReadAnswer)
  | hdlcProcess (isSet : Bool) (answer : ReadAnswer)
  | waitForFrame (aTimeoutUs : UInt64) (select : Timeval → SelectAnswer) (answer : ReadAnswer)

def RxAct.run (s : RxState) : RxAct → Except Halt RxState
  | .platformCliUartProcess isSet answer => OtEsp32.platformCliUartProcess isSet answer s
  | .hdlcProcess isSet answer => OtEsp32.hdlcProcess kMaxFrameSize isSet answer s
  | .waitForFrame aTimeoutUs select answer =>
    match OtEsp32.waitForFrame kMaxFrameSize aTimeoutUs select answer s with
    | .error halt => .error halt
    | .ok (_, s) => .ok s

/-- A run that is stopped takes no further step. -/
def rxStep (s : RxState) (a : RxAct) : Option RxState :=
  match s.stopped with
  | some _ => none
  | none =>
    match a.run kMaxFrameSize s with
    | .error halt => some { s with stopped := some halt }
    | .ok s => some s

inductive RxUart where
  | cli
  | radio
  deriving DecidableEq, Repr

/-- The read that a call makes, if it comes to one. -/
def RxAct.read : RxAct → Option (RxUart × ReadAnswer)
  | .platformCliUartProcess isSet answer => if isSet then some (.cli, answer) else none
  | .hdlcProcess isSet answer => if isSet then some (.radio, answer) else none
  | .waitForFrame aTimeoutUs select answer =>
    match select (.ofUs aTimeoutUs) with
    | .ready true _ => some (.radio, answer)
    | _ => none

/-- What the successful reads of one UART returned. -/
def bytesRead (uart : RxUart) (size : Nat) (as : List RxAct) : List UInt8 :=
  as.flatMap fun a =>
    match a.read with
    | some (u, answer) => if u = uart then answer.bytes size else []
    | none => []

def Reads (s : RxState) (a : RxAct) (uart : RxUart) (answer : ReadAnswer) : Prop :=
  s.stopped = none ∧ a.read = some (uart, answer)

/-- The step ends the run. A call that makes a read can end it on no other account. -/
def Stops (s : RxState) (a : RxAct) : Prop :=
  ∃ s' halt, rxStep kMaxFrameSize s a = some s' ∧ s'.stopped = some halt

structure ReceivePolicy (as : List RxAct) : Prop where
  received : AtStates (rxStep kMaxFrameSize) .init as fun pre s =>
    s.received = bytesRead .cli 256 pre
  decoded : AtStates (rxStep kMaxFrameSize) .init as fun pre s =>
    s.decoded = bytesRead .radio kMaxFrameSize.toNat pre
  stops : AtSteps (rxStep kMaxFrameSize) .init as fun _ s a =>
    ∀ uart answer, Reads s a uart answer → (Stops kMaxFrameSize s a ↔ answer.fatal = true)

/-! ## The calls -/

section Calls

variable {kMaxFrameSize : UInt16} {isSet : Bool} {answer : ReadAnswer} {s s' : RxState}

/-- The cast of a length that the buffer bounds loses nothing. -/
theorem take_rval {size : Nat} (hs : size < 2 ^ 16) (answer : ReadAnswer) :
    (answer.bytes size).take (UInt16.ofNat (answer.rval size).toNat).toNat = answer.bytes size := by
  cases answer with
  | data bytes =>
    have hl : (bytes.take size).length ≤ size := List.length_take_le size bytes
    simp only [ReadAnswer.bytes, ReadAnswer.rval, Int.toNat_natCast, UInt16.toNat_ofNat']
    rw [Nat.mod_eq_of_lt (by omega), List.take_of_length_le (Nat.le_refl _)]
  | fail errno => rfl

theorem bytes_of_not_pos {size : Nat} (h : ¬ answer.rval size > 0) : answer.bytes size = [] := by
  cases answer with
  | data bytes =>
    simp only [ReadAnswer.rval] at h
    apply List.eq_nil_of_length_eq_zero
    simp only [ReadAnswer.bytes]
    omega
  | fail errno => rfl

theorem fatal_iff (size : Nat) (answer : ReadAnswer) :
    answer.fatal = true ↔
      answer.rval size < 0 ∧ answer.errno ≠ some .eagain ∧ answer.errno ≠ some .eintr := by
  cases answer with
  | data bytes =>
    simp only [ReadAnswer.fatal, ReadAnswer.rval, Bool.false_eq_true, false_iff]
    rintro ⟨h, -⟩
    omega
  | fail errno => cases errno <;> simp [ReadAnswer.fatal, ReadAnswer.rval, ReadAnswer.errno]

/-- A read of the CLI UART hands on its bytes and never ends the run. -/
theorem platformCliUartProcess_ok (answer : ReadAnswer) (s : RxState) :
    platformCliUartProcess true answer s =
      .ok { s with received := s.received ++ answer.bytes 256 } := by
  unfold platformCliUartProcess
  rw [if_pos rfl]
  simp only
  split
  · rw [otPlatUartReceived, take_rval (by decide)]
  · rename_i hpos
    rw [bytes_of_not_pos hpos, List.append_nil]

theorem tryReadAndDecode_ok (h : answer.fatal = false) :
    tryReadAndDecode kMaxFrameSize answer s =
      .ok (answer.rval kMaxFrameSize.toNat,
        { s with decoded := s.decoded ++ answer.bytes kMaxFrameSize.toNat }) := by
  unfold tryReadAndDecode
  simp only
  split
  · rw [hdlcDecode, take_rval kMaxFrameSize.toNat_lt]
  · rename_i hpos
    rw [if_neg, bytes_of_not_pos hpos, List.append_nil]
    rw [← fatal_iff, h]
    exact Bool.false_ne_true

theorem tryReadAndDecode_err (h : answer.fatal = true) :
    tryReadAndDecode kMaxFrameSize answer s = .error .abort := by
  have hf := (fatal_iff kMaxFrameSize.toNat answer).mp h
  unfold tryReadAndDecode
  simp only
  rw [if_neg (by omega), if_pos hf]

theorem run_cli {a : RxAct} (h : a.read = some (.cli, answer)) :
    a.run kMaxFrameSize s = .ok { s with received := s.received ++ answer.bytes 256 } := by
  cases a with
  | platformCliUartProcess isSet answer =>
    cases isSet with
    | true =>
      cases h
      exact platformCliUartProcess_ok answer s
    | false => cases h
  | hdlcProcess isSet answer => cases isSet <;> cases h
  | waitForFrame aTimeoutUs select answer =>
    simp only [RxAct.read] at h
    split at h <;> cases h

/-- Both calls that read the radio UART do what `TryReadAndDecode` does. -/
theorem run_radio {a : RxAct} (h : a.read = some (.radio, answer)) :
    a.run kMaxFrameSize s =
      match tryReadAndDecode kMaxFrameSize answer s with
      | .error halt => .error halt
      | .ok (_, s) => .ok s := by
  cases a with
  | platformCliUartProcess isSet answer => cases isSet <;> cases h
  | hdlcProcess isSet answer =>
    cases isSet with
    | true =>
      cases h
      rfl
    | false => cases h
  | waitForFrame aTimeoutUs select answer =>
    simp only [RxAct.read] at h
    split at h
    · rename_i hsel
      cases h
      simp only [RxAct.run, OtEsp32.waitForFrame, hsel]
      cases tryReadAndDecode kMaxFrameSize answer s with
      | error halt => rfl
      | ok r => rfl
    · cases h

/-- A call that makes no read hands on nothing. -/
theorem run_none {a : RxAct} (h : a.read = none) (hr : a.run kMaxFrameSize s = .ok s') :
    s' = s := by
  cases a with
  | platformCliUartProcess isSet answer =>
    cases isSet with
    | true => cases h
    | false =>
      cases hr
      rfl
  | hdlcProcess isSet answer =>
    cases isSet with
    | true => cases h
    | false =>
      cases hr
      rfl
  | waitForFrame aTimeoutUs select answer =>
    simp only [RxAct.read] at h
    simp only [RxAct.run, OtEsp32.waitForFrame] at hr
    cases hsel : select (.ofUs aTimeoutUs) with
    | ready fdSet errorSet =>
      rw [hsel] at h hr
      cases fdSet with
      | true => cases h
      | false => cases errorSet <;> cases hr
    | timeout =>
      rw [hsel] at hr
      cases hr
      rfl
    | failed errno =>
      rw [hsel] at hr
      simp only at hr
      split at hr
      · rename_i heq
        split at heq <;> cases heq
        cases hr
      · rename_i heq
        split at heq <;> cases heq
        cases hr
        rfl

end Calls

/-! ## Steps -/

section Steps

variable {kMaxFrameSize : UInt16} {answer : ReadAnswer} {s s' : RxState} {a : RxAct}

theorem bytesRead_concat (uart : RxUart) (size : Nat) (as : List RxAct) (a : RxAct) :
    bytesRead uart size (as ++ [a]) = bytesRead uart size as ++ bytesRead uart size [a] :=
  List.flatMap_append

theorem bytesRead_none (uart : RxUart) (size : Nat) (h : a.read = none) :
    bytesRead uart size [a] = [] := by
  simp [bytesRead, h]

theorem bytesRead_some {u : RxUart} (uart : RxUart) (size : Nat) (h : a.read = some (u, answer)) :
    bytesRead uart size [a] = if u = uart then answer.bytes size else [] := by
  simp [bytesRead, h]

theorem bytes_of_fatal {size : Nat} (h : answer.fatal = true) : answer.bytes size = [] := by
  cases answer with
  | data bytes => cases h
  | fail errno => rfl

theorem rxStep_cli (h : Reads s a .cli answer) :
    rxStep kMaxFrameSize s a = some { s with received := s.received ++ answer.bytes 256 } := by
  obtain ⟨hn, hread⟩ := h
  simp only [rxStep, hn, run_cli hread]

theorem rxStep_radio_ok (h : Reads s a .radio answer) (hf : answer.fatal = false) :
    rxStep kMaxFrameSize s a =
      some { s with decoded := s.decoded ++ answer.bytes kMaxFrameSize.toNat } := by
  obtain ⟨hn, hread⟩ := h
  simp only [rxStep, hn, run_radio hread, tryReadAndDecode_ok hf]

theorem rxStep_radio_err (h : Reads s a .radio answer) (hf : answer.fatal = true) :
    rxStep kMaxFrameSize s a = some { s with stopped := some .abort } := by
  obtain ⟨hn, hread⟩ := h
  simp only [rxStep, hn, run_radio hread, tryReadAndDecode_err hf]

theorem rxStep_none (hr : a.read = none) (h : rxStep kMaxFrameSize s a = some s') :
    s'.received = s.received ∧ s'.decoded = s.decoded := by
  unfold rxStep at h
  split at h
  · cases h
  · split at h
    · cases h
      exact ⟨rfl, rfl⟩
    · rename_i s1 hrun
      cases h
      rw [run_none hr hrun]
      exact ⟨rfl, rfl⟩

theorem stopped_of_rxStep (h : rxStep kMaxFrameSize s a = some s') : s.stopped = none := by
  unfold rxStep at h
  split at h
  · cases h
  · rename_i hn
    exact hn

/-- What a step adds to the bytes handed on is what its read returned. -/
theorem rxStep_bytes (h : rxStep kMaxFrameSize s a = some s') :
    s'.received = s.received ++ bytesRead .cli 256 [a] ∧
      s'.decoded = s.decoded ++ bytesRead .radio kMaxFrameSize.toNat [a] := by
  have hn := stopped_of_rxStep h
  cases hr : a.read with
  | none =>
    rw [bytesRead_none _ _ hr, bytesRead_none _ _ hr, List.append_nil, List.append_nil]
    exact rxStep_none hr h
  | some p =>
    obtain ⟨uart, answer⟩ := p
    rw [bytesRead_some _ _ hr, bytesRead_some _ _ hr]
    cases uart with
    | cli =>
      rw [rxStep_cli ⟨hn, hr⟩] at h
      cases h
      exact ⟨rfl, (List.append_nil _).symm⟩
    | radio =>
      cases hf : answer.fatal with
      | true =>
        rw [rxStep_radio_err ⟨hn, hr⟩ hf] at h
        cases h
        simp [bytes_of_fatal hf]
      | false =>
        rw [rxStep_radio_ok ⟨hn, hr⟩ hf] at h
        cases h
        exact ⟨(List.append_nil _).symm, rfl⟩

theorem not_stops_cli (h : Reads s a .cli answer) : ¬ Stops kMaxFrameSize s a := by
  rintro ⟨s', halt, hs, hh⟩
  rw [rxStep_cli h] at hs
  cases hs
  rw [h.1] at hh
  cases hh

theorem stops_radio_iff (h : Reads s a .radio answer) :
    Stops kMaxFrameSize s a ↔ answer.fatal = true := by
  cases hf : answer.fatal with
  | true => exact ⟨fun _ => rfl, fun _ => ⟨_, .abort, rxStep_radio_err h hf, rfl⟩⟩
  | false =>
    refine ⟨?_, nofun⟩
    rintro ⟨s', halt, hs, hh⟩
    rw [rxStep_radio_ok h hf] at hs
    cases hs
    rw [h.1] at hh
    cases hh

end Steps

/-! ## The policy -/

theorem bytes_kept (as : List RxAct) :
    AtStates (rxStep kMaxFrameSize) .init as fun pre s =>
      s.received = bytesRead .cli 256 pre ∧
        s.decoded = bytesRead .radio kMaxFrameSize.toNat pre := by
  refine atStates_of_inv (G := fun _ _ _ => True) _ ⟨rfl, rfl⟩ ?_ (fun _ _ h => h)
    (fun _ _ _ _ _ _ => trivial)
  rintro pre s a s' ⟨hrec, hdec⟩ - hs
  obtain ⟨hr, hd⟩ := rxStep_bytes hs
  rw [bytesRead_concat, bytesRead_concat, ← hrec, ← hdec]
  exact ⟨hr, hd⟩

/-- For every run: no byte is lost and the run is stopped by the right reads, if and only if no read
of the CLI UART on the way fails for good. -/
theorem receive_policy_iff (as : List RxAct) :
    ReceivePolicy kMaxFrameSize as ↔
      AtSteps (rxStep kMaxFrameSize) .init as fun _ s a =>
        ∀ answer, Reads s a .cli answer → answer.fatal = false := by
  have hstops : AtSteps (rxStep kMaxFrameSize) .init as (fun _ s a =>
        ∀ uart answer, Reads s a uart answer → (Stops kMaxFrameSize s a ↔ answer.fatal = true)) ↔
      AtSteps (rxStep kMaxFrameSize) .init as fun _ s a =>
        ∀ answer, Reads s a .cli answer → answer.fatal = false := by
    refine atSteps_congr (fun _ _ => True) trivial (fun _ _ _ _ _ _ => trivial) ?_
    intro _ s a _
    constructor
    · intro h answer hread
      rw [Bool.eq_false_iff]
      exact fun hf => not_stops_cli hread ((h .cli answer hread).mpr hf)
    · intro h uart answer hread
      cases uart with
      | cli =>
        rw [h answer hread]
        exact ⟨fun hs => absurd hs (not_stops_cli hread), nofun⟩
      | radio => exact stops_radio_iff hread
  rw [← hstops]
  constructor
  · intro h
    exact h.stops
  · intro h
    have hb := bytes_kept kMaxFrameSize as
    exact ⟨fun pre post s hs he => (hb pre post s hs he).1,
      fun pre post s hs he => (hb pre post s hs he).2, h⟩

/-- A read of the CLI UART that fails with `EIO` does not stop the run. -/
theorem receive_policy_fails :
    ¬ ∀ (kMaxFrameSize : UInt16) (as : List RxAct), ReceivePolicy kMaxFrameSize as := by
  intro h
  have hs := (h 2048 [.platformCliUartProcess true (.fail (.other 5))]).stops [] _ [] .init rfl rfl
    .cli (.fail (.other 5)) ⟨rfl, rfl⟩
  exact not_stops_cli ⟨rfl, rfl⟩ (hs.mpr rfl)

end OtEsp32
