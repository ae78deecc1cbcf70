import OtEsp32.HdlcWait

/-!
# HdlcSend

`HdlcInterface::SendFrame` and `HdlcInterface::Write` of `spinel_hdlc.cpp`, over a UART whose driver
expands line ends by a global mode.

`WriteInv` is the invariant of the write loop: what is on the line and what the pointer still has in
front of it make up the encoded frame. `sendFrame_whole` is what it gives for a call that returns.
-/

namespace OtEsp32

open Lts

/-- `esp_line_endings_t` -/
inductive EspLineEndings where
  | crlf
  | cr
  | lf
  deriving DecidableEq, Repr

/-- What the driver puts on the line for a byte. -/
def EspLineEndings.expand (mode : EspLineEndings) (b : UInt8) : List UInt8 :=
  if mode = .crlf ∧ b = 10 then [13, 10] else [b]

/-- The output side: the global mode, the bytes put on the line, and the number of writes. -/
structure UartTx where
  mode : EspLineEndings
  line : List UInt8
  writes : Nat
  deriving DecidableEq, Repr

def espVfsDevUartSetTxLineEndings (mode : EspLineEndings) (tx : UartTx) : UartTx :=
  { tx with mode := mode }

def UartTx.write (buf : List UInt8) (answer : WriteAnswer) (tx : UartTx) : Int × UartTx :=
  (answer.rval buf,
    { tx with
      line := tx.line ++ (answer.taken buf).flatMap tx.mode.expand
      writes := tx.writes + 1 })

/-- A turn's `write`, and what `WaitForWritable` finds if the turn comes to it. -/
structure WriteTurn where
  write : WriteAnswer
  tvFirst : Option Timeval
  wait : List WaitTurn
  deriving DecidableEq, Repr

/-- `aFrame` is the buffer from the pointer on. -/
structure WriteState where
  aFrame : List UInt8
  aLength : UInt16
  tx : UartTx
  deriving DecidableEq, Repr

abbrev WriteResult := Except Halt (OtError × UartTx)

/-- Whether `Write` gives up on the platform: the write failed, and not for being early. -/
def WriteAnswer.aborts : WriteAnswer → Bool
  | .accept _ => false
  | .refuse errno => errno ≠ .eagain ∧ errno ≠ .ewouldblock ∧ errno ≠ .eintr

/-- The turn when nothing was written. The loop is left with `none` when `WaitForWritable` has not
returned. -/
def WriteState.await (s : WriteState) (turn : WriteTurn) : Turn WriteState (Option WriteResult) :=
  if turn.write.aborts then .leave (some (.error .abort))
  else
    match waitForWritable turn.tvFirst turn.wait with
    | none => .leave none
    | some (.error halt) => .leave (some (.error halt))
    | some (.ok (error, _)) =>
      if error = .none then .next s else .leave (some (.ok (error, s.tx)))

def writeLoop : EnvLoop WriteState WriteTurn (Option WriteResult) where
  guard s := s.aLength ≠ 0
  body s turn :=
    let tx := espVfsDevUartSetTxLineEndings .lf s.tx
    let (rval, tx) := tx.write (s.aFrame.take s.aLength.toNat) turn.write
    let tx := espVfsDevUartSetTxLineEndings .crlf tx
    if rval > 0 then
      if rval ≤ s.aLength.toNat then
        .next
          { aFrame := s.aFrame.drop (UInt16.ofNat rval.toNat).toNat
            aLength := s.aLength - UInt16.ofNat rval.toNat
            tx := tx }
      else .leave (some (.error .assertFailed))
    else { s with tx := tx }.await turn
  after s := some (.ok (.none, s.tx))

/-- `HdlcInterface::Write` -/
def hdlcWrite (aFrame : List UInt8) (aLength : UInt16) (turns : List WriteTurn) (tx : UartTx) :
    Option WriteResult :=
  (writeLoop.run ⟨aFrame, aLength, tx⟩ turns).join

/-- `Hdlc::Encoder` with its `FrameBuffer`; a step gives `none` for `OT_ERROR_NO_BUFS`. -/
structure HdlcEncoder (Buf : Type) where
  kMaxFrameSize : UInt16
  empty : Buf
  beginFrame : Buf → Option Buf
  encode : List UInt8 → Buf → Option Buf
  endFrame : Buf → Option Buf
  getFrame : Buf → List UInt8
  length_le : ∀ buf, (getFrame buf).length ≤ kMaxFrameSize.toNat

/-- The encoded frame. -/
def HdlcEncoder.frame {Buf : Type} (enc : HdlcEncoder Buf) (aFrame : List UInt8) :
    Option (List UInt8) := do
  let encoderBuffer ← enc.beginFrame enc.empty
  let encoderBuffer ← enc.encode aFrame encoderBuffer
  let encoderBuffer ← enc.endFrame encoderBuffer
  return enc.getFrame encoderBuffer

/-- `HdlcInterface::SendFrame` -/
def sendFrame {Buf : Type} (enc : HdlcEncoder Buf) (aFrame : List UInt8) (turns : List WriteTurn)
    (tx : UartTx) : Option WriteResult :=
  match enc.frame aFrame with
  | none => some (.ok (.noBufs, tx))
  | some encoded => hdlcWrite encoded (UInt16.ofNat encoded.length) turns tx

/-! ## A write under line feeds -/

theorem expand_lf (bs : List UInt8) : bs.flatMap EspLineEndings.lf.expand = bs := by
  induction bs with
  | nil => rfl
  | cons b bs ih =>
    rw [List.flatMap_cons, ih]
    rfl

theorem rval_eq_taken {buf : List UInt8} {answer : WriteAnswer} (h : 0 < answer.rval buf) :
    answer.rval buf = (answer.taken buf).length := by
  cases answer with
  | accept k => rfl
  | refuse errno => simp [WriteAnswer.rval] at h

theorem taken_of_not_pos {buf : List UInt8} {answer : WriteAnswer} (h : ¬ 0 < answer.rval buf) :
    answer.taken buf = [] := by
  cases answer with
  | accept k =>
    simp only [WriteAnswer.rval] at h
    apply List.eq_nil_of_length_eq_zero
    simp only [WriteAnswer.taken]
    omega
  | refuse errno => rfl

theorem taken_length_le (buf : List UInt8) (answer : WriteAnswer) :
    (answer.taken buf).length ≤ buf.length := by
  cases answer with
  | accept k => exact List.length_take_le' k buf
  | refuse errno => exact Nat.zero_le _

theorem taken_append_drop (buf : List UInt8) (answer : WriteAnswer) :
    answer.taken buf ++ buf.drop (answer.taken buf).length = buf := by
  cases answer with
  | accept k =>
    simp only [WriteAnswer.taken, List.length_take]
    rcases Nat.le_total k buf.length with h | h
    · rw [Nat.min_eq_left h, List.take_append_drop]
    · rw [Nat.min_eq_right h, List.take_of_length_le h, List.drop_length, List.append_nil]
  | refuse errno => rfl

@[simp] theorem write_fst (buf : List UInt8) (answer : WriteAnswer) (tx : UartTx) :
    (tx.write buf answer).1 = answer.rval buf := rfl

/-- The output side after a turn's write: the bytes taken are on the line as they are. -/
def WriteState.written (s : WriteState) (answer : WriteAnswer) : UartTx :=
  { mode := .crlf
    line := s.tx.line ++ answer.taken (s.aFrame.take s.aLength.toNat)
    writes := s.tx.writes + 1 }

theorem write_between (s : WriteState) (answer : WriteAnswer) :
    espVfsDevUartSetTxLineEndings .crlf
        ((espVfsDevUartSetTxLineEndings .lf s.tx).write (s.aFrame.take s.aLength.toNat) answer).2 =
      s.written answer := by
  simp [espVfsDevUartSetTxLineEndings, UartTx.write, WriteState.written, expand_lf]

/-! ## What a turn does -/

theorem await_next {s s' : WriteState} {turn : WriteTurn} (h : s.await turn = .next s') :
    s' = s := by
  unfold WriteState.await at h
  split at h
  · cases h
  · split at h
    · cases h
    · cases h
    · split at h
      · cases h
        rfl
      · cases h

theorem await_leave {s : WriteState} {turn : WriteTurn} {error : OtError} {tx : UartTx}
    (h : s.await turn = .leave (some (.ok (error, tx)))) :
    error ≠ .none ∧ (∃ w, waitForWritable turn.tvFirst turn.wait = some (.ok (error, w))) ∧
      tx = s.tx := by
  unfold WriteState.await at h
  split at h
  · cases h
  · split at h
    · cases h
    · cases h
    · rename_i w hw
      split at h
      · cases h
      · rename_i he
        cases h
        exact ⟨he, ⟨w, hw⟩, rfl⟩

/-- A turn that writes moves on by what was taken; one that does not waits. -/
theorem writeLoop_body (s : WriteState) (turn : WriteTurn) :
    writeLoop.body s turn =
      let n := (turn.write.taken (s.aFrame.take s.aLength.toNat)).length
      if 0 < n then .next ⟨s.aFrame.drop n, s.aLength - UInt16.ofNat n, s.written turn.write⟩
      else { s with tx := s.written turn.write }.await turn := by
  have hlt := s.aLength.toNat_lt
  have hle := taken_length_le (s.aFrame.take s.aLength.toNat) turn.write
  rw [List.length_take] at hle
  simp only [writeLoop, write_between, write_fst]
  by_cases hpos : 0 < turn.write.rval (s.aFrame.take s.aLength.toNat)
  · have hr := rval_eq_taken hpos
    rw [if_pos hpos, if_pos (by omega), if_pos (by omega), hr, Int.toNat_natCast,
      UInt16.toNat_ofNat', Nat.mod_eq_of_lt (by omega)]
  · rw [if_neg hpos, taken_of_not_pos hpos]
    rfl

/-! ## The loop -/

/-- `encoded` is the frame as the encoder gave it and `tx` the output side as the call found it. -/
structure WriteInv (encoded : List UInt8) (tx : UartTx) (s : WriteState) : Prop where
  split : ∃ sent, s.tx.line = tx.line ++ sent ∧ sent ++ s.aFrame = encoded
  length : s.aLength.toNat = s.aFrame.length
  mode : s.tx.writes ≠ tx.writes → s.tx.mode = .crlf
  writes : tx.writes ≤ s.tx.writes

theorem init_writeInv {encoded : List UInt8} {tx : UartTx} (h : encoded.length < 2 ^ 16) :
    WriteInv encoded tx ⟨encoded, UInt16.ofNat encoded.length, tx⟩ := by
  refine ⟨⟨[], by simp, rfl⟩, ?_, fun hw => absurd rfl hw, Nat.le_refl _⟩
  rw [UInt16.toNat_ofNat', Nat.mod_eq_of_lt h]

theorem next_writeInv {encoded : List UInt8} {tx : UartTx} {s s' : WriteState} {turn : WriteTurn}
    (hi : WriteInv encoded tx s) (h : writeLoop.body s turn = .next s') :
    WriteInv encoded tx s' := by
  obtain ⟨sent, hline, hsent⟩ := hi.split
  have hlen := hi.length
  have htake : s.aFrame.take s.aLength.toNat = s.aFrame := List.take_of_length_le (by omega)
  have hwrites : tx.writes ≤ (s.written turn.write).writes := Nat.le_succ_of_le hi.writes
  rw [writeLoop_body, htake] at h
  simp only at h
  split at h
  · cases h
    refine ⟨⟨sent ++ turn.write.taken s.aFrame, ?_, ?_⟩, ?_, fun _ => rfl, hwrites⟩
    · simp only [WriteState.written, htake, hline, List.append_assoc]
    · rw [List.append_assoc, taken_append_drop, hsent]
    · have hlt := s.aLength.toNat_lt
      have hle := taken_length_le s.aFrame turn.write
      generalize (turn.write.taken s.aFrame).length = n at hle ⊢
      have hn : (UInt16.ofNat n).toNat = n := by
        rw [UInt16.toNat_ofNat', Nat.mod_eq_of_lt (by omega)]
      rw [UInt16.toNat_sub_of_le _ _ (UInt16.le_iff_toNat_le.mpr (by omega)), hn,
        List.length_drop, hlen]
  · rename_i hpos
    have hnone := List.eq_nil_of_length_eq_zero (Nat.eq_zero_of_not_pos hpos)
    rw [await_next h]
    refine ⟨⟨sent, ?_, hsent⟩, hlen, fun _ => rfl, hwrites⟩
    simp only [WriteState.written, htake, hnone, List.append_nil, hline]

theorem leave_writeInv {encoded : List UInt8} {tx tx' : UartTx} {s : WriteState} {turn : WriteTurn}
    {error : OtError} (hi : WriteInv encoded tx s)
    (h : writeLoop.body s turn = .leave (some (.ok (error, tx')))) :
    error ≠ .none ∧ (∃ w, waitForWritable turn.tvFirst turn.wait = some (.ok (error, w))) ∧
      ∃ sent, tx'.line = tx.line ++ sent ∧ sent ++ s.aFrame = encoded ∧ tx'.mode = .crlf := by
  obtain ⟨sent, hline, hsent⟩ := hi.split
  have hlen := hi.length
  have htake : s.aFrame.take s.aLength.toNat = s.aFrame := List.take_of_length_le (by omega)
  rw [writeLoop_body, htake] at h
  simp only at h
  split at h
  · cases h
  · rename_i hpos
    have hnone := List.eq_nil_of_length_eq_zero (Nat.eq_zero_of_not_pos hpos)
    obtain ⟨hne, hw, rfl⟩ := await_leave h
    refine ⟨hne, hw, sent, ?_, hsent, rfl⟩
    simp only [WriteState.written, htake, hnone, List.append_nil, hline]

theorem aFrame_nil_iff {encoded : List UInt8} {tx : UartTx} {s : WriteState}
    (hi : WriteInv encoded tx s) : s.aFrame = [] ↔ writeLoop.guard s = false := by
  have hg : writeLoop.guard s = false ↔ s.aLength = 0 := by simp [writeLoop]
  rw [hg, ← UInt16.toNat_inj, hi.length]
  exact List.length_eq_zero_iff.symm

/-- What is on the line, and the mode, when `SendFrame` returns. `encoded` is `none` when the
encoder has no room. -/
structure SentWhole (encoded : Option (List UInt8)) (tx : UartTx) (error : OtError) (tx' : UartTx) :
    Prop where
  line : ∃ sent, tx'.line = tx.line ++ sent ∧
    match error with
    | .none => encoded = some sent
    | .noBufs => encoded = none ∧ sent = []
    | .failed => ∃ frame, encoded = some frame ∧ sent <+: frame ∧ sent ≠ frame
    | .responseTimeout => False
  mode : tx.writes < tx'.writes → tx'.mode = .crlf

theorem hdlcWrite_whole {encoded : List UInt8} {turns : List WriteTurn} {tx tx' : UartTx}
    {error : OtError} (hl : encoded.length < 2 ^ 16)
    (h : hdlcWrite encoded (UInt16.ofNat encoded.length) turns tx = some (.ok (error, tx'))) :
    SentWhole (some encoded) tx error tx' := by
  rw [hdlcWrite, Option.join_eq_some_iff] at h
  obtain ⟨s, hi, ⟨hg, hr⟩ | ⟨hg, turn, hb⟩⟩ := EnvLoop.run_inv (WriteInv encoded tx)
    (init_writeInv hl) (fun _ _ _ hi _ hb => next_writeInv hi hb) h
  · cases hr
    obtain ⟨sent, hline, hsent⟩ := hi.split
    refine ⟨⟨sent, hline, ?_⟩, fun hlt => hi.mode (by omega)⟩
    rw [(aFrame_nil_iff hi).mpr hg, List.append_nil] at hsent
    exact congrArg some hsent.symm
  · obtain ⟨hne, ⟨w, hw⟩, sent, hline, hsent, hmode⟩ := leave_writeInv hi hb
    have hf : error = .failed := (waitForWritable_error hw).resolve_left hne
    subst hf
    refine ⟨⟨sent, hline, encoded, rfl, ⟨s.aFrame, hsent⟩, ?_⟩, fun _ => hmode⟩
    intro he
    have hnil : s.aFrame = [] := by
      rw [← hsent] at he
      exact List.self_eq_append_right.mp he
    rw [(aFrame_nil_iff hi).mp hnil] at hg
    cases hg

/-- What the encoder gives, step by step. -/
theorem frame_eq {Buf : Type} (enc : HdlcEncoder Buf) (aFrame : List UInt8) :
    enc.frame aFrame =
      (((enc.beginFrame enc.empty).bind (enc.encode aFrame)).bind enc.endFrame).map
        enc.getFrame := by
  unfold HdlcEncoder.frame
  cases enc.beginFrame enc.empty with
  | none => rfl
  | some b1 =>
    cases h2 : enc.encode aFrame b1 with
    | none => simp [h2]
    | some b2 => cases h3 : enc.endFrame b2 <;> simp [h2, h3]

theorem frame_length_lt {Buf : Type} {enc : HdlcEncoder Buf} {aFrame encoded : List UInt8}
    (he : enc.frame aFrame = some encoded) : encoded.length < 2 ^ 16 := by
  rw [frame_eq, Option.map_eq_some_iff] at he
  obtain ⟨b3, -, rfl⟩ := he
  exact Nat.lt_of_le_of_lt (enc.length_le b3) enc.kMaxFrameSize.toNat_lt

/-- For every frame and all that the writes and the waits come to: what a call that returns has put
on the line, and, at each turn of it, that the length is that of what the line does not have yet. -/
theorem sendFrame_whole {Buf : Type} (enc : HdlcEncoder Buf) (aFrame : List UInt8)
    (turns : List WriteTurn) (tx : UartTx) :
    (∀ error tx', sendFrame enc aFrame turns tx = some (.ok (error, tx')) →
        SentWhole
          ((((enc.beginFrame enc.empty).bind (enc.encode aFrame)).bind enc.endFrame).map
            enc.getFrame) tx error tx') ∧
      ∀ encoded,
        (((enc.beginFrame enc.empty).bind (enc.encode aFrame)).bind enc.endFrame).map
            enc.getFrame = some encoded →
        AtStates writeLoop.step ⟨encoded, UInt16.ofNat encoded.length, tx⟩ turns fun _ s =>
          ∃ sent, s.tx.line = tx.line ++ sent ∧ encoded.length = sent.length + s.aLength.toNat := by
  rw [← frame_eq]
  constructor
  · intro error tx' h
    unfold sendFrame at h
    split at h
    · rename_i he
      cases h
      rw [he]
      exact ⟨⟨[], by simp, rfl, rfl⟩, fun hlt => absurd hlt (Nat.lt_irrefl _)⟩
    · rename_i encoded he
      rw [he]
      exact hdlcWrite_whole (frame_length_lt he) h
  · intro encoded he
    refine atStates_of_inv (fun _ => WriteInv encoded tx) (init_writeInv (frame_length_lt he)) ?_ ?_
      (G := fun _ _ _ => True) (fun _ _ _ _ _ _ => trivial)
    · intro _ s turn s' hi _ hs
      exact next_writeInv hi (EnvLoop.step_some.mp hs).2
    · intro _ s hi
      obtain ⟨sent, hline, hsent⟩ := hi.split
      refine ⟨sent, hline, ?_⟩
      rw [← hsent, List.length_append, hi.length]

/-- A frame buffer of 2048 bytes. -/
abbrev FrameBuf := { bytes : List UInt8 // bytes.length ≤ 2048 }

def FrameBuf.append (bytes : List UInt8) (buf : FrameBuf) : Option FrameBuf :=
  if h : (buf.val ++ bytes).length ≤ 2048 then some ⟨buf.val ++ bytes, h⟩ else none

/-- The encoder where nothing needs escaping and the check sequence is that of a line feed. -/
def lineFeedEncoder : HdlcEncoder FrameBuf :=
  { kMaxFrameSize := 2048
    empty := ⟨[], by decide⟩
    beginFrame := FrameBuf.append [0x7e]
    encode := FrameBuf.append
    endFrame := FrameBuf.append [34, 95, 0x7e]
    getFrame := Subtype.val
    length_le := fun buf => buf.property }

/-- A short write, a wait that ends with room, and the rest. -/
def lineFeedTurns : List WriteTurn :=
  [⟨.accept 2, none, []⟩, ⟨.refuse .eagain, some ⟨10, 0⟩, [⟨.ready true false, none⟩]⟩,
    ⟨.accept 8, none, []⟩]

theorem sendFrame_whole_lineFeed :
    ∃ tx', sendFrame lineFeedEncoder [10] lineFeedTurns ⟨.crlf, [], 0⟩ = some (.ok (.none, tx')) ∧
      SentWhole (some [0x7e, 10, 34, 95, 0x7e]) ⟨.crlf, [], 0⟩ .none tx' :=
  ⟨_, rfl, (sendFrame_whole lineFeedEncoder [10] lineFeedTurns ⟨.crlf, [], 0⟩).1 .none _ rfl⟩

end OtEsp32
