import OtEsp32.HdlcSend
import OtEsp32.Lib.Sim

/-!
# LineEndings

`HdlcInterface::Write` among tasks that write to the console. The line end mode is one for all
UARTs, so between the two calls that set it a task that prints sees the mode of the radio, and the
radio must never see that of the console.

`TxSys` takes a turn of the loop apart into its calls and lets a byte of the console come between
any two of them. `radio_write_undisturbed`: the loop does what it does alone, and a line feed of the
console is expanded except between the two calls.
-/

namespace OtEsp32

open Lts

/-- Where `Write` is in a turn. -/
inductive TxPc where
  | top
  | armed
  | wrote (answer : WriteAnswer)
  | rest (answer : WriteAnswer)
  | returned (r : Option WriteResult)
  deriving DecidableEq, Repr

/-- `write.tx.mode` is the global mode; `console` is what the console UART has put on its line. -/
structure TxSys where
  write : WriteState
  console : List UInt8
  pc : TxPc
  deriving DecidableEq, Repr

def TxSys.start (aFrame : List UInt8) (tx : UartTx) (console : List UInt8) : TxSys :=
  ⟨⟨aFrame, UInt16.ofNat aFrame.length, tx⟩, console, .top⟩

inductive TxAct where
  | exit
  | setLf
  | write (answer : WriteAnswer)
  | setCrlf
  | rest (tvFirst : Option Timeval) (wait : List WaitTurn)
  | console (b : UInt8)
  deriving DecidableEq, Repr

def TxSys.turn (s : TxSys) : Turn WriteState (Option WriteResult) → TxSys
  | .next w => { s with write := w, pc := .top }
  | .leave r => { s with pc := .returned r }

/-- The end of a turn, from the test of `rval`. -/
def WriteState.finish (w : WriteState) (turn : WriteTurn) : Turn WriteState (Option WriteResult) :=
  let rval := turn.write.rval (w.aFrame.take w.aLength.toNat)
  if rval > 0 then
    if rval ≤ w.aLength.toNat then
      .next { w with
        aFrame := w.aFrame.drop (UInt16.ofNat rval.toNat).toNat
        aLength := w.aLength - UInt16.ofNat rval.toNat }
    else .leave (some (.error .assertFailed))
  else w.await turn

def TxSys.step (s : TxSys) : TxAct → Option TxSys
  | .exit =>
    if s.pc = .top ∧ s.write.aLength = 0 then
      some { s with pc := .returned (some (.ok (.none, s.write.tx))) }
    else none
  | .setLf =>
    if s.pc = .top ∧ s.write.aLength ≠ 0 then
      some { s with
        write := { s.write with tx := espVfsDevUartSetTxLineEndings .lf s.write.tx }
        pc := .armed }
    else none
  | .write answer =>
    if s.pc = .armed then
      some { s with
        write := { s.write with
          tx := (s.write.tx.write (s.write.aFrame.take s.write.aLength.toNat) answer).2 }
        pc := .wrote answer }
    else none
  | .setCrlf =>
    match s.pc with
    | .wrote answer =>
      some { s with
        write := { s.write with tx := espVfsDevUartSetTxLineEndings .crlf s.write.tx }
        pc := .rest answer }
    | _ => none
  | .rest tvFirst wait =>
    match s.pc with
    | .rest answer => some (s.turn (s.write.finish ⟨answer, tvFirst, wait⟩))
    | _ => none
  | .console b => some { s with console := s.console ++ s.write.tx.mode.expand b }

/-- The turn that a step ends. -/
def TxSys.lin (s : TxSys) : TxAct → List WriteTurn
  | .rest tvFirst wait =>
    match s.pc with
    | .rest answer => [⟨answer, tvFirst, wait⟩]
    | _ => []
  | _ => []

/-- Between the two calls. -/
def TxPc.inWindow : TxPc → Bool
  | .armed | .wrote _ => true
  | _ => false

/-! ## The turns -/

section Undisturbed

variable {frame : List UInt8} {tx : UartTx} {w : WriteState} {turn : WriteTurn}

theorem exec_writeInv {turns : List WriteTurn} (hl : frame.length < 2 ^ 16)
    (hrun : exec writeLoop.step ⟨frame, UInt16.ofNat frame.length, tx⟩ turns = some w) :
    WriteInv frame tx w :=
  exec_inv' (WriteInv frame tx) (init_writeInv hl)
    (fun _ _ _ hi hs => next_writeInv hi (EnvLoop.step_some.mp hs).2) hrun

/-- The calls of a turn, put together again. -/
theorem finish_written (w : WriteState) (turn : WriteTurn) :
    { w with tx := w.written turn.write }.finish turn = writeLoop.body w turn := by
  simp only [writeLoop, write_between, write_fst, WriteState.finish]

/-- The mode, and where the turns so far have led. -/
inductive TxInv (w0 : WriteState) (turns : List WriteTurn) (s : TxSys) : Prop where
  | top (hpc : s.pc = .top) (hmode : s.write.tx.mode = .crlf)
      (hrun : exec writeLoop.step w0 turns = some s.write)
  | armed (w : WriteState) (hpc : s.pc = .armed) (hg : writeLoop.guard w = true)
      (hrun : exec writeLoop.step w0 turns = some w)
      (hw : s.write = { w with tx := espVfsDevUartSetTxLineEndings .lf w.tx })
  | wrote (w : WriteState) (answer : WriteAnswer) (hpc : s.pc = .wrote answer)
      (hg : writeLoop.guard w = true) (hrun : exec writeLoop.step w0 turns = some w)
      (hw : s.write = { w with
        tx := ((espVfsDevUartSetTxLineEndings .lf w.tx).write (w.aFrame.take w.aLength.toNat)
          answer).2 })
  | rest (w : WriteState) (answer : WriteAnswer) (hpc : s.pc = .rest answer)
      (hg : writeLoop.guard w = true) (hrun : exec writeLoop.step w0 turns = some w)
      (hw : s.write = { w with tx := w.written answer })
  | returned (r : Option WriteResult) (hpc : s.pc = .returned r) (hmode : s.write.tx.mode = .crlf)
      (hrun : writeLoop.run w0 turns = some r)
      (hline : ∃ sent, s.write.tx.line = w0.tx.line ++ sent ∧ sent <+: w0.aFrame)

theorem start_txInv (frame : List UInt8) (console : List UInt8) (hm : tx.mode = .crlf) :
    TxInv ⟨frame, UInt16.ofNat frame.length, tx⟩ [] (.start frame tx console) :=
  .top rfl hm rfl

theorem finish_tx {w' : WriteState} (h : w.finish turn = .next w') : w'.tx = w.tx := by
  unfold WriteState.finish at h
  simp only at h
  split at h
  · split at h
    · cases h
      rfl
    · cases h
  · rw [await_next h]

/-- What is on the line once the turn's write is made is still a part of the frame. -/
theorem written_prefix (hi : WriteInv frame tx w) (answer : WriteAnswer) :
    ∃ sent, (w.written answer).line = tx.line ++ sent ∧ sent <+: frame := by
  obtain ⟨sent, hline, hsent⟩ := hi.split
  have hlen := hi.length
  have htake : w.aFrame.take w.aLength.toNat = w.aFrame := List.take_of_length_le (by omega)
  refine ⟨sent ++ answer.taken w.aFrame, ?_, w.aFrame.drop (answer.taken w.aFrame).length, ?_⟩
  · simp only [WriteState.written, htake, hline, List.append_assoc]
  · rw [List.append_assoc, taken_append_drop, hsent]

theorem step_txInv {turns : List WriteTurn} {s s' : TxSys} {a : TxAct}
    (hl : frame.length < 2 ^ 16)
    (hi : TxInv ⟨frame, UInt16.ofNat frame.length, tx⟩ turns s) (h : s.step a = some s') :
    TxInv ⟨frame, UInt16.ofNat frame.length, tx⟩ (turns ++ s.lin a) s' := by
  cases a with
  | console b =>
    cases h
    rw [show s.lin (.console b) = [] from rfl, List.append_nil]
    cases hi with
    | top hpc hmode hrun => exact .top hpc hmode hrun
    | armed w hpc hg hrun hw => exact .armed w hpc hg hrun hw
    | wrote w answer hpc hg hrun hw => exact .wrote w answer hpc hg hrun hw
    | rest w answer hpc hg hrun hw => exact .rest w answer hpc hg hrun hw
    | returned r hpc hmode hrun hline => exact .returned r hpc hmode hrun hline
  | exit =>
    simp only [TxSys.step] at h
    split at h
    · rename_i hc
      obtain ⟨hpc, hz⟩ := hc
      cases h
      rw [show s.lin .exit = [] from rfl, List.append_nil]
      cases hi with
      | top _ hmode hrun =>
        have hg : writeLoop.guard s.write = false := by simp [writeLoop, hz]
        refine .returned _ rfl hmode (EnvLoop.run_iff.mpr
          ⟨turns, [], s.write, (List.append_nil _).symm, hrun, .inl ⟨hg, rfl⟩⟩) ?_
        obtain ⟨sent, hline, hsent⟩ := (exec_writeInv hl hrun).split
        exact ⟨sent, hline, s.write.aFrame, hsent⟩
      | _ => simp_all
    · cases h
  | setLf =>
    simp only [TxSys.step] at h
    split at h
    · rename_i hc
      obtain ⟨hpc, hz⟩ := hc
      cases h
      rw [show s.lin .setLf = [] from rfl, List.append_nil]
      cases hi with
      | top _ hmode hrun =>
        exact .armed s.write rfl (by simpa [writeLoop] using hz) hrun rfl
      | _ => simp_all
    · cases h
  | write answer =>
    simp only [TxSys.step] at h
    split at h
    · rename_i hpc
      cases h
      rw [show s.lin (.write answer) = [] from rfl, List.append_nil]
      cases hi with
      | armed w _ hg hrun hw =>
        refine .wrote w answer rfl hg hrun ?_
        rw [hw]
      | _ => simp_all
    · cases h
  | setCrlf =>
    simp only [TxSys.step] at h
    split at h
    · rename_i answer hpc
      cases h
      rw [show s.lin .setCrlf = [] from rfl, List.append_nil]
      cases hi with
      | wrote w answer' hpc' hg hrun hw =>
        rw [hpc] at hpc'
        cases hpc'
        refine .rest w answer rfl hg hrun ?_
        rw [hw, ← write_between]
      | _ => simp_all
    · cases h
  | rest tvFirst wait =>
    simp only [TxSys.step] at h
    split at h
    · rename_i answer hpc
      cases h
      rw [show s.lin (.rest tvFirst wait) = [⟨answer, tvFirst, wait⟩] by simp [TxSys.lin, hpc]]
      cases hi with
      | rest w answer' hpc' hg hrun hw =>
        rw [hpc] at hpc'
        cases hpc'
        have hbody := finish_written w ⟨answer, tvFirst, wait⟩
        cases hf : s.write.finish ⟨answer, tvFirst, wait⟩ with
        | next w' =>
          refine .top rfl ?_ (exec_concat.mpr ⟨w, hrun, EnvLoop.step_some.mpr ⟨hg, ?_⟩⟩)
          · show w'.tx.mode = .crlf
            rw [finish_tx hf, hw]
            rfl
          · rw [← hbody, ← hw]
            exact hf
        | leave r =>
          refine .returned r rfl (by rw [TxSys.turn, hw]; rfl) (EnvLoop.run_iff.mpr
            ⟨turns, _, w, rfl, hrun, .inr ⟨hg, _, [], rfl, ?_⟩⟩) ?_
          · rw [← hbody, ← hw]
            exact hf
          · obtain ⟨sent, hline, hsent⟩ := written_prefix (exec_writeInv hl hrun) answer
            refine ⟨sent, ?_, hsent⟩
            rw [TxSys.turn, hw]
            exact hline
      | _ => simp_all
    · cases h

theorem init_txInv_run (hl : frame.length < 2 ^ 16) (hm : tx.mode = .crlf)
    (console : List UInt8) {as : List TxAct} {s : TxSys}
    (h : exec TxSys.step (.start frame tx console) as = some s) :
    TxInv ⟨frame, UInt16.ofNat frame.length, tx⟩
      (trace TxSys.step TxSys.lin (.start frame tx console) as) s := by
  have hi := exec_inv (fun pre s => exec TxSys.step (.start frame tx console) pre = some s ∧
      TxInv ⟨frame, UInt16.ofNat frame.length, tx⟩
        (trace TxSys.step TxSys.lin (.start frame tx console) pre) s)
    (fun _ _ _ => True) ⟨rfl, start_txInv frame console hm⟩ ?_ (fun _ _ _ _ _ _ => trivial) h
  · exact hi.2
  · rintro pre s1 a s2 ⟨hrun, hi⟩ - hs
    refine ⟨exec_concat.mpr ⟨s1, hrun, hs⟩, ?_⟩
    rw [trace_concat hrun]
    exact step_txInv hl hi hs

/-- The mode is that of the console outside the window, and that of the radio inside. -/
theorem TxInv.mode {w0 : WriteState} {turns : List WriteTurn} {s : TxSys}
    (hi : TxInv w0 turns s) :
    s.write.tx.mode = if s.pc.inWindow then .lf else .crlf := by
  cases hi with
  | top hpc hmode hrun => simp [hpc, hmode, TxPc.inWindow]
  | armed w hpc hg hrun hw => simp [hpc, hw, TxPc.inWindow, espVfsDevUartSetTxLineEndings]
  | wrote w answer hpc hg hrun hw =>
    simp [hpc, hw, TxPc.inWindow, espVfsDevUartSetTxLineEndings, UartTx.write]
  | rest w answer hpc hg hrun hw => simp [hpc, hw, TxPc.inWindow, WriteState.written]
  | returned r hpc hmode hrun hline => simp [hpc, hmode, TxPc.inWindow]

theorem TxInv.line {turns : List WriteTurn} {s : TxSys} (hl : frame.length < 2 ^ 16)
    (hi : TxInv ⟨frame, UInt16.ofNat frame.length, tx⟩ turns s) :
    ∃ sent, s.write.tx.line = tx.line ++ sent ∧ sent <+: frame := by
  cases hi with
  | top hpc hmode hrun =>
    obtain ⟨sent, hline, hsent⟩ := (exec_writeInv hl hrun).split
    exact ⟨sent, hline, s.write.aFrame, hsent⟩
  | armed w hpc hg hrun hw =>
    obtain ⟨sent, hline, hsent⟩ := (exec_writeInv hl hrun).split
    exact ⟨sent, by rw [hw]; exact hline, w.aFrame, hsent⟩
  | wrote w answer hpc hg hrun hw =>
    obtain ⟨sent, hline, hsent⟩ := written_prefix (exec_writeInv hl hrun) answer
    refine ⟨sent, ?_, hsent⟩
    rw [hw, ← hline, ← write_between]
    rfl
  | rest w answer hpc hg hrun hw =>
    obtain ⟨sent, hline, hsent⟩ := written_prefix (exec_writeInv hl hrun) answer
    exact ⟨sent, by rw [hw]; exact hline, hsent⟩
  | returned r hpc hmode hrun hline => exact hline

end Undisturbed

/-- For every frame that fits the 16-bit length and every order in which the calls of `Write` and
the bytes of the console come: what is on the radio's line is an unexpanded beginning of the frame;
the loop ends as it would alone, on the same answers; and a byte of the console is expanded unless
it falls between the two calls that set the mode. -/
theorem radio_write_undisturbed (frame : List UInt8) (tx : UartTx) (console : List UInt8)
    (hl : frame.length < 2 ^ 16) (hm : tx.mode = .crlf) (as : List TxAct) (s : TxSys)
    (h : exec TxSys.step (.start frame tx console) as = some s) :
    (∃ sent, s.write.tx.line = tx.line ++ sent ∧ sent <+: frame) ∧
      (∀ r, s.pc = .returned r →
        hdlcWrite frame (UInt16.ofNat frame.length)
          (trace TxSys.step TxSys.lin (.start frame tx console) as) tx = r) ∧
      ∀ b, s.step (.console b) = some { s with
        console := s.console ++ if s.pc.inWindow then [b] else EspLineEndings.crlf.expand b } := by
  have hi := init_txInv_run hl hm console h
  refine ⟨hi.line hl, ?_, ?_⟩
  · intro r hr
    cases hi with
    | returned r' hpc hmode hrun hline =>
      rw [hr] at hpc
      cases hpc
      rw [hdlcWrite, hrun]
      rfl
    | _ => simp_all
  · intro b
    simp only [TxSys.step, hi.mode]
    split
    · simp [EspLineEndings.expand]
    · rfl

/-- A line feed of the console between the two calls, and one after them. -/
def windowRun : List TxAct :=
  [.setLf, .console 10, .write (.accept 1), .setCrlf, .rest none [], .console 10, .exit]

theorem radio_write_undisturbed_window :
    ∃ s, exec TxSys.step (.start [10] ⟨.crlf, [], 0⟩ []) windowRun = some s ∧
      (∃ sent, s.write.tx.line = [] ++ sent ∧ sent <+: [10]) ∧
      (∀ r, s.pc = .returned r →
        hdlcWrite [10] (UInt16.ofNat 1)
          (trace TxSys.step TxSys.lin (.start [10] ⟨.crlf, [], 0⟩ []) windowRun)
          ⟨.crlf, [], 0⟩ = r) ∧
      ∀ b, s.step (.console b) = some { s with
        console := s.console ++ if s.pc.inWindow then [b] else EspLineEndings.crlf.expand b } :=
  ⟨_, rfl, radio_write_undisturbed [10] ⟨.crlf, [], 0⟩ [] (by decide) rfl windowRun _ rfl⟩

end OtEsp32
