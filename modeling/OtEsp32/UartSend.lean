import OtEsp32.Platform

/-!
# UartSend

`otPlatUartSend` of `uart.c`. It completes by calling `otPlatUartSendDone`, which is OpenThread's and
may send again before the first call returns, so a history of calls is a forest (`Sends`): under a
call the ones made inside its `otPlatUartSendDone`, after it the next one.

`run_eq` is what a history leaves behind, by recursion over the forest. `all_or_nothing_iff`: output
is all or nothing per call exactly when no write takes a part of its buffer.
-/

namespace OtEsp32

/-- A call of `otPlatUartSend`: its buffer, the bytes of it that the UART took, how often it called
`otPlatUartSendDone`, and what it returned, once it has. -/
structure SendCall where
  aBuf : List UInt8
  taken : List UInt8
  dones : Nat
  error : Option OtError
  deriving DecidableEq, Repr

/-- The bytes that the CLI UART accepted, and the calls in the order in which they began. -/
structure CliUart where
  accepted : List UInt8
  calls : List SendCall
  deriving DecidableEq, Repr

/-- `write` and `otPlatUartSendDone` are what the call uses of the rest of the system. -/
def otPlatUartSend (aBuf : List UInt8) (write : List UInt8 → CliUart → Int × CliUart)
    (otPlatUartSendDone : CliUart → CliUart) (uart : CliUart) : OtError × CliUart :=
  let (rval, uart) := write aBuf uart
  if rval = aBuf.length then (.none, otPlatUartSendDone uart) else (.failed, uart)

/-- A sequence of calls with what each write does and the calls inside each `otPlatUartSendDone`. -/
inductive Sends where
  | done
  | send (aBuf : List UInt8) (write : WriteAnswer) (inDone next : Sends)
  deriving DecidableEq, Repr

def CliUart.begin (aBuf : List UInt8) (uart : CliUart) : CliUart :=
  { uart with calls := uart.calls ++ [⟨aBuf, [], 0, none⟩] }

/-- `write` in the call `id`. -/
def CliUart.write (id : Nat) (answer : WriteAnswer) (buf : List UInt8) (uart : CliUart) :
    Int × CliUart :=
  (answer.rval buf,
    { accepted := uart.accepted ++ answer.taken buf
      calls := uart.calls.modify id fun c => { c with taken := c.taken ++ answer.taken buf } })

def CliUart.sendDone (id : Nat) (uart : CliUart) : CliUart :=
  { uart with calls := uart.calls.modify id fun c => { c with dones := c.dones + 1 } }

def CliUart.return (id : Nat) (error : OtError) (uart : CliUart) : CliUart :=
  { uart with calls := uart.calls.modify id fun c => { c with error := some error } }

def Sends.run : Sends → CliUart → CliUart
  | .done, uart => uart
  | .send aBuf write inDone next, uart =>
    let id := uart.calls.length
    let (error, uart) := otPlatUartSend aBuf (CliUart.write id write)
      (fun uart => inDone.run (uart.sendDone id)) (uart.begin aBuf)
    next.run (uart.return id error)

/-- The UART has the buffers of the calls that succeeded, in order and no other byte, and each of
these calls, and no other, has reported that it is done. -/
structure AllOrNothing (uart : CliUart) : Prop where
  accepted : uart.accepted =
    (uart.calls.filter fun c => c.error = some .none).flatMap SendCall.aBuf
  done_once : ∀ c ∈ uart.calls, c.error = some .none → c.dones = 1
  failed : ∀ c ∈ uart.calls, c.error = some .failed → c.dones = 0 ∧ c.taken = []

/-- No write that the history comes to takes a part of its buffer, but not all. -/
def Sends.NoShortWrite : Sends → Prop
  | .done => True
  | .send aBuf write inDone next =>
    (write.taken aBuf = [] ∨ write.taken aBuf = aBuf) ∧
      (write.rval aBuf = aBuf.length → inDone.NoShortWrite) ∧ next.NoShortWrite

/-! ## What a history leaves behind -/

/-- The calls of a history with what came of them. -/
def Sends.calls : Sends → List SendCall
  | .done => []
  | .send aBuf write inDone next =>
    if write.rval aBuf = aBuf.length then
      ⟨aBuf, write.taken aBuf, 1, some .none⟩ :: (inDone.calls ++ next.calls)
    else ⟨aBuf, write.taken aBuf, 0, some .failed⟩ :: next.calls

theorem modify_append_length {α : Type _} (f : α → α) (l r : List α) (c : α) :
    (l ++ c :: r).modify l.length f = l ++ f c :: r := by
  induction l with
  | nil => rfl
  | cons b l ih =>
    simp only [List.cons_append, List.length_cons, List.modify_succ_cons, ih]

theorem run_eq (sends : Sends) (uart : CliUart) :
    sends.run uart =
      { accepted := uart.accepted ++ sends.calls.flatMap SendCall.taken
        calls := uart.calls ++ sends.calls } := by
  induction sends generalizing uart with
  | done => simp [Sends.run, Sends.calls]
  | send aBuf write inDone next ihDone ihNext =>
    simp only [Sends.run, otPlatUartSend, CliUart.begin, CliUart.write, modify_append_length]
    by_cases hw : write.rval aBuf = aBuf.length
    · simp only [hw, if_true, ihDone, CliUart.sendDone, modify_append_length]
      simp only [CliUart.return, List.append_assoc, List.cons_append, List.nil_append,
        modify_append_length, ihNext, Sends.calls, hw, if_true, List.flatMap_cons,
        List.flatMap_append, Nat.zero_add]
    · simp only [hw, if_false, CliUart.return, modify_append_length, ihNext, Sends.calls,
        List.append_assoc, List.cons_append, List.nil_append, List.flatMap_cons]

/-! ## The calls -/

theorem taken_of_full {aBuf : List UInt8} {write : WriteAnswer}
    (h : write.rval aBuf = aBuf.length) : write.taken aBuf = aBuf := by
  cases write with
  | accept k =>
    simp only [WriteAnswer.rval, List.length_take] at h
    exact List.take_of_length_le (by omega)
  | refuse errno =>
    simp only [WriteAnswer.rval] at h
    omega

/-- A write that returns less than the length, but took none or all, took none. -/
theorem taken_of_not_full {aBuf : List UInt8} {write : WriteAnswer}
    (h : ¬ write.rval aBuf = aBuf.length) (ht : write.taken aBuf = [] ∨ write.taken aBuf = aBuf) :
    write.taken aBuf = [] := by
  rcases ht with ht | ht
  · exact ht
  · cases write with
    | accept k =>
      have hl : (aBuf.take k).length = aBuf.length := congrArg List.length ht
      exact absurd (congrArg Int.ofNat hl) h
    | refuse errno => rfl

/-- Each call succeeds with all of its buffer and one `otPlatUartSendDone`, or fails with none. -/
theorem calls_cases (sends : Sends) :
    ∀ c ∈ sends.calls, (c.error = some .none ∧ c.taken = c.aBuf ∧ c.dones = 1) ∨
      (c.error = some .failed ∧ c.dones = 0) := by
  induction sends with
  | done =>
    intro c hc
    cases hc
  | send aBuf write inDone next ihDone ihNext =>
    intro c hc
    unfold Sends.calls at hc
    split at hc
    · rename_i hw
      rcases List.mem_cons.mp hc with rfl | hc
      · exact .inl ⟨rfl, taken_of_full hw, rfl⟩
      · rcases List.mem_append.mp hc with hc | hc
        · exact ihDone c hc
        · exact ihNext c hc
    · rcases List.mem_cons.mp hc with rfl | hc
      · exact .inr ⟨rfl, rfl⟩
      · exact ihNext c hc

theorem noShortWrite_iff (sends : Sends) :
    sends.NoShortWrite ↔ ∀ c ∈ sends.calls, c.error = some .failed → c.taken = [] := by
  induction sends with
  | done => simp [Sends.NoShortWrite, Sends.calls]
  | send aBuf write inDone next ihDone ihNext =>
    unfold Sends.NoShortWrite Sends.calls
    rw [ihDone, ihNext]
    by_cases hw : write.rval aBuf = aBuf.length
    · rw [if_pos hw, List.forall_mem_cons, List.forall_mem_append]
      constructor
      · rintro ⟨-, hd, hn⟩
        exact ⟨nofun, hd hw, hn⟩
      · rintro ⟨-, hd, hn⟩
        exact ⟨.inr (taken_of_full hw), fun _ => hd, hn⟩
    · rw [if_neg hw, List.forall_mem_cons]
      constructor
      · rintro ⟨ht, -, hn⟩
        exact ⟨fun _ => taken_of_not_full hw ht, hn⟩
      · rintro ⟨ht, hn⟩
        exact ⟨.inl (ht rfl), fun h => absurd h hw, hn⟩

/-- When the calls that fail have sent nothing, the bytes sent are the buffers of the others. -/
theorem taken_eq_sent {calls : List SendCall}
    (hc : ∀ c ∈ calls, (c.error = some .none ∧ c.taken = c.aBuf ∧ c.dones = 1) ∨
      (c.error = some .failed ∧ c.dones = 0))
    (hf : ∀ c ∈ calls, c.error = some .failed → c.taken = []) :
    calls.flatMap SendCall.taken =
      (calls.filter fun c => c.error = some .none).flatMap SendCall.aBuf := by
  induction calls with
  | nil => rfl
  | cons c calls ih =>
    have hrest := ih (fun d hd => hc d (List.mem_cons_of_mem c hd))
      (fun d hd => hf d (List.mem_cons_of_mem c hd))
    rw [List.flatMap_cons, hrest]
    rcases hc c List.mem_cons_self with ⟨he, ht, -⟩ | ⟨he, -⟩
    · rw [List.filter_cons_of_pos (by simp [he]), List.flatMap_cons, ht]
    · rw [List.filter_cons_of_neg (by simp [he]), hf c List.mem_cons_self he, List.nil_append]

/-- For every history of calls, nested to any depth, and all that their writes do: output is all or
nothing if and only if no write that the history comes to is a short one. -/
theorem all_or_nothing_iff (sends : Sends) :
    AllOrNothing (sends.run ⟨[], []⟩) ↔ sends.NoShortWrite := by
  have hcases := calls_cases sends
  rw [run_eq, noShortWrite_iff]
  constructor
  · intro h c hc he
    exact (h.failed c hc he).2
  · intro hf
    refine ⟨taken_eq_sent hcases hf, ?_, ?_⟩
    · intro c hc he
      rcases hcases c hc with ⟨-, -, hd⟩ | ⟨he', -⟩
      · exact hd
      · rw [he'] at he
        cases he
    · intro c hc he
      rcases hcases c hc with ⟨he', -, -⟩ | ⟨-, hd⟩
      · rw [he'] at he
        cases he
      · exact ⟨hd, hf c hc he⟩

/-- The UART takes one of three bytes. -/
theorem all_or_nothing_fails : ¬ ∀ sends : Sends, AllOrNothing (sends.run ⟨[], []⟩) := by
  intro h
  have hf := (h (.send [1, 2, 3] (.accept 1) .done .done)).failed ⟨[1, 2, 3], [1], 0, some .failed⟩
    List.mem_cons_self rfl
  exact absurd hf.2 (List.cons_ne_nil 1 [])

end OtEsp32
