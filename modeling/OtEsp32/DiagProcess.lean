import Mathlib.Algebra.Group.Nat.Defs
import Mathlib.Data.List.Induction
import OtEsp32.Platform
import OtEsp32.Lib.CString

/-!
# DiagProcess

`otPlatDiagProcess` of `radio.cpp`, which prints the arguments of a diagnostics command one after
the other into the buffer `cmd`. Memory is addressed from `cmd`; `cur` is an offset.

`diag_contract_iff`: it keeps to the buffer, and passes on the line cut to it, exactly when no
argument comes after the line has outgrown the buffer (up to a multiple of the 32-bit range).
-/

namespace OtEsp32

open CString

/-- A C string. -/
structure CStr where
  bytes : List UInt8
  no_nul : (0 : UInt8) ∉ bytes

/-- The text of `"%s "`. -/
def CStr.spaced (arg : CStr) : List UInt8 := arg.bytes ++ [32]

/-- The arguments, each followed by a space. -/
def cmdLine (argv : List CStr) : List UInt8 := argv.flatMap CStr.spaced

/-- A call of `snprintf`: where it writes, the size it is given, and how many bytes it stores. -/
structure SnprintfCall where
  cur : Nat
  size : UInt32
  stores : Nat
  deriving DecidableEq, Repr

/-- The locals, the memory from `cmd` on, and the calls so far, newest first. -/
structure DiagState where
  cmd : Mem
  cur : Nat
  calls : List SnprintfCall

/-- `end - cur`, cast to `size_t`; `bufferSize` is `sizeof(cmd)`. -/
def diagRoom (bufferSize : UInt32) (cur : Nat) : UInt32 := bufferSize - UInt32.ofNat cur

def diagAppend (bufferSize : UInt32) (s : DiagState) (arg : CStr) : DiagState :=
  let size := diagRoom bufferSize s.cur
  let (len, cmd) := snprintf s.cmd s.cur size.toNat arg.spaced
  { cmd := cmd
    cur := s.cur + len
    calls := ⟨s.cur, size, (stored size.toNat arg.spaced).length⟩ :: s.calls }

/-- `stack` is what the memory holds around the zeroed buffer. -/
def DiagState.init (bufferSize : UInt32) (stack : Mem) : DiagState :=
  { cmd := fun k => if k < bufferSize.toNat then 0 else stack k
    cur := 0
    calls := [] }

/-- `otPlatDiagProcess`, up to its call of `PlatDiagProcess`. -/
def otPlatDiagProcess (bufferSize : UInt32) (stack : Mem) (argv : List CStr) : DiagState :=
  argv.foldl (diagAppend bufferSize) (.init bufferSize stack)

/-- The command that `PlatDiagProcess` reads. -/
def DiagState.command (bufferSize : UInt32) (s : DiagState) : List UInt8 :=
  readStr bufferSize.toNat s.cmd

structure DiagContract (bufferSize : UInt32) (argv : List CStr) (s : DiagState) : Prop where
  sizes : ∀ c ∈ s.calls, c.size.toNat ≤ bufferSize.toNat - c.cur
  indices : ∀ c ∈ s.calls, ∀ k, c.cur ≤ k → k < c.cur + c.stores → k < bufferSize.toNat
  command : s.command bufferSize = (cmdLine argv).take (bufferSize.toNat - 1)

/-- The line up to an argument fits, or runs over by a multiple of the range of `size_t`. -/
def RoomKept (bufferSize : UInt32) (len : Nat) : Prop :=
  len ≤ bufferSize.toNat ∨ 2 ^ 32 ∣ len - bufferSize.toNat

/-! ## A call -/

variable {bufferSize : UInt32} {stack : Mem} {argv : List CStr}

theorem cmdLine_concat (argv : List CStr) (arg : CStr) :
    cmdLine (argv ++ [arg]) = cmdLine argv ++ arg.spaced := by
  simp [cmdLine]

theorem diagRoom_toNat (bufferSize : UInt32) (cur : Nat) :
    (diagRoom bufferSize cur).toNat = (2 ^ 32 - cur % 2 ^ 32 + bufferSize.toNat) % 2 ^ 32 := by
  rw [diagRoom, UInt32.toNat_sub, UInt32.toNat_ofNat']

/-- The size passed is at most the room left exactly when it is the room left, 0 included. -/
theorem diagRoom_le_iff (bufferSize : UInt32) (cur : Nat) :
    (diagRoom bufferSize cur).toNat ≤ bufferSize.toNat - cur ↔ RoomKept bufferSize cur := by
  have hn := bufferSize.toNat_lt
  rw [diagRoom_toNat]
  unfold RoomKept
  omega

theorem diagRoom_of_kept {cur : Nat} (h : RoomKept bufferSize cur) :
    (diagRoom bufferSize cur).toNat = bufferSize.toNat - cur := by
  have hn := bufferSize.toNat_lt
  rw [diagRoom_toNat]
  unfold RoomKept at h
  omega

/-- The call of `snprintf` for the argument that follows `pre`. -/
def diagCall (bufferSize : UInt32) (pre : List CStr) (arg : CStr) : SnprintfCall :=
  { cur := (cmdLine pre).length
    size := diagRoom bufferSize (cmdLine pre).length
    stores := (stored (diagRoom bufferSize (cmdLine pre).length).toNat arg.spaced).length }

/-! ## The loop -/

theorem otPlatDiagProcess_concat (argv : List CStr) (arg : CStr) :
    otPlatDiagProcess bufferSize stack (argv ++ [arg]) =
      diagAppend bufferSize (otPlatDiagProcess bufferSize stack argv) arg := by
  simp only [otPlatDiagProcess, List.foldl_append, List.foldl_cons, List.foldl_nil]

/-- The cursor is advanced by the length of the line, cut off or not. -/
theorem otPlatDiagProcess_cur (argv : List CStr) :
    (otPlatDiagProcess bufferSize stack argv).cur = (cmdLine argv).length := by
  induction argv using List.reverseRecOn with
  | nil => rfl
  | append_singleton argv arg ih =>
    rw [otPlatDiagProcess_concat, cmdLine_concat, List.length_append, ← ih]
    rfl

theorem mem_calls_iff {c : SnprintfCall} :
    c ∈ (otPlatDiagProcess bufferSize stack argv).calls ↔
      ∃ pre arg post, argv = pre ++ arg :: post ∧ c = diagCall bufferSize pre arg := by
  induction argv using List.reverseRecOn with
  | nil => simp [otPlatDiagProcess, DiagState.init]
  | append_singleton argv arg ih =>
    have hcall : (otPlatDiagProcess bufferSize stack (argv ++ [arg])).calls =
        diagCall bufferSize argv arg :: (otPlatDiagProcess bufferSize stack argv).calls := by
      rw [otPlatDiagProcess_concat, diagCall, ← otPlatDiagProcess_cur]
      rfl
    rw [hcall, List.mem_cons, ih]
    constructor
    · rintro (rfl | ⟨pre, a, post, rfl, rfl⟩)
      · exact ⟨argv, arg, [], rfl, rfl⟩
      · exact ⟨pre, a, post ++ [arg], by simp, rfl⟩
    · rintro ⟨pre, a, post, hl, rfl⟩
      rcases List.eq_nil_or_concat post with rfl | ⟨post, b, rfl⟩
      · obtain ⟨rfl, ha⟩ := List.append_inj' hl rfl
        cases ha
        exact .inl rfl
      · have hl : argv ++ [arg] = (pre ++ a :: post) ++ [b] := by simpa using hl
        obtain ⟨rfl, -⟩ := List.append_inj' hl rfl
        exact .inr ⟨pre, a, post, rfl, rfl⟩

/-- As long as each argument finds room as it should, the buffer holds the line so far, cut to one
byte less than the buffer, and zeros. -/
theorem otPlatDiagProcess_filled
    (h : ∀ pre arg post, argv = pre ++ arg :: post → RoomKept bufferSize (cmdLine pre).length) :
    Filled (otPlatDiagProcess bufferSize stack argv).cmd bufferSize.toNat
      ((cmdLine argv).take (bufferSize.toNat - 1)) := by
  induction argv using List.reverseRecOn with
  | nil =>
    intro k hk
    simp [otPlatDiagProcess, DiagState.init, hk, cmdLine]
  | append_singleton argv arg ih =>
    have hpre := ih fun pre a post hs => h pre a (post ++ [arg]) (by rw [hs]; simp)
    have hroom := diagRoom_of_kept (h argv arg [] rfl)
    have hcur : (otPlatDiagProcess bufferSize stack argv).cur = (cmdLine argv).length :=
      otPlatDiagProcess_cur argv
    rw [otPlatDiagProcess_concat, cmdLine_concat]
    simp only [diagAppend, hcur]
    exact filled_snprintf hpre hroom

theorem zero_notMem_cmdLine (argv : List CStr) : (0 : UInt8) ∉ cmdLine argv := by
  intro h
  obtain ⟨arg, -, ha⟩ := List.mem_flatMap.mp h
  rcases List.mem_append.mp ha with ha | ha
  · exact arg.no_nul ha
  · simp at ha

/-- For every buffer size from 1 and all arguments: the sizes and the bytes stored stay within the
buffer and the command is the line cut to it, if and only if each argument finds that the line
before it fits (or runs over by a multiple of the range of `size_t`). -/
theorem diag_contract_iff (bufferSize : UInt32) (hpos : 0 < bufferSize) (stack : Mem)
    (argv : List CStr) :
    DiagContract bufferSize argv (otPlatDiagProcess bufferSize stack argv) ↔
      ∀ pre arg post, argv = pre ++ arg :: post →
        RoomKept bufferSize (cmdLine pre).length := by
  constructor
  · intro h pre arg post hs
    rw [← diagRoom_le_iff]
    exact h.sizes _ (mem_calls_iff.mpr ⟨pre, arg, post, hs, rfl⟩)
  · intro h
    have hsize : ∀ c ∈ (otPlatDiagProcess bufferSize stack argv).calls,
        c.size.toNat ≤ bufferSize.toNat - c.cur := by
      intro c hc
      obtain ⟨pre, arg, post, hs, rfl⟩ := mem_calls_iff.mp hc
      exact (diagRoom_le_iff bufferSize _).mpr (h pre arg post hs)
    refine ⟨hsize, ?_, ?_⟩
    · intro c hc k hk hlt
      have hle := hsize c hc
      obtain ⟨pre, arg, post, hs, rfl⟩ := mem_calls_iff.mp hc
      have hst := stored_length_le (diagRoom bufferSize (cmdLine pre).length).toNat arg.spaced
      simp only [diagCall] at hk hlt hle
      omega
    · have hp := UInt32.lt_iff_toNat_lt.mp hpos
      apply readStr_filled (otPlatDiagProcess_filled h)
      · rw [List.length_take]
        have : (0 : UInt32).toNat = 0 := rfl
        omega
      · intro h0
        exact zero_notMem_cmdLine argv (List.mem_of_mem_take h0)

/-- `rssi` and `on`, for a buffer of 8 bytes. -/
def shortArgs : List CStr := [⟨[114, 115, 115, 105], by decide⟩, ⟨[111, 110], by decide⟩]

theorem diag_contract_iff_short :
    (0 : UInt32) < 8 ∧
      (DiagContract 8 shortArgs (otPlatDiagProcess 8 (fun _ => 0) shortArgs) ↔
        ∀ pre arg post, shortArgs = pre ++ arg :: post → RoomKept 8 (cmdLine pre).length) :=
  ⟨by decide, diag_contract_iff 8 (by decide) (fun _ => 0) shortArgs⟩

/-- This argument with its space outgrows a buffer of 8 bytes. -/
def longArg : CStr := ⟨List.replicate 8 97, by decide⟩

/-- For a second argument after it `snprintf` is told of nearly 4 GiB. -/
theorem diag_contract_fails :
    ¬ ∀ (bufferSize : UInt32) (stack : Mem) (argv : List CStr), 0 < bufferSize →
      DiagContract bufferSize argv (otPlatDiagProcess bufferSize stack argv) := by
  intro h
  have hc := (h 8 (fun _ => 0) [longArg, longArg] (by decide)).sizes (diagCall 8 [longArg] longArg)
    (mem_calls_iff.mpr ⟨[longArg], longArg, [], rfl, rfl⟩)
  exact absurd hc (by decide)

end OtEsp32
