/-!
# Platform

What the sources share: the constants of `platform-esp32.h`, the ways in which a call ends the
program, and the main loop context of `openthread-esp32.h`.

Machine integers keep their width (`UInt8`, `UInt16`, `UInt32`, `UInt64`). Descriptors and the two
fields of `struct timeval` are unbounded; `time_t` is taken to hold the seconds that are computed.
-/

namespace OtEsp32

def settingsConfigPageNum : UInt32 := 2

def settingsConfigPageSize : UInt32 := 4096

def otMsPerS : UInt64 := 1000

def otUsPerMs : UInt64 := 1000

def otUsPerS : UInt64 := otMsPerS * otUsPerMs

def int32Max : Nat := 2147483647

/-- A call that does not return: `VerifyOrDie`, `assert`, `abort` (also by `ESP_ERROR_CHECK`). -/
inductive Halt where
  | exitFailure
  | assertFailed
  | abort
  deriving DecidableEq, Repr

/-- The errors that the modelled functions return. -/
inductive OtError where
  | none
  | failed
  | noBufs
  | responseTimeout
  deriving DecidableEq, Repr

/-- The values of `errno` that the sources tell apart. -/
inductive Errno where
  | eagain
  | eintr
  | other (n : Nat)
  deriving DecidableEq, Repr

def Errno.ewouldblock : Errno := .eagain

/-- What `select` on one descriptor comes back with: more than 0 and the sets it leaves, 0 when the
timeout has passed, or -1. -/
inductive SelectAnswer where
  | ready (fdSet errorSet : Bool)
  | timeout
  | failed (errno : Errno)
  deriving DecidableEq, Repr

/-- What `write` on a UART does with its buffer: takes the first `k` bytes of it, at most all, or
takes none and returns -1. -/
inductive WriteAnswer where
  | accept (k : Nat)
  | refuse (errno : Errno)
  deriving DecidableEq, Repr

def WriteAnswer.rval (buf : List UInt8) : WriteAnswer → Int
  | .accept k => (buf.take k).length
  | .refuse _ => -1

def WriteAnswer.taken (buf : List UInt8) : WriteAnswer → List UInt8
  | .accept k => buf.take k
  | .refuse _ => []

structure Timeval where
  tvSec : Nat
  tvUsec : Nat
  deriving DecidableEq, Repr

def Timeval.zero : Timeval := ⟨0, 0⟩

/-- In microseconds. -/
def Timeval.us (t : Timeval) : Nat := t.tvSec * 1000000 + t.tvUsec

/-- Split into the two fields. -/
def Timeval.ofUs (us : UInt64) : Timeval := ⟨(us / otUsPerS).toNat, (us % otUsPerS).toNat⟩

theorem Timeval.eq_zero_iff {t : Timeval} : t = .zero ↔ t.us = 0 := by
  obtain ⟨sec, usec⟩ := t
  simp only [Timeval.zero, Timeval.us, Timeval.mk.injEq]
  omega

theorem Timeval.ofUs_usec_lt (us : UInt64) : (Timeval.ofUs us).tvUsec < 1000000 := by
  have hs : otUsPerS.toNat = 1000000 := rfl
  simp only [Timeval.ofUs, UInt64.toNat_mod, hs]
  exact Nat.mod_lt _ (by decide)

@[simp] theorem Timeval.us_ofUs (us : UInt64) : (Timeval.ofUs us).us = us.toNat := by
  have hs : otUsPerS.toNat = 1000000 := rfl
  have hd := Nat.div_add_mod us.toNat 1000000
  simp only [Timeval.us, Timeval.ofUs, UInt64.toNat_div, UInt64.toNat_mod, hs]
  omega

/-- `otSysMainloopContext` -/
structure MainloopContext where
  mReadFdSet : List Int
  mWriteFdSet : List Int
  mErrorFdSet : List Int
  mMaxFd : Int
  mTimeout : Timeval
  deriving DecidableEq, Repr

/-- `FD_SET(fd, &mReadFdSet)` with the update of `mMaxFd` that follows it in each driver. -/
def MainloopContext.addRead (aMainloop : MainloopContext) (fd : Int) : MainloopContext :=
  { aMainloop with
    mReadFdSet := fd :: aMainloop.mReadFdSet
    mMaxFd := if fd > aMainloop.mMaxFd then fd else aMainloop.mMaxFd }

@[simp] theorem MainloopContext.addRead_mTimeout (aMainloop : MainloopContext) (fd : Int) :
    (aMainloop.addRead fd).mTimeout = aMainloop.mTimeout := rfl

end OtEsp32
