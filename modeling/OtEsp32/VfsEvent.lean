import OtEsp32.Platform

/-!
# VfsEvent

`vfs_event.c`: the event device, one descriptor whose counter wakes a `select`. The functions here
run to completion; `EventSelect` takes them apart where other tasks can come between.

`EventDev.triggered` records the arguments of `esp_vfs_select_triggered`, newest first.
-/

namespace OtEsp32

def otReservedFdMin : Int := 8

def otEventVfsPrefix : String := "/dev/event"

def otEventVfsShortPath : String := "/ot"

/-- `esp_vfs_select_sem_t`; the handle `none` is `NULL`. -/
structure SelectSem where
  isSemLocal : Bool
  sem : Option Nat
  deriving DecidableEq, Repr

/-- All bytes 0, as `memset` leaves it. -/
def SelectSem.null : SelectSem := ⟨false, none⟩

structure Event where
  mFd : Int
  mIsOpen : Bool
  mCounter : UInt8
  deriving DecidableEq, Repr

/-- The statics of `vfs_event.c`. -/
structure EventDev where
  sEvent : Event
  sSignalSemaphore : SelectSem
  triggered : List SelectSem
  deriving DecidableEq, Repr

def EventDev.init : EventDev := ⟨⟨-1, false, 0⟩, .null, []⟩

def espVfsSelectTriggered (sem : SelectSem) (d : EventDev) : EventDev :=
  { d with triggered := sem :: d.triggered }

def eventStartSelect (nfds : Int) (readfds : List Int) (signalSem : SelectSem) (d : EventDev) :
    EventDev :=
  if d.sEvent.mIsOpen && decide (nfds > 0) && readfds.contains d.sEvent.mFd then
    let d := { d with sSignalSemaphore := signalSem }
    if d.sEvent.mCounter > 0 then espVfsSelectTriggered d.sSignalSemaphore d else d
  else d

def eventEndSelect (d : EventDev) : EventDev := { d with sSignalSemaphore := .null }

def eventOpen (path : String) (d : EventDev) : Int × EventDev :=
  if path = otEventVfsShortPath then
    if !d.sEvent.mIsOpen then
      (otReservedFdMin, { d with sEvent := { d.sEvent with mFd := otReservedFdMin, mIsOpen := true } })
    else (-1, d)
  else (-1, d)

/-- The locked part of `event_write`, after the check of the descriptor. -/
def EventDev.increment (d : EventDev) : EventDev :=
  { d with sEvent := { d.sEvent with mCounter := d.sEvent.mCounter + 1 } }

/-- `size_t` as a `ssize_t`, both of 32 bits. -/
def ssizeOf (size : UInt32) : Int := size.toInt32.toInt

def eventWrite (fd : Int) (size : UInt32) (d : EventDev) : Int × EventDev :=
  if fd = d.sEvent.mFd ∧ d.sEvent.mIsOpen then
    let d := d.increment
    if d.sSignalSemaphore.sem.isSome then
      (ssizeOf size, espVfsSelectTriggered d.sSignalSemaphore d)
    else (ssizeOf size, d)
  else (-1, d)

def eventRead (fd : Int) (d : EventDev) : Int × EventDev :=
  if fd = d.sEvent.mFd ∧ d.sEvent.mIsOpen then
    (d.sEvent.mCounter.toNat, { d with sEvent := { d.sEvent with mCounter := 0 } })
  else (-1, d)

def eventClose (fd : Int) (d : EventDev) : Int × EventDev :=
  if fd = d.sEvent.mFd ∧ d.sEvent.mIsOpen then
    (0, { d with sEvent := { d.sEvent with mIsOpen := false, mCounter := 0 } })
  else (-1, d)

/-- `sEventFd` is the descriptor that `open` returned. -/
def platformVfsEventUpdate (sEventFd : Int) (aMainloop : MainloopContext) : MainloopContext :=
  aMainloop.addRead sEventFd

section Fields

variable (d : EventDev) (sem : SelectSem)

@[simp] theorem triggered_sEvent : (espVfsSelectTriggered sem d).sEvent = d.sEvent := rfl

@[simp] theorem triggered_sSignalSemaphore :
    (espVfsSelectTriggered sem d).sSignalSemaphore = d.sSignalSemaphore := rfl

@[simp] theorem triggered_triggered :
    (espVfsSelectTriggered sem d).triggered = sem :: d.triggered := rfl

@[simp] theorem endSelect_sEvent : (eventEndSelect d).sEvent = d.sEvent := rfl

@[simp] theorem endSelect_sSignalSemaphore : (eventEndSelect d).sSignalSemaphore = .null := rfl

@[simp] theorem endSelect_triggered : (eventEndSelect d).triggered = d.triggered := rfl

@[simp] theorem increment_sSignalSemaphore :
    d.increment.sSignalSemaphore = d.sSignalSemaphore := rfl

@[simp] theorem increment_triggered : d.increment.triggered = d.triggered := rfl

end Fields

end OtEsp32
