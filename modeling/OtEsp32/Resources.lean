import OtEsp32.VfsEvent

/-!
# Resources

`otSysInit` and `otSysDeinit` with the resources they take and give back: entries of the VFS table,
open descriptors, installed UART drivers, mutexes and heap blocks. ESP-IDF and FreeRTOS are here as
far as these resources go: the calls that only configure a UART take none and succeed.
`RadioSpinel::Init` takes none of them, and `RadioSpinel::Deinit` calls `HdlcInterface::Deinit`.
-/

namespace OtEsp32

def otCliUartNum : Nat := 0

def otRadioUartNum : Nat := 1

/-- The prefix under which ESP-IDF registers its UART driver at startup. -/
def uartVfsPrefix : String := "/dev/uart"

/-- Sizes of the VFS table and of the descriptor table, and how many mutexes and receive buffers
fit into the heap. -/
structure Limits where
  vfsMaxCount : Nat
  maxFds : Nat
  heapBlocks : Nat
  deriving DecidableEq, Repr

inductive FdOwner where
  | event
  | uart (num : Nat)
  | other
  deriving DecidableEq, Repr

/-- The lists hold the newest first. `mutexes` and `buffers` are the live ones; `sApiMutex` and
`mUartRxBuffer` are the pointers to them, with `none` for `NULL`. -/
structure Res where
  vfs : List String
  openFds : List (Int × FdOwner)
  uartDrivers : List Nat
  mutexes : List Nat
  buffers : List Nat
  dev : EventDev
  sEventFd : Int
  sCliUartFd : Int
  mUartFd : Int
  sApiMutex : Option Nat
  mUartRxBuffer : Option Nat
  gPlatformPseudoResetWasRequested : Bool
  deriving DecidableEq, Repr

/-- A handle that is not in use. -/
def freshHandle (used : List Nat) : Nat := used.foldr (fun a b => max (a + 1) b) 0

/-! ## VFS -/

def espVfsRegister (L : Limits) (basePath : String) (p : Res) : Except Halt Res :=
  if p.vfs.length < L.vfsMaxCount then .ok { p with vfs := basePath :: p.vfs } else .error .abort

/-- The lowest free descriptor. -/
def fdAlloc (L : Limits) (openFds : List (Int × FdOwner)) : Option Int :=
  ((List.range L.maxFds).map Int.ofNat).find? fun fd => !(openFds.map Prod.fst).contains fd

def driverOpen : FdOwner → EventDev → Int × EventDev
  | .event, dev => eventOpen otEventVfsShortPath dev
  | .uart num, dev => (num, dev)
  | .other, dev => (-1, dev)

def driverClose : FdOwner → EventDev → EventDev
  | .event, dev => (eventClose otReservedFdMin dev).2
  | .uart _, dev => dev
  | .other, dev => dev

def espOpen (L : Limits) (basePath : String) (owner : FdOwner) (p : Res) : Int × Res :=
  if p.vfs.contains basePath then
    if (driverOpen owner p.dev).1 = -1 then (-1, { p with dev := (driverOpen owner p.dev).2 })
    else
      match fdAlloc L p.openFds with
      | some fd =>
        (fd, { p with
          openFds := (fd, owner) :: p.openFds
          dev := (driverOpen owner p.dev).2 })
      | none => (-1, { p with dev := driverClose owner (driverOpen owner p.dev).2 })
  else (-1, p)

/-- `open` followed by the check that it did not return -1. -/
def openOrDie (L : Limits) (h : Halt) (basePath : String) (owner : FdOwner) (p : Res) :
    Except Halt (Int × Res) :=
  if (espOpen L basePath owner p).1 ≠ -1 then .ok (espOpen L basePath owner p) else .error h

def espClose (fd : Int) (p : Res) : Res :=
  match p.openFds.find? fun e => e.1 == fd with
  | some e =>
    { p with
      openFds := p.openFds.eraseP fun e => e.1 == fd
      dev := driverClose e.2 p.dev }
  | none => p

/-! ## The subsystems -/

def platformVfsEventInit (L : Limits) (p : Res) : Except Halt Res := do
  let p ← espVfsRegister L otEventVfsPrefix p
  let (sEventFd, p) ← openOrDie L .assertFailed otEventVfsPrefix .event p
  pure { p with sEventFd := sEventFd }

def platformVfsEventDeinit (p : Res) : Res :=
  if p.sEventFd ≠ -1 then { espClose p.sEventFd p with sEventFd := -1 } else p

def platformApiLockInit (L : Limits) (p : Res) : Except Halt Res :=
  if p.mutexes.length + p.buffers.length < L.heapBlocks then
    .ok { p with
      mutexes := freshHandle p.mutexes :: p.mutexes
      sApiMutex := some (freshHandle p.mutexes) }
  else .error .exitFailure

def platformApiLockDeinit (p : Res) : Except Halt Res :=
  match p.sApiMutex with
  | some m => .ok { p with mutexes := p.mutexes.erase m, sApiMutex := none }
  | none => .error .assertFailed

def uartDriverInstall (num : Nat) (p : Res) : Except Halt Res :=
  if p.uartDrivers.contains num then .error .abort
  else .ok { p with uartDrivers := num :: p.uartDrivers }

/-- Deleting a driver that is not installed is no error. -/
def uartDriverDelete (num : Nat) (p : Res) : Res :=
  { p with uartDrivers := p.uartDrivers.erase num }

/-- What the two UARTs share: install the driver, open the device, and keep the descriptor. -/
def uartInit (L : Limits) (num : Nat) (store : Int → Res → Res) (p : Res) : Except Halt Res := do
  let p ← uartDriverInstall num p
  let (fd, p) ← openOrDie L .exitFailure uartVfsPrefix (.uart num) p
  pure (store fd p)

def uartDeinit (num : Nat) (fd : Int) (store : Int → Res → Res) (p : Res) : Res :=
  let p := if fd ≠ -1 then store (-1) (espClose fd p) else p
  uartDriverDelete num p

def platformCliUartInit (L : Limits) : Res → Except Halt Res :=
  uartInit L otCliUartNum fun fd p => { p with sCliUartFd := fd }

def platformCliUartDeinit (p : Res) : Res :=
  uartDeinit otCliUartNum p.sCliUartFd (fun fd p => { p with sCliUartFd := fd }) p

/-- `HdlcInterface::InitUart` -/
def hdlcInitUart (L : Limits) : Res → Except Halt Res :=
  uartInit L otRadioUartNum fun fd p => { p with mUartFd := fd }

/-- `HdlcInterface::DeinitUart` -/
def hdlcDeinitUart (p : Res) : Res :=
  uartDeinit otRadioUartNum p.mUartFd (fun fd p => { p with mUartFd := fd }) p

/-- `HdlcInterface::Init` -/
def platformRadioInit (L : Limits) (p : Res) : Except Halt Res :=
  if p.mutexes.length + p.buffers.length < L.heapBlocks then
    hdlcInitUart L { p with
      buffers := freshHandle p.buffers :: p.buffers
      mUartRxBuffer := some (freshHandle p.buffers) }
  else .error .exitFailure

/-- `HdlcInterface::Deinit`; freeing `NULL` does nothing. -/
def platformRadioDeinit (p : Res) : Res :=
  let p := hdlcDeinitUart p
  match p.mUartRxBuffer with
  | some b => { p with buffers := p.buffers.erase b, mUartRxBuffer := none }
  | none => p

def otSysInit (L : Limits) (p : Res) : Except Halt Res := do
  let p := if p.gPlatformPseudoResetWasRequested then
    { p with gPlatformPseudoResetWasRequested := false } else p
  let p ← platformVfsEventInit L p
  let p ← platformApiLockInit L p
  let p ← platformCliUartInit L p
  platformRadioInit L p

def otSysDeinit (p : Res) : Except Halt Res := do
  let p := platformRadioDeinit p
  let p := platformCliUartDeinit p
  let p ← platformApiLockDeinit p
  pure (platformVfsEventDeinit p)

/-- `n` rounds of `otSysInit` and `otSysDeinit`. -/
def rounds (L : Limits) : Nat → Res → Except Halt Res
  | 0, p => .ok p
  | n + 1, p => do
    let q ← rounds L n p
    let q ← otSysInit L q
    otSysDeinit q

/-! ## What is held -/

structure Held where
  vfs : List String
  openFds : List (Int × FdOwner)
  uartDrivers : List Nat
  mutexes : List Nat
  buffers : List Nat
  eventOpen : Bool
  deriving DecidableEq, Repr

def Res.held (p : Res) : Held :=
  { vfs := p.vfs
    openFds := p.openFds
    uartDrivers := p.uartDrivers
    mutexes := p.mutexes
    buffers := p.buffers
    eventOpen := p.dev.sEvent.mIsOpen }

end OtEsp32
