import OtEsp32.Resources

/-!
# PseudoReset

What repeated rounds of `otSysInit` and `otSysDeinit` leave behind. `platformVfsEventInit`
registers a VFS driver that `platformVfsEventDeinit` does not unregister; everything else is given
back. So `n` rounds from a state whose first `otSysInit` succeeds hold exactly `n` entries of the
VFS table more than before, and the next `otSysInit` aborts once the table is full.
-/

namespace OtEsp32

variable {L : Limits} {p q : Res}

theorem bind_ok {α β : Type} {x : Except Halt α} {f : α → Except Halt β} {b : β} :
    (x >>= f) = .ok b ↔ ∃ a, x = .ok a ∧ f a = .ok b := by
  cases x with
  | error h => simp [bind, Except.bind]
  | ok a => simp [bind, Except.bind]

theorem pure_ok {α : Type} {a b : α} : (pure a : Except Halt α) = .ok b ↔ a = b := by
  simp [pure, Except.pure]

/-! ## Descriptors -/

theorem fdAlloc_nonneg {fds : List (Int × FdOwner)} {fd : Int} (h : fdAlloc L fds = some fd) :
    fd ≠ -1 := by
  unfold fdAlloc at h
  have hmem := List.mem_of_find?_eq_some h
  obtain ⟨k, -, rfl⟩ := List.mem_map.mp hmem
  intro hk
  cases hk

theorem failed_ne {q' : Res} {fd : Int} : ¬ ((-1, q) = (fd, q') ∧ fd ≠ -1) := by
  rintro ⟨h, hfd⟩
  cases h
  exact hfd rfl

/-- `open` succeeds when a driver is registered for the path, the driver accepts, and a descriptor
is free. -/
theorem espOpen_ok {basePath : String} {owner : FdOwner} {fd : Int} {p' : Res} :
    espOpen L basePath owner p = (fd, p') ∧ fd ≠ -1 ↔
      basePath ∈ p.vfs ∧ (driverOpen owner p.dev).1 ≠ -1 ∧ fdAlloc L p.openFds = some fd ∧
        p' = { p with openFds := (fd, owner) :: p.openFds, dev := (driverOpen owner p.dev).2 } := by
  unfold espOpen
  by_cases hv : basePath ∈ p.vfs
  · rw [if_pos (List.contains_iff_mem.mpr hv)]
    by_cases hd : (driverOpen owner p.dev).1 = -1
    · rw [if_pos hd]
      exact iff_of_false failed_ne fun h => h.2.1 hd
    · rw [if_neg hd]
      cases ha : fdAlloc L p.openFds with
      | none => exact iff_of_false failed_ne fun h => nomatch h.2.2.1
      | some k =>
        constructor
        · rintro ⟨h, -⟩
          cases h
          exact ⟨hv, hd, rfl, rfl⟩
        · rintro ⟨-, -, h, rfl⟩
          cases h
          exact ⟨rfl, fdAlloc_nonneg ha⟩
  · rw [if_neg (fun h => hv (List.contains_iff_mem.mp h))]
    exact iff_of_false failed_ne fun h => hv h.1

/-- Closing the newest descriptor. -/
theorem espClose_head {fd : Int} {owner : FdOwner} {fds : List (Int × FdOwner)}
    (h : p.openFds = (fd, owner) :: fds) :
    espClose fd p = { p with openFds := fds, dev := driverClose owner p.dev } := by
  simp [espClose, h]

theorem driverOpen_event : (driverOpen .event p.dev).1 ≠ -1 ↔ p.dev.sEvent.mIsOpen = false := by
  unfold driverOpen eventOpen
  cases h : p.dev.sEvent.mIsOpen with
  | false => simp [h, otReservedFdMin]
  | true => simp [h]

theorem driverOpen_uart (num : Nat) : (driverOpen (.uart num) p.dev).1 ≠ -1 := by
  intro h
  simp only [driverOpen] at h
  omega

theorem openOrDie_ok {h : Halt} {basePath : String} {owner : FdOwner} {fd : Int} {p' : Res} :
    openOrDie L h basePath owner p = .ok (fd, p') ↔
      basePath ∈ p.vfs ∧ (driverOpen owner p.dev).1 ≠ -1 ∧ fdAlloc L p.openFds = some fd ∧
        p' = { p with openFds := (fd, owner) :: p.openFds, dev := (driverOpen owner p.dev).2 } := by
  rw [← espOpen_ok]
  unfold openOrDie
  split
  · rename_i hfd
    constructor
    · intro hr
      have hr := Except.ok.inj hr
      exact ⟨hr, by rwa [hr] at hfd⟩
    · rintro ⟨hr, -⟩
      rw [hr]
  · rename_i hfd
    constructor
    · intro hr
      cases hr
    · rintro ⟨hr, hne⟩
      rw [hr] at hfd
      exact absurd hne hfd

/-! ## Each subsystem -/

theorem espVfsRegister_ok {basePath : String} :
    espVfsRegister L basePath p = .ok q ↔
      p.vfs.length < L.vfsMaxCount ∧ q = { p with vfs := basePath :: p.vfs } := by
  unfold espVfsRegister
  split
  · rename_i h
    simp [h, eq_comm]
  · rename_i h
    simp [h]

theorem uartDriverInstall_ok {num : Nat} :
    uartDriverInstall num p = .ok q ↔
      num ∉ p.uartDrivers ∧ q = { p with uartDrivers := num :: p.uartDrivers } := by
  unfold uartDriverInstall
  split
  · rename_i h
    simp [List.contains_iff_mem.mp h]
  · rename_i h
    simp [mt List.contains_iff_mem.mpr h, eq_comm]

theorem platformVfsEventInit_ok :
    platformVfsEventInit L p = .ok q ↔
      p.vfs.length < L.vfsMaxCount ∧ p.dev.sEvent.mIsOpen = false ∧
        ∃ fd, fdAlloc L p.openFds = some fd ∧
          q = { p with
            vfs := otEventVfsPrefix :: p.vfs
            openFds := (fd, .event) :: p.openFds
            dev := (driverOpen .event p.dev).2
            sEventFd := fd } := by
  simp only [platformVfsEventInit, bind_ok, Prod.exists, espVfsRegister_ok, openOrDie_ok, pure_ok]
  constructor
  · rintro ⟨_, ⟨hv, rfl⟩, fd, _, ⟨-, hd, ha, rfl⟩, rfl⟩
    exact ⟨hv, driverOpen_event.mp hd, fd, ha, rfl⟩
  · rintro ⟨hv, hd, fd, ha, rfl⟩
    exact ⟨_, ⟨hv, rfl⟩, fd, _, ⟨List.mem_cons_self, driverOpen_event.mpr hd, ha, rfl⟩, rfl⟩

theorem platformApiLockInit_ok :
    platformApiLockInit L p = .ok q ↔
      p.mutexes.length + p.buffers.length < L.heapBlocks ∧
        q = { p with
          mutexes := freshHandle p.mutexes :: p.mutexes
          sApiMutex := some (freshHandle p.mutexes) } := by
  unfold platformApiLockInit
  split
  · rename_i h
    simp [h, eq_comm]
  · rename_i h
    simp [h]

theorem uartInit_ok {num : Nat} {store : Int → Res → Res} :
    uartInit L num store p = .ok q ↔
      num ∉ p.uartDrivers ∧ uartVfsPrefix ∈ p.vfs ∧
        ∃ fd, fdAlloc L p.openFds = some fd ∧
          q = store fd { p with
            openFds := (fd, .uart num) :: p.openFds
            uartDrivers := num :: p.uartDrivers } := by
  simp only [uartInit, bind_ok, Prod.exists, uartDriverInstall_ok, openOrDie_ok, pure_ok]
  constructor
  · rintro ⟨_, ⟨hn, rfl⟩, fd, _, ⟨hv, -, ha, rfl⟩, rfl⟩
    exact ⟨hn, hv, fd, ha, rfl⟩
  · rintro ⟨hn, hv, fd, ha, rfl⟩
    exact ⟨_, ⟨hn, rfl⟩, fd, _, ⟨hv, driverOpen_uart _, ha, rfl⟩, rfl⟩

theorem platformRadioInit_ok :
    platformRadioInit L p = .ok q ↔
      p.mutexes.length + p.buffers.length < L.heapBlocks ∧ otRadioUartNum ∉ p.uartDrivers ∧
        uartVfsPrefix ∈ p.vfs ∧
        ∃ fd, fdAlloc L p.openFds = some fd ∧
          q = { p with
            openFds := (fd, .uart otRadioUartNum) :: p.openFds
            uartDrivers := otRadioUartNum :: p.uartDrivers
            buffers := freshHandle p.buffers :: p.buffers
            mUartFd := fd
            mUartRxBuffer := some (freshHandle p.buffers) } := by
  unfold platformRadioInit
  split
  · rename_i h
    rw [hdlcInitUart, uartInit_ok]
    simp [h]
  · rename_i h
    simp [h]

/-! ## One round -/

/-- What `otSysInit` needs, with the three descriptors it will get. -/
structure Ready (L : Limits) (h : Held) (e c r : Int) : Prop where
  vfsRoom : h.vfs.length < L.vfsMaxCount
  uartVfs : uartVfsPrefix ∈ h.vfs
  heapRoom : h.mutexes.length + h.buffers.length + 1 < L.heapBlocks
  cliUart : otCliUartNum ∉ h.uartDrivers
  radioUart : otRadioUartNum ∉ h.uartDrivers
  eventShut : h.eventOpen = false
  eventFd : fdAlloc L h.openFds = some e
  cliFd : fdAlloc L ((e, .event) :: h.openFds) = some c
  radioFd : fdAlloc L ((c, .uart otCliUartNum) :: (e, .event) :: h.openFds) = some r

/-- The state after `otSysInit`. -/
def Res.initialised (p : Res) (e c r : Int) : Res :=
  { vfs := otEventVfsPrefix :: p.vfs
    openFds := (r, .uart otRadioUartNum) :: (c, .uart otCliUartNum) :: (e, .event) :: p.openFds
    uartDrivers := otRadioUartNum :: otCliUartNum :: p.uartDrivers
    mutexes := freshHandle p.mutexes :: p.mutexes
    buffers := freshHandle p.buffers :: p.buffers
    dev := (driverOpen .event p.dev).2
    sEventFd := e
    sCliUartFd := c
    mUartFd := r
    sApiMutex := some (freshHandle p.mutexes)
    mUartRxBuffer := some (freshHandle p.buffers)
    gPlatformPseudoResetWasRequested := false }

theorem otSysInit_ok :
    otSysInit L p = .ok q ↔ ∃ e c r, Ready L p.held e c r ∧ q = p.initialised e c r := by
  have hflag : (if p.gPlatformPseudoResetWasRequested then
      { p with gPlatformPseudoResetWasRequested := false } else p) =
      { p with gPlatformPseudoResetWasRequested := false } := by
    obtain ⟨⟩ := p
    split <;> simp_all
  simp only [otSysInit, hflag, bind_ok, platformVfsEventInit_ok, platformApiLockInit_ok,
    platformCliUartInit, uartInit_ok, platformRadioInit_ok]
  constructor
  · rintro ⟨_, ⟨hv, hd, e, he, rfl⟩, _, ⟨hm, rfl⟩, _, ⟨hc, hu, c, hcf, rfl⟩, hb, hr, -, r, hrf, rfl⟩
    refine ⟨e, c, r, ⟨hv, ?_, ?_, hc, ?_, hd, he, hcf, hrf⟩, rfl⟩
    · simpa [uartVfsPrefix, otEventVfsPrefix, Res.held] using hu
    · simp only [List.length_cons, Res.held] at hb ⊢
      omega
    · exact fun h => hr (List.mem_cons_of_mem _ h)
  · rintro ⟨e, c, r, h, rfl⟩
    have hb := h.heapRoom
    simp only [Res.held] at hb
    refine ⟨_, ⟨h.vfsRoom, h.eventShut, e, h.eventFd, rfl⟩, _, ⟨by dsimp only; omega, rfl⟩, _,
      ⟨h.cliUart, List.mem_cons_of_mem _ h.uartVfs, c, h.cliFd, rfl⟩, ?_, ?_,
      List.mem_cons_of_mem _ h.uartVfs, r, h.radioFd, rfl⟩
    · simp only [List.length_cons]
      omega
    · have hr := h.radioUart
      simpa [otRadioUartNum, otCliUartNum, Res.held] using hr

section Deinit

variable {fds : List (Int × FdOwner)}

theorem uartDeinit_head {num : Nat} {fd : Int} (store : Int → Res → Res)
    (ho : p.openFds = (fd, .uart num) :: fds) (hfd : fd ≠ -1) :
    uartDeinit num fd store p = uartDriverDelete num (store (-1) { p with openFds := fds }) := by
  unfold uartDeinit
  rw [if_pos hfd, espClose_head ho]
  rfl

theorem platformRadioDeinit_head {b : Nat}
    (ho : p.openFds = (p.mUartFd, .uart otRadioUartNum) :: fds) (hfd : p.mUartFd ≠ -1)
    (hb : p.mUartRxBuffer = some b) :
    platformRadioDeinit p =
      { p with
        openFds := fds
        mUartFd := -1
        uartDrivers := p.uartDrivers.erase otRadioUartNum
        buffers := p.buffers.erase b
        mUartRxBuffer := none } := by
  unfold platformRadioDeinit hdlcDeinitUart
  rw [uartDeinit_head _ ho hfd]
  simp only [uartDriverDelete, hb]

theorem platformCliUartDeinit_head (ho : p.openFds = (p.sCliUartFd, .uart otCliUartNum) :: fds)
    (hfd : p.sCliUartFd ≠ -1) :
    platformCliUartDeinit p =
      { p with
        openFds := fds
        sCliUartFd := -1
        uartDrivers := p.uartDrivers.erase otCliUartNum } := by
  unfold platformCliUartDeinit
  rw [uartDeinit_head _ ho hfd]
  rfl

theorem platformApiLockDeinit_some {m : Nat} (hm : p.sApiMutex = some m) :
    platformApiLockDeinit p = .ok { p with mutexes := p.mutexes.erase m, sApiMutex := none } := by
  unfold platformApiLockDeinit
  simp only [hm]

theorem platformVfsEventDeinit_head (ho : p.openFds = (p.sEventFd, .event) :: fds)
    (hfd : p.sEventFd ≠ -1) :
    platformVfsEventDeinit p =
      { p with openFds := fds, sEventFd := -1, dev := driverClose .event p.dev } := by
  unfold platformVfsEventDeinit
  rw [if_pos hfd, espClose_head ho]

end Deinit

theorem driverClose_open {dev : EventDev} (h : dev.sEvent.mIsOpen = false) :
    (driverClose .event (driverOpen .event dev).2).sEvent.mIsOpen = false := by
  simp [driverOpen, driverClose, eventOpen, eventClose, h]

/-- A round gives back everything but one entry of the VFS table. -/
theorem otSysDeinit_initialised {e c r : Int} (h : Ready L p.held e c r) :
    ∃ q, otSysDeinit (p.initialised e c r) = .ok q ∧
      q.held = { p.held with vfs := otEventVfsPrefix :: p.held.vfs } := by
  have hr : platformRadioDeinit (p.initialised e c r) = _ :=
    platformRadioDeinit_head rfl (fdAlloc_nonneg h.radioFd) rfl
  unfold otSysDeinit
  rw [hr]
  dsimp only
  rw [platformCliUartDeinit_head rfl (fdAlloc_nonneg h.cliFd), platformApiLockDeinit_some rfl]
  refine ⟨_, rfl, ?_⟩
  rw [platformVfsEventDeinit_head rfl (fdAlloc_nonneg h.eventFd)]
  simp only [Res.held, Res.initialised, List.erase_cons_head]
  rw [driverClose_open h.eventShut, show p.dev.sEvent.mIsOpen = false from h.eventShut]

/-! ## Many rounds -/

/-- The resources of `h` and `n` registrations of the event driver. -/
def Held.leak (h : Held) (n : Nat) : Held :=
  { h with vfs := List.replicate n otEventVfsPrefix ++ h.vfs }

theorem Held.leak_eq_iff {h : Held} {n : Nat} : h.leak n = h ↔ n = 0 := by
  constructor
  · intro hl
    have hv := congrArg (List.length ∘ Held.vfs) hl
    simp only [Held.leak, Function.comp, List.length_append, List.length_replicate] at hv
    omega
  · rintro rfl
    rfl

theorem ready_leak_iff {h : Held} {n : Nat} {e c r : Int} (hr : Ready L h e c r) :
    Ready L (h.leak n) e c r ↔ n + h.vfs.length < L.vfsMaxCount := by
  constructor
  · intro hl
    simpa [Held.leak] using hl.vfsRoom
  · intro hn
    obtain ⟨-, hu, hh, hc, hr, hs, he, hcf, hrf⟩ := hr
    exact ⟨by simpa [Held.leak] using hn, List.mem_append_right _ hu, hh, hc, hr, hs, he, hcf, hrf⟩

/-- Whatever state the rounds reach, it holds one registration more for each of them. -/
theorem rounds_held {n : Nat} {pn : Res} (h : rounds L n p = .ok pn) :
    pn.held = p.held.leak n := by
  induction n generalizing pn with
  | zero => cases h; rfl
  | succ n ih =>
    simp only [rounds, bind_ok] at h
    obtain ⟨pk, hk, pi, hi, hd⟩ := h
    obtain ⟨e, c, r, hready, rfl⟩ := otSysInit_ok.mp hi
    obtain ⟨q, hq, hheld⟩ := otSysDeinit_initialised hready
    rw [hd] at hq
    cases hq
    rw [hheld, ih hk]
    simp [Held.leak, List.replicate_succ]

/-- From a state that `otSysInit` accepts, `n` rounds succeed as long as the VFS table has room
for `n` entries. -/
theorem rounds_exists {n : Nat} {e c r : Int} (hr : Ready L p.held e c r)
    (hn : n + p.vfs.length ≤ L.vfsMaxCount) : ∃ pn, rounds L n p = .ok pn := by
  induction n with
  | zero => exact ⟨p, rfl⟩
  | succ n ih =>
    obtain ⟨pk, hk⟩ := ih (by omega)
    have hready : Ready L pk.held e c r := by
      rw [rounds_held hk, ready_leak_iff hr]
      simp only [Res.held]
      omega
    obtain ⟨q, hq, -⟩ := otSysDeinit_initialised hready
    refine ⟨q, ?_⟩
    simp only [rounds, bind_ok]
    exact ⟨pk, hk, _, otSysInit_ok.mpr ⟨e, c, r, hready, rfl⟩, hq⟩

/-- `n` rounds give back what was held before them only for `n = 0`, and the `otSysInit` after them
succeeds only while the VFS table has a free entry left. -/
theorem rounds_restore_iff (L : Limits) (p : Res) (n : Nat) (h : ∃ q, otSysInit L p = .ok q) :
    (∀ pn, rounds L n p = .ok pn → (pn.held = p.held ↔ n = 0)) ∧
      ((∃ pn q, rounds L n p = .ok pn ∧ otSysInit L pn = .ok q) ↔
        n < L.vfsMaxCount - p.vfs.length) := by
  obtain ⟨q0, hq0⟩ := h
  obtain ⟨e, c, r, hready, rfl⟩ := otSysInit_ok.mp hq0
  refine ⟨?_, ?_, ?_⟩
  · intro pn hpn
    rw [rounds_held hpn, Held.leak_eq_iff]
  · rintro ⟨pn, q, hpn, hq⟩
    obtain ⟨e', c', r', hn, -⟩ := otSysInit_ok.mp hq
    have hroom := hn.vfsRoom
    rw [rounds_held hpn] at hroom
    simp only [Held.leak, Res.held, List.length_append, List.length_replicate] at hroom
    omega
  · intro hn
    obtain ⟨pn, hpn⟩ := rounds_exists hready (Nat.add_le_of_le_sub (by omega) (Nat.le_of_lt hn))
    have hready' : Ready L pn.held e c r := by
      rw [rounds_held hpn, ready_leak_iff hready]
      simp only [Res.held]
      omega
    exact ⟨pn, _, hpn, otSysInit_ok.mpr ⟨e, c, r, hready', rfl⟩⟩

/-! The state at boot: the UART driver of ESP-IDF is registered and the console holds the standard
descriptors. -/

def bootLimits : Limits := ⟨8, 64, 16⟩

def bootRes : Res :=
  { vfs := [uartVfsPrefix]
    openFds := [(2, .other), (1, .other), (0, .other)]
    uartDrivers := []
    mutexes := []
    buffers := []
    dev := .init
    sEventFd := -1
    sCliUartFd := 0
    mUartFd := 0
    sApiMutex := none
    mUartRxBuffer := none
    gPlatformPseudoResetWasRequested := false }

theorem boot_ready : Ready bootLimits bootRes.held 3 4 5 where
  vfsRoom := by decide
  uartVfs := List.mem_singleton.mpr rfl
  heapRoom := by decide
  cliUart := by decide
  radioUart := by decide
  eventShut := rfl
  eventFd := by decide
  cliFd := by decide
  radioFd := by decide

theorem rounds_restore_boot :
    (∃ q, otSysInit bootLimits bootRes = .ok q) ∧
      (∀ pn, rounds bootLimits 7 bootRes = .ok pn → (pn.held = bootRes.held ↔ 7 = 0)) ∧
      ((∃ pn q, rounds bootLimits 7 bootRes = .ok pn ∧ otSysInit bootLimits pn = .ok q) ↔
        7 < bootLimits.vfsMaxCount - bootRes.vfs.length) :=
  have h : ∃ q, otSysInit bootLimits bootRes = .ok q :=
    ⟨_, otSysInit_ok.mpr ⟨3, 4, 5, boot_ready, rfl⟩⟩
  ⟨h, rounds_restore_iff bootLimits bootRes 7 h⟩

/-- One round is enough: the event driver is still registered after it. -/
theorem rounds_leak :
    ¬ ∀ L p, (∃ q, otSysInit L p = .ok q) → ∀ n pn, rounds L n p = .ok pn →
      pn.held = p.held ∧ ∃ q, otSysInit L pn = .ok q := by
  intro hclaim
  obtain ⟨pn, hpn⟩ := rounds_exists boot_ready (by decide : 1 + bootRes.vfs.length ≤ 8)
  have hheld := (hclaim bootLimits bootRes ⟨_, otSysInit_ok.mpr ⟨3, 4, 5, boot_ready, rfl⟩⟩ 1 pn hpn).1
  rw [rounds_held hpn, Held.leak_eq_iff] at hheld
  cases hheld

end OtEsp32
