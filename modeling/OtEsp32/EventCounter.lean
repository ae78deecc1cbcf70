import Mathlib.Data.List.Induction
import OtEsp32.VfsEvent

/-!
# EventCounter

The event device under calls that each run to completion, in any order. The log of the calls, each
with whether the device took it, says how many writes have not been read (`unreadWrites`); the
counter is to say whether there are any. A write is taken or not by its descriptor and by the state
of the device: what it returns does not tell, since `(ssize_t)size` can be -1.

`CountInv` is what the counter is: that number modulo 256. `event_contract_iff` follows: a run
keeps the contract exactly when no 256 writes come without a read or an open between them.
-/

namespace OtEsp32

/-- A call of one of the functions that `event_register` registers. -/
inductive EventCall where
  | eventStartSelect (nfds : Int) (readfds : List Int) (signalSem : SelectSem)
  | eventEndSelect
  | eventOpen (path : String)
  | eventWrite (fd : Int) (size : UInt32)
  | eventRead (fd : Int)
  | eventClose (fd : Int)
  deriving DecidableEq, Repr

def EventDev.call (d : EventDev) : EventCall → Int × EventDev
  | .eventStartSelect nfds readfds signalSem => (0, eventStartSelect nfds readfds signalSem d)
  | .eventEndSelect => (0, eventEndSelect d)
  | .eventOpen path => eventOpen path d
  | .eventWrite fd size => eventWrite fd size d
  | .eventRead fd => eventRead fd d
  | .eventClose fd => eventClose fd d

/-- The checks that a call has to pass. -/
def EventDev.accepts (d : EventDev) : EventCall → Bool
  | .eventStartSelect _ _ _ => true
  | .eventEndSelect => true
  | .eventOpen path => path = otEventVfsShortPath && !d.sEvent.mIsOpen
  | .eventWrite fd _ => fd = d.sEvent.mFd && d.sEvent.mIsOpen
  | .eventRead fd => fd = d.sEvent.mFd && d.sEvent.mIsOpen
  | .eventClose fd => fd = d.sEvent.mFd && d.sEvent.mIsOpen

/-- The device, and the calls made of it with whether it took them, newest first. -/
structure EventRun where
  dev : EventDev
  log : List (EventCall × Bool)
  deriving DecidableEq, Repr

def EventRun.call (s : EventRun) (c : EventCall) : EventRun :=
  { dev := (s.dev.call c).2, log := (c, s.dev.accepts c) :: s.log }

def eventRun (calls : List EventCall) : EventRun := calls.foldl EventRun.call ⟨.init, []⟩

/-- The number of successful writes since the latest successful open or read. -/
def unreadWrites : List (EventCall × Bool) → Nat
  | [] => 0
  | (.eventWrite _ _, true) :: log => unreadWrites log + 1
  | (.eventOpen _, true) :: _ => 0
  | (.eventRead _, true) :: _ => 0
  | _ :: log => unreadWrites log

/-! ## The contract -/

/-- The calls that the device refuses. -/
structure Refuses (d : EventDev) : Prop where
  writes : ∀ fd size, fd ≠ d.sEvent.mFd ∨ d.sEvent.mIsOpen = false → eventWrite fd size d = (-1, d)
  reads : ∀ fd, fd ≠ d.sEvent.mFd ∨ d.sEvent.mIsOpen = false → eventRead fd d = (-1, d)
  closes : ∀ fd, fd ≠ d.sEvent.mFd ∨ d.sEvent.mIsOpen = false → eventClose fd d = (-1, d)
  opens : ∀ path, path ≠ otEventVfsShortPath ∨ d.sEvent.mIsOpen = true → eventOpen path d = (-1, d)

structure EventContract (s : EventRun) : Prop where
  counter : s.dev.sEvent.mCounter ≠ 0 ↔ s.dev.sEvent.mIsOpen = true ∧ 0 < unreadWrites s.log
  signals : ∀ nfds readfds signalSem, s.dev.sEvent.mIsOpen = true → nfds > 0 →
    s.dev.sEvent.mFd ∈ readfds →
    ((eventStartSelect nfds readfds signalSem s.dev).triggered = signalSem :: s.dev.triggered ↔
      0 < unreadWrites s.log)
  refuses : Refuses s.dev

/-! ## The functions -/

variable {d : EventDev} {fd : Int}

theorem not_match_of {d : EventDev} (h : fd ≠ d.sEvent.mFd ∨ d.sEvent.mIsOpen = false) :
    ¬ (fd = d.sEvent.mFd ∧ d.sEvent.mIsOpen = true) := by
  rintro ⟨hfd, ho⟩
  rcases h with h | h
  · exact h hfd
  · rw [ho] at h
    cases h

theorem refuses (d : EventDev) : Refuses d := by
  refine ⟨fun fd size h => ?_, fun fd h => ?_, fun fd h => ?_, fun path h => ?_⟩
  · rw [eventWrite, if_neg (not_match_of h)]
  · rw [eventRead, if_neg (not_match_of h)]
  · rw [eventClose, if_neg (not_match_of h)]
  · unfold eventOpen
    rcases h with h | h
    · rw [if_neg h]
    · simp [h]

/-- A write either passes the check and counts, or is refused. -/
theorem eventWrite_cases (fd : Int) (size : UInt32) (d : EventDev) :
    (d.accepts (.eventWrite fd size) = true ∧ d.sEvent.mIsOpen = true ∧
        (eventWrite fd size d).2.sEvent = d.increment.sEvent) ∨
      (d.accepts (.eventWrite fd size) = false ∧ eventWrite fd size d = (-1, d)) := by
  unfold eventWrite
  split
  · rename_i h
    refine .inl ⟨by simp [EventDev.accepts, h], h.2, ?_⟩
    simp only
    split <;> rfl
  · rename_i h
    exact .inr ⟨by simpa [EventDev.accepts] using h, rfl⟩

/-- `size_t` 2³² - 1 comes back as the -1 of a refused write, and the write counts. -/
example : eventWrite 8 4294967295 ⟨⟨8, true, 0⟩, .null, []⟩ = (-1, ⟨⟨8, true, 1⟩, .null, []⟩) := by
  decide

theorem eventRead_cases (fd : Int) (d : EventDev) :
    (d.accepts (.eventRead fd) = true ∧
        (eventRead fd d).2.sEvent = { d.sEvent with mCounter := 0 }) ∨
      (d.accepts (.eventRead fd) = false ∧ eventRead fd d = (-1, d)) := by
  unfold eventRead
  split
  · rename_i h
    exact .inl ⟨by simp [EventDev.accepts, h], rfl⟩
  · rename_i h
    exact .inr ⟨by simpa [EventDev.accepts] using h, rfl⟩

theorem eventClose_cases (fd : Int) (d : EventDev) :
    (eventClose fd d).2.sEvent = { d.sEvent with mIsOpen := false, mCounter := 0 } ∨
      eventClose fd d = (-1, d) := by
  unfold eventClose
  split
  · exact .inl rfl
  · exact .inr rfl

theorem eventOpen_cases (path : String) (d : EventDev) :
    (d.accepts (.eventOpen path) = true ∧ d.sEvent.mIsOpen = false ∧
        (eventOpen path d).2.sEvent = { d.sEvent with mFd := otReservedFdMin, mIsOpen := true }) ∨
      (d.accepts (.eventOpen path) = false ∧ eventOpen path d = (-1, d)) := by
  unfold eventOpen
  split
  · rename_i hp
    cases ho : d.sEvent.mIsOpen with
    | true => exact .inr ⟨by simp [EventDev.accepts, ho], rfl⟩
    | false => exact .inl ⟨by simp [EventDev.accepts, hp, ho], rfl, rfl⟩
  · rename_i hp
    exact .inr ⟨by simp [EventDev.accepts, hp], rfl⟩

theorem startSelect_sEvent (nfds : Int) (readfds : List Int) (signalSem : SelectSem)
    (d : EventDev) : (eventStartSelect nfds readfds signalSem d).sEvent = d.sEvent := by
  unfold eventStartSelect
  split
  · simp only
    split <;> rfl
  · rfl

/-- On the open descriptor `event_start_select` signals at once when the counter is not 0. -/
theorem startSelect_signals {nfds : Int} {readfds : List Int} (signalSem : SelectSem)
    (ho : d.sEvent.mIsOpen = true) (hn : nfds > 0) (hr : d.sEvent.mFd ∈ readfds) :
    (eventStartSelect nfds readfds signalSem d).triggered = signalSem :: d.triggered ↔
      d.sEvent.mCounter ≠ 0 := by
  unfold eventStartSelect
  simp only [ho, hn, decide_true, List.contains_iff_mem.mpr hr, Bool.and_self, if_true]
  constructor
  · intro h hz
    rw [hz] at h
    simp at h
  · intro hc
    rw [if_pos (UInt8.pos_iff_ne_zero.mpr hc)]
    rfl

/-! ## The counter -/

/-- While the device is closed the counter is 0; open, it is the number of writes not read, modulo
256. -/
structure CountInv (s : EventRun) : Prop where
  closed : s.dev.sEvent.mIsOpen = false → s.dev.sEvent.mCounter = 0
  opened : s.dev.sEvent.mIsOpen = true → s.dev.sEvent.mCounter.toNat = unreadWrites s.log % 256

/-- A call that is refused leaves the number of unread writes. -/
theorem unreadWrites_refused (c : EventCall) (log : List (EventCall × Bool)) :
    unreadWrites ((c, false) :: log) = unreadWrites log := by
  cases c <;> rfl

/-- What a call does to the event and to the number of unread writes. -/
inductive CallEffect (s s' : EventRun) : Prop where
  | keeps (he : s'.dev.sEvent = s.dev.sEvent) (hu : unreadWrites s'.log = unreadWrites s.log)
  | opens (hc : s.dev.sEvent.mIsOpen = false)
      (he : s'.dev.sEvent = { s.dev.sEvent with mFd := otReservedFdMin, mIsOpen := true })
      (hu : unreadWrites s'.log = 0)
  | writes (ho : s.dev.sEvent.mIsOpen = true) (he : s'.dev.sEvent = s.dev.increment.sEvent)
      (hu : unreadWrites s'.log = unreadWrites s.log + 1)
  | reads (he : s'.dev.sEvent = { s.dev.sEvent with mCounter := 0 })
      (hu : unreadWrites s'.log = 0)
  | closes (he : s'.dev.sEvent = { s.dev.sEvent with mIsOpen := false, mCounter := 0 })
      (hu : unreadWrites s'.log = unreadWrites s.log)

theorem call_effect (s : EventRun) (c : EventCall) : CallEffect s (s.call c) := by
  have hlog : ∀ b, s.dev.accepts c = b → (s.call c).log = (c, b) :: s.log := by
    rintro b rfl
    rfl
  have href : s.dev.accepts c = false → (s.dev.call c).2 = s.dev → CallEffect s (s.call c) := by
    intro ha h
    exact .keeps (congrArg EventDev.sEvent h) (by rw [hlog false ha, unreadWrites_refused])
  cases c with
  | eventStartSelect nfds readfds signalSem =>
    exact .keeps (startSelect_sEvent nfds readfds signalSem s.dev) rfl
  | eventEndSelect => exact .keeps rfl rfl
  | eventOpen path =>
    rcases eventOpen_cases path s.dev with ⟨ha, hc, he⟩ | ⟨ha, h⟩
    · exact .opens hc he (by rw [hlog true ha]; rfl)
    · exact href ha (congrArg Prod.snd h)
  | eventWrite fd size =>
    rcases eventWrite_cases fd size s.dev with ⟨ha, ho, he⟩ | ⟨ha, h⟩
    · exact .writes ho he (by rw [hlog true ha]; rfl)
    · exact href ha (congrArg Prod.snd h)
  | eventRead fd =>
    rcases eventRead_cases fd s.dev with ⟨ha, he⟩ | ⟨ha, h⟩
    · exact .reads he (by rw [hlog true ha]; rfl)
    · exact href ha (congrArg Prod.snd h)
  | eventClose fd =>
    rcases eventClose_cases fd s.dev with he | h
    · exact .closes he rfl
    · exact .keeps (congrArg (fun p => p.2.sEvent) h) rfl

theorem call_countInv {s : EventRun} (hi : CountInv s) (c : EventCall) : CountInv (s.call c) := by
  cases call_effect s c with
  | keeps he hu => exact ⟨by rw [he]; exact hi.closed, by rw [he, hu]; exact hi.opened⟩
  | opens hc he hu =>
    refine ⟨fun h => ?_, fun _ => ?_⟩
    · rw [he] at h
      cases h
    · rw [he, hu]
      exact congrArg UInt8.toNat (hi.closed hc)
  | writes ho he hu =>
    refine ⟨fun h => ?_, fun _ => ?_⟩
    · rw [he] at h
      exact absurd (ho.symm.trans h) (by decide)
    · rw [he, hu, EventDev.increment, UInt8.toNat_add, hi.opened ho]
      exact Nat.mod_add_mod _ _ _
  | reads he hu => exact ⟨fun _ => by rw [he], fun _ => by rw [he, hu]; rfl⟩
  | closes he hu =>
    refine ⟨fun _ => by rw [he], fun h => ?_⟩
    rw [he] at h
    cases h

theorem eventRun_concat (calls : List EventCall) (c : EventCall) :
    eventRun (calls ++ [c]) = (eventRun calls).call c := by
  simp only [eventRun, List.foldl_append, List.foldl_cons, List.foldl_nil]

theorem eventRun_countInv (calls : List EventCall) : CountInv (eventRun calls) := by
  have h0 : CountInv ⟨.init, []⟩ := ⟨fun _ => rfl, nofun⟩
  unfold eventRun
  generalize (⟨.init, []⟩ : EventRun) = s at h0
  induction calls generalizing s with
  | nil => exact h0
  | cons c calls ih => exact ih (s.call c) (call_countInv h0 c)

theorem counter_ne_zero_iff {s : EventRun} (hi : CountInv s) :
    s.dev.sEvent.mCounter ≠ 0 ↔ s.dev.sEvent.mIsOpen = true ∧ unreadWrites s.log % 256 ≠ 0 := by
  cases ho : s.dev.sEvent.mIsOpen with
  | false => simp [hi.closed ho]
  | true =>
    rw [← hi.opened ho, ne_eq, ← UInt8.toNat_inj]
    simp

/-- The contract holds in a state exactly when the count of unread writes has not wrapped to 0. -/
theorem eventContract_iff {s : EventRun} (hi : CountInv s) :
    EventContract s ↔
      (s.dev.sEvent.mIsOpen = true → 256 ∣ unreadWrites s.log → unreadWrites s.log = 0) := by
  have hc := counter_ne_zero_iff hi
  constructor
  · intro h ho hd
    have hcount := h.counter
    rw [hc] at hcount
    have hz := Nat.mod_eq_zero_of_dvd hd
    simp only [ho, true_and, hz] at hcount
    omega
  · intro h
    have hpos : s.dev.sEvent.mIsOpen = true →
        (unreadWrites s.log % 256 ≠ 0 ↔ 0 < unreadWrites s.log) := by
      intro ho
      constructor
      · intro hm
        omega
      · intro hu hm
        have := h ho (Nat.dvd_of_mod_eq_zero hm)
        omega
    refine ⟨?_, ?_, refuses s.dev⟩
    · rw [hc]
      exact and_congr_right hpos
    · intro nfds readfds signalSem ho hn hr
      rw [startSelect_signals signalSem ho hn hr, hc, ← hpos ho]
      simp [ho]

/-! ## Runs -/

/-- A call leaves the number of unread writes, sets it to 0, or is a write to the open device. -/
theorem unreadWrites_call (s : EventRun) (c : EventCall) :
    unreadWrites (s.call c).log = unreadWrites s.log ∨ unreadWrites (s.call c).log = 0 ∨
      (unreadWrites (s.call c).log = unreadWrites s.log + 1 ∧
        (s.call c).dev.sEvent.mIsOpen = true) := by
  cases call_effect s c with
  | keeps _ hu => exact .inl hu
  | opens _ _ hu => exact .inr (.inl hu)
  | writes ho he hu => exact .inr (.inr ⟨hu, by rw [he]; exact ho⟩)
  | reads _ hu => exact .inr (.inl hu)
  | closes _ hu => exact .inl hu

/-- For every sequence of calls: every state on the way keeps the contract if and only if in no
state on the way are 256 writes unread. -/
theorem event_contract_iff (calls : List EventCall) :
    (∀ pre, pre <+: calls → EventContract (eventRun pre)) ↔
      ∀ pre, pre <+: calls → unreadWrites (eventRun pre).log < 256 := by
  constructor
  · intro h pre
    induction pre using List.reverseRecOn with
    | nil =>
      intro _
      exact Nat.zero_lt_succ 255
    | append_singleton pre c ih =>
      intro hpre
      have hlt := ih ((List.prefix_append pre [c]).trans hpre)
      have hcon := (eventContract_iff (eventRun_countInv _)).mp (h _ hpre)
      rw [eventRun_concat] at hcon ⊢
      rcases unreadWrites_call (eventRun pre) c with heq | heq | ⟨heq, ho⟩
      · omega
      · omega
      · -- the count that wraps is 256 itself, reached by a write to the open device
        have hne : unreadWrites ((eventRun pre).call c).log ≠ 256 := by
          intro h256
          have := hcon ho ⟨1, h256⟩
          omega
        omega
  · intro h pre hpre
    apply (eventContract_iff (eventRun_countInv pre)).mpr
    intro _ hd
    exact Nat.eq_zero_of_dvd_of_lt hd (h pre hpre)

def overflowCalls : List EventCall :=
  .eventOpen otEventVfsShortPath :: List.replicate 256 (.eventWrite otReservedFdMin 8)

/-- After 256 writes to the open device the counter is 0 again. -/
theorem event_contract_fails :
    ¬ ∀ calls, EventContract (eventRun calls) := by
  intro h
  have hc := (h overflowCalls).counter
  exact absurd (hc.mpr (by decide +kernel)) (by decide +kernel)

end OtEsp32
