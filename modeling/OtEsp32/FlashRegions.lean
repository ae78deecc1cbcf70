import OtEsp32.Flash
import OtEsp32.Lib.NorWindow
import OtEsp32.Lib.Sim

/-!
# FlashRegions

The two swap areas as two flash memories. OpenThread reads, erases and writes both areas in any
order, and counts on each being a memory of its own.

`FlashDev` is the driver on one partition and `Regions` two NOR memories with the same calls.
`flash_regions_iff`: the driver answers every read as the two memories do exactly as long as
nobody uses more of an area than one page.
-/

namespace OtEsp32

open Lts

inductive FlashCall where
  | erase (aSwapIndex : UInt8)
  | write (aSwapIndex : UInt8) (aOffset : UInt32) (aData : List UInt8)
  | read (aSwapIndex : UInt8) (aOffset aSize : UInt32)
  deriving DecidableEq, Repr

/-- The call uses no more of its area than the first `bound` bytes. -/
def FlashCall.Below (bound : Nat) : FlashCall → Prop
  | .erase _ => True
  | .write _ aOffset aData => aOffset.toNat + aData.length ≤ bound
  | .read _ aOffset aSize => aOffset.toNat + aSize.toNat ≤ bound

theorem FlashCall.Below.mono {c : FlashCall} {bound bound' : Nat} (h : c.Below bound)
    (hb : bound ≤ bound') : c.Below bound' := by
  cases c with
  | erase i => exact h
  | write i off data => exact Nat.le_trans h hb
  | read i off n => exact Nat.le_trans h hb

/-- `reads` is what the reads have returned. -/
structure FlashDev (E : EspPartition) where
  sSettingsPartition : Option E.Part
  reads : List (List UInt8)

/-- After `otPlatFlashInit`. -/
def FlashDev.boot (E : EspPartition) (found : Option E.Part) : Option (FlashDev E) :=
  match otPlatFlashInit E found with
  | .ok p => some { sSettingsPartition := p, reads := [] }
  | .error _ => none

/-- A call that dies has no next state. -/
def FlashDev.step (E : EspPartition) (s : FlashDev E) : FlashCall → Option (FlashDev E)
  | .erase aSwapIndex =>
    match otPlatFlashErase E s.sSettingsPartition aSwapIndex with
    | .ok p => some { s with sSettingsPartition := p }
    | .error _ => none
  | .write aSwapIndex aOffset aData =>
    match otPlatFlashWrite E s.sSettingsPartition aSwapIndex aOffset aData
        (UInt32.ofNat aData.length) with
    | .ok p => some { s with sSettingsPartition := p }
    | .error _ => none
  | .read aSwapIndex aOffset aSize =>
    match otPlatFlashRead E s.sSettingsPartition aSwapIndex aOffset aSize with
    | .ok aData => some { s with reads := s.reads ++ [aData] }
    | .error _ => none

/-- The memory of each area, `false` for swap index 0. -/
structure Regions where
  cells : Bool → Nat → UInt8
  reads : List (List UInt8)

def Regions.apply (r : Regions) (aSwapIndex : UInt8) (o : Nor.Op UInt8) : Regions :=
  { r with cells := Nor.applyAt Byte.and Byte.blank r.cells (aSwapIndex != 0) o }

def Regions.step (r : Regions) : FlashCall → Option Regions
  | .erase aSwapIndex => some (r.apply aSwapIndex (.erase 0 settingsConfigPageSize.toNat))
  | .write aSwapIndex aOffset aData =>
    some (r.apply aSwapIndex (.program aOffset.toNat aData))
  | .read aSwapIndex aOffset aSize =>
    some { r with
      reads := r.reads ++ [readBytes (r.cells (aSwapIndex != 0)) aOffset.toNat aSize.toNat] }

/-! ## The areas as windows -/

def areaBase (area : Bool) : Nat := if area then settingsConfigPageSize.toNat else 0

theorem areaBase_swap (i : UInt8) : areaBase (i != 0) = (swapBase i).toNat := by
  by_cases h : i = 0
  · subst h
    rfl
  · rw [swapBase_ne_zero h]
    simp [areaBase, h, settingsConfigPageSize]

theorem areas_apart : Nor.Apart areaBase settingsConfigPageSize.toNat := by
  intro i j hij
  cases i <;> cases j <;> simp_all [areaBase]

theorem erase_shift (i : UInt8) :
    SwapOp.erase.nor i =
      (Nor.Op.erase 0 settingsConfigPageSize.toNat).shift (areaBase (i != 0)) := by
  rw [areaBase_swap]
  rfl

theorem write_shift (i : UInt8) (off : UInt32) (data : List UInt8) :
    (SwapOp.write off data).nor i =
      (Nor.Op.program off.toNat data).shift (areaBase (i != 0)) := by
  rw [areaBase_swap]
  rfl

/-- The partition shows the two memories page by page, and both have answered alike. -/
def RegionsShown (E : EspPartition) (r : Regions) (s : FlashDev E) : Prop :=
  ∃ p, s.sSettingsPartition = some p ∧ 2 * otPlatFlashGetSwapSize.toNat ≤ E.size p ∧
    Nor.Shows areaBase settingsConfigPageSize.toNat (E.bytes p) r.cells ∧ s.reads = r.reads

section Refine

variable {E : EspPartition} {r : Regions} {s : FlashDev E} {p : E.Part}

theorem readBytes_shown {cells : Bool → Nat → UInt8} {m : Nat → UInt8}
    (hs : Nor.Shows areaBase settingsConfigPageSize.toNat m cells) (i : UInt8) {off n : Nat}
    (h : off + n ≤ settingsConfigPageSize.toNat) :
    readBytes m ((swapBase i).toNat + off) n = readBytes (cells (i != 0)) off n := by
  refine List.map_congr_left fun k hk => ?_
  have hk : k < n := List.mem_range.mp hk
  rw [Nat.add_assoc, ← areaBase_swap]
  exact hs (i != 0) (off + k) (by omega)

/-- Each call of the two memories is one of the driver. -/
theorem flash_simulates (E : EspPartition) :
    Simulates Regions.step (FlashDev.step E) (fun _ c => [c])
      (fun _ c => c.Below settingsConfigPageSize.toNat) (RegionsShown E) := by
  rintro r s c r' ⟨p, hpart, hsize, hshow, hreads⟩ hb hstep
  have hpage : settingsConfigPageSize.toNat = 4096 := rfl
  have hswap := otPlatFlashGetSwapSize_toNat
  cases c with
  | erase i =>
    cases hstep
    obtain ⟨p', he, hsize', hbytes⟩ := otPlatFlashErase_nor i hsize
    refine ⟨{ s with sSettingsPartition := some p' }, exec_single ?_, p', rfl, ?_, ?_, hreads⟩
    · simp only [FlashDev.step, hpart, he]
    · rw [hsize']
      exact hsize
    · rw [hbytes, erase_shift]
      exact hshow.apply areas_apart (Nat.le_of_eq (Nat.zero_add _)) (i != 0)
  | write i off data =>
    cases hstep
    have hroom : off.toNat + data.length ≤ otPlatFlashGetSwapSize.toNat :=
      Nat.le_trans hb (by omega)
    obtain ⟨p', he, hsize', hbytes⟩ := otPlatFlashWrite_nor i hsize hroom
    refine ⟨{ s with sSettingsPartition := some p' }, exec_single ?_, p', rfl, ?_, ?_, hreads⟩
    · simp only [FlashDev.step, hpart, he]
    · rw [hsize']
      exact hsize
    · rw [hbytes, write_shift]
      exact hshow.apply (o := .program off.toNat data) areas_apart hb (i != 0)
  | read i off n =>
    cases hstep
    have hroom : off.toNat + n.toNat ≤ otPlatFlashGetSwapSize.toNat :=
      Nat.le_trans hb (by omega)
    have hread := otPlatFlashRead_bytes i hsize hroom
    rw [readBytes_shown hshow i hb] at hread
    refine ⟨{ s with reads := s.reads ++ [readBytes (r.cells (i != 0)) off.toNat n.toNat] },
      exec_single ?_, p, hpart, hsize, hshow, by rw [hreads]⟩
    simp only [FlashDev.step, hpart, hread]

theorem regions_total (r : Regions) (calls : List FlashCall) :
    ∃ r', exec Regions.step r calls = some r' := by
  induction calls generalizing r with
  | nil => exact ⟨r, rfl⟩
  | cons c calls ih =>
    cases c with
    | erase i => exact ih (r.apply i (.erase 0 settingsConfigPageSize.toNat))
    | write i off data => exact ih (r.apply i (.program off.toNat data))
    | read i off n => exact ih _

end Refine

/-- The two memories that begin as the areas of the partition are. -/
def Regions.of (bytes : Nat → UInt8) : Regions :=
  { cells := fun area q => bytes (areaBase area + q), reads := [] }

/-- The driver initialises, makes all of the calls, and its reads return what those of the two
memories do. -/
def AnswersAsRegions (E : EspPartition) (p : E.Part) (calls : List FlashCall) : Prop :=
  ∃ s0 s r, FlashDev.boot E (some p) = some s0 ∧ exec (FlashDev.step E) s0 calls = some s ∧
    exec Regions.step (.of (E.bytes p)) calls = some r ∧ s.reads = r.reads

theorem boot_some (E : EspPartition) (p : E.Part) : FlashDev.boot E (some p) = some ⟨some p, []⟩ :=
  rfl

/-- A byte of the second page of area 0 that is cleared after area 1 was erased. -/
def overlapCalls : List FlashCall := [.erase 1, .write 0 4096 [0], .read 1 0 1]

theorem overlapCalls_reads {E : EspPartition} {p : E.Part}
    (hp : 2 * otPlatFlashGetSwapSize.toNat ≤ E.size p) : ¬ AnswersAsRegions E p overlapCalls := by
  rintro ⟨s0, s, r, h0, hs, hr, hreads⟩
  rw [boot_some] at h0
  cases h0
  obtain ⟨p1, he, hsize1, hbytes1⟩ := otPlatFlashErase_nor 1 hp
  rw [← hsize1] at hp
  have hwrite : (4096 : UInt32).toNat + ([0] : List UInt8).length ≤
      otPlatFlashGetSwapSize.toNat := by decide
  obtain ⟨p2, hw, hsize2, hbytes2⟩ := otPlatFlashWrite_nor 0 hp hwrite
  rw [← hsize2] at hp
  have hone : (0 : UInt32).toNat + (1 : UInt32).toNat ≤ otPlatFlashGetSwapSize.toNat := by decide
  have hread := otPlatFlashRead_bytes 1 hp hone
  have hrun : exec (FlashDev.step E) ⟨some p, []⟩ overlapCalls =
      some ⟨some p2, [readBytes (E.bytes p2) 4096 1]⟩ := by
    simp only [overlapCalls, exec, FlashDev.step, he, hw, hread]
    rfl
  have hzero : E.bytes p2 4096 = 0 := by
    rw [hbytes2]
    exact UInt8.and_zero
  rw [hrun] at hs
  cases hs
  cases hr
  have hblank : readBytes (E.bytes p2) 4096 1 = [0xFF] := (List.cons.inj hreads).1
  have hbyte : E.bytes p2 4096 = 0xFF := (List.cons.inj hblank).1
  rw [hzero] at hbyte
  cases hbyte

/-- For every partition that is large enough: the driver answers every order of calls as two
memories would, as long as no call uses more than `bound` bytes of an area, exactly for the bounds
up to one page. -/
theorem flash_regions_iff (E : EspPartition) (p : E.Part)
    (hp : 2 * otPlatFlashGetSwapSize.toNat ≤ E.size p) (bound : Nat) :
    (∀ calls : List FlashCall, (∀ c ∈ calls, c.Below bound) → AnswersAsRegions E p calls) ↔
      bound ≤ settingsConfigPageSize.toNat := by
  have hpage : settingsConfigPageSize.toNat = 4096 := rfl
  constructor
  · intro h
    refine Nat.not_lt.mp fun hlt => overlapCalls_reads hp (h overlapCalls ?_)
    simp [overlapCalls, FlashCall.Below]
    omega
  · intro hb calls hcalls
    obtain ⟨r, hr⟩ := regions_total (.of (E.bytes p)) calls
    have hstart : RegionsShown E (.of (E.bytes p)) ⟨some p, []⟩ :=
      ⟨p, rfl, hp, Nor.shows_self _ _ _, rfl⟩
    have hbelow : AtSteps Regions.step (.of (E.bytes p)) calls
        fun _ _ c => c.Below settingsConfigPageSize.toNat := by
      intro pre c post _ hsplit _
      exact (hcalls c (by simp [hsplit])).mono hb
    obtain ⟨s, hs, _, _, _, _, hreads⟩ := (flash_simulates E).run hstart hbelow hr
    rw [trace_self hr] at hs
    exact ⟨_, s, r, boot_some E p, hs, hr, hreads⟩

/-- The 512K of the partition table of the example. -/
theorem flash_regions_iff_example :
    (∀ calls : List FlashCall, (∀ c ∈ calls, c.Below 4096) →
      AnswersAsRegions espNor ⟨0x80000, fun _ => 0xFF⟩ calls) ↔
        4096 ≤ settingsConfigPageSize.toNat :=
  flash_regions_iff espNor ⟨0x80000, fun _ => 0xFF⟩ (by decide) 4096

end OtEsp32
