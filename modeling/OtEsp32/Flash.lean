import OtEsp32.Platform
import OtEsp32.Lib.Nor

/-!
# Flash

`flash.c`: two swap areas in the `ot_storage` partition. The partition calls are ESP-IDF's, so
they are a parameter with the behaviour that ESP-IDF documents (`EspPartition`); `espNor` is one
partition that has it.

A sequence of erases and writes of one swap area refines NOR operations on the bytes of the
partition (`runSwap_nor`).
-/

namespace OtEsp32

inductive EspErr where
  | fail
  | invalidArg
  | invalidSize
  deriving DecidableEq, Repr

/-- The operation that `esp_partition_write` does to a flash byte, and the byte that
`esp_partition_erase_range` leaves. -/
abbrev Byte.and (x y : UInt8) : UInt8 := x &&& y

abbrev Byte.blank : UInt8 := 0xFF

instance : Std.LawfulRightIdentity Byte.and Byte.blank where
  right_id x := by show x &&& -1 = x; exact UInt8.and_neg_one

instance : Std.Associative Byte.and where
  assoc := UInt8.and_assoc

/-- The bytes `[lo, lo + n)`. -/
def readBytes (bytes : Nat → UInt8) (lo n : Nat) : List UInt8 :=
  (List.range n).map fun k => bytes (lo + k)

/-- A partition and the calls made on it. A call inside the partition (for an erase, of whole
4096-byte sectors) succeeds and touches exactly its range: reading returns the bytes, writing ANDs
the data into them, erasing sets them to `0xFF`. -/
structure EspPartition where
  Part : Type
  size : Part → Nat
  bytes : Part → Nat → UInt8
  espPartitionRead : Part → UInt32 → UInt32 → Except EspErr (List UInt8)
  espPartitionWrite : Part → UInt32 → List UInt8 → Except EspErr Part
  espPartitionEraseRange : Part → UInt32 → UInt32 → Except EspErr Part
  read_spec : ∀ p off n, off.toNat + n.toNat ≤ size p →
    espPartitionRead p off n = .ok (readBytes (bytes p) off.toNat n.toNat)
  write_spec : ∀ p off data, off.toNat + data.length ≤ size p →
    ∃ p', espPartitionWrite p off data = .ok p' ∧ size p' = size p ∧
      bytes p' = (Nor.Op.program off.toNat data).apply Byte.and Byte.blank (bytes p)
  erase_spec : ∀ p off n, off.toNat % 4096 = 0 → n.toNat % 4096 = 0 →
    off.toNat + n.toNat ≤ size p →
    ∃ p', espPartitionEraseRange p off n = .ok p' ∧ size p' = size p ∧
      bytes p' = (Nor.Op.erase off.toNat n.toNat).apply Byte.and Byte.blank (bytes p)

/-! ## The driver -/

section Driver

variable (E : EspPartition)

/-- `found` is the result of `esp_partition_find_first`. -/
def otPlatFlashInit (found : Option E.Part) : Except Halt (Option E.Part) :=
  match found with
  | some p => .ok (some p)
  | none => .error .exitFailure

def otPlatFlashGetSwapSize : UInt32 := settingsConfigPageNum * settingsConfigPageSize

/-- `SETTINGS_CONFIG_PAGE_SIZE * (aSwapIndex != 0)` -/
def swapBase (aSwapIndex : UInt8) : UInt32 :=
  settingsConfigPageSize * (if aSwapIndex != 0 then 1 else 0)

def otPlatFlashErase (sSettingsPartition : Option E.Part) (aSwapIndex : UInt8) :
    Except Halt (Option E.Part) :=
  match sSettingsPartition with
  | none => .error .assertFailed
  | some partition =>
    let address := swapBase aSwapIndex
    let size := settingsConfigPageSize
    match E.espPartitionEraseRange partition address size with
    | .ok p => .ok (some p)
    | .error _ => .error .exitFailure

def otPlatFlashRead (sSettingsPartition : Option E.Part) (aSwapIndex : UInt8) (aOffset : UInt32)
    (aSize : UInt32) : Except Halt (List UInt8) :=
  match sSettingsPartition with
  | none => .error .exitFailure
  | some partition =>
    match E.espPartitionRead partition (aOffset + swapBase aSwapIndex) aSize with
    | .ok aData => .ok aData
    | .error _ => .error .exitFailure

/-- The first `aSize` bytes of `aData` are written. -/
def otPlatFlashWrite (sSettingsPartition : Option E.Part) (aSwapIndex : UInt8) (aOffset : UInt32)
    (aData : List UInt8) (aSize : UInt32) : Except Halt (Option E.Part) :=
  match sSettingsPartition with
  | none => .error .exitFailure
  | some partition =>
    match E.espPartitionWrite partition (aOffset + swapBase aSwapIndex)
        (aData.take aSize.toNat) with
    | .ok p => .ok (some p)
    | .error _ => .error .exitFailure

end Driver

/-! ## Sequences of calls on one swap area -/

inductive SwapOp where
  | erase
  | write (aOffset : UInt32) (aData : List UInt8)
  deriving DecidableEq, Repr

def SwapOp.isErase : SwapOp → Bool
  | .erase => true
  | .write _ _ => false

/-- The call stays below the advertised swap size. -/
def SwapOp.InBounds : SwapOp → Prop
  | .erase => True
  | .write aOffset aData => aOffset.toNat + aData.length ≤ otPlatFlashGetSwapSize.toNat

def SwapOp.run (E : EspPartition) (aSwapIndex : UInt8) (s : Option E.Part) :
    SwapOp → Except Halt (Option E.Part)
  | .erase => otPlatFlashErase E s aSwapIndex
  | .write aOffset aData =>
    otPlatFlashWrite E s aSwapIndex aOffset aData (UInt32.ofNat aData.length)

def runSwap (E : EspPartition) (aSwapIndex : UInt8) :
    List SwapOp → Option E.Part → Except Halt (Option E.Part)
  | [], s => .ok s
  | op :: ops, s =>
    match op.run E aSwapIndex s with
    | .ok s' => runSwap E aSwapIndex ops s'
    | .error h => .error h

/-- The NOR operation that the call makes. -/
def SwapOp.nor (aSwapIndex : UInt8) : SwapOp → Nor.Op UInt8
  | .erase => .erase (swapBase aSwapIndex).toNat settingsConfigPageSize.toNat
  | .write aOffset aData => .program ((swapBase aSwapIndex).toNat + aOffset.toNat) aData

theorem otPlatFlashGetSwapSize_toNat : otPlatFlashGetSwapSize.toNat = 8192 := by decide

theorem swapBase_zero : (swapBase 0).toNat = 0 := by decide

theorem swapBase_ne_zero {i : UInt8} (h : i ≠ 0) : (swapBase i).toNat = 4096 := by
  simp [swapBase, h, settingsConfigPageSize]

theorem swapBase_le (i : UInt8) : (swapBase i).toNat ≤ 4096 := by
  by_cases h : i = 0
  · subst h; rw [swapBase_zero]; omega
  · exact Nat.le_of_eq (swapBase_ne_zero h)

theorem swapBase_mod (i : UInt8) : (swapBase i).toNat % 4096 = 0 := by
  by_cases h : i = 0
  · subst h; rw [swapBase_zero]
  · rw [swapBase_ne_zero h]

/-- The `uint32_t` address does not wrap for an offset inside the advertised size. -/
theorem swapAddress_toNat (i : UInt8) (off : UInt32)
    (h : off.toNat ≤ otPlatFlashGetSwapSize.toNat) :
    (off + swapBase i).toNat = (swapBase i).toNat + off.toNat := by
  rw [otPlatFlashGetSwapSize_toNat] at h
  have hb := swapBase_le i
  rw [UInt32.toNat_add]
  omega

section Refine

variable {E : EspPartition} {p : E.Part}

theorem otPlatFlashErase_nor (i : UInt8) (hp : 2 * otPlatFlashGetSwapSize.toNat ≤ E.size p) :
    ∃ p', otPlatFlashErase E (some p) i = .ok (some p') ∧ E.size p' = E.size p ∧
      E.bytes p' = (SwapOp.erase.nor i).apply Byte.and Byte.blank (E.bytes p) := by
  have hb := swapBase_le i
  have hs : settingsConfigPageSize.toNat = 4096 := rfl
  rw [otPlatFlashGetSwapSize_toNat] at hp
  obtain ⟨p', he, hsize, hbytes⟩ := E.erase_spec p (swapBase i) settingsConfigPageSize
    (swapBase_mod i) (by decide) (by omega)
  exact ⟨p', by simp only [otPlatFlashErase, he], hsize, hbytes⟩

theorem otPlatFlashWrite_nor (i : UInt8) {off : UInt32} {data : List UInt8}
    (hp : 2 * otPlatFlashGetSwapSize.toNat ≤ E.size p)
    (h : off.toNat + data.length ≤ otPlatFlashGetSwapSize.toNat) :
    ∃ p', otPlatFlashWrite E (some p) i off data (UInt32.ofNat data.length) = .ok (some p') ∧
      E.size p' = E.size p ∧
      E.bytes p' = ((SwapOp.write off data).nor i).apply Byte.and Byte.blank (E.bytes p) := by
  have hb := swapBase_le i
  have ha := swapAddress_toNat i off (by omega)
  rw [otPlatFlashGetSwapSize_toNat] at hp h
  have hlen : (UInt32.ofNat data.length).toNat = data.length := by
    rw [UInt32.toNat_ofNat']
    exact Nat.mod_eq_of_lt (by omega)
  obtain ⟨p', he, hsize, hbytes⟩ := E.write_spec p (off + swapBase i) data (by omega)
  refine ⟨p', ?_, hsize, ?_⟩
  · simp only [otPlatFlashWrite, hlen, List.take_length, he]
  · rw [hbytes, ha]; rfl

theorem otPlatFlashRead_bytes (i : UInt8) {off n : UInt32}
    (hp : 2 * otPlatFlashGetSwapSize.toNat ≤ E.size p)
    (h : off.toNat + n.toNat ≤ otPlatFlashGetSwapSize.toNat) :
    otPlatFlashRead E (some p) i off n =
      .ok (readBytes (E.bytes p) ((swapBase i).toNat + off.toNat) n.toNat) := by
  have hb := swapBase_le i
  have ha := swapAddress_toNat i off (by omega)
  rw [otPlatFlashGetSwapSize_toNat] at hp h
  simp only [otPlatFlashRead, E.read_spec p (off + swapBase i) n (by omega), ha]

/-- Refinement: calls inside the advertised size never die, and the partition's bytes change as
by the NOR operations that the calls make. -/
theorem runSwap_nor (i : UInt8) {ops : List SwapOp}
    (hp : 2 * otPlatFlashGetSwapSize.toNat ≤ E.size p) (hops : ∀ op ∈ ops, op.InBounds) :
    ∃ p', runSwap E i ops (some p) = .ok (some p') ∧ E.size p' = E.size p ∧
      E.bytes p' = Nor.applyAll Byte.and Byte.blank (E.bytes p) (ops.map (SwapOp.nor i)) := by
  induction ops generalizing p with
  | nil => exact ⟨p, rfl, rfl, rfl⟩
  | cons op ops ih =>
    obtain ⟨p1, h1, hsize1, hbytes1⟩ : ∃ p1, op.run E i (some p) = .ok (some p1) ∧
        E.size p1 = E.size p ∧ E.bytes p1 = (op.nor i).apply Byte.and Byte.blank (E.bytes p) := by
      cases op with
      | erase => exact otPlatFlashErase_nor i hp
      | write off data => exact otPlatFlashWrite_nor i hp (hops (.write off data) (by simp))
    obtain ⟨p2, h2, hsize2, hbytes2⟩ :=
      ih (hsize1 ▸ hp) (fun o ho => hops o (by simp [ho]))
    refine ⟨p2, by simp only [runSwap, h1, h2], by rw [hsize2, hsize1], ?_⟩
    rw [hbytes2, hbytes1, List.map_cons, Nor.applyAll_cons]

end Refine

/-! ## A partition that behaves as documented -/

structure NorPart where
  size : Nat
  bytes : Nat → UInt8

def espNor : EspPartition where
  Part := NorPart
  size := NorPart.size
  bytes := NorPart.bytes
  espPartitionRead p off n :=
    if off.toNat + n.toNat ≤ p.size then .ok (readBytes p.bytes off.toNat n.toNat)
    else .error .invalidSize
  espPartitionWrite p off data :=
    if off.toNat + data.length ≤ p.size then
      .ok { p with bytes := (Nor.Op.program off.toNat data).apply Byte.and Byte.blank p.bytes }
    else .error .invalidSize
  espPartitionEraseRange p off n :=
    if off.toNat % 4096 ≠ 0 then .error .invalidArg
    else if n.toNat % 4096 ≠ 0 then .error .invalidSize
    else if off.toNat + n.toNat ≤ p.size then
      .ok { p with bytes := (Nor.Op.erase off.toNat n.toNat).apply Byte.and Byte.blank p.bytes }
    else .error .invalidSize
  read_spec p off n h := by rw [if_pos h]
  write_spec p off data h := by
    rw [if_pos h]
    exact ⟨_, rfl, rfl, rfl⟩
  erase_spec p off n ho hn h := by
    rw [if_neg (by omega), if_neg (by omega), if_pos h]
    exact ⟨_, rfl, rfl, rfl⟩

end OtEsp32
