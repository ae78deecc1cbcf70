import OtEsp32.Flash

/-!
# FlashCorrect

When the two swap areas are isolated from each other, and when an erased area reads back what was
written to it.

The advertised size is two pages, but the second area starts one page after the first and an erase
wipes one page. So the areas share the page `[4096, 8192)` of the partition (`Shared`), and the
second page of each area is never erased. `runSwap_byte` gives every byte after a sequence of
calls; both results compare it with the byte before.
-/

namespace OtEsp32

/-- What the call makes of a byte `x` at position `q` of its area. -/
def SwapOp.leaves (q : Nat) (x : UInt8) : SwapOp → UInt8
  | .erase => if q < settingsConfigPageSize.toNat then 0xFF else x
  | .write aOffset aData =>
    match aData[q - aOffset.toNat]? with
    | some d => if aOffset.toNat ≤ q then x &&& d else x
    | none => x

/-- The AND of the bytes that the writes put at position `q` of their area, counted from the last
erase if an erase wipes that position. -/
def written (ops : List SwapOp) (q : Nat) : UInt8 := ops.foldl (SwapOp.leaves q) 0xFF

/-- An erase of the sequence wipes position `q`. -/
def erased (ops : List SwapOp) (q : Nat) : Bool :=
  decide (q < settingsConfigPageSize.toNat) && ops.any SwapOp.isErase

/-- Addresses that lie in both swap areas. -/
def Shared (a : Nat) : Prop :=
  settingsConfigPageSize.toNat ≤ a ∧ a < otPlatFlashGetSwapSize.toNat

theorem wipes_nor (i : UInt8) (op : SwapOp) (q : Nat) :
    (op.nor i).wipes ((swapBase i).toNat + q) =
      (decide (q < settingsConfigPageSize.toNat) && op.isErase) := by
  cases op with
  | erase => simp [SwapOp.nor, Nor.Op.wipes, SwapOp.isErase]
  | write off data => simp [SwapOp.nor, Nor.Op.wipes, SwapOp.isErase]

theorem wiped_nor (i : UInt8) (ops : List SwapOp) (q : Nat) :
    Nor.wiped (ops.map (SwapOp.nor i)) ((swapBase i).toNat + q) = erased ops q := by
  induction ops with
  | nil => simp [Nor.wiped, erased]
  | cons op ops ih =>
    simp only [Nor.wiped, erased, List.map_cons, List.any_cons] at ih ⊢
    rw [wipes_nor, ih, Bool.and_or_distrib_left]

theorem cell_nor (i : UInt8) (op : SwapOp) (q : Nat) (x : UInt8) :
    (op.nor i).cell Byte.and Byte.blank ((swapBase i).toNat + q) x = op.leaves q x := by
  cases op with
  | erase => simp [SwapOp.nor, Nor.Op.cell, SwapOp.leaves]
  | write off data =>
    have hsub : (swapBase i).toNat + q - ((swapBase i).toNat + off.toNat) = q - off.toNat := by
      omega
    simp only [SwapOp.nor, Nor.Op.cell, SwapOp.leaves, hsub, Nat.add_le_add_iff_left]
    cases data[q - off.toNat]? with
    | none => rfl
    | some d => rfl

theorem onBlank_nor (i : UInt8) (ops : List SwapOp) (q : Nat) :
    Nor.onBlank Byte.and Byte.blank (ops.map (SwapOp.nor i)) ((swapBase i).toNat + q) =
      written ops q := by
  -- the accumulator of `written` is the cell that the calls so far leave
  have h : ∀ m : Nat → UInt8,
      Nor.applyAll Byte.and Byte.blank m (ops.map (SwapOp.nor i)) ((swapBase i).toNat + q) =
        ops.foldl (SwapOp.leaves q) (m ((swapBase i).toNat + q)) := by
    induction ops with
    | nil => intro m; rfl
    | cons op ops ih =>
      intro m
      rw [List.map_cons, Nor.applyAll_cons, ih, List.foldl_cons, Nor.Op.apply, cell_nor]
  exact h fun _ => Byte.blank

/-- A call inside the advertised size covers nothing outside it. -/
theorem nor_outside (i : UInt8) {op : SwapOp} (hop : op.InBounds) {a : Nat}
    (ha : a < (swapBase i).toNat ∨ (swapBase i).toNat + otPlatFlashGetSwapSize.toNat ≤ a) :
    ¬ (op.nor i).Covers a := by
  rw [otPlatFlashGetSwapSize_toNat] at ha
  cases op with
  | erase =>
    have hs : settingsConfigPageSize.toNat = 4096 := rfl
    simp only [SwapOp.nor, Nor.Op.Covers]
    omega
  | write off data =>
    simp only [SwapOp.InBounds, otPlatFlashGetSwapSize_toNat] at hop
    simp only [SwapOp.nor, Nor.Op.Covers]
    omega

theorem readBytes_eq_iff {f g : Nat → UInt8} {lo lo' n : Nat} :
    readBytes f lo n = readBytes g lo' n ↔ ∀ k < n, f (lo + k) = g (lo' + k) := by
  simp [readBytes, List.map_inj_left]

section Bytes

variable {E : EspPartition} {p p' : E.Part} {i : UInt8} {ops : List SwapOp}

/-- Every byte of the area after a sequence of calls. -/
theorem runSwap_byte
    (h : E.bytes p' = Nor.applyAll Byte.and Byte.blank (E.bytes p) (ops.map (SwapOp.nor i)))
    (q : Nat) :
    E.bytes p' ((swapBase i).toNat + q) =
      if erased ops q then written ops q
      else E.bytes p ((swapBase i).toNat + q) &&& written ops q := by
  rw [h, Nor.applyAll_eq, wiped_nor, onBlank_nor]

theorem runSwap_outside
    (h : E.bytes p' = Nor.applyAll Byte.and Byte.blank (E.bytes p) (ops.map (SwapOp.nor i)))
    (hops : ∀ op ∈ ops, op.InBounds) {a : Nat}
    (ha : a < (swapBase i).toNat ∨ (swapBase i).toNat + otPlatFlashGetSwapSize.toNat ≤ a) :
    E.bytes p' a = E.bytes p a := by
  rw [h, Nor.applyAll_outside]
  intro o ho
  obtain ⟨op, hop, rfl⟩ := List.mem_map.mp ho
  exact nor_outside i (hops op hop) ha

end Bytes

/-! ## Isolation -/

/-- The read of area `j` returns the same bytes after the calls on area `i` as before them. -/
def SwapIsolated (E : EspPartition) (p : E.Part) (i j : UInt8) (ops : List SwapOp)
    (aOffset aSize : UInt32) : Prop :=
  ∃ p', runSwap E i ops (some p) = .ok p' ∧
    otPlatFlashRead E p' j aOffset aSize = otPlatFlashRead E (some p) j aOffset aSize

/-- The calls on area `i` leave a byte that holds `x` at partition address `a` as it is: an erase
that wipes it is made good by the data written since, and without one no write clears a set bit. -/
def Keeps (i : UInt8) (ops : List SwapOp) (a : Nat) (x : UInt8) : Prop :=
  if erased ops (a - (swapBase i).toNat) then written ops (a - (swapBase i).toNat) = x
  else x &&& written ops (a - (swapBase i).toNat) = x

instance (i : UInt8) (ops : List SwapOp) (a : Nat) (x : UInt8) : Decidable (Keeps i ops a x) :=
  inferInstanceAs (Decidable (if erased ops (a - (swapBase i).toNat) then
    written ops (a - (swapBase i).toNat) = x else x &&& written ops (a - (swapBase i).toNat) = x))

/-- The areas are isolated exactly as far as the page they share is left as it is. -/
theorem swap_isolated_iff (E : EspPartition) (p : E.Part)
    (hp : 2 * otPlatFlashGetSwapSize.toNat ≤ E.size p) (i j : UInt8) (hij : i = 0 ↔ j ≠ 0)
    (ops : List SwapOp) (hops : ∀ op ∈ ops, op.InBounds) (aOffset aSize : UInt32)
    (hn : aOffset.toNat + aSize.toNat ≤ otPlatFlashGetSwapSize.toNat) :
    SwapIsolated E p i j ops aOffset aSize ↔
      ∀ k < aSize.toNat, Shared ((swapBase j).toNat + aOffset.toNat + k) →
        Keeps i ops ((swapBase j).toNat + aOffset.toNat + k)
          (E.bytes p ((swapBase j).toNat + aOffset.toNat + k)) := by
  obtain ⟨p', hrun, hsize, hbytes⟩ := runSwap_nor i hp hops
  have hread : SwapIsolated E p i j ops aOffset aSize ↔
      ∀ k < aSize.toNat, E.bytes p' ((swapBase j).toNat + aOffset.toNat + k) =
        E.bytes p ((swapBase j).toNat + aOffset.toNat + k) := by
    rw [← readBytes_eq_iff]
    simp only [SwapIsolated, hrun, otPlatFlashRead_bytes j hp hn]
    constructor
    · rintro ⟨_, h, h'⟩
      cases h
      rw [otPlatFlashRead_bytes j (by rw [hsize]; exact hp) hn] at h'
      exact Except.ok.inj h'
    · intro h
      refine ⟨some p', rfl, ?_⟩
      rw [otPlatFlashRead_bytes j (by rw [hsize]; exact hp) hn, h]
  rw [hread]
  refine forall₂_congr fun k hk => ?_
  generalize ha : (swapBase j).toNat + aOffset.toNat + k = a
  have hs := otPlatFlashGetSwapSize_toNat
  have hpage : settingsConfigPageSize.toNat = 4096 := rfl
  -- one of the two bases is 0 and the other 4096
  have hbase : (swapBase i).toNat = 0 ∧ (swapBase j).toNat = 4096 ∨
      (swapBase i).toNat = 4096 ∧ (swapBase j).toNat = 0 := by
    by_cases hi : i = 0
    · left
      subst hi
      exact ⟨swapBase_zero, swapBase_ne_zero (hij.mp rfl)⟩
    · right
      have hj : j = 0 := Classical.not_not.mp fun h => hi (hij.mpr h)
      subst hj
      exact ⟨swapBase_ne_zero hi, swapBase_zero⟩
  by_cases hsh : Shared a
  · have hle : (swapBase i).toNat ≤ a := by
      have := swapBase_le i
      simp only [Shared] at hsh
      omega
    have hb := runSwap_byte hbytes (a - (swapBase i).toNat)
    rw [show (swapBase i).toNat + (a - (swapBase i).toNat) = a by omega] at hb
    simp only [hsh, true_imp_iff, Keeps, hb]
    split <;> rfl
  · have hout : E.bytes p' a = E.bytes p a := by
      apply runSwap_outside hbytes hops
      simp only [Shared] at hsh
      omega
    simp [hsh, hout]

/-- The 512K `ot_storage` partition of the example, erased. -/
def freshPart : NorPart := ⟨0x80000, fun _ => 0xFF⟩

theorem swap_isolated_first_page :
    SwapIsolated espNor freshPart 0 1 [.erase, .write 4095 [0x12]] 0 1 := by
  refine (swap_isolated_iff espNor freshPart (by decide) 0 1 (by decide) _ ?_ 0 1 (by decide)).mpr ?_
  · intro op hop
    simp only [List.mem_cons, List.not_mem_nil, or_false] at hop
    rcases hop with rfl | rfl
    · exact True.intro
    · show (4095 : UInt32).toNat + 1 ≤ otPlatFlashGetSwapSize.toNat
      decide
  · intro k hk _
    have hk0 : k = 0 := by
      have : (1 : UInt32).toNat = 1 := rfl
      omega
    subst hk0
    decide

/-- Byte 4096 of area 0 is byte 0 of area 1. -/
theorem swap_isolated_fails :
    2 * otPlatFlashGetSwapSize.toNat ≤ espNor.size freshPart ∧
      (SwapOp.write 4096 [0x00]).InBounds ∧
      ¬ SwapIsolated espNor freshPart 0 1 [.write 4096 [0x00]] 0 1 := by
  refine ⟨by decide, ?_, ?_⟩
  · show (4096 : UInt32).toNat + 1 ≤ otPlatFlashGetSwapSize.toNat
    decide
  · rintro ⟨p', hrun, hread⟩
    cases hrun
    have h : ([0x00] : List UInt8) = [0xFF] := Except.ok.inj hread
    exact absurd h (by decide)

/-! ## Reading back -/

def writes (ws : List (UInt32 × List UInt8)) : List SwapOp := ws.map fun w => .write w.1 w.2

/-- After an erase of the area and the writes `ws`, the read returns at each position `0xFF` ANDed
with every byte written there. -/
def SwapReadsBack (E : EspPartition) (p : E.Part) (i : UInt8) (ws : List (UInt32 × List UInt8))
    (aOffset aSize : UInt32) : Prop :=
  ∃ p', runSwap E i (.erase :: writes ws) (some p) = .ok p' ∧
    otPlatFlashRead E p' i aOffset aSize =
      .ok (readBytes (fun q => 0xFF &&& written (writes ws) q) aOffset.toNat aSize.toNat)

theorem written_erase (ops : List SwapOp) (q : Nat) : written (.erase :: ops) q = written ops q := by
  simp only [written, List.foldl_cons, SwapOp.leaves]
  split <;> rfl

theorem erased_erase_writes (ws : List (UInt32 × List UInt8)) (q : Nat) :
    erased (.erase :: writes ws) q = decide (q < settingsConfigPageSize.toNat) := by
  simp [erased, SwapOp.isErase]

/-- The address never wraps, and the area reads back what was written exactly when every position
of the read is on the first page or already held each bit that the written bytes leave set. -/
theorem swap_reads_back_iff (E : EspPartition) (p : E.Part)
    (hp : 2 * otPlatFlashGetSwapSize.toNat ≤ E.size p) (i : UInt8)
    (ws : List (UInt32 × List UInt8)) (hws : ∀ op ∈ writes ws, op.InBounds)
    (aOffset aSize : UInt32)
    (hn : aOffset.toNat + aSize.toNat ≤ otPlatFlashGetSwapSize.toNat) :
    (∀ off : UInt32, off.toNat ≤ otPlatFlashGetSwapSize.toNat →
      (off + swapBase i).toNat = (swapBase i).toNat + off.toNat) ∧
    (SwapReadsBack E p i ws aOffset aSize ↔
      ∀ k < aSize.toNat, settingsConfigPageSize.toNat ≤ aOffset.toNat + k →
        E.bytes p ((swapBase i).toNat + (aOffset.toNat + k)) &&&
            written (writes ws) (aOffset.toNat + k) =
          written (writes ws) (aOffset.toNat + k)) := by
  refine ⟨fun off => swapAddress_toNat i off, ?_⟩
  have hops : ∀ op ∈ SwapOp.erase :: writes ws, op.InBounds := by
    intro op hop
    rcases List.mem_cons.mp hop with rfl | hop
    · exact True.intro
    · exact hws op hop
  obtain ⟨p', hrun, hsize, hbytes⟩ := runSwap_nor i hp hops
  have hread : SwapReadsBack E p i ws aOffset aSize ↔
      readBytes (E.bytes p') ((swapBase i).toNat + aOffset.toNat) aSize.toNat =
        readBytes (fun q => 0xFF &&& written (writes ws) q) aOffset.toNat aSize.toNat := by
    have hr := otPlatFlashRead_bytes i (hsize ▸ hp) hn
    simp only [SwapReadsBack, hrun]
    constructor
    · rintro ⟨_, h, h'⟩
      cases h
      rw [hr] at h'
      exact Except.ok.inj h'
    · intro h
      exact ⟨some p', rfl, by rw [hr, h]⟩
  rw [hread, readBytes_eq_iff]
  refine forall₂_congr fun k hk => ?_
  have hff : (0xFF : UInt8) &&& written (writes ws) (aOffset.toNat + k) =
      written (writes ws) (aOffset.toNat + k) := UInt8.neg_one_and
  rw [hff, Nat.add_assoc, runSwap_byte hbytes, erased_erase_writes, written_erase]
  by_cases h : aOffset.toNat + k < settingsConfigPageSize.toNat
  · have hnot : ¬ settingsConfigPageSize.toNat ≤ aOffset.toNat + k := by omega
    simp [h, hnot]
  · have hge : settingsConfigPageSize.toNat ≤ aOffset.toNat + k := by omega
    simp [h, hge]

/-- Across the end of the page, over bytes that are 0xF0 and not erased: what is written there has
no other bits. -/
theorem swap_reads_back_second_page :
    SwapReadsBack espNor ⟨0x80000, fun _ => 0xF0⟩ 1 [(4094, [0x12, 0x34, 0x50, 0x30])] 4094 4 := by
  refine (swap_reads_back_iff espNor ⟨0x80000, fun _ => 0xF0⟩ (by decide) 1
    [(4094, [0x12, 0x34, 0x50, 0x30])] ?_ 4094 4 (by decide)).2.mpr ?_
  · intro op hop
    rcases List.mem_singleton.mp hop with rfl
    show (4094 : UInt32).toNat + 4 ≤ otPlatFlashGetSwapSize.toNat
    decide
  · intro k hk hge
    have h1 : (4 : UInt32).toNat = 4 := rfl
    have h2 : (4094 : UInt32).toNat = 4094 := rfl
    have h3 : settingsConfigPageSize.toNat = 4096 := rfl
    have hk : k = 2 ∨ k = 3 := by omega
    rcases hk with rfl | rfl
    · rfl
    · rfl

/-- Used flash: every byte is 0. -/
def usedPart : NorPart := ⟨0x80000, fun _ => 0x00⟩

/-- Byte 4096 of an area, straight after the erase of the area. -/
theorem swap_reads_back_fails :
    2 * otPlatFlashGetSwapSize.toNat ≤ espNor.size usedPart ∧
      (4096 : UInt32).toNat + (1 : UInt32).toNat ≤ otPlatFlashGetSwapSize.toNat ∧
      ¬ SwapReadsBack espNor usedPart 0 [] 4096 1 := by
  refine ⟨by decide, by decide, ?_⟩
  rintro ⟨p', hrun, hread⟩
  cases hrun
  have h : ([0x00] : List UInt8) = [0xFF] := Except.ok.inj hread
  exact absurd h (by decide)

end OtEsp32
