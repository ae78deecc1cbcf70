/-!
# Lib.CString

NUL-terminated strings in a byte memory, and `snprintf` as C99 has it: it stores what fits and a
NUL, and returns the length of the whole text.

`Filled mem n bs` says that the `n` bytes from 0 hold `bs` and zeros. `filled_snprintf` appends to
such a buffer with the room that is left; `readStr_filled` reads it back as a string.
-/

namespace CString

abbrev Mem := Nat → UInt8

def store (mem : Mem) (dst : Nat) (bs : List UInt8) : Mem := fun k =>
  if dst ≤ k then bs[k - dst]?.getD (mem k) else mem k

/-- The bytes that `snprintf` stores for the text `out`. -/
def stored (size : Nat) (out : List UInt8) : List UInt8 :=
  if size = 0 then [] else out.take (size - 1) ++ [0]

/-- The text `out` formatted to `dst`. -/
def snprintf (mem : Mem) (dst size : Nat) (out : List UInt8) : Nat × Mem :=
  (out.length, store mem dst (stored size out))

/-- The string at 0 in a buffer of `n` bytes. -/
def readStr (n : Nat) (mem : Mem) : List UInt8 := ((List.range n).map mem).takeWhile (· ≠ 0)

def Filled (mem : Mem) (n : Nat) (bs : List UInt8) : Prop := ∀ k, k < n → mem k = bs[k]?.getD 0

variable {mem : Mem} {n size : Nat} {line out bs : List UInt8}

theorem stored_length_le (size : Nat) (out : List UInt8) : (stored size out).length ≤ size := by
  unfold stored
  split
  · exact Nat.zero_le _
  · simp only [List.length_append, List.length_take, List.length_singleton]
    omega

theorem store_nil (mem : Mem) (dst : Nat) : store mem dst [] = mem := by
  funext k
  simp [store]

theorem getD_concat_zero (bs : List UInt8) (j : Nat) : (bs ++ [0])[j]?.getD 0 = bs[j]?.getD 0 := by
  rcases Nat.lt_trichotomy j bs.length with h | h | h
  · rw [List.getElem?_append_left h]
  · rw [h, List.getElem?_concat_length, List.getElem?_eq_none (Nat.le_refl _)]
    rfl
  · rw [List.getElem?_eq_none (Nat.le_of_lt h), List.getElem?_eq_none]
    rw [List.length_append]
    exact h

/-- Appending to a buffer that holds `line`, cut off, with the room that `line` has left. -/
theorem filled_snprintf (h : Filled mem n (line.take (n - 1))) (hs : size = n - line.length) :
    Filled (snprintf mem line.length size out).2 n ((line ++ out).take (n - 1)) := by
  intro k hk
  have hm := h k hk
  subst hs
  simp only [snprintf]
  by_cases hz : n - line.length = 0
  · rw [stored, if_pos hz, store_nil, hm, List.take_append_of_le_length (by omega)]
  · rw [stored, if_neg hz]
    unfold store
    by_cases hd : line.length ≤ k
    · -- behind `line` there are zeros, so the new text is all there is
      have hold : mem k = 0 := by
        rw [hm, List.getElem?_eq_none]
        · rfl
        · rw [List.length_take]
          omega
      have hall : line.take (n - 1) = line := List.take_of_length_le (by omega)
      have hroom : n - 1 - line.length = n - line.length - 1 := by omega
      rw [if_pos hd, hold, getD_concat_zero, List.take_append, hall, hroom,
        List.getElem?_append_right hd]
    · rw [if_neg hd, hm, List.take_append, List.getElem?_append_left]
      rw [List.length_take]
      omega

theorem map_range_filled (h : Filled mem n bs) (hl : bs.length ≤ n) :
    (List.range n).map mem = bs ++ List.replicate (n - bs.length) 0 := by
  apply List.ext_getElem
  · simp
    omega
  · intro k hk _
    simp only [List.length_map, List.length_range] at hk
    rw [List.getElem_map, List.getElem_range, h k hk, List.getElem_append]
    split
    · rename_i hlt
      rw [List.getElem?_eq_getElem hlt]
      rfl
    · rename_i hge
      rw [List.getElem_replicate, List.getElem?_eq_none (Nat.not_lt.mp hge)]
      rfl

/-- A buffer that holds a string and at least one zero after it. -/
theorem readStr_filled (h : Filled mem n bs) (hl : bs.length < n) (h0 : (0 : UInt8) ∉ bs) :
    readStr n mem = bs := by
  have hpos : n - bs.length = (n - bs.length - 1) + 1 := by omega
  rw [readStr, map_range_filled h (Nat.le_of_lt hl), List.takeWhile_append_of_pos, hpos,
    List.replicate_succ, List.takeWhile_cons]
  · simp
  · intro b hb
    have hne : b ≠ 0 := fun he => h0 (he ▸ hb)
    simpa using hne

end CString
