import ChipEight.Machine.Display

/-!
# Drawing pixel by pixel

A row of the display is one word, and a byte of a sprite is drawn into it at once.  The picture is
the same if the eight bits of the byte are drawn one after the other, each at the pixel on which it
falls, with every column counted round the right edge: `draw_cons`.

`getMsbD_pattern` says which pixels a byte sets.  No two of its bits fall on the same pixel
(`columnAt_inj`), so a bit finds its pixel as it was before the byte was drawn, and no pixel is
flipped back by a later one.
-/

namespace ChipEight

/-- A place of a row is one within its bounds. -/
theorem Cells.set_eq_setIfInBounds {α : Type} {size k : Nat} (cells : Vector α size) (a : α)
    (hk : k < size) : cells.set k a hk = cells.setIfInBounds k a := by
  apply Vector.ext
  intro i hi
  simp only [Vector.getElem_set, Vector.getElem_setIfInBounds]

namespace Display

/-- Two displays are the same if they show the same picture. -/
theorem ext_pixel {d d' : Display} (h : ∀ row column, d.pixel row column = d'.pixel row column) :
    d = d' := by
  apply Vector.ext
  intro k hk
  apply BitVec.eq_of_getMsbD_eq
  intro i hi
  exact h ⟨k, hk⟩ ⟨i, hi⟩

/-- Whether a byte of a sprite sets a bit, counted from the left. -/
def lit (byte : UInt8) (bit : Nat) : Bool :=
  byte.toNat.testBit (7 - bit)

/-- Flips a pixel under a condition. -/
def flip (row : Fin 32) (column : Fin 64) (on : Bool) (d : Display) : Display :=
  if on then d.setIfInBounds row (d.get row ^^^ BitVec.twoPow 64 (63 - column)) else d

/-- Draws some bits of a byte, each at its pixel, and tells whether one of them met a lit pixel. -/
def drawBits (byte : UInt8) (row : Fin 32) (column : Nat) : List Nat → Display → Display × Bool
  | [], d => (d, false)
  | bit :: bits, d =>
    let here := columnAt (column + bit)
    let drawn := drawBits byte row column bits (d.flip row here (lit byte bit))
    (drawn.1, lit byte bit && d.pixel row here || drawn.2)

variable {row r : Fin 32} {column c : Fin 64} {d : Display}

/-- A pixel is a bit of its row. -/
theorem getMsbD_get (d : Display) : (d.get row).getMsbD column = d.pixel row column := rfl

/-- A row that is replaced shows its new word. -/
theorem pixel_set (word : BitVec 64) :
    pixel (d.setIfInBounds row word) r c = if r = row then word.getMsbD c else d.pixel r c := by
  simp only [pixel, Fin.getElem_fin, Vector.getElem_setIfInBounds, Fin.ext_iff, eq_comm]
  split <;> rfl

/-- Only the pixel in question is flipped. -/
theorem pixel_flip (on : Bool) :
    (d.flip row column on).pixel r c = (d.pixel r c ^^ (on && decide (r = row ∧ c = column))) := by
  cases on with
  | false => simp [flip]
  | true =>
    have hbit : (BitVec.twoPow 64 (63 - column)).getMsbD c = decide (c = column) := by
      simp only [BitVec.getMsbD_eq_getLsbD, BitVec.getLsbD_twoPow, Fin.ext_iff]
      rw [Bool.eq_iff_iff]
      simp
      omega
    rw [flip, if_pos rfl, pixel_set, BitVec.getMsbD_xor, hbit]
    split
    next h => simp [h, getMsbD_get]
    next h => simp [h]

/-- Eight neighbouring pixels are different ones. -/
theorem columnAt_inj {start i j : Nat} (hi : i < 8) (hj : j < 8)
    (h : columnAt (start + i) = columnAt (start + j)) : i = j := by
  have h := congrArg Fin.val h
  simp only [columnAt, Fin.val_ofNat] at h
  omega

/-- At the left edge a byte takes the first eight pixels. -/
theorem getMsbD_byte (byte : UInt8) (k : Nat) :
    (BitVec.ofNat 64 byte.toNat <<< 56).getMsbD k = (decide (k < 8) && lit byte k) := by
  rw [BitVec.getMsbD_shiftLeft, BitVec.getMsbD_eq_getLsbD, BitVec.getLsbD_ofNat, lit]
  have hplace : 64 - 1 - (k + 56) = 7 - k := by omega
  have hwide : 7 - k < 64 := by omega
  have hnear : k + 56 < 64 ↔ k < 8 := by omega
  simp only [hplace, hwide, hnear, decide_true, Bool.true_and]

/-- A row that is rotated shows at a pixel what was that far from its start. -/
theorem getMsbD_rotateRight (word : BitVec 64) (start : Nat) (c : Fin 64) :
    (word.rotateRight start).getMsbD c = word.getMsbD ((c.val + 64 - start % 64) % 64) := by
  have hc := c.isLt
  rw [BitVec.getMsbD_rotateRight]
  simp only [hc, decide_true, Bool.true_and]
  split <;> congr 1 <;> omega

/-- **The pixels that a byte sets** are those on which one of its bits falls. -/
theorem getMsbD_pattern (byte : UInt8) (start : Nat) (c : Fin 64) :
    (pattern byte start).getMsbD c =
      (List.range 8).any fun bit => lit byte bit && decide (c = columnAt (start + bit)) := by
  have hc := c.isLt
  rw [pattern, getMsbD_rotateRight, getMsbD_byte, Bool.eq_iff_iff]
  simp only [Bool.and_eq_true, decide_eq_true_eq, List.any_eq_true, List.mem_range, columnAt,
    Fin.ext_iff, Fin.val_ofNat]
  constructor
  · rintro ⟨hnear, hlit⟩
    exact ⟨_, hnear, hlit, by omega⟩
  · rintro ⟨bit, hbit, hlit, hcolumn⟩
    have hoffset : (c.val + 64 - start % 64) % 64 = bit := by omega
    rw [hoffset]
    exact ⟨hbit, hlit⟩

/-- Bits that fall on different pixels flip the pixels on which they fall, and meet those that were
lit. -/
theorem drawBits_spec (byte : UInt8) (row : Fin 32) (start : Nat) {bits : List Nat}
    (hdistinct : bits.Nodup) (hbits : ∀ bit ∈ bits, bit < 8) (d : Display) :
    (∀ r c, (drawBits byte row start bits d).1.pixel r c =
      (d.pixel r c ^^ (decide (r = row) &&
        bits.any fun bit => lit byte bit && decide (c = columnAt (start + bit))))) ∧
    (drawBits byte row start bits d).2 =
      bits.any fun bit => lit byte bit && d.pixel row (columnAt (start + bit)) := by
  induction bits generalizing d with
  | nil => simp [drawBits]
  | cons bit bits ih =>
    obtain ⟨hnew, hdistinct⟩ := List.nodup_cons.mp hdistinct
    obtain ⟨hbit, hbits⟩ := List.forall_mem_cons.mp hbits
    have hother : ∀ other ∈ bits, columnAt (start + other) ≠ columnAt (start + bit) := by
      intro other hmem hsame
      exact hnew (columnAt_inj (hbits other hmem) hbit hsame ▸ hmem)
    obtain ⟨hpixels, hhit⟩ := ih hdistinct hbits (d.flip row (columnAt (start + bit)) (lit byte bit))
    constructor
    · intro r c
      simp only [drawBits, hpixels, pixel_flip, List.any_cons]
      by_cases hrow : r = row
      · by_cases hcolumn : c = columnAt (start + bit)
        · have hrest : (bits.any fun other =>
              lit byte other && decide (c = columnAt (start + other))) = false := by
            rw [List.any_eq_false]
            intro other hmem
            simp [hcolumn, (hother other hmem).symm]
          rw [hrest]
          simp [hrow, hcolumn]
        · simp [hrow, hcolumn]
      · simp [hrow]
    · simp only [drawBits, hhit, List.any_cons]
      congr 1
      rw [Bool.eq_iff_iff]
      simp only [List.any_eq_true]
      refine exists_congr fun other => and_congr_right fun hmem => ?_
      simp [pixel_flip, hother other hmem]

/-- Two rows meet if they share a pixel. -/
theorem and_ne_zero_iff {word other : BitVec 64} :
    (word &&& other != 0) = true ↔
      ∃ c : Fin 64, word.getMsbD c = true ∧ other.getMsbD c = true := by
  rw [bne_iff_ne]
  constructor
  · intro hmeet
    refine Classical.byContradiction fun hnone => hmeet (BitVec.eq_of_getMsbD_eq fun i hi => ?_)
    have hi := not_exists.mp hnone ⟨i, hi⟩
    simpa using hi
  · rintro ⟨c, hword, hother⟩ hnone
    have hc := congrArg (BitVec.getMsbD · c) hnone
    simp [hword, hother] at hc

/-- Drawing all bits of a byte flips the pixels that it sets, and meets a lit one exactly if one of
these was lit. -/
theorem drawBits_range (byte : UInt8) (row : Fin 32) (start : Nat) (d : Display) :
    drawBits byte row start (List.range 8) d =
      (d.setIfInBounds row (d.get row ^^^ pattern byte start),
        d.get row &&& pattern byte start != 0) := by
  obtain ⟨hpixels, hhit⟩ :=
    drawBits_spec byte row start (List.nodup_range) (fun _ => List.mem_range.mp) d
  apply Prod.ext
  · refine ext_pixel fun r c => ?_
    rw [hpixels, ← getMsbD_pattern, pixel_set, BitVec.getMsbD_xor]
    split
    next h => simp [h, getMsbD_get]
    next h => simp [h]
  · rw [hhit, Bool.eq_iff_iff, and_ne_zero_iff]
    simp only [getMsbD_pattern, List.any_eq_true, Bool.and_eq_true, decide_eq_true_eq]
    constructor
    · rintro ⟨bit, hbit, hlit, hpixel⟩
      exact ⟨_, hpixel, bit, hbit, hlit, rfl⟩
    · rintro ⟨c, hpixel, bit, hbit, hlit, rfl⟩
      exact ⟨bit, hbit, hlit, hpixel⟩

/-- **A sprite is drawn bit by bit**, one byte after the other. -/
theorem draw_cons (byte : UInt8) (rest : List UInt8) (column row : Nat) (d : Display) :
    draw column (byte :: rest) row d =
      let first := drawBits byte (rowAt row) column (List.range 8) d
      let drawn := draw column rest (row + 1) first.1
      (drawn.1, first.2 || drawn.2) := by
  rw [drawBits_range, draw, Cells.set_eq_setIfInBounds]
  rfl

end Display

end ChipEight
