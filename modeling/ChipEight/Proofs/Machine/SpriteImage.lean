import ChipEight.Proofs.Machine.Sprite
import ChipEight.Proofs.Machine.WordFootprint

/-!
# The image of a sprite

A sprite is drawn byte by byte, and every byte is flipped into a display that already shows the ones
before it.  `Machine.Covers` says in one piece which pixels are flipped in the end: those that lie less
than the height of the sprite below its upper edge and less than eight columns right of its left edge,
both counted round, where the bit in that place is set.

An instruction gives a sprite fifteen rows at most.  So it does not come round onto itself, and each of
its rows finds the display as it was before the first one (`covers_cons`, `covers_above`).  That makes
the closed form true of the pixels (`hits_eq_covers`) and of the flag (`draw_hit_iff`).  For higher
sprites, which only `Draws` can ask for, neither holds.
-/

namespace ChipEight

namespace Display

/-- How many rows one lies below another, counted round the lower edge. -/
def rowsBelow (row : Nat) (r : Fin 32) : Nat :=
  (r.val + 32 - row % 32) % 32

/-- How many columns one lies right of another, counted round the right edge. -/
def columnsRight (column : Nat) (c : Fin 64) : Nat :=
  (c.val + 64 - column % 64) % 64

/-- Whether a sprite has a row at the height of a pixel, and that row sets it. -/
def covers (column : Nat) (sprite : List UInt8) (row : Nat) (r : Fin 32) (c : Fin 64) : Bool :=
  sprite[rowsBelow row r]?.any fun byte => (pattern byte column).getMsbD c

variable {column row : Nat} {byte : UInt8} {rest sprite : List UInt8} {r : Fin 32} {c : Fin 64}

/-- A byte sets the pixels in the eight columns from its own on for which its bits are set. -/
theorem getMsbD_pattern_eq (byte : UInt8) (column : Nat) (c : Fin 64) :
    (pattern byte column).getMsbD c =
      (decide (columnsRight column c < 8) && lit byte (columnsRight column c)) := by
  rw [pattern, getMsbD_rotateRight, getMsbD_byte]
  rfl

/-- The row above a low sprite is not one of its own. -/
theorem covers_above (h : rest.length ≤ 31) : covers column rest (row + 1) (rowAt row) c = false := by
  have hplace : rest.length ≤ rowsBelow (row + 1) (rowAt row) := by
    simp only [rowsBelow, rowAt, Fin.val_ofNat]
    omega
  rw [covers, List.getElem?_eq_none hplace]
  rfl

/-- A sprite covers the pixels of its first row, and what the other rows cover from one row further down.
-/
theorem covers_cons (h : rest.length ≤ 31) :
    covers column (byte :: rest) row r c =
      (decide (r = rowAt row) && (pattern byte column).getMsbD c || covers column rest (row + 1) r c) := by
  by_cases hr : r = rowAt row
  · have hplace : rowsBelow row (rowAt row) = 0 := by
      simp only [rowsBelow, rowAt, Fin.val_ofNat]
      omega
    rw [hr, covers_above h, covers, hplace]
    simp
  · have hplace : rowsBelow row r = rowsBelow (row + 1) r + 1 := by
      have hne : r.val ≠ row % 32 := fun heq => hr (Fin.ext heq)
      have hlt := r.isLt
      simp only [rowsBelow]
      omega
    rw [covers, hplace, List.getElem?_cons_succ]
    simp [hr, covers]

/-- A pixel that other rows cover is not in the row above them. -/
theorem ne_rowAt_of_covers (h : rest.length ≤ 31) (hcovers : covers column rest (row + 1) r c = true) :
    r ≠ rowAt row := by
  rintro rfl
  rw [covers_above h] at hcovers
  cases hcovers

/-- **A low sprite hits a pixel once or not at all.** -/
theorem hits_eq_covers (h : sprite.length ≤ 32) :
    hits column sprite row r c = (covers column sprite row r c).toNat := by
  induction sprite generalizing row with
  | nil => rfl
  | cons byte rest ih =>
    have hrest : rest.length ≤ 31 := Nat.le_of_succ_le_succ h
    rw [hits, ih (by omega), covers_cons hrest]
    by_cases hr : r = rowAt row
    · subst hr
      simp [covers_above hrest]
    · simp [hr]

/-- **A low sprite meets a lit pixel** if it covers one that was lit before it was drawn. -/
theorem draw_hit_iff (column row : Nat) (h : sprite.length ≤ 32) (d : Display) :
    (draw column sprite row d).2 = true ↔
      ∃ r c, covers column sprite row r c = true ∧ d.pixel r c = true := by
  induction sprite generalizing row d with
  | nil => simp [draw, covers]
  | cons byte rest ih =>
    have hrest : rest.length ≤ 31 := Nat.le_of_succ_le_succ h
    -- The rows below find their pixels as they were: the first row has changed no other.
    have hkept (r : Fin 32) (c : Fin 64) (hcovers : covers column rest (row + 1) r c = true) :
        pixel (d.set (rowAt row) (d[rowAt row] ^^^ pattern byte column)) r c = d.pixel r c := by
      have hr := ne_rowAt_of_covers hrest hcovers
      rw [Cells.set_eq_setIfInBounds, pixel_set, if_neg hr]
    rw [draw, Bool.or_eq_true, and_ne_zero_iff, ih (row + 1) (by omega)]
    constructor
    · rintro (⟨c, hlit, hpattern⟩ | ⟨r, c, hcovers, hlit⟩)
      · refine ⟨rowAt row, c, ?_, hlit⟩
        rw [covers_cons hrest]
        simp [hpattern]
      · rw [hkept r c hcovers] at hlit
        refine ⟨r, c, ?_, hlit⟩
        rw [covers_cons hrest, hcovers, Bool.or_true]
    · rintro ⟨r, c, hcovers, hlit⟩
      rw [covers_cons hrest] at hcovers
      by_cases hbelow : covers column rest (row + 1) r c = true
      · refine .inr ⟨r, c, hbelow, ?_⟩
        rw [hkept r c hbelow]
        exact hlit
      · obtain ⟨rfl, hpattern⟩ : r = rowAt row ∧ (pattern byte column).getMsbD c = true := by
          simpa [hbelow] using hcovers
        exact .inl ⟨c, hlit, hpattern⟩

end Display

namespace Machine

open Outcome Instruction

/-- Whether a pixel is flipped by a sprite of some height, with its bytes from the address register on
and its upper left corner at the coordinates in two registers: there is a bit for it, and it is set. -/
def Covers (m : Machine) (x y : Register) (height : Nat) (r : Fin 32) (c : Fin 64) : Prop :=
  let below := ((r.val : Int) - m.value y) % 32
  let right := ((c.val : Int) - m.value x) % 64
  below < height ∧ right < 8 ∧
    (m.byteAt (m.index + below).toNat).toNat.testBit (7 - right).toNat = true

instance (m : Machine) (x y : Register) (height : Nat) (r : Fin 32) (c : Fin 64) :
    Decidable (m.Covers x y height r c) :=
  inferInstanceAs (Decidable (_ ∧ _ ∧ _))

variable {m : Machine} {x y : Register} {height : Nat}

/-- The bytes of a sprite, row by row. -/
theorem getElem?_sprite {a : Nat} (hindex : m.index = a) (hroom : a + height ≤ 4096) (k : Nat) :
    (Cells.slice m.memory m.index (m.index + height))[k]? =
      if k < height then some (m.byteAt (a + k)) else none := by
  have hend : (a : Int) + height = (a + height : Nat) := by omega
  rw [hindex, hend, m.slice_memory hroom]
  by_cases hk : k < height
  · simp [hk]
  · simp [hk]

/-- What is covered by the bytes of memory. -/
theorem covers_sprite_iff {a : Nat} (hindex : m.index = a) (hroom : a + height ≤ 4096) (r : Fin 32)
    (c : Fin 64) :
    Display.covers (m.register x).toNat (Cells.slice m.memory m.index (m.index + height))
      (m.register y).toNat r c = true ↔ m.Covers x y height r c := by
  obtain ⟨below, hbelow⟩ : ∃ k, Display.rowsBelow (m.register y).toNat r = k := ⟨_, rfl⟩
  obtain ⟨right, hright⟩ : ∃ k, Display.columnsRight (m.register x).toNat c = k := ⟨_, rfl⟩
  have hrow : ((r.val : Int) - m.value y) % 32 = below := by
    simp only [Display.rowsBelow] at hbelow
    simp only [value]
    omega
  have hcolumn : ((c.val : Int) - m.value x) % 64 = right := by
    simp only [Display.columnsRight] at hright
    simp only [value]
    omega
  have hplace : (m.index + below).toNat = a + below := by omega
  have hbit : (7 - (right : Int)).toNat = 7 - right := by omega
  have hnear : (right : Int) < 8 ↔ right < 8 := by omega
  rw [Display.covers, hbelow, getElem?_sprite hindex hroom, Covers, hrow, hcolumn, hplace, hbit]
  simp only [Display.getMsbD_pattern_eq, hright, Display.lit]
  by_cases hheight : below < height
  · simp [hheight, hnear]
  · simp [hheight]

/-- A sprite that ends within memory is drawn, and the flag says whether it met a lit pixel. -/
theorem drawSprite_of_within (h : m.index + height ≤ 4096) :
    let drawn := m.display.draw (m.register x).toNat
      (Cells.slice m.memory m.index (m.index + height)) (m.register y).toNat
    ∃ after, m.drawSprite x y height = done after ∧ after.display = drawn.1 ∧
      after.register flagRegister = (if drawn.2 then 1 else 0) ∧
      (∀ k, k ≠ flagRegister → after.register k = m.register k) ∧
      ∀ p : Part, p ≠ .display → p ≠ .registers → p.Same m after := by
  intro drawn
  have hroom : ¬memorySize < m.index + height := by
    simp only [memorySize]
    omega
  refine ⟨{ m with display := drawn.1 }.setRegister flagRegister (if drawn.2 then 1 else 0), ?_, rfl,
    register_setRegister_self _ _ _, ?_, ?_⟩
  · rw [drawSprite, if_neg hroom]
  · intro k hk
    exact register_setRegister_of_ne hk _ _
  · intro p hdisplay hregisters
    cases p <;> simp_all [Part.Same, setRegister]

/-- **Drawing, pixel by pixel.**  Within the bounds of the machine, a word `Dxyn` whose sprite ends within
memory is executed to its end, also where `x` or `y` is `F`.  A pixel is then the opposite of what it was
if the sprite covers it, and the same if not.  The flag register holds one if a pixel that was lit has been
covered, and so turned off, and zero otherwise.  Nothing else is different. -/
theorem drawn_pixels (hm : m.Bounded) (w : Int) (hop : (Fields.ofInt w).op.val = 0xD)
    (hroom : m.index + (Fields.ofInt w).n.val ≤ 4096) (source : RandomSource) :
    let f := Fields.ofInt w
    ∃ after, m.runWord w source = (done after, source) ∧
      (∀ r c, after.display.pixel r c =
        (m.display.pixel r c ^^ decide (m.Covers f.x f.y f.n.val r c))) ∧
      after.value flagRegister =
        (if ∃ r c, m.Covers f.x f.y f.n.val r c ∧ m.display.pixel r c = true then 1 else 0) ∧
      (∀ k, k ≠ flagRegister → after.register k = m.register k) ∧
      ∀ p : Part, p ≠ .display → p ≠ .registers → p.Same m after := by
  intro f
  have hword : ofWord? w = some (.draw f.x f.y f.n.val) := by
    have hmatches : (Instruction.draw f.x f.y f.n.val).Matches f := ⟨hop, rfl, rfl, rfl⟩
    exact ofFields?_eq_some_iff.mpr hmatches
  have hindex := hm.index
  obtain ⟨a, ha⟩ : ∃ a : Nat, m.index = a := ⟨m.index.toNat, by omega⟩
  have hwithin : m.index + f.n.val ≤ 4096 := hroom
  have hend : a + f.n.val ≤ 4096 := by omega
  have hlow : (Cells.slice m.memory m.index (m.index + f.n.val)).length ≤ 32 := by
    have hsum : (a : Int) + f.n.val = (a + f.n.val : Nat) := by omega
    have hheight := f.n.isLt
    rw [ha, hsum, Cells.length_slice m.memory a f.n.val hend]
    omega
  have hcovers (r : Fin 32) (c : Fin 64) := covers_sprite_iff (x := f.x) (y := f.y) ha hend r c
  obtain ⟨after, hdraw, hdisplay, hflag, hregisters, hparts⟩ :=
    drawSprite_of_within (x := f.x) (y := f.y) hwithin
  refine ⟨after, ?_, ?_, ?_, hregisters, hparts⟩
  · rw [runWord_of_some hword, Instruction.run, exec, hdraw]
    rfl
  · intro r c
    rw [hdisplay, Display.pixel_draw, Display.hits_eq_covers hlow, Display.bodd_toNat]
    congr 1
    rw [Bool.eq_iff_iff, decide_eq_true_iff]
    exact hcovers r c
  · have hhit := Display.draw_hit_iff (m.register f.x).toNat (m.register f.y).toNat hlow m.display
    simp only [hcovers] at hhit
    rw [value, hflag]
    simp only [hhit]
    split <;> rfl

/-- The glyph of zero, drawn over the lower right corner with its column in the flag register itself: it
comes in again at the top and on the left, and turns off the pixel that was lit. -/
theorem drawn_pixels_of_corner :
    let m := setRegister 0 30 (setRegister flagRegister 62 { display := Display.blank.set 30 1 })
    let f := Fields.ofInt 0xDF05
    m.Bounded ∧ f.op.val = 0xD ∧ m.index + f.n.val ≤ 4096 ∧
    ∃ after, (m.runWord 0xDF05 (.cycle #[])).1 = done after ∧ after.display.pixel 0 1 = true ∧
      after.display.pixel 30 63 = false ∧ after.value flagRegister = 1 := by
  intro m f
  have hm : m.Bounded := { bounded_new with }
  obtain ⟨after, hrun, hpixel, hflag, -⟩ :=
    drawn_pixels hm 0xDF05 (by decide) (by decide) (.cycle #[])
  have hround : m.Covers f.x f.y f.n.val 0 1 := by decide +kernel
  have hcorner : m.Covers f.x f.y f.n.val 30 63 := by decide +kernel
  have hlit : m.display.pixel 30 63 = true := by decide
  refine ⟨hm, by decide, by decide, after, congrArg Prod.fst hrun, ?_, ?_, ?_⟩
  · rw [hpixel, decide_eq_true hround]
    decide
  · rw [hpixel, decide_eq_true hcorner, hlit]
    rfl
  · rw [hflag, if_pos ⟨30, 63, hcorner, hlit⟩]

end Machine

end ChipEight
