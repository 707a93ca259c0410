import Mathlib.Algebra.BigOperators.Group.List.Basic
import Mathlib.Algebra.Ring.Nat
import Mathlib.Data.Nat.Bits
import ChipEight.Machine.Execution
import ChipEight.Proofs.Machine.Pixel

/-!
# Sprites cancel out

A bit of a sprite that is set flips the pixel on which it falls.  A sprite that is higher than the
display comes round its lower edge and can fall on a pixel several times, and several sprites can do so
in any case.  All that counts for a pixel is how many bits fall on it, and of that number only whether it
is odd: `Display.pixel_draw` for one sprite, `Machine.Draws.pixel` for a list of them.

That number is a sum, so it does not depend on the order in which sprites are drawn, and it is even when
each of them has been drawn twice.  `Machine.draws_commute_and_cancel` says this of the machine, which
reads the sprites from its own memory and their places from its registers.
-/

namespace ChipEight

namespace Display

/-- How many of the bits that a sprite sets fall on a pixel. -/
def hits (column : Nat) : List UInt8 → Nat → Fin 32 → Fin 64 → Nat
  | [], _, _, _ => 0
  | byte :: rest, row, r, c =>
    (decide (r = rowAt row) && (pattern byte column).getMsbD c).toNat + hits column rest (row + 1) r c

/-- One hit is an odd number of hits. -/
theorem bodd_toNat (b : Bool) : b.toNat.bodd = b := by
  cases b <;> rfl

/-- **A pixel is flipped by an odd number of hits.** -/
theorem pixel_draw (column : Nat) (sprite : List UInt8) (row : Nat) (d : Display) (r : Fin 32)
    (c : Fin 64) :
    (draw column sprite row d).1.pixel r c = (d.pixel r c ^^ (hits column sprite row r c).bodd) := by
  induction sprite generalizing row d with
  | nil => simp [draw, hits]
  | cons byte rest ih =>
    have hrow : pixel (d.set (rowAt row) (d.get (rowAt row) ^^^ pattern byte column)) r c =
        (d.pixel r c ^^ (decide (r = rowAt row) && (pattern byte column).getMsbD c)) := by
      rw [Cells.set_eq_setIfInBounds, pixel_set, BitVec.getMsbD_xor]
      by_cases hr : r = rowAt row
      · simp [hr, getMsbD_get]
      · simp [hr]
    have hrest := ih (row + 1) (d.set (rowAt row) (d.get (rowAt row) ^^^ pattern byte column))
    rw [hrow] at hrest
    rw [hits, Nat.bodd_add, bodd_toNat, ← Bool.xor_assoc]
    exact hrest

end Display

/-- A sprite that is to be drawn: where its bytes stand in memory, how many there are, and where its
upper left corner is to be. -/
structure DrawRequest where
  address : Nat
  height : Nat
  column : UInt8
  row : UInt8
  /-- All of its bytes are in memory. -/
  within : address + height ≤ memorySize

namespace DrawRequest

/-- How many bits that are set fall on a pixel, with the sprite read from a memory. -/
def hits (memory : Vector UInt8 4096) (q : DrawRequest) (r : Fin 32) (c : Fin 64) : Nat :=
  Display.hits q.column.toNat (Cells.slice memory q.address (q.address + q.height)) q.row.toNat r c

/-- How many bits of several sprites fall on a pixel. -/
def allHits (memory : Vector UInt8 4096) (requests : List DrawRequest) (r : Fin 32) (c : Fin 64) :
    Nat :=
  (requests.map fun q => q.hits memory r c).sum

variable {memory : Vector UInt8 4096} {requests more : List DrawRequest} {r : Fin 32} {c : Fin 64}

/-- The order of the sprites does not matter. -/
theorem allHits_perm (h : more.Perm requests) :
    allHits memory more r c = allHits memory requests r c :=
  (h.map _).sum_eq

theorem allHits_append :
    allHits memory (requests ++ more) r c = allHits memory requests r c + allHits memory more r c := by
  rw [allHits, List.map_append, List.sum_append]
  rfl

end DrawRequest

namespace Machine

/-- The machine stands ready to draw a sprite at the coordinates in two registers.  They are not `VF`,
which the drawing itself changes. -/
structure ReadyFor (q : DrawRequest) (x y : Register) (m : Machine) : Prop where
  unflagged : x ≠ flagRegister ∧ y ≠ flagRegister
  index : m.index = q.address
  column : m.register x = q.column
  row : m.register y = q.row

/-- Sprites are drawn one after the other.  To make ready for the next one, anything may be done to the
machine that leaves memory and the display alone. -/
inductive Draws : List DrawRequest → Machine → Machine → Prop
  | nil (m : Machine) : Draws [] m m
  | cons {q : DrawRequest} {rest : List DrawRequest} {m ready drawn after : Machine} {x y : Register}
      (hmemory : ready.memory = m.memory) (hdisplay : ready.display = m.display)
      (hready : ready.ReadyFor q x y) (hdraw : ready.drawSprite x y q.height = .done drawn)
      (hrest : Draws rest drawn after) : Draws (q :: rest) m after

variable {m n after : Machine} {q : DrawRequest} {x y : Register}

/-- A sprite for which the machine is ready is drawn, and memory stays as it is. -/
theorem drawSprite_of_ready (h : m.ReadyFor q x y) :
    ∃ drawn, m.drawSprite x y q.height = .done drawn ∧ drawn.memory = m.memory ∧
      drawn.display = (m.display.draw q.column.toNat
        (Cells.slice m.memory q.address (q.address + q.height)) q.row.toNat).1 := by
  have hwithin := q.within
  unfold drawSprite
  rw [h.index, h.column, h.row, if_neg (by omega)]
  exact ⟨_, rfl, rfl, rfl⟩

/-- The machine can be made ready for any sprite. -/
theorem exists_ready (q : DrawRequest) (m : Machine) :
    ∃ ready : Machine, ready.memory = m.memory ∧ ready.display = m.display ∧
      ready.ReadyFor q 0 1 := by
  refine ⟨{ (m.setRegister 0 q.column).setRegister 1 q.row with index := q.address }, rfl, rfl, ?_⟩
  refine ⟨by decide, rfl, ?_, ?_⟩
  · simp [register, setRegister]
  · simp [register, setRegister]

/-- So any list of sprites can be drawn. -/
theorem exists_draws (requests : List DrawRequest) (m : Machine) :
    ∃ after, Draws requests m after := by
  induction requests generalizing m with
  | nil => exact ⟨m, .nil m⟩
  | cons q rest ih =>
    obtain ⟨ready, hmemory, hdisplay, hready⟩ := exists_ready q m
    obtain ⟨drawn, hdraw, -, -⟩ := drawSprite_of_ready hready
    obtain ⟨after, hrest⟩ := ih drawn
    exact ⟨after, .cons hmemory hdisplay hready hdraw hrest⟩

/-- **A list of sprites flips the pixels on which an odd number of their bits falls.** -/
theorem Draws.pixel {requests : List DrawRequest} (h : Draws requests m after) (r : Fin 32)
    (c : Fin 64) :
    after.display.pixel r c =
      (m.display.pixel r c ^^ (DrawRequest.allHits m.memory requests r c).bodd) := by
  induction h with
  | nil m => simp [DrawRequest.allHits]
  | @cons q rest m ready drawn after x y hmemory hdisplay hready hdraw hrest ih =>
    obtain ⟨drawn', hdraw', hkept, hdrawn⟩ := drawSprite_of_ready hready
    cases hdraw.symm.trans hdraw'
    rw [hmemory] at hkept
    rw [hmemory, hdisplay] at hdrawn
    rw [ih, hkept, hdrawn, Display.pixel_draw, Bool.xor_assoc, ← Nat.bodd_add]
    rfl

/-- **Sprites commute, and cancel out.**  Any list of sprites can be drawn from any machine, however high
they are.  The display that comes out depends on memory and on the display before it, but not on the
order of the list.  Drawing the list and then the same sprites again, in any order, restores the display.
-/
theorem draws_commute_and_cancel (m : Machine) (requests : List DrawRequest) :
    (∃ after, Draws requests m after) ∧
    ∀ order, order.Perm requests →
      (∀ n after after', n.memory = m.memory → n.display = m.display →
        Draws requests m after → Draws order n after' → after'.display = after.display) ∧
      ∀ after, Draws (requests ++ order) m after → after.display = m.display := by
  refine ⟨exists_draws requests m, ?_⟩
  intro order horder
  constructor
  · intro n after after' hmemory hdisplay hdraws hdraws'
    apply Display.ext_pixel
    intro r c
    rw [hdraws.pixel, hdraws'.pixel, hmemory, hdisplay, DrawRequest.allHits_perm horder]
  · intro after hdraws
    apply Display.ext_pixel
    intro r c
    rw [hdraws.pixel, DrawRequest.allHits_append, DrawRequest.allHits_perm horder, Nat.bodd_add,
      Bool.xor_self, Bool.xor_false]

/-- The whole font as one sprite is higher than the display and comes round onto itself twice.  It is
drawn together with a glyph in either order.  A pixel in the corner is lit by three bits of the font, one
below by a bit of the glyph, and one on which three bits of the font and one of the glyph fall stays dark.
With both drawn once more, all pixels are dark. -/
theorem draws_commute_and_cancel_of_tall_sprite :
    let font : DrawRequest := ⟨0, 80, 60, 30, by decide⟩
    let glyph : DrawRequest := ⟨5, 5, 62, 28, by decide⟩
    (∃ after after', Draws [font, glyph] {} after ∧ Draws [glyph, font] {} after' ∧
      after'.display = after.display ∧ after.display.pixel 0 60 = true ∧
      after.display.pixel 28 0 = true ∧ after.display.pixel 0 63 = false) ∧
    ∃ after, Draws ([font, glyph] ++ [glyph, font]) {} after ∧ after.display = Display.blank := by
  intro font glyph
  have hswap : [glyph, font].Perm [font, glyph] := List.Perm.swap font glyph []
  obtain ⟨⟨after, hdraws⟩, hother⟩ := draws_commute_and_cancel {} [font, glyph]
  obtain ⟨⟨after', hdraws'⟩, -⟩ := draws_commute_and_cancel {} [glyph, font]
  obtain ⟨⟨last, htwice⟩, -⟩ := draws_commute_and_cancel {} ([font, glyph] ++ [glyph, font])
  obtain ⟨hsame, hrestored⟩ := hother [glyph, font] hswap
  refine ⟨⟨after, after', hdraws, hdraws', hsame {} after after' rfl rfl hdraws hdraws', ?_⟩, last,
    htwice, hrestored last htwice⟩
  simp only [hdraws.pixel]
  decide +kernel

end Machine

end ChipEight
