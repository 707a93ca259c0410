/-!
# Random bytes

The machine draws its random bytes from a source outside it: an endless sequence of bytes, of
which some have been handed out.
-/

namespace ChipEight

/-- An endless sequence of bytes and how many of them have been handed out. -/
structure RandomSource where
  bytes : Nat → UInt8
  drawn : Nat := 0

namespace RandomSource

/-- The byte that is handed out next. -/
def next (r : RandomSource) : UInt8 :=
  r.bytes r.drawn

/-- The source after its next byte has been handed out. -/
def advance (r : RandomSource) : RandomSource :=
  { r with drawn := r.drawn + 1 }

/-- The given bytes over and over; zeros if none are given. -/
def cycle (bytes : Array UInt8) : RandomSource where
  bytes k := bytes.getD (k % bytes.size) 0

end RandomSource

end ChipEight
