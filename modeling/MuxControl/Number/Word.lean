/-
MuxControl.Number.Word — the ranges of the fixed-width integers that
counters, sizes and ports are kept in.
-/

namespace MuxControl.Word

/-- The greatest number of 16 bits. -/
def max16 : Nat := 0xFFFF

/-- The greatest number of 31 bits, and so the greatest signed number of
32 bits. -/
def max31 : Nat := 0x7FFFFFFF

/-- The greatest number of 32 bits. -/
def max32 : Nat := 0xFFFFFFFF

/-- The greatest number of 63 bits, and so the greatest signed number of
64 bits. -/
def max63 : Nat := 0x7FFFFFFFFFFFFFFF

/-- The greatest number of 64 bits. -/
def max64 : Nat := 0xFFFFFFFFFFFFFFFF

end MuxControl.Word
