/-!
# Limits

How far the evaluation of one request may go before it is given up, and the
memory that a request of that depth asks for.
-/

namespace Calculator

/-- The limits of evaluation: function bodies that may be active at once, and
expressions that may be nested, counted over all active bodies. -/
structure Limits where
  maximumCallDepth : Nat := 10000
  maximumNesting : Nat := 50000
  deriving DecidableEq

namespace Limits

/-- The limits that hold unless others are given. -/
def standard : Limits := {}

/-- The greatest size that can be asked for. -/
def maximumSize : Nat := UInt64.size - 1

/-- The bytes asked for at every level of nesting. -/
def bytesPerLevel : Nat := 4 * 1024

/-- The bytes asked for besides. -/
def bytesBesides : Nat := 16 * 1024 * 1024

/-- The bytes that a request asks for; both steps stop at the greatest size. -/
def stackSize (limits : Limits) : Nat :=
  min (min (limits.maximumNesting * bytesPerLevel) maximumSize + bytesBesides)
    maximumSize

/-- An address space of 47 bits has room for so many bytes. -/
def addressable (bytes : Nat) : Bool :=
  bytes < 128 * 1024 * 1024 * 1024 * 1024

end Limits
end Calculator
