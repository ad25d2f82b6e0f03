/-!
# Durations

A duration is a number of nanoseconds whose whole seconds fit in 64 bits.
-/

namespace ContainerArgs

def nanosPerSecond : Nat := 1000000000

def secondsBound : Nat := Nat.pow 2 64

/-- A length of time. -/
structure Duration where
  nanos : Nat
  nanos_lt : nanos < secondsBound * nanosPerSecond
deriving DecidableEq, Repr

namespace Duration

/-- No time at all. -/
def zero : Duration := ⟨0, by decide⟩

instance : Inhabited Duration := ⟨zero⟩

/-- The duration of a number of nanoseconds, if it is in range. -/
def ofNanos? (n : Nat) : Option Duration :=
  if h : n < secondsBound * nanosPerSecond then some ⟨n, h⟩ else none

def ofSeconds (n : UInt64) : Duration :=
  ⟨n.toNat * nanosPerSecond, Nat.mul_lt_mul_of_pos_right n.toNat_lt (by decide)⟩

def ofMillis (n : UInt64) : Duration :=
  ⟨n.toNat * 1000000, Nat.mul_lt_mul_of_lt_of_lt n.toNat_lt (by decide)⟩

def seconds (d : Duration) : Nat :=
  d.nanos / nanosPerSecond

/-- The nanoseconds beyond the whole seconds. -/
def subsecond (d : Duration) : Nat :=
  d.nanos % nanosPerSecond

/-- Whether the duration is no time at all. -/
def isZero (d : Duration) : Bool :=
  d.nanos == 0

end Duration

end ContainerArgs
