/-!
Instants and spans of time. Both count whole nanoseconds: an instant from the
start of the clock in use, a span from its own beginning. An instant is a plain
number and not a clock, so a function that needs the present is given it.
-/
namespace DeploymentRouting

/-- Nanoseconds since the start of the clock. -/
abbrev Instant := Nat

/-- The last instant that a clock can show: 2^63 seconds less one nanosecond. -/
def Instant.last : Instant := 9223372036854775807999999999

/-- Nanoseconds between two instants. -/
abbrev Duration := Nat

namespace Duration

def ofMillis (count : Nat) : Duration := count * 1000000

def ofSeconds (count : Nat) : Duration := count * 1000000000

/-- The longest span that can be told: 2^64 seconds less one nanosecond. -/
def longest : Duration := 18446744073709551615999999999

/-- A span `factor` times as long, but never more than the longest one. -/
def scale (span : Duration) (factor : Nat) : Duration := min (span * factor) longest

/-- Whole seconds of a span. -/
def seconds (span : Duration) : Nat := span / 1000000000

/-- Nanoseconds of a span beyond its whole seconds. -/
def subsecond (span : Duration) : Nat := span % 1000000000

end Duration

/-! Counters of a fixed width. Most of them stop at their greatest value. -/
namespace Counter

/-- The greatest value of a 32-bit counter. -/
def top32 : Nat := 4294967295

/-- The greatest value of a 64-bit counter. -/
def top64 : Nat := 18446744073709551615

/-- Sum that stops at the greatest 32-bit value. -/
def add32 (a b : Nat) : Nat := min (a + b) top32

/-- Sum that stops at the greatest 64-bit value. -/
def add64 (a b : Nat) : Nat := min (a + b) top64

/-- What a 32-bit counter shows that begins anew after its greatest value. -/
def wrap32 (n : Nat) : Nat := n % (top32 + 1)

/-- What a 64-bit counter shows that begins anew after its greatest value. -/
def wrap64 (n : Nat) : Nat := n % (top64 + 1)

/-- A counter shows a number that it can hold. -/
theorem wrap32_eq_self {n : Nat} (hFits : n ≤ top32) : wrap32 n = n :=
  Nat.mod_eq_of_lt (Nat.lt_succ_of_le hFits)

/-- Counting on from what a counter shows is counting on from what was counted. -/
theorem wrap32_wrap32_add (a b : Nat) : wrap32 (wrap32 a + b) = wrap32 (a + b) :=
  Nat.mod_add_mod a (top32 + 1) b

theorem wrap32_add_congr {a b : Nat} (h : wrap32 a = wrap32 b) (c : Nat) :
    wrap32 (a + c) = wrap32 (b + c) := by
  rw [← wrap32_wrap32_add a, h, wrap32_wrap32_add]

/-- A counter shows zero after nothing, and again after each of its full rounds. -/
theorem wrap32_eq_zero_iff {n : Nat} : wrap32 n = 0 ↔ top32 + 1 ∣ n :=
  (Nat.dvd_iff_mod_eq_zero ..).symm

theorem add64_eq_add {a b : Nat} (hFits : a + b ≤ top64) : add64 a b = a + b :=
  Nat.min_eq_left hFits

end Counter

end DeploymentRouting
