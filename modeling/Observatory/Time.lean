/-!
# Time

Durations and instants in whole nanoseconds. A clock counts its seconds in a signed word of 64
bits, so an instant further ahead than that has no representation.
-/

namespace Observatory

/-- A duration in nanoseconds. -/
abbrev Duration := Nat

/-- The nanoseconds since the start of the clock. -/
abbrev Instant := Nat

namespace Duration

def ofSeconds (s : Nat) : Duration := s * 1000000000

def ofMillis (ms : Nat) : Duration := ms * 1000000

def millis (d : Duration) : Nat := d / 1000000

end Duration

namespace Instant

/-- What has passed since an earlier instant; nothing, if that lies ahead. -/
def since (now earlier : Instant) : Duration := now - earlier

/-- The seconds that a clock can count. -/
def secondsBound : Nat := 9223372036854775808

/-- The instant after a duration, if the clock can count that far. -/
def after? (now : Instant) (d : Duration) : Option Instant :=
  if (now + d) / 1000000000 < secondsBound then some (now + d) else none

end Instant

end Observatory
