/-
Simulated time, in whole nanoseconds.

An instant is a distance from the start of the clock. The clock is driven from outside and can move forward only as
far as instants reach; everything else that depends on time takes the current instant as an argument, so two engines
that are given the same instant are on the same clock.
-/
import RoutingReplay.Text.Numeral

namespace RoutingReplay

/-- a length of time -/
structure Duration where
  nanos : Nat
  deriving DecidableEq, Repr, Inhabited

namespace Duration

def ofSeconds (n : Nat) : Duration := ⟨n * 1000000000⟩

def ofMillis (n : Nat) : Duration := ⟨n * 1000000⟩

/-- the whole seconds -/
def seconds (d : Duration) : Nat := d.nanos / 1000000000

/-- what is left beyond the whole seconds, in nanoseconds -/
def subsecond (d : Duration) : Nat := d.nanos % 1000000000

/-- seconds with nine decimals -/
def write (d : Duration) : List Char :=
  Text.writeDecimal d.seconds ++ '.' :: Text.writePadded 9 d.subsecond

end Duration

/-- what ends a run at once: a time that no instant and no duration can hold -/
inductive Fault where
  | timeOutOfRange
  deriving DecidableEq, Repr

/-- a point in time, as its distance from the start of the clock -/
structure Instant where
  sinceStart : Duration
  deriving DecidableEq, Repr, Inhabited

namespace Instant

/-- the start of the clock -/
def start : Instant := ⟨⟨0⟩⟩

/-- the first number of whole seconds that no instant reaches: two to the power 63 -/
def range : Nat := 0x8000000000000000

/-- a later instant, without regard to the range -/
def later (t : Instant) (d : Duration) : Instant := ⟨⟨t.sinceStart.nanos + d.nanos⟩⟩

/-- a later instant; it is a fault to leave the range -/
def advance (t : Instant) (d : Duration) : Except Fault Instant :=
  if (t.later d).sinceStart.seconds < range then .ok (t.later d) else .error .timeOutOfRange

/-- the time from an earlier instant, or none at all if it is not earlier -/
def since (now earlier : Instant) : Duration := ⟨now.sinceStart.nanos - earlier.sinceStart.nanos⟩

/-- no later than -/
instance : LE Instant := ⟨fun a b => a.sinceStart.nanos ≤ b.sinceStart.nanos⟩

instance decidableLE (a b : Instant) : Decidable (a ≤ b) := Nat.decLe _ _

theorem le_refl (t : Instant) : t ≤ t := Nat.le_refl _

theorem le_trans {a b c : Instant} (hab : a ≤ b) (hbc : b ≤ c) : a ≤ c := Nat.le_trans hab hbc

theorem le_of_advance {t now : Instant} {d : Duration} (h : t.advance d = .ok now) : t ≤ now := by
  unfold advance at h
  split at h
  · exact Except.ok.inj h ▸ Nat.le_add_right _ _
  · cases h

end Instant

end RoutingReplay
