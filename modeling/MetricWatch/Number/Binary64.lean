import MetricWatch.Number.Magnitude

namespace MetricWatch

/-- Double precision numbers as exact values: a sign and a magnitude, infinity
included, or no number at all. Zero keeps its sign. -/
inductive Binary64 where
  | nan
  | number (negative : Bool) (magnitude : Magnitude)
deriving DecidableEq

namespace Binary64

def zero : Binary64 := .number false .zero

def infinity : Binary64 := .number false .infinity

def negativeInfinity : Binary64 := .number true .infinity

instance : Inhabited Binary64 := ⟨zero⟩

def signBit : Nat := 0x8000000000000000

/-! The interchange format: the top bit is the sign and the other 63 spell the
rank of the magnitude. Ranks beyond infinity are no numbers. -/

def ofBits (bits : Nat) : Binary64 :=
  let rank := bits % signBit
  if bounded : rank ≤ Magnitude.infinityRank then
    .number (decide (signBit ≤ bits)) ⟨rank, bounded⟩
  else
    .nan

def toBits? : Binary64 → Option Nat
  | .nan => none
  | .number negative magnitude => some ((if negative then signBit else 0) + magnitude.rank)

theorem ofBits_toBits? {value : Binary64} {bits : Nat} (written : value.toBits? = some bits) :
    ofBits bits = value := by
  cases value with
  | nan => simp [toBits?] at written
  | number negative magnitude =>
      have below : magnitude.rank < signBit :=
        Nat.lt_of_le_of_lt magnitude.bounded (by decide)
      simp only [toBits?, Option.some.injEq] at written
      subst written
      cases negative with
      | false =>
          have notSigned : ¬ signBit ≤ magnitude.rank := Nat.not_le.mpr below
          simp [ofBits, Nat.mod_eq_of_lt below, magnitude.bounded, notSigned]
      | true =>
          have remainder : (signBit + magnitude.rank) % signBit = magnitude.rank := by
            rw [Nat.add_mod_left, Nat.mod_eq_of_lt below]
          simp [ofBits, remainder, magnitude.bounded]

def isFinite : Binary64 → Bool
  | .nan => false
  | .number _ magnitude => !magnitude.isInfinite

def ofInt (value : Int) : Binary64 :=
  .number (decide (value < 0)) (Magnitude.ofNat value.natAbs)

def timesNat (factor : Nat) : Binary64 → Binary64
  | .nan => .nan
  | .number negative magnitude => .number negative (magnitude.timesNat factor)

/-- The whole number next to a finite value on the side of zero. -/
def truncated? : Binary64 → Option Int
  | .nan => none
  | .number negative magnitude =>
      if magnitude.isInfinite then none
      else if negative then some (-(magnitude.wholePart : Int))
      else some magnitude.wholePart

end Binary64

end MetricWatch
