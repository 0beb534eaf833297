import MetricWatch.Number.Binary64
import MetricWatch.Number.Decimal

namespace MetricWatch

/-! Elapsed time, shown in milliseconds with two decimals. The seconds and their
fraction are added up and multiplied in double precision, and only then the
decimals are rounded, halves going to the even one. -/

structure Elapsed where
  seconds : Nat
  nanoseconds : Nat
  bounded : nanoseconds < 1000000000

namespace Elapsed

def ofNanoseconds (nanoseconds : Nat) : Elapsed :=
  ⟨nanoseconds / 1000000000, nanoseconds % 1000000000, Nat.mod_lt _ (by decide)⟩

def inSeconds (elapsed : Elapsed) : Magnitude :=
  (Magnitude.ofNat elapsed.seconds).plus ((Magnitude.ofNat elapsed.nanoseconds).divNat 1000000000)

def inMilliseconds (elapsed : Elapsed) : Magnitude :=
  elapsed.inSeconds.timesNat 1000

def hundredths (magnitude : Magnitude) : Nat :=
  nearestQuotient (magnitude.units * 100) Magnitude.unitsPerOne

def decimals (hundredths : Nat) : List Char :=
  (decimalDigits (100 + hundredths % 100)).tail

/-- Milliseconds with two decimals. -/
def text (elapsed : Elapsed) : String :=
  let rounded := hundredths elapsed.inMilliseconds
  decimalText (rounded / 100) ++ "." ++ String.ofList (decimals rounded)

example : text ⟨1, 234567890, by decide⟩ = "1234.57" := by decide +kernel

end Elapsed

end MetricWatch
