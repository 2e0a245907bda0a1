import BrokerProbe.Metric.Quantile
/-!
# Statistics

The figures that sum up the samples of a window.
-/

namespace BrokerProbe

namespace Metric

structure Statistics where
  count : Nat
  min : Nat
  max : Nat
  mean : Float
  p50 : Nat
  p75 : Nat
  p95 : Nat
  p99 : Nat
  deriving Inhabited

namespace Statistics

/-- The quotient of two numbers, each of them first rounded to a double. -/
def ratio (numerator denominator : Nat) : Float :=
  Float.ofNat (Number.toPrecision Number.doubleBits numerator) /
    Float.ofNat (Number.toPrecision Number.doubleBits denominator)

def none : Statistics :=
  { count := 0, min := 0, max := 0, mean := 0, p50 := 0, p75 := 0, p95 := 0, p99 := 0 }

def ofSamples : List Nat -> Statistics
  | [] => none
  | sample :: rest =>
      let samples := sample :: rest
      let count := samples.length
      let counts := (Bucket.counts samples).toList
      { count
        min := rest.foldl Nat.min sample
        max := rest.foldl Nat.max sample
        mean := ratio (samples.foldl (· + ·) 0) count
        p50 := quantile counts count .p50
        p75 := quantile counts count .p75
        p95 := quantile counts count .p95
        p99 := quantile counts count .p99 }

end Statistics

def availability (tries failures : Nat) : Option Float :=
  if tries = 0 then none else some (Statistics.ratio (tries - failures) tries)

end Metric

end BrokerProbe
