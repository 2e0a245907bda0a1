import BrokerProbe.Number.Precision
import BrokerProbe.Probe.Latency
/-!
# Quantiles

Samples are counted in buckets: one for each value below 2048, and above that
1024 for each power of two.  A quantile is found by adding up the counts until
its rank is reached; the answer is the largest value of that bucket.
-/

namespace BrokerProbe

namespace Metric

/-!
# Buckets
-/

namespace Bucket

def shift (value : Nat) : Nat :=
  value.log2 - 10

def index (value : Nat) : Nat :=
  if value < 2048 then value
  else 1024 * shift value + value >>> shift value

def top (index : Nat) : Nat :=
  if index < 2048 then index
  else
    let shift := index / 1024 - 1
    min ((index - 1024 * shift + 1) <<< shift) Latency.ceiling - 1

def counts (samples : List Nat) : Array Nat :=
  samples.foldl (fun table sample => table.modify (index sample) (· + 1))
    (Array.replicate (index (samples.foldl max 0) + 1) 0)

/-- The first bucket, from an index on, at which the counts add up to a rank. -/
def reach? (rank : Nat) : Nat -> List Nat -> Option Nat
  | _, [] => none
  | index, count :: rest =>
      if rank <= count then some index else reach? (rank - count) (index + 1) rest

end Bucket

/-!
# Levels
-/

/-- The share of samples at or below a quantile: a double, as a numerator over a power of two. -/
structure Level where
  numerator : Nat
  bits : Nat
  deriving DecidableEq, Repr

namespace Level

def p50 : Level := { numerator := 1, bits := 1 }

def p75 : Level := { numerator := 3, bits := 2 }

def p95 : Level := { numerator := 0x1E666666666666, bits := 53 }

def p99 : Level := { numerator := 0x1FAE147AE147AE, bits := 53 }

/--
The rank of a level among so many samples: their product as a double, rounded
up, and at least one.
-/
def rank (level : Level) (count : Nat) : Nat :=
  let product := Number.toPrecision Number.doubleBits (level.numerator * count)
  max 1 ((product + ((1 <<< level.bits) - 1)) >>> level.bits)

end Level

def quantile (counts : List Nat) (count : Nat) (level : Level) : Nat :=
  match Bucket.reach? (level.rank count) 0 counts with
  | some index => Bucket.top index
  | none => 0

end Metric

end BrokerProbe
