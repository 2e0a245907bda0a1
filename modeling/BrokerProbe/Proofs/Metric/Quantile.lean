import BrokerProbe.Metric.Statistics
import BrokerProbe.Proofs.Metric.Bucket
import BrokerProbe.Proofs.Number.Precision
import Mathlib.Algebra.BigOperators.Group.List.Basic
import Mathlib.Data.List.Sort
import Mathlib.Tactic.Ring
/-!
# Accuracy of quantiles

A quantile is meant to be the sample of some rank in ascending order.  It is
found among counts, so what is shown is the largest value of that sample's
bucket: the sample itself if it is small, and off by less than a part in 1024
otherwise.
-/

namespace BrokerProbe

namespace Metric

/-!
# Ranks
-/

namespace Level

variable {level lower higher : Level} {count : Nat}

theorem rank_le_iff {bound : Nat} :
    level.rank count <= bound <->
      1 <= bound ∧
        Number.toPrecision Number.doubleBits (level.numerator * count) <=
          bound * 2 ^ level.bits := by
  have hpos := Nat.two_pow_pos level.bits
  rw [rank, Nat.max_le, Nat.shiftRight_eq_div_pow, Nat.one_shiftLeft]
  refine and_congr_right fun _ => ?_
  rw [<- Nat.lt_succ_iff, Nat.div_lt_iff_lt_mul hpos, Nat.succ_mul]
  omega

theorem rank_pos (level : Level) (count : Nat) : 1 <= level.rank count :=
  Nat.le_max_left _ _

/-- Whether a level lies below the whole by more than rounding can make up for. -/
def Proper (level : Level) : Prop :=
  (2 ^ Number.doubleBits + 1) * level.numerator <= 2 ^ Number.doubleBits * 2 ^ level.bits

def Below (lower higher : Level) : Prop :=
  (2 ^ Number.doubleBits + 1) * lower.numerator * 2 ^ higher.bits <=
    (2 ^ Number.doubleBits - 1) * higher.numerator * 2 ^ lower.bits

instance (level : Level) : Decidable level.Proper :=
  inferInstanceAs (Decidable (_ <= _))

instance (lower higher : Level) : Decidable (lower.Below higher) :=
  inferInstanceAs (Decidable (_ <= _))

theorem Proper.rank_le (h : level.Proper) (hcount : 1 <= count) : level.rank count <= count := by
  have hnear := (Number.toPrecision_near Number.doubleBits (level.numerator * count)).1
  have hscale : 0 < 2 ^ Number.doubleBits := Nat.two_pow_pos _
  refine rank_le_iff.mpr ⟨hcount, Nat.le_of_mul_le_mul_left ?_ hscale⟩
  calc 2 ^ Number.doubleBits * Number.toPrecision Number.doubleBits (level.numerator * count)
      <= 2 ^ Number.doubleBits * (level.numerator * count) + level.numerator * count := hnear
    _ = (2 ^ Number.doubleBits + 1) * level.numerator * count := by ring
    _ <= 2 ^ Number.doubleBits * 2 ^ level.bits * count := Nat.mul_le_mul_right _ h
    _ = 2 ^ Number.doubleBits * (count * 2 ^ level.bits) := by ring

theorem Below.rank_le (h : lower.Below higher) (count : Nat) :
    lower.rank count <= higher.rank count := by
  have hlower := (Number.toPrecision_near Number.doubleBits (lower.numerator * count)).1
  have hhigher := (Number.toPrecision_near Number.doubleBits (higher.numerator * count)).2
  rcases rank_le_iff.mp (Nat.le_refl (higher.rank count)) with ⟨hpos, hreach⟩
  refine rank_le_iff.mpr ⟨hpos, ?_⟩
  generalize Number.toPrecision Number.doubleBits (lower.numerator * count) = low at hlower ⊢
  generalize Number.toPrecision Number.doubleBits (higher.numerator * count) = high
    at hhigher hreach
  generalize higher.rank count = rank at hreach ⊢
  have hless : (2 ^ Number.doubleBits - 1) * (higher.numerator * count) <=
      2 ^ Number.doubleBits * high := by
    rw [Nat.sub_mul, Nat.one_mul]
    omega
  have hscale : 0 < 2 ^ Number.doubleBits * 2 ^ higher.bits :=
    Nat.mul_pos (Nat.two_pow_pos _) (Nat.two_pow_pos _)
  refine Nat.le_of_mul_le_mul_left ?_ hscale
  calc 2 ^ Number.doubleBits * 2 ^ higher.bits * low
      = 2 ^ higher.bits * (2 ^ Number.doubleBits * low) := by ring
    _ <= 2 ^ higher.bits *
          (2 ^ Number.doubleBits * (lower.numerator * count) + lower.numerator * count) :=
        Nat.mul_le_mul_left _ hlower
    _ = (2 ^ Number.doubleBits + 1) * lower.numerator * 2 ^ higher.bits * count := by ring
    _ <= (2 ^ Number.doubleBits - 1) * higher.numerator * 2 ^ lower.bits * count :=
        Nat.mul_le_mul_right _ h
    _ = 2 ^ lower.bits * ((2 ^ Number.doubleBits - 1) * (higher.numerator * count)) := by ring
    _ <= 2 ^ lower.bits * (2 ^ Number.doubleBits * (rank * 2 ^ higher.bits)) :=
        Nat.mul_le_mul_left _ (Nat.le_trans hless (Nat.mul_le_mul_left _ hreach))
    _ = 2 ^ Number.doubleBits * 2 ^ higher.bits * (rank * 2 ^ lower.bits) := by ring

end Level

/-!
# Samples by rank
-/

/-- The sample of a rank when all stand in ascending order; the least one has rank one. -/
def ranked? (samples : List Nat) (rank : Nat) : Option Nat :=
  samples.mergeSort[rank - 1]?

theorem countP_of_pairwise {before after : List Nat} {sample : Nat}
    (h : (before ++ sample :: after).Pairwise fun first second => first <= second) :
    (before ++ sample :: after).countP (fun other => other < sample) <= before.length ∧
      before.length < (before ++ sample :: after).countP fun other => other <= sample := by
  rcases List.pairwise_append.mp h with ⟨_, hlater, hbefore⟩
  have hsample := (List.pairwise_cons.mp hlater).1
  constructor
  · have hnone : (sample :: after).countP (fun other => other < sample) = 0 := by
      rw [List.countP_eq_zero]
      intro other hother
      rcases List.mem_cons.mp hother with rfl | hafter
      · simp
      · simpa using hsample other hafter
    rw [List.countP_append, hnone]
    exact List.countP_le_length
  · have hall : before.countP (fun other => other <= sample) = before.length := by
      rw [List.countP_eq_length]
      intro other hother
      simpa using hbefore other hother sample List.mem_cons_self
    rw [List.countP_append, hall, List.countP_cons]
    simp

theorem countP_of_ranked? {samples : List Nat} {rank sample : Nat} (hrank : 1 <= rank)
    (h : ranked? samples rank = some sample) :
    samples.countP (fun other => other < sample) < rank ∧
      rank <= samples.countP fun other => other <= sample := by
  have hperm := samples.mergeSort_perm fun first second => decide (first <= second)
  rcases List.getElem?_eq_some_iff.mp h with ⟨hplace, rfl⟩
  have hsplit : samples.mergeSort = samples.mergeSort.take (rank - 1) ++
      samples.mergeSort[rank - 1] :: samples.mergeSort.drop (rank - 1 + 1) := by
    rw [<- List.drop_eq_getElem_cons hplace, List.take_append_drop]
  have hsorted :=
    List.pairwise_mergeSort' (fun first second => first <= second) samples
  rw [hsplit] at hsorted
  have hcounts := countP_of_pairwise hsorted
  rw [<- hsplit, hperm.countP_eq, hperm.countP_eq, List.length_take] at hcounts
  omega

/-!
# The bucket in which a rank is reached
-/

theorem Bucket.reach?_eq_some {counts : List Nat} {rank start place : Nat}
    (hbefore : (counts.take place).sum < rank)
    (hreach : rank <= (counts.take (place + 1)).sum) :
    reach? rank start counts = some (start + place) := by
  induction counts generalizing rank start place with
  | nil =>
      rw [List.take_nil] at hreach
      exact absurd hreach (Nat.not_le_of_lt (Nat.lt_of_le_of_lt (Nat.zero_le _) hbefore))
  | cons count rest ih =>
      cases place with
      | zero =>
          rw [reach?, if_pos (by simpa using hreach)]
          rfl
      | succ place =>
          rw [List.take_succ_cons, List.sum_cons] at hbefore hreach
          have hrest : reach? (rank - count) (start + 1) rest = some (start + 1 + place) :=
            ih (by omega) (by omega)
          rw [reach?, if_neg (by omega), hrest, Nat.add_right_comm, Nat.add_assoc]

/-!
# What is shown
-/

def percentile (samples : List Nat) (level : Level) : Nat :=
  quantile (Bucket.counts samples).toList samples.length level

variable {samples : List Nat} {level : Level}

theorem exists_ranked? {rank : Nat} (hpos : 1 <= rank) (hle : rank <= samples.length) :
    exists sample, ranked? samples rank = some sample ∧ sample ∈ samples := by
  have hplace : rank - 1 < samples.mergeSort.length := by
    rw [List.length_mergeSort]
    omega
  exact ⟨_, List.getElem?_eq_getElem hplace, List.mem_mergeSort.mp (List.getElem_mem hplace)⟩

/-- A percentile is the largest value in the bucket of the sample that has its rank. -/
theorem percentile_eq {sample : Nat}
    (h : ranked? samples (level.rank samples.length) = some sample) :
    percentile samples level = Bucket.ceil sample := by
  rcases countP_of_ranked? (level.rank_pos _) h with ⟨hbelow, hupto⟩
  have hbefore : (samples.countP fun other => Bucket.index other < Bucket.index sample) <=
      samples.countP fun other => other < sample := by
    apply List.countP_mono_left
    intro other _ hlt
    simp only [decide_eq_true_eq] at hlt ⊢
    by_contra hge
    exact Nat.not_lt_of_le (Bucket.index_mono (Nat.le_of_not_lt hge)) hlt
  have hreach : (samples.countP fun other => other <= sample) <=
      samples.countP fun other => Bucket.index other < Bucket.index sample + 1 := by
    apply List.countP_mono_left
    intro other _ hle
    simp only [decide_eq_true_eq] at hle ⊢
    exact Nat.lt_succ_of_le (Bucket.index_mono hle)
  have hplace : Bucket.reach? (level.rank samples.length) 0 (Bucket.counts samples).toList =
      some (0 + Bucket.index sample) := by
    apply Bucket.reach?_eq_some
    · rw [Bucket.sum_take_counts]
      exact Nat.lt_of_le_of_lt hbefore hbelow
    · rw [Bucket.sum_take_counts]
      exact Nat.le_trans hupto hreach
  rw [percentile, quantile, hplace, Nat.zero_add]
  rfl

theorem ranked?_mono {lower higher first second : Nat} (hpos : 1 <= lower) (hle : lower <= higher)
    (hfirst : ranked? samples lower = some first)
    (hsecond : ranked? samples higher = some second) : first <= second := by
  by_contra hlt
  have hbelow := (countP_of_ranked? hpos hfirst).1
  have hupto := (countP_of_ranked? (Nat.le_trans hpos hle) hsecond).2
  have hmore : (samples.countP fun other => other <= second) <=
      samples.countP fun other => other < first := by
    apply List.countP_mono_left
    intro other _ hother
    simp only [decide_eq_true_eq] at hother ⊢
    omega
  omega

/-- How near what is shown comes to a sample: less than a part in 1024 above it. -/
structure Near (sample shown : Nat) : Prop where
  eq_of_lt : sample < 2048 -> shown = sample
  le : sample <= shown
  lt : 2048 <= sample -> shown < sample + 2 ^ (sample.size - 11)
  excess_lt : 2048 <= sample -> shown - sample < sample / 1024

theorem size_eq {sample : Nat} (h : 2048 <= sample) :
    sample.size - 11 = Bucket.shift sample := by
  have hne : sample ≠ 0 := by omega
  have hsize : sample.size = sample.log2 + 1 :=
    Nat.le_antisymm (Nat.size_le.mpr Nat.lt_log2_self)
      (Nat.lt_size.mpr (Nat.log2_self_le hne))
  rw [hsize, Bucket.shift]
  omega

theorem near_ceil {sample : Nat} (h : sample < 2 ^ 63) : Near sample (Bucket.ceil sample) where
  eq_of_lt := Bucket.ceil_of_lt
  le := Bucket.le_ceil h
  lt := by
    intro hlarge
    rw [size_eq hlarge]
    exact (Bucket.ceil_bounds hlarge h).2
  excess_lt := by
    intro hlarge
    have hbounds := Bucket.ceil_bounds hlarge h
    have hpow := (Bucket.two_pow_le hlarge).1
    rw [Nat.pow_add] at hpow
    have hpart : 2 ^ Bucket.shift sample <= sample / 1024 :=
      (Nat.le_div_iff_mul_le (by decide)).mpr hpow
    omega

def Meets (samples : List Nat) (level : Level) (shown : Nat) : Prop :=
  exists sample, ranked? samples (level.rank samples.length) = some sample ∧ sample ∈ samples ∧
    Near sample shown

theorem Meets.pos {shown : Nat} (h : Meets samples level shown)
    (hpos : forall sample, sample ∈ samples -> 0 < sample) : 0 < shown := by
  rcases h with ⟨sample, _, hmem, hnear⟩
  exact Nat.lt_of_lt_of_le (hpos sample hmem) hnear.le

variable {lower higher : Level}

theorem meets_percentile (hne : samples ≠ [])
    (hlt : forall sample, sample ∈ samples -> sample < 2 ^ 63) (hproper : level.Proper) :
    Meets samples level (percentile samples level) := by
  have hrank := hproper.rank_le (List.length_pos_iff.mpr hne)
  rcases exists_ranked? (level.rank_pos _) hrank with ⟨sample, hsample, hmem⟩
  rw [percentile_eq hsample]
  exact ⟨sample, hsample, hmem, near_ceil (hlt sample hmem)⟩

theorem percentile_mono (hne : samples ≠ [])
    (hlt : forall sample, sample ∈ samples -> sample < 2 ^ 63) (hbelow : lower.Below higher)
    (hproper : higher.Proper) : percentile samples lower <= percentile samples higher := by
  have hrank := hproper.rank_le (List.length_pos_iff.mpr hne)
  have hle := hbelow.rank_le samples.length
  rcases exists_ranked? (lower.rank_pos _) (Nat.le_trans hle hrank) with ⟨first, hfirst, _⟩
  rcases exists_ranked? (higher.rank_pos _) hrank with ⟨second, hsecond, hmem⟩
  rw [percentile_eq hfirst, percentile_eq hsecond]
  exact Bucket.ceil_mono (ranked?_mono (lower.rank_pos _) hle hfirst hsecond) (hlt second hmem)

theorem percentile_perm {other : List Nat} (hperm : other.Perm samples) (hne : samples ≠ [])
    (hproper : level.Proper) : percentile other level = percentile samples level := by
  have hlength := hperm.length_eq
  have hrank := hproper.rank_le (List.length_pos_iff.mpr hne)
  have hsorted : other.mergeSort = samples.mergeSort :=
    List.Perm.eq_of_pairwise (fun _ _ _ _ => Nat.le_antisymm) (List.pairwise_mergeSort' _ other)
      (List.pairwise_mergeSort' _ samples)
      ((List.mergeSort_perm other _).trans (hperm.trans (List.mergeSort_perm samples _).symm))
  rcases exists_ranked? (level.rank_pos _) hrank with ⟨sample, hsample, _⟩
  have hother : ranked? other (level.rank other.length) = some sample := by
    rw [ranked?, hsorted, hlength]
    exact hsample
  rw [percentile_eq hsample, percentile_eq hother]

/-!
# Statistics
-/

theorem Statistics.ofSamples_eq (h : samples ≠ []) :
    ofSamples samples =
      { count := samples.length
        min := samples.min?.getD 0
        max := samples.max?.getD 0
        mean := ratio samples.sum samples.length
        p50 := percentile samples .p50
        p75 := percentile samples .p75
        p95 := percentile samples .p95
        p99 := percentile samples .p99 } := by
  cases samples with
  | nil => exact absurd rfl h
  | cons sample rest =>
      rw [ofSamples, List.min?_cons', List.max?_cons', List.sum_eq_foldl]
      rfl

theorem Statistics.ofSamples_perm {other : List Nat} (h : other.Perm samples) :
    ofSamples other = ofSamples samples := by
  rcases Decidable.em (samples = []) with rfl | hne
  · rw [h.eq_nil]
  have hother : other ≠ [] := by
    rintro rfl
    exact hne h.symm.eq_nil
  have hmin : other.min? = samples.min? :=
    Option.ext fun least => by simp only [List.min?_eq_some_iff, h.mem_iff]
  have hmax : other.max? = samples.max? :=
    Option.ext fun greatest => by simp only [List.max?_eq_some_iff, h.mem_iff]
  rw [ofSamples_eq hother, ofSamples_eq hne, h.length_eq, hmin, hmax, h.sum_eq,
    percentile_perm h hne (by decide), percentile_perm h hne (by decide),
    percentile_perm h hne (by decide), percentile_perm h hne (by decide)]

/-- How true the figures of some samples are, and what they depend on. -/
structure Accurate (samples : List Nat) (shown : Statistics) : Prop where
  p50 : Meets samples .p50 shown.p50
  p75 : Meets samples .p75 shown.p75
  p95 : Meets samples .p95 shown.p95
  p99 : Meets samples .p99 shown.p99
  least : samples.min? = some shown.min
  greatest : samples.max? = some shown.max
  min_le_p50 : shown.min <= shown.p50
  p50_le_p75 : shown.p50 <= shown.p75
  p75_le_p95 : shown.p75 <= shown.p95
  p95_le_p99 : shown.p95 <= shown.p99
  p99_lt : shown.p99 < shown.max + max 1 (shown.max / 1024)
  unordered : forall other : List Nat, other.Perm samples ->
    Statistics.ofSamples other = shown
  pos : (forall sample, sample ∈ samples -> 0 < sample) ->
    0 < shown.p50 ∧ 0 < shown.p75 ∧ 0 < shown.p95 ∧ 0 < shown.p99

theorem Near.lt_of_le {sample shown greatest : Nat} (h : Near sample shown)
    (hle : sample <= greatest) : shown < greatest + max 1 (greatest / 1024) := by
  rcases Nat.lt_or_ge sample 2048 with hsmall | hlarge
  · rw [h.eq_of_lt hsmall]
    omega
  · have hexcess := h.excess_lt hlarge
    omega

/-- However a window came by its samples, its figures are accurate. -/
theorem accurate_ofSamples {samples : List Nat} (hne : samples ≠ [])
    (hlt : forall sample, sample ∈ samples -> sample < 2 ^ 63) :
    Accurate samples (Statistics.ofSamples samples) := by
  have hmeets : forall {level : Level}, level.Proper ->
      Meets samples level (percentile samples level) := meets_percentile hne hlt
  have h50_75 : percentile samples .p50 <= percentile samples .p75 :=
    percentile_mono hne hlt (by decide) (by decide)
  have h75_95 : percentile samples .p75 <= percentile samples .p95 :=
    percentile_mono hne hlt (by decide) (by decide)
  have h95_99 : percentile samples .p95 <= percentile samples .p99 :=
    percentile_mono hne hlt (by decide) (by decide)
  have hshown := Statistics.ofSamples_eq hne
  rcases hmin : samples.min? with _ | least
  · exact absurd (List.min?_eq_none_iff.mp hmin) hne
  rcases hmax : samples.max? with _ | greatest
  · exact absurd (List.max?_eq_none_iff.mp hmax) hne
  rw [hmin, hmax] at hshown
  rcases @hmeets .p50 (by decide) with ⟨median, _, hmedian, hnear⟩
  rcases @hmeets .p99 (by decide) with ⟨last, _, hlast, hnearLast⟩
  have hleast := (List.min?_eq_some_iff.mp hmin).2 median hmedian
  have hgreatest := (List.max?_eq_some_iff.mp hmax).2 last hlast
  rw [hshown]
  exact
    { p50 := hmeets (by decide)
      p75 := hmeets (by decide)
      p95 := hmeets (by decide)
      p99 := hmeets (by decide)
      least := hmin
      greatest := hmax
      min_le_p50 := Nat.le_trans hleast hnear.le
      p50_le_p75 := h50_75
      p75_le_p95 := h75_95
      p95_le_p99 := h95_99
      p99_lt := hnearLast.lt_of_le hgreatest
      unordered := fun _ hperm => (Statistics.ofSamples_perm hperm).trans hshown
      pos := fun hpos =>
        ⟨(hmeets (by decide)).pos hpos, (hmeets (by decide)).pos hpos,
          (hmeets (by decide)).pos hpos, (hmeets (by decide)).pos hpos⟩ }

theorem accurate_ofSamples_coarse :
    [3000, 5, 2050] ≠ [] ∧
      (forall sample, sample ∈ [3000, 5, 2050] -> sample < 2 ^ 63) ∧
      (Statistics.ofSamples [3000, 5, 2050]).p50 = 2051 ∧
      (Statistics.ofSamples [3000, 5, 2050]).p99 = 3001 ∧
      Accurate [3000, 5, 2050] (Statistics.ofSamples [3000, 5, 2050]) :=
  ⟨by decide, by decide, by decide +kernel, by decide +kernel,
    accurate_ofSamples (by decide) (by decide)⟩

end Metric

end BrokerProbe
