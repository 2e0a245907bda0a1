import BrokerProbe.Metric.Key
import BrokerProbe.Proofs.Text.Quoted
import Mathlib.Data.List.Nodup
/-!
# Keys and their texts

The text of a key tells the key: no two metrics share an instrument by accident.
The scope of a partition tells the partition, unless a number is negative: its
sign may be taken for the end of a topic.
-/

namespace BrokerProbe

namespace Metric

namespace Key

theorem after?_append (front rest : List Char) : after? front (front ++ rest) = some rest := by
  simp [after?]

theorem decode?_encodeChars (key : Key) :
    decode? key.encodeChars = some (key.name.toList, key.scope.toList) := by
  have hrest : key.encodeChars = opening ++ (Text.quoteChars key.name.toList ++
      (separator ++ (Text.quoteChars key.scope.toList ++ (closing ++ [])))) := by
    simp [encodeChars]
  rw [hrest]
  simp [decode?, after?_append, Text.unquote?_quoteChars, -List.append_nil]

def heads : List (Role × Kind) :=
  Role.all.flatMap fun role =>
    [Kind.latency, .topicLatency, .partitionLatency, .availability].map fun kind => (role, kind)

theorem mem_heads (head : Role × Kind) : head ∈ heads := by
  rcases head with ⟨role, kind⟩
  cases role <;> cases kind <;> decide

theorem head_eq_of_name_eq {key other : Key} (h : key.name = other.name) :
    key.role = other.role ∧ key.kind = other.kind := by
  have hnodup : (heads.map fun head => head.1.title ++ "." ++ head.2.suffix).Nodup := by decide
  have heq := List.inj_on_of_nodup_map hnodup (mem_heads (key.role, key.kind))
    (mem_heads (other.role, other.kind)) h
  exact ⟨congrArg Prod.fst heq, congrArg Prod.snd heq⟩

theorem encode_injective : Function.Injective encode := by
  intro key other h
  have hchars : key.encodeChars = other.encodeChars := String.ofList_injective h
  have hdecoded := congrArg decode? hchars
  rw [decode?_encodeChars, decode?_encodeChars] at hdecoded
  simp only [Option.some.injEq, Prod.mk.injEq, String.toList_inj] at hdecoded
  rcases head_eq_of_name_eq hdecoded.1 with ⟨hrole, hkind⟩
  rcases key with ⟨role, kind, scope⟩
  rcases other with ⟨_, _, _⟩
  simp_all

end Key

end Metric

namespace Partition

theorem eq_of_append_dash {first second firstEnd secondEnd : List Char}
    (hfirst : '-' ∉ firstEnd) (hsecond : '-' ∉ secondEnd)
    (h : first ++ '-' :: firstEnd = second ++ '-' :: secondEnd) :
    first = second ∧ firstEnd = secondEnd := by
  have htake : forall front rest : List Char, '-' ∉ rest ->
      (front ++ '-' :: rest).reverse.takeWhile (fun c => c != '-') = rest.reverse := by
    intro front rest hrest
    have hall : forall c, c ∈ rest.reverse -> (c != '-') = true := by
      intro c hc
      simp only [bne_iff_ne]
      rintro rfl
      exact hrest (List.mem_reverse.mp hc)
    simp [List.takeWhile_append_of_pos hall]
  have hends : firstEnd = secondEnd := by
    apply List.reverse_injective
    rw [<- htake first firstEnd hfirst, h, htake second secondEnd hsecond]
  subst hends
  exact ⟨List.append_cancel_right h, rfl⟩

def stem (partition : Partition) : List Char :=
  if partition.number < 0 then partition.topic.toList ++ ['-'] else partition.topic.toList

theorem label_toList (partition : Partition) :
    partition.label.toList =
      partition.stem ++ '-' :: Nat.toDigits 10 partition.number.natAbs := by
  rcases partition with ⟨topic, number | number⟩
  · have hstem : ¬ (number : Int) < 0 := by omega
    have hnumber : toString (number : Int) = Nat.repr number := rfl
    simp [label, stem, hstem, hnumber, Nat.toList_repr]
  · have hnumber : toString (Int.negSucc number) = "-" ++ Nat.repr (number + 1) := rfl
    simp [label, stem, Int.negSucc_lt_zero, hnumber, Nat.toList_repr]

theorem label_eq_iff {first second : Partition} :
    first.label = second.label <->
      first.stem = second.stem ∧ first.number.natAbs = second.number.natAbs := by
  have hdigits : forall number, '-' ∉ Nat.toDigits 10 number := by
    intro number hdash
    have hdigit := Nat.isDigit_of_mem_toDigits (by decide) (by decide) hdash
    exact absurd hdigit (by decide)
  rw [<- String.toList_inj, label_toList, label_toList]
  constructor
  · intro h
    rcases eq_of_append_dash (hdigits _) (hdigits _) h with ⟨hstem, hnumber⟩
    have hvalue := congrArg (fun digits => Nat.ofDigitChars 10 digits 0) hnumber
    simp only [Nat.ofDigitChars_ten_toDigits] at hvalue
    exact ⟨hstem, hvalue⟩
  · rintro ⟨hstem, hnumber⟩
    rw [hstem, hnumber]

/--
Whether the sign of the first number can be taken for the end of the second
topic: the topics differ by a dash, and the numbers are opposites.
-/
def Mistakable (first second : Partition) : Prop :=
  exists topic number, 0 < number ∧ first = { topic, number := -number } ∧
    second = { topic := topic ++ "-", number }

theorem mistakable_iff {first second : Partition} :
    first.Mistakable second <->
      first.number < 0 ∧ 0 <= second.number ∧ first.label = second.label := by
  constructor
  · rintro ⟨topic, number, hnumber, rfl, rfl⟩
    refine ⟨by simpa using hnumber, Int.le_of_lt hnumber, label_eq_iff.mpr ⟨?_, Int.natAbs_neg _⟩⟩
    have hpositive : ¬ number < 0 := by omega
    simp [stem, hnumber, hpositive]
  · rintro ⟨hfirst, hsecond, hlabel⟩
    rcases label_eq_iff.mp hlabel with ⟨hstem, hnumber⟩
    rw [stem, stem, if_pos hfirst, if_neg (Int.not_lt.mpr hsecond)] at hstem
    rcases first with ⟨firstTopic, firstNumber⟩
    rcases second with ⟨secondTopic, secondNumber⟩
    have htopic : secondTopic = firstTopic ++ "-" := by
      rw [<- String.toList_inj, <- hstem]
      simp
    simp only at hnumber hfirst hsecond
    have hopposite : firstNumber = -secondNumber := by omega
    exact ⟨firstTopic, secondNumber, by omega, by rw [hopposite], by rw [htopic]⟩

theorem eq_of_label_eq_of_sign {first second : Partition}
    (hsign : first.number < 0 <-> second.number < 0) (h : first.label = second.label) :
    first = second := by
  rcases label_eq_iff.mp h with ⟨hstem, hnumber⟩
  rcases first with ⟨firstTopic, firstNumber⟩
  rcases second with ⟨secondTopic, secondNumber⟩
  simp only at hsign hnumber
  have htopic : firstTopic = secondTopic := by
    simp only [stem, hsign] at hstem
    split at hstem
    · exact String.toList_inj.mp (List.append_cancel_right hstem)
    · exact String.toList_inj.mp hstem
  have hequal : firstNumber = secondNumber := by omega
  rw [htopic, hequal]

theorem eq_of_label_eq {first second : Partition} (hfirst : 0 <= first.number)
    (hsecond : 0 <= second.number) (h : first.label = second.label) : first = second :=
  eq_of_label_eq_of_sign (by omega) h

theorem label_eq_iff_mistakable {first second : Partition} :
    first.label = second.label <->
      first = second ∨ first.Mistakable second ∨ second.Mistakable first := by
  rw [mistakable_iff, mistakable_iff]
  constructor
  · intro h
    by_cases hsign : first.number < 0 <-> second.number < 0
    · exact .inl (eq_of_label_eq_of_sign hsign h)
    · rcases Int.lt_or_le first.number 0 with hfirst | hfirst
      · exact .inr (.inl ⟨hfirst, by omega, h⟩)
      · exact .inr (.inr ⟨by omega, hfirst, h.symm⟩)
  · rintro (rfl | ⟨_, _, h⟩ | ⟨_, _, h⟩)
    · rfl
    · exact h
    · exact h.symm

end Partition

end BrokerProbe
