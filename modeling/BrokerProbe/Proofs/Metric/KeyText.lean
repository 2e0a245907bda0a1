import BrokerProbe.Proofs.Json.Unambiguous
import BrokerProbe.Proofs.Metric.Traffic
/-!
# What the text of a key says

The text of a key is a JSON object of the name and the scope, whatever characters
they hold, and no other value.  So keys are told by their texts, and partitions by
the texts of their keys as long as no number is negative.
-/

namespace BrokerProbe

namespace Metric

namespace Key

def labels (name scope : String) : Json :=
  .object [(Text.utf16 "name", .ofText name), (Text.utf16 "tag", .ofText scope)]

theorem labels_inj {name scope otherName otherScope : String} :
    labels name scope = labels otherName otherScope <->
      name = otherName ∧ scope = otherScope := by
  simp [labels, Json.ofText, Text.utf16_injective.eq_iff]

theorem writtenAs_encode (key : Key) : (labels key.name key.scope).WrittenAs key.encode := by
  have hwritten := Json.writtenAs_object Prod.fst (fun member => Json.ofText member.2)
    (fun member => Text.quoteChars member.2.toList)
    (fun member rest => Json.reads_quoteChars member.2 rest)
    ("name", key.name) [("tag", key.scope)]
  have hopening : opening = '{' :: Text.quoteChars "name".toList ++ [':'] := by decide
  have hseparator : separator = ',' :: Text.quoteChars "tag".toList ++ [':'] := by decide
  have hclosing : closing = ['}'] := by decide
  have hchars : key.encodeChars = '{' :: List.intercalate [',']
      ([("name", key.name), ("tag", key.scope)].map fun member =>
        Text.quoteChars member.1.toList ++ ':' :: Text.quoteChars member.2.toList) ++ ['}'] := by
    simp [encodeChars, hopening, hseparator, hclosing, List.intercalate_cons_cons]
  rw [encode, hchars]
  exact hwritten

theorem writtenAs_encode_iff {key : Key} {json : Json} :
    json.WrittenAs key.encode <-> json = labels key.name key.scope := by
  constructor
  · exact fun h => h.unique key.writtenAs_encode
  · rintro rfl
    exact key.writtenAs_encode

theorem encode_partition_eq_iff {role : Role} {first second : Partition} :
    (partition role first).encode = (partition role second).encode <->
      first.label = second.label := by
  rw [encode_injective.eq_iff]
  simp [partition]

structure Identifies (encode : Key -> String) : Prop where
  keys : forall key other, encode key = encode other <-> key = other
  object : forall key json, json.WrittenAs (encode key) <-> json = labels key.name key.scope
  reading : forall key name scope, (labels name scope).WrittenAs (encode key) <->
    name = key.name ∧ scope = key.scope
  /-- Partitions have the text of their key in common if one can be mistaken for the other. -/
  partitions : forall role first second,
    encode (partition role first) = encode (partition role second) <->
      first = second ∨ first.Mistakable second ∨ second.Mistakable first
  /-- Partitions with numbers from zero share no window: what is asked of one leaves the other. -/
  windows : forall role first second, 0 <= first.number -> 0 <= second.number ->
    first ≠ second -> encode (partition role first) ≠ encode (partition role second) ∧
      forall (question : Question) (space : Space),
        question.key? = some (encode (partition role first)) ->
        (space.reply question).2.registry.get? (encode (partition role second)) =
          space.registry.get? (encode (partition role second))

theorem identifies_encode : Identifies encode where
  keys _ _ := encode_injective.eq_iff
  object _ _ := writtenAs_encode_iff
  reading _ _ _ := writtenAs_encode_iff.trans labels_inj
  partitions _ _ _ := encode_partition_eq_iff.trans Partition.label_eq_iff_mistakable
  windows role first second hfirst hsecond hne := by
    have hencode : (partition role first).encode ≠ (partition role second).encode := by
      rw [ne_eq, encode_partition_eq_iff]
      exact fun h => hne (Partition.eq_of_label_eq hfirst hsecond h)
    refine ⟨hencode, fun question space hkey => ?_⟩
    rw [Space.get?_reply, Question.effectAt, hkey, if_neg (by simpa using hencode)]

/-- Dashes and digits in a topic do no harm, the sign of a number does. -/
theorem identifies_encode_dashes :
    (partition .consumer { topic := "logs-1", number := 2 }).encode ≠
        (partition .consumer { topic := "logs", number := 12 }).encode ∧
      (partition .consumer { topic := "logs", number := -2 }).encode =
        (partition .consumer { topic := "logs-", number := 2 }).encode :=
  ⟨(identifies_encode.windows _ _ _ (by decide) (by decide) (by decide)).1,
    (identifies_encode.partitions _ _ _).mpr (.inr (.inl ⟨"logs", 2, by decide, rfl, rfl⟩))⟩

end Key

end Metric

end BrokerProbe
