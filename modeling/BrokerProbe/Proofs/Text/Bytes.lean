import Mathlib.Data.String.Basic
/-!
# Texts in the order of their bytes

Texts are compared character by character.  The encoding of characters in one to
four bytes keeps their order, so comparing the bytes of two texts comes to the
same.
-/

namespace BrokerProbe

namespace Text

def bytes (text : String) : List UInt8 :=
  text.toUTF8.data.toList

theorem bytes_eq_flatMap (text : String) :
    bytes text = text.toList.flatMap String.utf8EncodeChar := by
  rw [bytes, String.toUTF8, <- String.utf8Encode_toList, List.utf8Encode,
    List.toList_data_toByteArray]

theorem byte_cons_lt {first second : Nat} {rest later : List UInt8} (hle : first <= second)
    (hsecond : second < 256) (h : first = second -> rest < later) :
    UInt8.ofNat first :: rest < UInt8.ofNat second :: later := by
  rw [List.cons_lt_cons_iff]
  rcases Nat.lt_or_eq_of_le hle with hlt | heq
  · left
    rw [UInt8.lt_iff_toNat_lt, UInt8.toNat_ofNat_of_lt' (Nat.lt_trans hlt hsecond),
      UInt8.toNat_ofNat_of_lt' hsecond]
    exact hlt
  · exact .inr ⟨congrArg _ heq, h heq⟩

theorem utf8EncodeChar_lt {c d : Char} (h : c < d) (rest later : List UInt8) :
    String.utf8EncodeChar c ++ rest < String.utf8EncodeChar d ++ later := by
  have hlt : c.val.toNat < d.val.toNat := h
  have hmax : d.val.toNat < 1114112 := by
    have hvalid := d.valid
    simp only [UInt32.isValidChar, Nat.isValidChar] at hvalid
    omega
  simp only [String.utf8EncodeChar]
  generalize c.val.toNat = v at hlt
  generalize d.val.toNat = w at hlt hmax
  split_ifs
  all_goals first
    | omega
    | exact byte_cons_lt (by omega) (by omega) fun _ => by omega
    | skip
  · refine byte_cons_lt (by omega) (by omega) fun _ => ?_
    exact byte_cons_lt (by omega) (by omega) fun _ => by omega
  · refine byte_cons_lt (by omega) (by omega) fun _ => ?_
    refine byte_cons_lt (by omega) (by omega) fun _ => ?_
    exact byte_cons_lt (by omega) (by omega) fun _ => by omega
  · refine byte_cons_lt (by omega) (by omega) fun _ => ?_
    refine byte_cons_lt (by omega) (by omega) fun _ => ?_
    refine byte_cons_lt (by omega) (by omega) fun _ => ?_
    exact byte_cons_lt (by omega) (by omega) fun _ => by omega

theorem flatMap_utf8EncodeChar_lt {first second : List Char} (h : first < second) :
    first.flatMap String.utf8EncodeChar < second.flatMap String.utf8EncodeChar := by
  induction first generalizing second with
  | nil =>
      cases second with
      | nil => cases h
      | cons d later =>
          obtain ⟨byte, bytes, hbytes⟩ :=
            List.exists_cons_of_ne_nil (String.utf8EncodeChar_ne_nil (c := d))
          rw [List.flatMap_cons, hbytes]
          exact List.nil_lt_cons _ _
  | cons c rest ih =>
      cases second with
      | nil => cases h
      | cons d later =>
          rw [List.flatMap_cons, List.flatMap_cons]
          rcases List.cons_lt_cons_iff.mp h with hlt | ⟨rfl, hlt⟩
          · exact utf8EncodeChar_lt hlt _ _
          · exact List.append_left_lt (ih hlt)

/-- Texts are in the order of their bytes. -/
theorem bytes_lt_iff {first second : String} : bytes first < bytes second <-> first < second := by
  have hbytes : forall {first second : String}, first < second -> bytes first < bytes second := by
    intro first second h
    rw [bytes_eq_flatMap, bytes_eq_flatMap]
    exact flatMap_utf8EncodeChar_lt (String.lt_iff_toList_lt.mp h)
  refine ⟨fun h => ?_, hbytes⟩
  by_contra hnot
  by_cases heq : second = first
  · exact List.lt_irrefl _ (heq ▸ h)
  · exact List.lt_asymm h (hbytes (Std.lt_of_le_of_ne (String.not_lt.mp hnot) heq))

end Text

end BrokerProbe
