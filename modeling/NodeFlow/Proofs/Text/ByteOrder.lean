import Mathlib.Data.List.Lex
import NodeFlow.Text.Order

namespace NodeFlow.Text

def bytes (text : String) : List UInt8 := text.toUTF8.data.toList

theorem bytes_eq_flatMap (text : String) : bytes text = text.toList.flatMap String.utf8EncodeChar := by
  rw [bytes, String.toUTF8_eq_toByteArray, ← String.utf8Encode_toList, List.utf8Encode, List.toList_data_toByteArray]

theorem byte_lt_iff (m n : Nat) : UInt8.ofNat m < UInt8.ofNat n ↔ m % 256 < n % 256 := by
  rw [UInt8.lt_iff_toNat_lt, UInt8.toNat_ofNat', UInt8.toNat_ofNat']

-- Below the bound a greater number has greater bytes, whatever follows.
def Climbs (bound : Nat) (bytes : Nat → List UInt8) : Prop :=
  ∀ m n, m < n → n < bound → ∀ front back, bytes m ++ front < bytes n ++ back

theorem climbs_lead (bound base : Nat) (fits : bound + base ≤ 256) :
    Climbs bound fun n => [.ofNat (n % bound + base)] := by
  intro m n less below front back
  refine List.cons_lt_cons_iff.2 (.inl ((byte_lt_iff _ _).2 ?_))
  rw [Nat.mod_eq_of_lt below, Nat.mod_eq_of_lt (Nat.lt_trans less below), Nat.mod_eq_of_lt (by omega),
    Nat.mod_eq_of_lt (by omega)]
  omega

-- A further byte holds the last six bits, which count if all others are the same.
theorem Climbs.behind {bound : Nat} {bytes : Nat → List UInt8} (climbs : Climbs bound bytes) :
    Climbs (64 * bound) fun n => bytes (n / 64) ++ [.ofNat (n % 64 + 128)] := by
  intro m n less below front back
  rw [List.append_assoc, List.append_assoc]
  by_cases same : m / 64 = n / 64
  · rw [same]
    refine List.append_left_lt (List.cons_lt_cons_iff.2 (.inl ((byte_lt_iff _ _).2 ?_)))
    omega
  · exact climbs _ _ (by omega) (by omega) _ _

inductive Encoded (n : Nat) : List UInt8 → Prop
  | one (least : n ≤ 127) : Encoded n [.ofNat (n % 128 + 0)]
  | two (above : 127 < n) (least : n ≤ 2047) : Encoded n [.ofNat (n / 64 % 32 + 192), .ofNat (n % 64 + 128)]
  | three (above : 2047 < n) (least : n ≤ 65535) :
    Encoded n [.ofNat (n / 64 / 64 % 16 + 224), .ofNat (n / 64 % 64 + 128), .ofNat (n % 64 + 128)]
  | four (above : 65535 < n) (least : n < 1114112) :
    Encoded n [.ofNat (n / 64 / 64 / 64 % 8 + 240), .ofNat (n / 64 / 64 % 64 + 128), .ofNat (n / 64 % 64 + 128),
      .ofNat (n % 64 + 128)]

theorem encoded_char (c : Char) : Encoded c.val.toNat (String.utf8EncodeChar c) := by
  have least : c.val.toNat < 1114112 := by
    rcases c.valid with low | high
    · exact Nat.lt_trans low (by decide)
    · exact high.2
  have twice : c.val.toNat / 4096 = c.val.toNat / 64 / 64 := (Nat.div_div_eq_div_mul _ 64 64).symm
  have thrice : c.val.toNat / 262144 = c.val.toNat / 64 / 64 / 64 := by
    rw [Nat.div_div_eq_div_mul, Nat.div_div_eq_div_mul]
  rw [String.utf8EncodeChar, twice, thrice]
  generalize c.val.toNat = n at least
  split
  · rename_i one
    have whole : n % 128 + 0 = n := Nat.mod_eq_of_lt (Nat.lt_succ_of_le one)
    have encoded := Encoded.one one
    rwa [whole] at encoded
  · rename_i above
    split
    · rename_i two
      exact .two (Nat.lt_of_not_le above) two
    · rename_i above
      split
      · rename_i three
        exact .three (Nat.lt_of_not_le above) three
      · rename_i above
        exact .four (Nat.lt_of_not_le above) least

-- Two of the same length are compared by their bits; of two lengths the longer one has the greater lead.
theorem Encoded.lt {m n : Nat} {first second : List UInt8} (left : Encoded m first) (right : Encoded n second)
    (less : m < n) (front back : List UInt8) : first ++ front < second ++ back := by
  have lead : ∀ {a b : Nat} {as bs : List UInt8}, a % 256 < b % 256 → UInt8.ofNat a :: as < UInt8.ofNat b :: bs :=
    fun before => List.cons_lt_cons_iff.2 (.inl ((byte_lt_iff _ _).2 before))
  cases left with
  | one small =>
    cases right with
    | one bound => exact climbs_lead 128 0 (by decide) m n less (by omega) front back
    | two | three | four => exact lead (by omega)
  | two above small =>
    cases right with
    | one bound => omega
    | two _ bound => exact (climbs_lead 32 192 (by decide)).behind m n less (by omega) front back
    | three | four => exact lead (by omega)
  | three above small =>
    cases right with
    | one bound | two _ bound => omega
    | three _ bound => exact (climbs_lead 16 224 (by decide)).behind.behind m n less (by omega) front back
    | four => exact lead (by omega)
  | four above small =>
    cases right with
    | one bound | two _ bound | three _ bound => omega
    | four _ bound => exact (climbs_lead 8 240 (by decide)).behind.behind.behind m n less (by omega) front back

theorem encode_lt {c d : Char} (before : c < d) (front back : List UInt8) :
    String.utf8EncodeChar c ++ front < String.utf8EncodeChar d ++ back :=
  (encoded_char c).lt (encoded_char d) before front back

theorem flatMap_encode_lt {first second : List Char} (before : first < second) :
    first.flatMap String.utf8EncodeChar < second.flatMap String.utf8EncodeChar := by
  induction before with
  | @nil next rest =>
    obtain ⟨lead, others, encoded⟩ := List.exists_cons_of_ne_nil (String.utf8EncodeChar_ne_nil (c := next))
    rw [List.flatMap_nil, List.flatMap_cons, encoded]
    exact List.nil_lt_cons _ _
  | rel before =>
    rw [List.flatMap_cons, List.flatMap_cons]
    exact encode_lt before _ _
  | cons later ih =>
    rw [List.flatMap_cons, List.flatMap_cons]
    exact List.append_left_lt ih

theorem bytes_lt_of_precedes {a b : String} (before : Precedes a b) : bytes a < bytes b := by
  rw [bytes_eq_flatMap, bytes_eq_flatMap]
  exact flatMap_encode_lt before

theorem precedes_iff_bytes (a b : String) : Precedes a b ↔ bytes a < bytes b := by
  refine ⟨bytes_lt_of_precedes, fun before => ?_⟩
  by_contra refused
  by_cases same : a = b
  · exact List.lt_irrefl _ (same ▸ before)
  · exact List.lt_asymm before (bytes_lt_of_precedes (precedes_of_not same refused))

end NodeFlow.Text
