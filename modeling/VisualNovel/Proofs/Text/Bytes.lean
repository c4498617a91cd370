import Mathlib.Tactic.SplitIfs
import VisualNovel.Table

/-!
# The order of texts

Texts are compared character by character. This is the order of their bytes in UTF-8: of two
characters the lower one has the code that comes first, and no code is the beginning of another one.

* `utf8Bytes`              the bytes of a text;
* `utf8EncodeChar_append_lt`   the codes of two characters, whatever follows them;
* `lt_iff_utf8Bytes_lt`    the order of texts is that of their bytes.
-/

namespace VisualNovel

/-- the bytes of a text in UTF-8 -/
def utf8Bytes (s : String) : List UInt8 := s.toUTF8.data.toList

theorem utf8Bytes_eq (s : String) : utf8Bytes s = s.toList.flatMap String.utf8EncodeChar := by
  rw [utf8Bytes, String.toUTF8_eq_toByteArray, ← String.utf8Encode_toList, List.utf8Encode,
    List.data_toByteArray]

/-! ## Characters -/

/-- what follows a byte counts only where the bytes are the same -/
theorem ofNat_cons_lt {a b : Nat} {l m : List UInt8} (small : b < 256) (le : a ≤ b)
    (rest : a = b → l < m) : UInt8.ofNat a :: l < UInt8.ofNat b :: m := by
  rw [List.cons_lt_cons_iff]
  rcases Nat.lt_or_eq_of_le le with less | same
  · refine .inl (UInt8.lt_iff_toNat_lt.2 ?_)
    rw [UInt8.toNat_ofNat', UInt8.toNat_ofNat']
    omega
  · exact .inr ⟨by rw [same], rest same⟩

theorem utf8EncodeChar_append_lt {c d : Char} (lt : c < d) (l m : List UInt8) :
    String.utf8EncodeChar c ++ l < String.utf8EncodeChar d ++ m := by
  have lower : c.val.toNat < d.val.toNat := lt
  have small : d.val.toNat < 0x110000 := by
    rcases d.valid with h | h
    · omega
    · exact h.2
  simp only [String.utf8EncodeChar]
  generalize c.val.toNat = x at *
  generalize d.val.toNat = y at *
  -- the first byte tells how long a code is, and the bytes hold the digits from the highest one on
  split_ifs
  all_goals
    repeat refine ofNat_cons_lt (by omega) (by omega) fun same => ?_
    omega

/-! ## Texts -/

theorem flatMap_utf8EncodeChar_lt {cs ds : List Char} (lt : cs < ds) :
    cs.flatMap String.utf8EncodeChar < ds.flatMap String.utf8EncodeChar := by
  induction lt with
  | @nil d ds =>
    rw [List.flatMap_nil, List.flatMap_cons]
    obtain ⟨b, bs, code⟩ := List.exists_cons_of_ne_nil (String.utf8EncodeChar_ne_nil (c := d))
    rw [code]
    exact List.nil_lt_cons b _
  | rel lt => exact utf8EncodeChar_append_lt lt _ _
  | cons _ ih => exact List.append_left_lt ih

/-- **The order of texts is that of their bytes.** -/
theorem lt_iff_utf8Bytes_lt {s t : String} : s < t ↔ utf8Bytes s < utf8Bytes t := by
  have mono {s t : String} (lt : s < t) : utf8Bytes s < utf8Bytes t := by
    rw [utf8Bytes_eq, utf8Bytes_eq]
    exact flatMap_utf8EncodeChar_lt lt
  refine ⟨mono, fun lt => ?_⟩
  rcases KeyOrder.compare s t with less | rfl | greater
  · exact less
  · exact absurd lt (List.lt_irrefl _)
  · exact absurd (mono greater) (List.lt_asymm lt)

end VisualNovel
