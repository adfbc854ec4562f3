import DoubleEntry.Text.Utf8
import Mathlib

/-!
# The order of texts by bytes

A store compares texts byte by byte, and texts are ordered by their characters. In UTF-8 the two
orders are one: the bytes of a smaller character come before those of a larger one, at the first
place where they differ, so whatever follows does not matter.
-/

namespace DoubleEntry.Text.Utf8

/-- Bytes are compared as numbers, place by place. -/
theorem cons_lt_cons_iff_toNat {a b : UInt8} {l m : List UInt8} :
    a :: l < b :: m ↔ a.toNat < b.toNat ∨ a.toNat = b.toNat ∧ l < m := by
  rw [List.cons_lt_cons_iff, UInt8.lt_iff_toNat_lt, UInt8.toNat_inj]

/-- The bytes of a smaller character come first, whatever follows. -/
theorem utf8EncodeChar_append_lt {c d : Char} (h : c < d) (l m : List UInt8) :
    String.utf8EncodeChar c ++ l < String.utf8EncodeChar d ++ m := by
  have hlt : c.val.toNat < d.val.toNat := UInt32.lt_iff_toNat_lt.mp (Char.lt_def.mp h)
  have hmax : d.val.toNat < 0x110000 := d.valid.elim (by omega) (by omega)
  have htwo : ∀ v, v / 4096 = v / 64 / 64 := by omega
  have hthree : ∀ v, v / 262144 = v / 64 / 64 / 64 := by omega
  have hbyte : ∀ n, n < 256 → (UInt8.ofNat n).toNat = n := fun _ => UInt8.toNat_ofNat_of_lt
  unfold String.utf8EncodeChar
  dsimp only
  -- A longer form has a larger first byte; in the same form the numbers differ in some digit.
  split_ifs <;>
    simp (disch := omega) only [List.cons_append, List.nil_append, cons_lt_cons_iff_toNat,
      hbyte, htwo, hthree] <;>
    omega

/-- The bytes of smaller characters come first. -/
theorem flatMap_utf8EncodeChar_lt {cs ds : List Char} (h : cs < ds) :
    cs.flatMap String.utf8EncodeChar < ds.flatMap String.utf8EncodeChar := by
  induction cs generalizing ds with
  | nil =>
    cases ds with
    | nil => exact absurd h (List.lt_irrefl _)
    | cons d rest =>
      obtain ⟨b, more, hbytes⟩ := List.exists_cons_of_ne_nil (String.utf8EncodeChar_ne_nil (c := d))
      rw [List.flatMap_nil, List.flatMap_cons, hbytes]
      exact List.nil_lt_cons _ _
  | cons c rest ih =>
    cases ds with
    | nil => exact absurd h (List.not_lt_nil _)
    | cons d more =>
      rw [List.flatMap_cons, List.flatMap_cons]
      obtain hlt | ⟨rfl, hrest⟩ := List.cons_lt_cons_iff.mp h
      · exact utf8EncodeChar_append_lt hlt _ _
      · exact List.append_left_lt (ih hrest)

/-- Texts are in the order of their bytes. -/
theorem encode_lt_encode_iff {s t : String} : encode s < encode t ↔ s < t := by
  have hof : ∀ {s t : String}, s < t → encode s < encode t := fun h =>
    flatMap_utf8EncodeChar_lt (String.lt_iff_toList_lt.mp h)
  refine ⟨fun h => ?_, hof⟩
  rcases lt_trichotomy s t with hlt | rfl | hgt
  · exact hlt
  · exact absurd h (List.lt_irrefl _)
  · exact absurd (hof hgt) (List.lt_asymm h)

end DoubleEntry.Text.Utf8
