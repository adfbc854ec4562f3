import DoubleEntry.Proofs.Text.Utf8
import DoubleEntry.Text.Percent

/-!
# Texts with escapes

Bytes are written with escapes, each as itself or as a percent sign and two digits, and decoded from
what was written. A text with escapes is read part by part, for no escape and no character goes over
a slash.
-/

namespace DoubleEntry.Text.Percent

/-- Bytes that are written with escapes: each by itself, if it may stand so, or as a percent sign and
two digits. -/
inductive Escapes (stands : UInt8 → Prop) : List UInt8 → List UInt8 → Prop
  | nil : Escapes stands [] []
  | plain {b : UInt8} {bytes written : List UInt8} (hb : stands b)
      (h : Escapes stands bytes written) : Escapes stands (b :: bytes) (b :: written)
  | escape {b high low : UInt8} {bytes written : List UInt8} (hb : byte? high low = some b)
      (h : Escapes stands bytes written) :
      Escapes stands (b :: bytes) (mark :: high :: low :: written)

/-- A byte that is no percent sign stands for itself. -/
theorem decode_cons_of_ne {b : UInt8} (h : b ≠ mark) (kept : UInt8 → Bool) (rest : List UInt8) :
    decode kept (b :: rest) = b :: decode kept rest := by
  match rest with
  | [] => simp [decode]
  | [c] => simp [decode]
  | c :: d :: more => rw [decode, if_neg h]

/-- Bytes without a percent sign stand for themselves. -/
theorem decode_append {front : List UInt8} (h : ∀ b ∈ front, b ≠ mark) (kept : UInt8 → Bool)
    (rest : List UInt8) : decode kept (front ++ rest) = front ++ decode kept rest := by
  induction front with
  | nil => rfl
  | cons b more ih =>
    obtain ⟨hb, hmore⟩ := List.forall_mem_cons.mp h
    rw [List.cons_append, decode_cons_of_ne hb, ih hmore, List.cons_append]

/-- An escape is decoded to its byte. -/
theorem decode_escape {kept : UInt8 → Bool} {b high low : UInt8} (hb : byte? high low = some b)
    (hkept : kept b = false) (rest : List UInt8) :
    decode kept (mark :: high :: low :: rest) = b :: decode kept rest := by
  rw [decode, if_pos rfl, hb]
  simp [hkept]

/-- What holds of the first bytes holds of all of them. -/
theorem forall_byte {P : UInt8 → Prop} (h : ∀ n < 256, P (UInt8.ofNat n)) (b : UInt8) : P b := by
  have hb := h b.toNat b.toNat_lt
  rwa [UInt8.ofNat_toNat] at hb

/-- Hexadecimal digits are bytes of ASCII and none that has a meaning in a URL. -/
theorem digit_facts : ∀ b : UInt8, (digit? b).isSome = true →
    b.toNat < 0x80 ∧ b ≠ mark ∧ b ≠ 47 ∧ b ≠ 35 ∧ b ≠ 63 :=
  forall_byte (by decide +kernel)

/-- The digits of an escape are hexadecimal. -/
theorem isSome_digit?_of_byte? {b high low : UInt8} (h : byte? high low = some b) :
    (digit? high).isSome = true ∧ (digit? low).isSome = true := by
  obtain ⟨x, hx, h⟩ := Option.bind_eq_some_iff.mp h
  obtain ⟨y, hy, -⟩ := Option.bind_eq_some_iff.mp h
  rw [hx, hy]
  exact ⟨rfl, rfl⟩

/-- An escape whose byte is kept stays as it is. -/
theorem decode_escape_of_kept {kept : UInt8 → Bool} {b high low : UInt8}
    (hb : byte? high low = some b) (hkept : kept b = true) (rest : List UInt8) :
    decode kept (mark :: high :: low :: rest) = mark :: high :: low :: decode kept rest := by
  obtain ⟨hhigh, hlow⟩ := isSome_digit?_of_byte? hb
  rw [decode, if_pos rfl, hb]
  simp only [hkept, if_true]
  rw [decode_cons_of_ne (digit_facts high hhigh).2.1, decode_cons_of_ne (digit_facts low hlow).2.1]

namespace Escapes

variable {stands : UInt8 → Prop} {kept : UInt8 → Bool} {bytes written : List UInt8}

/-- Bytes of which none is kept are decoded. -/
theorem decode_eq (h : Escapes stands bytes written) (hstands : ∀ b, stands b → b ≠ mark)
    (hkept : ∀ b ∈ bytes, kept b = false) : decode kept written = bytes := by
  induction h with
  | nil => simp [decode]
  | plain hb _ ih =>
    rw [decode_cons_of_ne (hstands _ hb), ih fun b hb => hkept b (List.mem_cons_of_mem _ hb)]
  | escape hb _ ih =>
    rw [decode_escape hb (hkept _ List.mem_cons_self),
      ih fun b hb => hkept b (List.mem_cons_of_mem _ hb)]

/-- Bytes that may not stand for themselves are written with escapes, and decoded when none of them
is kept, whatever follows. -/
theorem exists_rest {front rest : List UInt8} (hfront : ∀ b ∈ front, ¬stands b)
    (hkept : ∀ b ∈ front, kept b = false) (h : Escapes stands (front ++ rest) written) :
    ∃ more, Escapes stands rest more ∧ decode kept written = front ++ decode kept more := by
  induction front generalizing written with
  | nil => exact ⟨written, h, rfl⟩
  | cons b more ih =>
    obtain ⟨hb, hmore⟩ := List.forall_mem_cons.mp hfront
    obtain ⟨hkb, hkmore⟩ := List.forall_mem_cons.mp hkept
    cases h with
    | plain hstands _ => exact absurd hstands hb
    | escape hbyte h =>
      obtain ⟨left, hleft, hdecode⟩ := ih hmore hkmore h
      exact ⟨left, hleft, by rw [decode_escape hbyte hkb, hdecode, List.cons_append]⟩

/-- Bytes in front that may stand for themselves may be written so. -/
theorem append {front : List UInt8} (hfront : ∀ b ∈ front, stands b)
    (h : Escapes stands bytes written) : Escapes stands (front ++ bytes) (front ++ written) := by
  induction front with
  | nil => exact h
  | cons b more ih =>
    obtain ⟨hb, hmore⟩ := List.forall_mem_cons.mp hfront
    exact .plain hb (ih hmore)

/-- Bytes that may stand for themselves may all be written so. -/
theorem self (h : ∀ b ∈ bytes, stands b) : Escapes stands bytes bytes := by
  have hself := append h (Escapes.nil : Escapes stands [] [])
  rwa [List.append_nil] at hself

end Escapes

/-- The hexadecimal digit of a number below 16. -/
def digitOf (n : UInt8) : UInt8 := if n < 10 then 48 + n else 55 + n

/-- Every byte has an escape. -/
theorem byte?_digitOf : ∀ b : UInt8, byte? (digitOf (b / 16)) (digitOf (b % 16)) = some b :=
  forall_byte (by decide +kernel)

/-- An escape as a text has its three bytes. -/
theorem flatMap_escape {b high low : UInt8} (hb : byte? high low = some b) (cs : List Char) :
    ('%' :: Char.ofNat high.toNat :: Char.ofNat low.toNat :: cs).flatMap String.utf8EncodeChar =
      mark :: high :: low :: cs.flatMap String.utf8EncodeChar := by
  obtain ⟨hhigh, hlow⟩ := isSome_digit?_of_byte? hb
  have hmarkByte : String.utf8EncodeChar '%' = [mark] := by decide
  have hhighByte := Utf8.utf8EncodeChar_ofNat (digit_facts high hhigh).1
  have hlowByte := Utf8.utf8EncodeChar_ofNat (digit_facts low hlow).1
  rw [List.flatMap_cons, List.flatMap_cons, List.flatMap_cons, hmarkByte, hhighByte, hlowByte]
  rfl

/-- All bytes can be written with escapes as a text. -/
theorem exists_escapes (stands : UInt8 → Prop) (bytes : List UInt8) :
    ∃ cs : List Char, Escapes stands bytes (cs.flatMap String.utf8EncodeChar) := by
  induction bytes with
  | nil => exact ⟨[], .nil⟩
  | cons b rest ih =>
    obtain ⟨cs, hcs⟩ := ih
    have hbyte := byte?_digitOf b
    refine ⟨'%' :: Char.ofNat (digitOf (b / 16)).toNat :: Char.ofNat (digitOf (b % 16)).toNat :: cs,
      ?_⟩
    rw [flatMap_escape hbyte]
    exact .escape hbyte hcs

/-! ## Texts that are read -/

/-- Whether a percent sign and two hexadecimal digits are among bytes. -/
def IsEscaped (bytes : List UInt8) : Prop :=
  ∃ high low, [mark, high, low] <:+: bytes ∧ (byte? high low).isSome = true

/-- An escape behind the first byte is one of the bytes. -/
theorem IsEscaped.cons {bytes : List UInt8} (h : IsEscaped bytes) (b : UInt8) :
    IsEscaped (b :: bytes) := by
  obtain ⟨high, low, hinfix, hbyte⟩ := h
  exact ⟨high, low, List.infix_cons hinfix, hbyte⟩

/-- There is a percent sign in every escape. -/
theorem not_isEscaped_of_notMem {bytes : List UInt8} (h : mark ∉ bytes) : ¬IsEscaped bytes := by
  rintro ⟨high, low, hinfix, -⟩
  exact h (List.IsInfix.subset hinfix List.mem_cons_self)

/-- Bytes without escapes stand for themselves. -/
theorem decodeAll_of_not_isEscaped {bytes : List UInt8} (h : ¬IsEscaped bytes) :
    decodeAll bytes = bytes := by
  unfold decodeAll
  fun_induction decode (fun _ => false) bytes with
  | case1 => rfl
  | case2 a => rfl
  | case3 a b => rfl
  | case4 b c rest x hx hkept ih => exact absurd hkept Bool.false_ne_true
  | case5 b c rest x hx hkept ih =>
    have hinfix : [mark, b, c] <:+: mark :: b :: c :: rest := (List.prefix_append _ rest).isInfix
    exact absurd ⟨b, c, hinfix, by rw [hx]; rfl⟩ h
  | case6 b c rest hx ih => rw [ih fun hrest => h (hrest.cons mark)]
  | case7 a b c rest ha ih => rw [ih fun hrest => h (hrest.cons a)]

/-- A slash is no digit of an escape. -/
theorem byte?_slash (b : UInt8) : byte? b 47 = none ∧ byte? 47 b = none := by
  have hdigit : digit? 47 = none := by decide
  constructor
  · rw [byte?, hdigit]
    cases digit? b <;> rfl
  · rw [byte?, hdigit]
    rfl

/-- A slash behind a byte is part of no escape. -/
theorem decodeAll_cons_slash (b : UInt8) (rest : List UInt8) :
    decodeAll (b :: 47 :: rest) = b :: 47 :: decodeAll rest := by
  have hslash := decode_cons_of_ne (show (47 : UInt8) ≠ mark by decide) (fun _ => false) rest
  unfold decodeAll
  by_cases hb : b = mark
  · cases rest with
    | nil => simp [decode]
    | cons c more =>
      rw [decode, if_pos hb, (byte?_slash c).2, hslash]
  · rw [decode_cons_of_ne hb, hslash]

/-- No escape goes over a slash. -/
theorem decodeAll_append_slash (front rest : List UInt8) :
    decodeAll (front ++ 47 :: rest) = decodeAll front ++ 47 :: decodeAll rest := by
  have hlast := fun b => decodeAll_cons_slash b rest
  unfold decodeAll at hlast ⊢
  fun_induction decode (fun _ => false) front with
  | case1 => exact decode_cons_of_ne (by decide) _ rest
  | case2 a => exact hlast a
  | case3 a b =>
    by_cases ha : a = mark
    · rw [List.cons_append, List.singleton_append, decode, if_pos ha, (byte?_slash b).1, hlast]
      rfl
    · rw [List.cons_append, decode_cons_of_ne ha, List.singleton_append, hlast]
      rfl
  | case4 b c more x hx hkept ih => exact absurd hkept Bool.false_ne_true
  | case5 b c more x hx hkept ih =>
    rw [List.cons_append, List.cons_append, List.cons_append, decode_escape hx rfl, ih,
      List.cons_append]
  | case6 b c more hx ih =>
    rw [List.cons_append, List.cons_append, List.cons_append, decode, if_pos rfl, hx,
      List.cons_append, ← ih]
    rfl
  | case7 a b c more ha ih => rw [List.cons_append, decode_cons_of_ne ha, ih, List.cons_append]

/-- Whether a text stands for another one once its escapes are decoded. -/
def Reads (written read : List Char) : Prop :=
  Utf8.decode (decodeAll (written.flatMap String.utf8EncodeChar)) = read.map some

instance (written read : List Char) : Decidable (Reads written read) :=
  inferInstanceAs (Decidable (_ = _))

namespace Reads

variable {written read : List Char}

/-- A text without escapes stands for itself. -/
theorem self (h : ¬IsEscaped (written.flatMap String.utf8EncodeChar)) : Reads written written := by
  rw [Reads, decodeAll_of_not_isEscaped h, Utf8.decode_flatMap_utf8EncodeChar]

/-- A text stands for one text only. -/
theorem unique {other : List Char} (h : Reads written read) (hother : Reads written other) :
    read = other :=
  List.map_injective_iff.mpr (Option.some_injective _) (h.symm.trans hother)

/-- What is before a slash and what is behind it are read by themselves. -/
theorem append_slash {rest restRead : List Char} (h : Reads written read)
    (hrest : Reads rest restRead) : Reads (written ++ '/' :: rest) (read ++ '/' :: restRead) := by
  have hslash : String.utf8EncodeChar '/' = [47] := by decide
  have hbehind (bytes : List UInt8) :
      Utf8.decode (47 :: bytes) = some '/' :: Utf8.decode bytes := by
    have hchar := Utf8.decodeFrom_utf8EncodeChar '/' bytes
    rwa [hslash] at hchar
  rw [Reads, List.flatMap_append, List.flatMap_cons, hslash, List.singleton_append,
    decodeAll_append_slash, Utf8.decode, Utf8.decodeFrom_append h, hbehind, hrest, List.map_append,
    List.map_cons]

/-- Texts between slashes are read one by one. -/
theorem intercalate {parts partsRead : List (List Char)} (h : List.Forall₂ Reads parts partsRead) :
    Reads (['/'].intercalate parts) (['/'].intercalate partsRead) := by
  induction h with
  | nil => exact self (not_isEscaped_of_notMem List.not_mem_nil)
  | @cons part partRead rest restRead hpart hrest ih =>
    cases hrest with
    | nil => simpa only [List.intercalate_singleton] using hpart
    | cons _ _ =>
      rw [List.intercalate_cons_cons, List.intercalate_cons_cons, List.append_assoc,
        List.append_assoc, List.singleton_append, List.singleton_append]
      exact hpart.append_slash ih

end Reads

end DoubleEntry.Text.Percent
