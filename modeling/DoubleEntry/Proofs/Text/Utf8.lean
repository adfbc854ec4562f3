import DoubleEntry.Text.Utf8
import Mathlib

/-!
# Encoded texts decoded

The bytes of a character lead the machine that decodes them from one place between characters to the
next, and out comes the character. So the bytes of a text are free of errors and decode to the text.
-/

namespace DoubleEntry.Text.Utf8

/-- Between characters a byte begins one. -/
theorem step_idle (b : ℕ) : step idle b = begin b := if_pos rfl

/-- A byte in the range that is waited for is the last of its character. -/
theorem step_last {low high bits b : ℕ} (h : low ≤ b ∧ b ≤ high) :
    step ⟨1, low, high, bits⟩ b = ([some (Char.ofNat (bits * 64 + b % 64))], idle) := by
  rw [step, if_neg Nat.one_ne_zero, if_pos h]
  rfl

/-- A byte in the range that is waited for leaves one less to wait for. -/
theorem step_more {missing low high bits b : ℕ} (h : low ≤ b ∧ b ≤ high) :
    step ⟨missing + 2, low, high, bits⟩ b =
      ([], ⟨missing + 1, 0x80, 0xBF, bits * 64 + b % 64⟩) := by
  rw [step, if_neg (Nat.succ_ne_zero _), if_pos h]
  rfl

/-- A byte is decoded by one step. -/
theorem decodeFrom_cons {p next : Pending} {b : UInt8} {n : ℕ} {out : List (Option Char)}
    (hb : b.toNat = n) (h : step p n = (out, next)) (rest : List UInt8) :
    decodeFrom p (b :: rest) = out ++ decodeFrom next rest := by
  rw [decodeFrom, hb, h]

/-- The bytes of a character decode to it, whatever follows. -/
theorem decodeFrom_utf8EncodeChar (c : Char) (rest : List UInt8) :
    decodeFrom idle (String.utf8EncodeChar c ++ rest) = some c :: decodeFrom idle rest := by
  have hc : Char.ofNat c.val.toNat = c := Char.ofNat_toNat c
  have hvalid : c.val.toNat < 0xD800 ∨ 0xDFFF < c.val.toNat ∧ c.val.toNat < 0x110000 := c.valid
  have hbyte : ∀ n, n < 256 → (UInt8.ofNat n).toNat = n := fun _ => UInt8.toNat_ofNat_of_lt
  unfold String.utf8EncodeChar
  generalize c.val.toNat = v at hc hvalid
  dsimp only
  split_ifs with hone htwo hthree
  · have hbegin : step idle v = ([some (Char.ofNat v)], idle) := by
      rw [step_idle, begin, if_pos (by omega)]
    rw [List.cons_append, List.nil_append, decodeFrom_cons (hbyte _ (by omega)) hbegin, hc]
    rfl
  · have hbegin : step idle (v / 64 % 32 + 192) =
        ([], ⟨1, 0x80, 0xBF, (v / 64 % 32 + 192) % 32⟩) := by
      rw [step_idle, begin, if_neg (by omega), if_neg (by omega), if_pos (by omega)]
    have hbits : (v / 64 % 32 + 192) % 32 * 64 + (v % 64 + 128) % 64 = v := by omega
    rw [List.cons_append, List.cons_append, List.nil_append,
      decodeFrom_cons (hbyte _ (by omega)) hbegin,
      decodeFrom_cons (hbyte _ (by omega)) (step_last (by omega)), hbits, hc]
    rfl
  · have hbegin : step idle (v / 4096 % 16 + 224) =
        ([], ⟨2, if v / 4096 % 16 + 224 = 0xE0 then 0xA0 else 0x80,
          if v / 4096 % 16 + 224 = 0xED then 0x9F else 0xBF, (v / 4096 % 16 + 224) % 16⟩) := by
      rw [step_idle, begin, if_neg (by omega), if_neg (by omega), if_neg (by omega),
        if_pos (by omega)]
    have hbits : ((v / 4096 % 16 + 224) % 16 * 64 + (v / 64 % 64 + 128) % 64) * 64 +
        (v % 64 + 128) % 64 = v := by omega
    rw [List.cons_append, List.cons_append, List.cons_append, List.nil_append,
      decodeFrom_cons (hbyte _ (by omega)) hbegin,
      decodeFrom_cons (hbyte _ (by omega)) (step_more (by split_ifs <;> omega)),
      decodeFrom_cons (hbyte _ (by omega)) (step_last (by omega)), hbits, hc]
    rfl
  · have hbegin : step idle (v / 262144 % 8 + 240) =
        ([], ⟨3, if v / 262144 % 8 + 240 = 0xF0 then 0x90 else 0x80,
          if v / 262144 % 8 + 240 = 0xF4 then 0x8F else 0xBF, (v / 262144 % 8 + 240) % 8⟩) := by
      rw [step_idle, begin, if_neg (by omega), if_neg (by omega), if_neg (by omega),
        if_neg (by omega), if_pos (by omega)]
    have hbits : (((v / 262144 % 8 + 240) % 8 * 64 + (v / 4096 % 64 + 128) % 64) * 64 +
        (v / 64 % 64 + 128) % 64) * 64 + (v % 64 + 128) % 64 = v := by omega
    rw [List.cons_append, List.cons_append, List.cons_append, List.cons_append, List.nil_append,
      decodeFrom_cons (hbyte _ (by omega)) hbegin,
      decodeFrom_cons (hbyte _ (by omega)) (step_more (by split_ifs <;> omega)),
      decodeFrom_cons (hbyte _ (by omega)) (step_more (by omega)),
      decodeFrom_cons (hbyte _ (by omega)) (step_last (by omega)), hbits, hc]
    rfl

/-- The bytes of characters decode to them. -/
theorem decode_flatMap_utf8EncodeChar (cs : List Char) :
    decode (cs.flatMap String.utf8EncodeChar) = cs.map some := by
  induction cs with
  | nil => rfl
  | cons c rest ih =>
    rw [List.flatMap_cons, decode, decodeFrom_utf8EncodeChar]
    exact congrArg (some c :: ·) ih

/-- The bytes of characters stand for them also where errors are let pass. -/
theorem decodeLossy_flatMap_utf8EncodeChar (cs : List Char) :
    decodeLossy (cs.flatMap String.utf8EncodeChar) = String.ofList cs := by
  rw [decodeLossy, decode_flatMap_utf8EncodeChar, List.map_map]
  exact congrArg String.ofList (List.map_id cs)

/-- Where nothing is pending, decoding goes on as between characters. -/
theorem decodeFrom_of_missing_eq_zero {p : Pending} (h : p.missing = 0) (bytes : List UInt8) :
    decodeFrom p bytes = decode bytes := by
  cases bytes with
  | nil => rw [decodeFrom, if_pos h]; rfl
  | cons b rest => rw [decodeFrom, step, if_pos h]; rfl

/-- Bytes without errors end between characters, so what follows is decoded by itself. -/
theorem decodeFrom_append {p : Pending} {front : List UInt8} {cs : List Char}
    (h : decodeFrom p front = cs.map some) (rest : List UInt8) :
    decodeFrom p (front ++ rest) = cs.map some ++ decode rest := by
  induction front generalizing p cs with
  | nil =>
    rw [decodeFrom] at h
    split_ifs at h with hmissing
    · rw [List.nil_append, decodeFrom_of_missing_eq_zero hmissing, ← h, List.nil_append]
    · cases cs <;> simp at h
  | cons b more ih =>
    have hstep : step p b.toNat = ((step p b.toNat).1, (step p b.toNat).2) := rfl
    generalize (step p b.toNat).1 = out, (step p b.toNat).2 = next at hstep
    rw [decodeFrom_cons rfl hstep] at h
    obtain ⟨read, left, rfl, hread, hleft⟩ := List.append_eq_map_iff.mp h
    rw [List.cons_append, decodeFrom_cons rfl hstep, ih hleft.symm, ← hread, List.map_append,
      List.append_assoc]

/-- Bytes that decode to characters without errors decode to the text of these. -/
theorem decode?_of_decode_eq {bytes : List UInt8} {cs : List Char}
    (h : decode bytes = cs.map some) : decode? bytes = some (String.ofList cs) := by
  have hall : (cs.map some).mapM id = some cs := by
    clear h
    induction cs with
    | nil => rfl
    | cons c rest ih => rw [List.map_cons, List.mapM_cons, ih]; rfl
  rw [decode?, h, hall, Option.map_some]

/-- A text is decoded from its bytes. -/
theorem decode?_encode (s : String) : decode? (encode s) = some s := by
  rw [encode, decode?_of_decode_eq (decode_flatMap_utf8EncodeChar s.toList), String.ofList_toList]

/-! ## ASCII -/

/-- A character of ASCII has one byte. -/
theorem utf8EncodeChar_of_lt {c : Char} (h : c.toNat < 0x80) :
    String.utf8EncodeChar c = [UInt8.ofNat c.toNat] := by
  have hle : c.val.toNat ≤ 0x7f := Nat.le_of_lt_succ h
  unfold String.utf8EncodeChar
  rw [if_pos hle]
  rfl

/-- A byte of ASCII is the byte of its character. -/
theorem utf8EncodeChar_ofNat {b : UInt8} (h : b.toNat < 0x80) :
    String.utf8EncodeChar (Char.ofNat b.toNat) = [b] := by
  have hvalid : b.toNat.isValidChar := .inl (by omega)
  have hc : (Char.ofNat b.toNat).toNat = b.toNat := by rw [Char.toNat_ofNat, if_pos hvalid]
  rw [utf8EncodeChar_of_lt (by rwa [hc]), hc, UInt8.ofNat_toNat]

/-- The bytes of all other characters are beyond ASCII. -/
theorem le_of_mem_utf8EncodeChar {c : Char} (h : 0x80 ≤ c.toNat) :
    ∀ b ∈ String.utf8EncodeChar c, 0x80 ≤ b.toNat := by
  have hnot : ¬c.val.toNat ≤ 0x7f := Nat.not_le_of_lt h
  have hbyte : ∀ n, n < 256 → (UInt8.ofNat n).toNat = n := fun _ => UInt8.toNat_ofNat_of_lt
  unfold String.utf8EncodeChar
  dsimp only
  rw [if_neg hnot]
  split_ifs <;>
    simp only [List.forall_mem_cons, List.not_mem_nil, false_imp_iff, implies_true, and_true] <;>
    simp (disch := omega) only [hbyte] <;>
    omega

end DoubleEntry.Text.Utf8
