/-!
# UTF-8

Decoding of bytes as a run of a small machine over them. Every maximal run of bytes that begins a
character but does not complete one stands for one decoding error, so strict decoding refuses the
text and lossy decoding puts one replacement character there.
-/

namespace DoubleEntry.Text.Utf8

/-- A character that has begun: how many bytes are missing, the range in which the next one must
lie, and the bits read so far. Nothing has begun when no byte is missing. -/
structure Pending where
  missing : Nat
  low : Nat
  high : Nat
  bits : Nat

/-- Between two characters. -/
def idle : Pending := ⟨0, 0, 0, 0⟩

/-- Reads the first byte of a character. The range of the second byte excludes overlong forms,
surrogates and numbers beyond the last code point. -/
def begin (b : Nat) : List (Option Char) × Pending :=
  if b < 0x80 then ([some (Char.ofNat b)], idle)
  else if b < 0xC2 then ([none], idle)
  else if b < 0xE0 then ([], ⟨1, 0x80, 0xBF, b % 0x20⟩)
  else if b < 0xF0 then
    ([], ⟨2, if b = 0xE0 then 0xA0 else 0x80, if b = 0xED then 0x9F else 0xBF, b % 0x10⟩)
  else if b < 0xF5 then
    ([], ⟨3, if b = 0xF0 then 0x90 else 0x80, if b = 0xF4 then 0x8F else 0xBF, b % 0x08⟩)
  else ([none], idle)

/-- Reads one byte; a byte out of range ends the pending character in error and begins anew. -/
def step (p : Pending) (b : Nat) : List (Option Char) × Pending :=
  if p.missing = 0 then begin b
  else if p.low ≤ b ∧ b ≤ p.high then
    let bits := p.bits * 0x40 + b % 0x40
    if p.missing = 1 then ([some (Char.ofNat bits)], idle)
    else ([], ⟨p.missing - 1, 0x80, 0xBF, bits⟩)
  else
    let (out, next) := begin b
    (none :: out, next)

/-- Decodes bytes after a pending character; `none` marks an error. -/
def decodeFrom (p : Pending) : List UInt8 → List (Option Char)
  | [] => if p.missing = 0 then [] else [none]
  | b :: rest =>
    let (out, next) := step p b.toNat
    out ++ decodeFrom next rest

/-- The characters that the bytes encode, with `none` for each error. -/
def decode (bytes : List UInt8) : List (Option Char) := decodeFrom idle bytes

/-- The text that the bytes encode, if they are free of errors. -/
def decode? (bytes : List UInt8) : Option String :=
  ((decode bytes).mapM id).map String.ofList

/-- The text that the bytes encode, with U+FFFD in place of each error. -/
def decodeLossy (bytes : List UInt8) : String :=
  String.ofList ((decode bytes).map fun c => c.getD '\uFFFD')

/-- The bytes of a text. -/
def encode (s : String) : List UInt8 := s.toList.flatMap String.utf8EncodeChar

end DoubleEntry.Text.Utf8
