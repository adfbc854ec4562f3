import DoubleEntry.Json.Token
import DoubleEntry.Text.Split
import DoubleEntry.Text.Utf8

/-!
# Percent escapes

In URLs a percent sign and two hexadecimal digits stand for a byte. Form data are keys and values
joined by `=` and `&`, in which a plus stands for a space.
-/

namespace DoubleEntry.Text.Percent

open Utf8 (encode decodeLossy)

/-- The byte `%`. -/
def mark : UInt8 := 37

/-- The value of a hexadecimal digit. -/
def digit? (b : UInt8) : Option UInt8 :=
  (Json.Token.hexValue? (Char.ofNat b.toNat)).map UInt8.ofNat

/-- The byte that two digits stand for. -/
def byte? (high low : UInt8) : Option UInt8 := do some (16 * (← digit? high) + (← digit? low))

/-- Decodes escapes, except those of bytes to be kept. What is no escape stays as it is. -/
def decode (kept : UInt8 → Bool) : List UInt8 → List UInt8
  | [] => []
  | [a] => [a]
  | [a, b] => [a, b]
  | a :: b :: c :: rest =>
    if a = mark then
      match byte? b c with
      | some x => if kept x then a :: decode kept (b :: c :: rest) else x :: decode kept rest
      | none => a :: decode kept (b :: c :: rest)
    else a :: decode kept (b :: c :: rest)
termination_by bytes => bytes.length

/-- Decodes all escapes. -/
def decodeAll (bytes : List UInt8) : List UInt8 := decode (fun _ => false) bytes

/-- Decodes all escapes of a text. Bytes that are no UTF-8 become replacement characters. -/
def decodeText (s : String) : String := decodeLossy (decodeAll (encode s))

/-- A key or a value of form data. -/
def formText (cs : List Char) : String :=
  decodeText (String.ofList (cs.map fun c => if c = '+' then ' ' else c))

/-- The keys and values of form data. Empty parts are left out, and a part without `=` is a key with
an empty value. -/
def formFields (cs : List Char) : List (String × String) :=
  ((split '&' cs).filter fun part => !part.isEmpty).map fun part =>
    let (key, value) := cut '=' part
    (formText key, formText value)

end DoubleEntry.Text.Percent
