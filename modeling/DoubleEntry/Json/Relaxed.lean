import DoubleEntry.Json.Reader
import DoubleEntry.Json.RelaxedToken

/-!
# Reading a relaxed JSON text

The relaxed spelling of JSON lets a key be a bare word, lets a comma follow the last item or field,
and knows more words: numbers with a plus sign, with nothing on one side of the point or in
hexadecimal, infinities, and names of what is not a number. Keys and commas are brought to the
strict spelling, and the reader of strict texts does the rest.
-/

namespace DoubleEntry.Json.Relaxed

open Number (Numeral)

/-! ## Keys and commas -/

/-- Whether a bare key may begin with a character. -/
def startsKey (c : Char) : Bool := c.isAlpha || c == '_' || c == '$' || decide (0x80 ≤ c.toNat)

/-- Whether letters are the hexadecimal digits of an escape, and the letters after it. -/
def afterEscape? : List Char → Option (List Char)
  | 'u' :: a :: b :: c :: d :: rest =>
    if [a, b, c, d].all fun x => (Token.hexValue? x).isSome then some rest else none
  | _ => none

/-- Whether the letters after the first one may stand in a bare key. -/
def continuesKey : List Char → Bool
  | [] => true
  | '\\' :: rest => (afterEscape? rest).isSome && continuesKey rest
  | c :: rest => (startsKey c || c.isDigit) && continuesKey rest

/-- The words that mean the same in all combinations of small and capital letters, all small. -/
def namesOfNoNumber : List String := ["nan", "qnan", "snan"]

/-- See `namesOfNoNumber`. -/
def namesOfInfinity : List String := ["inf", "infinity"]

/-- Letters made small. -/
def lower (letters : List Char) : String := String.ofList (letters.map Char.toLower)

/-- Whether a word of letters and digits is a value, so that no bare key begins with it. -/
def isReserved (letters : List Char) : Bool :=
  ["true", "false", "null"].contains (String.ofList letters) ||
    (namesOfNoNumber ++ namesOfInfinity).contains (lower letters)

/-- Whether a word may be a bare key. -/
def isBareKey (letters : List Char) : Bool :=
  match letters with
  | [] => false
  | c :: rest =>
    (if c = '\\' then (afterEscape? rest).isSome && continuesKey rest
      else startsKey c && continuesKey rest)
    && !isReserved (letters.takeWhile Char.isAlphanum)

/-- Whether a token closes an array or an object. -/
def closes : Token → Bool
  | .closeArray | .closeObject => true
  | _ => false

/-- Whether a token may end a value. -/
def endsValue : Token → Bool
  | .text _ | .word _ | .closeArray | .closeObject => true
  | _ => false

/-- Tokens in the strict spelling: bare keys become texts, and a comma between a value and a closing
bracket is dropped. A comma that follows no value stays, and so stays wrong. -/
def toStrict (afterValue : Bool) : List Token → List Token
  | .word letters :: .colon :: rest =>
    (if isBareKey letters then .text (String.ofList letters) else .word letters) ::
      .colon :: toStrict false rest
  | .comma :: t :: rest =>
    if afterValue && closes t then t :: toStrict true rest
    else .comma :: toStrict false (t :: rest)
  | t :: rest => t :: toStrict (endsValue t) rest
  | [] => []

/-! ## Words -/

/-- The sign in front of a number, and the rest. -/
def takeSign : List Char → Bool × List Char
  | '-' :: rest => (true, rest)
  | '+' :: rest => (false, rest)
  | rest => (false, rest)

/-- A decimal number: an optional sign, digits without leading zeros, optionally a point with or
without digits behind it, and optionally an exponent; only a point with digits behind it may do
without digits in front. Tells whether point or exponent were written. -/
def numeral? (letters : List Char) : Option (Numeral × Bool) :=
  let (negative, unsigned) := takeSign letters
  match takeDigits unsigned with
  | (0 :: _ :: _, _) => none
  | (whole, '.' :: rest) =>
    let (fraction, tail) := takeDigits rest
    if whole.isEmpty && fraction.isEmpty then none
    else (exponent? tail).map fun e => (⟨negative, whole, fraction, e⟩, true)
  | ([], _) => none
  | (whole, tail) => (exponent? tail).map fun e => (⟨negative, whole, [], e⟩, !tail.isEmpty)

/-- An infinity, and whether it is the negative one. -/
def infinity? (letters : List Char) : Option Bool :=
  let (negative, name) := takeSign letters
  if namesOfInfinity.contains (lower name) then some negative else none

/-- The digits of a hexadecimal number without leading zeros, and whether it is negative. -/
def hexadecimal? (letters : List Char) : Option (Bool × List Nat) := do
  let (negative, unsigned) := takeSign letters
  match unsigned with
  | '0' :: x :: first :: rest =>
    if x = 'x' ∨ x = 'X' then
      let digits ← (first :: rest).mapM Token.hexValue?
      some (negative, digits.dropWhile fun d => d = 0)
    else none
  | _ => none

/-- The value of a text under the given rules, read in the relaxed spelling. -/
def read? (rules : Reader.Rules) (cs : List Char) : Option Json := do
  let tokens ← scan? cs
  let last ← (Reader.State.value []).run? rules (toStrict false tokens)
  last.result?

end DoubleEntry.Json.Relaxed
