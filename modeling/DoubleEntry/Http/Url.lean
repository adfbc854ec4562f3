import DoubleEntry.Text.Percent

/-!
# URLs of requests

A URL is a path and a query. The path is decoded in two rounds: before it is matched, all escapes
but those of `%`, `/` and `+`, so that an escaped slash does not separate segments; and a segment
that is used as a value, all that is left. Bytes that are no UTF-8 become replacement characters.
-/

namespace DoubleEntry.Http

open Text (cut)
open Text.Utf8 (encode decodeLossy)

/-- The bytes whose escapes in a path stay until a segment is used: `%`, `/` and `+`. -/
def isKeptInPath (b : UInt8) : Bool := b == Text.Percent.mark || b == 47 || b == 43

/-- The characters of a URL up to its fragment. -/
def withoutFragment (url : String) : List Char := (cut '#' url.toList).1

/-- The path of a URL, decoded for matching. -/
def pathOf (url : String) : String :=
  let path := String.ofList (cut '?' (withoutFragment url)).1
  decodeLossy (Text.Percent.decode isKeptInPath (encode path))

/-- A segment of a path as a value. -/
def segmentValue (segment : String) : String := Text.Percent.decodeText segment

/-- The keys and values of the query of a URL. -/
def queryOf (url : String) : List (String × String) :=
  Text.Percent.formFields (cut '?' (withoutFragment url)).2

end DoubleEntry.Http
