import DoubleEntry.Fault
import DoubleEntry.Text.Percent

/-!
# Addresses of databases

A database is named by a URL: a scheme, a file or `:memory:`, and options behind a question mark.
The URL is read twice. `preparedFile?` finds the file whose directory is made beforehand: it drops
one scheme and takes the rest as it stands. `Address.ofUrl` finds what is opened: it drops all
schemes in front and decodes escapes.
-/

namespace DoubleEntry

open Text (cut)

/-- The rest of a text after a given beginning. -/
def after? (start : String) (cs : List Char) : Option (List Char) :=
  if start.toList.isPrefixOf cs then some (cs.drop start.toList.length) else none

/-- The scheme of a URL, with and without slashes. -/
def longScheme : String := "sqlite://"

/-- See `longScheme`. -/
def shortScheme : String := "sqlite:"

/-- The name of a database that is kept in memory. -/
def memoryName : String := ":memory:"

/-- The rest of a URL after one scheme. -/
def afterScheme (cs : List Char) : List Char :=
  ((after? longScheme cs).or (after? shortScheme cs)).getD cs

/-- The name of the file as it stands in a URL, between one scheme and the options. -/
def writtenFile (url : String) : String := String.ofList (cut '?' (afterScheme url.toList)).1

/-- The file whose directory is made before the database is opened. -/
def preparedFile? (url : String) : Option String :=
  if writtenFile url = "" ∨ writtenFile url = memoryName then none else some (writtenFile url)

/-- What is left after a beginning that is not empty is shorter. -/
theorem length_sub_lt {start cs : List Char} (h : start ≠ [] ∧ start.isPrefixOf cs) :
    cs.length - start.length < cs.length := by
  have fits : start.length ≤ cs.length := List.IsPrefix.length_le (by simpa using h.2)
  have := List.length_pos_iff.2 h.1
  omega

/-- Drops a beginning as often as it is there. -/
def dropAll (start cs : List Char) : List Char :=
  if h : start ≠ [] ∧ start.isPrefixOf cs then
    have _ := length_sub_lt h
    dropAll start (cs.drop start.length)
  else cs
termination_by cs.length

/-- The rest of a URL after all schemes in front. -/
def afterSchemes (cs : List Char) : List Char :=
  dropAll shortScheme.toList (dropAll longScheme.toList cs)

/-- What is opened, and how. -/
structure Address where
  /-- The name of the file; empty for a temporary one. -/
  file : String
  inMemory : Bool
  readOnly : Bool
  immutable : Bool
  /-- The file system driver asked for. -/
  driver : Option String
  deriving DecidableEq

namespace Address

/-- Reads an option. -/
def setOption (a : Address) (key value : String) : Except StoreFault Address :=
  match key, value with
  | "mode", "ro" => .ok { a with readOnly := true }
  | "mode", "rw" => .ok a
  | "mode", "rwc" => .ok a
  | "mode", "memory" => .ok { a with inMemory := true }
  | "cache", "private" => .ok a
  | "cache", "shared" => .ok a
  | "immutable", "true" => .ok { a with immutable := true }
  | "immutable", "1" => .ok { a with immutable := true }
  | "immutable", "false" => .ok { a with immutable := false }
  | "immutable", "0" => .ok { a with immutable := false }
  | "vfs", name => .ok { a with driver := some name }
  | _, _ => .error .invalidUrl

/-- The address without options of a file as it stands in a URL. -/
def ofFile (name : String) : Except StoreFault Address :=
  if name = memoryName then .ok ⟨name, true, false, false, none⟩
  else match Text.Utf8.decode? (Text.Percent.decodeAll (Text.Utf8.encode name)) with
    | some file => .ok ⟨file, false, false, false, none⟩
    | none => .error .invalidUrl

/-- Reads a URL. -/
def ofUrl (url : String) : Except StoreFault Address := do
  let (file, options) := cut '?' (afterSchemes url.toList)
  let a ← ofFile (String.ofList file)
  (Text.Percent.formFields options).foldlM (fun a f => setOption a f.1 f.2) a

/-- The file system drivers that there are. -/
def drivers : List String := ["unix", "unix-excl", "unix-none", "unix-dotfile"]

/-- Whether the address asks for nothing that keeps a new database from being made. -/
def isWritable (a : Address) : Bool :=
  !a.readOnly && !(a.immutable && !a.inMemory) && (a.driver.all drivers.contains) &&
    a.file.toList.all fun c => c != '\x00'

/-- Whether the database needs no file in a directory. -/
def isFree (a : Address) : Bool := a.inMemory || a.file == "" || a.file == memoryName

end Address

end DoubleEntry
