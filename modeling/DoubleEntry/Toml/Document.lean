import DoubleEntry.Toml.Scalar
import DoubleEntry.Toml.Tree

/-!
# TOML documents

A document is a sequence of lines: headers, dotted keys with values, comments. Values are words,
four kinds of texts, lists and inline tables. Values nest no deeper than a document is long, which
bounds their reader.
-/

namespace DoubleEntry.Toml

open Text (Reader)
open Text.Reader

/-! ## Space -/

/-- Space within a line. -/
def isSpace (c : Char) : Bool := c == ' ' || c == '\t'

/-- Whether a character may not stand in a line. -/
def isControl (c : Char) : Bool := (decide (c.toNat < 0x20) && c != '\t') || c == '\x7f'

/-- Drops space within a line. -/
def skipSpace : Reader Unit := discard (many isSpace)

/-- Takes the end of a line, which may be the end of the document. -/
def endOfLine : Reader Unit := fun cs =>
  match cs with
  | [] => some ((), [])
  | '\n' :: rest => some ((), rest)
  | '\r' :: '\n' :: rest => some ((), rest)
  | _ => none

/-- Drops a comment, if there is one. -/
def skipComment : Reader Unit := do
  if ← skip '#' then discard (many fun c => !isControl c)

/-- Drops space and a comment up to the end of the line, and that. -/
def finishLine : Reader Unit := do
  skipSpace
  skipComment
  endOfLine

/-- Drops blank lines and comments, up to so many. -/
def skipLines : Nat → Reader Unit
  | 0 => pure ()
  | n + 1 => do
    skipSpace
    match ← get with
    | [] => pure ()
    | c :: _ =>
      if c = '#' ∨ c = '\n' ∨ c = '\r' then do
        finishLine
        skipLines n
      else pure ()

/-! ## Texts -/

/-- Takes so many hexadecimal digits as a character. -/
def codePoint (digits : Nat) : Reader Char := fun cs =>
  match digitsIn? 16 (cs.take digits) with
  | some ds =>
    let n := valueIn 16 ds
    if ds.length = digits ∧ n.isValidChar then some (Char.ofNat n, cs.drop digits) else none
  | none => none

/-- Takes what follows a backslash as a character. -/
def escaped : Reader Char := do
  let c ← one fun _ => true
  if c = '"' ∨ c = '\\' then pure c
  else if c = 'b' then pure '\x08'
  else if c = 't' then pure '\t'
  else if c = 'n' then pure '\n'
  else if c = 'f' then pure '\x0c'
  else if c = 'r' then pure '\r'
  else if c = 'u' then codePoint 4
  else if c = 'U' then codePoint 8
  else failure

/-- Takes the rest of a text on one line, up to its quote; `n` bounds its length. -/
def shortRest (quote : Char) : Nat → Reader (List Char)
  | 0 => failure
  | n + 1 => do
    let c ← one fun c => !isControl c
    if c = quote then pure []
    else if c = '\\' ∧ quote = '"' then do
      let e ← escaped
      return e :: (← shortRest quote n)
    else return c :: (← shortRest quote n)

/-- Drops white space and ends of lines. -/
def skipWide : Reader Unit := discard (many fun c => isSpace c || c == '\n' || c == '\r')

/-- How many quotes stand in front, five at most. -/
def quotesAhead (quote : Char) (cs : List Char) : Nat :=
  ((cs.take 5).takeWhile fun c => c == quote).length

/-- Whether a backslash in front joins its line with the next. -/
def joinsLines (cs : List Char) : Bool :=
  match cs.dropWhile isSpace with
  | '\n' :: _ => true
  | '\r' :: '\n' :: _ => true
  | _ => false

/-- Takes the rest of a text of several lines, up to its three quotes; `n` bounds its length. Up to
two quotes may stand right in front of those. -/
def longRest (quote : Char) : Nat → Reader (List Char)
  | 0 => failure
  | n + 1 => do
    let cs ← get
    let quotes := quotesAhead quote cs
    if 3 ≤ quotes then do
      set (cs.drop quotes)
      pure (List.replicate (quotes - 3) quote)
    else match cs with
      | '\r' :: '\n' :: rest => do
        set rest
        return '\n' :: (← longRest quote n)
      | '\\' :: rest => do
        set rest
        if quote ≠ '"' then return '\\' :: (← longRest quote n)
        else if joinsLines rest then do
          skipWide
          longRest quote n
        else
          let e ← escaped
          return e :: (← longRest quote n)
      | c :: rest => do
        set rest
        if c ≠ '\n' ∧ isControl c then failure else return c :: (← longRest quote n)
      | [] => failure

/-- Takes a text on one line after its opening quote. -/
def shortText (quote : Char) : Reader String := do
  let cs ← get
  String.ofList <$> shortRest quote (cs.length + 1)

/-- Takes a text after its opening quote. One of three quotes may have several lines, and a line end
right behind them is dropped. -/
def quotedText (quote : Char) : Reader String := do
  match ← get with
  | a :: b :: rest =>
    if a = quote ∧ b = quote then do
      match rest with
      | '\n' :: rest => set rest
      | '\r' :: '\n' :: rest => set rest
      | rest => set rest
      String.ofList <$> longRest quote (rest.length + 1)
    else shortText quote
  | _ => shortText quote

/-! ## Keys -/

/-- Characters of a bare key. -/
def isBare (c : Char) : Bool := c.isAlphanum || c == '_' || c == '-'

/-- Takes one part of a key. -/
def keyPart : Reader String := do
  if ← skip '"' then shortText '"'
  else if ← skip '\'' then shortText '\''
  else
    let cs ← many isBare
    if cs.isEmpty then failure else pure (String.ofList cs)

/-- Takes a dotted key with space around it; `n` bounds its parts. -/
def keyParts : Nat → Reader (List String)
  | 0 => failure
  | n + 1 => do
    skipSpace
    let part ← keyPart
    skipSpace
    if ← skip '.' then return part :: (← keyParts n) else return [part]

/-- Takes a dotted key: all parts but the last, and the last. -/
def key : Reader (List String × String) := do
  let cs ← get
  let parts ← keyParts (cs.length + 1)
  match parts.reverse with
  | last :: before => pure (before.reverse, last)
  | [] => failure

/-! ## Values -/

/-- Characters that a word may hold. -/
def inWord (c : Char) : Bool := c.isAlphanum || c == '_' || c == '-' || c == '+' || c == '.' || c == ':'

/-- Takes a word; a time may follow a date after a single space. -/
def word : Reader Setting := do
  let first ← many inWord
  let rest ← get
  let joined ← match rest with
    | ' ' :: c :: _ =>
      if (whole? date first).isSome ∧ c.isDigit then do
        set (rest.drop 1)
        let second ← many inWord
        pure (first ++ ' ' :: second)
      else pure first
    | _ => pure first
  match scalar? joined with
  | some v => pure v
  | none => failure

mutual

/-- Takes a value; `n` bounds what it is made of. -/
def value : Nat → Reader Setting
  | 0 => failure
  | n + 1 => do
    if ← skip '"' then .text <$> quotedText '"'
    else if ← skip '\'' then .text <$> quotedText '\''
    else if ← skip '[' then do
      let cs ← get
      skipLines cs.length
      if ← skip ']' then pure (.list []) else .list <$> items n
    else if ← skip '\x7b' then do
      skipSpace
      if ← skip '\x7d' then pure (.table [])
      else
        let nodes ← inlineFields n []
        pure (.table (settingsOf nodes))
    else word

/-- Takes the items of a list up to its end; a comma may follow the last. -/
def items : Nat → Reader (List Setting)
  | 0 => failure
  | n + 1 => do
    let v ← value n
    let cs ← get
    skipLines cs.length
    if ← skip ',' then do
      skipLines cs.length
      if ← skip ']' then pure [v]
      else
        let more ← items n
        pure (v :: more)
    else do
      expect ']'
      pure [v]

/-- Takes the fields of an inline table up to its end, which no comma precedes. -/
def inlineFields : Nat → Nodes → Reader Nodes
  | 0, _ => failure
  | n + 1, nodes => do
    let (keys, last) ← key
    expect '='
    skipSpace
    let v ← value n
    skipSpace
    let nodes ← addValue? [] keys last v nodes
    if ← skip ',' then inlineFields n nodes
    else do
      expect '\x7d'
      pure nodes

end

/-! ## Lines -/

/-- A document as far as it is read: its tables, and the path of the table that is open. -/
structure Draft where
  nodes : Nodes
  here : List String

/-- Takes a header after its opening bracket. -/
def header (d : Draft) : Reader Draft := do
  let further ← skip '['
  let (keys, last) ← key
  expect ']'
  let nodes ← if further then do
      expect ']'
      openFurther? keys last d.nodes
    else openTable? keys last d.nodes
  finishLine
  pure ⟨nodes, keys ++ [last]⟩

/-- Takes a key with its value. -/
def field (d : Draft) : Reader Draft := do
  let (keys, last) ← key
  expect '='
  skipSpace
  let cs ← get
  let v ← value (2 * cs.length + 2)
  let nodes ← addValue? d.here keys last v d.nodes
  finishLine
  pure { d with nodes }

/-- Takes the lines of a document; `n` bounds their number. -/
def lines : Nat → Draft → Reader Draft
  | 0, d => pure d
  | n + 1, d => do
    let cs ← get
    skipLines cs.length
    match ← get with
    | [] => pure d
    | '[' :: rest => do
      set rest
      let d ← header d
      lines n d
    | _ => do
      let d ← field d
      lines n d

/-- The settings that a document writes. A mark of the byte order in front is dropped. -/
def parse? (s : String) : Option Setting.Fields := do
  let cs := match s.toList with
    | '\uFEFF' :: rest => rest
    | cs => cs
  let d ← whole? (lines (cs.length + 1) ⟨[], []⟩) cs
  some (settingsOf d.nodes)

end DoubleEntry.Toml
