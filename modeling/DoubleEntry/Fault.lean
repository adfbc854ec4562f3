import DoubleEntry.Text.Quoted

/-!
# Faults

Everything that can be wrong with a request or go wrong while it is served, as causes rather than
texts. Each cause has one wording. A ledger fault belongs to a category, which fixes the words in
front of the cause, the class that callers see and whether the caller is to blame.
-/

namespace DoubleEntry

open Text (quoted)

/-- A table of the store. -/
inductive Table where
  | accounts
  | transactions
  | lines
  deriving DecidableEq

/-- The name of a table. -/
def Table.name : Table → String
  | .accounts => "accounts"
  | .transactions => "transactions"
  | .lines => "lines"

/-- What is wrong with an account or a transaction that is submitted. -/
inductive InputFault where
  | transactionIdMissing
  | accountIdMissing
  | lineWithoutAccount (transaction : String)
  | unbalanced (transaction : String)
  | invalidKey (key : String)
  /-- A text that is no timestamp, and what the reader has to say about it. -/
  | invalidTimestamp (text detail : String)
  deriving DecidableEq

/-- The wording of an input fault. -/
def InputFault.reason : InputFault → String
  | transactionIdMissing => "Transaction id is required"
  | accountIdMissing => "Account id is required"
  | lineWithoutAccount id => "Transaction " ++ id ++ " has a line without an account"
  | unbalanced id => "Transaction " ++ id ++ " is unbalanced: deltas must sum to zero"
  | invalidKey key => "Invalid key in data json: " ++ quoted key
  | invalidTimestamp text detail => "Invalid timestamp " ++ quoted text ++ ": " ++ detail

/-- What an operator of a search wants its operand to be. -/
inductive Wanted where
  | array
  | textColumn
  | number
  | string
  | null
  | pattern
  | numberOrString
  | scalar
  deriving DecidableEq

/-- The wording of a wanted operand. -/
def Wanted.words : Wanted → String
  | array => "an array"
  | textColumn => "a text column"
  | number => "a number"
  | string => "a string"
  | null => "null"
  | pattern => "a string pattern"
  | numberOrString => "a number or string"
  | scalar => "a scalar"

/-- What is wrong with a search query. -/
inductive QueryFault where
  /-- Bytes that are no text, and what the decoder has to say about them. -/
  | notText (detail : String)
  /-- A text that is no query document, and what the reader has to say about it. -/
  | malformed (detail : String)
  | notAnObject
  /-- A part of the document that has to be an object. -/
  | partNotAnObject (part : String)
  /-- Groups both inside and beside the `query` wrapper. -/
  | twoShapes
  | invalidKey (key : String)
  | unknownField (name «namespace» : String)
  | unknownOperator (name : String)
  | unsupported (operator field : String)
  | operand (operator subject : String) (wanted : Wanted)
  deriving DecidableEq

/-- The wording of a query fault. -/
def QueryFault.reason : QueryFault → String
  | notText detail => "Query is not UTF-8: " ++ detail
  | malformed detail => "Malformed query document: " ++ detail
  | notAnObject => "Query document must be a JSON object"
  | partNotAnObject part => "\"" ++ part ++ "\" must be an object"
  | twoShapes => "Use either a \"query\" wrapper or top-level must/should, not both"
  | invalidKey key => "Invalid key in search query: " ++ quoted key
  | unknownField name space => "Unknown field " ++ quoted name ++ " for " ++ space
  | unknownOperator name => "Unknown operator " ++ quoted name
  | unsupported operator field =>
    "Operator " ++ quoted operator ++ " is not supported on field " ++ quoted field
  | operand operator subject wanted =>
    "Operator " ++ quoted operator ++ " on " ++ quoted subject ++ " expects " ++ wanted.words

/-- Why the store could not do what it was asked to. -/
inductive StoreFault where
  | closed
  /-- Rows cannot be added to a table at the moment. -/
  | insertRefused (table : Table)
  /-- A row with this key is there already. -/
  | keyTaken (table : Table) (key : String)
  /-- The running total of an account leaves the range of amounts. -/
  | totalOverflow
  /-- The data text of a row that a search looks into is not JSON. -/
  | dataNotJson
  /-- A row is held against a search pattern that has too many bytes. -/
  | patternTooLong
  /-- The address of the database has a part that is not understood. -/
  | invalidUrl
  /-- The database file cannot be opened. -/
  | cannotOpen
  deriving DecidableEq

/-- The wording of a store fault. -/
def StoreFault.reason : StoreFault → String
  | closed => "the store is closed"
  | insertRefused table => "inserts into " ++ table.name ++ " are refused"
  | keyTaken table key => "the key " ++ quoted key ++ " is taken in " ++ table.name
  | totalOverflow => "a running total overflows"
  | dataNotJson => "malformed JSON"
  | patternTooLong => "LIKE or GLOB pattern too complex"
  | invalidUrl => "invalid database URL"
  | cannotOpen => "unable to open the database file"

/-- What is wrong with a configuration. -/
inductive ConfigFault where
  | urlEmpty
  | noConnections
  | connectionBounds (least most : Nat)
  | unreadable (detail : String)
  | unparsable (detail : String)
  | directory (detail : String)
  deriving DecidableEq

/-- The wording of a configuration fault. -/
def ConfigFault.reason : ConfigFault → String
  | urlEmpty => "database.url is empty"
  | noConnections => "database.max_connections must be at least 1"
  | connectionBounds least most =>
    "database.min_connections (" ++ toString least ++ ") exceeds max_connections (" ++
      toString most ++ ")"
  | unreadable detail => "Failed to read config: " ++ detail
  | unparsable detail => "Failed to parse config: " ++ detail
  | directory detail => "Cannot create database directory " ++ detail

/-- What a stored row may turn out to hold. -/
inductive RowFault where
  | unreadableTimestamp (transaction text : String)
  /-- Not as many accounts as amounts among the lines of a transaction. -/
  | unevenLines (transaction : String) (accounts deltas : Nat)
  deriving DecidableEq

/-- The wording of a row fault. -/
def RowFault.reason : RowFault → String
  | unreadableTimestamp id text =>
    "Transaction " ++ id ++ " has unreadable timestamp " ++ quoted text
  | unevenLines id accounts deltas =>
    "Transaction " ++ id ++ " has " ++ toString accounts ++ " line accounts but " ++
      toString deltas ++ " deltas"

/-- The kinds of rows that callers address by id. -/
inductive Entity where
  | account (id : String)
  | transaction (id : String)
  deriving DecidableEq

/-- The words for an entity. -/
def Entity.words : Entity → String
  | account id => "Account " ++ id
  | transaction id => "Transaction " ++ id

/-- Why a ledger operation failed. -/
inductive LedgerFault where
  | input (fault : InputFault)
  | query (fault : QueryFault)
  | «namespace» (name : String)
  | conflict (entity : Entity)
  | notFound (entity : Entity)
  | commit (transaction : String) (fault : StoreFault)
  | store (fault : StoreFault)
  /-- Stored data that is no data map, and what the reader has to say about it. -/
  | serialization (detail : String)
  | config (fault : ConfigFault)
  | row (fault : RowFault)
  deriving DecidableEq

/-- The categories of ledger faults. -/
inductive Category where
  | invalidInput
  | invalidQuery
  | invalidNamespace
  | conflict
  | notFound
  | commitFailed (transaction : String)
  | storage
  | serialization
  | config
  | internal
  deriving DecidableEq

/-- The classes of faults that callers can tell apart. -/
inductive FaultClass where
  | invalidInput
  | invalidQuery
  | invalidNamespace
  | conflict
  | notFound
  | internal
  deriving DecidableEq

namespace FaultClass

/-- The stable code of a class. -/
def code : FaultClass → String
  | invalidInput => "invalid_input"
  | invalidQuery => "search.query.invalid"
  | invalidNamespace => "search.namespace.invalid"
  | conflict => "conflict"
  | notFound => "not_found"
  | internal => "internal_error"

/-- Whether the caller is to blame. -/
def blamesCaller (c : FaultClass) : Bool := c ≠ internal

end FaultClass

namespace Category

/-- The class of a category. Callers learn nothing about what happens inside the ledger. -/
def faultClass : Category → FaultClass
  | invalidInput => .invalidInput
  | invalidQuery => .invalidQuery
  | invalidNamespace => .invalidNamespace
  | conflict => .conflict
  | notFound => .notFound
  | commitFailed _ | storage | serialization | config | internal => .internal

/-- The message of a fault in this category with the given reason. -/
def message (c : Category) (reason : String) : String :=
  match c with
  | invalidInput => "Invalid input: " ++ reason
  | invalidQuery => "Invalid search query: " ++ reason
  | invalidNamespace => "Invalid search namespace: " ++ reason
  | conflict => "Conflict: " ++ reason
  | notFound => "Not found: " ++ reason
  | commitFailed id => "Commit failed for transaction " ++ id ++ ": " ++ reason
  | storage => "Storage error: " ++ reason
  | serialization => "Serialization error: " ++ reason
  | config => "Configuration error: " ++ reason
  | internal => "Internal error: " ++ reason

end Category

namespace LedgerFault

/-- The category of a fault. -/
def category : LedgerFault → Category
  | input _ => .invalidInput
  | query _ => .invalidQuery
  | «namespace» _ => .invalidNamespace
  | conflict _ => .conflict
  | notFound _ => .notFound
  | commit id _ => .commitFailed id
  | store _ => .storage
  | serialization _ => .serialization
  | config _ => .config
  | row _ => .internal

/-- The wording of the cause of a fault. -/
def reason : LedgerFault → String
  | input fault => fault.reason
  | query fault => fault.reason
  | «namespace» name => name
  | conflict entity => entity.words ++ " already exists"
  | notFound entity => entity.words ++ " not found"
  | commit _ fault => fault.reason
  | store fault => fault.reason
  | serialization detail => detail
  | config fault => fault.reason
  | row fault => fault.reason

/-- The message of a fault. -/
def message (fault : LedgerFault) : String := fault.category.message fault.reason

end LedgerFault

end DoubleEntry
