import DoubleEntry.Config.Ledger
import DoubleEntry.Ledger.Basic
import DoubleEntry.Store.Address
import DoubleEntry.Store.Disk

/-!
# Opening a ledger

The configuration is checked, the URL of the database is read, the directory of its file is made,
and then the database is opened; the first of these that fails is reported.
-/

namespace DoubleEntry

/-- The directory that is made before the database is opened. -/
def preparedDirectory? (url : String) : Option DiskPath :=
  ((preparedFile? url).bind fun file => (DiskPath.ofText file).parent?).filter fun p => !p.isEmpty

/-- Makes that directory. -/
def Disk.prepare (url : String) (d : Disk) : Except LedgerFault Disk :=
  match preparedDirectory? url with
  | none => .ok d
  | some p =>
    match d.makeDirectory? p with
    | some d => .ok d
    | none => .error (.config (.directory ("/".intercalate p.names)))

/-- Whether a database can be opened at an address. -/
def Disk.canConnect (d : Disk) (a : Address) : Bool :=
  a.isWritable && (a.isFree || d.canOpen (DiskPath.ofText a.file))

/-- Opens a ledger with a new database. -/
def Ledger.openNew (config : LedgerConfig) (disk : Disk) : Except LedgerFault Ledger := do
  config.validate.mapError .config
  let address ← (Address.ofUrl config.database.url).mapError .store
  let disk ← disk.prepare config.database.url
  if disk.canConnect address then .ok Ledger.uncounted else .error (.store .cannotOpen)

end DoubleEntry
