import DoubleEntry.Ledger.Open
import DoubleEntry.Proofs.Store.Address
import DoubleEntry.Proofs.Store.Disk

/-!
# The directory of a database

Before a database is opened, the directory of the file in its URL is made. It is the directory of the
file that is opened as long as no second scheme stands in the URL and no name of a directory in it
has an escape, for the name is taken as it stands where the directory is made and is decoded where
the file is opened. Then no database fails to open because its directory is missing.
-/

namespace DoubleEntry

open DiskPath (IsName)
open Text.Percent (IsEscaped Reads)
open Text.Utf8 (encode)

/-- Whether both readings of a URL find one directory in it: there is no further scheme behind the
first, no name of a directory has an escape, and the last name stands for the name of a file. -/
structure HasPlainDirectory (url : String) : Prop where
  no_scheme : ¬shortScheme.toList <+: (writtenFile url).toList
  names : ∃ directory name read,
    (DiskPath.ofText (writtenFile url)).names = directory ++ [name] ∧
      (∀ part ∈ directory, ¬IsEscaped (encode part)) ∧ Reads name.toList read.toList ∧ IsName read

/-- The directory that is prepared for a URL, which is the working directory when none is made. -/
def directoryFor (url : String) : DiskPath := (preparedDirectory? url).getD .working

variable {url file name : String} {p : DiskPath} {a : Address} {disk prepared : Disk}
  {config : LedgerConfig}

/-- The directory of the file in a URL is prepared. -/
theorem directoryFor_eq (hfile : preparedFile? url = some file)
    (hpath : DiskPath.ofText file = p.child name) : directoryFor url = p := by
  rw [directoryFor, preparedDirectory?, hfile, Option.bind_some, hpath, DiskPath.parent?_child]
  by_cases hempty : p.isEmpty = true
  · obtain ⟨hrelative, hnames⟩ : p.isAbsolute = false ∧ p.names = [] := by
      simpa [DiskPath.isEmpty] using hempty
    rw [Option.filter_some_neg (by simpa using hempty), Option.getD_none]
    cases p
    exact congrArg₂ DiskPath.mk hrelative.symm hnames.symm
  · rw [Option.filter_some_pos (by simpa using hempty), Option.getD_some]

/-- When the directory can be made, it is there once it has been prepared. -/
theorem exists_prepared (h : (disk.makeDirectory? (directoryFor url)).isSome = true) :
    ∃ prepared, disk.prepare url = .ok prepared ∧
      prepared.hasDirectory (directoryFor url).place = true := by
  unfold directoryFor at h ⊢
  unfold Disk.prepare
  cases hdirectory : preparedDirectory? url with
  | none => exact ⟨disk, rfl, rfl⟩
  | some p =>
    rw [hdirectory, Option.getD_some] at h
    obtain ⟨made, hmade⟩ := Option.isSome_iff_exists.mp h
    refine ⟨made, ?_, Disk.hasDirectory_of_makeDirectory? hmade⟩
    dsimp only
    rw [hmade]

/-- The file that is opened is in the directory that is prepared. -/
theorem exists_name_of_plain (hplain : HasPlainDirectory url) (haddress : Address.ofUrl url = .ok a)
    (hfile : a.isFree = false) :
    ∃ name, IsName name ∧ DiskPath.ofText a.file = (directoryFor url).child name := by
  obtain ⟨directory, name, read, hnames, hdirectory, hlast, hread⟩ := hplain.names
  obtain hfree | ⟨hmemory, hopened⟩ := Address.ofUrl_cases hplain.no_scheme haddress
  · rw [hfree] at hfile
    cases hfile
  · obtain ⟨p, hwritten, hopened⟩ :=
      DiskPath.exists_directory hnames hdirectory hlast hread hopened
    have hempty : writtenFile url ≠ "" := by
      intro h
      have hnone : (DiskPath.ofText "").names = [] := by decide
      rw [h, hnone] at hnames
      exact absurd hnames.symm (List.append_ne_nil_of_right_ne_nil _ (List.cons_ne_nil _ _))
    have hprepared : preparedFile? url = some (writtenFile url) := by
      rw [preparedFile?, if_neg (not_or.mpr ⟨hempty, hmemory⟩)]
    exact ⟨read, hread, directoryFor_eq hprepared hwritten ▸ hopened⟩

/-- A ledger is opened when a database can be opened once the directory has been prepared. -/
theorem openNew_eq (hconfig : config.validate = .ok ())
    (haddress : Address.ofUrl config.database.url = .ok a)
    (hprepared : disk.prepare config.database.url = .ok prepared) :
    Ledger.openNew config disk =
      if prepared.canConnect a then .ok .uncounted else .error (.store .cannotOpen) := by
  rw [Ledger.openNew, hconfig, haddress, hprepared]
  rfl

/-- A URL with one scheme whose directories have no escapes names a file in the directory that is
prepared, whatever escapes the last name has. When this directory can be made, it is there once it has
been prepared, so that a new database can be opened whenever its address allows to make one and
nothing else is in its place. -/
theorem opened_in_prepared_directory (hconfig : config.validate = .ok ())
    (haddress : Address.ofUrl config.database.url = .ok a) (hfile : a.isFree = false)
    (hplain : HasPlainDirectory config.database.url) :
    let directory := directoryFor config.database.url
    let path := DiskPath.ofText a.file
    path.parent? = some directory ∧ path.place.parent? = some directory.place ∧
      ∀ disk : Disk, (disk.makeDirectory? directory).isSome = true →
        ∃ prepared, disk.prepare config.database.url = .ok prepared ∧
          prepared.hasDirectory directory.place = true ∧
          (Ledger.openNew config disk = .ok Ledger.uncounted ↔ a.isWritable = true ∧
            prepared.hasDirectory path.place = false ∧ path.place ∉ prepared.files) := by
  obtain ⟨name, hname, hpath⟩ := exists_name_of_plain hplain haddress hfile
  dsimp only
  rw [hpath]
  refine ⟨DiskPath.parent?_child _ name, ?_, fun disk hmade => ?_⟩
  · rw [DiskPath.place_child _ hname, DiskPath.parent?_child]
  · obtain ⟨prepared, hprepared, hdirectory⟩ := exists_prepared hmade
    refine ⟨prepared, hprepared, hdirectory, ?_⟩
    rw [← Disk.canOpen_child hname hdirectory, openNew_eq hconfig haddress hprepared]
    simp [Disk.canConnect, hfile, hpath]

/-- The configuration of a ledger whose database is at a URL. -/
def LedgerConfig.ofUrl (url : String) : LedgerConfig :=
  { LedgerConfig.standard with database := { DatabaseConfig.standard with url := url } }

/-- A disk with nothing on it. -/
def Disk.empty : Disk := ⟨[], []⟩

/-- A database whose name has a blank is opened in a new directory. -/
theorem opened_in_prepared_directory_spaced :
    let config := LedgerConfig.ofUrl "sqlite://data/my%20ledger.db?mode=rwc"
    let a : Address := ⟨"data/my ledger.db", false, false, false, none⟩
    config.validate = .ok () ∧ Address.ofUrl config.database.url = .ok a ∧ a.isFree = false ∧
      HasPlainDirectory config.database.url ∧
      (DiskPath.ofText a.file).parent? = some ⟨false, ["data"]⟩ ∧
      (Disk.empty.makeDirectory? ⟨false, ["data"]⟩).isSome = true ∧
      Ledger.openNew config Disk.empty = .ok Ledger.uncounted := by
  have hplain : HasPlainDirectory "sqlite://data/my%20ledger.db?mode=rwc" := by
    refine ⟨by decide +kernel, ["data"], "my%20ledger.db", "my ledger.db", by decide +kernel, ?_,
      by decide +kernel, by decide +kernel, by decide, by decide⟩
    rw [List.forall_mem_singleton]
    exact Text.Percent.not_isEscaped_of_notMem (by decide +kernel)
  obtain ⟨hconfig, haddress, hdirectory, hmade, hprepare⟩ :
      (LedgerConfig.ofUrl "sqlite://data/my%20ledger.db?mode=rwc").validate = .ok () ∧
        Address.ofUrl "sqlite://data/my%20ledger.db?mode=rwc" =
          .ok ⟨"data/my ledger.db", false, false, false, none⟩ ∧
        directoryFor "sqlite://data/my%20ledger.db?mode=rwc" = ⟨false, ["data"]⟩ ∧
        (Disk.empty.makeDirectory? ⟨false, ["data"]⟩).isSome = true ∧
        Disk.empty.prepare "sqlite://data/my%20ledger.db?mode=rwc" =
          .ok ⟨[⟨false, []⟩, ⟨false, ["data"]⟩], []⟩ := by decide +kernel
  obtain ⟨hparent, -, hopen⟩ := opened_in_prepared_directory hconfig haddress rfl hplain
  obtain ⟨prepared, hprepared, -, hopened⟩ := hopen Disk.empty (hdirectory ▸ hmade)
  obtain rfl := Except.ok.inj (hprepare.symm.trans hprepared)
  exact ⟨hconfig, haddress, rfl, hplain, hdirectory ▸ hparent, hmade,
    hopened.mpr (by decide +kernel)⟩

/-- A directory with an escape and one behind a second scheme are prepared as they stand. The database
is in another directory, which could be made as well and is missing. -/
theorem opened_in_missing_directory :
    let opened : Address := ⟨"my data/ledger.db", false, false, false, none⟩
    let escaped := LedgerConfig.ofUrl "sqlite://my%20data/ledger.db"
    let doubled := LedgerConfig.ofUrl "sqlite:sqlite:my data/ledger.db"
    opened.isFree = false ∧ (DiskPath.ofText opened.file).parent? = some ⟨false, ["my data"]⟩ ∧
      (Disk.empty.makeDirectory? ⟨false, ["my data"]⟩).isSome = true ∧
      (escaped.validate = .ok () ∧ Address.ofUrl escaped.database.url = .ok opened ∧
        directoryFor escaped.database.url = ⟨false, ["my%20data"]⟩ ∧
        Ledger.openNew escaped Disk.empty = .error (.store .cannotOpen)) ∧
      doubled.validate = .ok () ∧ Address.ofUrl doubled.database.url = .ok opened ∧
        directoryFor doubled.database.url = ⟨false, ["sqlite:my data"]⟩ ∧
        Ledger.openNew doubled Disk.empty = .error (.store .cannotOpen) := by
  decide +kernel

end DoubleEntry
