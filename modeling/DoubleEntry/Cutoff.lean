import DoubleEntry.Fault
import DoubleEntry.Time.Text

/-!
# Cutoffs

The time up to which a balance is asked for. Left out or blank it is now.
-/

namespace DoubleEntry

open Time (Timestamp)

/-- Reads a timestamp that a caller wrote. -/
def Time.Timestamp.ofText (text : String) : Except InputFault Timestamp :=
  match Timestamp.parse? text with
  | some t => .ok t
  | none => .error (.invalidTimestamp (Text.trimmed text) "not a timestamp")

/-- Reads a cutoff; nothing is given for now. -/
def Cutoff.ofText (on : Option String) : Except InputFault (Option Timestamp) :=
  match on with
  | none => .ok none
  | some text => if Text.isBlankText text then .ok none else some <$> Timestamp.ofText text

end DoubleEntry
