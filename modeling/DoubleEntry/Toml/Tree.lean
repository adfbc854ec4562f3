import DoubleEntry.Config.Setting

/-!
# Tables of a TOML document

The headers and dotted keys of a document build a tree of tables. A table may be defined by its
header once; a table that only came to be on the way to another may still be defined by its header;
a table made by dotted keys grows by dotted keys alone; and a value never becomes a table.
-/

namespace DoubleEntry.Toml

/-- How a table came to be. -/
inductive Origin where
  /-- By a header of its own. -/
  | header
  /-- On the way to the table of a header. -/
  | passage
  /-- By dotted keys. -/
  | dotted
  deriving DecidableEq

/-- What stands under a key. -/
inductive Node where
  | value (setting : Setting)
  | table (origin : Origin) (nodes : List (String × Node))
  /-- Tables of one name, last first. -/
  | tables (items : List (List (String × Node)))

/-- The nodes of a table. -/
abbrev Nodes := List (String × Node)

/-- Changes what stands under a key, or adds it behind the others. -/
def alter? (key : String) (change? : Option Node → Option Node) : Nodes → Option Nodes
  | [] => do
    let node ← change? none
    some [(key, node)]
  | (k, node) :: rest =>
    if key = k then do
      let node ← change? (some node)
      some ((k, node) :: rest)
    else do
      let rest ← alter? key change? rest
      some ((k, node) :: rest)

/-- Changes the table under keys one inside the other, in a table that came to be as `origin`
says. Missing tables are made as `made` says; dotted keys do not pass through the table of a header.
The change is told how the table it changes came to be. -/
def within? (made : Origin) (change? : Origin → Nodes → Option Nodes) (origin : Origin)
    (keys : List String) (nodes : Nodes) : Option Nodes :=
  match keys with
  | [] => change? origin nodes
  | key :: rest =>
    alter? key (fun
      | none => (within? made change? made rest []).map (.table made)
      | some (.table o inner) =>
        if made = .dotted ∧ o = .header then none
        else (within? made change? o rest inner).map (.table o)
      | some (.tables (last :: before)) =>
        (within? made change? .header rest last).map fun last => .tables (last :: before)
      | some _ => none) nodes

/-- Adds a value under a dotted key of the table at `here`. -/
def addValue? (here : List String) (keys : List String) (key : String) (value : Setting)
    (nodes : Nodes) : Option Nodes :=
  let add (origin : Origin) (inner : Nodes) : Option Nodes :=
    if keys.isEmpty ∨ origin = .dotted then
      alter? key (fun
        | none => some (.value value)
        | some _ => none) inner
    else none
  within? .passage (fun origin inner => within? .dotted add origin keys inner) .header here nodes

/-- Opens the table of a header. -/
def openTable? (keys : List String) (key : String) (nodes : Nodes) : Option Nodes :=
  within? .passage (fun _ inner => alter? key (fun
    | none => some (.table .header [])
    | some (.table .passage present) => some (.table .header present)
    | some _ => none) inner) .header keys nodes

/-- Opens a further table of a repeated header. -/
def openFurther? (keys : List String) (key : String) (nodes : Nodes) : Option Nodes :=
  within? .passage (fun _ inner => alter? key (fun
    | none => some (.tables [[]])
    | some (.tables items) => some (.tables ([] :: items))
    | some _ => none) inner) .header keys nodes

mutual

/-- What stands under a key, as a setting. -/
def Node.setting : Node → Setting
  | .value v => v
  | .table _ nodes => .table (settingsOf nodes)
  | .tables items => .list (tablesOf items).reverse

/-- The nodes of a table as settings. -/
def settingsOf : List (String × Node) → Setting.Fields
  | [] => []
  | (key, node) :: rest => (key, node.setting) :: settingsOf rest

/-- Tables as settings. -/
def tablesOf : List (List (String × Node)) → List Setting
  | [] => []
  | nodes :: rest => .table (settingsOf nodes) :: tablesOf rest

end

end DoubleEntry.Toml
