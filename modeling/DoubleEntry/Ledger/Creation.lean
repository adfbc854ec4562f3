import DoubleEntry.Ledger.Basic

/-!
# Creating an account

Creating an account takes two steps of the store: whether the id is there, and the insert. When
another request adds the account in between, the insert finds its key taken, which is the same
conflict as before.
-/

namespace DoubleEntry

/-- How far the creation of an account has come. -/
inductive Creation where
  /-- Nothing is known yet. -/
  | arrived
  /-- The account was not there and is to be inserted. -/
  | absent
  | finished (answer : Except LedgerFault Unit)

namespace Creation

/-- Finds fault with an account to be created. -/
def check (id : String) (data : Data) : Except InputFault Unit :=
  if Text.isBlankText id then .error .accountIdMissing else DataKey.check data

/-- What a fault of the insert means. -/
def insertFault (id : String) : StoreFault → LedgerFault
  | .keyTaken _ _ => .conflict (.account id)
  | fault => .store fault

/-- One step of a creation. -/
def step (id : String) (data : Data) (s : Store) : Creation → Creation × Store
  | arrived =>
    match s.accountExists id with
    | .error fault => (finished (.error (.store fault)), s)
    | .ok true => (finished (.error (.conflict (.account id))), s)
    | .ok false => (absent, s)
  | absent =>
    match s.insertAccount id data with
    | .error fault => (finished (.error (insertFault id fault)), s)
    | .ok next => (finished (.ok ()), next)
  | finished answer => (finished answer, s)

/-- How many steps a creation may still take. -/
def remaining : Creation → Nat
  | arrived => 2
  | absent => 1
  | finished _ => 0

/-- Every step brings a creation closer to its end. -/
theorem remaining_step_lt (id : String) (data : Data) (s : Store) (phase : Creation)
    (h : phase.remaining ≠ 0) : (step id data s phase).1.remaining < phase.remaining := by
  cases phase with
  | arrived => simp only [step]; split <;> simp [remaining]
  | absent => simp only [step]; split <;> simp [remaining]
  | finished answer => simp [remaining] at h

/-- Takes a creation to its end. -/
def settle (id : String) (data : Data) (phase : Creation) (s : Store) :
    Except LedgerFault Unit × Store :=
  match phase with
  | finished answer => (answer, s)
  | arrived =>
    let next := step id data s arrived
    settle id data next.1 next.2
  | absent =>
    let next := step id data s absent
    settle id data next.1 next.2
termination_by phase.remaining
decreasing_by all_goals exact remaining_step_lt _ _ _ _ (by simp [remaining])

end Creation

/-- Creates an account: the request is checked, and then taken through its steps. -/
def Ledger.createAccount (id : String) (data : Data) (l : Ledger) :
    Except LedgerFault Unit × Ledger :=
  match Creation.check id data with
  | .error fault => (.error (.input fault), l)
  | .ok () =>
    let (answer, s) := Creation.settle id data .arrived l.store
    (answer, { l with store := s })

end DoubleEntry
