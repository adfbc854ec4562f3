import DoubleEntry.Proofs.Number.Comparison
import DoubleEntry.Proofs.Search.Meaning

/-!
# The order of values

Values and operands have places in one linear order: a number has the place of the rational number
or infinity that it stands for, and all texts come behind all numbers. Comparing a value with an
operand compares their places, so the six relations of the query language are those of a linear
order.
-/

namespace DoubleEntry.Search

open Number (Binary64)

/-! ## Places -/

/-- The places of numbers and of texts, numbers first. -/
abbrev Place := WithBot (WithTop ℚ) ⊕ₗ String

namespace Place

/-- The place of a number or an infinity. -/
def number (x : WithBot (WithTop ℚ)) : Place := toLex (.inl x)

/-- The place of a text. -/
def text (s : String) : Place := toLex (.inr s)

/-- Numbers keep their order. -/
theorem strictMono_number : StrictMono number := Sum.Lex.inl_strictMono

/-- Texts keep their order. -/
theorem strictMono_text : StrictMono text := Sum.Lex.inr_strictMono

/-- A number comes before a text. -/
theorem number_lt_text (x : WithBot (WithTop ℚ)) (s : String) : number x < text s :=
  Sum.Lex.inl_lt_inr x s

end Place

/-- The place of a value; a missing value has none. -/
def Value.place? : Value → Option Place
  | null => none
  | integer n => some (.number (Binary64.exactly n))
  | real x => some (.number x.value)
  | text s => some (.text s)

/-- The place of an operand. -/
def Operand.place : Operand → Place
  | integer n => .number (Binary64.exactly n)
  | real x => .number x.value
  | text s => .text s

/-- Comparing integers compares the numbers that they are. -/
theorem compare_int_compares (m n : ℤ) :
    (compare m n).Compares (Binary64.exactly m) (Binary64.exactly n) := by
  have hcast : StrictMono fun k : ℤ => Binary64.exactly k :=
    Binary64.strictMono_exactly.comp Int.cast_strictMono
  exact hcast.compares.mpr ((compare_iff m n).mp rfl)

/-- Comparing texts compares them by code points. -/
theorem compare_string_compares (s t : String) : (compare s t).Compares s t := by
  cases h : compare s t with
  | lt => exact Std.LawfulLTCmp.eq_lt_iff_lt.mp h
  | eq => exact Std.compare_eq_iff_eq.mp h
  | gt => exact Std.LawfulLTCmp.eq_gt_iff_gt.mp h

/-- A value that has a place compares with an operand as their places do. -/
theorem Value.exists_cmp? {v : Value} {a : Place} (h : v.place? = some a) (operand : Operand) :
    ∃ o, v.cmp? operand = some o ∧ o.Compares a operand.place := by
  have hnumber := Place.strictMono_number
  cases v with
  | null => simp [place?] at h
  | integer m =>
    obtain rfl := Option.some.inj h
    cases operand with
    | integer n => exact ⟨_, rfl, hnumber.compares.mpr (compare_int_compares m n)⟩
    | real y =>
      exact ⟨_, rfl, hnumber.compares.mpr (Ordering.compares_swap.mpr (y.cmpInt_compares m))⟩
    | text t => exact ⟨_, rfl, Place.number_lt_text _ t⟩
  | real x =>
    obtain rfl := Option.some.inj h
    cases operand with
    | integer n => exact ⟨_, rfl, hnumber.compares.mpr (x.cmpInt_compares n)⟩
    | real y => exact ⟨_, rfl, hnumber.compares.mpr (x.cmp_compares y)⟩
    | text t => exact ⟨_, rfl, Place.number_lt_text _ t⟩
  | text s =>
    obtain rfl := Option.some.inj h
    cases operand with
    | integer n => exact ⟨_, rfl, Place.number_lt_text _ s⟩
    | real y => exact ⟨_, rfl, Place.number_lt_text _ s⟩
    | text t => exact ⟨_, rfl, Place.strictMono_text.compares.mpr (compare_string_compares s t)⟩

/-! ## Relations -/

namespace Relation

variable {α β : Type} [LinearOrder α] [LinearOrder β]

/-- A relation in a linear order. -/
def Holds : Relation → α → α → Prop
  | eq, a, b => a = b
  | ne, a, b => a ≠ b
  | gt, a, b => a > b
  | gte, a, b => a ≥ b
  | lt, a, b => a < b
  | lte, a, b => a ≤ b

/-- A relation admits how two things compare when it holds of them. -/
theorem admits_iff_holds (r : Relation) {o : Ordering} {a b : α} (h : o.Compares a b) :
    r.admits o = true ↔ r.Holds a b := by
  cases o with
  | lt =>
    have hless : a < b := h
    cases r <;> simp [admits, Holds, hless, hless.ne, hless.le, hless.not_gt]
  | eq =>
    obtain rfl : a = b := h
    cases r <;> simp [admits, Holds]
  | gt =>
    have hgreater : b < a := h
    cases r <;> simp [admits, Holds, hgreater, hgreater.ne', hgreater.le, hgreater.not_gt]

/-- Relations are kept by what keeps the order. -/
theorem holds_map_iff (r : Relation) {f : α → β} (hf : StrictMono f) {a b : α} :
    r.Holds (f a) (f b) ↔ r.Holds a b := by
  have hsame : (compare a b).Compares a b := (compare_iff a b).mp rfl
  rw [← r.admits_iff_holds hsame, r.admits_iff_holds (hf.compares.mpr hsame)]

end Relation

/-- A comparison by a relation holds when the value has a place and the relation holds between it
and that of the operand. -/
theorem Comparator.holds_relation_iff (r : Relation) (v : Value) (operand : Operand) :
    (Comparator.relation r).holds v operand = true ↔
      ∃ a, v.place? = some a ∧ r.Holds a operand.place := by
  rw [holds]
  cases hplace : v.place? with
  | none =>
    have hnull : v = .null := by
      cases v with
      | null => rfl
      | _ => simp [Value.place?] at hplace
    simp [hnull, Value.cmp?]
  | some a =>
    obtain ⟨o, ho, hcompares⟩ := Value.exists_cmp? hplace operand
    rw [ho, Option.any_some, r.admits_iff_holds hcompares]
    simp

/-- An entry is equal to a number when it is a number at the same place. -/
theorem Entry.isScalar_number_iff {entry v : Json} {number : Operand}
    (h : Operand.ofNumber? v = some number) : isScalar entry v = true ↔
      ∃ value, number? entry = some value ∧ value.place? = some number.place := by
  have hequal : ∀ value : Value, decide (value.cmp? number = some .eq) =
      (Comparator.relation .eq).holds value number := by
    intro value
    rw [Comparator.holds]
    cases value.cmp? number with
    | none => rfl
    | some o => cases o <;> rfl
  have hscalar : isScalar entry v =
      (number? entry).any fun value => (Comparator.relation .eq).holds value number := by
    simp only [← hequal]
    cases v with
    | integer | real =>
      obtain rfl := Option.some.inj h
      rfl
    | _ => simp [Operand.ofNumber?] at h
  rw [hscalar, Option.any_eq_true]
  simp [Comparator.holds_relation_iff, Relation.Holds]

end DoubleEntry.Search
