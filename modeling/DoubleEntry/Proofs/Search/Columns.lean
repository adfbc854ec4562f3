import DoubleEntry.Proofs.Search.Conditions

/-!
# Conditions that look at columns only

Before the balance of an account is computed, the conditions that need its id alone are evaluated
without the rest of the row. They have the truth that they have on the whole row, and each of them is
one that all conditions together imply. So no account that meets all conditions is left out early.
-/

namespace DoubleEntry.Search.Condition

variable {row : Row} {scans : Scans} {columns : List Column} {column : Column → Value}

mutual

/-- A condition on columns that agree with those of a row is evaluated to its truth on the row. -/
theorem isYes_of_truthOfColumns? (hagree : ∀ k ∈ columns, column k = row.column k) (c : Condition)
    (hreads : c.readsOnly columns = true) {verdict : Bool}
    (h : c.truthOfColumns? column = some verdict) : (c.truth row scans).isYes = verdict := by
  cases c with
  | compare term comparator operand =>
    cases term with
    | column k =>
      have hk : column k = row.column k := hagree k (List.contains_iff_mem.mp hreads)
      obtain rfl := Option.some.inj h
      rw [truth, Term.value, hk]
    | extract path => simp [readsOnly] at hreads
    | double path => simp [readsOnly] at hreads
  | constant value =>
    obtain rfl := Option.some.inj h
    exact Truth.isYes_ofBool value
  | all conditions =>
    rw [truth, isYes_truthOfAll]
    exact all_isYes_of_allOfColumns? hagree conditions hreads h
  | any conditions =>
    rw [truth, isYes_truthOfAny]
    exact any_isYes_of_anyOfColumns? hagree conditions hreads h
  | hasType | isNumber | glob | isNull | not | someElement => simp [truthOfColumns?] at h

/-- A conjunction of such conditions is evaluated to its truth on the row. -/
theorem all_isYes_of_allOfColumns? (hagree : ∀ k ∈ columns, column k = row.column k)
    (cs : List Condition) (hreads : allReadOnly columns cs = true) {verdict : Bool}
    (h : allOfColumns? column cs = some verdict) :
    (cs.all fun c => (c.truth row scans).isYes) = verdict := by
  cases cs with
  | nil => exact Option.some.inj h
  | cons c rest =>
    obtain ⟨hfirst, hrest⟩ := Bool.and_eq_true_iff.mp hreads
    rw [allOfColumns?] at h
    cases htruth : c.truthOfColumns? column with
    | none => simp [htruth] at h
    | some first =>
      have hc : (c.truth row scans).isYes = first :=
        isYes_of_truthOfColumns? hagree c hfirst htruth
      rw [List.all_cons, hc]
      cases first with
      | false => simpa [htruth] using h
      | true =>
        rw [htruth] at h
        rw [Bool.true_and]
        exact all_isYes_of_allOfColumns? hagree rest hrest h

/-- A disjunction of such conditions is evaluated to its truth on the row. -/
theorem any_isYes_of_anyOfColumns? (hagree : ∀ k ∈ columns, column k = row.column k)
    (cs : List Condition) (hreads : allReadOnly columns cs = true) {verdict : Bool}
    (h : anyOfColumns? column cs = some verdict) :
    (cs.any fun c => (c.truth row scans).isYes) = verdict := by
  cases cs with
  | nil => exact Option.some.inj h
  | cons c rest =>
    obtain ⟨hfirst, hrest⟩ := Bool.and_eq_true_iff.mp hreads
    rw [anyOfColumns?] at h
    cases htruth : c.truthOfColumns? column with
    | none => simp [htruth] at h
    | some first =>
      have hc : (c.truth row scans).isYes = first :=
        isYes_of_truthOfColumns? hagree c hfirst htruth
      rw [List.any_cons, hc]
      cases first with
      | true => simpa [htruth] using h
      | false =>
        rw [htruth] at h
        rw [Bool.false_or]
        exact any_isYes_of_anyOfColumns? hagree rest hrest h

end

mutual

/-- The conditions that a condition joins by "and" are all true when it is. -/
theorem all_isYes_conjuncts (c : Condition) :
    (c.conjuncts.all fun k => (k.truth row scans).isYes) = (c.truth row scans).isYes := by
  cases c with
  | all conditions =>
    rw [truth, isYes_truthOfAll]
    exact all_isYes_conjunctsOf conditions
  | any conditions =>
    match conditions with
    | [c] =>
      rw [truth, isYes_truthOfAny, List.any_cons, List.any_nil, Bool.or_false]
      exact all_isYes_conjuncts c
    | [] | _ :: _ :: _ => exact Bool.and_true _
  | compare | hasType | isNumber | glob | isNull | constant | not | someElement =>
    exact Bool.and_true _

/-- The conditions that conditions join by "and" are all true when these are. -/
theorem all_isYes_conjunctsOf (cs : List Condition) :
    ((conjunctsOf cs).all fun k => (k.truth row scans).isYes) =
      cs.all fun c => (c.truth row scans).isYes := by
  cases cs with
  | nil => rfl
  | cons c rest =>
    rw [conjunctsOf, List.all_append, List.all_cons, all_isYes_conjuncts c,
      all_isYes_conjunctsOf rest]

end

/-- When conditions are true so is every condition that they join by "and". -/
theorem isYes_of_mem_conjunctsOf (cs : List Condition)
    (h : (cs.all fun c => (c.truth row scans).isYes) = true) :
    ∀ k ∈ conjunctsOf cs, (k.truth row scans).isYes = true := by
  rw [← all_isYes_conjunctsOf] at h
  exact List.all_eq_true.mp h

end DoubleEntry.Search.Condition
