import DoubleEntry.Proofs.Search.Comparisons

/-!
# Operators and their opposites

A list is asked for element by element: being one of them is being equal to some, and being none of
them is being comparable with each and equal to none. So the two are opposites on a column, which is
always comparable, and on an entry where it is comparable with all elements. Being null or not are
opposites on every row, and an entry that is null is nothing else; matching a pattern or not are
opposites on texts.
-/

namespace DoubleEntry.Search

open Constraint

variable {space : Namespace} {row : Row} {name key op : String} {v : Json} {vs : List Json}

/-! ## Lists -/

/-- What can be asked of one subject, where a list is asked for by asking for each element. -/
structure Constraint.TakesLists (space : Namespace) (ask : String → Json → Constraint) : Prop where
  isIn : ∀ {vs : List Json} {p : Predicate}, (ask "in" (.array vs)).predicate space = .ok p ↔
    ∃ ps, List.Forall₂ (fun v q => (ask "eq" v).predicate space = .ok q) vs ps ∧ .anyOf ps = p
  notIn : ∀ {vs : List Json} {p : Predicate}, (ask "nin" (.array vs)).predicate space = .ok p ↔
    ∃ ps, List.Forall₂ (fun v q => (ask "ne" v).predicate space = .ok q) vs ps ∧ .allOf ps = p

namespace Predicate

/-- The name of an operator matters only to the faults that are found with a column. -/
theorem ofColumn_eq_ok_congr {column : Column} {comparator : Comparator} {p : Predicate}
    (op op' : String) :
    ofColumn column comparator op v = .ok p ↔ ofColumn column comparator op' v = .ok p := by
  cases column <;> cases comparator <;> cases v <;> simp [ofColumn, Operand.ofNumber?]

/-- The name of an operator matters only to the faults that are found with an entry. -/
theorem ofEntry_eq_ok_congr {comparator : Comparator} {p : Predicate} (op op' : String) :
    ofEntry key comparator op v = .ok p ↔ ofEntry key comparator op' v = .ok p := by
  cases comparator with
  | like negated => cases v <;> simp [ofEntry]
  | relation r =>
    cases v with
    | text s => cases hs : Operand.ofDecimal? s <;> simp [ofEntry, hs]
    | bool b => cases r <;> simp [ofEntry]
    | _ => simp [ofEntry, Operand.ofNumber?]

/-- A list of which one element is asked for has a predicate for each element. -/
theorem ofMembers_false_eq_ok_iff {each : Relation → Json → Except QueryFault Predicate}
    {p : Predicate} : ofMembers false each vs = .ok p ↔
      ∃ ps, List.Forall₂ (fun v q => each .eq v = .ok q) vs ps ∧ .anyOf ps = p := by
  rw [ofMembers, if_neg (by simp)]
  exact map_eq_ok_iff.trans (by simp only [mapM_eq_ok_iff])

/-- A list of which no element is asked for has a predicate for each element. -/
theorem ofMembers_true_eq_ok_iff {each : Relation → Json → Except QueryFault Predicate}
    {p : Predicate} : ofMembers true each vs = .ok p ↔
      ∃ ps, List.Forall₂ (fun v q => each .ne v = .ok q) vs ps ∧ .allOf ps = p := by
  rw [ofMembers, if_pos rfl]
  exact map_eq_ok_iff.trans (by simp only [mapM_eq_ok_iff])

end Predicate

namespace Constraint

/-- Lists are taken by what asks for one element as the relations do, under any name. -/
theorem takesLists {ask : String → Json → Constraint}
    (each : String → Relation → Json → Except QueryFault Predicate)
    (hin : ∀ vs p, (ask "in" (.array vs)).predicate space = .ok p ↔
      Predicate.ofMembers false (each "in") vs = .ok p)
    (hnin : ∀ vs p, (ask "nin" (.array vs)).predicate space = .ok p ↔
      Predicate.ofMembers true (each "nin") vs = .ok p)
    (heach : ∀ op (r : Relation) v q,
      each op r v = .ok q ↔ (ask r.name v).predicate space = .ok q) : TakesLists space ask := by
  constructor
  case isIn =>
    intro vs p
    rw [hin, Predicate.ofMembers_false_eq_ok_iff]
    simp only [heach, Relation.name]
  case notIn =>
    intro vs p
    rw [hnin, Predicate.ofMembers_true_eq_ok_iff]
    simp only [heach, Relation.name]

/-- A column takes lists. -/
theorem takesLists_field {column : Column} (hname : Column.Named space name column) :
    TakesLists space (field name) := by
  have hpredicate : ∀ op v p, (field name op v).predicate space = .ok p ↔
      Predicate.ofField column op v = .ok p := by
    intro op v p
    simp only [predicate_field_eq_ok_iff, ← Column.ofName_eq_ok_iff] at hname ⊢
    simp [hname]
  refine takesLists (fun op r => Predicate.ofColumn column (.relation r) op)
    (fun vs => hpredicate "in" _) (fun vs => hpredicate "nin" _) fun op r v q => ?_
  rw [hpredicate, Predicate.ofField_name]
  exact Predicate.ofColumn_eq_ok_congr op r.name

/-- An entry takes lists. -/
theorem takesLists_range (space : Namespace) (hkey : DataKey.Matches key) :
    TakesLists space (range key) := by
  have hpredicate : ∀ op v p, (range key op v).predicate space = .ok p ↔
      Predicate.ofRange key op v = .ok p := by
    intro op v p
    rw [predicate_range_eq_ok_iff, and_iff_right hkey]
  refine takesLists (fun op r => Predicate.ofEntry key (.relation r) op)
    (fun vs => hpredicate "in" _) (fun vs => hpredicate "nin" _) fun op r v q => ?_
  rw [hpredicate, Predicate.ofRange_name]
  exact Predicate.ofEntry_eq_ok_congr op r.name

namespace TakesLists

variable {ask : String → Json → Constraint}

/-- A list is accepted when its elements are. -/
theorem accepted_in_iff (h : TakesLists space ask) :
    (ask "in" (.array vs)).Accepted space ↔ ∀ v ∈ vs, (ask "eq" v).Accepted space := by
  simp only [accepted_iff, h.isIn, ← exists_forall₂_iff]
  exact ⟨fun ⟨_, ps, hps, _⟩ => ⟨ps, hps⟩, fun ⟨ps, hps⟩ => ⟨_, ps, hps, rfl⟩⟩

/-- A list to be avoided is accepted when its elements are. -/
theorem accepted_nin_iff (h : TakesLists space ask) :
    (ask "nin" (.array vs)).Accepted space ↔ ∀ v ∈ vs, (ask "ne" v).Accepted space := by
  simp only [accepted_iff, h.notIn, ← exists_forall₂_iff]
  exact ⟨fun ⟨_, ps, hps, _⟩ => ⟨ps, hps⟩, fun ⟨ps, hps⟩ => ⟨_, ps, hps, rfl⟩⟩

/-- A row matches an accepted list when it matches being equal to some element. -/
theorem matches_in_iff (h : TakesLists space ask) (hrow : row.HasTexts)
    (hV : (ask "in" (.array vs)).Accepted space) :
    (ask "in" (.array vs)).Matches space row ↔ ∃ v ∈ vs, (ask "eq" v).Matches space row := by
  obtain ⟨p, hp⟩ := accepted_iff.mp hV
  obtain ⟨ps, hps, rfl⟩ := h.isIn.mp hp
  rw [Constraint.matches_iff hrow, hp]
  simp only [Except.ok.injEq, exists_eq_left', Predicate.holds, Predicate.anyHolds_eq_any,
    List.any_eq_true]
  refine (exists_mem_iff_of_forall₂ hps fun v q hq => ?_).symm
  rw [Constraint.matches_iff hrow, hq]
  simp

/-- A row avoids an accepted list when it matches being other than each element. -/
theorem matches_nin_iff (h : TakesLists space ask) (hrow : row.HasTexts)
    (hV : (ask "nin" (.array vs)).Accepted space) :
    (ask "nin" (.array vs)).Matches space row ↔ ∀ v ∈ vs, (ask "ne" v).Matches space row := by
  obtain ⟨p, hp⟩ := accepted_iff.mp hV
  obtain ⟨ps, hps, rfl⟩ := h.notIn.mp hp
  rw [Constraint.matches_iff hrow, hp]
  simp only [Except.ok.injEq, exists_eq_left', Predicate.holds, Predicate.allHold_eq_all,
    List.all_eq_true]
  refine (forall_mem_iff_of_forall₂ hps fun v q hq => ?_).symm
  rw [Constraint.matches_iff hrow, hq]
  simp

end TakesLists

end Constraint

/-! ## Elements -/

/-- A column takes the same operands for being equal and for being other. -/
theorem accepted_field_ne_iff :
    (field name "ne" v).Accepted space ↔ (field name "eq" v).Accepted space :=
  (accepted_field_relation_iff .ne).trans (accepted_field_relation_iff .eq).symm

/-- An entry takes the same operands for being equal and for being other. -/
theorem accepted_range_ne_iff :
    (range key "ne" v).Accepted space ↔ (range key "eq" v).Accepted space := by
  refine (accepted_range_relation_iff .ne).trans (.trans ?_ (accepted_range_relation_iff .eq).symm)
  rw [Predicate.exists_ofEntry_equality_iff (.inr rfl),
    Predicate.exists_ofEntry_equality_iff (.inl rfl)]

/-- A column is either equal to an operand or other. -/
theorem matches_field_ne_iff (hrow : row.IsOf space) (hv : (field name "eq" v).Accepted space) :
    (field name "ne" v).Matches space row ↔ ¬ (field name "eq" v).Matches space row := by
  obtain ⟨column, hname, htakes⟩ := (accepted_field_relation_iff .eq).mp hv
  obtain ⟨operand, hreads⟩ := htakes.exists_reads
  obtain ⟨a, ha⟩ := hrow.exists_place hname
  have hmatches := matches_field_relation_iff hrow.hasTexts hname hreads
  simp only [ha, Option.some.injEq, exists_eq_left'] at hmatches
  exact (hmatches .ne).trans (not_congr (hmatches .eq)).symm

/-- A row matches being equal to a truth value when the entry is that value, and being other when it
is the other one. -/
theorem matches_range_bool_iff (space : Namespace) (hrow : row.HasTexts)
    (hkey : DataKey.Matches key) (b : Bool) :
    ((range key "eq" (.bool b)).Matches space row ↔ row.entry? key = some (.bool b)) ∧
      ((range key "ne" (.bool b)).Matches space row ↔ row.entry? key = some (.bool !b)) := by
  have hbool : ∀ c : Bool, (Predicate.bool key c).holds row = true ↔
      row.entry? key = some (.bool c) := by
    intro c
    rw [Predicate.holds]
    cases row.entry? key with
    | none => simp
    | some entry => cases entry <;> simp [Entry.isScalar]
  rw [← hbool, ← hbool, matches_range_iff hrow hkey, matches_range_iff hrow hkey]
  have heq : Predicate.ofRange key "eq" (.bool b) = .ok (.bool key b) := rfl
  have hne : Predicate.ofRange key "ne" (.bool b) = .ok (.bool key !b) := rfl
  simp [heq, hne]

/-- An entry is not both equal to an operand and other. -/
theorem not_matches_eq_and_ne (hrow : row.HasTexts) (hv : (range key "eq" v).Accepted space) :
    ¬ ((range key "eq" v).Matches space row ∧ (range key "ne" v).Matches space row) := by
  obtain ⟨hkey, hoperand⟩ := (accepted_range_relation_iff .eq).mp hv
  have hplaces : IsNumber v ∨ (∃ s, v = .text s) →
      ¬ ((range key "eq" v).Matches space row ∧ (range key "ne" v).Matches space row) := by
    rintro hkind ⟨heq, hne⟩
    have hmatches : ∀ r : Relation, (range key r.name v).Matches space row ↔ _ :=
      matches_range_relation_iff hrow hkey hkind
    obtain ⟨entry, a, b, hentry, hcompared, hsame⟩ := (hmatches .eq).mp heq
    obtain ⟨found, a', b', hfound, hcompared', hother⟩ := (hmatches .ne).mp hne
    obtain rfl := Option.some.inj (hentry.symm.trans hfound)
    obtain ⟨rfl, rfl⟩ := hcompared.unique hcompared'
    exact hother hsame
  cases (Predicate.exists_ofEntry_equality_iff (.inl rfl)).mp hoperand with
  | number h => exact hplaces (.inl h)
  | text s => exact hplaces (.inr ⟨s, rfl⟩)
  | bool b =>
    obtain ⟨heq, hne⟩ := matches_range_bool_iff space hrow hkey b
    rw [heq, hne]
    rintro ⟨hsame, hother⟩
    simp [hsame] at hother

/-! ## Null -/

/-- The entry is absent or null. -/
def Row.IsNull (row : Row) (key : String) : Prop :=
  row.entry? key = none ∨ row.entry? key = some .null

/-- No comparison with an operand holds of an entry that is absent or null. -/
theorem Row.IsNull.holds_ofEntry (h : row.IsNull key) {comparator : Comparator} {p : Predicate}
    (hp : Predicate.ofEntry key comparator op v = .ok p) : p.holds row = false := by
  unfold Predicate.ofEntry at hp
  repeat' split at hp
  all_goals cases hp
  all_goals
    obtain h | h := h <;> simp [Predicate.holds, h, Entry.double?, Entry.words?, Entry.isScalar]

/-- A row matches being null when the entry is absent or null, and otherwise not being null. -/
theorem matches_null_iff (space : Namespace) (hrow : row.HasTexts) (hkey : DataKey.Matches key) :
    ((range key "is" .null).Matches space row ↔ row.IsNull key) ∧
      ((range key "isnot" .null).Matches space row ↔ ¬ row.IsNull key) := by
  have hnull : (row.entry? key).all (fun entry => Entry.isScalar entry .null) = true ↔
      row.IsNull key := by
    rw [Row.IsNull]
    cases row.entry? key with
    | none => simp
    | some entry => cases entry <;> simp [Entry.isScalar]
  have his : Predicate.ofRange key "is" .null = .ok (.null key false) := rfl
  have hisnot : Predicate.ofRange key "isnot" .null = .ok (.null key true) := rfl
  rw [matches_range_iff hrow hkey, matches_range_iff hrow hkey, his, hisnot, ← hnull]
  simp [Predicate.holds]

/-- A row whose entry is absent or null matches no operator on it but being null, and being none of
no elements. -/
theorem Row.IsNull.of_matches (h : row.IsNull key) (hrow : row.HasTexts)
    (hmatches : (range key op v).Matches space row) :
    op = "is" ∨ op = "nin" ∧ v = .array [] := by
  obtain ⟨plan, hplan, -⟩ := id hmatches
  obtain ⟨hkey, hallows⟩ := accepted_range_iff.mp ⟨plan, hplan⟩
  obtain ⟨p, hp, hholds⟩ := (matches_range_iff hrow hkey).mp hmatches
  obtain ⟨operator, hname, hp⟩ := bind_eq_ok_iff.mp hp
  have hfound := Predicate.ofName_eq_ok_iff.mp hname
  cases operator with
  | compare comparator => exact absurd hholds (by simp [h.holds_ofEntry hp])
  | member negated =>
    obtain ⟨vs, hvs, hmembers⟩ := bind_eq_ok_iff.mp hp
    obtain rfl := Predicate.members_eq_ok_iff.mp hvs
    cases negated with
    | false =>
      obtain ⟨ps, hps, rfl⟩ := Predicate.ofMembers_false_eq_ok_iff.mp hmembers
      rw [Predicate.holds, Predicate.anyHolds_eq_any, List.any_eq_true] at hholds
      obtain ⟨q, hq, hholds⟩ := hholds
      obtain ⟨element, -, helement⟩ := exists_mem_of_forall₂ hps hq
      exact absurd hholds (by simp [h.holds_ofEntry helement])
    | true =>
      obtain ⟨ps, hps, rfl⟩ := Predicate.ofMembers_true_eq_ok_iff.mp hmembers
      rw [Predicate.holds, Predicate.allHold_eq_all, List.all_eq_true] at hholds
      cases hps with
      | nil => exact .inr ⟨by simpa [Operator.names] using hfound, rfl⟩
      | cons helement _ =>
        exact absurd (hholds _ List.mem_cons_self) (by simp [h.holds_ofEntry helement])
  | null negated =>
    cases negated with
    | false => exact .inl (by simpa [Operator.names] using hfound)
    | true =>
      have hop : op = "isnot" := by simpa [Operator.names] using hfound
      have hv : v = .null := by
        cases hallows <;> simp_all
      subst hop hv
      exact absurd h ((matches_null_iff space hrow hkey).2.mp hmatches)

/-! ## Patterns -/

/-- A row matches a pattern, or its opposite, when the entry is text that does. -/
theorem matches_like_iff (space : Namespace) (hrow : row.HasTexts) (hkey : DataKey.Matches key)
    (pattern : String) :
    ((range key "like" (.text pattern)).Matches space row ↔ ∃ words,
      (row.entry? key).bind Entry.words? = some words ∧ Pattern.isLike pattern words = true) ∧
    ((range key "notlike" (.text pattern)).Matches space row ↔ ∃ words,
      (row.entry? key).bind Entry.words? = some words ∧ Pattern.isLike pattern words = false) := by
  have hlike : Predicate.ofRange key "like" (.text pattern) =
      .ok (.text key (.like false) pattern) := rfl
  have hnotlike : Predicate.ofRange key "notlike" (.text pattern) =
      .ok (.text key (.like true) pattern) := rfl
  rw [matches_range_iff hrow hkey, matches_range_iff hrow hkey, hlike, hnotlike]
  simp [Predicate.holds, Comparator.holds, Option.any_eq_true]

/-! ## Opposites -/

/-- On a column exactly one of being in an accepted list and not being in it holds, and being in it
is being equal to some element. On an entry at most one does: being in the list is being equal to
some element, and not being in it is being comparable with each but not in it, so that an entry that
is absent or null has neither beside a list with elements, while no row is in the empty list.
Exactly one of being null and not being null holds, and a row that is null matches no other operator
on the key than being in no empty list. Exactly one of a pattern and its opposite matches a text,
and neither anything else. -/
theorem operators_complementary (hrow : row.IsOf space) :
    (∀ name vs, (field name "in" (.array vs)).Accepted space →
      Xor ((field name "in" (.array vs)).Matches space row)
        ((field name "nin" (.array vs)).Matches space row) ∧
      ((field name "in" (.array vs)).Matches space row ↔
        ∃ v ∈ vs, (field name "eq" v).Matches space row)) ∧
    (∀ key vs, (range key "in" (.array vs)).Accepted space →
      ¬ ((range key "in" (.array vs)).Matches space row ∧
        (range key "nin" (.array vs)).Matches space row) ∧
      ((range key "in" (.array vs)).Matches space row ↔
        ∃ v ∈ vs, (range key "eq" v).Matches space row) ∧
      ((range key "nin" (.array vs)).Matches space row ↔
        (∀ v ∈ vs, (range key "eq" v).Matches space row ∨ (range key "ne" v).Matches space row) ∧
          ¬ (range key "in" (.array vs)).Matches space row) ∧
      (vs ≠ [] → row.entry? key = none ∨ row.entry? key = some .null →
        ¬ (range key "in" (.array vs)).Matches space row ∧
          ¬ (range key "nin" (.array vs)).Matches space row)) ∧
    (∀ key, DataKey.Matches key →
      ¬ (range key "in" (.array [])).Matches space row ∧
      (range key "nin" (.array [])).Matches space row ∧
      Xor ((range key "is" .null).Matches space row)
        ((range key "isnot" .null).Matches space row) ∧
      ((range key "is" .null).Matches space row → ∀ op v, op ≠ "is" →
        (range key op v).Matches space row → op = "nin" ∧ v = .array []) ∧
      ∀ pattern,
        (Xor ((range key "like" (.text pattern)).Matches space row)
          ((range key "notlike" (.text pattern)).Matches space row) ↔
            ∃ s, row.entry? key = some (.text s)) ∧
        ¬ ((range key "like" (.text pattern)).Matches space row ∧
          (range key "notlike" (.text pattern)).Matches space row)) := by
  have htexts := hrow.hasTexts
  refine ⟨?columns, ?entries, ?keys⟩
  case columns =>
    intro name vs hin
    obtain ⟨column, hname, -⟩ := accepted_field_iff.mp hin
    have hlists := takesLists_field hname
    have heq := hlists.accepted_in_iff.mp hin
    have hnin := hlists.accepted_nin_iff.mpr fun v hv => accepted_field_ne_iff.mpr (heq v hv)
    have hne : (field name "nin" (.array vs)).Matches space row ↔
        ¬ ∃ v ∈ vs, (field name "eq" v).Matches space row := by
      rw [hlists.matches_nin_iff htexts hnin]
      push Not
      exact forall₂_congr fun v hv => matches_field_ne_iff hrow (heq v hv)
    rw [hne, hlists.matches_in_iff htexts hin]
    exact ⟨xor_not_right.mpr Iff.rfl, Iff.rfl⟩
  case entries =>
    intro key vs hin
    have hkey := (accepted_range_iff.mp hin).1
    have hlists := takesLists_range space hkey
    have heq := hlists.accepted_in_iff.mp hin
    have hnin := hlists.accepted_nin_iff.mpr fun v hv => accepted_range_ne_iff.mpr (heq v hv)
    have hexclusive := fun v hv => not_matches_eq_and_ne htexts (heq v hv)
    rw [hlists.matches_nin_iff htexts hnin, hlists.matches_in_iff htexts hin]
    refine ⟨?_, Iff.rfl, ?_, ?_⟩
    · rintro ⟨⟨v, hv, hsame⟩, hother⟩
      exact hexclusive v hv ⟨hsame, hother v hv⟩
    · constructor
      · intro hother
        exact ⟨fun v hv => .inr (hother v hv), fun ⟨v, hv, hsame⟩ =>
          hexclusive v hv ⟨hsame, hother v hv⟩⟩
      · rintro ⟨hcomparable, hnone⟩ v hv
        exact (hcomparable v hv).resolve_left fun hsame => hnone ⟨v, hv, hsame⟩
    · intro hsome hnull
      rw [← hlists.matches_nin_iff htexts hnin, ← hlists.matches_in_iff htexts hin]
      constructor
      · intro hmatches
        have hop := Row.IsNull.of_matches hnull htexts hmatches
        simp at hop
      · intro hmatches
        have hop := Row.IsNull.of_matches hnull htexts hmatches
        simp [hsome] at hop
  case keys =>
    intro key hkey
    have hlists := takesLists_range space hkey
    obtain ⟨his, hisnot⟩ := matches_null_iff space htexts hkey
    refine ⟨?_, ?_, ?_, ?_, fun pattern => ?_⟩
    · rw [hlists.matches_in_iff htexts (hlists.accepted_in_iff.mpr (by simp))]
      simp
    · rw [hlists.matches_nin_iff htexts (hlists.accepted_nin_iff.mpr (by simp))]
      simp
    · rw [his, hisnot]
      exact xor_not_right.mpr Iff.rfl
    · intro hnull op v hop hmatches
      exact (Row.IsNull.of_matches (his.mp hnull) htexts hmatches).resolve_left hop
    · obtain ⟨hlike, hnotlike⟩ := matches_like_iff space htexts hkey pattern
      have htext : (∃ s, row.entry? key = some (.text s)) ↔
          ∃ words, (row.entry? key).bind Entry.words? = some words := by
        cases row.entry? key with
        | none => simp
        | some entry => cases entry <;> simp [Entry.words?]
      rw [hlike, hnotlike, htext]
      cases (row.entry? key).bind Entry.words? with
      | none => simp
      | some words => cases hverdict : Pattern.isLike pattern words <;> simp [hverdict]

/-- An account whose kind is text is not of one other kind, and beside a list that has a truth value
too it is neither in it nor not in it. -/
theorem operators_complementary_labelled :
    labelled.IsOf .accounts ∧
      (range "kind" "in" (.array [.text "bank"])).Accepted .accounts ∧
      (range "kind" "nin" (.array [.text "bank"])).Matches .accounts labelled ∧
      (range "kind" "in" (.array [.text "bank", .bool true])).Accepted .accounts ∧
      ¬ (range "kind" "in" (.array [.text "bank", .bool true])).Matches .accounts labelled ∧
      ¬ (range "kind" "nin" (.array [.text "bank", .bool true])).Matches .accounts labelled := by
  have hrow : labelled.IsOf .accounts := .account _ _ _
  have hkey : DataKey.Matches "kind" := (DataKey.isValid_iff _).mp rfl
  have hbank : ¬ (range "kind" "eq" (.text "bank")).Matches .accounts labelled := by
    rintro ⟨plan, hplan, hmet⟩
    obtain rfl := Except.ok.inj hplan
    exact absurd hmet (by decide +kernel)
  have hother : (range "kind" "ne" (.text "bank")).Matches .accounts labelled :=
    ⟨_, rfl, by decide +kernel⟩
  obtain ⟨htrue, hfalse⟩ := matches_range_bool_iff .accounts hrow.hasTexts hkey true
  have hentry : labelled.entry? "kind" = some (.text "cash") := rfl
  obtain ⟨-, hentries, -⟩ := operators_complementary hrow
  have haccepted : (range "kind" "in" (.array [.text "bank"])).Accepted .accounts := ⟨_, rfl⟩
  have hboth : (range "kind" "in" (.array [.text "bank", .bool true])).Accepted .accounts :=
    ⟨_, rfl⟩
  obtain ⟨-, hin, hnin, -⟩ := hentries "kind" _ haccepted
  obtain ⟨-, hinBoth, hninBoth, -⟩ := hentries "kind" _ hboth
  refine ⟨hrow, haccepted, hnin.mpr ⟨?_, ?_⟩, hboth, ?_, ?_⟩
  · simpa using Or.inr hother
  · rw [hin]
    simpa using hbank
  · rw [hinBoth]
    simp [hbank, htrue, hentry]
  · rw [hninBoth]
    simp [htrue, hfalse, hentry]

end DoubleEntry.Search
