import DoubleEntry.Proofs.Json.Covering
import Mathlib.Tactic.SplitIfs

/-!
# What reading keeps

A text is read by putting values together: words and texts first, then arrays and objects from the
values inside them. A property of values at a depth that this preserves holds of every value that is
read. On the way it holds of all values in the open frames, each at the depth of its frame.
-/

namespace DoubleEntry.Json.Reader

/-- Fields that are set one after another, each with a value that has the property. -/
inductive Assembled (P : Json → Prop) : Fields → Prop
  | nil : Assembled P []
  | put {key : String} {value : Json} {fields : Fields} (hvalue : P value)
      (hfields : Assembled P fields) : Assembled P (fields.put key value)

/-- A field that is set has the property with the others. -/
theorem forall_mem_put {P : Json → Prop} {key : String} {value : Json} {fields : Fields}
    (hvalue : P value) (hfields : ∀ field ∈ fields, P field.2) :
    ∀ field ∈ fields.put key value, P field.2 := by
  induction fields with
  | nil => simpa [Fields.put] using hvalue
  | cons field rest ih =>
    obtain ⟨k, v⟩ := field
    obtain ⟨hv, hrest⟩ := List.forall_mem_cons.mp hfields
    simp only [Fields.put]
    split_ifs
    · exact List.forall_mem_cons.mpr ⟨hvalue, hrest⟩
    · exact List.forall_mem_cons.mpr ⟨hvalue, hfields⟩
    · exact List.forall_mem_cons.mpr ⟨hv, ih hrest⟩

/-- The values of assembled fields have the property. -/
theorem Assembled.forall_mem {P : Json → Prop} {fields : Fields} (h : Assembled P fields) :
    ∀ field ∈ fields, P field.2 := by
  induction h with
  | nil => exact fun _ hfield => absurd hfield List.not_mem_nil
  | put hvalue _ ih => exact forall_mem_put hvalue ih

/-- A property of values inside a number of open arrays and objects that holds of words and texts,
and of an array or object that may be there and is put together from values with the property. -/
structure Kept (P : Nat → Json → Prop) : Prop where
  word : ∀ (depth : Nat) {letters : List Char} {v : Json}, ofWord? letters = some v → P depth v
  text : ∀ (depth : Nat) (s : String), P depth (.text s)
  array : ∀ {depth : Nat} {items : List Json}, depth < deepest →
    (∀ v ∈ items, P (depth + 1) v) → P depth (.array items)
  object : ∀ {depth : Nat} {fields : Fields}, depth < deepest →
    Assembled (P (depth + 1)) fields → P depth (.object fields)

/-- Open frames whose values have the property at their depth. -/
def FramesKeep (P : Nat → Json → Prop) : List Frame → Prop
  | [] => True
  | .array before :: rest => rest.length < deepest ∧
    (∀ v ∈ before, P (rest.length + 1) v) ∧ FramesKeep P rest
  | .object before _ :: rest => rest.length < deepest ∧
    Assembled (P (rest.length + 1)) before ∧ FramesKeep P rest

/-- A state whose values have the property at their depth. -/
def State.Keeps (P : Nat → Json → Prop) : State → Prop
  | value stack => FramesKeep P stack
  | firstItem stack => FramesKeep P (.array [] :: stack)
  | firstKey stack => FramesKeep P (.object [] "" :: stack)
  | key before stack | colon before _ stack => FramesKeep P (.object before "" :: stack)
  | after v stack => P stack.length v ∧ FramesKeep P stack

variable {P : Nat → Json → Prop} {s next : State} {stack : List Frame}

/-- The first token of a value keeps the property. -/
theorem keeps_begin? (hP : Kept P) (h : FramesKeep P stack) {t : Token}
    (hbegin : State.begin? strict stack t = some next) : next.Keeps P := by
  cases t with
  | openArray =>
    rw [State.begin?, State.open?] at hbegin
    split_ifs at hbegin with hdepth
    obtain rfl := Option.some.inj hbegin
    exact ⟨hdepth, fun _ hv => absurd hv List.not_mem_nil, h⟩
  | openObject =>
    rw [State.begin?, State.open?] at hbegin
    split_ifs at hbegin with hdepth
    obtain rfl := Option.some.inj hbegin
    exact ⟨hdepth, .nil, h⟩
  | text words =>
    obtain rfl := Option.some.inj hbegin
    exact ⟨hP.text _ words, h⟩
  | word letters =>
    obtain ⟨v, hv, rfl⟩ := Option.map_eq_some_iff.mp hbegin
    exact ⟨hP.word _ hv, h⟩
  | closeObject | closeArray | colon | comma => simp [State.begin?] at hbegin

/-- A token behind a value keeps the property. -/
theorem keeps_step?_after (hP : Kept P) {v : Json} (hv : P stack.length v)
    (h : FramesKeep P stack) {t : Token} (hstep : (State.after v stack).step? strict t = some next) :
    next.Keeps P := by
  match stack with
  | [] => cases t <;> simp [State.step?] at hstep
  | .array before :: rest =>
    obtain ⟨hdepth, hbefore, hrest⟩ := h
    have hitems : ∀ w ∈ v :: before, P (rest.length + 1) w :=
      List.forall_mem_cons.mpr ⟨hv, hbefore⟩
    cases t <;> simp only [State.step?, reduceCtorEq, Option.some.injEq] at hstep
    case comma => exact hstep ▸ ⟨hdepth, hitems, hrest⟩
    case closeArray =>
      exact hstep ▸ ⟨hP.array hdepth fun w hw => hitems w (List.mem_reverse.mp hw), hrest⟩
  | .object before k :: rest =>
    obtain ⟨hdepth, hbefore, hrest⟩ := h
    have hfields : Assembled (P (rest.length + 1)) (before.put k v) := .put hv hbefore
    cases t <;> simp only [State.step?, reduceCtorEq, Option.some.injEq] at hstep
    case comma => exact hstep ▸ ⟨hdepth, hfields, hrest⟩
    case closeObject => exact hstep ▸ ⟨hP.object hdepth hfields, hrest⟩

/-- Every token keeps the property. -/
theorem keeps_step? (hP : Kept P) (h : s.Keeps P) {t : Token}
    (hstep : s.step? strict t = some next) : next.Keeps P := by
  cases s with
  | value stack => exact keeps_begin? hP h hstep
  | firstItem stack =>
    by_cases ht : t = .closeArray
    · subst ht
      obtain rfl := Option.some.inj hstep
      obtain ⟨hdepth, hnone, hstack⟩ := h
      exact ⟨hP.array hdepth hnone, hstack⟩
    · rw [step?_firstItem ht] at hstep
      exact keeps_begin? hP h hstep
  | firstKey stack =>
    cases t <;> simp only [State.step?, reduceCtorEq, Option.some.injEq] at hstep
    case closeObject =>
      obtain ⟨hdepth, hnone, hstack⟩ := h
      exact hstep ▸ ⟨hP.object hdepth hnone, hstack⟩
    case text => exact hstep ▸ h
  | key before stack =>
    cases t <;> simp only [State.step?, reduceCtorEq, Option.some.injEq] at hstep
    case text => exact hstep ▸ h
  | colon before k stack =>
    cases t <;> simp only [State.step?, reduceCtorEq, Option.some.injEq] at hstep
    case colon => exact hstep ▸ h
  | after v stack => exact keeps_step?_after hP h.1 h.2 hstep

/-- Tokens keep the property. -/
theorem keeps_run? (hP : Kept P) (h : s.Keeps P) {ts : List Token}
    (hrun : s.run? strict ts = some next) : next.Keeps P := by
  induction ts generalizing s with
  | nil =>
    obtain rfl := Option.some.inj hrun
    exact h
  | cons t rest ih =>
    obtain ⟨middle, hstep, hrest⟩ := Option.bind_eq_some_iff.mp hrun
    exact ih (keeps_step? hP h hstep) hrest

/-- Whatever is read has the property at depth zero. -/
theorem Kept.of_parse? (hP : Kept P) {text : String} {v : Json} (h : parse? text = some v) :
    P 0 v := by
  obtain ⟨tokens, -, h⟩ := Option.bind_eq_some_iff.mp h
  obtain ⟨last, hlast, hresult⟩ := Option.bind_eq_some_iff.mp h
  have hkeeps := keeps_run? hP (s := .value []) trivial hlast
  unfold State.result? at hresult
  split at hresult
  · obtain rfl := Option.some.inj hresult
    exact hkeeps.1
  · exact absurd hresult (by simp)

end DoubleEntry.Json.Reader
