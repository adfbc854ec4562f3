import DoubleEntry.Json.Reader

/-!
# Rules that cover others

One set of rules covers another when it lets arrays and objects nest as deep and knows every word.
Reading a text under both goes in step: the same arrays and objects are open, whatever values were
read so far. So every text that is a value under the rules covered is a value under those that cover
them, though perhaps another one.
-/

namespace DoubleEntry.Json.Reader

/-- Whether a text is read under the first rules when it is read under the second. -/
structure Rules.Covers (wide narrow : Rules) : Prop where
  deepest : narrow.deepest ≤ wide.deepest
  ofWord? : ∀ letters, (narrow.ofWord? letters).isSome = true → (wide.ofWord? letters).isSome = true

/-- Whether an open frame is an array. -/
def Frame.isArray : Frame → Bool
  | array _ => true
  | object _ _ => false

/-- Stacks of arrays and objects in the same places. -/
def SameFrames (a b : List Frame) : Prop := a.map Frame.isArray = b.map Frame.isArray

/-- States in which the same may come next within the same frames. -/
def State.Alike : State → State → Prop
  | value a, value b | firstItem a, firstItem b | firstKey a, firstKey b => SameFrames a b
  | key _ a, key _ b | after _ a, after _ b => SameFrames a b
  | colon _ _ a, colon _ _ b => SameFrames a b
  | _, _ => False

variable {wide narrow : Rules} {a b : List Frame}

/-- Stacks with frames in the same places are equally high. -/
theorem SameFrames.length_eq (h : SameFrames a b) : a.length = b.length := by
  simpa using congrArg List.length h

/-- Under an open array the frames are in the same places. -/
theorem SameFrames.array (h : SameFrames a b) (before before' : List Json) :
    SameFrames (.array before :: a) (.array before' :: b) := congrArg (List.cons true) h

/-- Under an open object the frames are in the same places. -/
theorem SameFrames.object (h : SameFrames a b) (before before' : Fields) (k k' : String) :
    SameFrames (.object before k :: a) (.object before' k' :: b) := congrArg (List.cons false) h

/-- What opens under the rules covered opens under those that cover them. -/
theorem Rules.Covers.open? (h : wide.Covers narrow) (hab : SameFrames a b)
    {next : List Frame → State} (hnext : (next a).Alike (next b)) {s : State}
    (hopen : State.open? narrow a next = some s) :
    ∃ u, State.open? wide b next = some u ∧ s.Alike u := by
  obtain ⟨hdepth, rfl⟩ : a.length < narrow.deepest ∧ next a = s := by
    simpa [State.open?] using hopen
  have hdeep : b.length < wide.deepest := hab.length_eq ▸ Nat.lt_of_lt_of_le hdepth h.deepest
  exact ⟨next b, if_pos hdeep, hnext⟩

/-- What begins a value under the rules covered begins one under those that cover them. -/
theorem Rules.Covers.begin? (h : wide.Covers narrow) (hab : SameFrames a b) {t : Token} {s : State}
    (hbegin : State.begin? narrow a t = some s) :
    ∃ u, State.begin? wide b t = some u ∧ s.Alike u := by
  cases t with
  | openArray =>
    have hnext : (State.firstItem a).Alike (State.firstItem b) := hab
    exact h.open? hab hnext hbegin
  | openObject =>
    have hnext : (State.firstKey a).Alike (State.firstKey b) := hab
    exact h.open? hab hnext hbegin
  | text words =>
    obtain rfl := Option.some.inj hbegin
    exact ⟨_, rfl, hab⟩
  | word letters =>
    obtain ⟨v, hv, rfl⟩ := Option.map_eq_some_iff.mp hbegin
    obtain ⟨w, hw⟩ := Option.isSome_iff_exists.mp (h.ofWord? letters (by simp [hv]))
    exact ⟨.after w b, by simp [State.begin?, hw], hab⟩
  | closeObject | closeArray | colon | comma => simp [State.begin?] at hbegin

/-- A token behind a value in an array or object is read alike under any rules. -/
theorem step?_after_alike (hab : SameFrames a b) (v w : Json) {t : Token} {s : State}
    (hstep : (State.after v a).step? narrow t = some s) :
    ∃ u, (State.after w b).step? wide t = some u ∧ s.Alike u := by
  cases a with
  | nil => cases t <;> simp [State.step?] at hstep
  | cons frame a =>
    cases b with
    | nil => simp [SameFrames] at hab
    | cons frame' b =>
      obtain ⟨hframe, hrest⟩ := List.cons.inj hab
      cases frame <;> cases frame' <;> simp only [Frame.isArray, reduceCtorEq] at hframe
      case array.array before before' =>
        cases t <;> simp only [State.step?, reduceCtorEq, Option.some.injEq] at hstep
        case comma => exact ⟨_, rfl, hstep ▸ SameFrames.array hrest _ _⟩
        case closeArray => exact ⟨_, rfl, hstep ▸ hrest⟩
      case object.object before k before' k' =>
        cases t <;> simp only [State.step?, reduceCtorEq, Option.some.injEq] at hstep
        case comma => exact ⟨_, rfl, hstep ▸ hrest⟩
        case closeObject => exact ⟨_, rfl, hstep ▸ hrest⟩

/-- A token behind an opening bracket begins a value, unless it closes the array. -/
theorem step?_firstItem {rules : Rules} {t : Token} (ht : t ≠ .closeArray) (stack : List Frame) :
    (State.firstItem stack).step? rules t = State.begin? rules (.array [] :: stack) t := by
  cases t
  case closeArray => exact absurd rfl ht
  all_goals rfl

/-- A token that is read under the rules covered is read under those that cover them. -/
theorem Rules.Covers.step? (h : wide.Covers narrow) {s u s' : State} (halike : s.Alike u) {t : Token}
    (hstep : s.step? narrow t = some s') : ∃ u', u.step? wide t = some u' ∧ s'.Alike u' := by
  cases s <;> cases u <;> simp only [State.Alike] at halike
  case value.value => exact h.begin? halike hstep
  case firstItem.firstItem =>
    by_cases ht : t = .closeArray
    · subst ht
      obtain rfl := Option.some.inj hstep
      exact ⟨_, rfl, halike⟩
    · rw [step?_firstItem ht] at hstep
      rw [step?_firstItem ht]
      exact h.begin? (SameFrames.array halike [] []) hstep
  case firstKey.firstKey =>
    cases t <;> simp only [State.step?, reduceCtorEq, Option.some.injEq] at hstep
    case closeObject => exact ⟨_, rfl, hstep ▸ halike⟩
    case text => exact ⟨_, rfl, hstep ▸ halike⟩
  case key.key =>
    cases t <;> simp only [State.step?, reduceCtorEq, Option.some.injEq] at hstep
    case text => exact ⟨_, rfl, hstep ▸ halike⟩
  case colon.colon =>
    cases t <;> simp only [State.step?, reduceCtorEq, Option.some.injEq] at hstep
    case colon => exact ⟨_, rfl, hstep ▸ SameFrames.object halike _ _ _ _⟩
  case after.after => exact step?_after_alike halike _ _ hstep

/-- Tokens that are read under the rules covered are read under those that cover them. -/
theorem Rules.Covers.run? (h : wide.Covers narrow) {s u s' : State} (halike : s.Alike u)
    {ts : List Token} (hrun : s.run? narrow ts = some s') :
    ∃ u', u.run? wide ts = some u' ∧ s'.Alike u' := by
  induction ts generalizing s u with
  | nil =>
    obtain rfl := Option.some.inj hrun
    exact ⟨u, rfl, halike⟩
  | cons t rest ih =>
    obtain ⟨next, hstep, hrest⟩ := Option.bind_eq_some_iff.mp hrun
    obtain ⟨next', hstep', hnext⟩ := h.step? halike hstep
    obtain ⟨u', hrun', hend⟩ := ih hnext hrest
    exact ⟨u', by rw [State.run?, hstep', Option.bind_some, hrun'], hend⟩

/-- A text that is a value under the rules covered is one under those that cover them. -/
theorem Rules.Covers.read?_isSome (h : wide.Covers narrow) {cs : List Char}
    (hread : (read? narrow cs).isSome = true) : (read? wide cs).isSome = true := by
  obtain ⟨v, hv⟩ := Option.isSome_iff_exists.mp hread
  obtain ⟨tokens, htokens, hv⟩ := Option.bind_eq_some_iff.mp hv
  obtain ⟨last, hlast, hv⟩ := Option.bind_eq_some_iff.mp hv
  have hstart : (State.value []).Alike (State.value []) := rfl
  obtain ⟨last', hlast', halike⟩ := h.run? hstart hlast
  rw [read?, htokens]
  change (((State.value []).run? wide tokens).bind State.result?).isSome = true
  rw [hlast', Option.bind_some]
  -- Nothing is open at the end of the one, so nothing is open at the end of the other.
  cases last <;> cases last' <;> simp only [State.Alike] at halike
  case after.after v a w b =>
    cases a <;> cases b <;> simp_all [State.result?, SameFrames]
  all_goals simp [State.result?] at hv

end DoubleEntry.Json.Reader
