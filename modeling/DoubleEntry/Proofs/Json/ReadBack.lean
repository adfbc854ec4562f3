import DoubleEntry.Json.Reader
import DoubleEntry.Proofs.Json.Scanning

/-!
# Reading what was written

Reading the compact text of a JSON value gives a value that is computed from the first without any
text: words are read again, fields join the fields before them, and nothing may nest too deep. The
equation holds under all rules of reading, also where reading fails.

The statement does not say that a value is read back as itself. Doubles may change, and so does an
object whose fields are out of order.
-/

namespace DoubleEntry.Json

open Token (scan?)

namespace Reader

variable (rules : Rules)

mutual

/-- What a written value is read back as, inside `depth` open arrays and objects. -/
def readBack? (depth : Nat) : Json → Option Json
  | .null => rules.ofWord? ['n', 'u', 'l', 'l']
  | .bool true => rules.ofWord? ['t', 'r', 'u', 'e']
  | .bool false => rules.ofWord? ['f', 'a', 'l', 's', 'e']
  | .integer n => rules.ofWord? (integerText n)
  | .real x => rules.ofWord? (realLetters x)
  | .text s => some (.text s)
  | .array items =>
    if depth < rules.deepest then (readBackItems? (depth + 1) items).map .array else none
  | .object fields =>
    if depth < rules.deepest then (readBackFields? (depth + 1) [] fields).map .object else none

/-- What written items are read back as. -/
def readBackItems? (depth : Nat) : List Json → Option (List Json)
  | [] => some []
  | v :: rest =>
    (readBack? depth v).bind fun w => (readBackItems? depth rest).map (w :: ·)

/-- What written fields are read back as behind the fields before them. -/
def readBackFields? (depth : Nat) (before : Fields) : List (String × Json) → Option Fields
  | [] => some before
  | (k, v) :: rest =>
    (readBack? depth v).bind fun w => readBackFields? depth (rules.put k w before) rest

end

variable {rules}

/-- A step that succeeds hands the remaining tokens to the next state. -/
theorem State.run?_cons {s next : State} {t : Token} (h : s.step? rules t = some next)
    (ts : List Token) : s.run? rules (t :: ts) = next.run? rules ts := by
  rw [State.run?, h, Option.bind_some]

/-- A word is read by its rule. -/
theorem State.run?_word (stack : List Frame) (letters : List Char) (ts : List Token) :
    (State.value stack).run? rules (.word letters :: ts) =
      (rules.ofWord? letters).bind fun w => (State.after w stack).run? rules ts := by
  rw [State.run?, State.step?, State.begin?]
  cases rules.ofWord? letters <;> rfl

/-- An opening bracket is read unless it nests too deep. -/
theorem State.run?_open {stack : List Frame} {t : Token} {next : List Frame → State}
    (h : State.begin? rules stack t = State.open? rules stack next) (ts : List Token) :
    (State.value stack).run? rules (t :: ts) =
      if stack.length < rules.deepest then (next stack).run? rules ts else none := by
  rw [State.run?, State.step?, h, State.open?]
  split <;> rfl

/-- The first item of an array is read like any other. -/
theorem State.run?_firstItem (stack : List Frame) (v : Json) (ts : List Token) :
    (State.firstItem stack).run? rules (v.tokens ++ ts) =
      (State.value (.array [] :: stack)).run? rules (v.tokens ++ ts) := by
  cases v with
  | bool b => cases b <;> rfl
  | _ => rfl

mutual

/-- The tokens of a value lead to what it is read back as. -/
theorem run?_tokens (v : Json) (stack : List Frame) (ts : List Token) :
    (State.value stack).run? rules (v.tokens ++ ts) =
      (readBack? rules stack.length v).bind fun w => (State.after w stack).run? rules ts := by
  cases v with
  | null => exact State.run?_word stack _ ts
  | bool b => cases b <;> exact State.run?_word stack _ ts
  | integer n => exact State.run?_word stack _ ts
  | real x => exact State.run?_word stack _ ts
  | text s => rfl
  | array items =>
    rw [tokens, List.cons_append, State.run?_open rfl, readBack?]
    split
    · rw [List.append_assoc, List.singleton_append, Option.bind_map]
      cases items with
      | nil => rfl
      | cons v rest =>
        have hfirst : (State.firstItem stack).run? rules (itemTokens (v :: rest) ++
            .closeArray :: ts) = (State.value (.array [] :: stack)).run? rules
              (itemTokens (v :: rest) ++ .closeArray :: ts) := by
          cases rest with
          | nil => exact State.run?_firstItem stack v _
          | cons w more =>
            rw [itemTokens, List.append_assoc]
            exact State.run?_firstItem stack v _
            exact List.cons_ne_nil w more
        rw [hfirst, run?_itemTokens (v :: rest) (List.cons_ne_nil v rest) [] stack ts]
        rfl
    · rfl
  | object fields =>
    rw [tokens, List.cons_append, State.run?_open rfl, readBack?]
    split
    · rw [List.append_assoc, List.singleton_append, Option.bind_map]
      cases fields with
      | nil => rfl
      | cons field rest =>
        obtain ⟨k, v⟩ := field
        have hfirst : (State.firstKey stack).run? rules (fieldTokens ((k, v) :: rest) ++
            .closeObject :: ts) = (State.key [] stack).run? rules
              (fieldTokens ((k, v) :: rest) ++ .closeObject :: ts) := by
          cases rest <;> rfl
        rw [hfirst, run?_fieldTokens ((k, v) :: rest) (List.cons_ne_nil _ rest) [] stack ts]
        rfl
    · rfl

/-- The tokens of items lead to what they are read back as, behind the items before them. -/
theorem run?_itemTokens (items : List Json) (hne : items ≠ []) (before : List Json)
    (stack : List Frame) (ts : List Token) :
    (State.value (.array before :: stack)).run? rules (itemTokens items ++ .closeArray :: ts) =
      (readBackItems? rules (stack.length + 1) items).bind fun ws =>
        (State.after (.array (before.reverse ++ ws)) stack).run? rules ts := by
  match items with
  | [v] =>
    rw [itemTokens, run?_tokens v (.array before :: stack), readBackItems?, List.length_cons]
    cases readBack? rules (stack.length + 1) v with
    | none => rfl
    | some w =>
      have hclose : (State.after w (.array before :: stack)).step? rules .closeArray =
          some (.after (.array (w :: before).reverse) stack) := rfl
      rw [Option.bind_some, State.run?_cons hclose, List.reverse_cons]
      rfl
  | v :: u :: more =>
    rw [itemTokens, List.append_assoc, List.cons_append, run?_tokens v (.array before :: stack),
      readBackItems?, List.length_cons]
    · cases readBack? rules (stack.length + 1) v with
      | none => rfl
      | some w =>
        have hcomma : (State.after w (.array before :: stack)).step? rules .comma =
            some (.value (.array (w :: before) :: stack)) := rfl
        rw [Option.bind_some, State.run?_cons hcomma,
          run?_itemTokens (u :: more) (List.cons_ne_nil u more) (w :: before) stack ts,
          Option.bind_some, Option.bind_map]
        simp
    · exact List.cons_ne_nil u more

/-- The tokens of fields lead to what they are read back as, behind the fields before them. -/
theorem run?_fieldTokens (fields : List (String × Json)) (hne : fields ≠ []) (before : Fields)
    (stack : List Frame) (ts : List Token) :
    (State.key before stack).run? rules (fieldTokens fields ++ .closeObject :: ts) =
      (readBackFields? rules (stack.length + 1) before fields).bind fun found =>
        (State.after (.object found) stack).run? rules ts := by
  have hkey : ∀ k, (State.key before stack).step? rules (.text k) =
      some (.colon before k stack) := fun _ => rfl
  have hcolon : ∀ k, (State.colon before k stack).step? rules .colon =
      some (.value (.object before k :: stack)) := fun _ => rfl
  match fields with
  | [(k, v)] =>
    rw [fieldTokens, List.cons_append, List.cons_append, State.run?_cons (hkey k),
      State.run?_cons (hcolon k), run?_tokens v (.object before k :: stack), readBackFields?,
      List.length_cons]
    cases readBack? rules (stack.length + 1) v with
    | none => rfl
    | some w => rfl
  | (k, v) :: field :: more =>
    rw [fieldTokens, List.cons_append, List.cons_append, List.append_assoc, List.cons_append,
      State.run?_cons (hkey k), State.run?_cons (hcolon k),
      run?_tokens v (.object before k :: stack), readBackFields?, List.length_cons]
    · cases readBack? rules (stack.length + 1) v with
      | none => rfl
      | some w =>
        have hcomma : (State.after w (.object before k :: stack)).step? rules .comma =
            some (.key (rules.put k w before) stack) := rfl
        rw [Option.bind_some, State.run?_cons hcomma,
          run?_fieldTokens (field :: more) (List.cons_ne_nil field more) (rules.put k w before)
            stack ts, Option.bind_some]
    · exact List.cons_ne_nil field more

end

/-- Under any rules a written value is read back as computed. -/
theorem read?_letters (rules : Rules) (v : Json) :
    read? rules v.letters = readBack? rules 0 v := by
  have h : (State.value []).run? rules (v.tokens ++ []) = _ := run?_tokens v [] []
  rw [List.append_nil] at h
  rw [read?, scan?_letters]
  change ((State.value []).run? rules v.tokens).bind State.result? = _
  rw [h, List.length_nil]
  cases readBack? rules 0 v <;> rfl

end Reader

/-- A rendered value is read back as computed. -/
theorem parse?_render (v : Json) : parse? v.render = Reader.readBack? Reader.strict 0 v := by
  rw [parse?, render, String.toList_ofList, Reader.read?_letters]

namespace Fields

/-- Setting a field adds no other key. -/
theorem mem_keys_put {key k : String} {value : Json} {fields : Fields}
    (h : k ∈ (put key value fields).keys) : k = key ∨ k ∈ fields.keys := by
  induction fields with
  | nil => exact Or.inl (by simpa [put, keys] using h)
  | cons field rest ih =>
    obtain ⟨l, v⟩ := field
    simp only [put] at h
    split_ifs at h
    · rcases List.mem_cons.mp h with h | h
      · exact Or.inl h
      · exact Or.inr (List.mem_cons_of_mem _ h)
    · exact List.mem_cons.mp h
    · rcases List.mem_cons.mp h with h | h
      · exact Or.inr (h ▸ List.mem_cons_self)
      · exact (ih h).imp_right (List.mem_cons_of_mem _)

end Fields

/-- Reading fields back adds no key to those that were written. -/
theorem Reader.mem_keys_readBackFields? {depth : Nat} {fields before found : Fields} {k : String}
    (h : readBackFields? strict depth before fields = some found) (hk : k ∈ found.keys) :
    k ∈ before.keys ∨ k ∈ fields.keys := by
  induction fields generalizing before with
  | nil =>
    obtain rfl : before = found := by simpa [readBackFields?] using h
    exact Or.inl hk
  | cons field rest ih =>
    obtain ⟨l, v⟩ := field
    obtain ⟨w, -, hrest⟩ := Option.bind_eq_some_iff.mp h
    rcases ih hrest with hput | hlater
    · rcases Fields.mem_keys_put hput with rfl | hbefore
      · exact Or.inr List.mem_cons_self
      · exact Or.inl hbefore
    · exact Or.inr (List.mem_cons_of_mem _ hlater)

/-- An object that is read back from an object has no other keys. -/
theorem mem_keys_of_parse?_render_object {fields found : Fields} {k : String}
    (h : parse? (Json.object fields).render = some (.object found)) (hk : k ∈ found.keys) :
    k ∈ fields.keys := by
  rw [parse?_render, Reader.readBack?, if_pos (by decide)] at h
  obtain ⟨found', hfound, heq⟩ := Option.map_eq_some_iff.mp h
  obtain rfl : found' = found := by simpa using heq
  exact (Reader.mem_keys_readBackFields? hfound hk).resolve_left (by simp [Fields.keys])

end DoubleEntry.Json
