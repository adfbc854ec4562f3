import DoubleEntry.Proofs.Search.Pieces
import DoubleEntry.Proofs.Search.Scopes

/-!
# The form of a statement

The text of every statement is well formed: its brackets are balanced, it has one placeholder for each
operand, and the operands at the places of paths are paths along checked keys. It opens its scans in
the order of their numbers, each of them once, and names the element of a scan only inside of it.
-/

namespace DoubleEntry.Search

open Text (IsBalanced endsBroken isBreak isGap nest? split startsBroken words)

/-- A statement that is well formed and opens so many scans. -/
structure Statement.IsWellFormed (s : Statement) (scans : ℕ) : Prop where
  /-- There is one placeholder for each operand. -/
  placeholders : s.text.toList.count '?' = s.operands.length
  /-- Round and square brackets belong to each other. -/
  balanced : IsBalanced s.text.toList
  /-- Every operand suits the text between the placeholder before it and its own. -/
  operands : ∀ p ∈ (split '?' s.text.toList).zip s.operands, Suits p.1 p.2
  /-- The words that are names of scans are the names from one on, in order. -/
  names : (words s.text.toList).filter isScanName = (List.range' 1 scans).map scanName
  /-- There are no more scans than names. -/
  count : (words s.text.toList).count "json_each" = scans
  /-- Each of these names is given to a scan of an array where that is opened. -/
  opened : ∀ scan ∈ List.range' 1 scans, ∃ before array inside after,
    IsScan scan before array inside after (words s.text.toList)
  /-- The element of a scan is named only inside of that scan. -/
  references : ∀ scan before after, words s.text.toList = before ++ scanReference scan :: after →
    StandsInside scan before (scanReference scan) after

/-! ## Names and paths -/

/-- Whether a character may stand in the name of a scan or of its element. -/
def isNameLetter (c : Char) : Bool := c.isAlphanum || c == '.'

/-- Such a character is none that means something for words, brackets or placeholders. -/
theorem ne_of_isNameLetter {c d : Char} (hc : isNameLetter c = true)
    (hd : d ∈ [' ', ',', '(', ')', '[', ']', '?']) : c ≠ d := by
  have hnone : ∀ d ∈ [' ', ',', '(', ')', '[', ']', '?'], isNameLetter d = false := by
    simp [isNameLetter]
  rintro rfl
  exact absurd (hc.symm.trans (hnone c hd)) (by simp)

/-- Names are one word, balanced, and no placeholder is in them. -/
theorem name_spec {name : String} (hne : name.toList ≠ [])
    (h : ∀ c ∈ name.toList, isNameLetter c = true) :
    words name.toList = [name] ∧ IsBalanced name.toList ∧ '?' ∉ name.toList := by
  have hother : ∀ c ∈ name.toList, ∀ d ∈ [' ', ',', '(', ')', '[', ']', '?'], c ≠ d :=
    fun c hc d hd => ne_of_isNameLetter (h c hc) hd
  refine ⟨?_, ?_, fun hmem => hother _ hmem '?' (by simp) rfl⟩
  · rw [Text.words_of_forall hne, String.ofList_toList]
    intro c hc
    have hc := hother c hc
    simp only [List.forall_mem_cons] at hc
    simp [isBreak, isGap, hc]
  · apply IsBalanced.of_forall
    intro c hc waiting
    have hc := hother c hc
    simp only [List.forall_mem_cons] at hc
    simp [nest?, hc]

/-- The name of a scan is a name. -/
theorem scanName_spec (scan : ℕ) :
    words (scanName scan).toList = [scanName scan] ∧ IsBalanced (scanName scan).toList ∧
      '?' ∉ (scanName scan).toList := by
  apply name_spec <;> rw [toList_scanName]
  · exact List.cons_ne_nil _ _
  · refine List.forall_mem_cons.mpr ⟨rfl, fun c hc => ?_⟩
    simp [isNameLetter, Char.isAlphanum, isDigit_of_mem_toDigits hc]

/-- So is that of its element. -/
theorem scanReference_spec (scan : ℕ) :
    words (scanReference scan).toList = [scanReference scan] ∧
      IsBalanced (scanReference scan).toList ∧ '?' ∉ (scanReference scan).toList := by
  apply name_spec <;> rw [toList_scanReference]
  · exact List.cons_ne_nil _ _
  · refine List.forall_mem_cons.mpr ⟨rfl, List.forall_mem_append.mpr ⟨fun c hc => ?_,
      by simp [isNameLetter]⟩⟩
    simp [isNameLetter, Char.isAlphanum, isDigit_of_mem_toDigits hc]

namespace Path

variable {scans : List ℕ} {path : Path}

/-- The text of a path from the root is a placeholder. -/
theorem spelled_data (keys : List String) : spelled (data keys).fragments = ['?'] := by
  simp [fragments]

/-- The text of the path to the element of a scan is a word. -/
theorem spelled_element_nil (scan : ℕ) :
    spelled (element scan []).fragments = (scanReference scan).toList := by
  simp [fragments, scanReference]

/-- The text of a path inside the element of a scan. -/
theorem spelled_element_cons (scan : ℕ) (key : String) (keys : List String) :
    spelled (element scan (key :: keys)).fragments =
      '(' :: ((scanReference scan).toList ++ " || ?)".toList) := by
  simp [fragments, scanReference]

/-- A path suits the data column, and keys behind the element of a scan suit that. -/
theorem laid_fragments (hpath : path.IsWellFormed) {before : List Char}
    (hbefore : ".data, ".toList <:+ before) : Laid before path.fragments := by
  have hnot : ∀ text : List Char, ".data, ".toList <:+ text → ".fullkey || ".toList <:+ text →
      False := by
    intro text hdata hkey
    have hboth := List.suffix_of_suffix_length_le hdata hkey (by decide)
    exact absurd hboth (by decide)
  cases path with
  | data keys =>
    refine ⟨⟨fun _ => ⟨keys, hpath.1, hpath.2, rfl⟩, fun hkey => ?_, .inl hbefore⟩, trivial⟩
    exact (hnot before hbefore hkey).elim
  | element scan keys =>
    cases keys with
    | nil => exact ⟨(scanReference_spec scan).2.2, trivial⟩
    | cons key keys =>
      have htext : ("(" ++ scanName scan ++ ".fullkey || ").toList =
          "(".toList ++ (scanName scan).toList ++ ".fullkey || ".toList := by
        rw [String.toList_append, String.toList_append]
      have hsuffix : ".fullkey || ".toList <:+
          before ++ ("(" ++ scanName scan ++ ".fullkey || ").toList := by
        rw [htext, ← List.append_assoc]
        exact List.suffix_append _ _
      refine ⟨?_, ⟨fun hdata => (hnot _ hdata hsuffix).elim, fun _ => ?_, .inr (.inl hsuffix)⟩,
        by decide, trivial⟩
      · rw [htext]
        have hname := (scanName_spec scan).2.2
        simp [hname]
      · exact ⟨key :: keys, List.cons_ne_nil _ _, hpath, rfl⟩

/-- The words of a path in scope are scoped. -/
theorem scoped_fragments (hpath : path.InScope scans) :
    Scoped scans [] (words (spelled path.fragments)) := by
  cases path with
  | data keys =>
    rw [spelled_data]
    exact .of_isPlain scans (by decide)
  | element scan keys =>
    have hname := (scanReference_spec scan).1
    cases keys with
    | nil =>
      rw [spelled_element_nil, hname]
      exact .reference hpath
    | cons key keys =>
      have hopening : Scoped scans [] (words ['(']) := .of_isPlain scans (by decide)
      have hclosing : Scoped scans [] (words " || ?)".toList) :=
        .of_isPlain scans (by decide)
      have hstarts : startsBroken " || ?)".toList = true := by decide
      rw [spelled_element_cons, Text.words_cons_of_isBreak (by decide),
        Text.words_append (.inr hstarts), hname]
      exact hopening.append ((Scoped.reference hpath).append hclosing)

/-- The text of a path is balanced. -/
theorem isBalanced_fragments (path : Path) : IsBalanced (spelled path.fragments) := by
  cases path with
  | data keys =>
    rw [spelled_data]
    decide
  | element scan keys =>
    have hname := (scanReference_spec scan).2.1
    cases keys with
    | nil =>
      rwa [spelled_element_nil]
    | cons key keys =>
      have houter : IsBalanced (['('] ++ " || ?)".toList) := by decide
      rw [spelled_element_cons]
      exact houter.insert hname

/-- A function of the value at a path is neat. -/
theorem neat_call (hpath : path.IsWellFormed) (hscope : path.InScope scans) {function table : String}
    (hpair : IsPair (function ++ "(" ++ table ++ ".data, ") ")") :
    Neat scans [] (path.call function table) := by
  apply Neat.between hpair _ (scoped_fragments hscope) path.isBalanced_fragments
  intro before
  apply laid_fragments hpath
  rw [String.toList_append, ← List.append_assoc]
  exact List.suffix_append _ _

variable (space : Namespace)

/-- The type of the value at a path is neat. -/
theorem neat_typeOf (hpath : path.IsWellFormed) (hscope : path.InScope scans) :
    Neat scans [] (path.typeOf space.table) :=
  neat_call hpath hscope (by cases space <;> decide)

/-- The value at a path is neat. -/
theorem neat_extracted (hpath : path.IsWellFormed) (hscope : path.InScope scans) :
    Neat scans [] (path.extracted space.table) :=
  neat_call hpath hscope (by cases space <;> decide)

end Path

/-! ## Conditions -/

/-- The left side of a comparison is neat. -/
theorem Term.neat_fragments {scans : List ℕ} {term : Term} (space : Namespace)
    (hpaths : ∀ path ∈ term.paths, path.IsWellFormed)
    (hscope : ∀ path ∈ term.paths, path.InScope scans) :
    Neat scans [] (term.fragments space.table) := by
  cases term with
  | column c => exact .text scans (by cases space <;> cases c <;> decide)
  | extract path =>
    exact path.neat_extracted space (hpaths path List.mem_cons_self) (hscope path List.mem_cons_self)
  | double path =>
    have hinner := path.neat_extracted space (hpaths path List.mem_cons_self)
      (hscope path List.mem_cons_self)
    exact hinner.enclosed (by decide)

/-- The text before the array of a scan over a table. -/
def scanBefore (table : String) : String :=
  "EXISTS (SELECT 1 FROM json_each(" ++ table ++ ".data, "

/-- The text between the array of a scan and what is inside of it. -/
def scanBetween (scan : ℕ) : String := ") AS " ++ scanName scan ++ " WHERE "

/-- The text before an array has fixed words, and the data column at its end. -/
theorem scanBefore_spec (space : Namespace) :
    words (scanBefore space.table).toList =
        ["EXISTS", "(", "SELECT", "1", "FROM", "json_each", "(", space.table ++ ".data"] ∧
      '?' ∉ (scanBefore space.table).toList ∧ endsBroken (scanBefore space.table).toList = true ∧
      ".data, ".toList <:+ (scanBefore space.table).toList := by
  cases space <;> decide

/-- The text between has fixed words around the name of the scan, and breaks on both sides. -/
theorem scanBetween_spec (scan : ℕ) :
    words (scanBetween scan).toList = [")", "AS", scanName scan, "WHERE"] ∧
      '?' ∉ (scanBetween scan).toList ∧
      (∀ rest, startsBroken ((scanBetween scan).toList ++ rest) = true) ∧
      endsBroken (scanBetween scan).toList = true := by
  obtain ⟨hwords, -, hplaceholder⟩ := scanName_spec scan
  have hends : endsBroken ") AS ".toList = true := by decide
  have hstarts : startsBroken " WHERE ".toList = true := by decide
  have hstop : endsBroken " WHERE ".toList = true := by decide
  have hfirst : words ") AS ".toList = [")", "AS"] := by decide
  have hlast : words " WHERE ".toList = ["WHERE"] := by decide
  rw [scanBetween, String.toList_append, String.toList_append]
  refine ⟨?_, by simp [hplaceholder], fun _ => rfl, Text.endsBroken_append hstop _⟩
  rw [Text.words_append (.inr hstarts), Text.words_append (.inl hends), hwords, hfirst, hlast]
  rfl

/-- The brackets of a scan are balanced around balanced texts. -/
theorem isBalanced_scan (space : Namespace) (scan : ℕ) {array inside : List Char}
    (harray : IsBalanced array) (hinside : IsBalanced inside) :
    IsBalanced ((scanBefore space.table).toList ++
      (array ++ ((scanBetween scan).toList ++ (inside ++ [')'])))) := by
  have hfixed : IsBalanced ((scanBefore space.table).toList ++ ") AS ".toList ++
      (" WHERE ".toList ++ [')'])) := by
    cases space <;> decide
  have hnamed := hfixed.insert (scanName_spec scan).2.1
  have hassoc : (scanBefore space.table).toList ++ ") AS ".toList ++
      ((scanName scan).toList ++ (" WHERE ".toList ++ [')'])) =
        ((scanBefore space.table).toList ++ (scanBetween scan).toList) ++ [')'] := by
    simp [scanBetween]
  rw [hassoc] at hnamed
  have houter := hnamed.insert hinside
  rw [List.append_assoc] at houter
  exact houter.insert harray

/-- A scan of a neat path with a neat condition inside of it is neat. -/
theorem neat_someElement {scans opened : List ℕ} {scan : ℕ} {path : Path} {c : Condition}
    (space : Namespace) (hpath : path.IsWellFormed) (hscope : path.InScope scans)
    (h : Neat (scan :: scans) opened (c.fragments space.table)) :
    Neat scans (scan :: opened) ((Condition.someElement scan path c).fragments space.table) := by
  obtain ⟨hbefore, hplaceholder, hends, hdata⟩ := scanBefore_spec space
  obtain ⟨hbetween, hplaceholder', hstarts, hends'⟩ := scanBetween_spec scan
  have hfragments : (Condition.someElement scan path c).fragments space.table =
      .text (scanBefore space.table) :: (path.fragments ++ .text (scanBetween scan) ::
        (c.fragments space.table ++ [.text ")"])) := rfl
  have hspelled : spelled ((Condition.someElement scan path c).fragments space.table) =
      (scanBefore space.table).toList ++ (spelled path.fragments ++ ((scanBetween scan).toList ++
        (spelled (c.fragments space.table) ++ [')']))) := by
    rw [hfragments]
    simp
  constructor
  case laid =>
    intro before
    have hbehind : ".data, ".toList <:+ before ++ (scanBefore space.table).toList :=
      hdata.trans (List.suffix_append _ _)
    have hclose : ∀ text, Laid text [.text ")"] := fun _ => ⟨by decide, trivial⟩
    rw [hfragments]
    refine ⟨hplaceholder, (Path.laid_fragments hpath hbehind).append fun text => ?_⟩
    exact ⟨hplaceholder', (h.laid _).append hclose⟩
  case scope =>
    have hclose : startsBroken [')'] = true := by decide
    have hclosing : words [')'] = [")"] := by decide
    have hcolumn : isPlain (space.table ++ ".data") = true := by cases space <;> decide
    have hbalanced : IsBalanced (space.table ++ ".data").toList := by
      cases space <;> decide
    have harray : Scoped scans [] ((space.table ++ ".data") :: words (spelled path.fragments)) :=
      (Scoped.word scans hcolumn).append (Path.scoped_fragments hscope)
    have hscan := Scoped.scan harray
      (hbalanced.append (Text.isBalanced_flatMap_words.mpr path.isBalanced_fragments)) h.scope
      (Text.isBalanced_flatMap_words.mpr h.balanced)
    rw [hspelled, Text.words_append (.inl hends), Text.words_append (.inr (hstarts _)),
      Text.words_append (.inl hends'), Text.words_append (.inr hclose), hbefore, hbetween, hclosing]
    simpa [scanOpening] using hscan
  case balanced =>
    rw [hspelled]
    exact isBalanced_scan space scan path.isBalanced_fragments h.balanced

namespace Condition

/-- Whether a text may stand between two conditions. -/
def IsJoiner (joiner : String) : Prop :=
  IsFixed joiner ∧ startsBroken joiner.toList = true ∧ endsBroken joiner.toList = true

instance (joiner : String) : Decidable (IsJoiner joiner) := inferInstanceAs (Decidable (_ ∧ _ ∧ _))

/-- The sign of a comparator is a word for values. -/
theorem sign_mem_valueWords (comparator : Comparator) :
    " " ++ comparator.sign ++ " " ∈ valueWords := by
  cases comparator with
  | relation r => cases r <;> decide
  | like negated => cases negated <;> decide

mutual

/-- A condition along well formed paths that are in scope is neat. -/
theorem neat_fragments (space : Namespace) (c : Condition) {scans : List ℕ}
    (hpaths : c.IsWellFormed) (hscope : c.InScope scans) :
    Neat scans c.opened (c.fragments space.table) := by
  cases c with
  | compare term comparator operand =>
    exact (Term.neat_fragments space hpaths hscope).valued (sign_mem_valueWords comparator) operand
  | hasType path type =>
    have htype := path.neat_typeOf space (hpaths path List.mem_cons_self) hscope
    exact htype.followed (by cases type <;> decide) (by cases type <;> decide)
  | isNumber path =>
    have htype := path.neat_typeOf space (hpaths path List.mem_cons_self) hscope
    exact htype.followed (by decide) (by decide)
  | glob path negated test =>
    have hvalue := path.neat_extracted space (hpaths path List.mem_cons_self) hscope
    exact hvalue.followed (by cases negated <;> cases test <;> decide)
      (by cases negated <;> cases test <;> decide)
  | isNull path negated =>
    have hvalue := path.neat_extracted space (hpaths path List.mem_cons_self) hscope
    exact hvalue.followed (by cases negated <;> decide)
      (by cases negated <;> decide)
  | constant b => cases b <;> exact .text scans (by decide)
  | not c =>
    have hends : endsBroken "NOT ".toList = true := by decide
    exact (Neat.text scans (by decide)).append (neat_fragments space c hpaths hscope)
      (.inl hends)
  | all cs =>
    exact (neat_joined space cs (isWellFormed_all.mp hpaths) hscope (by decide)).enclosed
      (by decide)
  | any cs =>
    exact (neat_joined space cs (isWellFormed_any.mp hpaths) hscope (by decide)).enclosed
      (by decide)
  | someElement scan path c =>
    obtain ⟨hpath, hinside⟩ := List.forall_mem_cons.mp hpaths
    exact neat_someElement space hpath hscope.1 (neat_fragments space c hinside hscope.2)

/-- Conditions with joiners between them are neat. -/
theorem neat_joined (space : Namespace) (cs : List Condition) {scans : List ℕ}
    (hpaths : ∀ c ∈ cs, c.IsWellFormed) (hscope : AllInScope scans cs) {joiner : String}
    (hjoiner : IsJoiner joiner) :
    Neat scans (openedByAll cs) (joined space.table joiner cs) := by
  match cs with
  | [] => exact .nil scans
  | [c] =>
    have hc := neat_fragments space c (hpaths c List.mem_cons_self) hscope.1
    rwa [openedByAll, openedByAll, List.append_nil]
  | c :: d :: rest =>
    obtain ⟨hfixed, hstarts, hends⟩ := hjoiner
    obtain ⟨hc, hrest⟩ := List.forall_mem_cons.mp hpaths
    have hfirst := (neat_fragments space c hc hscope.1).followed hfixed hstarts
    have hmore := neat_joined space (d :: rest) hrest hscope.2 ⟨hfixed, hstarts, hends⟩
    have htogether := hfirst.append hmore (.inl (endsBroken_spelled hends _))
    rwa [List.append_assoc] at htogether

end

end Condition

/-! ## Statements -/

/-- The columns of a search are a fixed text. -/
theorem isFixed_selection (space : Namespace) : IsFixed space.selection := by
  unfold IsFixed Namespace.selection
  -- The texts are long, so their letters are read off before they are looked at.
  cases space <;> simp only [String.toList_append]
  · repeat rw [String.toList_ofList]
    decide
  · repeat rw [String.toList_ofList]
    decide +kernel

namespace Plan

variable {p : Plan}

/-- The order of the rows and the part of them that is asked for are neat. -/
theorem neat_ending (space : Namespace) (p : Plan) :
    Neat [] [] (.text space.ordering :: p.pageFragments) := by
  have hordering : Neat [] [] [.text space.ordering] :=
    .text [] (by cases space <;> decide)
  have hlimit : " LIMIT " ∈ valueWords := by decide
  have hoffset : " OFFSET " ∈ valueWords := by decide
  unfold pageFragments
  split_ifs
  · exact hordering
  · exact (hordering.valued hlimit _).valued hoffset _

/-- The pieces of a search are neat when its conditions are numbered from one on. -/
theorem neat_fragments (space : Namespace) {n : ℕ} (hpaths : ∀ c ∈ p.conditions, c.IsWellFormed)
    (hnumbered : Condition.Numbered [] 0 p.conditions n) :
    Neat [] (List.range' 1 n) (p.fragments space) := by
  have hopened : Condition.openedByAll p.conditions = List.range' 1 n := hnumbered.opened
  have hselection : Neat [] [] [.text space.selection] := .text [] (isFixed_selection space)
  have hending := p.neat_ending space
  have hstarts : startsBroken (spelled (.text space.ordering :: p.pageFragments)) = true :=
    Text.startsBroken_append (by cases space <;> decide) _
  rw [← hopened]
  unfold fragments
  cases hconditions : p.conditions with
  | nil => exact hselection.append hending (.inr hstarts)
  | cons c rest =>
    rw [hconditions] at hpaths hnumbered
    have hjoiner : Condition.IsJoiner " AND " := by decide
    have hjoined := Condition.neat_joined space (c :: rest) hpaths hnumbered.inScope hjoiner
    have hends : endsBroken " WHERE ".toList = true := by decide
    have hwhere : IsFixed " WHERE " := by decide
    have hbegin := hselection.followed hwhere (by decide)
    have htogether := (hbegin.append hjoined (.inl (endsBroken_spelled hends _))).append hending
      (.inr hstarts)
    simpa using htogether

/-- The text of a search is that of its pieces. -/
theorem toList_statement (space : Namespace) (p : Plan) :
    (p.statement space).text.toList = spelled (p.fragments space) := by
  rw [statement, Statement.ofFragments]
  simp [spelled, String.toList_join, List.flatMap_map]

end Plan

namespace Query

/-- Every statement of an accepted query is well formed. -/
theorem compile_isWellFormed {space : Namespace} {q : Query} {s : Statement}
    (h : q.compile space = .ok s) : ∃ scans, s.IsWellFormed scans := by
  obtain ⟨p, hplan, rfl⟩ := map_eq_ok_iff.mp h
  obtain ⟨n, hnumbered⟩ := p.exists_numbered
  have hneat := p.neat_fragments space (Query.isWellFormed_conditions hplan) hnumbered
  refine ⟨n, ?_⟩
  constructor
  all_goals rw [Plan.toList_statement]
  case placeholders => exact (hneat.laid []).count_spelled
  case balanced => exact hneat.balanced
  case operands => exact (hneat.laid []).suits_zip List.not_mem_nil
  case names => exact hneat.scope.filter_isScanName
  case count => rw [hneat.scope.count_json_each, List.length_range']
  case opened => exact fun scan hscan => hneat.scope.exists_isScan hscan
  case references =>
    exact fun scan before after heq =>
      (hneat.scope.mem_or_standsInside heq).resolve_left List.not_mem_nil

/-- A query for rows with a batch that has a lot and a mark in a list, and with an id or a tag. -/
def nested : Query :=
  ⟨⟨[], [[("batches", .array [.object [("lot", .integer 7), ("marks", .array [.text "a?)"])]])]], []⟩,
    ⟨[[("id", [("like", .text "(%")])]], [[("tag", .text "e9.fullkey")]], []⟩, none, some 10⟩

/-- The query opens three scans, whatever the texts in it look like. -/
theorem compile_isWellFormed_nested :
    ∃ s, nested.compile .accounts = .ok s ∧ s.IsWellFormed 3 := by
  obtain ⟨p, hplan, hcount⟩ : ∃ p, nested.plan .accounts = .ok p ∧
      (words (spelled (p.fragments .accounts))).count "json_each" = 3 := ⟨_, rfl, by decide +kernel⟩
  have hcompile : nested.compile .accounts = .ok (p.statement .accounts) := by
    rw [compile, hplan]
    rfl
  obtain ⟨scans, h⟩ := compile_isWellFormed hcompile
  have hscans : scans = 3 := by rw [← h.count, Plan.toList_statement, hcount]
  exact ⟨_, hcompile, hscans ▸ h⟩

end Query

end DoubleEntry.Search
