import DoubleEntry.Proofs.Answers
import DoubleEntry.Proofs.Text.Escapes
import DoubleEntry.Store.Address

/-!
# The file that a URL names

The URL of a database is read twice, once with one scheme taken away and once with all of them. Both
readings start from one name when no scheme is left behind the first. The file that is opened is what
this name stands for, and no option changes it.
-/

namespace DoubleEntry

open Text (cut)
open Text.Percent (Reads decodeAll)
open Text.Utf8 (encode)

/-! ## Schemes -/

section Schemes

variable {start cs rest : List Char}

/-- A beginning that is not there is not dropped. -/
theorem dropAll_eq_self (h : ¬start <+: cs) : dropAll start cs = cs := by
  rw [dropAll, dif_neg]
  rintro ⟨-, hprefix⟩
  exact h (List.isPrefixOf_iff_prefix.mp hprefix)

/-- A beginning that is not left behind one of its kind is dropped once. -/
theorem dropAll_append (hne : start ≠ []) (h : ¬start <+: rest) :
    dropAll start (start ++ rest) = rest := by
  have hprefix : start.isPrefixOf (start ++ rest) = true :=
    List.isPrefixOf_iff_prefix.mpr (List.prefix_append start rest)
  rw [dropAll, dif_pos ⟨hne, hprefix⟩, List.drop_left, dropAll_eq_self h]

/-- A text after a beginning has both. -/
theorem eq_append_of_after? {scheme : String} (h : after? scheme cs = some rest) :
    cs = scheme.toList ++ rest := by
  unfold after? at h
  split_ifs at h with hprefix
  obtain ⟨more, rfl⟩ := List.isPrefixOf_iff_prefix.mp hprefix
  rw [← Option.some.inj h, List.drop_left]

/-- A text does not have a beginning after which there is nothing. -/
theorem not_prefix_of_after? {scheme : String} (h : after? scheme cs = none) :
    ¬scheme.toList <+: cs := by
  unfold after? at h
  split_ifs at h with hprefix
  exact fun hscheme => hprefix (List.isPrefixOf_iff_prefix.mpr hscheme)

/-- The longer scheme begins with the shorter one. -/
theorem shortScheme_begins_longScheme : shortScheme.toList <+: longScheme.toList := by decide

/-- All schemes are dropped with the first when none is left behind it. -/
theorem afterSchemes_eq (h : ¬shortScheme.toList <+: afterScheme cs) :
    afterSchemes cs = afterScheme cs := by
  unfold afterSchemes
  unfold afterScheme at h ⊢
  have hlong {rest : List Char} (hrest : ¬shortScheme.toList <+: rest) :
      ¬longScheme.toList <+: rest := fun hprefix => hrest (shortScheme_begins_longScheme.trans hprefix)
  cases hafter : after? longScheme cs with
  | some rest =>
    rw [hafter, Option.some_or, Option.getD_some] at h
    rw [eq_append_of_after? hafter, dropAll_append (by decide) (hlong h), dropAll_eq_self h]
    rfl
  | none =>
    rw [hafter, Option.none_or] at h
    rw [dropAll_eq_self (not_prefix_of_after? hafter), Option.none_or]
    cases hshort : after? shortScheme cs with
    | some rest =>
      rw [hshort, Option.getD_some] at h
      rw [eq_append_of_after? hshort, dropAll_append (by decide) h, Option.getD_some]
    | none => rw [dropAll_eq_self (not_prefix_of_after? hshort), Option.getD_none]

/-- The scheme in front of a URL is in front of its options. -/
theorem shortScheme_begins_cut (h : shortScheme.toList <+: cs) :
    shortScheme.toList <+: (cut '?' cs).1 := by
  obtain ⟨rest, rfl⟩ := h
  have hall : shortScheme.toList.all (fun c => c ≠ '?') = true := by decide
  rw [cut, List.takeWhile_append_of_pos (List.all_eq_true.mp hall)]
  exact List.prefix_append _ _

end Schemes

/-! ## The opened file -/

namespace Address

variable {a b : Address} {url name : String}

/-- An option leaves the file as it is, and none takes a database out of memory. -/
theorem setOption_eq_ok {key value : String} (h : setOption a key value = .ok b) :
    b.file = a.file ∧ (a.inMemory = true → b.inMemory = true) := by
  unfold setOption at h
  split at h <;> cases h <;> simp

/-- So do several options. -/
theorem options_eq_ok {options : List (String × String)}
    (h : options.foldlM (fun a f => setOption a f.1 f.2) a = .ok b) :
    b.file = a.file ∧ (a.inMemory = true → b.inMemory = true) := by
  induction options generalizing a with
  | nil =>
    obtain rfl := Except.ok.inj h
    exact ⟨rfl, id⟩
  | cons option rest ih =>
    rw [List.foldlM_cons] at h
    obtain ⟨next, hnext, hrest⟩ := bind_eq_ok_iff.mp h
    obtain ⟨hfile, hmemory⟩ := setOption_eq_ok hnext
    obtain ⟨hfiles, hmemories⟩ := ih hrest
    exact ⟨hfiles.trans hfile, hmemories ∘ hmemory⟩

/-- The address of a name that stands for itself in memory, or for what it reads as. -/
theorem ofFile_cases (h : ofFile name = .ok a) :
    a.inMemory = true ∨
      name ≠ memoryName ∧ Text.Utf8.decode? (decodeAll (encode name)) = some a.file := by
  unfold ofFile at h
  split_ifs at h with hname
  · exact .inl (Except.ok.inj h ▸ rfl)
  · split at h
    · exact .inr ⟨hname, Except.ok.inj h ▸ ‹_›⟩
    · cases h

/-- A URL behind whose first scheme there is no further one names a database without a file, or opens
the file that the name in it reads as. -/
theorem ofUrl_cases (hscheme : ¬shortScheme.toList <+: (writtenFile url).toList)
    (h : ofUrl url = .ok a) :
    a.isFree = true ∨ writtenFile url ≠ memoryName ∧
      Text.Utf8.decode? (decodeAll (encode (writtenFile url))) = some a.file := by
  rw [writtenFile, String.toList_ofList] at hscheme
  rw [ofUrl, afterSchemes_eq fun hprefix => hscheme (shortScheme_begins_cut hprefix)] at h
  obtain ⟨start, hstart, hoptions⟩ := bind_eq_ok_iff.mp h
  obtain ⟨hfile, hmemory⟩ := options_eq_ok hoptions
  rw [hfile]
  obtain hfree | hread := ofFile_cases hstart
  · exact .inl (by rw [isFree, hmemory hfree]; rfl)
  · exact .inr hread

end Address

end DoubleEntry
