import DoubleEntry.Proofs.Text.Escapes
import DoubleEntry.Proofs.Text.Parts
import DoubleEntry.Store.Disk

/-!
# Paths with escapes

A path is a directory and a last name. When no name of the directory has an escape and the last name
stands for a name, the path that is written and the path that is read have one directory. A directory
that has been made is there.
-/

namespace DoubleEntry

open Text (split)
open Text.Percent (IsEscaped Reads not_isEscaped_of_notMem)
open Text.Utf8 (encode)

namespace DiskPath

/-- What can be the name of a file: one name of a path that leads on. -/
structure IsName (name : String) : Prop where
  isStep : isStep name = true
  not_back : name ≠ ".."
  no_slash : '/' ∉ name.toList

/-- The path of a file in a directory. -/
def child (p : DiskPath) (name : String) : DiskPath := { p with names := p.names ++ [name] }

variable {p : DiskPath} {name read : String}

/-- The directory of a file in a directory. -/
theorem parent?_child (p : DiskPath) (name : String) : (p.child name).parent? = some p := by
  rw [parent?, child, if_neg (by simp)]
  simp

/-- Parts that lead on are neither empty nor a dot. -/
theorem isStep_iff : isStep name = true ↔ name ≠ "" ∧ name ≠ "." := by simp [isStep]

/-- A name leads to a place in the place of its directory. -/
theorem place_child (p : DiskPath) (hname : IsName name) :
    (p.child name).place = p.place.child name := by
  unfold place child
  rw [List.foldl_append, List.foldl_cons, List.foldl_nil, enter,
    if_neg (isStep_iff.mp hname.isStep).2, if_pos hname.not_back]

/-! ## Parts of a path -/

/-- A name is the last one of its path when nothing behind it leads on. -/
theorem ofParts_append {front back : List String} (hname : isStep name = true)
    (hback : back.filter isStep = []) :
    ofParts (front ++ name :: back) = (ofParts (front ++ [""])).child name := by
  have hempty : isStep "" = false := by decide
  unfold ofParts child
  rw [List.filter_append, List.filter_cons_of_pos hname, hback, List.filter_append,
    List.filter_cons_of_neg (by rw [hempty]; exact Bool.false_ne_true), List.filter_nil]
  cases front with
  | nil =>
    obtain ⟨hne, hdot⟩ := isStep_iff.mp hname
    simp [hne, hdot]
  | cons part more => simp

/-- The last name of a path is one of its parts. Nothing behind it leads on, and the parts before it
that do are names of the directory. -/
theorem exists_parts {parts directory : List String} (hname : name ≠ ".")
    (h : (ofParts parts).names = directory ++ [name]) :
    ∃ front back, parts = front ++ name :: back ∧ isStep name = true ∧
      (∀ part ∈ front, isStep part = true → part ∈ directory) ∧ back.filter isStep = [] := by
  have hsteps : ∃ before, before ⊆ directory ∧ parts.filter isStep = before ++ [name] := by
    unfold ofParts at h
    dsimp only at h
    obtain ⟨before, hdirectory, hsteps⟩ | ⟨behind, hdot, hsteps⟩ := List.append_eq_append_iff.mp h
    · exact ⟨before, hdirectory ▸ List.subset_append_right _ _, hsteps⟩
    · cases behind with
      | nil => exact ⟨[], List.nil_subset _, hsteps.symm⟩
      | cons other more =>
        -- the dot in front is no name of a file
        obtain rfl := (List.cons_eq_cons.mp hsteps).1
        have hmem : name ∈ directory ++ name :: more := List.mem_append_right _ List.mem_cons_self
        rw [← hdot] at hmem
        split_ifs at hmem
        · exact absurd (List.mem_singleton.mp hmem) hname
        · exact absurd hmem List.not_mem_nil
  obtain ⟨before, hbefore, hsteps⟩ := hsteps
  obtain ⟨first, second, rfl, rfl, hsecond⟩ := List.filter_eq_append_iff.mp hsteps
  obtain ⟨idle, back, rfl, hidle, hstep, hback⟩ := List.filter_eq_cons_iff.mp hsecond
  refine ⟨first ++ idle, back, by rw [List.append_assoc], hstep, fun part hpart hleads => ?_, hback⟩
  obtain hfirst | hrest := List.mem_append.mp hpart
  · exact hbefore (List.mem_filter.mpr ⟨hfirst, hleads⟩)
  · exact absurd hleads (hidle part hrest)

/-! ## Written and read paths -/

/-- A part that does not lead on stands for itself, and so does one without escapes. -/
theorem reads_self {part : String} (h : isStep part = true → ¬IsEscaped (encode part)) :
    Reads part.toList part.toList := by
  by_cases hstep : isStep part = true
  · exact .self (h hstep)
  · have hidle : part = "" ∨ part = "." := by simpa [isStep, or_iff_not_imp_left] using hstep
    obtain rfl | rfl := hidle
    · exact .self (not_isEscaped_of_notMem (by decide))
    · exact .self (not_isEscaped_of_notMem (by decide))

/-- The path that a text with escapes stands for has the parts that the parts of the text stand for. -/
theorem ofText_of_reads {written opened : String} {parts partsRead : List String}
    (hsplit : (split '/' written.toList).map String.ofList = parts)
    (hreads : List.Forall₂ (fun part partRead => Reads part.toList partRead.toList) parts partsRead)
    (hslash : ∀ part ∈ partsRead, '/' ∉ part.toList)
    (hopened : Text.Utf8.decode? (Text.Percent.decodeAll (encode written)) = some opened) :
    ofText opened = ofParts partsRead := by
  have hne : partsRead.map String.toList ≠ [] := by
    obtain ⟨front, more, hparts⟩ := Text.exists_split_eq_cons '/' written.toList
    rw [hparts] at hsplit
    subst hsplit
    cases hreads
    exact List.cons_ne_nil _ _
  have hwhole : Reads written.toList (['/'].intercalate (partsRead.map String.toList)) := by
    have hwritten : ['/'].intercalate (parts.map String.toList) = written.toList := by
      rw [← hsplit, List.map_map]
      simp [Function.comp_def, Text.intercalate_split]
    have hletters : List.Forall₂ Reads (parts.map String.toList) (partsRead.map String.toList) :=
      List.forall₂_map_left_iff.mpr (List.forall₂_map_right_iff.mpr hreads)
    have hjoined := Reads.intercalate hletters
    rwa [hwritten] at hjoined
  obtain rfl := Option.some.inj (hopened.symm.trans (Text.Utf8.decode?_of_decode_eq hwhole))
  rw [ofText, String.toList_ofList, Text.split_intercalate hne (List.forall_mem_map.mpr hslash),
    List.map_map]
  simp [Function.comp_def]

/-- The path that a text with escapes stands for has the directory of the path that is written, when
no name of this directory has an escape and the last name stands for a name. -/
theorem exists_directory {written opened : String} {directory : List String}
    (hnames : (ofText written).names = directory ++ [name])
    (hdirectory : ∀ part ∈ directory, ¬IsEscaped (encode part))
    (hlast : Reads name.toList read.toList) (hread : IsName read)
    (hopened : Text.Utf8.decode? (Text.Percent.decodeAll (encode written)) = some opened) :
    ∃ p : DiskPath, ofText written = p.child name ∧ ofText opened = p.child read := by
  have hname : name ≠ "." := by
    rintro rfl
    have hself := hlast.unique (reads_self fun hstep => absurd hstep (by decide))
    exact (isStep_iff.mp hread.isStep).2 (String.toList_inj.mp hself)
  obtain ⟨front, back, hparts, hstep, hfront, hback⟩ := exists_parts hname hnames
  have hself {more : List String} (h : ∀ part ∈ more, isStep part = true → part ∈ directory) :
      List.Forall₂ (fun part partRead => Reads part.toList partRead.toList) more more :=
    List.forall₂_same.mpr fun part hpart =>
      reads_self fun hleads => hdirectory part (h part hpart hleads)
  have hidle : ∀ part ∈ back, isStep part = true → part ∈ directory := fun part hpart hleads =>
    absurd hleads (List.filter_eq_nil_iff.mp hback part hpart)
  have hwritten : ∀ part ∈ front ++ name :: back, '/' ∉ part.toList := by
    rw [← hparts, List.forall_mem_map]
    intro part hpart
    rw [String.toList_ofList]
    exact Text.notMem_of_mem_split hpart
  have hslash : ∀ part ∈ front ++ read :: back, '/' ∉ part.toList := by
    simp only [List.forall_mem_append, List.forall_mem_cons] at hwritten ⊢
    exact ⟨hwritten.1, hread.no_slash, hwritten.2.2⟩
  have hreads := List.rel_append (hself hfront) (.cons hlast (hself hidle))
  refine ⟨ofParts (front ++ [""]), ?_, ?_⟩
  · rw [ofText, hparts, ofParts_append hstep hback]
  · rw [ofText_of_reads hparts hreads hslash hopened, ofParts_append hread.isStep hback]

end DiskPath

/-! ## Directories that are made -/

namespace Disk

variable {d made : Disk} {p : DiskPath} {name : String}

/-- A directory that has been made is there. -/
theorem hasDirectory_of_makeDirectory? (h : d.makeDirectory? p = some made) :
    made.hasDirectory p.place = true := by
  unfold makeDirectory? at h
  dsimp only at h
  split_ifs at h
  have hway : p ∈ p.ways :=
    List.mem_map.mpr ⟨p.names.length, List.mem_range.mpr (Nat.lt_succ_self _), by
      rw [List.take_length]⟩
  have hmem : p.place ∈ made.directories :=
    Option.some.inj h ▸ List.mem_append_right _ (List.mem_map_of_mem hway)
  rw [hasDirectory, List.contains_iff_mem.mpr hmem, Bool.or_true]

/-- In a directory that is there, a file can be opened unless something else is in its place. -/
theorem canOpen_child (hname : DiskPath.IsName name) (hdirectory : d.hasDirectory p.place = true) :
    d.canOpen (p.child name) = true ↔ d.hasDirectory (p.child name).place = false ∧
      (p.child name).place ∉ d.files := by
  rw [canOpen, DiskPath.place_child p hname, DiskPath.parent?_child]
  simp [hdirectory]

end Disk

end DoubleEntry
