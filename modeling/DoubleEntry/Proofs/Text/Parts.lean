import DoubleEntry.Text.Split
import Mathlib

/-!
# Texts and their parts

Cutting a text at a character and putting the parts together again undo each other: the parts give
the text back, and texts without the character are found again as the parts of what is put together
from them.
-/

namespace DoubleEntry.Text

/-- The part before the first occurrence of a character ends there. -/
theorem split_append_cons {c : Char} {before : List Char} (h : c ∉ before) (rest : List Char) :
    split c (before ++ c :: rest) = before :: split c rest := by
  induction before with
  | nil => rw [List.nil_append, split, if_pos rfl]
  | cons x more ih =>
    rw [List.mem_cons, not_or] at h
    rw [List.cons_append, split, if_neg (fun e => h.1 e.symm), ih h.2]

/-- A text without the character at which it is cut is one part. -/
theorem split_of_notMem {c : Char} {cs : List Char} (h : c ∉ cs) : split c cs = [cs] := by
  induction cs with
  | nil => rfl
  | cons x rest ih =>
    obtain ⟨hx, hrest⟩ := List.ne_and_not_mem_of_not_mem_cons h
    rw [split, if_neg (Ne.symm hx), ih hrest]

/-- Nothing is cut off a text without the character at which it is cut. -/
theorem cut_of_notMem {c : Char} {cs : List Char} (h : c ∉ cs) : (cut c cs).1 = cs := by
  refine List.takeWhile_eq_self_iff.mpr fun x hx => ?_
  have hne : x ≠ c := fun e => h (e ▸ hx)
  simpa using hne

/-- A text has at least one part. -/
theorem exists_split_eq_cons (c : Char) (cs : List Char) :
    ∃ part more, split c cs = part :: more := by
  cases cs with
  | nil => exact ⟨[], [], rfl⟩
  | cons x rest =>
    rw [split]
    split_ifs
    · exact ⟨_, _, rfl⟩
    · split <;> exact ⟨_, _, rfl⟩

/-- A text is put together again from its parts. -/
theorem intercalate_split (c : Char) (cs : List Char) : [c].intercalate (split c cs) = cs := by
  induction cs with
  | nil => rfl
  | cons x rest ih =>
    obtain ⟨part, more, hparts⟩ := exists_split_eq_cons c rest
    rw [hparts] at ih
    rw [split, hparts]
    split_ifs with hx
    · rw [List.intercalate_cons_cons, ih, hx]
      rfl
    · cases more with
      | nil => simpa [List.intercalate] using ih
      | cons next more =>
        rw [List.intercalate_cons_cons] at ih ⊢
        rw [← ih]
        rfl

/-- No part has the character at which a text is cut. -/
theorem notMem_of_mem_split {c : Char} {cs part : List Char} (h : part ∈ split c cs) : c ∉ part := by
  induction cs generalizing part with
  | nil =>
    rw [List.mem_singleton.mp h]
    exact List.not_mem_nil
  | cons x rest ih =>
    obtain ⟨front, more, hparts⟩ := exists_split_eq_cons c rest
    rw [hparts] at ih
    rw [split, hparts] at h
    split_ifs at h with hx
    · obtain rfl | h := List.mem_cons.mp h
      · exact List.not_mem_nil
      · exact ih h
    · obtain rfl | h := List.mem_cons.mp h
      · exact List.not_mem_cons_of_ne_of_not_mem (Ne.symm hx) (ih List.mem_cons_self)
      · exact ih (List.mem_cons_of_mem _ h)

/-- Texts without the character that is put between them are the parts of the whole. -/
theorem split_intercalate {c : Char} {parts : List (List Char)} (hne : parts ≠ [])
    (h : ∀ part ∈ parts, c ∉ part) : split c ([c].intercalate parts) = parts := by
  induction parts with
  | nil => exact absurd rfl hne
  | cons part more ih =>
    obtain ⟨hpart, hmore⟩ := List.forall_mem_cons.mp h
    cases more with
    | nil => rw [List.intercalate_singleton, split_of_notMem hpart]
    | cons next more =>
      rw [List.intercalate_cons_cons, List.append_assoc, List.singleton_append,
        split_append_cons hpart, ih (List.cons_ne_nil _ _) hmore]

end DoubleEntry.Text
