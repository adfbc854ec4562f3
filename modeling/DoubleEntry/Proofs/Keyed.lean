import Mathlib

/-!
# Lists whose elements have keys

When no two elements of a list have one key, a key finds one element at most. When a list of keys
names every key of some elements once, numbers gathered key by key add up to the numbers of all of
these elements.
-/

namespace DoubleEntry

variable {α κ : Type} [DecidableEq κ] {key : α → κ}

/-- The elements with the key of one of them are that one alone. -/
theorem filter_eq_singleton_of_nodup {xs : List α} (hnodup : (xs.map key).Nodup) {x : α}
    (hx : x ∈ xs) : xs.filter (fun y => key y = key x) = [x] := by
  induction xs with
  | nil => simp at hx
  | cons y rest ih =>
    rw [List.map_cons, List.nodup_cons] at hnodup
    obtain ⟨hy, hrest⟩ := hnodup
    by_cases hmem : x ∈ rest
    · have hne : key y ≠ key x := fun e => hy (e ▸ List.mem_map_of_mem hmem)
      rw [List.filter_cons_of_neg (by simpa using hne), ih hrest hmem]
    · obtain rfl : x = y := (List.mem_cons.mp hx).resolve_right hmem
      have hnone : rest.filter (fun z => key z = key x) = [] := by
        apply List.filter_eq_nil_iff.mpr
        intro z hz
        have hne : key z ≠ key x := fun e => hy (e ▸ List.mem_map_of_mem hz)
        simpa using hne
      rw [List.filter_cons_of_pos (by simp), hnone]

/-- An element is found by its key. -/
theorem find?_eq_some_of_nodup {xs : List α} (hnodup : (xs.map key).Nodup) {x : α} (hx : x ∈ xs) :
    xs.find? (fun y => key y = key x) = some x := by
  rw [← List.head?_filter, filter_eq_singleton_of_nodup hnodup hx]
  rfl

/-- What the elements that pass a test give is what is given when the others give nothing. -/
theorem flatMap_ite {β : Type} (p : α → Prop) [DecidablePred p] (f : α → List β) (xs : List α) :
    (xs.flatMap fun x => if p x then f x else []) = (xs.filter fun x => p x).flatMap f := by
  induction xs with
  | nil => rfl
  | cons x rest ih =>
    by_cases hp : p x
    · simp [hp, ih]
    · simp [hp, ih]

/-- Numbers gathered key by key add up to the numbers of all elements. -/
theorem sum_map_sum_filter (number : α → Int) {keys : List κ} (hnodup : keys.Nodup) {xs : List α}
    (hkeys : ∀ x ∈ xs, key x ∈ keys) :
    (keys.map fun k => ((xs.filter fun x => key x = k).map number).sum).sum =
      (xs.map number).sum := by
  induction xs with
  | nil => simp
  | cons x rest ih =>
    have hx : keys.count (key x) = 1 := List.count_eq_one_of_mem hnodup (hkeys x List.mem_cons_self)
    have hrest := ih fun y hy => hkeys y (List.mem_cons_of_mem _ hy)
    have hsplit : ∀ k, (((x :: rest).filter fun y => key y = k).map number).sum =
        (if k = key x then number x else 0) +
          ((rest.filter fun y => key y = k).map number).sum := by
      intro k
      by_cases hk : key x = k
      · simp [hk]
      · have hk' : k ≠ key x := fun e => hk e.symm
        simp [hk, hk']
    calc (keys.map fun k => (((x :: rest).filter fun y => key y = k).map number).sum).sum
        = (keys.map fun k => if k = key x then number x else 0).sum +
            (keys.map fun k => ((rest.filter fun y => key y = k).map number).sum).sum := by
          simp only [hsplit, List.sum_map_add]
      _ = number x + (rest.map number).sum := by
          rw [List.sum_map_ite_eq, hx, hrest]
          simp
      _ = ((x :: rest).map number).sum := by rw [List.map_cons, List.sum_cons]

end DoubleEntry
