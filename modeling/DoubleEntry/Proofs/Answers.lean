import Mathlib

/-!
# Answers one after another

Steps that may fail are taken one after another, and the first fault ends them. Here is what the
steps answered when all of them together succeeded, and which of them failed when they did not.
-/

namespace DoubleEntry

variable {α β ε ε' : Type}

/-- Two steps succeed when each of them does. -/
theorem bind_eq_ok_iff {x : Except ε α} {next : α → Except ε β} {b : β} :
    (x >>= next) = .ok b ↔ ∃ a, x = .ok a ∧ next a = .ok b := by
  cases x with
  | error fault => simp [bind, Except.bind]
  | ok a => simp [bind, Except.bind]

/-- Two steps fail when the first does, or the second after it. -/
theorem bind_eq_error_iff {x : Except ε α} {next : α → Except ε β} {fault : ε} :
    (x >>= next) = .error fault ↔ x = .error fault ∨ ∃ a, x = .ok a ∧ next a = .error fault := by
  cases x with
  | error found => simp [bind, Except.bind]
  | ok a => simp [bind, Except.bind]

/-- A step with another wording of its faults succeeds when it does. -/
theorem mapError_eq_ok_iff {x : Except ε α} {reword : ε → ε'} {a : α} :
    x.mapError reword = .ok a ↔ x = .ok a := by
  cases x <;> simp [Except.mapError]

/-- A step with another wording of its faults fails when it does. -/
theorem mapError_eq_error_iff {x : Except ε α} {reword : ε → ε'} {fault : ε'} :
    x.mapError reword = .error fault ↔ ∃ found, x = .error found ∧ reword found = fault := by
  cases x <;> simp [Except.mapError]

/-- A step with a change of its result succeeds when it does. -/
theorem map_eq_ok_iff {x : Except ε α} {change : α → β} {b : β} :
    x.map change = .ok b ↔ ∃ a, x = .ok a ∧ change a = b := by
  cases x <;> simp [Except.map]

/-- One step for each element succeeds when all of them do, element by element. -/
theorem mapM_eq_ok_iff {f : α → Except ε β} {xs : List α} {ys : List β} :
    xs.mapM f = .ok ys ↔ List.Forall₂ (fun x y => f x = .ok y) xs ys := by
  induction xs generalizing ys with
  | nil =>
    have hnil : ([] : List α).mapM f = .ok [] := rfl
    rw [hnil, List.forall₂_nil_left_iff, Except.ok.injEq, eq_comm]
  | cons x rest ih =>
    rw [List.mapM_cons, bind_eq_ok_iff]
    constructor
    · rintro ⟨y, hy, h⟩
      obtain ⟨more, hmore, hys⟩ := bind_eq_ok_iff.mp h
      obtain rfl : y :: more = ys := Except.ok.inj hys
      exact .cons hy (ih.mp hmore)
    · rintro h
      obtain ⟨y, more, hy, hmore, rfl⟩ := List.forall₂_cons_left_iff.mp h
      exact ⟨y, hy, bind_eq_ok_iff.mpr ⟨more, ih.mpr hmore, rfl⟩⟩

/-- One step for each element fails with the fault of one of them. -/
theorem exists_mem_of_mapM_eq_error {f : α → Except ε β} {xs : List α} {fault : ε}
    (h : xs.mapM f = .error fault) : ∃ x ∈ xs, f x = .error fault := by
  induction xs with
  | nil => simp [pure, Except.pure] at h
  | cons x rest ih =>
    rw [List.mapM_cons] at h
    rcases bind_eq_error_iff.mp h with hx | ⟨y, -, h⟩
    · exact ⟨x, List.mem_cons_self, hx⟩
    · rcases bind_eq_error_iff.mp h with hrest | ⟨ys, -, h⟩
      · obtain ⟨found, hfound, hfault⟩ := ih hrest
        exact ⟨found, List.mem_cons_of_mem _ hfound, hfault⟩
      · exact absurd h (by simp [pure, Except.pure])

/-- One step for each element that succeeds for each of them gives all results. -/
theorem mapM_eq_ok_map {f : α → Except ε β} {g : α → β} {xs : List α}
    (h : ∀ x ∈ xs, f x = .ok (g x)) : xs.mapM f = .ok (xs.map g) := by
  rw [mapM_eq_ok_iff, List.forall₂_map_right_iff, List.forall₂_same]
  exact h

/-- What is related element by element to a list is related to some element of it. -/
theorem exists_mem_of_forall₂ {R : α → β → Prop} {xs : List α} {ys : List β}
    (h : List.Forall₂ R xs ys) {y : β} (hy : y ∈ ys) : ∃ x ∈ xs, R x y := by
  induction h with
  | nil => simp at hy
  | @cons x y' xs ys hR hrest ih =>
    obtain rfl | hy := List.mem_cons.mp hy
    · exact ⟨x, List.mem_cons_self, hR⟩
    · obtain ⟨x', hx', hR'⟩ := ih hy
      exact ⟨x', List.mem_cons_of_mem _ hx', hR'⟩

/-- A property of all elements holds of all related ones when it does pair by pair. -/
theorem forall_mem_iff_of_forall₂ {R : α → β → Prop} {P : α → Prop} {Q : β → Prop} {xs : List α}
    {ys : List β} (h : List.Forall₂ R xs ys) (hPQ : ∀ x y, R x y → (P x ↔ Q y)) :
    (∀ x ∈ xs, P x) ↔ ∀ y ∈ ys, Q y := by
  induction h with
  | nil => simp
  | cons hR _ ih => rw [List.forall_mem_cons, List.forall_mem_cons, hPQ _ _ hR, ih]

/-- A property of some element holds of some related one when it does pair by pair. -/
theorem exists_mem_iff_of_forall₂ {R : α → β → Prop} {P : α → Prop} {Q : β → Prop} {xs : List α}
    {ys : List β} (h : List.Forall₂ R xs ys) (hPQ : ∀ x y, R x y → (P x ↔ Q y)) :
    (∃ x ∈ xs, P x) ↔ ∃ y ∈ ys, Q y := by
  induction h with
  | nil => simp
  | cons hR _ ih => rw [List.exists_mem_cons_iff, List.exists_mem_cons_iff, hPQ _ _ hR, ih]

/-- Some list is related element by element to a list when each of its elements is related to
something. -/
theorem exists_forall₂_iff {R : α → β → Prop} {xs : List α} :
    (∃ ys, List.Forall₂ R xs ys) ↔ ∀ x ∈ xs, ∃ y, R x y := by
  induction xs with
  | nil => simp
  | cons x rest ih =>
    rw [List.forall_mem_cons, ← ih]
    constructor
    · rintro ⟨ys, h⟩
      obtain ⟨y, more, hy, hmore, -⟩ := List.forall₂_cons_left_iff.mp h
      exact ⟨⟨y, hy⟩, more, hmore⟩
    · rintro ⟨⟨y, hy⟩, more, hmore⟩
      exact ⟨y :: more, .cons hy hmore⟩

/-- Lists with related elements have the same image under maps that agree on them. -/
theorem map_eq_map_of_forall₂ {γ : Type} {R : α → β → Prop} {f : α → γ} {g : β → γ} {xs : List α}
    {ys : List β} (h : List.Forall₂ R xs ys) (hfg : ∀ x y, R x y → f x = g y) :
    xs.map f = ys.map g := by
  induction h with
  | nil => rfl
  | cons hR _ ih => rw [List.map_cons, List.map_cons, hfg _ _ hR, ih]

/-- Two lists of results have one image when what gave them has one image and what gives results
takes this over. -/
theorem map_eq_map_of_forall₂_forall₂ {γ δ : Type} {R : α → β → Prop} {f : α → γ} {g : β → δ}
    (hfg : ∀ x x' y y', R x y → R x' y' → f x = f x' → g y = g y') {xs xs' : List α}
    {ys ys' : List β} (h : List.Forall₂ R xs ys) (h' : List.Forall₂ R xs' ys')
    (hmap : xs.map f = xs'.map f) : ys.map g = ys'.map g := by
  induction h generalizing xs' ys' with
  | nil =>
    obtain rfl : xs' = [] := List.map_eq_nil_iff.mp hmap.symm
    rw [List.forall₂_nil_left_iff.mp h']
  | cons hR _ ih =>
    cases h' with
    | nil => simp at hmap
    | cons hR' hrest' =>
      obtain ⟨hfirst, hrest⟩ := List.cons.inj hmap
      rw [List.map_cons, List.map_cons, hfg _ _ _ _ hR hR' hfirst, ih hrest' hrest]

/-- Lists related element by element to one in between are related through its elements. -/
theorem forall₂_comp {γ : Type} {R : α → β → Prop} {S : β → γ → Prop} {xs : List α} {ys : List β}
    {zs : List γ} (h : List.Forall₂ R xs ys) (h' : List.Forall₂ S ys zs) :
    List.Forall₂ (fun x z => ∃ y, R x y ∧ S y z) xs zs := by
  induction h generalizing zs with
  | nil =>
    obtain rfl := List.forall₂_nil_left_iff.mp h'
    exact .nil
  | cons hR _ ih =>
    obtain ⟨z, zs, hS, hrest, rfl⟩ := List.forall₂_cons_left_iff.mp h'
    exact .cons ⟨_, hR, hS⟩ (ih hrest)

/-- Elements that a test lets through are gathered in front of those before them, last first. -/
private theorem filterAuxM_eq_ok {test : α → Except ε Bool} {verdict : α → Bool} {xs : List α}
    (h : ∀ x ∈ xs, test x = .ok (verdict x)) (before : List α) :
    xs.filterAuxM test before = .ok ((xs.filter verdict).reverse ++ before) := by
  induction xs generalizing before with
  | nil => rfl
  | cons x rest ih =>
    have hx := h x List.mem_cons_self
    have hrest := ih fun y hy => h y (List.mem_cons_of_mem _ hy)
    rw [List.filterAuxM, hx]
    change List.filterAuxM test rest (cond (verdict x) (x :: before) before) = _
    rw [hrest, List.filter_cons]
    cases verdict x <;> simp

/-- A test that answers for every element gives the elements that it lets through. -/
theorem filterM_eq_ok {test : α → Except ε Bool} {verdict : α → Bool} {xs : List α}
    (h : ∀ x ∈ xs, test x = .ok (verdict x)) : xs.filterM test = .ok (xs.filter verdict) := by
  rw [List.filterM, filterAuxM_eq_ok h []]
  change Except.ok _ = _
  rw [List.append_nil, List.reverse_reverse]

/-- A test of all elements that succeeds has answered for each of them. -/
private theorem exists_ok_of_filterAuxM {test : α → Except ε Bool} {xs before ys : List α}
    (h : xs.filterAuxM test before = .ok ys) : ∀ x ∈ xs, ∃ b, test x = .ok b := by
  induction xs generalizing before with
  | nil => simp
  | cons x rest ih =>
    obtain ⟨b, hb, hrest⟩ := bind_eq_ok_iff.mp h
    intro y hy
    obtain rfl | hy := List.mem_cons.mp hy
    · exact ⟨b, hb⟩
    · exact ih hrest y hy

/-- A test of all elements that succeeds has a verdict on each of them, and lets through those on
which it is favourable. -/
theorem exists_verdict_of_filterM {test : α → Except ε Bool} {xs ys : List α}
    (h : xs.filterM test = .ok ys) :
    ∃ verdict : α → Bool, (∀ x ∈ xs, test x = .ok (verdict x)) ∧ ys = xs.filter verdict := by
  obtain ⟨gathered, hgathered, -⟩ := bind_eq_ok_iff.mp h
  have hok := exists_ok_of_filterAuxM hgathered
  let verdict : α → Bool := fun x => (test x).toOption.getD false
  have hverdict : ∀ x ∈ xs, test x = .ok (verdict x) := by
    intro x hx
    obtain ⟨b, hb⟩ := hok x hx
    simp [verdict, hb, Except.toOption]
  refine ⟨verdict, hverdict, ?_⟩
  have hfilter := filterM_eq_ok hverdict
  rw [h] at hfilter
  exact Except.ok.inj hfilter

end DoubleEntry
