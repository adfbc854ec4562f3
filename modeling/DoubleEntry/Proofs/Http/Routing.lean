import DoubleEntry.Http.Route
import DoubleEntry.Http.Message
import DoubleEntry.Proofs.Text.Parts

/-!
# Where requests lead

The table of resources read the other way: what a request that leads into the ledger has for a method
and a path. An action that changes the ledger is asked for by one method and one path.
-/

namespace DoubleEntry.Http

/-- Whether a request has a method and a path. -/
def Request.Asks (r : Request) (method path : String) : Prop :=
  r.method = method ∧ pathOf r.url = path

instance (r : Request) (method path : String) : Decidable (r.Asks method path) :=
  inferInstanceAs (Decidable (_ ∧ _))

/-- An action stands in the table of resources under its method and a pattern that fits. -/
theorem exists_resource_of_actionFor {method : String} {segments : List String} {action : Action}
    (h : actionFor method segments = .ok action) :
    ∃ resource ∈ resources, fits resource.pattern segments = true ∧
      ∃ entry ∈ resource.actions, entry.1 = method ∧
        entry.2 (parameterOf resource.pattern segments) = action := by
  unfold actionFor at h
  split at h
  · exact absurd h (by simp)
  next resource hfind =>
    split at h
    · exact absurd h (by simp)
    next entry hlookup =>
      obtain ⟨before, after, hactions, -⟩ := List.lookup_eq_some_iff.mp hlookup
      exact ⟨resource, List.mem_of_find?_eq_some hfind, by simpa using List.find?_some hfind,
        (method, entry), by simp [hactions], rfl, Except.ok.inj h⟩

/-- A request leads into the ledger by the segments that follow `/v1` in its path. -/
theorem exists_segments_of_route {method path : String} {action : Except Nat Action}
    (h : route method path = .ledger action) :
    ∃ segments, actionFor method segments = action ∧
      path = "/".intercalate ("" :: "v1" :: segments) := by
  unfold route at h
  dsimp only at h
  split at h
  next segments hsegments =>
    refine ⟨segments, Routing.ledger.inj h, ?_⟩
    rw [← hsegments, ← String.toList_inj, String.toList_intercalate, List.map_map]
    simp [Function.comp_def, Text.intercalate_split]
  all_goals first | exact absurd h (by simp) | (split at h <;> simp at h)

/-- A path or a method that is refused has one of two statuses. -/
theorem status_of_route_error {method path : String} {status : Nat}
    (h : route method path = .ledger (.error status)) : status = 404 ∨ status = 405 := by
  obtain ⟨segments, haction, -⟩ := exists_segments_of_route h
  unfold actionFor at haction
  split at haction
  · exact .inl (Except.error.inj haction).symm
  · split at haction
    · exact .inr (Except.error.inj haction).symm
    · exact absurd haction (by simp)

/-- The method and the path of an action that changes the ledger. -/
def Action.place? : Action → Option (String × String)
  | .createAccount => some ("POST", "/v1/accounts")
  | .updateAccount => some ("PUT", "/v1/accounts")
  | .submit => some ("POST", "/v1/transactions")
  | .updateTransaction => some ("PUT", "/v1/transactions")
  | .search _ | .account _ | .balance _ => none

/-- A pattern of one word fits that word alone. -/
theorem fits_fixed_iff {word : String} {segments : List String} :
    fits [.fixed word] segments = true ↔ segments = [word] := by
  match segments with
  | [] => simp [fits]
  | [s] => simp [fits]
  | s :: t :: rest => simp [fits]

/-- An action with a place stands in the table under the method and the one word of this place. -/
theorem exists_word_of_place : ∀ resource ∈ resources, ∀ entry ∈ resource.actions,
    ∀ value place, (entry.2 value).place? = some place →
      ∃ word, resource.pattern = [.fixed word] ∧
        (entry.1, "/".intercalate ["", "v1", word]) = place := by
  simp only [resources, List.forall_mem_cons, Action.place?, Option.some.injEq, reduceCtorEq]
  refine ⟨⟨?_, by simp, ?_, by simp⟩, by simp, by simp, by simp, ⟨?_, by simp, ?_, by simp⟩,
    by simp⟩
  all_goals
    rintro _ _ rfl
    exact ⟨_, rfl, rfl⟩

/-- An action with a place is asked for by the method and the path of this place. -/
theorem route_eq_iff_of_place {action : Action} {place : String × String}
    (hplace : action.place? = some place) {method path : String} :
    route method path = .ledger (.ok action) ↔ (method, path) = place := by
  constructor
  · intro h
    obtain ⟨segments, haction, rfl⟩ := exists_segments_of_route h
    obtain ⟨resource, hresource, hfits, entry, hentry, rfl, rfl⟩ :=
      exists_resource_of_actionFor haction
    obtain ⟨word, hpattern, hword⟩ := exists_word_of_place resource hresource entry hentry _ _ hplace
    rw [hpattern] at hfits
    rw [fits_fixed_iff.mp hfits]
    exact hword
  · rintro rfl
    cases action with
    | createAccount | updateAccount | submit | updateTransaction =>
      obtain ⟨rfl, rfl⟩ := Prod.mk.inj (Option.some.inj hplace)
      rfl
    | search | account | balance => exact absurd hplace (by simp [Action.place?])

end DoubleEntry.Http
