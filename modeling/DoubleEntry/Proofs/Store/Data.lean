import DoubleEntry.Proofs.Json.Ordered
import DoubleEntry.Proofs.Transaction.Validity
import DoubleEntry.Store.Commit

/-!
# Stored data maps

Data maps are checked before they are written and not when they are read. A map that is read from a
text has only keys that were written, so the check covers both. A map that came from a text can be
read again once it is stored, and one that came with a request and has no doubles is then the same.
-/

namespace DoubleEntry.Data

/-- A stored data text is sound when it was written from a map with valid keys and no map with other
keys is read from it. -/
structure IsSound (text : Option String) : Prop where
  written : ∃ data : Data, text = some data.stored ∧ ∀ key ∈ data.keys, DataKey.Matches key
  read : ∀ data, ofStored text = .ok data → ∀ key ∈ data.keys, DataKey.Matches key

/-- The text of a map with valid keys is sound. -/
theorem isSound_stored {data : Data} (h : ∀ key ∈ data.keys, DataKey.Matches key) :
    IsSound (some data.stored) where
  written := ⟨data, rfl, h⟩
  read := by
    intro found hfound key hkey
    simp only [ofStored] at hfound
    split at hfound
    · obtain rfl := Except.ok.inj hfound
      simp [Json.Fields.keys] at hkey
    · rename_i fields hparse
      obtain rfl := Except.ok.inj hfound
      exact h key (Json.mem_keys_of_parse?_render_object hparse hkey)
    · exact absurd hfound (by simp)

/-- Whether a map can be read from a stored data text. -/
def IsReadable (text : Option String) : Prop := ∃ data, ofStored text = .ok data

/-- The text of a map that is a document can be read. -/
theorem isReadable_stored {data : Data} (h : (Json.object data).IsDocument) :
    IsReadable (some data.stored) := by
  obtain ⟨v, hparse⟩ := Option.isSome_iff_exists.mp h.isSome_parse?_render
  obtain ⟨found, rfl⟩ : ∃ found, v = .object found := by
    rw [Json.parse?_render, Json.Reader.readBack?, if_pos (by decide)] at hparse
    obtain ⟨found, -, hfound⟩ := Option.map_eq_some_iff.mp hparse
    exact ⟨found, hfound.symm⟩
  refine ⟨found, ?_⟩
  rw [ofStored, stored]
  simp only [hparse]

/-- Whether a stored data text was written from a map that is a document: that nests no deeper than
what can be read. -/
def IsDocumentText (text : Option String) : Prop :=
  ∃ data : Data, text = some data.stored ∧ (Json.object data).IsDocument

/-- The text of a document can be read. -/
theorem IsDocumentText.isReadable {text : Option String} (h : IsDocumentText text) :
    IsReadable text := by
  obtain ⟨data, rfl, hdata⟩ := h
  exact isReadable_stored hdata

/-- An account that a transaction brings with it has an empty data map. -/
theorem stored_nil : stored [] = AccountRow.emptyData := by decide +kernel

/-! ## Data maps of requests -/

/-- A data map that a request brings: with an id, or as part of a transaction. -/
inductive IsSubmitted : Data → Prop
  | request {bytes : List UInt8} {a : DataRequest}
      (h : Body.ofBytes DataRequest.ofBody? bytes = .ok a) : IsSubmitted a.data
  | transaction {bytes : List UInt8} {t : Transaction}
      (h : Body.ofBytes Transaction.ofBody? bytes = .ok t) : IsSubmitted t.data

namespace IsSubmitted

variable {data : Data}

/-- A data map of a request is one of a body that was read. -/
theorem exists_parse? (h : data.IsSubmitted) :
    ∃ text body, Json.parse? text = some (.object body) ∧ Data.ofBody? body = some data := by
  cases h with
  | request h =>
    obtain ⟨text, body, hparse, hshape⟩ := Body.exists_parse?_of_ofBytes h
    exact ⟨text, body, hparse, DataRequest.data_of_ofBody? hshape⟩
  | transaction h =>
    obtain ⟨text, body, hparse, hshape⟩ := Body.exists_parse?_of_ofBytes h
    exact ⟨text, body, hparse, Transaction.data_of_ofBody? hshape⟩

/-- The keys of a data map of a request, and of all objects in it, are in increasing order. -/
theorem isOrdered (h : data.IsSubmitted) : (Json.object data).IsOrdered := by
  obtain ⟨text, body, hparse, hdata⟩ := h.exists_parse?
  rcases eq_nil_or_get?_of_ofBody? hdata with rfl | hget
  · exact .object List.Pairwise.nil (by simp)
  · exact (Json.isOrdered_of_parse? hparse).get? hget

/-- A data map of a request leaves room for an object around it. -/
theorem fitsIn (h : data.IsSubmitted) : (Json.object data).FitsIn 126 := by
  obtain ⟨text, body, hparse, hdata⟩ := h.exists_parse?
  exact fitsIn_of_ofBody? (Json.isDocument_of_parse? hparse) hdata

/-- A data map of a request is a document. -/
theorem isDocument (h : data.IsSubmitted) : (Json.object data).IsDocument :=
  h.fitsIn.mono (Nat.le_succ 126)

/-- A data map of a request that has no doubles is read from the text in which it is stored. -/
theorem ofStored_stored (h : data.IsSubmitted) (hintegral : (Json.object data).IsIntegral) :
    ofStored (some data.stored) = .ok data := by
  have hparse : Json.parse? data.stored = some (.object data) :=
    Json.parse?_render_eq_self h.isDocument h.isOrdered hintegral
  simp only [ofStored, hparse]

end IsSubmitted

end DoubleEntry.Data
