import DoubleEntry.Proofs.Ledger.Integrity

/-!
# Creating transactions one after another

Calls that each create a transaction, one after another, give every new id exactly one header and
exactly the lines of its call, and leave all transactions that were there before as they are.
-/

namespace DoubleEntry

open Time (Timestamp)

/-- A submission together with what the clock shows it. -/
structure Call where
  clock : Clock
  transaction : Transaction

namespace Call

/-- The id that is submitted. -/
def id (c : Call) : String := c.transaction.id

/-- The timestamp under which a call commits its transaction. -/
def timestamp (c : Call) : Timestamp := c.transaction.timestamp.getD c.clock.now

/-- The call as an event of a history. -/
def event (c : Call) : Event := .submit c.clock c.transaction

end Call

/-- The tables after calls that each created a valid transaction, one after another. -/
inductive Tables.Serial (start : Tables) : List Call → Tables → Prop where
  | nil : Serial start [] start
  | snoc {before : List Call} {t : Tables} {c : Call} (h : Serial start before t)
      (hvalid : c.transaction.Valid) (habsent : (t.header? c.id).isNone = true) :
      Serial start (before ++ [c]) (t.withTransaction c.transaction c.timestamp)

namespace Tables.Serial

variable {start t : Tables} {created : List Call}

/-- A transaction has a header if it had one before or was created. -/
theorem header?_isSome (h : start.Serial created t) (id : String) :
    (t.header? id).isSome = true ↔
      (start.header? id).isSome = true ∨ ∃ c ∈ created, c.id = id := by
  induction h with
  | nil => simp
  | @snoc before t c h hvalid habsent ih =>
    rw [header?_withTransaction_isSome, ih]
    constructor
    · rintro ((hstart | ⟨d, hd, hid⟩) | hid)
      · exact .inl hstart
      · exact .inr ⟨d, List.mem_append_left _ hd, hid⟩
      · exact .inr ⟨c, List.mem_append_right _ List.mem_cons_self, hid.symm⟩
    · rintro (hstart | ⟨d, hd, hid⟩)
      · exact .inl (.inl hstart)
      · rcases List.mem_append.mp hd with hd | hd
        · exact .inl (.inr ⟨d, hd, hid⟩)
        · obtain rfl := List.mem_singleton.mp hd
          exact .inr hid.symm

/-- No transaction is created that was there before. -/
theorem absent (h : start.Serial created t) :
    ∀ c ∈ created, (start.header? c.id).isNone = true := by
  induction h with
  | nil => simp
  | @snoc before t c h hvalid habsent ih =>
    intro d hd
    rcases List.mem_append.mp hd with hd | hd
    · exact ih d hd
    · obtain rfl := List.mem_singleton.mp hd
      cases hstart : start.header? d.id with
      | none => rfl
      | some header =>
        have hpresent := (h.header?_isSome d.id).mpr (.inl (by rw [hstart]; rfl))
        exact absurd rfl (ne_of_isSome_of_isNone hpresent habsent)

/-- No transaction is created twice. -/
theorem nodup_ids (h : start.Serial created t) : (created.map Call.id).Nodup := by
  induction h with
  | nil => exact List.nodup_nil
  | @snoc before t c h hvalid habsent ih =>
    rw [List.map_append, List.map_singleton, List.nodup_append]
    refine ⟨ih, List.nodup_singleton _, ?_⟩
    intro id hid new hnew e
    obtain rfl := List.mem_singleton.mp hnew
    obtain ⟨d, hd, rfl⟩ := List.mem_map.mp hid
    exact ne_of_isSome_of_isNone ((h.header?_isSome d.id).mpr (.inr ⟨d, hd, rfl⟩)) habsent e

/-- A transaction that was there before keeps its lines. -/
theorem linesOf_of_present (h : start.Serial created t) {id : String}
    (hpresent : (start.header? id).isSome = true) : t.linesOf id = start.linesOf id := by
  induction h with
  | nil => rfl
  | @snoc before t c h hvalid habsent ih =>
    have hne := ne_of_isSome_of_isNone ((h.header?_isSome id).mpr (.inl hpresent)) habsent
    rw [linesOf_withTransaction_of_ne t c.timestamp hne, ih]

/-- Intact tables stay so. -/
theorem intact (h : start.Serial created t) (hstart : start.Intact) : t.Intact := by
  induction h with
  | nil => exact hstart
  | snoc h hvalid habsent ih => exact ih.withTransaction _ hvalid habsent

/-- A transaction that was created has the lines of its call. -/
theorem linesOf_of_mem (h : start.Serial created t) (hstart : start.Intact) :
    ∀ c ∈ created, t.linesOf c.id = c.transaction.lines := by
  induction h with
  | nil => simp
  | @snoc before t c h hvalid habsent ih =>
    intro d hd
    rcases List.mem_append.mp hd with hd | hd
    · have hne := ne_of_isSome_of_isNone ((h.header?_isSome d.id).mpr (.inr ⟨d, hd, rfl⟩)) habsent
      rw [linesOf_withTransaction_of_ne t c.timestamp hne]
      exact ih d hd
    · obtain rfl := List.mem_singleton.mp hd
      have hnone := (h.intact hstart).linesOf_eq_nil habsent
      rw [Call.id] at hnone ⊢
      rw [linesOf_withTransaction_self, hnone, List.nil_append]

/-- Run alone and one after another, the calls are all answered that they created their transaction,
and lead to the same tables. -/
theorem run_events {l : Ledger} (h : l.store.tables.Serial created t)
    (hopen : l.store.isOpen = true) (hrefused : l.store.refused = []) :
    (l.run (created.map Call.event)).2.store = { l.store with tables := t } ∧
      ∀ p ∈ (l.run (created.map Call.event)).1, p.2 = .outcome (.ok .created) := by
  induction h with
  | nil => exact ⟨rfl, by simp [Ledger.run]⟩
  | @snoc before t c h hvalid habsent ih =>
    obtain ⟨hstore, hanswers⟩ := ih
    -- The calls before lead to a ledger in which the id of the last one is new.
    let mid := (l.run (before.map Call.event)).2
    have hmid : mid.store = { l.store with tables := t } := hstore
    have hrows : ¬ mid.store.RefusesRows c.transaction := by
      rintro ⟨table, htable, -⟩
      rw [hmid] at htable
      simp [hrefused] at htable
    have hsubmit := Ledger.submit_of_accepted (l := mid) c.clock hvalid (by rw [hmid]; exact hopen)
      (by rw [hmid]; exact habsent) hrows
    have hrun : mid.run ([c].map Call.event) =
        ([(c.event, .outcome (mid.submit c.clock c.transaction).1)],
          (mid.submit c.clock c.transaction).2) := rfl
    have hnext : (mid.submit c.clock c.transaction).2.store =
        { l.store with tables := t.withTransaction c.transaction c.timestamp } := by
      rw [hsubmit]
      simp only [Ledger.count]
      rw [hmid]
      rfl
    rw [List.map_append, Ledger.run_append]
    refine ⟨hnext, fun p hp => ?_⟩
    rcases List.mem_append.mp hp with hp | hp
    · exact hanswers p hp
    · rw [hrun, List.mem_singleton] at hp
      rw [hp, hsubmit]

end Tables.Serial

end DoubleEntry
