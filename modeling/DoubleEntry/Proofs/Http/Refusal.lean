import DoubleEntry.Http.Service
import DoubleEntry.Proofs.Http.Routing
import DoubleEntry.Proofs.Time.Order

/-!
# Requests without the token

A service with a token refuses every request under `/v1` that does not carry it, in one way and
before anything else is done. So a run of requests, of which some are refused, is a run of the
others: these are answered as if the refused ones had not been there, and the ledger is the same.
-/

namespace DoubleEntry

namespace Text

/-- Nothing is left of a text in front exactly when all of it is blank. -/
theorem trimLeft_eq_nil_iff {cs : List Char} : trimLeft cs = [] ↔ ∀ c ∈ cs, isBlank c = true :=
  List.dropWhile_eq_nil_iff

/-- Nothing is left of a text exactly when all of it is blank. -/
theorem trim_eq_nil_iff {cs : List Char} : trim cs = [] ↔ ∀ c ∈ cs, isBlank c = true := by
  have hidem : trimLeft (trimLeft cs) = trimLeft cs := List.dropWhile_idempotent _ _
  calc trim cs = []
      ↔ ∀ c ∈ (trimLeft cs).reverse, isBlank c = true := by
        rw [trim, trimRight, List.reverse_eq_nil_iff, trimLeft_eq_nil_iff]
    _ ↔ trimLeft (trimLeft cs) = [] := by simp only [List.mem_reverse, trimLeft_eq_nil_iff]
    _ ↔ ∀ c ∈ cs, isBlank c = true := by rw [hidem, trimLeft_eq_nil_iff]

/-- A text is blank when trimming leaves nothing. -/
theorem trimmed_isEmpty (s : String) : (trimmed s).isEmpty = isBlankText s := by
  rw [Bool.eq_iff_iff, String.isEmpty_iff, trimmed, isBlankText, List.all_eq_true,
    ← trim_eq_nil_iff]
  exact String.ofList_eq_empty_iff

end Text

/-- A token that is not blank protects the service, without the blanks at its ends. -/
theorem effectiveToken_of_not_blank {token : String} (h : Text.isBlankText token = false) :
    effectiveToken (some token) = some (Text.trimmed token) := by
  simp [effectiveToken, Text.trimmed_isEmpty, h]

namespace Http

/-! ## One request -/

/-- Whether a request leads into the ledger, whatever becomes of it there. -/
def Request.isUnderLedger (r : Request) : Bool :=
  match route r.method (pathOf r.url) with
  | .ledger _ => true
  | _ => false

/-- The value of the token header without the blanks at its ends. A missing header counts as
empty. -/
def Request.presented (r : Request) : String := Text.trimmed ((r.header? tokenHeader).getD "")

/-- Whether a request leads into the ledger and does not carry the token. -/
def Request.lacks (token : String) (r : Request) : Bool :=
  r.isUnderLedger && r.presented != Text.trimmed token

/-- The answer to a request without the token. -/
def refusal : Response := .ofFailure .unauthorized

/-- Paths lead into the ledger by their first segment, whatever the method. -/
theorem isUnderLedger_iff {r : Request} : r.isUnderLedger = true ↔
    ∃ rest, (Text.split '/' (pathOf r.url).toList).map String.ofList = "" :: "v1" :: rest := by
  unfold Request.isUnderLedger route
  dsimp only
  constructor
  · intro h
    split at h
    next action hroute =>
      split at hroute
      next rest hsegments => exact ⟨rest, hsegments⟩
      all_goals first | exact absurd hroute (by simp) | (split at hroute <;> simp at hroute)
    next => exact absurd h (by simp)
  · rintro ⟨rest, hsegments⟩
    rw [hsegments]
    rfl

variable {token : String} {clock : Clock} {r : Request} {l : Ledger}

/-- The token is carried by those requests that present it. -/
theorem isAuthorized_iff (htoken : Text.isBlankText token = false) :
    isAuthorized (some token) r = (r.presented == Text.trimmed token) := by
  rw [isAuthorized, effectiveToken_of_not_blank htoken]
  rfl

/-- A request that lacks the token is refused and changes nothing. -/
theorem handle_of_lacks (htoken : Text.isBlankText token = false) (hlacks : r.lacks token = true) :
    handle (some token) clock r l = (refusal, l) := by
  obtain ⟨hunder, hpresented⟩ := Bool.and_eq_true_iff.mp hlacks
  have hrefused : isAuthorized (some token) r = false := by
    rw [isAuthorized_iff htoken]
    simpa using hpresented
  unfold Request.isUnderLedger at hunder
  unfold handle
  split at hunder
  next action hroute => simp [hroute, hrefused, refusal]
  next => exact absurd hunder (by simp)

/-- No class of faults has the status of a refusal. -/
theorem statusOf_ne_unauthorized (c : FaultClass) : statusOf c ≠ 401 := by
  cases c <;> decide

/-- A request that reaches the ledger is answered with a fault of the ledger or with one of few
statuses. -/
theorem perform_response_cases (clock : Clock) (r : Request) (l : Ledger) (action : Action) :
    (∃ fault, (perform clock r l action).1 = refused fault) ∨
      (perform clock r l action).1.status ∈ [200, 201, 202, 400, 409] := by
  have hchanged : ∀ {status} (answer : Except LedgerFault Unit × Ledger), status ∈ [200, 201] →
      (∃ fault, (changed status answer).1 = refused fault) ∨
        (changed status answer).1.status ∈ [200, 201, 202, 400, 409] := by
    rintro status ⟨fault | _, l⟩ hstatus
    · exact .inl ⟨fault, rfl⟩
    · exact .inr (List.mem_append_left [202, 400, 409] hstatus)
  have hbody : ∀ {α : Type} (shape? : Json.Fields → Option α) (serve : α → Response × Ledger),
      (∀ a, (∃ fault, (serve a).1 = refused fault) ∨
        (serve a).1.status ∈ [200, 201, 202, 400, 409]) →
      (∃ fault, (withBody shape? r l serve).1 = refused fault) ∨
        (withBody shape? r l serve).1.status ∈ [200, 201, 202, 400, 409] := by
    intro α shape? serve hserve
    unfold withBody
    split
    · exact hserve _
    · simp [Response.ofFailure, Failure.problem, Problem.status]
  cases action with
  | createAccount => exact hbody _ _ fun a => hchanged _ (by decide)
  | updateAccount => exact hbody _ _ fun a => hchanged _ (by decide)
  | updateTransaction => exact hbody _ _ fun a => hchanged _ (by decide)
  | submit =>
    refine hbody _ _ fun t => ?_
    split
    next outcome _ _ => cases outcome <;> simp [acknowledge, statusOfOutcome]
    next fault _ _ => exact .inl ⟨fault, rfl⟩
  | search space =>
    unfold perform search
    dsimp only
    split
    · exact .inl ⟨_, rfl⟩
    · split
      · simp [shown]
      · exact .inl ⟨_, rfl⟩
  | account id =>
    unfold perform account
    dsimp only
    split
    · simp [shown]
    · exact .inl ⟨_, rfl⟩
  | balance id =>
    unfold perform balance
    dsimp only
    split
    · simp [repeatedCutoff]
    · split
      · exact .inl ⟨_, rfl⟩
      · split
        · simp [shown]
        · exact .inl ⟨_, rfl⟩

/-- No request that reaches the ledger is answered with the status of a refusal. -/
theorem perform_status_ne (action : Action) : (perform clock r l action).1.status ≠ 401 := by
  obtain ⟨fault, h⟩ | h := perform_response_cases clock r l action
  · rw [h]
    exact statusOf_ne_unauthorized _
  · intro hstatus
    simp [hstatus] at h

/-- A request that does not lack the token is not refused for it. -/
theorem handle_status_ne (htoken : Text.isBlankText token = false)
    (hlacks : r.lacks token = false) : (handle (some token) clock r l).1.status ≠ 401 := by
  unfold Request.lacks Request.isUnderLedger at hlacks
  unfold handle
  split
  · simp [acknowledge]
  · simp [shown]
  · simp
  next action hroute =>
    have hauthorized : isAuthorized (some token) r = true := by
      rw [isAuthorized_iff htoken]
      simpa [hroute] using hlacks
    rw [if_pos hauthorized]
    cases action with
    | ok action => exact perform_status_ne action
    | error status => obtain rfl | rfl := status_of_route_error hroute <;> simp [acknowledge]

/-! ## Runs -/

/-- A request and the clock by which it is answered. -/
structure Arrival where
  clock : Clock
  request : Request

/-- Answers requests one after another, each by its own clock. Every request stands beside its
response. -/
def serve (token : Option String) (l : Ledger) : List Arrival → List (Arrival × Response) × Ledger
  | [] => ([], l)
  | a :: rest =>
    let (response, l) := handle token a.clock a.request l
    let (more, l) := serve token l rest
    ((a, response) :: more, l)

/-- The first request is answered, then the others. -/
theorem serve_cons (token : Option String) (l : Ledger) (a : Arrival) (rest : List Arrival) :
    serve token l (a :: rest) =
      ((a, (handle token a.clock a.request l).1) ::
          (serve token (handle token a.clock a.request l).2 rest).1,
        (serve token (handle token a.clock a.request l).2 rest).2) := rfl

/-- Requests by one clock are answered as a service does. -/
theorem serve_map (token : Option String) (clock : Clock) (l : Ledger) (requests : List Request) :
    serve token l (requests.map (Arrival.mk clock)) =
      (List.zip (requests.map (Arrival.mk clock)) (handleAll token clock l requests).1,
        (handleAll token clock l requests).2) := by
  induction requests generalizing l with
  | nil => rfl
  | cons r rest ih =>
    rw [List.map_cons, serve_cons, ih]
    rfl

/-- Every request is answered, in order. -/
theorem map_fst_serve (token : Option String) (l : Ledger) (arrivals : List Arrival) :
    (serve token l arrivals).1.map Prod.fst = arrivals := by
  induction arrivals generalizing l with
  | nil => rfl
  | cons a rest ih => rw [serve_cons, List.map_cons, ih]

/-- What holds of the answer to every request holds of every answer of a run. -/
theorem forall_mem_serve {token : Option String} {P : Arrival × Response → Prop}
    (hP : ∀ a l, P (a, (handle token a.clock a.request l).1)) (l : Ledger)
    (arrivals : List Arrival) : ∀ exchange ∈ (serve token l arrivals).1, P exchange := by
  induction arrivals generalizing l with
  | nil => simp [serve]
  | cons a rest ih =>
    rw [serve_cons]
    exact List.forall_mem_cons.mpr ⟨hP a l, ih _⟩

/-- A run without the requests that lack the token has the other exchanges of the whole run and
leaves the same ledger. -/
theorem serve_filter (htoken : Text.isBlankText token = false) (l : Ledger)
    (arrivals : List Arrival) :
    serve (some token) l (arrivals.filter fun a => !a.request.lacks token) =
      ((serve (some token) l arrivals).1.filter fun exchange => !exchange.1.request.lacks token,
        (serve (some token) l arrivals).2) := by
  induction arrivals generalizing l with
  | nil => rfl
  | cons a rest ih =>
    cases hlacks : a.request.lacks token with
    | true =>
      rw [List.filter_cons_of_neg (by simp [hlacks]), ih, serve_cons,
        handle_of_lacks htoken hlacks]
      simp [hlacks]
    | false =>
      rw [List.filter_cons_of_pos (by simp [hlacks]), serve_cons, serve_cons, ih]
      simp [hlacks]

/-- A service with a token that is not blank answers exactly the requests that lack the token with
one response, which depends on nothing. Without these requests the run leaves the same ledger and
gives the other responses. -/
theorem refused_without_effect (htoken : Text.isBlankText token = false) (l : Ledger)
    (arrivals : List Arrival) :
    refusal.status = 401 ∧ refusal.contentType = "application/json" ∧
      refusal.text =
        "\x7b\"error\":\x7b\"code\":401,\"message\":\"Unauthorized access\",\"type\":\"unauthorized\"\x7d\x7d" ∧
      (serve (some token) l arrivals).1.map Prod.fst = arrivals ∧
      (∀ exchange ∈ (serve (some token) l arrivals).1,
        (exchange.1.request.lacks token = true → exchange.2 = refusal) ∧
          (exchange.1.request.lacks token = false → exchange.2.status ≠ 401)) ∧
      serve (some token) l (arrivals.filter fun a => !a.request.lacks token) =
        ((serve (some token) l arrivals).1.filter fun exchange => !exchange.1.request.lacks token,
          (serve (some token) l arrivals).2) := by
  refine ⟨rfl, rfl, by decide, map_fst_serve _ l arrivals, ?_, serve_filter htoken l arrivals⟩
  refine forall_mem_serve (fun a l => ⟨fun hlacks => ?_, fun hlacks => ?_⟩) l arrivals
  · rw [handle_of_lacks htoken hlacks]
  · exact handle_status_ne htoken hlacks

/-- A request with a wrong token, on an unknown path and with a method that no path has. -/
def intrusion : Request := ⟨"PATCH", "/v1/nowhere", [(tokenHeader, "other")], []⟩

/-- A request with the token of the example. -/
def listing : Request := ⟨"GET", "/v1/accounts", [(tokenHeader, " secret")], []⟩

/-- A request outside the ledger. -/
def ping : Request := ⟨"GET", "/ping", [], []⟩

/-- The requests one after another. -/
def probes : List Arrival :=
  [intrusion, listing, ping].map (Arrival.mk ⟨.newYear 2024, .zero false⟩)

/-- The first request is refused, and the others are answered as without it. -/
theorem refused_without_effect_probes :
    Text.isBlankText "secret " = false ∧ intrusion.lacks "secret " = true ∧
      (∀ exchange ∈ (serve (some "secret ") .empty probes).1,
        exchange.1.request.lacks "secret " = true → exchange.2 = refusal) ∧
      serve (some "secret ") .empty probes.tail =
        ((serve (some "secret ") .empty probes).1.filter fun exchange =>
            !exchange.1.request.lacks "secret ",
          (serve (some "secret ") .empty probes).2) := by
  have htoken : Text.isBlankText "secret " = false := by decide
  have hwrong : intrusion.presented = Text.trimmed "other" := by
    simp [Request.presented, Request.header?, intrusion, Option.filter]
  have hright : listing.presented = Text.trimmed " secret" := by
    simp [Request.presented, Request.header?, listing, Option.filter]
  have hlacks : intrusion.lacks "secret " = true := by
    rw [Request.lacks, hwrong]
    decide +kernel
  have hlisting : listing.lacks "secret " = false := by
    rw [Request.lacks, hright]
    decide +kernel
  have hping : ping.lacks "secret " = false := by
    have houtside : ping.isUnderLedger = false := by decide +kernel
    rw [Request.lacks, houtside, Bool.false_and]
  have htail : (probes.filter fun a => !a.request.lacks "secret ") = probes.tail := by
    simp [probes, hlacks, hlisting, hping]
  have hrun := (refused_without_effect htoken .empty probes).2.2.2.2
  rw [htail] at hrun
  exact ⟨htoken, hlacks, fun exchange hmem => (hrun.1 exchange hmem).1, hrun.2⟩

end Http

end DoubleEntry
