import CubeOperator.Telemetry.Store

/-! # The runs of a request

    A request that is authenticated and whose body is accepted ends with its insert, and
    with the answer to what that returned.  Every other request is answered before any
    statement is sent. -/

namespace CubeOperator.Telemetry

open Interaction

variable {lib : Library} {a : ExecutionAPI} {r : Request} {e : Execution} {c : Columns}

/-! ## Accepted requests -/

/-- A POST with the credential of the service. -/
structure Authenticated (lib : Library) (a : ExecutionAPI) (r : Request) : Prop where
  method : r.method = "POST"
  path : r.path = "/v1/executions"
  token : a.token ≠ ""
  credential : lib.sha256 r.authorization = lib.sha256 ("Bearer " ++ a.token)

/-- The arguments of the insert for an event that keeps the contract, in UTC. -/
structure Recorded (e : Execution) (c : Columns) : Prop where
  contract : e.Contract
  utc : e.utc = e
  columns : ∃ payload, e.marshal = some payload ∧ c = e.columns payload

theorem members_of_marshal {payload : Payload} (h : e.marshal = some payload) :
    payload = e.members := by
  unfold Execution.marshal at h
  split at h
  · exact (Option.some.inj h).symm
  · cases h

theorem Recorded.payload_eq (h : Recorded e c) : c.payload = e.members := by
  obtain ⟨payload, hmarshal, rfl⟩ := h.columns
  exact members_of_marshal hmarshal

theorem serveHTTP_of_authenticated (h : Authenticated lib a r) (hdecode : lib.decode r.body = .single e) :
    serveHTTP lib a r = record a e := by
  unfold serveHTTP
  have hget : ¬(r.method = "GET" ∧ r.path = "/readyz") := by
    simp [h.method]
  have hcredential :
      ¬(a.token = "" ∨ lib.sha256 r.authorization ≠ lib.sha256 ("Bearer " ++ a.token)) := by
    rw [not_or]
    exact ⟨h.token, fun hne => hne h.credential⟩
  rw [if_neg hget, if_neg (not_not.mpr h.path), if_neg (not_not.mpr h.method), if_neg hcredential,
    hdecode]

/-! ## How a request ends -/

/-- How a request ends: answered before any statement, or after its insert. -/
inductive Ends (lib : Library) (a : ExecutionAPI) (r : Request) :
    List Exchange → Response → Prop where
  | early {tr : List Exchange} {response : Response} :
      (∀ exchange ∈ tr, ∀ statement, exchange.1 ≠ .query statement) →
      response.status ≠ 204 → response.status ≠ 409 → Ends lib a r tr response
  | answered (event : Execution) (payload : Payload) (now : Time) (order : FieldOrder)
      (result : Option Bool) :
      Authenticated lib a r → lib.decode r.body = .single event →
      event.validate order now a.retention = none → event.utc.marshal = some payload →
      Ends lib a r [⟨.now, now⟩, ⟨.fieldOrder, order⟩,
        ⟨.query (.insert (event.utc.columns payload)), result⟩] (respond result)

theorem exec_persist_iff {payload : Payload} {tr : List Exchange} {response : Response} :
    Exec (persist e payload) tr response ↔
      ∃ result, tr = [⟨.query (.insert (e.columns payload)), result⟩] ∧ response = respond result := by
  unfold persist
  simp only [Program.perform_bind, Exec.call_iff, Program.pure_eq, Exec.ret_iff]
  constructor
  · rintro ⟨result, _, rfl, rfl, rfl⟩
    exact ⟨result, rfl, rfl⟩
  · rintro ⟨result, rfl, rfl⟩
    exact ⟨result, [], rfl, rfl, rfl⟩

theorem ends_of_record {tr : List Exchange} {response : Response} (h : Authenticated lib a r)
    (hdecode : lib.decode r.body = .single e) (hexec : Exec (record a e) tr response) :
    Ends lib a r tr response := by
  unfold record at hexec
  simp only [Program.perform_bind, Exec.call_iff] at hexec
  obtain ⟨now, _, rfl, order, _, rfl, hexec⟩ := hexec
  -- The two calls before the verdict are not statements.
  have hcalls : ∀ exchange ∈ ([⟨.now, now⟩, ⟨.fieldOrder, order⟩] : List Exchange),
      ∀ statement, exchange.1 ≠ .query statement := by
    simp
  cases hvalidate : e.validate order now a.retention with
  | some message =>
    rw [hvalidate] at hexec
    obtain ⟨rfl, rfl⟩ := Exec.ret_iff.mp hexec
    exact .early hcalls (by simp [httpError]) (by simp [httpError])
  | none =>
    rw [hvalidate] at hexec
    cases hmarshal : e.utc.marshal with
    | none =>
      rw [hmarshal] at hexec
      obtain ⟨rfl, rfl⟩ := Exec.ret_iff.mp hexec
      exact .early hcalls (by simp [httpError]) (by simp [httpError])
    | some payload =>
      rw [hmarshal] at hexec
      obtain ⟨result, rfl, rfl⟩ := exec_persist_iff.mp hexec
      exact .answered e payload now order result h hdecode hvalidate hmarshal

/-- Every run of `ServeHTTP` ends in one of the two ways. -/
theorem ends_of_exec {tr : List Exchange} {response : Response}
    (hexec : Exec (serveHTTP lib a r) tr response) : Ends lib a r tr response := by
  by_cases hready : r.method = "GET" ∧ r.path = "/readyz"
  · unfold serveHTTP at hexec
    rw [if_pos hready] at hexec
    simp only [Program.perform_bind, Exec.call_iff, Program.pure_eq, Exec.ret_iff] at hexec
    obtain ⟨up, _, rfl, rfl, rfl⟩ := hexec
    refine .early (by simp) ?_ ?_
    · cases up <;> simp [httpError]
    · cases up <;> simp [httpError]
  · -- What is left answers at once, or is an authenticated POST.
    have hearly : ∀ early : Response, early.status ≠ 204 → early.status ≠ 409 →
        Exec (.ret early : Service Response) tr response → Ends lib a r tr response := by
      intro early h204 h409 hexec
      obtain ⟨rfl, rfl⟩ := Exec.ret_iff.mp hexec
      exact .early (by simp) h204 h409
    unfold serveHTTP at hexec
    rw [if_neg hready] at hexec
    split_ifs at hexec with hpath hmethod hcredential
    · exact hearly _ (by simp [httpError]) (by simp [httpError]) hexec
    · exact hearly _ (by simp [httpError]) (by simp [httpError]) hexec
    · exact hearly _ (by simp [httpError]) (by simp [httpError]) hexec
    · rw [not_or, not_not] at hcredential
      have hauthenticated : Authenticated lib a r :=
        ⟨not_not.mp hmethod, not_not.mp hpath, hcredential.1, hcredential.2⟩
      cases hdecode : lib.decode r.body with
      | malformed =>
        rw [hdecode] at hexec
        exact hearly _ (by simp [httpError]) (by simp [httpError]) hexec
      | trailing =>
        rw [hdecode] at hexec
        exact hearly _ (by simp [httpError]) (by simp [httpError]) hexec
      | single event =>
        rw [hdecode] at hexec
        exact ends_of_record hauthenticated hdecode hexec

/-- A request that is accepted runs to its insert and ends with the answer to it. -/
theorem exec_of_accepted {payload : Payload} {now : Time} {order : FieldOrder}
    (h : Authenticated lib a r) (hdecode : lib.decode r.body = .single e)
    (hvalidate : e.validate order now a.retention = none) (hmarshal : e.utc.marshal = some payload)
    (result : Option Bool) :
    Exec (serveHTTP lib a r) [⟨.now, now⟩, ⟨.fieldOrder, order⟩,
      ⟨.query (.insert (e.utc.columns payload)), result⟩] (respond result) := by
  rw [serveHTTP_of_authenticated h hdecode]
  unfold record
  simp only [Program.perform_bind]
  refine Exec.call_iff.mpr ⟨now, _, rfl, Exec.call_iff.mpr ⟨order, _, rfl, ?_⟩⟩
  simp only [hvalidate, hmarshal]
  exact exec_persist_iff.mpr ⟨result, rfl, rfl⟩

/-- The exchanges of an accepted request execute its insert. -/
theorem replay_of_execute (db : Database) (now : Time) (order : FieldOrder) {table : List Row}
    {matched : Bool} {written : ℤ}
    (h : execute written (.insert c) db.table = (table, matched)) : Replay Serves db
      [⟨.now, now⟩, ⟨.fieldOrder, order⟩, ⟨.query (.insert c), some matched⟩]
      { db with table := table } := by
  have hnow : Serves db ⟨.now, now⟩ db := rfl
  have horder : Serves db ⟨.fieldOrder, order⟩ db := rfl
  have hinsert : Serves db ⟨.query (.insert c), some matched⟩ { db with table := table } :=
    ⟨written, h, rfl⟩
  exact .cons hnow (.cons horder (.cons hinsert (.nil _)))

/-! ## The statements of a job -/

/-- Every insert is one for an event that keeps the contract. -/
def Allowed (exchange : Exchange) : Prop :=
  ∀ c, exchange.1 = .query (.insert c) → ∃ e, Recorded e c

theorem recorded_of_validate {order : FieldOrder} {now : Time} {payload : Payload}
    (hvalidate : e.validate order now a.retention = none) (hmarshal : e.utc.marshal = some payload) :
    Recorded e.utc (e.utc.columns payload) :=
  ⟨contract_utc (validate_eq_none_iff.mp hvalidate).1, rfl, payload, hmarshal, rfl⟩

theorem only_record (a : ExecutionAPI) (e : Execution) : Only Allowed (record a e) := by
  unfold record
  simp only [Program.perform_bind]
  refine fun now => ⟨by simp [Allowed], fun order => ⟨by simp [Allowed], ?_⟩⟩
  cases hvalidate : e.validate order now a.retention with
  | some message =>
    simp only [hvalidate]
    trivial
  | none =>
    cases hmarshal : e.utc.marshal with
    | none =>
      simp only [hvalidate]
      trivial
    | some payload =>
      simp only [hvalidate]
      intro result
      refine ⟨?_, trivial⟩
      intro c hc
      obtain rfl : e.utc.columns payload = c := by simpa using hc
      exact ⟨e.utc, recorded_of_validate hvalidate hmarshal⟩

theorem only_serveHTTP (lib : Library) (a : ExecutionAPI) (r : Request) :
    Only Allowed (serveHTTP lib a r) := by
  unfold serveHTTP
  split_ifs
  · exact fun up => ⟨by simp [Allowed], trivial⟩
  · trivial
  · trivial
  · trivial
  · cases lib.decode r.body with
    | malformed => trivial
    | trailing => trivial
    | single event => exact only_record a event

theorem only_program (lib : Library) (job : Job) : Only Allowed (job.program lib) := by
  cases job with
  | request a r => exact (only_serveHTTP lib a r).bind fun _ => trivial
  | prune retention =>
    refine Only.bind (?_ : Only Allowed (prune retention)) fun _ => trivial
    exact fun now => ⟨by simp [Allowed], fun result => ⟨by simp [Allowed], trivial⟩⟩

end CubeOperator.Telemetry
