import CubeOperator.Telemetry.Accounting
import Mathlib.Algebra.Order.Field.Rat
import Mathlib.Tactic.Positivity

/-! # What of an accepted event can be stored

    The duration column is the length of the span as long as that fits a `time.Duration`.
    A database that is well rejects text with U+0000 and index entries that are too large;
    this file gives the events that it stores. -/

namespace CubeOperator.Telemetry

open Interaction

variable {lib : Library} {a : ExecutionAPI} {r : Request} {e : Execution} {c : Columns}
  {tr : List Exchange} {response : Response}

/-! ## Durations -/

/-- The length of a span in milliseconds. -/
def Execution.lengthMs (e : Execution) : ℚ :=
  ((e.endedAt.unixNano - e.startedAt.unixNano : ℤ) : ℚ) / 10 ^ 6

/-- The length of a span fits a `time.Duration`. -/
def Execution.LengthFits (e : Execution) : Prop :=
  e.endedAt.unixNano - e.startedAt.unixNano ≤ 2 ^ 63 - 1

theorem Time.sub_eq {t u : Time} (hordered : u.unixNano ≤ t.unixNano)
    (hfits : t.unixNano - u.unixNano ≤ 2 ^ 63 - 1) : t.sub u = t.unixNano - u.unixNano := by
  unfold Time.sub
  omega

theorem Time.sub_lt {t u : Time} (hfits : ¬t.unixNano - u.unixNano ≤ 2 ^ 63 - 1) :
    t.sub u < t.unixNano - u.unixNano := by
  unfold Time.sub
  omega

theorem durationMs_eq (payload : Payload) (hordered : e.startedAt.unixNano ≤ e.endedAt.unixNano)
    (hfits : e.LengthFits) : (e.utc.columns payload).durationMs = e.lengthMs := by
  have hsub : e.endedAt.utc.sub e.startedAt.utc = e.endedAt.unixNano - e.startedAt.unixNano :=
    Time.sub_eq hordered hfits
  simp only [Execution.columns, Execution.utc, Execution.lengthMs, hsub]

theorem durationMs_lt (payload : Payload) (hfits : ¬e.LengthFits) :
    (e.utc.columns payload).durationMs < e.lengthMs := by
  have hsub : e.endedAt.utc.sub e.startedAt.utc < e.endedAt.unixNano - e.startedAt.unixNano :=
    Time.sub_lt hfits
  have hcast : ((e.endedAt.utc.sub e.startedAt.utc : ℤ) : ℚ) <
      ((e.endedAt.unixNano - e.startedAt.unixNano : ℤ) : ℚ) := Int.cast_lt.mpr hsub
  simp only [Execution.columns, Execution.utc, Execution.lengthMs]
  exact div_lt_div_of_pos_right hcast (by positivity)

/-- The duration that a request writes is the length of its span if and only if that fits
    a duration, and is less than it otherwise. -/
theorem duration_exact_iff {result : Option Bool} (hdecode : lib.decode r.body = .single e)
    (hexec : Exec (serveHTTP lib a r) tr response)
    (hinsert : (⟨.query (.insert c), result⟩ : Exchange) ∈ tr) :
    (c.durationMs = e.lengthMs ↔ e.LengthFits) ∧ (e.lengthMs ≤ c.durationMs ↔ e.LengthFits) := by
  cases ends_of_exec hexec with
  | early hcalls => exact absurd rfl (hcalls _ hinsert (.insert c))
  | answered event payload now order result' _ hdecode' hvalidate hmarshal =>
    obtain rfl : e = event := by
      rw [hdecode] at hdecode'
      exact Decoded.single.inj hdecode'
    have hcolumns : c = e.utc.columns payload ∧ HEq result result' := by simpa using hinsert
    obtain rfl := hcolumns.1
    have hordered := (validate_eq_none_iff.mp hvalidate).1.ordered
    by_cases hfits : e.LengthFits
    · have hexact := durationMs_eq payload hordered hfits
      exact ⟨iff_of_true hexact hfits, iff_of_true hexact.ge hfits⟩
    · have hless := durationMs_lt payload hfits
      exact ⟨iff_of_false hless.ne hfits, iff_of_false hless.not_ge hfits⟩

theorem duration_exact_fineSpan :
    (fineSpan.columns fineSpan.members).durationMs = fineSpan.lengthMs := by
  have hserve := exec_postOf fineBody contract_fineSpan timely_fineSpan marshal_fineSpan (some true)
  have hfits : fineSpan.LengthFits := by
    unfold Execution.LengthFits
    decide
  exact (duration_exact_iff (decode_postOf fineBody fineSpan) hserve
    (.tail _ (.tail _ (.head _)))).1.mpr hfits

/-- A span that begins in the year 1700. -/
def longSpan : Execution := { fineSpan with startedAt := ⟨-8520336000 * 10 ^ 9, 0⟩ }

def longBody : String :=
  "\x7b\"eventId\":\"span-1\",\"startedAt\":\"1700-01-01T00:00:00Z\"," ++
  "\"endedAt\":\"2026-01-01T00:00:03Z\",\"tenantId\":\"tenant-a\",\"cluster\":\"kind\"," ++
  "\"namespace\":\"demo\",\"traceId\":\"trace\",\"runId\":\"run\",\"agent\":\"worker\"," ++
  "\"kind\":\"run\",\"name\":\"analytics.usage\",\"status\":\"succeeded\"\x7d"

theorem contract_longSpan : longSpan.Contract where
  required field := by
    have hfield := contract_fineSpan.required field
    cases field <;> exact hfield
  started := by decide
  ended := by decide
  ordered := by decide
  status := .inl rfl
  nonnegative := by decide
  parent := by decide
  detailed := .run rfl
  usage _ := ⟨rfl, rfl, rfl⟩

/-- A span of 326 years is accepted, and stored with a duration of 292 years. -/
theorem duration_too_short : ∃ c result,
    Exec (serveHTTP (libraryOf longBody longSpan) weekAPI (postOf longBody))
      [⟨.now, fineNow⟩, ⟨.fieldOrder, ⟨Required.all, .refl _⟩⟩, ⟨.query (.insert c), result⟩]
      (respond result) ∧
    c.durationMs < longSpan.lengthMs := by
  have hmarshal : longSpan.utc.marshal = some longSpan.members := by decide
  have htimely : longSpan.Timely fineNow weekAPI.retention := ⟨by decide, by decide⟩
  have hlong : ¬longSpan.LengthFits := by
    unfold Execution.LengthFits
    decide
  exact ⟨_, some true, exec_postOf longBody contract_longSpan htimely hmarshal (some true),
    durationMs_lt _ hlong⟩

/-! ## A database that is well -/

/-- U+0000. -/
def nul : Char := Char.ofNat 0

def HasNul (s : String) : Prop := nul ∈ s.toList

/-- The texts of a payload. -/
def Payload.texts (payload : Payload) : List String :=
  payload.filterMap fun member =>
    match member.2 with
    | .text s => some s
    | _ => none

/-- The columns of type `text`. -/
def Columns.texts (c : Columns) : List String :=
  [c.eventId, c.tenantId, c.clusterName, c.ns, c.traceId, c.runId, c.parentId, c.agentName, c.kind,
    c.name, c.status]

/-- What the database rejects: U+0000 in a text or in the payload, and an entry that the
    primary key or `agent_executions_run_idx` has no room for.  A row whose id is there is
    not inserted, and makes no entries. -/
def Rejects (fits : List String → Bool) (table : List Row) (c : Columns) : Prop :=
  (∃ s ∈ c.texts ++ Payload.texts c.payload, HasNul s) ∨
    (Table.stored Row.primaryKey table c.eventId = none ∧
      ¬(fits [c.eventId] = true ∧ fits [c.tenantId, c.runId] = true))

/-- An insert fails when it is rejected, and only then. -/
inductive Inserts (fits : List String → Bool) (db : Database) (c : Columns) :
    Option Bool → Database → Prop where
  | rejected : Rejects fits db.table c → Inserts fits db c none db
  | executed (now : ℤ) (matched : Bool) (table : List Row) : ¬Rejects fits db.table c →
      execute now (.insert c) db.table = (table, matched) →
      Inserts fits db c (some matched) { db with table := table }

/-- The database before and after an exchange when it is reachable and rejects only what
    it has to. -/
def ServesHealthy (fits : List String → Bool) (db : Database) (exchange : Exchange)
    (db' : Database) : Prop :=
  match exchange with
  | ⟨.query (.insert c), result⟩ => Inserts fits db c result db'
  | ⟨.query (.prune before), result⟩ =>
    result = some () ∧ ∃ now, db' = { db with table := (execute now (.prune before) db.table).1 }
  | ⟨.ping, up⟩ => up = true ∧ db' = db
  | _ => db' = db

variable {fits : List String → Bool} {db db' : Database}

/-- The exchanges of an accepted event change what its insert changes. -/
theorem replay_of_inserts (now : Time) (order : FieldOrder) {result : Option Bool}
    (h : Inserts fits db c result db') : Replay (ServesHealthy fits) db
      [⟨.now, now⟩, ⟨.fieldOrder, order⟩, ⟨.query (.insert c), result⟩] db' := by
  have hnow : ServesHealthy fits db ⟨.now, now⟩ db := rfl
  have horder : ServesHealthy fits db ⟨.fieldOrder, order⟩ db := rfl
  have hinsert : ServesHealthy fits db ⟨.query (.insert c), result⟩ db' := h
  exact .cons hnow (.cons horder (.cons hinsert (.nil _)))

/-! ## Events that can be stored -/

/-- The strings of an event. -/
def Execution.texts (e : Execution) : List String :=
  [e.eventId, e.tenantId, e.cluster, e.ns, e.traceId, e.runId, e.parentId, e.agent, e.kind, e.name,
    e.status, e.skillVersion, e.tool, e.targetAgent, e.artifactUri, e.artifactType, e.validation,
    e.model, e.provider, e.errorType]

/-- The event has no U+0000, and its keys fit into the indexes unless its id is already
    stored. -/
def Storable (fits : List String → Bool) (table : List Row) (e : Execution) : Prop :=
  (∀ s ∈ e.texts, ¬HasNul s) ∧ (Table.stored Row.primaryKey table e.eventId ≠ none ∨
    (fits [e.eventId] = true ∧ fits [e.tenantId, e.runId] = true))

theorem texts_members (e : Execution) : Payload.texts e.members = e.texts := rfl

theorem texts_columns (e : Execution) (payload : Payload) :
    (e.columns payload).texts = e.texts.take 11 := rfl

/-- Every text of the columns is one of the event, and the payload has them all. -/
theorem mem_texts_iff (s : String) :
    s ∈ (e.columns e.members).texts ++ Payload.texts e.members ↔ s ∈ e.texts := by
  rw [texts_members, texts_columns, List.mem_append]
  constructor
  · rintro (h | h)
    · exact List.mem_of_mem_take h
    · exact h
  · exact .inr

theorem rejects_iff {table : List Row} :
    Rejects fits table (e.columns e.members) ↔ ¬Storable fits table e := by
  have hnul : (∃ s ∈ (e.columns e.members).texts ++ Payload.texts e.members, HasNul s) ↔
      ¬∀ s ∈ e.texts, ¬HasNul s := by
    simp only [mem_texts_iff]
    push Not
    rfl
  have hstored : (Table.stored Row.primaryKey table e.eventId = none ∧
      ¬(fits [e.eventId] = true ∧ fits [e.tenantId, e.runId] = true)) ↔
      ¬(Table.stored Row.primaryKey table e.eventId ≠ none ∨
        (fits [e.eventId] = true ∧ fits [e.tenantId, e.runId] = true)) := by
    tauto
  unfold Storable
  rw [not_and_or, ← hnul]
  exact or_congr Iff.rfl hstored

/-! ## What becomes of an accepted event -/

/-- The times of the event have years that can be written in UTC. -/
def Execution.Writable (e : Execution) : Prop :=
  e.startedAt.utc.marshals = true ∧ e.endedAt.utc.marshals = true

theorem marshal_of_writable (h : e.Writable) : e.utc.marshal = some e.utc.members := if_pos h

theorem marshal_of_not_writable (h : ¬e.Writable) : e.utc.marshal = none := if_neg h

/-- What an accepted event comes to: its times cannot be written, or the insert is sent. -/
inductive Outcome (fits : List String → Bool) (db : Database) (e : Execution) :
    Response → Database → Prop where
  | invalid : ¬e.Writable → Outcome fits db e (httpError "invalid execution" 400) db
  | sent {result : Option Bool} {db' : Database} : e.Writable →
      Inserts fits db (e.utc.columns e.utc.members) result db' → Outcome fits db e (respond result) db'

/-- A decoded event is validated against the clock, in an order of the fields. -/
theorem outcome_of_record (hexec : Exec (record a e) tr response)
    (hreplay : Replay (ServesHealthy fits) db tr db') : ∃ now order rest,
    tr = ⟨.now, now⟩ :: ⟨.fieldOrder, order⟩ :: rest ∧
      (e.validate order now a.retention = none → Outcome fits db e response db') := by
  unfold record at hexec
  simp only [Program.perform_bind, Exec.call_iff] at hexec
  obtain ⟨now, _, rfl, order, rest, rfl, hexec⟩ := hexec
  refine ⟨now, order, rest, rfl, ?_⟩
  intro hvalidate
  simp only [hvalidate] at hexec
  -- Neither of the first two exchanges changes the database.
  obtain ⟨db₁, hsame₁, hreplay₁⟩ := Replay.cons_iff.mp hreplay
  obtain ⟨db₂, hsame₂, hreplay₂⟩ := Replay.cons_iff.mp hreplay₁
  obtain rfl : db₁ = db := hsame₁
  obtain rfl : db₂ = db₁ := hsame₂
  by_cases hwritable : e.Writable
  · simp only [marshal_of_writable hwritable] at hexec
    obtain ⟨result, rfl, rfl⟩ := exec_persist_iff.mp hexec
    obtain ⟨db₃, hserves, hdone⟩ := Replay.cons_iff.mp hreplay₂
    obtain rfl := Replay.nil_iff.mp hdone
    exact .sent hwritable hserves
  · simp only [marshal_of_not_writable hwritable] at hexec
    obtain ⟨rfl, rfl⟩ := Exec.ret_iff.mp hexec
    obtain rfl := Replay.nil_iff.mp hreplay₂
    exact .invalid hwritable

/-- An authenticated event that `validate` accepts is answered 204 or 409 by a service whose
    database is well if and only if its times can be written and it can be stored.  It is
    answered 503 if and only if it cannot be stored. -/
theorem accepted_stored_iff {now : Time} {order : FieldOrder} {rest : List Exchange}
    (hauthenticated : Authenticated lib a r) (hdecode : lib.decode r.body = .single e)
    (hexec : Exec (serveHTTP lib a r) (⟨.now, now⟩ :: ⟨.fieldOrder, order⟩ :: rest) response)
    (hvalidate : e.validate order now a.retention = none)
    (hreplay : Replay (ServesHealthy fits) db (⟨.now, now⟩ :: ⟨.fieldOrder, order⟩ :: rest) db') :
    (response.status = 204 ∨ response.status = 409 ↔ e.Writable ∧ Storable fits db.table e) ∧
      (response.status = 503 ↔ e.Writable ∧ ¬Storable fits db.table e) := by
  rw [serveHTTP_of_authenticated hauthenticated hdecode] at hexec
  obtain ⟨now', order', _, htrace, houtcome⟩ := outcome_of_record hexec hreplay
  obtain ⟨rfl, rfl, rfl⟩ : now = now' ∧ order = order' ∧ _ = _ := by simpa using htrace
  cases houtcome hvalidate with
  | invalid hwritable => simp [httpError, hwritable]
  | sent hwritable hinserts =>
    have hrejects : Rejects fits db.table (e.utc.columns e.utc.members) ↔
        ¬Storable fits db.table e := rejects_iff
    cases hinserts with
    | rejected hrejected =>
      have hnot := hrejects.mp hrejected
      simp [respond, httpError, hwritable, hnot]
    | executed now matched table haccepted =>
      have hstorable : Storable fits db.table e := not_not.mp (mt hrejects.mpr haccepted)
      cases matched <;> simp [respond, httpError, hwritable, hstorable]

/-! ## A span with U+0000 -/

/-- A span whose name ends with U+0000. -/
def nulSpan : Execution := { fineSpan with name := "analytics.usage\x00" }

def nulBody : String :=
  "\x7b\"eventId\":\"span-1\",\"startedAt\":\"2026-01-01T00:00:00.000000001Z\"," ++
  "\"endedAt\":\"2026-01-01T00:00:03Z\",\"tenantId\":\"tenant-a\",\"cluster\":\"kind\"," ++
  "\"namespace\":\"demo\",\"traceId\":\"trace\",\"runId\":\"run\",\"agent\":\"worker\"," ++
  "\"kind\":\"run\",\"name\":\"analytics.usage\\u0000\",\"status\":\"succeeded\"\x7d"

/-- Entries of at most 2700 bytes. -/
def fitsPage (keys : List String) : Bool := (keys.map String.utf8ByteSize).sum ≤ 2700

theorem contract_nulSpan : nulSpan.Contract where
  required field := by
    have hfield := contract_fineSpan.required field
    cases field
    case name => exact ⟨'a', by decide, by decide⟩
    all_goals exact hfield
  started := by decide
  ended := by decide
  ordered := by decide
  status := .inl rfl
  nonnegative := by decide
  parent := by decide
  detailed := .run rfl
  usage _ := ⟨rfl, rfl, rfl⟩

/-- The span is accepted, and its insert is rejected and it is answered 503 whatever the
    table holds. -/
theorem nulSpan_unavailable :
    nulSpan.validate ⟨Required.all, .refl _⟩ fineNow weekAPI.retention = none ∧
    ∀ db, ∃ rest, Replay (ServesHealthy fitsPage) db
        (⟨.now, fineNow⟩ :: ⟨.fieldOrder, ⟨Required.all, .refl _⟩⟩ :: rest) db ∧
      Exec (serveHTTP (libraryOf nulBody nulSpan) weekAPI (postOf nulBody))
        (⟨.now, fineNow⟩ :: ⟨.fieldOrder, ⟨Required.all, .refl _⟩⟩ :: rest)
        (httpError "storage unavailable" 503) := by
  have htimely : nulSpan.Timely fineNow weekAPI.retention := ⟨by decide, by decide⟩
  have hmarshal : nulSpan.utc.marshal = some nulSpan.members := by decide
  have hnul : HasNul nulSpan.name := by
    unfold HasNul
    decide
  refine ⟨validate_eq_none_iff.mpr ⟨contract_nulSpan, htimely⟩, ?_⟩
  intro db
  have hrejects : Rejects fitsPage db.table (nulSpan.utc.columns nulSpan.members) :=
    .inl ⟨nulSpan.name, by simp [Columns.texts, Execution.columns, Execution.utc], hnul⟩
  exact ⟨_, replay_of_inserts _ _ (.rejected hrejects),
    exec_postOf nulBody contract_nulSpan htimely hmarshal none⟩

theorem accepted_stored_fineSpan : ∃ tr db' response,
    Exec (serveHTTP (libraryOf fineBody fineSpan) weekAPI (postOf fineBody)) tr response ∧
      Replay (ServesHealthy fitsPage) {} tr db' ∧
      (response.status = 204 ∨ response.status = 409 ↔
        fineSpan.Writable ∧ Storable fitsPage [] fineSpan) := by
  have hserve := exec_postOf fineBody contract_fineSpan timely_fineSpan marshal_fineSpan (some true)
  have hstorable : Storable fitsPage [] fineSpan := by
    refine ⟨?_, .inr ⟨by decide, by decide⟩⟩
    unfold HasNul
    decide
  have haccepted : ¬Rejects fitsPage [] (fineSpan.utc.columns fineSpan.members) :=
    fun h => rejects_iff.mp h hstorable
  have hinsert : Inserts fitsPage {} (fineSpan.utc.columns fineSpan.members) (some true)
      ⟨[⟨(fineSpan.columns fineSpan.members).encode, 1767225603000000⟩], []⟩ :=
    .executed 1767225603000000 true _ haccepted rfl
  have hreplay := replay_of_inserts fineNow ⟨Required.all, .refl _⟩ hinsert
  exact ⟨_, _, _, hserve, hreplay, (accepted_stored_iff (authenticated_postOf fineBody fineSpan)
    (decode_postOf fineBody fineSpan) hserve
    (validate_eq_none_iff.mpr ⟨contract_fineSpan, timely_fineSpan⟩) hreplay).1⟩

end CubeOperator.Telemetry
