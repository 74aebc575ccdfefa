import CubeOperator.Telemetry.CubeModel

/-! # What Cube shows of a trace

    The events of a trace are posted in any order and as often as it takes.  When each has
    been acknowledged, a query for the trace is answered as if its events were the table. -/

namespace CubeOperator.Telemetry

open Interaction DataModel

/-! ## The rows of the events -/

/-- The row is what an insert of the event stores. -/
def Records (event : Execution) (row : Row) : Prop :=
  ∃ payload, event.utc.marshal = some payload ∧ row.toColumns = (event.utc.columns payload).encode

section rows

variable {lib : Library} {a : ExecutionAPI} {token : String} {events : List Execution}
  {event : Execution} {start : List Row} {db db' : Database} {row : Row} {trace : String}

theorem Records.eventId (h : Records event row) : row.eventId = event.eventId := by
  obtain ⟨payload, -, hcolumns⟩ := h
  exact congrArg Columns.eventId hcolumns

theorem Records.traceId (h : Records event row) : row.traceId = event.traceId := by
  obtain ⟨payload, -, hcolumns⟩ := h
  exact congrArg Columns.traceId hcolumns

theorem exists_records (h : Holds events start db) (hrow : row ∈ db.table) (hnew : row ∉ start) :
    ∃ event ∈ events, Records event row := by
  rcases h.sent row hrow with hstart | ⟨c, ⟨event, hevent, hmarshal, hc⟩, hcolumns⟩
  · exact absurd hstart hnew
  · refine ⟨event, hevent, c.payload, hmarshal, ?_⟩
    rw [← hc]
    exact hcolumns

/-- The events are of the trace, with ids of their own, and new to the table. -/
structure Traced (trace : String) (events : List Execution) (start : List Row) : Prop where
  ofTrace : ∀ event ∈ events, event.traceId = trace
  distinct : (events.map Execution.eventId).Nodup
  fresh : ∀ event ∈ events, ∀ row ∈ start, row.eventId ≠ event.eventId
  other : ∀ row ∈ start, row.traceId ≠ trace

theorem records_of_storedOnce (h : Holds events start db) (htraced : Traced trace events start)
    (hevent : event ∈ events) (hstored : StoredOnce event db) :
    ∃ row ∈ db.table, Records event row := by
  obtain ⟨row, hrow, hid, -, -⟩ := hstored
  have hnew : row ∉ start := fun hstart => htraced.fresh event hevent row hstart hid
  obtain ⟨event', hevent', hrecords⟩ := exists_records h hrow hnew
  have hsame : event'.eventId = event.eventId := hrecords.eventId.symm.trans hid
  obtain rfl := List.inj_on_of_nodup_map htraced.distinct hevent' hevent hsame
  exact ⟨row, hrow, hrecords⟩

/-- The rows of the trace are those of its events. -/
theorem exists_traced (h : Holds events start db) (htraced : Traced trace events start)
    (hstored : ∀ event ∈ events, StoredOnce event db) : ∃ rows, List.Forall₂ Records events rows ∧
      (db.table.filter fun row => row.traceId = trace).Perm rows := by
  obtain ⟨rows, hrows⟩ := exists_forall₂ (R := fun event row => row ∈ db.table ∧ Records event row)
    fun event hevent => records_of_storedOnce h htraced hevent (hstored event hevent)
  have hrecords : List.Forall₂ Records events rows := hrows.imp fun _ _ hrow => hrow.2
  have hids : events.map Execution.eventId = rows.map Row.primaryKey := by
    rw [← List.forall₂_eq_eq_eq, List.forall₂_map_left_iff, List.forall₂_map_right_iff]
    exact hrecords.imp fun _ _ hrow => (Records.eventId hrow).symm
  have hnodup : rows.Nodup := by
    apply List.Nodup.of_map Row.primaryKey
    rw [← hids]
    exact htraced.distinct
  have htable : db.table.Nodup := h.unique.of_map
  refine ⟨rows, hrecords, (List.perm_ext_iff_of_nodup (htable.filter _) hnodup).mpr fun row => ?_⟩
  rw [List.mem_filter, decide_eq_true_eq]
  constructor
  · intro ⟨hrow, htrace⟩
    have hnew : row ∉ start := fun hstart => htraced.other row hstart htrace
    obtain ⟨event, hevent, hrecord⟩ := exists_records h hrow hnew
    -- the row of the event is the only one with its id
    obtain ⟨row', hrow', hmem, hrecord'⟩ := exists_right_of_mem hrows hevent
    have hkey : row.primaryKey = row'.primaryKey := hrecord.eventId.trans hrecord'.eventId.symm
    rwa [h.unique.eq_of_key hrow hmem hkey]
  · intro hrow
    obtain ⟨event, hevent, hmem, hrecord⟩ := exists_left_of_mem hrows hrow
    exact ⟨hmem, hrecord.traceId.trans (htraced.ofTrace event hevent)⟩

end rows

/-! ## Totals -/

/-- The duration that is recorded for an event. -/
def durationMs (e : Execution) : ℚ := (e.endedAt.sub e.startedAt : ℚ) / 10 ^ 6

/-- The measures of the data model, of events. -/
def eventMeasures : List (String × Measure Execution) :=
  [("count", { type := .count }),
    ("runs", { type := .count, filters := [fun e => e.kind = "run"] }),
    ("failedRuns", { type := .count, filters := [fun e => e.kind = "run" ∧ e.status = "failed"] }),
    ("failedValidations", { type := .count, filters :=
      [fun e => e.kind = "validation" ∧ e.validation = "failed"] }),
    ("averageRunDurationMs", { type := .avg durationMs, filters := [fun e => e.kind = "run"] }),
    ("inputTokens", { type := .sum fun e => e.inputTokens }),
    ("outputTokens", { type := .sum fun e => e.outputTokens }),
    ("costUsd", { type := .sum fun e => e.costUsd })]

/-- The totals of the events. -/
def totals (events : List Execution) : Line :=
  eventMeasures.map fun m => (agentExecutions.member m.1, m.2.value events)

/-- A query of `demo/agent-executions.py`, for one trace. -/
def traceQuery (dimensions measures : List String) (trace : String) : Query where
  dimensions := dimensions
  measures := measures
  filters := [("AgentExecutions.traceId", [trace])]
  limit := 100

/-- The query for the totals of a trace. -/
def totalsQuery (trace : String) : Query :=
  traceQuery [] (eventMeasures.map fun m => agentExecutions.member m.1) trace

/-- The order of a list of events does not matter for its totals. -/
theorem totals_perm {events events' : List Execution} (h : events.Perm events') :
    totals events = totals events' := by
  unfold totals
  apply List.map_congr_left
  intro m _
  rw [m.2.value_perm h]

section totals

variable {events : List Execution} {event : Execution} {row : Row} {trace : String}

theorem Records.columns (h : Records event row) :
    row.toColumns = (event.utc.columns event.utc.members).encode := by
  obtain ⟨payload, hmarshal, hcolumns⟩ := h
  rw [hcolumns, members_of_marshal hmarshal]

theorem agree_measures : List.Forall₂ (fun m m' =>
    m.1 = m'.1 ∧ m.2.Agree (fun row event => Records event row) m'.2)
      agentExecutions.measures eventMeasures := by
  have hkind : ∀ row event, Records event row → row.kind = event.kind :=
    fun row event h => congrArg Columns.kind h.columns
  have hstatus : ∀ row event, Records event row → row.status = event.status :=
    fun row event h => congrArg Columns.status h.columns
  have hvalidation : ∀ row event, Records event row →
      payloadText "validation" row = .text event.validation := by
    intro row event h
    have hpayload : row.payload = event.utc.members := congrArg Columns.payload h.columns
    rw [payloadText, hpayload]
    rfl
  have hruns : ∀ row event, Records event row →
      decide (row.kind = "run") = decide (event.kind = "run") := by
    intro row event h
    rw [hkind row event h]
  -- the measures in the order of the model
  refine .cons ⟨rfl, .count, .nil⟩ (.cons ⟨rfl, .count, .cons hruns .nil⟩ (.cons ⟨rfl, .count,
    .cons ?_ .nil⟩ (.cons ⟨rfl, .count, .cons ?_ .nil⟩ (.cons ⟨rfl, .avg ?_, .cons hruns .nil⟩
    (.cons ⟨rfl, .sum ?_, .nil⟩ (.cons ⟨rfl, .sum ?_, .nil⟩ (.cons ⟨rfl, .sum ?_, .nil⟩ .nil)))))))
  · intro row event h
    show decide (row.kind = "run" ∧ row.status = "failed") = _
    rw [hkind row event h, hstatus row event h]
  · intro row event h
    show decide (row.kind = "validation" ∧ payloadText "validation" row = .text "failed") = _
    rw [hkind row event h, hvalidation row event h]
    simp
  · exact fun row event h => congrArg Columns.durationMs h.columns
  · exact fun row event h => congrArg (fun c => (c.inputTokens : ℚ)) h.columns
  · exact fun row event h => congrArg (fun c => (c.outputTokens : ℚ)) h.columns
  · exact fun row event h => congrArg Columns.costUsd h.columns

/-- A query for the totals of a trace is one of the data model. -/
theorem select_totalsQuery (trace : String) : ∃ s, agentExecutions.select (totalsQuery trace) = some s ∧
    s.dimensions = [] ∧ s.limit = 100 ∧
    s.filters = [fun row => decide (Value.text row.traceId ∈ [trace].map Value.text)] ∧
    s.measures = agentExecutions.measures.map fun m => (agentExecutions.member m.1, m.2) :=
  ⟨_, rfl, rfl, rfl, rfl, rfl⟩

theorem dimension_traceId : agentExecutions.dimension "AgentExecutions.traceId" =
    some fun row => .text row.traceId := rfl

/-- A query for a trace selects rows of the trace. -/
theorem traceId_of_select {s : Select Row} {q : Query} (h : agentExecutions.select q = some s)
    (hfilter : ("AgentExecutions.traceId", [trace]) ∈ q.filters) {table : List Row}
    (hrow : row ∈ s.rows table) : row.traceId = trace := by
  simpa using Select.mem_of_select h hfilter dimension_traceId hrow

/-- A query for a trace is answered from the rows of the trace alone. -/
theorem answers_of_traced {s : Select Row} {q : Query} (h : agentExecutions.select q = some s)
    (hfilter : ("AgentExecutions.traceId", [trace]) ∈ q.filters) {table rows : List Row}
    (hrows : (table.filter fun row => row.traceId = trace).Perm rows) {data : List Line} :
    s.Answers table data ↔ s.Answers rows data := by
  apply Select.answers_congr
  have htrace : ∀ row ∈ s.rows table, decide (row.traceId = trace) = true :=
    fun row hrow => decide_eq_true (traceId_of_select h hfilter hrow)
  rw [← Select.rows_filter htrace]
  exact hrows.filter _

theorem rows_of_filters {s : Select Row} (table : List Row)
    (h : s.filters = [fun row => decide (Value.text row.traceId ∈ [trace].map Value.text)]) :
    s.rows table = table.filter fun row => row.traceId = trace := by
  unfold Select.rows
  rw [h]
  apply List.filter_congr
  simp

/-- The totals of a trace are those of its events. -/
theorem answers_totals {table rows : List Row} (hrecords : List.Forall₂ Records events rows)
    (hrows : (table.filter fun row => row.traceId = trace).Perm rows) :
    ∃ s, agentExecutions.select (totalsQuery trace) = some s ∧
      ∀ data, s.Answers table data ↔ data = [totals events] := by
  obtain ⟨s, hs, hdimensions, hlimit, hfilters, hmeasures⟩ := select_totalsQuery trace
  refine ⟨s, hs, fun data => ?_⟩
  have htotals : (s.measures.map fun m => (m.1, m.2.value (s.rows table))) = totals events := by
    rw [rows_of_filters table hfilters, hmeasures, List.map_map]
    unfold totals
    rw [← List.forall₂_eq_eq_eq, List.forall₂_map_left_iff, List.forall₂_map_right_iff]
    refine agree_measures.imp fun m m' hagree => ?_
    show (agentExecutions.member m.1, m.2.value _) = (agentExecutions.member m'.1, m'.2.value events)
    rw [hagree.1, m.2.value_perm hrows, hagree.2.value hrecords.flip]
  rw [Select.answers_total_iff hdimensions (by rw [hlimit]; decide), htotals]

end totals

/-! ## Where rows come from -/

section runs

variable {lib : Library} {S S' : System ℕ Job Database Call Answer (Option Response)}
  {event : Execution} {c : Columns} {row : Row} {trace : String}

/-- The job is a request with the credential of the service, and its event is this one. -/
def Job.Carries (lib : Library) (event : Execution) (job : Job) : Prop :=
  ∃ a r sent, job = .request a r ∧ Authenticated lib a r ∧ lib.decode r.body = .single sent ∧
    sent.utc = event

/-- The exchange sends no insert but that of the event of the job. -/
def SendsOwn (lib : Library) (job : Job) (e : Exchange) : Prop :=
  ∀ c, e.1 = .query (.insert c) → ∃ event, job.Carries lib event ∧ Recorded event c

theorem only_record_own {a : ExecutionAPI} {r : Request} (h : Authenticated lib a r)
    (hdecode : lib.decode r.body = .single event) :
    Only (SendsOwn lib (.request a r)) (record a event) := by
  unfold record
  simp only [Program.perform_bind]
  refine fun now => ⟨by simp [SendsOwn], fun order => ⟨by simp [SendsOwn], ?_⟩⟩
  cases hvalidate : event.validate order now a.retention with
  | some message =>
    simp only [hvalidate]
    trivial
  | none =>
    cases hmarshal : event.utc.marshal with
    | none =>
      simp only [hvalidate]
      trivial
    | some payload =>
      simp only [hvalidate]
      intro result
      refine ⟨?_, trivial⟩
      intro c hc
      obtain rfl : event.utc.columns payload = c := by simpa using hc
      exact ⟨event.utc, ⟨a, r, event, rfl, h, hdecode, rfl⟩, recorded_of_validate hvalidate hmarshal⟩

theorem only_program_own (lib : Library) (job : Job) :
    Only (SendsOwn lib job) (job.program lib) := by
  cases job with
  | prune retention =>
    refine Only.bind (?_ : Only _ (prune retention)) fun _ => trivial
    exact fun now => ⟨by simp [SendsOwn], fun result => ⟨by simp [SendsOwn], trivial⟩⟩
  | request a r =>
    refine Only.bind ?_ fun _ => trivial
    unfold serveHTTP
    split_ifs with hready hpath hmethod hcredential
    · exact fun up => ⟨by simp [SendsOwn], trivial⟩
    · trivial
    · trivial
    · trivial
    · rw [not_or, not_not] at hcredential
      have hauthenticated : Authenticated lib a r :=
        ⟨not_not.mp hmethod, not_not.mp hpath, hcredential.1, hcredential.2⟩
      cases hdecode : lib.decode r.body with
      | malformed => trivial
      | trailing => trivial
      | single event => exact only_record_own hauthenticated hdecode

/-- The event has come with a request, before the state or at it. -/
def Submitted (lib : Library) (S : System ℕ Job Database Call Answer (Option Response))
    (event : Execution) : Prop :=
  ∃ T i run, (service lib).Reachable empty T ∧ (service lib).Reachable T S ∧
    T.thread i = some run ∧ run.job.Carries lib event

theorem Submitted.later (h : Submitted lib S event) (hstep : (service lib).Step S S') :
    Submitted lib S' event := by
  obtain ⟨T, i, run, hempty, hrun, hthread, hcarries⟩ := h
  exact ⟨T, i, run, hempty, hrun.tail hstep, hthread, hcarries⟩

/-- Rows and pending inserts are those of events of `P`. -/
structure Database.From (P : Execution → Prop) (db : Database) : Prop where
  rows : ∀ row ∈ db.table, ∃ event c, P event ∧ Recorded event c ∧ row.toColumns = c.encode
  pending : ∀ c, .insert c ∈ db.pending → ∃ event, P event ∧ Recorded event c

section database

variable {P P' : Execution → Prop} {db db' : Database}

theorem Database.From.mono (h : db.From P) (hP : ∀ event, P event → P' event) : db.From P' := by
  constructor
  · intro row hrow
    obtain ⟨event, c, hevent, hrecorded, hcolumns⟩ := h.rows row hrow
    exact ⟨event, c, hP event hevent, hrecorded, hcolumns⟩
  · intro c hc
    obtain ⟨event, hevent, hrecorded⟩ := h.pending c hc
    exact ⟨event, hP event hevent, hrecorded⟩

theorem from_execute (now : ℤ) {statement : Statement} (h : db.From P)
    (hstatement : ∀ c, statement = .insert c → ∃ event, P event ∧ Recorded event c)
    {pending : List Statement} (hpending : ∀ s ∈ pending, s ∈ db.pending) :
    Database.From P ⟨(execute now statement db.table).1, pending⟩ := by
  refine ⟨?_, fun c hc => h.pending c (hpending _ hc)⟩
  intro row hrow
  rcases mem_of_mem_execute hrow with hrow | ⟨c, rfl, rfl, -⟩
  · exact h.rows row hrow
  · obtain ⟨event, hevent, hrecorded⟩ := hstatement c rfl
    exact ⟨event, c, hevent, hrecorded, rfl⟩

theorem from_serves {e : Exchange} (h : db.From P)
    (hsends : ∀ c, e.1 = .query (.insert c) → ∃ event, P event ∧ Recorded event c)
    (hserves : Serves db e db') : db'.From P := by
  rcases serves_cases hserves with rfl | ⟨statement, result, now, rfl, hexecute, hpending⟩ |
    ⟨statement, rfl, rfl⟩
  · exact h
  · have hfrom := from_execute now h (fun c hc => hsends c (congrArg Call.query hc)) fun s hs => hs
    rw [hexecute] at hfrom
    obtain ⟨table, pending⟩ := db'
    obtain rfl : pending = db.pending := hpending
    exact hfrom
  · refine ⟨h.rows, fun c hc => ?_⟩
    rcases List.mem_cons.mp hc with hc | hc
    · exact hsends c (by rw [hc])
    · exact h.pending c hc

theorem from_drifts (h : db.From P) (hdrifts : Drifts db db') : db'.From P := by
  obtain ⟨statement, now, hmem, rfl⟩ := hdrifts
  exact from_execute now h (fun c hc => h.pending c (hc ▸ hmem)) fun s hs => List.mem_of_mem_erase hs

end database

/-- What a thread sends is the event of its request. -/
theorem submitted_of_exchanges {i : ℕ} {e : Exchange} (h : (service lib).Reachable empty S)
    (hexchanges : (service lib).Exchanges i e S S') {c : Columns} (hc : e.1 = .query (.insert c)) :
    ∃ event, Submitted lib S event ∧ Recorded event c := by
  obtain ⟨run, run', hrun, -⟩ := id hexchanges
  have hsends : SendsOwn lib run.job e :=
    Environment.Reachable.exchange (P := fun job _ e => SendsOwn lib job e)
      (fun _ _ job _ => Ensures.of_only (I := fun _ => True) (fun _ _ _ he _ _ => ⟨trivial, he⟩)
        (only_program_own lib job) trivial fun _ _ _ _ _ _ => trivial) h hrun hexchanges
  obtain ⟨event, hcarries, hrecorded⟩ := hsends c hc
  exact ⟨event, ⟨S, i, run, h, .refl, hrun, hcarries⟩, hrecorded⟩

/-- All that is stored has been submitted. -/
theorem from_of_reachable (h : (service lib).Reachable empty S) :
    S.state.From (Submitted lib S) := by
  induction h with
  | refl => exact ⟨by simp [empty, Environment.idle], by simp [empty, Environment.idle]⟩
  | @tail S S' hreach hstep ih =>
    have hlater := ih.mono fun event hsubmitted => hsubmitted.later hstep
    cases id hstep with
    | begin => exact hlater
    | stop => exact hlater
    | drift hdrifts => exact from_drifts hlater hdrifts
    | exchange i e hexchanges =>
      obtain ⟨_, _, -, -, hserves, -⟩ := id hexchanges
      refine from_serves hlater (fun c hc => ?_) hserves
      obtain ⟨event, hsubmitted, hrecorded⟩ := submitted_of_exchanges hreach hexchanges hc
      exact ⟨event, hsubmitted.later hstep, hrecorded⟩

/-- The step answers a request with this event, in UTC, that it is stored. -/
def Confirms (lib : Library) (event : Execution)
    (T T' : System ℕ Job Database Call Answer (Option Response)) : Prop :=
  ∃ i run response a r sent, T'.thread i = some run ∧ T.thread i ≠ some run ∧
    run.Finished (some response) ∧ response.status = 204 ∧ run.job = .request a r ∧
    lib.decode r.body = .single sent ∧ sent.utc = event

/-- The step deletes the row of the event, which is too old. -/
def Forgets (event : Execution) (U U' : System ℕ Job Database Call Answer (Option Response)) : Prop :=
  ∃ row ∈ U.state.table, row.payload = event.members ∧ Prunes row U U'

/-- The events of a trace at a state of a run: valid events that have been submitted, each
    once, and among them all that have been confirmed unless they were too old since. -/
structure Tracked (lib : Library) (S : System ℕ Job Database Call Answer (Option Response))
    (trace : String) (events : List Execution) : Prop where
  distinct : (events.map Execution.eventId).Nodup
  ofTrace : ∀ event ∈ events, event.traceId = trace
  contract : ∀ event ∈ events, event.Contract
  submitted : ∀ event ∈ events, Submitted lib S event
  confirmed : ∀ T T' event, (service lib).Reachable empty T → (service lib).Step T T' →
    (service lib).Reachable T' S → Confirms lib event T T' → event.traceId = trace →
    event ∈ events ∨ ∃ U U', (service lib).Reachable T' U ∧ (service lib).Step U U' ∧
      (service lib).Reachable U' S ∧ Forgets event U U'

/-- The row is stored for the event, which has been submitted. -/
structure Tracks (lib : Library) (S : System ℕ Job Database Call Answer (Option Response))
    (event : Execution) (row : Row) : Prop where
  contract : event.Contract
  submitted : Submitted lib S event
  records : Records event row
  payload : row.payload = event.members

theorem exists_tracks (h : (service lib).Reachable empty S) (hrow : row ∈ S.state.table) :
    ∃ event, Tracks lib S event row := by
  obtain ⟨event, c, hsubmitted, hrecorded, hcolumns⟩ := (from_of_reachable h).rows row hrow
  obtain ⟨payload, hmarshal, hc⟩ := hrecorded.columns
  refine ⟨event, hrecorded.contract, hsubmitted, ⟨payload, ?_, ?_⟩, ?_⟩
  · rw [hrecorded.utc, hmarshal]
  · rw [hrecorded.utc, hcolumns, hc]
  · have hpayload : row.payload = c.encode.payload := congrArg Columns.payload hcolumns
    rw [hpayload]
    exact hrecorded.payload_eq

/-- A row with the payload of an event is that of the event. -/
theorem Tracks.eq_of_payload {event' : Execution} (h : Tracks lib S event row)
    (hpayload : row.payload = event'.members) : event = event' :=
  members_injective (h.payload.symm.trans hpayload)

theorem tracked_of_forall₂ {events : List Execution} (h : (service lib).Reachable empty S)
    (htracks : List.Forall₂ (Tracks lib S) events
      (S.state.table.filter fun row => row.traceId = trace)) : Tracked lib S trace events := by
  have hunique := (sound_of_reachable h).1.unique
  have hrow : ∀ event ∈ events, ∃ row ∈ S.state.table, row.traceId = trace ∧ Tracks lib S event row := by
    intro event hevent
    obtain ⟨row, hmem, htrack⟩ := exists_right_of_mem htracks hevent
    obtain ⟨hmem, htrace⟩ := List.mem_filter.mp hmem
    exact ⟨row, hmem, of_decide_eq_true htrace, htrack⟩
  constructor
  case distinct =>
    -- the ids of the events are the keys of their rows
    have hids : events.map Execution.eventId =
        (S.state.table.filter fun row => row.traceId = trace).map Row.primaryKey := by
      rw [← List.forall₂_eq_eq_eq, List.forall₂_map_left_iff, List.forall₂_map_right_iff]
      exact htracks.imp fun _ _ htrack => htrack.records.eventId.symm
    rw [hids]
    exact hunique.filter _
  case ofTrace =>
    intro event hevent
    obtain ⟨row, -, htrace, htrack⟩ := hrow event hevent
    rw [← htrace, htrack.records.traceId]
  case contract =>
    intro event hevent
    obtain ⟨row, -, -, htrack⟩ := hrow event hevent
    exact htrack.contract
  case submitted =>
    intro event hevent
    obtain ⟨row, -, -, htrack⟩ := hrow event hevent
    exact htrack.submitted
  case confirmed =>
    rintro T T' event hT hstep hS ⟨i, run, response, a, r, sent, hrun, hnew, hfinished, hstatus, hjob,
      hdecode, rfl⟩ htrace
    obtain ⟨a', r', event', payload, row, hjob', hdecode', hmarshal, hrow', hid, hpayload⟩ :=
      stored_of_answered hT hstep hrun hnew hfinished (.inl hstatus)
    obtain ⟨rfl, rfl⟩ := Job.request.inj (hjob.symm.trans hjob')
    obtain rfl : sent = event' := Decoded.single.inj (hdecode.symm.trans hdecode')
    have hmembers : row.payload = sent.utc.members := by
      rw [hpayload.mp hstatus, members_of_marshal hmarshal]
    -- a row stays until it is pruned, and its payload says which event it is for
    rcases kept_of_reachable hS hrow' with hkept | ⟨U, U', hU, hUU', hU', hmem, hprunes⟩
    · obtain ⟨event₁, htrack₁⟩ := exists_tracks h hkept
      obtain rfl := htrack₁.eq_of_payload hmembers
      have hsame : row.traceId = trace := htrack₁.records.traceId.trans htrace
      obtain ⟨event₂, hevent₂, htrack₂⟩ := exists_left_of_mem htracks
        (List.mem_filter.mpr ⟨hkept, decide_eq_true hsame⟩)
      rw [htrack₂.eq_of_payload hmembers] at hevent₂
      exact .inl hevent₂
    · exact .inr ⟨U, U', hU, hUU', hU', row, hmem, hmembers, hprunes⟩

/-- In every state of every run, what Cube shows of a trace is what its events alone would
    show: each event that was confirmed counts once, in whatever order the events came and
    however often each was sent. -/
theorem totals_tracked (h : (service lib).Reachable empty S) (trace : String) :
    ∃ events, Tracked lib S trace events ∧
      (∃ s, agentExecutions.select (totalsQuery trace) = some s ∧ ∀ events', events.Perm events' →
        ∀ data, s.Answers S.state.table data ↔ data = [totals events']) ∧
      ∃ rows, List.Forall₂ Records events rows ∧ ∀ q s, agentExecutions.select q = some s →
        ("AgentExecutions.traceId", [trace]) ∈ q.filters →
        ∀ data, s.Answers S.state.table data ↔ s.Answers rows data := by
  let rows : List Row := S.state.table.filter fun row => row.traceId = trace
  have htracks : ∀ row ∈ rows, ∃ event, Tracks lib S event row :=
    fun row hrow => exists_tracks h (List.mem_of_mem_filter hrow)
  obtain ⟨events, hevents⟩ := exists_forall₂ htracks
  have htracked := tracked_of_forall₂ h hevents.flip
  have hrecords : List.Forall₂ Records events rows := hevents.flip.imp fun _ _ htrack => htrack.records
  obtain ⟨s, hs, htotals⟩ := answers_totals hrecords (.refl _)
  refine ⟨events, htracked, ⟨s, hs, fun events' hperm data => ?_⟩, rows, hrecords,
    fun q s hs hfilter data => answers_of_traced hs hfilter (.refl _)⟩
  rw [← totals_perm hperm]
  exact htotals data

theorem totals_tracked_history : ∃ S, History S ∧ ∃ events,
    Tracked historyLibrary S fineSpan.traceId events ∧
      ∃ s, agentExecutions.select (totalsQuery fineSpan.traceId) = some s ∧
        s.Answers S.state.table [totals events] := by
  obtain ⟨S, hhistory⟩ := exists_history
  obtain ⟨events, htracked, ⟨s, hs, htotals⟩, -⟩ :=
    totals_tracked hhistory.reachable fineSpan.traceId
  exact ⟨S, hhistory, events, htracked, s, hs, (htotals events (.refl _) _).mpr rfl⟩

end runs

end CubeOperator.Telemetry
