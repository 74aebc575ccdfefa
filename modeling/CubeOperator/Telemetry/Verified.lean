import CubeOperator.Telemetry.Traces

/-! # Verified traces

    `publish_and_verify` with the service that stores the events and with Cube, which reads
    them from the same table.  When the publish loop has come to its end the verification
    finds what it looks for as soon as Cube shows anything. -/

namespace CubeOperator.Telemetry.Verification

open Interaction DataModel

/-! ## The loop over the queries -/

section verify

variable {events : List PublishedEvent} {trace : String} {n : ℕ} {response : CubeResponse}

/-- An exchange with Cube in which it shows the events, if it shows anything. -/
inductive Fair (events : List PublishedEvent) : Event CubeAnswer → Prop where
  | waiting (body : Json) {response : CubeResponse} :
      ContinueWait response → Fair events ⟨.post body, response⟩
  | shown (body : Json) {response : CubeResponse} {data : Json} :
      Shows events response data → Fair events ⟨.post body, response⟩
  | failed (body : Json) {status : ℕ} (content : Option Json) :
      ¬(200 ≤ status ∧ status < 300) → Fair events ⟨.post body, .response status content⟩
  | raised (body : Json) : Fair events ⟨.post body, .raised⟩
  | slept : Fair events ⟨.sleep, ()⟩

/-- How the loop with `n` queries left goes: Cube is not ready a number of times, and then
    shows the events, fails, or is not asked again. -/
inductive Verdict (events : List PublishedEvent) (trace : String) :
    ℕ → List (Event CubeAnswer) → Except VerificationError Json → Prop where
  | exhausted : Verdict events trace 0 []
      (.error (.runtimeError "Cube did not finish the trace query within the retry limit"))
  | waited {n : ℕ} {response : CubeResponse} {tr : List (Event CubeAnswer)}
      {r : Except VerificationError Json} : ContinueWait response → Verdict events trace n tr r →
      Verdict events trace (n + 1) (⟨.post (query trace), response⟩ :: ⟨.sleep, ()⟩ :: tr) r
  | accepted {n : ℕ} {response : CubeResponse} {data : Json} : Shows events response data →
      Verdict events trace (n + 1) [⟨.post (query trace), response⟩] (.ok data)
  | failed {n status : ℕ} (content : Option Json) : ¬(200 ≤ status ∧ status < 300) →
      Verdict events trace (n + 1) [⟨.post (query trace), .response status content⟩]
        (.error (.httpStatusError status))
  | raised {n : ℕ} : Verdict events trace (n + 1) [⟨.post (query trace), .raised⟩] (.error .raised)

theorem verdict_of_exec (hids : DistinctIds events) {tr : List (Event CubeAnswer)}
    {r : Except VerificationError Json} (h : Exec (verify events trace n).run tr r)
    (hfair : ∀ e ∈ tr, Fair events e) : Verdict events trace n tr r := by
  induction n generalizing tr with
  | zero =>
    obtain ⟨rfl, rfl⟩ := Exec.ret_iff.mp h
    exact .exhausted
  | succ n ih =>
    have hsplit : Exec (load trace >>= proceed events trace n).run tr r := h
    obtain ⟨e, hload, -⟩ | ⟨tr₁, response, tr₂, rfl, hload, hrest⟩ :=
      Exec.attempt_bind_iff.mp hsplit
    · obtain ⟨_, -, ⟨⟩⟩ := Exec.lift_iff.mp hload
    obtain ⟨response', hpost, heq⟩ := Exec.lift_iff.mp hload
    obtain rfl : response = response' := Except.ok.inj heq
    obtain rfl := Exec.perform_iff.mp hpost
    by_cases hwait : ContinueWait response
    -- the loop sleeps and goes on with one query less
    · rw [proceed_of_wait hwait] at hrest
      obtain ⟨e, hpause, -⟩ | ⟨tr₃, u, tr₄, rfl, hpause, hverify⟩ := Exec.attempt_bind_iff.mp hrest
      · obtain ⟨_, -, ⟨⟩⟩ := Exec.lift_iff.mp hpause
      obtain ⟨_, hsleep, -⟩ := Exec.lift_iff.mp hpause
      obtain rfl := Exec.perform_iff.mp hsleep
      exact .waited hwait (ih hverify fun e he =>
        hfair e (List.mem_append_right _ (List.mem_append_right _ he)))
    · rw [proceed_of_not_wait hwait] at hrest
      obtain ⟨rfl, rfl⟩ := Exec.ret_iff.mp hrest
      cases hfair _ List.mem_cons_self with
      | waiting _ hwaiting => exact absurd hwaiting hwait
      | @shown _ _ data hshows =>
        rw [(examine_eq_ok_iff hids).mpr hshows]
        exact .accepted hshows
      | @failed _ status content hstatus =>
        have hexamine : examine events (.response status content) = .error (.httpStatusError status) := by
          simp [examine, CubeResponse.json, hstatus]
        rw [hexamine]
        exact .failed content hstatus
      | raised => exact .raised

theorem not_wait_of_shows {data : Json} (h : Shows events response data) : ¬ContinueWait response := by
  obtain ⟨fs, hjson, herror, -⟩ := h
  rintro ⟨fs', hjson', herror'⟩
  rw [hjson] at hjson'
  obtain rfl := Json.obj.inj (Except.ok.inj hjson')
  rw [herror] at herror'
  cases herror'

/-- The loop ends with the first response that shows the events. -/
theorem exec_verify_of_shows (hids : DistinctIds events) {data : Json}
    (h : Shows events response data) :
    Exec (verify events trace (n + 1)).run [⟨.post (query trace), response⟩] (.ok data) := by
  have hload : Exec (load trace).run [⟨.post (query trace), response⟩] (.ok response) :=
    Exec.lift_iff.mpr ⟨response, Exec.perform_iff.mpr rfl, rfl⟩
  have hproceed : Exec (proceed events trace n response).run [] (.ok data) := by
    rw [proceed_of_not_wait (not_wait_of_shows h)]
    exact Exec.ret_iff.mpr ⟨rfl, ((examine_eq_ok_iff hids).mpr h).symm⟩
  exact Exec.attempt_bind_iff.mpr (.inr ⟨_, response, [], (List.append_nil _).symm, hload, hproceed⟩)

/-- A response with data that is fair shows the events. -/
theorem exists_shows {items : List Json} (h : Fair events
    ⟨.post (query trace), .response 200 (some (.obj [("data", .arr items)]))⟩) :
    ∃ data, Shows events (.response 200 (some (.obj [("data", .arr items)]))) data := by
  cases h with
  | waiting _ hwaiting =>
    obtain ⟨fs, hjson, herror⟩ := hwaiting
    obtain rfl := Json.obj.inj (Except.ok.inj hjson)
    cases herror
  | @shown _ _ data hshows => exact ⟨data, hshows⟩
  | failed _ _ hstatus => exact absurd ⟨by decide, by decide⟩ hstatus

end verify

/-! ## What Cube shows -/

section rows

variable {render : Rendering} {events : List PublishedEvent} {event : PublishedEvent}
  {trace : String} {table rows : List Row} {row : Row} {response : CubeResponse}

theorem readQuery_query (trace : String) :
    readQuery (query trace) = some (traceQuery (names.map member) [] trace) := rfl

/-- The dimensions that the verification asks for. -/
def shown : List (String × (Row → Value)) :=
  [(member "eventId", fun row => .text row.eventId), (member "parentId", fun row => .text row.parentId),
    (member "kind", fun row => .text row.kind), (member "status", fun row => .text row.status),
    (member "tool", payloadText "tool"), (member "artifactUri", payloadText "artifactUri")]

/-- The query of the verification is one of the data model. -/
theorem select_query (trace : String) : ∃ s,
    agentExecutions.select (traceQuery (names.map member) [] trace) = some s ∧ s.limit = 100 ∧
      s.filters = [fun row => decide (Value.text row.traceId ∈ [trace].map Value.text)] ∧
      s.measures = [] ∧ s.dimensions = shown :=
  ⟨_, rfl, rfl, rfl, rfl, rfl⟩

/-- The line of a row is what the verification expects for its event. -/
theorem lineOf_of_records (h : Records (Mcp.executionOf event) row) {s : Select Row}
    (hmeasures : s.measures = []) (hdimensions : s.dimensions = shown) :
    s.lineOf row = names.map fun name => (member name, Value.text (event.get name)) := by
  have htext : ∀ name, (name, FieldType.text) ∈ fieldTypes →
      textOf ((event.lookup name).bind (Mcp.scalarOf name)) = event.get name :=
    fun name hname => Mcp.textOf_lookup hname
  have hcolumns := h.columns
  have hpayload : row.payload = (Mcp.executionOf event).utc.members :=
    congrArg Columns.payload hcolumns
  have hid : row.eventId = event.get "eventId" :=
    (congrArg Columns.eventId hcolumns).trans (htext "eventId" (by decide))
  have hparent : row.parentId = event.get "parentId" :=
    (congrArg Columns.parentId hcolumns).trans (htext "parentId" (by decide))
  have hkind : row.kind = event.get "kind" :=
    (congrArg Columns.kind hcolumns).trans (htext "kind" (by decide))
  have hstatus : row.status = event.get "status" :=
    (congrArg Columns.status hcolumns).trans (htext "status" (by decide))
  have htool : payloadText "tool" row = .text (event.get "tool") := by
    rw [payloadText, hpayload, ← htext "tool" (by decide)]
    rfl
  have huri : payloadText "artifactUri" row = .text (event.get "artifactUri") := by
    rw [payloadText, hpayload, ← htext "artifactUri" (by decide)]
    rfl
  simp [Select.lineOf, Select.key, hmeasures, hdimensions, shown, names, hid, hparent, hkind,
    hstatus, htool, huri]

theorem agrees_of_writes (h : Records (Mcp.executionOf event) row) {s : Select Row}
    (hmeasures : s.measures = []) (hdimensions : s.dimensions = shown) {item : Json}
    (hwrites : render.Writes (s.lineOf row) item) : Agrees event item := by
  obtain ⟨fs, rfl, hvalues⟩ := hwrites
  refine ⟨fs, rfl, fun name hname => ?_⟩
  rw [lineOf_of_records h hmeasures hdimensions] at hvalues
  exact hvalues _ (List.mem_map_of_mem hname)

/-- The rows of the events and of no others are what the verification looks for. -/
theorem fair_of_loads (hunique : Table.Unique Row.primaryKey table)
    (hrows : (table.filter fun row => row.traceId = trace).Perm rows)
    (hrecords : List.Forall₂ (fun event row => Records (Mcp.executionOf event) row) events rows)
    (hlength : events.length ≤ 100) (h : Loads render table (query trace) response) :
    Fair events ⟨.post (query trace), response⟩ := by
  cases h with
  | waiting herror => exact .waiting _ ⟨_, rfl, herror⟩
  | failed content hstatus => exact .failed _ content hstatus
  | raised => exact .raised _
  | @data q s lines fs items hquery hselect hlines hitems herror hdata =>
    rw [readQuery_query] at hquery
    obtain rfl := Option.some.inj hquery
    obtain ⟨s', hselect', hlimit, hfilters, hmeasures, hdimensions⟩ := select_query trace
    obtain rfl : s = s' := Option.some.inj (hselect.symm.trans hselect')
    have hselected : (s.rows table).Perm rows := by
      rw [rows_of_filters table hfilters]
      exact hrows
    have hlines : lines.Perm ((s.rows table).map s.lineOf) := by
      apply Select.perm_of_answers _ _ _ _ hlines
      · rw [hdimensions]
        exact List.cons_ne_nil _ _
      -- the id is among the dimensions, and it is the primary key
      · intro row hrow row' hrow' hkey
        have hid : row.eventId = row'.eventId := by
          simp only [Select.key, hdimensions, shown, List.map_cons, List.cons.injEq,
            Value.text.injEq] at hkey
          exact hkey.1
        exact hunique.eq_of_key (List.mem_of_mem_filter hrow) (List.mem_of_mem_filter hrow') hid
      · exact hunique.of_map.filter _
      · rw [hselected.length_eq, ← hrecords.length_eq, hlimit]
        exact hlength
    -- the items in the order of the events
    obtain ⟨shownItems, hwrites, hperm⟩ :=
      List.perm_comp_forall₂ (hlines.trans (hselected.map s.lineOf)).symm hitems
    refine .shown _ ⟨fs, rfl, herror, hdata, items, rfl, shownItems, hperm, ?_⟩
    rw [List.forall₂_map_left_iff] at hwrites
    exact forall₂_comp hrecords hwrites fun _ _ _ hrecord hwrite =>
      agrees_of_writes hrecord hmeasures hdimensions hwrite

/-- An object has what a line gives for each of its names. -/
theorem exists_writes (render : Rendering) {line : Line} (h : (line.map Prod.fst).Nodup) :
    ∃ item, render.Writes line item := by
  refine ⟨_, line.map fun value => (value.1, render.json value.2), rfl, ?_⟩
  intro value hvalue
  induction line with
  | nil => cases hvalue
  | cons first line ih =>
    obtain ⟨hnot, hnodup⟩ := List.nodup_cons.mp h
    rcases List.mem_cons.mp hvalue with rfl | hvalue
    · exact if_pos rfl
    · have hne : first.1 ≠ value.1 := fun heq => hnot (heq ▸ List.mem_map_of_mem hvalue)
      rw [List.map_cons, Json.lookup_cons, if_neg hne]
      exact ih hnodup hvalue

/-- Cube may answer the query of the verification with data. -/
theorem exists_loads (render : Rendering) (table : List Row) (trace : String) : ∃ items,
    Loads render table (query trace) (.response 200 (some (.obj [("data", .arr items)]))) := by
  obtain ⟨s, hselect, -, -, hmeasures, hdimensions⟩ := select_query trace
  have hwrites : ∀ line ∈ ((s.keys table).take s.limit).map (s.line table),
      ∃ item, render.Writes line item := by
    intro line hline
    obtain ⟨key, hkey, rfl⟩ := List.mem_map.mp hline
    have hlength : (shown.map Prod.fst).length ≤ key.length := by
      have hkeys : key ∈ s.keys table := List.mem_of_mem_take hkey
      rw [Select.keys, hdimensions] at hkeys
      obtain ⟨row, -, rfl⟩ := List.mem_map.mp (List.mem_dedup.mp hkeys)
      rw [Select.key, hdimensions]
      exact le_rfl
    have hnames : (s.line table key).map Prod.fst = shown.map Prod.fst := by
      rw [Select.line, hmeasures, hdimensions, List.map_nil, List.append_nil, List.map_fst_zip hlength]
    exact exists_writes render (hnames ▸ by decide)
  obtain ⟨items, hitems⟩ := exists_forall₂ hwrites
  exact ⟨items, .data (readQuery_query trace) hselect ⟨_, .refl _, rfl⟩ hitems rfl rfl⟩

end rows

/-! ## One table for both -/

/-- The database before and after an exchange of `publish_and_verify`, the posts of which
    are read at times of `P`.  A query is answered from the table as it is at some moment
    before the response. -/
def VerifiesAt (P : Time → Prop) (lib : Library) (a : ExecutionAPI) (render : Rendering)
    (db : Database) (e : Event (Sum.elim ProducerAnswer CubeAnswer)) (db' : Database) : Prop :=
  match e with
  | ⟨.inl call, answer⟩ => DeliversAt P lib a a.token db ⟨call, answer⟩ db'
  | ⟨.inr (.post body), response⟩ =>
    ∃ db₁, Later db db₁ ∧ Loads render db₁.table body response ∧ Later db₁ db'
  | ⟨.inr .sleep, _⟩ => Later db db'

section run

variable {P : Time → Prop} {lib : Library} {a : ExecutionAPI} {render : Rendering}
  {events : List PublishedEvent} {trace : String} {start : List Row} {db db' : Database}

/-- The table has each event once, and with its row for the trace no others. -/
structure Complete (events : List PublishedEvent) (start : List Row) (db : Database) : Prop where
  holds : Holds (events.map Mcp.executionOf) start db
  stored : ∀ event ∈ events, StoredOnce (Mcp.executionOf event) db

theorem Complete.later (h : Complete events start db) (hlater : Later db db') :
    Complete events start db' := by
  have hgrows := grows_later h.holds hlater
  exact ⟨hgrows.1, fun event hevent => storedOnce_grows (h.stored event hevent) hgrows⟩

theorem fair_of_complete (h : Complete events start db)
    (htraced : Traced trace (events.map Mcp.executionOf) start) (hlength : events.length ≤ 100)
    {response : CubeResponse} (hloads : Loads render db.table (query trace) response) :
    Fair events ⟨.post (query trace), response⟩ := by
  obtain ⟨rows, hrecords, hrows⟩ := exists_traced h.holds htraced fun e he => by
    obtain ⟨event, hevent, rfl⟩ := List.mem_map.mp he
    exact h.stored event hevent
  rw [List.forall₂_map_left_iff] at hrecords
  exact fair_of_loads h.holds.unique hrows hrecords hlength hloads

/-- All that Cube is asked is the query for the trace. -/
theorem only_verify (events : List PublishedEvent) (trace : String) (n : ℕ) :
    Only (fun e => ∀ body, e.1 = .post body → body = query trace) (verify events trace n).run := by
  induction n with
  | zero => trivial
  | succ n ih =>
    intro response
    refine ⟨fun body hpost => (CubeCall.post.inj hpost).symm, ?_⟩
    change Only _ (proceed events trace n response).run
    by_cases hwait : ContinueWait response
    · rw [proceed_of_wait hwait]
      intro u
      exact ⟨by simp, ih⟩
    · rw [proceed_of_not_wait hwait]
      trivial

/-- While Cube is asked, it is asked about the whole trace. -/
theorem fair_of_replay {tr : List (Event CubeAnswer)} (h : Complete events start db)
    (htraced : Traced trace (events.map Mcp.executionOf) start) (hlength : events.length ≤ 100)
    (hqueries : ∀ e ∈ tr, ∀ body, e.1 = .post body → body = query trace)
    (hreplay : Replay (fun db e db' => VerifiesAt P lib a render db (Program.inRight e) db') db tr db') :
    (∀ e ∈ tr, Fair events e) ∧ Complete events start db' := by
  induction hreplay with
  | nil db => exact ⟨by simp, h⟩
  | @cons db db₁ db₂ e tr hverifies _ ih =>
    obtain ⟨hquery, hrest⟩ := List.forall_mem_cons.mp hqueries
    obtain ⟨call, answer⟩ := e
    cases call with
    | sleep =>
      obtain ⟨hfair, hcomplete⟩ := ih (h.later hverifies) hrest
      exact ⟨List.forall_mem_cons.mpr ⟨.slept, hfair⟩, hcomplete⟩
    | post body =>
      obtain rfl := hquery body rfl
      obtain ⟨db₃, hlater, hloads, hlater'⟩ := hverifies
      have hthen := h.later hlater
      obtain ⟨hfair, hcomplete⟩ := ih (hthen.later hlater') hrest
      exact ⟨List.forall_mem_cons.mpr ⟨fair_of_complete hthen htraced hlength hloads, hfair⟩,
        hcomplete⟩

end run

/-! ## The spans of an execution -/

section spans

variable {asUri : String → String} {args : Mcp.Args} {tr : List Mcp.Exchange} {r : Mcp.Executed}
  {round : RoundFloat} {sha256 : String → BitVec 256} {a : ExecutionAPI} {render : Rendering}
  {db db' : Database} {encode : PublishedEvent → String}

theorem traced_of_ready (h : ReadyToPublish asUri args tr r encode a db)
    (hother : ∀ row ∈ db.table, row.traceId ≠ r.trace) :
    Traced r.trace (r.events.map Mcp.executionOf) db.table := by
  have hwelcome := welcome_of_exec h.exec h.clock h.uri h.filled h.token h.fresh
  obtain ⟨start, stop, course, hreports⟩ := Mcp.reports_of_exec h.exec
  refine ⟨?_, ?_, hwelcome.fresh, hother⟩
  · intro e he
    obtain ⟨event, hevent, rfl⟩ := List.mem_map.mp he
    obtain ⟨kind, status, fields, started, stopped, -, -, hexecution, -⟩ :=
      Mcp.span_of_reports hreports h.clock hevent
    rw [hexecution]
    rfl
  · have hids : (r.events.map Mcp.executionOf).map Execution.eventId =
        r.events.map fun event => event.get "eventId" := by
      rw [List.map_map]
      exact List.map_congr_left fun event _ => Mcp.textOf_lookup (by decide)
    rw [hids]
    exact (Mcp.distinctIds_of_reports hreports).distinct

theorem length_le_of_exec (h : Exec (Mcp.execute asUri args).run tr (.ok r)) :
    r.events.length ≤ 3 := by
  obtain ⟨start, stop, course, hreports⟩ := Mcp.reports_of_exec h
  rw [hreports.events]
  cases course <;> simp [Mcp.Course.spans]

/-- The spans of an execution are published and verified against the same table.  The
    verification never finds them missing, repeated or changed: it ends with the publish
    loop because the service remained unavailable; or all spans are stored, and it returns
    what Cube shows as soon as Cube shows anything. -/
theorem trace_verified (hready : ReadyToPublish asUri args tr r encode a db)
    (hother : ∀ row ∈ db.table, row.traceId ≠ r.trace)
    {joint : List (Event (Sum.elim ProducerAnswer CubeAnswer))} {result : Except VerificationError Json}
    (hverify : Exec (publishAndVerify encode r.events r.trace).run joint result)
    (hreplay : Replay (VerifiesAt (Near a.retention (Mcp.readings tr)) (goLibrary round sha256) a render)
      db joint db') :
    (∃ error, result = .error (.publishing error) ∧ Unavailable error) ∨
      ∃ (posted : List ProducerExchange) (queried : List (Event CubeAnswer)),
        joint = posted.map Program.inLeft ++ queried.map Program.inRight ∧
        Verdict r.events r.trace 20 queried result ∧
        ∀ event ∈ r.events, StoredOnce (Mcp.executionOf event) db' := by
  obtain ⟨start, stop, course, hreports⟩ := Mcp.reports_of_exec hready.exec
  unfold publishAndVerify at hverify
  rw [ExceptT.run_mk] at hverify
  obtain ⟨tr₁, published, tr₂, rfl, hleft, hrest⟩ := Exec.bind_iff.mp hverify
  obtain ⟨posted, rfl, hpublish⟩ := Program.exec_left_iff.mp hleft
  -- the posts change the table up to `db₁`, and only then is Cube asked
  obtain ⟨db₁, hposted, hqueried⟩ := Replay.append_iff.mp hreplay
  have hdelivers := (Replay.map_iff Program.inLeft).mp hposted
  obtain ⟨hfailed, hpublished⟩ := recorded_of_publish hready hpublish (hdelivers.map id fun _ _ _ h => h)
  cases published with
  | error error =>
    obtain ⟨rfl, rfl⟩ := Exec.ret_iff.mp hrest
    exact .inl ⟨error, rfl, hfailed error rfl⟩
  | ok u =>
    obtain ⟨queried, rfl, hexec⟩ := Program.exec_right_iff.mp hrest
    obtain ⟨hholds, hstored⟩ := hpublished rfl
    have hlength : r.events.length ≤ 100 := (length_le_of_exec hready.exec).trans (by decide)
    obtain ⟨hfair, hcomplete⟩ := fair_of_replay ⟨hholds, hstored⟩ (traced_of_ready hready hother)
      hlength ((only_verify _ _ _).of_exec hexec) ((Replay.map_iff Program.inRight).mp hqueried)
    exact .inr ⟨posted, queried, rfl,
      verdict_of_exec (Mcp.distinctIds_of_reports hreports) hexec hfair, hcomplete.stored⟩

/-- The spans of `weather` are published, and Cube shows them at once. -/
theorem trace_verified_weather : ∃ (r : Mcp.Executed)
    (joint : List (Event (Sum.elim ProducerAnswer CubeAnswer))) (data : Json) (db' : Database),
    r.events = Mcp.weatherSpans ∧
    Exec (publishAndVerify Mcp.dumps r.events r.trace).run joint (.ok data) ∧
    (∃ queried, Verdict r.events r.trace 20 queried (.ok data)) ∧
    ∀ event ∈ r.events, StoredOnce (Mcp.executionOf event) db' := by
  obtain ⟨r, posted, db', hevents, hready, hpublish, hreplay⟩ := exists_published_weather
  have hother : ∀ row ∈ ({} : Database).table, row.traceId ≠ r.trace := by simp
  obtain ⟨start, stop, course, hreports⟩ := Mcp.reports_of_exec hready.exec
  obtain ⟨hholds, hstored⟩ := (recorded_of_publish hready hpublish hreplay).2 rfl
  let render : Rendering := ⟨Json.num, fun n => .num n⟩
  obtain ⟨items, hloads⟩ := exists_loads render db'.table r.trace
  have hlength : r.events.length ≤ 100 := (length_le_of_exec hready.exec).trans (by decide)
  obtain ⟨data, hshows⟩ := exists_shows
    (fair_of_complete ⟨hholds, hstored⟩ (traced_of_ready hready hother) hlength hloads)
  -- one query, which Cube answers from what has been stored
  let asked : Event CubeAnswer :=
    ⟨.post (query r.trace), .response 200 (some (.obj [("data", .arr items)]))⟩
  have hverify : Exec (verify r.events r.trace 20).run [asked] (.ok data) :=
    exec_verify_of_shows (Mcp.distinctIds_of_reports hreports) hshows
  have hjoint : Exec (publishAndVerify Mcp.dumps r.events r.trace).run
      (posted.map Program.inLeft ++ [asked].map Program.inRight) (.ok data) :=
    Exec.bind_iff.mpr ⟨_, .ok (), _, rfl, Program.exec_left_iff.mpr ⟨posted, rfl, hpublish⟩,
      Program.exec_right_iff.mpr ⟨[asked], rfl, hverify⟩⟩
  let serves := VerifiesAt (Near weekAPI.retention (Mcp.readings Mcp.weather.2.1))
    (goLibrary some fun _ => 0) weekAPI render
  have hquery : serves db' (Program.inRight asked) db' := ⟨db', .refl, hloads, .refl⟩
  have hboth : Replay serves {} (posted.map Program.inLeft ++ [asked].map Program.inRight) db' :=
    Replay.append_iff.mpr
      ⟨db', (Replay.map_iff Program.inLeft).mpr hreplay, .cons hquery (.nil db')⟩
  obtain ⟨error, herror, -⟩ | ⟨posted', queried, -, hverdict, hend⟩ :=
    trace_verified hready hother hjoint hboth
  · cases herror
  · exact ⟨r, _, data, db', hevents, hjoint, ⟨queried, hverdict⟩, hend⟩

end spans

end CubeOperator.Telemetry.Verification
