import CubeOperator.Telemetry.Delivery
import CubeOperator.Telemetry.Ingestion

/-! # The way of the spans

    The spans of an execution are published to the service while its clock is near the
    times of the execution.  None of them is refused: the publish loop ends well, or because
    the service remained unavailable, and what it ended well on is stored. -/

namespace CubeOperator.Telemetry

open Interaction

/-! ## Posts near the times of an execution -/

/-- A post whose request reads only times of `P`. -/
def PostsAt (P : Time → Prop) (lib : Library) (a : ExecutionAPI) (token body : String)
    (db : Database) (p : Posted) (db' : Database) : Prop :=
  ∃ tr rest response, Exec (serveHTTP lib a (ingest token body)) (tr ++ rest) response ∧
    Replay Serves db tr db' ∧ (∀ now, ⟨.now, now⟩ ∈ tr → P now) ∧
    ∀ status, p = .response status → rest = [] ∧ response.status = status

/-- The database before and after an exchange of the producer, at times of `P`. -/
def DeliversAt (P : Time → Prop) (lib : Library) (a : ExecutionAPI) (token : String)
    (db : Database) (e : ProducerExchange) (db' : Database) : Prop :=
  match e with
  | ⟨.post body, p⟩ => ∃ db₁, Later db db₁ ∧ PostsAt P lib a token body db₁ p db'
  | ⟨.sleep, _⟩ => Later db db'

/-- The times at which everything that ended at one of `times` is accepted. -/
def Near (retention : ℤ) (times : List ℤ) (now : Time) : Prop :=
  ∀ micros ∈ times, now.unixNano - retention ≤ micros * 1000 ∧
    micros * 1000 ≤ now.unixNano + 5 * 60 * 10 ^ 9

/-- An answer of a service that refuses nothing. -/
inductive Unrefused : ProducerExchange → Prop where
  | stored (body : String) : Unrefused ⟨.post body, .response 204⟩
  | unavailable (body : String) : Unrefused ⟨.post body, .response 503⟩
  | transportError (body : String) : Unrefused ⟨.post body, .transportError⟩
  | raised (body : String) : Unrefused ⟨.post body, .raised⟩
  | slept : Unrefused ⟨.sleep, ()⟩

/-- How the publish loop ends with a service that is not there. -/
inductive Unavailable : PublishError → Prop where
  | transportError : Unavailable .transportError
  | raised : Unavailable .raised
  | attempts : Unavailable (.runtimeError "Ingestion remained unavailable after five attempts")

section posts

variable {P : Time → Prop} {lib : Library} {a : ExecutionAPI} {token body : String}
  {events : List Execution} {event : Execution} {start : List Row} {payload : Payload}
  {db db' : Database} {p : Posted}

theorem PostsAt.posts (h : PostsAt P lib a token body db p db') : Posts lib a token body db p db' := by
  obtain ⟨tr, rest, response, hexec, hreplay, -, hresponse⟩ := h
  exact ⟨tr, rest, response, hexec, hreplay, hresponse⟩

theorem DeliversAt.delivers {e : ProducerExchange} (h : DeliversAt P lib a token db e db') :
    Delivers lib a token db e db' := by
  obtain ⟨call, answer⟩ := e
  cases call with
  | post body =>
    obtain ⟨db₁, hlater, hposts⟩ := h
    exact ⟨db₁, hlater, hposts.posts⟩
  | sleep => exact h

/-- A request with an event that is accepted whenever it is read runs to its insert. -/
theorem insert_of_exec {tr : List Exchange} {response : Response} (htoken : a.token ≠ "")
    (hdecode : lib.decode body = .single event) (hmarshal : event.utc.marshal = some payload)
    (hvalid : ∀ order now, P now → event.validate order now a.retention = none)
    (hexec : Exec (serveHTTP lib a (ingest a.token body)) tr response)
    (htimes : ∀ now, ⟨.now, now⟩ ∈ tr → P now) : ∃ now order result,
      tr = [⟨.now, now⟩, ⟨.fieldOrder, order⟩,
        ⟨.query (.insert (event.utc.columns payload)), result⟩] ∧ response = respond result := by
  have hauthenticated : Authenticated lib a (ingest a.token body) := ⟨rfl, rfl, htoken, rfl⟩
  rw [serveHTTP_of_authenticated hauthenticated hdecode] at hexec
  unfold record at hexec
  simp only [Program.perform_bind, Exec.call_iff] at hexec
  obtain ⟨now, _, rfl, order, _, rfl, hexec⟩ := hexec
  simp only [hvalid order now (htimes now (by simp)), hmarshal] at hexec
  obtain ⟨result, rfl, rfl⟩ := exec_persist_iff.mp hexec
  exact ⟨now, order, result, rfl, rfl⟩

/-- What is stored under the id of an event is the event. -/
theorem inserted_of_holds (h : Holds events start db) (hevent : event ∈ events)
    (hmarshal : event.utc.marshal = some payload)
    (hfresh : ∀ row ∈ start, row.eventId ≠ event.eventId)
    (hdistinct : ∀ other ∈ events, other.eventId = event.eventId → other = event) {result : Bool}
    (hserves : Serves db ⟨.query (.insert (event.utc.columns payload)), some result⟩ db') :
    result = true := by
  obtain ⟨now, hexecute, hpending⟩ := hserves
  obtain ⟨row, hrow, hid, hmatches⟩ := exists_stored_of_insert now (event.utc.columns payload) db.table
  have hsent : SentBy events (event.utc.columns payload) := ⟨event, hevent, hmarshal, rfl⟩
  have hholds := (holds_execute now h hsent fun s hs => hs).1
  rw [hexecute] at hrow hmatches
  rcases hholds.sent row (by rwa [hexecute]) with hstart | ⟨c, ⟨other, hother, hother', hc⟩, hcolumns⟩
  · exact absurd hid (hfresh row hstart)
  · have hother_id : other.eventId = event.eventId := by
      have hrow_id : row.eventId = c.encode.eventId := congrArg Columns.eventId hcolumns
      have hc_id : c.eventId = other.eventId := congrArg Columns.eventId hc
      exact (hrow_id.trans hc_id).symm.trans hid
    obtain rfl := hdistinct other hother hother_id
    obtain rfl : payload = c.payload := Option.some.inj (hmarshal.symm.trans hother')
    have hpayload : row.payload = c.encode.payload := congrArg Columns.payload hcolumns
    exact hmatches.mpr hpayload

/-- A post of an event that is accepted is answered 204 or 503, if at all. -/
theorem unrefused_of_posts (h : Holds events start db) (htoken : a.token ≠ "")
    (hdecode : lib.decode body = .single event) (hevent : event ∈ events)
    (hmarshal : event.utc.marshal = some payload)
    (hvalid : ∀ order now, P now → event.validate order now a.retention = none)
    (hfresh : ∀ row ∈ start, row.eventId ≠ event.eventId)
    (hdistinct : ∀ other ∈ events, other.eventId = event.eventId → other = event)
    (hposts : PostsAt P lib a a.token body db p db') : Unrefused ⟨.post body, p⟩ := by
  cases p with
  | transportError => exact .transportError body
  | raised => exact .raised body
  | response status =>
    obtain ⟨tr, rest, response, hexec, hreplay, htimes, hresponse⟩ := hposts
    obtain ⟨rfl, hstatus⟩ := hresponse status rfl
    rw [List.append_nil] at hexec
    obtain ⟨now, order, result, rfl, rfl⟩ :=
      insert_of_exec htoken hdecode hmarshal hvalid hexec htimes
    rw [← hstatus]
    cases result with
    | none => exact .unavailable body
    | some matched =>
      obtain ⟨db₁, hnow, hreplay⟩ := Replay.cons_iff.mp hreplay
      obtain ⟨db₂, horder, hreplay⟩ := Replay.cons_iff.mp hreplay
      obtain ⟨db₃, hserves, -⟩ := Replay.cons_iff.mp hreplay
      obtain rfl : db₁ = db := hnow
      obtain rfl : db₂ = db₁ := horder
      obtain rfl := inserted_of_holds h hevent hmarshal hfresh hdistinct hserves
      exact .stored body

end posts

/-! ## The loop with a service that refuses nothing -/

/-- What a part of the loop raises, when nothing is refused. -/
abbrev Endures {α : Type} (x : Producing α) : Prop :=
  Ensures (fun (_ : Unit) e _ => Unrefused e) (fun _ _ _ => True)
    (fun r _ => ∀ error, r = .error error → Unavailable error) x.run ()

theorem endures_pure {α : Type} (x : α) : Endures (pure x : Producing α) := by
  rintro error herror
  cases herror

theorem endures_failIf {b : Bool} {error : PublishError} (h : Unavailable error) :
    Endures (.failIf b error) := by
  cases b with
  | false => exact endures_pure ()
  | true =>
    rintro _ herror
    cases herror
    exact h

theorem endures_bind {α β : Type} {x : Producing α} {f : α → Producing β} (hx : Endures x)
    (hf : ∀ a, Endures (f a)) : Endures (x >>= f) := by
  refine Ensures.seqAttempt hx (fun error _ h error' herror => ?_) fun a _ _ => hf a
  cases herror
  exact h error rfl

theorem endures_tryPost (body : String) (attempt : ℕ) : Endures (tryPost body attempt) := by
  rintro p _ hp
  refine ⟨trivial, ?_⟩
  cases hp with
  | stored => exact endures_pure true
  | unavailable => exact endures_pure false
  | transportError => exact endures_bind (endures_failIf .transportError) fun _ => endures_pure false
  | raised =>
    rintro _ herror
    cases herror
    exact .raised

theorem endures_publishEvent (body : String) (attempts : List ℕ) :
    Endures (publishEvent body attempts) := by
  induction attempts with
  | nil => exact endures_pure ()
  | cons attempt attempts ih =>
    refine endures_bind (endures_tryPost body attempt) fun acknowledged => ?_
    cases acknowledged with
    | true => exact endures_pure ()
    | false =>
      refine endures_bind (endures_failIf .attempts) fun _ => endures_bind ?_ fun _ => ih
      rintro ⟨⟩ _ -
      exact ⟨trivial, endures_pure ()⟩

theorem endures_publish (bodies : List String) : Endures (publish bodies) := by
  induction bodies with
  | nil => exact endures_pure ()
  | cons body bodies ih => exact endures_bind (endures_publishEvent body _) fun _ => ih

theorem unavailable_of_publish {bodies : List String} {tr : List ProducerExchange}
    {error : PublishError} (hexec : Exec (publish bodies).run tr (.error error))
    (hunrefused : ∀ e ∈ tr, Unrefused e) : Unavailable error :=
  (endures_publish bodies).sound hexec (Replay.of_forall hunrefused) error rfl

/-- The loop posts its bodies and nothing else. -/
theorem only_publish (bodies : List String) :
    Only (fun e => ∀ body, e.1 = .post body → body ∈ bodies) (publish bodies).run := by
  have htry : ∀ body ∈ bodies, ∀ attempt,
      Only (fun e => ∀ body, e.1 = .post body → body ∈ bodies) (tryPost body attempt).run := by
    rintro body hbody attempt p
    refine ⟨fun _ heq => ProducerCall.post.inj heq ▸ hbody, ?_⟩
    cases p with
    | response status =>
      change Only _ (if status ≠ 503 then _ else _ : Producing Bool).run
      split
      · exact (Only.failIf _ _).attemptBind fun _ => (Only.failIf _ _).attemptBind fun _ => trivial
      · trivial
    | transportError => exact (Only.failIf _ _).attemptBind fun _ => trivial
    | raised => trivial
  have hevent : ∀ body ∈ bodies, ∀ attempts,
      Only (fun e => ∀ body, e.1 = .post body → body ∈ bodies) (publishEvent body attempts).run := by
    intro body hbody attempts
    induction attempts with
    | nil => trivial
    | cons attempt attempts ih =>
      refine (htry body hbody attempt).attemptBind fun acknowledged => ?_
      cases acknowledged with
      | true => trivial
      | false =>
        refine (Only.failIf _ _).attemptBind fun _ => Only.attemptBind ?_ fun _ => ih
        exact fun _ => ⟨by simp, trivial⟩
  exact Only.forEach fun body hbody => hevent body hbody _

/-! ## The run -/

section run

variable {P : Time → Prop} {lib : Library} {a : ExecutionAPI} {events : List Execution}
  {start : List Row} {db db' : Database}

/-- The events are accepted at times of `P`, and their ids are free. -/
structure Welcome (P : Time → Prop) (a : ExecutionAPI) (events : List Execution)
    (start : List Row) : Prop where
  token : a.token ≠ ""
  marshals : ∀ event ∈ events, (event.utc.marshal).isSome
  valid : ∀ event ∈ events, ∀ order now, P now → event.validate order now a.retention = none
  fresh : ∀ event ∈ events, ∀ row ∈ start, row.eventId ≠ event.eventId
  distinct : ∀ event ∈ events, ∀ other ∈ events, other.eventId = event.eventId → other = event

theorem unrefused_of_replay (hwelcome : Welcome P a events start) {tr : List ProducerExchange}
    (hbody : ∀ e ∈ tr, ∀ body, e.1 = .post body → ∃ event ∈ events, lib.decode body = .single event)
    (hreplay : Replay (DeliversAt P lib a a.token) db tr db') (h : Holds events start db) :
    ∀ e ∈ tr, Unrefused e := by
  induction hreplay with
  | nil db => simp
  | @cons db db₁ db₂ e tr hdelivers _ ih =>
    obtain ⟨hfirst, hrest⟩ := List.forall_mem_cons.mp hbody
    have hholds := (grows_delivers h hfirst hdelivers.delivers).1
    refine List.forall_mem_cons.mpr ⟨?_, ih hrest hholds⟩
    obtain ⟨call, answer⟩ := e
    cases call with
    | sleep => exact .slept
    | post body =>
      obtain ⟨event, hevent, hdecode⟩ := hfirst body rfl
      obtain ⟨payload, hmarshal⟩ := Option.isSome_iff_exists.mp (hwelcome.marshals event hevent)
      obtain ⟨db₃, hlater, hposts⟩ := hdelivers
      exact unrefused_of_posts (grows_later h hlater).1 hwelcome.token hdecode hevent hmarshal
        (hwelcome.valid event hevent) (hwelcome.fresh event hevent) (hwelcome.distinct event hevent)
        hposts

/-- A service that is there takes the events one after the other. -/
theorem exists_published (hwelcome : Welcome P a events start) {now : Time} (hnow : P now)
    {text : Execution → String} (htext : ∀ event ∈ events, lib.decode (text event) = .single event)
    {left : List Execution} (hleft : ∀ event ∈ left, event ∈ events) (h : Holds events start db) :
    ∃ posted db', Exec (publish (left.map text)).run posted (.ok ()) ∧
      Replay (DeliversAt P lib a a.token) db posted db' := by
  induction left generalizing db with
  | nil => exact ⟨[], db, .ret _, .nil db⟩
  | cons event left ih =>
    obtain ⟨hevent, hleft⟩ := List.forall_mem_cons.mp hleft
    obtain ⟨payload, hmarshal⟩ := Option.isSome_iff_exists.mp (hwelcome.marshals event hevent)
    let order : FieldOrder := ⟨Required.all, .refl _⟩
    obtain ⟨table, matched, hexecute⟩ : ∃ table matched,
        execute 0 (.insert (event.utc.columns payload)) db.table = (table, matched) := ⟨_, _, rfl⟩
    -- the database is healthy: the row goes in, and the answer comes back
    let db₁ : Database := { db with table := table }
    have hserves : Serves db ⟨.query (.insert (event.utc.columns payload)), some matched⟩ db₁ :=
      ⟨0, hexecute, rfl⟩
    obtain rfl := inserted_of_holds h hevent hmarshal (hwelcome.fresh event hevent)
      (hwelcome.distinct event hevent) hserves
    have hauthenticated : Authenticated lib a (ingest a.token (text event)) :=
      ⟨rfl, rfl, hwelcome.token, rfl⟩
    have hserve := exec_of_accepted hauthenticated (htext event hevent)
      (hwelcome.valid event hevent order now hnow) hmarshal (some true)
    have hposts : PostsAt P lib a a.token (text event) db (.response 204) db₁ := by
      refine ⟨[⟨.now, now⟩, ⟨.fieldOrder, order⟩,
        ⟨.query (.insert (event.utc.columns payload)), some true⟩], [], respond (some true), hserve,
        replay_of_execute db now order hexecute, ?_, ?_⟩
      · simpa using hnow
      · simp [respond]
    have hdelivers : DeliversAt P lib a a.token db ⟨.post (text event), .response 204⟩ db₁ :=
      ⟨db, .refl, hposts⟩
    have hbody : ∀ body, ProducerCall.post (text event) = .post body →
        ∃ event ∈ events, lib.decode body = .single event :=
      fun _ heq => ⟨event, hevent, ProducerCall.post.inj heq ▸ htext event hevent⟩
    obtain ⟨posted, db', hexec, hreplay⟩ := ih hleft (grows_delivers h hbody hdelivers.delivers).1
    have hfirst : Exec (publishEvent (text event) (List.range 5)).run
        [⟨.post (text event), .response 204⟩] (.ok ()) := .call _ (.ret _)
    exact ⟨_ :: posted, db', Exec.forEach_ok_iff.mpr ⟨[_], posted, rfl, hfirst, hexec⟩,
      .cons hdelivers hreplay⟩

end run

/-! ## The spans of an execution -/

open Verification

section spans

variable {asUri : String → String} {args : Mcp.Args} {tr : List Mcp.Exchange} {r : Mcp.Executed}
  {round : RoundFloat} {sha256 : String → BitVec 256} {a : ExecutionAPI} {db db' : Database}
  {encode : PublishedEvent → String}

/-- The ids of the spans are not in the table. -/
def Fresh (events : List PublishedEvent) (table : List Row) : Prop :=
  ∀ event ∈ events, ∀ row ∈ table, event.lookup "eventId" ≠ some row.eventId

theorem welcome_of_exec (hexec : Exec (Mcp.execute asUri args).run tr (.ok r))
    (hclock : Mcp.Clock tr) (huri : ∀ path, asUri path ≠ "") (hfilled : args.Filled)
    (htoken : a.token ≠ "") {table : List Row} (hfresh : Fresh r.events table) :
    Welcome (Near a.retention (Mcp.readings tr)) a (r.events.map Mcp.executionOf) table := by
  obtain ⟨start, stop, course, hreports⟩ := Mcp.reports_of_exec hexec
  constructor
  case token => exact htoken
  case marshals =>
    intro e he
    obtain ⟨event, hevent, rfl⟩ := List.mem_map.mp he
    obtain ⟨kind, status, fields, started, stopped, -, -, hexecution, hstarted, hstopped, -⟩ :=
      Mcp.span_of_reports hreports hclock hevent
    rw [hexecution, Mcp.marshal_spanExecution hstarted hstopped]
    rfl
  case valid =>
    -- `now` is near the time at which the span ended
    intro e he order now hnear
    obtain ⟨event, hevent, rfl⟩ := List.mem_map.mp he
    obtain ⟨kind, status, fields, started, stopped, hdetails, -, hexecution, hstarted, hstopped,
      horder, hreading⟩ := Mcp.span_of_reports hreports hclock hevent
    obtain ⟨hrecent, hpast⟩ := hnear stopped hreading
    rw [hexecution]
    exact validate_eq_none_iff.mpr ⟨(Mcp.contract_spanExecution hdetails (Mcp.notBlank_trace hreports)
      huri hstarted hstopped horder).mpr hfilled, hrecent, hpast⟩
  case fresh =>
    intro e he row hrow hid
    obtain ⟨event, hevent, rfl⟩ := List.mem_map.mp he
    exact hfresh event hevent row hrow (by rw [hid, Mcp.lookup_of_reports hreports hclock hevent])
  case distinct =>
    intro e he e' he' hid
    obtain ⟨event, hevent, rfl⟩ := List.mem_map.mp he
    obtain ⟨event', hevent', rfl⟩ := List.mem_map.mp he'
    rw [Mcp.eq_of_eventId hreports hclock hevent' hevent hid]

/-- The text of a span, as one of its event. -/
theorem exists_text (hexec : Exec (Mcp.execute asUri args).run tr (.ok r)) (hclock : Mcp.Clock tr)
    (encode : PublishedEvent → String) : ∃ text : Execution → String,
      r.events.map encode = (r.events.map Mcp.executionOf).map text ∧
        ∀ event ∈ r.events, text (Mcp.executionOf event) = encode event := by
  obtain ⟨start, stop, course, hreports⟩ := Mcp.reports_of_exec hexec
  have hinjective : Set.InjOn Mcp.executionOf {event | event ∈ r.events} :=
    fun event hevent event' hevent' heq =>
      Mcp.eq_of_eventId hreports hclock hevent hevent' (congrArg Execution.eventId heq)
  let text : Execution → String :=
    fun e => encode (Function.invFunOn Mcp.executionOf {event | event ∈ r.events} e)
  have htext : ∀ event ∈ r.events, text (Mcp.executionOf event) = encode event :=
    fun event hevent => congrArg encode (hinjective.leftInvOn_invFunOn hevent)
  refine ⟨text, ?_, htext⟩
  rw [List.map_map]
  exact List.map_congr_left fun event hevent => (htext event hevent).symm

/-- An execution has returned, and its spans are ready to be published: the arguments that
    they carry are not blank, `encode` writes each as a JSON text that is not too long, and
    the table has no event with one of their ids. -/
structure ReadyToPublish (asUri : String → String) (args : Mcp.Args) (tr : List Mcp.Exchange)
    (r : Mcp.Executed) (encode : PublishedEvent → String) (a : ExecutionAPI) (db : Database) :
    Prop where
  exec : Exec (Mcp.execute asUri args).run tr (.ok r)
  clock : Mcp.Clock tr
  uri : ∀ path, asUri path ≠ ""
  filled : args.Filled
  encoded : ∀ event ∈ r.events,
    Mcp.Encodes event (encode event) ∧ (encode event).utf8ByteSize ≤ maxBytes
  token : a.token ≠ ""
  unique : Table.Unique Row.primaryKey db.table
  pending : db.pending = []
  fresh : Fresh r.events db.table

/-- What the publish loop has done when it ends. -/
theorem recorded_of_publish (h : ReadyToPublish asUri args tr r encode a db)
    {posted : List ProducerExchange} {result : Except PublishError Unit}
    (hpublish : Exec (publish (r.events.map encode)).run posted result)
    (hreplay : Replay (DeliversAt (Near a.retention (Mcp.readings tr)) (goLibrary round sha256) a a.token)
      db posted db') :
    (∀ error, result = .error error → Unavailable error) ∧
      (result = .ok () → Holds (r.events.map Mcp.executionOf) db.table db' ∧
        ∀ event ∈ r.events, StoredOnce (Mcp.executionOf event) db') := by
  obtain ⟨start, stop, course, hreports⟩ := Mcp.reports_of_exec h.exec
  have hwelcome := welcome_of_exec h.exec h.clock h.uri h.filled h.token h.fresh
  have hdecode : ∀ event ∈ r.events,
      (goLibrary round sha256).decode (encode event) = .single (Mcp.executionOf event) :=
    fun event hevent => Mcp.decode_of_reports hreports h.clock hevent (h.encoded event hevent).1
      (h.encoded event hevent).2
  have hstart : Holds (r.events.map Mcp.executionOf) db.table db :=
    ⟨h.unique, fun _ hrow => hrow, fun _ hrow => .inl hrow, by simp [h.pending]⟩
  constructor
  · rintro error rfl
    refine unavailable_of_publish hpublish (unrefused_of_replay hwelcome ?_ hreplay hstart)
    intro e he body hpost
    obtain ⟨event, hevent, rfl⟩ := List.mem_map.mp ((only_publish _).of_exec hpublish e he body hpost)
    exact ⟨_, List.mem_map_of_mem hevent, hdecode event hevent⟩
  · rintro rfl
    obtain ⟨text, hbodies, htext⟩ := exists_text h.exec h.clock encode
    have htexts : ∀ e ∈ r.events.map Mcp.executionOf,
        (goLibrary round sha256).decode (text e) = .single e := by
      intro e he
      obtain ⟨event, hevent, rfl⟩ := List.mem_map.mp he
      rw [htext event hevent, hdecode event hevent]
    have hdelivers : Replay (Delivers (goLibrary round sha256) a a.token) db posted db' :=
      hreplay.map id fun _ _ _ h => h.delivers
    rw [hbodies] at hpublish
    obtain ⟨done, rest, tr₁, tr₂, db₁, heq, rfl, hdelivered, hrest, hend⟩ :=
      exists_delivered hstart htexts (fun _ h => h) hpublish hdelivers
    -- the loop ended well, so nothing is left to be delivered
    obtain ⟨-, rfl, rfl⟩ | ⟨_, _, _, -, hr, -⟩ := hend
    · obtain rfl := Replay.nil_iff.mp hrest
      rw [List.append_nil] at heq
      rw [← heq] at hdelivered
      obtain ⟨hgrows, hstored⟩ := storedOnce_of_delivered hstart htexts (fun _ h => h) hdelivered
      exact ⟨hgrows.1, fun event hevent => hstored _ (List.mem_map_of_mem hevent)⟩
    · cases hr

/-- The spans of an execution that is published while the clock of the service is near are
    not refused, whatever is lost on the way: the loop ends well and all of them are stored,
    or the service remained unavailable. -/
theorem spans_recorded (hexec : Exec (Mcp.execute asUri args).run tr (.ok r))
    (hclock : Mcp.Clock tr) (huri : ∀ path, asUri path ≠ "") (hfilled : args.Filled)
    (hencode : ∀ event ∈ r.events,
      Mcp.Encodes event (encode event) ∧ (encode event).utf8ByteSize ≤ maxBytes)
    (htoken : a.token ≠ "") (hunique : Table.Unique Row.primaryKey db.table)
    (hpending : db.pending = []) (hfresh : Fresh r.events db.table) {posted : List ProducerExchange}
    {result : Except PublishError Unit}
    (hpublish : Exec (publish (r.events.map encode)).run posted result)
    (hreplay : Replay (DeliversAt (Near a.retention (Mcp.readings tr)) (goLibrary round sha256) a a.token)
      db posted db') :
    (∀ error, result = .error error → Unavailable error) ∧
      (result = .ok () → ∀ event ∈ r.events, StoredOnce (Mcp.executionOf event) db') := by
  obtain ⟨hfailed, hpublished⟩ := recorded_of_publish
    ⟨hexec, hclock, huri, hfilled, hencode, htoken, hunique, hpending, hfresh⟩ hpublish hreplay
  exact ⟨hfailed, fun hok => (hpublished hok).2⟩

/-- A service that is there takes the spans of `weather` when they have ended. -/
theorem exists_published_weather : ∃ (r : Mcp.Executed) (posted : List ProducerExchange) (db' : Database),
    r.events = Mcp.weatherSpans ∧
    ReadyToPublish Mcp.fileUri Mcp.weatherArgs Mcp.weather.2.1 r Mcp.dumps weekAPI {} ∧
    Exec (publish (r.events.map Mcp.dumps)).run posted (.ok ()) ∧
    Replay (DeliversAt (Near weekAPI.retention (Mcp.readings Mcp.weather.2.1))
      (goLibrary some fun _ => 0) weekAPI weekAPI.token) {} posted db' := by
  obtain ⟨r, hexec, hevents, hreadings⟩ := Mcp.exists_weather
  have huri : ∀ path, Mcp.fileUri path ≠ "" := by simp [Mcp.fileUri]
  have hfilled : Mcp.weatherArgs.Filled :=
    ⟨⟨'l', by decide, by decide⟩, ⟨'l', by decide, by decide⟩, ⟨'d', by decide, by decide⟩,
      ⟨'w', by decide, by decide⟩, ⟨'w', by decide, by decide⟩⟩
  have hencode : ∀ event ∈ r.events,
      Mcp.Encodes event (Mcp.dumps event) ∧ (Mcp.dumps event).utf8ByteSize ≤ maxBytes :=
    fun event hevent => ⟨Mcp.encodes_dumps event, Mcp.size_dumps_weather event (hevents ▸ hevent)⟩
  have hfresh : Fresh r.events ([] : List Row) := by simp [Fresh]
  have hwelcome : Welcome (Near weekAPI.retention (Mcp.readings Mcp.weather.2.1)) weekAPI
      (r.events.map Mcp.executionOf) [] :=
    welcome_of_exec hexec Mcp.clock_weather huri hfilled (by decide) hfresh
  have hnow : Near weekAPI.retention (Mcp.readings Mcp.weather.2.1) ⟨1767225605000000000, 0⟩ := by
    rw [hreadings]
    unfold Near
    decide
  obtain ⟨start, stop, course, hreports⟩ := Mcp.reports_of_exec hexec
  obtain ⟨text, hbodies, htext⟩ := exists_text hexec Mcp.clock_weather Mcp.dumps
  have hstart : Holds (r.events.map Mcp.executionOf) [] {} :=
    ⟨by simp [Table.Unique], by simp, by simp, by simp⟩
  have htexts : ∀ e ∈ r.events.map Mcp.executionOf,
      (goLibrary some fun _ => 0).decode (text e) = .single e := by
    intro e he
    obtain ⟨event, hevent, rfl⟩ := List.mem_map.mp he
    rw [htext event hevent]
    exact Mcp.decode_of_reports hreports Mcp.clock_weather hevent (hencode event hevent).1
      (hencode event hevent).2
  obtain ⟨posted, db', hpublish, hreplay⟩ :=
    exists_published hwelcome hnow htexts (fun _ h => h) hstart
  rw [← hbodies] at hpublish
  have hready : ReadyToPublish Mcp.fileUri Mcp.weatherArgs Mcp.weather.2.1 r Mcp.dumps weekAPI {} :=
    ⟨hexec, Mcp.clock_weather, huri, hfilled, hencode, by decide, by simp [Table.Unique], rfl, hfresh⟩
  exact ⟨r, posted, db', hevents, hready, hpublish, hreplay⟩

/-- The spans of `weather` are published when they have ended. -/
theorem spans_recorded_weather : ∃ (r : Mcp.Executed) (db' : Database), r.events = Mcp.weatherSpans ∧
    ∀ event ∈ r.events, StoredOnce (Mcp.executionOf event) db' := by
  obtain ⟨r, posted, db', hevents, hready, hpublish, hreplay⟩ := exists_published_weather
  exact ⟨r, db', hevents, (spans_recorded hready.exec hready.clock hready.uri hready.filled
    hready.encoded hready.token hready.unique hready.pending hready.fresh hpublish hreplay).2 rfl⟩

end spans

end CubeOperator.Telemetry
