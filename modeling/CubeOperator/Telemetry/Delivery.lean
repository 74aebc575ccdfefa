import CubeOperator.Telemetry.Producer
import CubeOperator.Telemetry.Accounting

/-! # Delivery

    The publish loop posts to the service through a channel that may lose a request or its
    response.  What the loop has moved past is stored, once and with the payload that was
    sent. -/

namespace CubeOperator.Telemetry

open Interaction

/-! ## The channel -/

/-- The request that a post makes. -/
def ingest (token body : String) : Request where
  method := "POST"
  path := "/v1/executions"
  authorization := "Bearer " ++ token
  body := body

/-- A post that gets a response has run the request to its end.  One that gets none may
    have run it up to any call, or not at all. -/
def Posts (lib : Library) (a : ExecutionAPI) (token body : String) (db : Database) (p : Posted)
    (db' : Database) : Prop :=
  ∃ tr rest response, Exec (serveHTTP lib a (ingest token body)) (tr ++ rest) response ∧
    Replay Serves db tr db' ∧ ∀ status, p = .response status → rest = [] ∧ response.status = status

/-- A request that runs to its end, whether its response arrives or not. -/
theorem posts_of_exec {lib : Library} {a : ExecutionAPI} {token body : String} {db db' : Database}
    {tr : List Exchange} {response : Response} {p : Posted}
    (hexec : Exec (serveHTTP lib a (ingest token body)) tr response)
    (hreplay : Replay Serves db tr db')
    (hp : ∀ status, p = .response status → response.status = status) :
    Posts lib a token body db p db' :=
  ⟨tr, [], response, by simpa using hexec, hreplay, fun status h => ⟨rfl, hp status h⟩⟩

/-- Statements that the service has given up on may be executed between two calls. -/
abbrev Later : Database → Database → Prop := Relation.ReflTransGen Drifts

/-- The database before and after an exchange of the producer. -/
def Delivers (lib : Library) (a : ExecutionAPI) (token : String) (db : Database)
    (e : ProducerExchange) (db' : Database) : Prop :=
  match e with
  | ⟨.post body, p⟩ => ∃ db₁, Later db db₁ ∧ Posts lib a token body db₁ p db'
  | ⟨.sleep, _⟩ => Later db db'

/-! ## What the database holds -/

variable {lib : Library} {a : ExecutionAPI} {token : String} {events : List Execution}
  {event : Execution} {start : List Row} {db db' : Database} {row : Row}

/-- The insert of one of the events. -/
def SentBy (events : List Execution) (c : Columns) : Prop :=
  ∃ event ∈ events, event.utc.marshal = some c.payload ∧ c = event.utc.columns c.payload

/-- The table has the rows of the start and rows of the events. -/
structure Holds (events : List Execution) (start : List Row) (db : Database) : Prop where
  unique : Table.Unique Row.primaryKey db.table
  kept : ∀ row ∈ start, row ∈ db.table
  sent : ∀ row ∈ db.table, row ∈ start ∨ ∃ c, SentBy events c ∧ row.toColumns = c.encode
  pending : ∀ statement ∈ db.pending, ∃ c, statement = .insert c ∧ SentBy events c

/-- Exactly one row is stored under the id of the event, and it has its payload. -/
def StoredOnce (event : Execution) (db : Database) : Prop :=
  ∃ row ∈ db.table, row.eventId = event.eventId ∧ event.utc.marshal = some row.payload ∧
    ∀ row' ∈ db.table, row'.eventId = event.eventId → row' = row

/-- The database goes on to hold what it held, and rows of the events. -/
def Grows (events : List Execution) (start : List Row) (db db' : Database) : Prop :=
  Holds events start db' ∧ ∀ row ∈ db.table, row ∈ db'.table

theorem holds_execute (now : ℤ) {c : Columns} {pending : List Statement}
    (h : Holds events start db) (hsent : SentBy events c)
    (hpending : ∀ s ∈ pending, s ∈ db.pending) :
    Grows events start db ⟨(execute now (.insert c) db.table).1, pending⟩ := by
  have hrows : ∀ row ∈ db.table, row ∈ (execute now (.insert c) db.table).1 := by
    intro row hrow
    rcases mem_execute_of_mem now (.insert c) hrow with hmem | ⟨_, hprune, -⟩
    · exact hmem
    · cases hprune
  refine ⟨⟨unique_execute h.unique, fun row hrow => hrows row (h.kept row hrow), ?_,
    fun s hs => h.pending s (hpending s hs)⟩, hrows⟩
  intro row hrow
  rcases mem_of_mem_execute hrow with hrow | ⟨c', hinsert, rfl, -⟩
  · exact h.sent row hrow
  · obtain rfl : c = c' := Statement.insert.inj hinsert
    exact .inr ⟨c, hsent, rfl⟩

theorem grows_refl (h : Holds events start db) : Grows events start db db := ⟨h, fun _ hrow => hrow⟩

theorem grows_drifts (h : Holds events start db) (hdrifts : Drifts db db') :
    Grows events start db db' := by
  obtain ⟨statement, now, hmem, rfl⟩ := hdrifts
  obtain ⟨c, rfl, hsent⟩ := h.pending statement hmem
  exact holds_execute now h hsent fun s hs => List.mem_of_mem_erase hs

theorem grows_later (h : Holds events start db) (hlater : Later db db') :
    Grows events start db db' := by
  induction hlater with
  | refl => exact grows_refl h
  | tail _ hdrifts ih =>
    obtain ⟨hholds, hrows⟩ := ih
    obtain ⟨hholds', hrows'⟩ := grows_drifts hholds hdrifts
    exact ⟨hholds', fun row hrow => hrows' row (hrows row hrow)⟩

/-- An exchange of the service that sends nothing but inserts of the events. -/
def Sends (events : List Execution) (e : Exchange) : Prop :=
  ∀ statement, e.1 = .query statement → ∃ c, statement = .insert c ∧ SentBy events c

theorem grows_serves {e : Exchange} (h : Holds events start db) (hsends : Sends events e)
    (hserves : Serves db e db') : Grows events start db db' := by
  rcases serves_cases hserves with rfl | ⟨statement, result, now, rfl, hexecute, hpending⟩ |
    ⟨statement, rfl, rfl⟩
  · exact grows_refl h
  · obtain ⟨c, rfl, hsent⟩ := hsends statement rfl
    have hgrows := holds_execute now h hsent fun s hs => hs
    rw [hexecute] at hgrows
    obtain ⟨table, pending⟩ := db'
    obtain rfl : pending = db.pending := hpending
    exact hgrows
  · refine ⟨⟨h.unique, h.kept, h.sent, ?_⟩, fun row hrow => hrow⟩
    intro s hs
    rcases List.mem_cons.mp hs with rfl | hs
    · exact hsends s rfl
    · exact h.pending s hs

/-! ## What a post does -/

theorem sends_of_exec {body : String} {tr : List Exchange} {response : Response}
    (hdecode : lib.decode body = .single event) (hevent : event ∈ events)
    (hexec : Exec (serveHTTP lib a (ingest token body)) tr response) :
    ∀ e ∈ tr, Sends events e := by
  intro e he statement hstatement
  cases ends_of_exec hexec with
  | early hcalls => exact absurd hstatement (hcalls e he statement)
  | answered event' payload now order result _ hdecode' _ hmarshal =>
    obtain rfl : event = event' := by
      have hsame : lib.decode body = .single event' := hdecode'
      rw [hdecode] at hsame
      exact Decoded.single.inj hsame
    -- Of the three exchanges only the last one is a query.
    obtain rfl | rfl | rfl : e = ⟨.now, now⟩ ∨ e = ⟨.fieldOrder, order⟩ ∨
        e = ⟨.query (.insert (event.utc.columns payload)), result⟩ := by simpa using he
    · cases hstatement
    · cases hstatement
    · cases hstatement
      exact ⟨_, rfl, event, hevent, hmarshal, rfl⟩

theorem grows_posts {body : String} {p : Posted} (h : Holds events start db)
    (hdecode : lib.decode body = .single event) (hevent : event ∈ events)
    (hposts : Posts lib a token body db p db') : Grows events start db db' := by
  obtain ⟨tr, rest, response, hexec, hreplay, -⟩ := hposts
  have hsends := sends_of_exec hdecode hevent hexec
  refine Replay.preserves (P := fun db' => Grows events start db db') ?_ hreplay (grows_refl h)
  intro db₁ e db₂ he hserves hgrows
  obtain ⟨hholds, hrows⟩ := hgrows
  obtain ⟨hholds', hrows'⟩ := grows_serves hholds (hsends e (by simp [he])) hserves
  exact ⟨hholds', fun row hrow => hrows' row (hrows row hrow)⟩

/-- A row with the id and the payload of the event is the only one with its id. -/
theorem storedOnce_of_mem (h : Holds events start db) (hrow : row ∈ db.table)
    (hid : row.eventId = event.eventId) (hpayload : event.utc.marshal = some row.payload) :
    StoredOnce event db := by
  refine ⟨row, hrow, hid, hpayload, ?_⟩
  intro row' hrow' hid'
  have hkey : row'.primaryKey = row.primaryKey := hid'.trans hid.symm
  exact h.unique.eq_of_key hrow' hrow hkey

theorem storedOnce_grows (h : StoredOnce event db) (hgrows : Grows events start db db') :
    StoredOnce event db' := by
  obtain ⟨row, hrow, hid, hpayload, -⟩ := h
  exact storedOnce_of_mem hgrows.1 (hgrows.2 row hrow) hid hpayload

/-- An acknowledged post leaves the event stored. -/
theorem storedOnce_posts {body : String} (h : Holds events start db)
    (hdecode : lib.decode body = .single event) (hevent : event ∈ events)
    (hposts : Posts lib a token body db (.response 204) db') : StoredOnce event db' := by
  have hholds := (grows_posts h hdecode hevent hposts).1
  obtain ⟨tr, rest, response, hexec, hreplay, hresponse⟩ := hposts
  obtain ⟨rfl, hstatus⟩ := hresponse 204 rfl
  rw [List.append_nil] at hexec
  cases ends_of_exec hexec with
  | early _ h204 => exact absurd hstatus h204
  | answered event' payload now order result _ hdecode' _ hmarshal =>
    obtain rfl : event = event' := by
      have hsame : lib.decode body = .single event' := hdecode'
      rw [hdecode] at hsame
      exact Decoded.single.inj hsame
    obtain rfl : result = some true := by
      rcases result with _ | matched
      · simp [respond, httpError] at hstatus
      · cases matched
        · simp [respond, httpError] at hstatus
        · rfl
    obtain ⟨db₁, -, hreplay₁⟩ := Replay.cons_iff.mp hreplay
    obtain ⟨db₂, -, hreplay₂⟩ := Replay.cons_iff.mp hreplay₁
    obtain ⟨db₃, hserves, hlast⟩ := Replay.cons_iff.mp hreplay₂
    obtain rfl := Replay.nil_iff.mp hlast
    obtain ⟨written, hexecute, -⟩ := hserves
    obtain ⟨row, hrow, hid, hmatches⟩ :=
      exists_stored_of_insert written (event.utc.columns payload) db₂.table
    rw [hexecute] at hrow hmatches
    have hpayload : row.payload = payload := hmatches.mp rfl
    exact storedOnce_of_mem hholds hrow hid (by rw [hpayload, hmarshal])

theorem grows_delivers {e : ProducerExchange} (h : Holds events start db)
    (hbody : ∀ body, e.1 = .post body → ∃ event ∈ events, lib.decode body = .single event)
    (hdelivers : Delivers lib a token db e db') : Grows events start db db' := by
  obtain ⟨call, answer⟩ := e
  cases call with
  | post body =>
    obtain ⟨event, hevent, hdecode⟩ := hbody body rfl
    obtain ⟨db₁, hlater, hposts⟩ := hdelivers
    obtain ⟨hholds, hrows⟩ := grows_later h hlater
    obtain ⟨hholds', hrows'⟩ := grows_posts hholds hdecode hevent hposts
    exact ⟨hholds', fun row hrow => hrows' row (hrows row hrow)⟩
  | sleep => exact grows_later h hdelivers

theorem grows_replay {tr : List ProducerExchange} (h : Holds events start db)
    (hbody : ∀ e ∈ tr, ∀ body, e.1 = .post body → ∃ event ∈ events, lib.decode body = .single event)
    (hreplay : Replay (Delivers lib a token) db tr db') : Grows events start db db' := by
  refine Replay.preserves (P := fun db' => Grows events start db db') ?_ hreplay (grows_refl h)
  intro db₁ e db₂ he hdelivers hgrows
  obtain ⟨hholds, hrows⟩ := hgrows
  obtain ⟨hholds', hrows'⟩ := grows_delivers hholds (hbody e he) hdelivers
  exact ⟨hholds', fun row hrow => hrows' row (hrows row hrow)⟩

/-! ## The whole loop -/

/-- The loop has moved past the events: each was acknowledged after at most five posts,
    and was stored when the loop moved past it. -/
inductive Delivered (lib : Library) (a : ExecutionAPI) (token : String)
    (encode : Execution → String) :
    Database → List Execution → List ProducerExchange → Database → Prop where
  | nil (db : Database) : Delivered lib a token encode db [] [] db
  | cons {db db₁ db₂ : Database} {event : Execution} {events : List Execution}
      {tr₁ tr₂ : List ProducerExchange} :
      Acknowledged (encode event) 5 tr₁ → Replay (Delivers lib a token) db tr₁ db₁ →
      StoredOnce event db₁ → Delivered lib a token encode db₁ events tr₂ db₂ →
      Delivered lib a token encode db (event :: events) (tr₁ ++ tr₂) db₂

variable {encode : Execution → String} {tr : List ProducerExchange} {db₁ : Database}
  {r : Except PublishError Unit} {left : List Execution}

/-- An event that is acknowledged has been stored. -/
theorem storedOnce_of_acknowledged (h : Holds events start db)
    (hdecode : lib.decode (encode event) = .single event) (hevent : event ∈ events)
    (hacknowledged : Acknowledged (encode event) 5 tr)
    (hreplay : Replay (Delivers lib a token) db tr db') :
    Grows events start db db' ∧ StoredOnce event db' := by
  have hbody : ∀ e ∈ tr, ∀ body, e.1 = .post body →
      ∃ event ∈ events, lib.decode body = .single event := by
    intro e he body hpost
    obtain rfl := posted_of_acknowledged hacknowledged he hpost
    exact ⟨event, hevent, hdecode⟩
  refine ⟨grows_replay h hbody hreplay, ?_⟩
  obtain ⟨failed, rfl, -, -⟩ := hacknowledged
  obtain ⟨db₁, hfailed, hlast⟩ := Replay.append_iff.mp hreplay
  have hholds := (grows_replay h (fun e he => hbody e (by simp [he])) hfailed).1
  -- What is left is the post that was acknowledged.
  obtain ⟨db₂, hdelivers, hnil⟩ := Replay.cons_iff.mp hlast
  obtain rfl := Replay.nil_iff.mp hnil
  obtain ⟨db₃, hlater, hposts⟩ := hdelivers
  exact storedOnce_posts (grows_later hholds hlater).1 hdecode hevent hposts

theorem storedOnce_of_delivered {done : List Execution} (h : Holds events start db)
    (hencode : ∀ event ∈ events, lib.decode (encode event) = .single event)
    (hdone : ∀ event ∈ done, event ∈ events)
    (hdelivered : Delivered lib a token encode db done tr db') :
    Grows events start db db' ∧ ∀ event ∈ done, StoredOnce event db' := by
  induction hdelivered with
  | nil db => exact ⟨grows_refl h, by simp⟩
  | @cons db db₁ db₂ event done tr₁ tr₂ hacknowledged hreplay hstored _ ih =>
    have hevent : event ∈ events := hdone event (by simp)
    have hfirst := storedOnce_of_acknowledged h (hencode event hevent) hevent hacknowledged hreplay
    obtain ⟨hgrows, hrest⟩ := ih hfirst.1.1 fun event hevent => hdone event (by simp [hevent])
    refine ⟨⟨hgrows.1, fun row hrow => hgrows.2 row (hfirst.1.2 row hrow)⟩, ?_⟩
    intro event' hevent'
    rcases List.mem_cons.mp hevent' with rfl | hevent'
    · exact storedOnce_grows hstored hgrows
    · exact hrest event' hevent'

/-- A run of the loop moves past some of the events, and then past none, or raises on the
    next one. -/
theorem exists_delivered (h : Holds events start db)
    (hencode : ∀ event ∈ events, lib.decode (encode event) = .single event)
    (hleft : ∀ event ∈ left, event ∈ events)
    (hexec : Exec (publish (left.map encode)).run tr r)
    (hreplay : Replay (Delivers lib a token) db tr db') :
    ∃ done rest tr₁ tr₂ db₁, left = done ++ rest ∧ tr = tr₁ ++ tr₂ ∧
      Delivered lib a token encode db done tr₁ db₁ ∧ Replay (Delivers lib a token) db₁ tr₂ db' ∧
      ((r = .ok () ∧ rest = [] ∧ tr₂ = []) ∨ ∃ event rest' error,
        rest = event :: rest' ∧ r = .error error ∧ GivenUp (encode event) 5 tr₂) := by
  induction left generalizing db tr with
  | nil =>
    obtain ⟨rfl, rfl⟩ : tr = [] ∧ r = .ok () := by simpa [publish, Attempt.forEach] using hexec
    exact ⟨[], [], [], [], db, rfl, rfl, .nil db, hreplay, .inl ⟨rfl, rfl, rfl⟩⟩
  | cons event left ih =>
    have hevent : event ∈ events := hleft event (by simp)
    rcases Exec.attempt_bind_iff.mp hexec with ⟨error, hfirst, rfl⟩ | ⟨tr₁, _, tr₂, rfl, hfirst, hrest⟩
    · rcases exec_publishEvent_range hfirst with ⟨hok, -⟩ | ⟨-, hgivenUp⟩
      · cases hok
      · exact ⟨[], event :: left, [], tr, db, rfl, rfl, .nil db, hreplay,
          .inr ⟨event, left, error, rfl, rfl, hgivenUp⟩⟩
    · rcases exec_publishEvent_range hfirst with ⟨-, hacknowledged⟩ | ⟨⟨error, herror⟩, -⟩
      · obtain ⟨db₁, hreplay₁, hreplay₂⟩ := Replay.append_iff.mp hreplay
        obtain ⟨hgrows, hstored⟩ :=
          storedOnce_of_acknowledged h (hencode event hevent) hevent hacknowledged hreplay₁
        obtain ⟨done, rest, tr₃, tr₄, db₂, rfl, rfl, hdelivered, hreplay₃, hend⟩ :=
          ih hgrows.1 (fun event hevent => hleft event (by simp [hevent])) hrest hreplay₂
        exact ⟨event :: done, rest, tr₁ ++ tr₃, tr₄, db₂, rfl, by simp,
          .cons hacknowledged hreplay₁ hstored hdelivered, hreplay₃, hend⟩
      · cases herror

/-- What the loop over the events has done, from `db` to `db₁`, and what is there at some
    later time. -/
structure Published (lib : Library) (a : ExecutionAPI) (token : String)
    (encode : Execution → String) (events : List Execution) (tr : List ProducerExchange)
    (r : Except PublishError Unit) (db db₁ db' : Database) : Prop where
  /-- The loop moves past an event when it was acknowledged, and past all of them unless it
      raises.  The event is stored then, and stays. -/
  delivered : ∃ done rest tr₁ tr₂ db₂, events = done ++ rest ∧ tr = tr₁ ++ tr₂ ∧
    Delivered lib a token encode db done tr₁ db₂ ∧ Replay (Delivers lib a token) db₂ tr₂ db₁ ∧
    ((r = .ok () ∧ rest = [] ∧ tr₂ = []) ∨ ∃ event rest' error,
      rest = event :: rest' ∧ r = .error error ∧ GivenUp (encode event) 5 tr₂) ∧
    ∀ event ∈ done, StoredOnce event db'
  kept : ∀ row ∈ db.table, row ∈ db'.table
  /-- Only rows of the events are added. -/
  added : ∀ row ∈ db'.table, row ∈ db.table ∨
    ∃ event ∈ events, row.eventId = event.eventId ∧ event.utc.marshal = some row.payload

/-- Whatever is lost on the way, an event that the loop has moved past is stored once with
    the payload that was sent. -/
theorem publish_delivers (encode : Execution → String)
    (hencode : ∀ event ∈ events, lib.decode (encode event) = .single event)
    (hunique : Table.Unique Row.primaryKey db.table) (hpending : db.pending = [])
    (hexec : Exec (publish (events.map encode)).run tr r)
    (hreplay : Replay (Delivers lib a token) db tr db₁) (hlater : Later db₁ db') :
    Published lib a token encode events tr r db db₁ db' := by
  have hstart : Holds events db.table db :=
    ⟨hunique, fun _ hrow => hrow, fun _ hrow => .inl hrow, by simp [hpending]⟩
  obtain ⟨done, rest, tr₁, tr₂, db₂, rfl, rfl, hdelivered, hreplay₂, hend⟩ :=
    exists_delivered hstart hencode (fun _ h => h) hexec hreplay
  obtain ⟨hgrows, hstored⟩ := storedOnce_of_delivered hstart hencode
    (fun event hevent => by simp [hevent]) hdelivered
  -- The exchanges after the last acknowledged event are posts of the next one.
  have hbody : ∀ e ∈ tr₂, ∀ body, e.1 = .post body →
      ∃ event ∈ done ++ rest, lib.decode body = .single event := by
    intro e he body hpost
    rcases hend with ⟨-, -, rfl⟩ | ⟨event, rest', error, rfl, -, hgivenUp⟩
    · simp at he
    · obtain rfl := posted_of_givenUp hgivenUp he hpost
      exact ⟨event, by simp, hencode event (by simp)⟩
  have hgrows₁ := grows_replay hgrows.1 hbody hreplay₂
  have hgrows' := grows_later hgrows₁.1 hlater
  refine ⟨⟨done, rest, tr₁, tr₂, db₂, rfl, rfl, hdelivered, hreplay₂, hend, ?_⟩, hgrows'.1.kept, ?_⟩
  · exact fun event hevent => storedOnce_grows (storedOnce_grows (hstored event hevent) hgrows₁) hgrows'
  · intro row hrow
    rcases hgrows'.1.sent row hrow with hrow | ⟨c, ⟨event, hevent, hmarshal, hc⟩, hcolumns⟩
    · exact .inl hrow
    · obtain ⟨columns, recordedAt⟩ := row
      obtain rfl : columns = c.encode := hcolumns
      refine .inr ⟨event, hevent, ?_, hmarshal⟩
      rw [hc]
      rfl

/-- The row of the first post is stored, but its response lost. -/
theorem publish_delivers_lostResponse : ∃ tr db', posts tr = 2 ∧ db'.table.length = 1 ∧
    Published (libraryOf fineBody fineSpan) weekAPI weekAPI.token (fun _ => fineBody) [fineSpan] tr
      (.ok ()) {} db' db' := by
  let stored : Row := ⟨(fineSpan.columns fineSpan.members).encode, 1767225603000000⟩
  have hexec : Exec (publish [fineBody]).run
      [⟨.post fineBody, .transportError⟩, ⟨.sleep, ()⟩, ⟨.post fineBody, .response 204⟩]
      (.ok ()) := .call _ (.call _ (.call _ (.ret _)))
  have hserve : Exec (serveHTTP (libraryOf fineBody fineSpan) weekAPI (ingest weekAPI.token fineBody))
      _ _ := exec_postOf fineBody contract_fineSpan timely_fineSpan marshal_fineSpan (some true)
  have hinsert : execute 1767225603000000 (.insert (fineSpan.utc.columns fineSpan.members)) [] =
      ([stored], true) := rfl
  have hagain : execute 1767225603000001 (.insert (fineSpan.utc.columns fineSpan.members)) [stored] =
      ([stored], true) := rfl
  have hfirst : Delivers (libraryOf fineBody fineSpan) weekAPI weekAPI.token {}
      ⟨.post fineBody, .transportError⟩ ⟨[stored], []⟩ :=
    ⟨_, .refl, posts_of_exec hserve (replay_of_execute {} _ _ hinsert) (by simp)⟩
  have hsecond : Delivers (libraryOf fineBody fineSpan) weekAPI weekAPI.token ⟨[stored], []⟩
      ⟨.post fineBody, .response 204⟩ ⟨[stored], []⟩ :=
    ⟨_, .refl, posts_of_exec hserve (replay_of_execute ⟨[stored], []⟩ _ _ hagain)
      (by simp [respond])⟩
  have hslept : Delivers (libraryOf fineBody fineSpan) weekAPI weekAPI.token ⟨[stored], []⟩
      ⟨.sleep, ()⟩ ⟨[stored], []⟩ := Relation.ReflTransGen.refl
  have hreplay := Replay.cons hfirst (.cons hslept (.cons hsecond (.nil _)))
  have hdecode : ∀ event ∈ [fineSpan],
      (libraryOf fineBody fineSpan).decode fineBody = .single event := by
    simp [libraryOf]
  exact ⟨_, _, rfl, rfl, publish_delivers (fun _ => fineBody) hdecode (by simp [Table.Unique]) rfl
    hexec hreplay .refl⟩

end CubeOperator.Telemetry
