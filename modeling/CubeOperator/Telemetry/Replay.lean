import CubeOperator.Telemetry.Variants

/-! # Replays

    What is answered to a body with the id of an event that is stored already: 204 when the
    two events agree, whatever their texts look like, and 409 when they do not.  An event
    whose times cannot be written in UTC is answered 400, and one with U+0000 in a
    text is rejected by the database. -/

namespace CubeOperator.Telemetry

open Interaction JsonText

variable {lib : Library} {fits : List String → Bool} {db db' : Database} {a a' : ExecutionAPI}
  {r r' : Request} {tr tr' : List Exchange} {response response' : Response}
  {e e' e₁ e₂ : Execution}

/-! ## Agreement -/

/-- The events agree on every field, and on the instants of their times. -/
structure Execution.Agrees (e e' : Execution) : Prop where
  startedAt : e.startedAt.unixNano = e'.startedAt.unixNano
  endedAt : e.endedAt.unixNano = e'.endedAt.unixNano
  others : { e with startedAt := e'.startedAt, endedAt := e'.endedAt } = e'

theorem agrees_iff : e.Agrees e' ↔ e.utc = e'.utc := by
  constructor
  · rintro ⟨hstarted, hended, hothers⟩
    rw [← hothers]
    simp [Execution.utc, Time.utc, hstarted, hended]
  · intro h
    simp only [Execution.utc, Time.utc, Execution.mk.injEq, Time.mk.injEq] at h
    refine ⟨h.2.1.1, h.2.2.1.1, ?_⟩
    cases e
    cases e'
    simp_all

/-! ## Stored events -/

/-- A row has the id of the event and its payload.  No text that is stored has U+0000. -/
structure Stored (db : Database) (e : Execution) : Prop where
  row : ∃ row, Table.stored Row.primaryKey db.table e.eventId = some row ∧
    e.utc.marshal = some row.payload
  texts : ∀ s ∈ e.texts, ¬HasNul s

/-- A run of an authenticated request while the database is well. -/
structure Served (fits : List String → Bool) (lib : Library) (db : Database) (a : ExecutionAPI)
    (r : Request) (tr : List Exchange) (response : Response) (db' : Database) : Prop where
  authenticated : Authenticated lib a r
  exec : Exec (serveHTTP lib a r) tr response
  replay : Replay (ServesHealthy fits) db tr db'

/-- `validate` accepts the event at the time and in the order of the run. -/
def AcceptedIn (a : ExecutionAPI) (tr : List Exchange) (e : Execution) : Prop :=
  ∀ now order, (⟨.now, now⟩ : Exchange) ∈ tr → (⟨.fieldOrder, order⟩ : Exchange) ∈ tr →
    e.validate order now a.retention = none

theorem outcome_of_served (h : Served fits lib db a r tr response db')
    (hdecode : lib.decode r.body = .single e) (haccepted : AcceptedIn a tr e) :
    Outcome fits db e response db' := by
  have hexec := h.exec
  rw [serveHTTP_of_authenticated h.authenticated hdecode] at hexec
  obtain ⟨now, order, rest, rfl, houtcome⟩ := outcome_of_record hexec h.replay
  exact houtcome (haccepted now order (by simp) (by simp))

theorem texts_utc (e : Execution) : e.utc.texts = e.texts := rfl

theorem writable_utc : e.utc.Writable ↔ e.Writable := Iff.rfl

theorem marshal_eq_some_iff {payload : Payload} :
    e.utc.marshal = some payload ↔ e.Writable ∧ payload = e.utc.members := by
  by_cases hwritable : e.Writable
  · rw [marshal_of_writable hwritable, Option.some.injEq]
    exact ⟨fun h => ⟨hwritable, h.symm⟩, fun h => h.2.symm⟩
  · rw [marshal_of_not_writable hwritable]
    simp [hwritable]

/-- An accepted event is stored after its request if and only if that is answered 204. -/
theorem stored_iff (h : Outcome fits db e response db') : Stored db' e ↔ response.status = 204 := by
  cases h with
  | invalid hwritable =>
    refine iff_of_false ?_ (by decide)
    rintro ⟨⟨row, -, hmarshal⟩, -⟩
    exact hwritable (marshal_eq_some_iff.mp hmarshal).1
  | sent hwritable hinserts =>
    cases hinserts with
    | rejected hrejected =>
      refine iff_of_false ?_ (by decide)
      rintro ⟨⟨row, hrow, -⟩, htexts⟩
      refine rejects_iff.mp hrejected ⟨htexts, .inl ?_⟩
      rw [show e.utc.eventId = e.eventId from rfl, hrow]
      simp
    | executed now matched table haccepted hexecute =>
      have hstorable : Storable fits db.table e.utc := not_not.mp (mt rejects_iff.mpr haccepted)
      rcases execute_insert_cases now (e.utc.columns e.utc.members) db.table with
        ⟨hnone, hinsert⟩ | ⟨old, hold, hinsert⟩
      · -- The row is new.
        rw [hinsert] at hexecute
        obtain ⟨rfl, rfl⟩ := Prod.mk.inj hexecute
        refine iff_of_true ⟨⟨_, Table.stored_append hnone rfl, marshal_of_writable hwritable⟩,
          hstorable.1⟩ rfl
      · -- A row with the id is there, and stays as it is.
        rw [hinsert] at hexecute
        obtain ⟨rfl, rfl⟩ := Prod.mk.inj hexecute
        by_cases hpayload : old.payload = e.utc.members
        · refine iff_of_true ⟨⟨old, hold, ?_⟩, hstorable.1⟩ ?_
          · rw [hpayload]
            exact marshal_of_writable hwritable
          · simp [respond, Execution.columns, hpayload]
        · refine iff_of_false ?_ ?_
          · rintro ⟨⟨row, hrow, hmarshal⟩, -⟩
            obtain rfl : old = row := Option.some.inj (hold.symm.trans hrow)
            exact hpayload (marshal_eq_some_iff.mp hmarshal).2
          · simp [respond, httpError, Execution.columns, hpayload]

/-! ## The second answer -/

/-- The answer to an event with the id of a stored one. -/
inductive Replied (stored e : Execution) : Response → Prop where
  | invalid : ¬e.Writable → Replied stored e (httpError "invalid execution" 400)
  | rejected : e.Writable → ¬(∀ s ∈ e.texts, ¬HasNul s) →
      Replied stored e (httpError "storage unavailable" 503)
  | matched : e.Writable → (∀ s ∈ e.texts, ¬HasNul s) → stored.Agrees e →
      Replied stored e { status := 204 }
  | conflict : e.Writable → (∀ s ∈ e.texts, ¬HasNul s) → ¬stored.Agrees e →
      Replied stored e (httpError "eventId already exists with a different payload" 409)

theorem replied_of_outcome (hstored : Stored db e₁) (hid : e₂.eventId = e₁.eventId)
    (h : Outcome fits db e₂ response db') : Replied e₁ e₂ response := by
  obtain ⟨row, hrow, hmarshal⟩ := hstored.row
  obtain ⟨-, hpayload⟩ := marshal_eq_some_iff.mp hmarshal
  have hfound : Table.stored Row.primaryKey db.table e₂.eventId = some row := by
    rw [hid]
    exact hrow
  cases h with
  | invalid hwritable => exact .invalid hwritable
  | sent hwritable hinserts =>
    cases hinserts with
    | rejected hrejected =>
      -- The id is stored, so that no index has to have room.
      refine .rejected hwritable fun htexts => rejects_iff.mp hrejected ⟨htexts, .inl ?_⟩
      exact Option.ne_none_iff_exists'.mpr ⟨row, hfound⟩
    | executed now matched table haccepted hexecute =>
      have hstorable : Storable fits db.table e₂.utc := not_not.mp (mt rejects_iff.mpr haccepted)
      rcases execute_insert_cases now (e₂.utc.columns e₂.utc.members) db.table with
        ⟨hnone, -⟩ | ⟨old, hold, hinsert⟩
      · exact absurd (hnone.symm.trans hfound) (by simp)
      · obtain rfl : old = row := Option.some.inj (hold.symm.trans hfound)
        rw [hinsert] at hexecute
        obtain ⟨rfl, rfl⟩ := Prod.mk.inj hexecute
        have hsame : old.payload = e₂.utc.members ↔ e₁.Agrees e₂ := by
          rw [hpayload, agrees_iff]
          exact ⟨members_injective, congrArg Execution.members⟩
        by_cases hagrees : e₁.Agrees e₂
        · have heq := hsame.mpr hagrees
          simpa [respond, Execution.columns, heq] using Replied.matched hwritable hstorable.1 hagrees
        · have hne := mt hsame.mp hagrees
          simpa [respond, Execution.columns, hne] using Replied.conflict hwritable hstorable.1 hagrees

/-- Events that are the same in UTC are answered the same. -/
theorem Replied.unique (h : Replied e₁ e response) (h' : Replied e₁ e' response')
    (hutc : e.utc = e'.utc) : response' = response := by
  have hwritable : e.Writable ↔ e'.Writable := by
    rw [← writable_utc, hutc, writable_utc]
  have htexts : (∀ s ∈ e.texts, ¬HasNul s) ↔ ∀ s ∈ e'.texts, ¬HasNul s := by
    rw [← texts_utc, hutc, texts_utc]
  have hagrees : e₁.Agrees e ↔ e₁.Agrees e' := by
    rw [agrees_iff, agrees_iff, hutc]
  cases h <;> cases h' <;> first | rfl | tauto

theorem acceptedIn_utc (h : AcceptedIn a tr e) : AcceptedIn a tr e.utc := by
  intro now order hnow horder
  obtain ⟨hcontract, htimely⟩ := validate_eq_none_iff.mp (h now order hnow horder)
  exact validate_eq_none_iff.mpr ⟨contract_utc hcontract, htimely.recent, htimely.past⟩

/-- A second body with the id of a stored event is answered 204 if and only if the two events
    agree.  Otherwise it is answered 400 `invalid execution` when its times cannot be written
    in UTC, and 409 when they can and no text has U+0000.  With the decoder of the service, variants of
    the body are answered the same, and the text of the stored payload is answered 204. -/
theorem replay_answered {body₁ : String} (hfirst : lib.decode body₁ = .single e₁)
    (hstored : Stored db e₁) (hserved : Served fits lib db a r tr response db') :
    (∀ e₂, lib.decode r.body = .single e₂ → AcceptedIn a tr e₂ → e₂.eventId = e₁.eventId →
      (response.status = 204 ↔ e₁.Agrees e₂) ∧
      (¬e₁.Agrees e₂ → e₂.Writable → (∀ s ∈ e₂.texts, ¬HasNul s) →
        response = httpError "eventId already exists with a different payload" 409) ∧
      (¬e₂.Writable → response = httpError "invalid execution" 400)) ∧
    ∀ round, RoundTrips round → lib.decode = decodeBody round →
      (∀ e₂, lib.decode r.body = .single e₂ → AcceptedIn a tr e₂ → e₂.eventId = e₁.eventId →
        ∀ a' r' tr' response' db'' e', Variant r.body r'.body →
          Served fits lib db a' r' tr' response' db'' → lib.decode r'.body = .single e' →
          AcceptedIn a' tr' e' → response' = response) ∧
      (∀ row, Table.stored Row.primaryKey db.table e₁.eventId = some row →
        PayloadText row.payload r.body → r.body.utf8ByteSize ≤ maxBytes → AcceptedIn a tr e₁ →
        response.status = 204) := by
  have hreplied : ∀ e₂, lib.decode r.body = .single e₂ → AcceptedIn a tr e₂ →
      e₂.eventId = e₁.eventId → Replied e₁ e₂ response :=
    fun e₂ hdecode haccepted hid =>
      replied_of_outcome hstored hid (outcome_of_served hserved hdecode haccepted)
  -- The stored event can be written and has no U+0000.
  obtain ⟨stored, hrow, hmarshal⟩ := hstored.row
  obtain ⟨hwritable₁, hpayload⟩ := marshal_eq_some_iff.mp hmarshal
  have hagrees : ∀ e₂, e₁.Agrees e₂ → e₂.Writable ∧ ∀ s ∈ e₂.texts, ¬HasNul s := by
    intro e₂ h
    have hutc := agrees_iff.mp h
    rw [← writable_utc, ← texts_utc, ← hutc]
    exact ⟨hwritable₁, hstored.texts⟩
  refine ⟨?_, ?_⟩
  · intro e₂ hdecode haccepted hid
    cases hreplied e₂ hdecode haccepted hid with
    | invalid hwritable =>
      have hnot : ¬e₁.Agrees e₂ := fun h => hwritable (hagrees e₂ h).1
      simp [httpError, hnot, hwritable]
    | rejected hwritable htexts =>
      have hnot : ¬e₁.Agrees e₂ := fun h => htexts (hagrees e₂ h).2
      refine ⟨iff_of_false (by decide) hnot, ?_, ?_⟩
      · intro _ _ hno
        exact absurd hno htexts
      · intro h
        exact absurd hwritable h
    | matched hwritable _ h => simp [h, hwritable]
    | conflict hwritable _ h => simp [httpError, h, hwritable]
  · intro round hround hdecoder
    refine ⟨?_, ?_⟩
    · intro e₂ hdecode haccepted hid a' r' tr' response' db'' e' hvariant hserved' hdecode' haccepted'
      have hutc : e₂.utc = e'.utc := by
        rw [hdecoder] at hdecode hdecode'
        exact utc_of_variant hround hvariant hdecode hdecode'
      have hid' : e'.eventId = e₁.eventId := (congrArg Execution.eventId hutc).symm.trans hid
      have hreplied' := replied_of_outcome hstored hid' (outcome_of_served hserved' hdecode' haccepted')
      exact (hreplied e₂ hdecode haccepted hid).unique hreplied' hutc
    · intro row hfound htext hsize haccepted
      obtain rfl : stored = row := Option.some.inj (hrow.symm.trans hfound)
      rw [hdecoder] at hfirst
      rw [hpayload] at htext
      obtain ⟨hinput, houtput, hcost⟩ := representable_of_decode hround hfirst
      have hdecode : decodeBody round r.body = .single e₁.utc :=
        decode_payloadText ⟨hinput, houtput, hcost⟩ (utc_utc e₁) hwritable₁ htext hsize
      rw [← hdecoder] at hdecode
      have hself : e₁.Agrees e₁.utc := agrees_iff.mpr (utc_utc e₁).symm
      cases hreplied e₁.utc hdecode (acceptedIn_utc haccepted) rfl with
      | invalid hwritable => exact absurd hwritable₁ hwritable
      | rejected _ htexts => exact absurd hstored.texts htexts
      | matched _ _ _ => rfl
      | conflict _ _ h => exact absurd hself h

/-! ## Posts after the span that begins between two microseconds -/

/-- The doubles that are whole numbers. -/
def roundWhole : RoundFloat := fun q => if q.den = 1 then some q else none

theorem roundTrips_whole : RoundTrips roundWhole where
  zero := rfl
  again p q h := by
    unfold roundWhole at h
    split at h
    · rename_i hwhole
      obtain rfl := Option.some.inj h
      exact if_pos hwhole
    · cases h

/-- The service with the decoder for these numbers. -/
def wholeLibrary : Library := goLibrary roundWhole (libraryOf fineBody fineSpan).sha256

theorem decode_whole {body : String} (h : decodeBody roundWhole body = .single e) :
    wholeLibrary.decode body = .single e := h

def bodyOf (ms : List (String × Literal)) : String := String.ofList (writeObject ms)

theorem decode_bodyOf {ms : List (String × Literal)} {round : RoundFloat}
    (hspells : ∀ m ∈ ms, SpellsLiteral m.2 (writeLiteral m.2)) (hsize : (writeObject ms).length ≤ 16384)
    (hevent : (decodeMembers round (fun _ => none) ms).map Execution.ofFields = some e) :
    decodeBody round (bodyOf ms) = .single e := by
  obtain ⟨fields, hfields, rfl⟩ := Option.map_eq_some_iff.mp hevent
  have hbody : Spells ms (bodyOf ms).toList := by
    rw [bodyOf, String.toList_ofList]
    exact spells_writeObject hspells
  have hfits : (bodyOf ms).utf8ByteSize ≤ maxBytes := (size_ofList_le _).trans (by
    unfold maxBytes
    omega)
  exact decodeBody_of_spells hbody hfits hfields

/-- The members of `fineBody`. -/
def fineMembers : List (String × Literal) :=
  [("eventId", .text "span-1".toList),
    ("startedAt", .text "2026-01-01T00:00:00.000000001Z".toList),
    ("endedAt", .text "2026-01-01T00:00:03Z".toList), ("tenantId", .text "tenant-a".toList),
    ("cluster", .text "kind".toList), ("namespace", .text "demo".toList),
    ("traceId", .text "trace".toList), ("runId", .text "run".toList),
    ("agent", .text "worker".toList), ("kind", .text "run".toList),
    ("name", .text "analytics.usage".toList), ("status", .text "succeeded".toList)]

/-- The span as it is reported from a zone that is an hour ahead. -/
def offsetSpan : Execution :=
  { fineSpan with startedAt := ⟨1767225600000000001, 3600⟩, endedAt := ⟨1767225603000000000, 3600⟩ }

def offsetMembers : List (String × Literal) :=
  [("STATUS", .text "succeeded".toList), ("eventId", .text "span-1".toList),
    ("startedAt", .text "2026-01-01T01:00:00.000000001+01:00".toList),
    ("endedAt", .text "2026-01-01T01:00:03.000+01:00".toList), ("tenantId", .text "tenant-a".toList),
    ("cluster", .text "kind".toList), ("namespace", .text "demo".toList),
    ("traceId", .text "trace".toList), ("runId", .text "run".toList), ("parentId", .null),
    ("agent", .text "worker".toList), ("kind", .text "run".toList), ("costUsd", .number "0e5".toList),
    ("name", .text "analytics.usage".toList)]

/-- The span with a beginning whose year is 0 where it is reported, and -1 in UTC. -/
def earlySpan : Execution := { fineSpan with startedAt := ⟨-62167222800 * 10 ^ 9, 3600⟩ }

def earlyMembers : List (String × Literal) :=
  ("startedAt", .text "0000-01-01T00:00:00+01:00".toList) ::
    fineMembers.filter fun m => m.1 ≠ "startedAt"

theorem spells_fineMembers : ∀ m ∈ fineMembers, SpellsLiteral m.2 (writeLiteral m.2) := by
  unfold fineMembers
  simp only [List.forall_mem_cons]
  refine ⟨?_, ?_, ?_, ?_, ?_, ?_, ?_, ?_, ?_, ?_, ?_, ?_, by simp⟩
  all_goals exact .text (closed_of_plain (by decide +kernel))

theorem spells_offsetMembers : ∀ m ∈ offsetMembers, SpellsLiteral m.2 (writeLiteral m.2) := by
  unfold offsetMembers
  simp only [List.forall_mem_cons]
  refine ⟨?_, ?_, ?_, ?_, ?_, ?_, ?_, ?_, ?_, ?_, ?_, ?_, ?_, ?_, by simp⟩
  all_goals first
    | exact .null
    | exact .text (closed_of_plain (by decide +kernel))
    | exact .number (by decide +kernel)

theorem spells_earlyMembers : ∀ m ∈ earlyMembers, SpellsLiteral m.2 (writeLiteral m.2) := by
  refine List.forall_mem_cons.mpr ⟨.text (closed_of_plain (by decide +kernel)), fun m hm => ?_⟩
  exact spells_fineMembers m (List.mem_of_mem_filter hm)

theorem decode_fineMembers : decodeBody roundWhole (bodyOf fineMembers) = .single fineSpan :=
  decode_bodyOf spells_fineMembers (by decide +kernel) (by decide +kernel)

theorem decode_offsetMembers : decodeBody roundWhole (bodyOf offsetMembers) = .single offsetSpan :=
  decode_bodyOf spells_offsetMembers (by decide +kernel) (by decide +kernel)

theorem decode_earlyMembers : decodeBody roundWhole (bodyOf earlyMembers) = .single earlySpan :=
  decode_bodyOf spells_earlyMembers (by decide +kernel) (by decide +kernel)

/-- A POST of an accepted event when the span ends, to a database that is well. -/
theorem served_post {body : String} {payload : Payload} {result : Option Bool}
    (hdecode : decodeBody roundWhole body = .single e) (hcontract : e.Contract)
    (htimely : e.Timely fineNow weekAPI.retention) (hmarshal : e.utc.marshal = some payload)
    (hinserts : Inserts fitsPage db (e.utc.columns payload) result db') :
    Served fitsPage wholeLibrary db weekAPI (postOf body)
        [⟨.now, fineNow⟩, ⟨.fieldOrder, ⟨Required.all, .refl _⟩⟩,
          ⟨.query (.insert (e.utc.columns payload)), result⟩] (respond result) db' := by
  have hauthenticated : Authenticated wholeLibrary weekAPI (postOf body) :=
    ⟨rfl, rfl, by decide, rfl⟩
  have hvalidate : e.validate ⟨Required.all, .refl _⟩ fineNow weekAPI.retention = none :=
    validate_eq_none_iff.mpr ⟨hcontract, htimely⟩
  exact ⟨hauthenticated, exec_of_accepted hauthenticated hdecode hvalidate hmarshal result,
    replay_of_inserts _ _ hinserts⟩

theorem acceptedIn_post (statement : Statement) (result : Option statement.Result)
    (hcontract : e.Contract) (htimely : e.Timely fineNow weekAPI.retention) (order : FieldOrder) :
    AcceptedIn weekAPI [⟨.now, fineNow⟩, ⟨.fieldOrder, order⟩, ⟨.query statement, result⟩] e := by
  intro now order' hnow _
  obtain rfl : now = fineNow := by simpa using hnow
  exact validate_eq_none_iff.mpr ⟨hcontract, htimely⟩

/-- The table after the first POST of the span. -/
def fineDatabase : Database :=
  ⟨[⟨(fineSpan.columns fineSpan.members).encode, 1767225603000000⟩], []⟩

theorem storable_fineSpan (table : List Row) : Storable fitsPage table fineSpan := by
  refine ⟨?_, .inr ⟨by decide, by decide⟩⟩
  unfold HasNul
  decide

theorem stored_fineSpan : Stored fineDatabase fineSpan := by
  have haccepted : ¬Rejects fitsPage [] (fineSpan.utc.columns fineSpan.members) :=
    fun h => rejects_iff.mp h (storable_fineSpan [])
  have hinsert : Inserts fitsPage {} (fineSpan.utc.columns fineSpan.utc.members) (some true) fineDatabase :=
    .executed 1767225603000000 true _ haccepted rfl
  exact (stored_iff (.sent (by unfold Execution.Writable; decide) hinsert)).mpr rfl

/-- A second insert of the span changes nothing. -/
theorem inserts_again : Inserts fitsPage fineDatabase (fineSpan.columns fineSpan.members) (some true)
    fineDatabase := by
  have haccepted : ¬Rejects fitsPage fineDatabase.table (fineSpan.utc.columns fineSpan.members) :=
    fun h => rejects_iff.mp h (storable_fineSpan _)
  exact .executed 0 true _ haccepted (by decide +kernel)

theorem contract_offsetSpan : offsetSpan.Contract :=
  contract_utc_iff.mp (contract_fineSpan : offsetSpan.utc.Contract)

/-- The text that `json.Marshal` writes for the span. -/
def fineText : String := Payload.marshalText (fun q => writeInt q.num) fineSpan.members

theorem representable_fineSpan : fineSpan.Representable roundWhole := ⟨by decide, by decide, rfl⟩

theorem payloadText_fineSpan : PayloadText fineSpan.members fineText := by
  have hformat : ∀ q, roundWhole q = some q → ∃ n, readNumber (writeInt q.num) = some n ∧ n.value = q := by
    intro q hq
    have hwhole : q.den = 1 := by
      by_contra hne
      rw [roundWhole, if_neg hne] at hq
      cases hq
    obtain ⟨n, hread, hinteger⟩ := readNumber_writeInt q.num
    refine ⟨n, hread, ?_⟩
    rw [Number.value_of_integer hinteger]
    exact Rat.coe_int_num_of_den_eq_one hwhole
  exact payloadText_marshalText hformat representable_fineSpan

theorem size_fineText : fineText.utf8ByteSize ≤ maxBytes :=
  (size_ofList_le _).trans (by decide +kernel)

theorem decode_fineText : decodeBody roundWhole fineText = .single fineSpan :=
  decode_payloadText representable_fineSpan rfl (by unfold Execution.Writable; decide)
    payloadText_fineSpan size_fineText

/-- The span from another zone, with its members in another order, and the text of its payload
    are answered 204. -/
theorem replay_answered_offset :
    (∃ tr response db',
      Served fitsPage wholeLibrary fineDatabase weekAPI (postOf (bodyOf offsetMembers)) tr response db' ∧
        (response.status = 204 ↔ fineSpan.Agrees offsetSpan) ∧ fineSpan.Agrees offsetSpan) ∧
    ∃ tr response db',
      Served fitsPage wholeLibrary fineDatabase weekAPI (postOf fineText) tr response db' ∧
        response.status = 204 := by
  have htimely : offsetSpan.Timely fineNow weekAPI.retention := ⟨by decide, by decide⟩
  have hoffset := served_post decode_offsetMembers contract_offsetSpan htimely
    (show offsetSpan.utc.marshal = some fineSpan.members by decide) inserts_again
  have haccepted := acceptedIn_post (.insert (fineSpan.columns fineSpan.members)) (some true)
    contract_offsetSpan htimely ⟨Required.all, .refl _⟩
  have htext := served_post decode_fineText contract_fineSpan timely_fineSpan marshal_fineSpan inserts_again
  have haccepted' := acceptedIn_post (.insert (fineSpan.columns fineSpan.members)) (some true)
    contract_fineSpan timely_fineSpan ⟨Required.all, .refl _⟩
  refine ⟨⟨_, _, _, hoffset, ?_, agrees_iff.mpr rfl⟩, _, _, _, htext, ?_⟩
  · exact ((replay_answered (decode_whole decode_fineMembers) stored_fineSpan hoffset).1 offsetSpan
      (decode_whole decode_offsetMembers) haccepted rfl).1
  · refine ((replay_answered (decode_whole decode_fineMembers) stored_fineSpan htext).2 roundWhole
      roundTrips_whole rfl).2 _ rfl payloadText_fineSpan size_fineText haccepted'

/-- The span that begins in the year 0 has the id of the stored span and another beginning.
    It is accepted, and answered neither 204 nor 409. -/
theorem early_neither : ∃ tr response db',
    wholeLibrary.decode (bodyOf fineMembers) = .single fineSpan ∧ Stored fineDatabase fineSpan ∧
    Served fitsPage wholeLibrary fineDatabase weekAPI (postOf (bodyOf earlyMembers)) tr response db' ∧
    wholeLibrary.decode (postOf (bodyOf earlyMembers)).body = .single earlySpan ∧
    AcceptedIn weekAPI tr earlySpan ∧ earlySpan.eventId = fineSpan.eventId ∧
    ¬fineSpan.Agrees earlySpan ∧ response = httpError "invalid execution" 400 := by
  have hcontract : earlySpan.Contract :=
    { contract_fineSpan with
      required := fun field => by
        have hfield := contract_fineSpan.required field
        cases field <;> exact hfield
      started := by decide
      ordered := by decide
      detailed := .run rfl }
  have htimely : earlySpan.Timely fineNow weekAPI.retention := ⟨by decide, by decide⟩
  have hwritable : ¬earlySpan.Writable := by
    unfold Execution.Writable
    decide
  have hauthenticated : Authenticated wholeLibrary weekAPI (postOf (bodyOf earlyMembers)) :=
    ⟨rfl, rfl, by decide, rfl⟩
  have hvalidate : earlySpan.validate ⟨Required.all, .refl _⟩ fineNow weekAPI.retention = none :=
    validate_eq_none_iff.mpr ⟨hcontract, htimely⟩
  have hexec : Exec (serveHTTP wholeLibrary weekAPI (postOf (bodyOf earlyMembers)))
      [⟨.now, fineNow⟩, ⟨.fieldOrder, ⟨Required.all, .refl _⟩⟩] (httpError "invalid execution" 400) := by
    rw [serveHTTP_of_authenticated hauthenticated (decode_whole decode_earlyMembers)]
    unfold record
    simp only [Program.perform_bind]
    refine Exec.call_iff.mpr ⟨fineNow, _, rfl, Exec.call_iff.mpr ⟨⟨Required.all, .refl _⟩, _, rfl, ?_⟩⟩
    simp only [hvalidate, marshal_of_not_writable hwritable]
    exact Exec.ret_iff.mpr ⟨rfl, rfl⟩
  have hreplay : Replay (ServesHealthy fitsPage) fineDatabase
      [⟨.now, fineNow⟩, ⟨.fieldOrder, ⟨Required.all, .refl _⟩⟩] fineDatabase :=
    .cons (show ServesHealthy fitsPage fineDatabase ⟨.now, fineNow⟩ fineDatabase from rfl)
      (.cons (show ServesHealthy fitsPage fineDatabase ⟨.fieldOrder, _⟩ fineDatabase from rfl) (.nil _))
  refine ⟨_, _, _, decode_whole decode_fineMembers, stored_fineSpan, ⟨hauthenticated, hexec, hreplay⟩,
    decode_whole decode_earlyMembers, ?_, rfl, ?_, rfl⟩
  · intro now order hnow horder
    obtain rfl : now = fineNow := by simpa using hnow
    exact validate_eq_none_iff.mpr ⟨hcontract, htimely⟩
  · exact fun h => absurd h.startedAt (by decide)

end CubeOperator.Telemetry
