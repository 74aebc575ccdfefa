import CubeOperator.Telemetry.Accounting

/-! # The retention period

    `validate` accepts a span until the retention period is over, to the nanosecond, and
    the loop of `RunExecutions` deletes rows whose end, in microseconds, is before a time
    in microseconds.  Here every job is done at one time of the clock, which does not go
    back, and the runs are those of one process: all its jobs have one retention period.

    A span that is accepted is not deleted at the same time, and a span that has been
    deleted is not accepted again. -/

namespace CubeOperator.Telemetry

open Interaction

variable {lib : Library} {retention : ℤ} {job : Job} {tr : List Exchange}
  {outcome : Option Response}

/-! ## Jobs at one time -/

/-- The retention period that a job works with. -/
def Job.period : Job → ℤ
  | .request a _ => a.retention
  | .prune retention => retention

/-- The table before and after an exchange at the time `now`.  A query is executed at
    that time, also when its answer is lost, or not at all. -/
def ServesAt (now : ℤ) (table : List Row) (e : Exchange) (table' : List Row) : Prop :=
  match e with
  | ⟨.now, time⟩ => time.unixNano = now ∧ table' = table
  | ⟨.query statement, some result⟩ => ∃ written, execute written statement table = (table', result)
  | ⟨.query statement, none⟩ =>
    table' = table ∨ ∃ written, table' = (execute written statement table).1
  | _ => table' = table

/-- The table and the time. -/
structure Clocked where
  now : ℤ
  table : List Row

/-- A job of the process is done, at the time of the state after it. -/
structure Done (lib : Library) (retention : ℤ) (job : Job) (tr : List Exchange)
    (outcome : Option Response) (s s' : Clocked) : Prop where
  later : s.now ≤ s'.now
  period : job.period = retention
  exec : Exec (job.program lib) tr outcome
  replay : Replay (ServesAt s'.now) s.table tr s'.table

/-- Any number of jobs, one after the other. -/
def Runs (lib : Library) (retention : ℤ) : Clocked → Clocked → Prop :=
  Relation.ReflTransGen fun s s' => ∃ job tr outcome, Done lib retention job tr outcome s s'

/-- The row holds the event. -/
def Row.Holds (row : Row) (event : Execution) : Prop :=
  row.eventId = event.eventId ∧ row.payload = event.utc.members

/-! ## What a job does -/

/-- What a job does to the table: a request that is refused does nothing, one that is
    accepted sends its insert, and a prune its delete. -/
inductive Effect (lib : Library) (retention : ℤ) (job : Job) (tr : List Exchange)
    (outcome : Option Response) (s s' : Clocked) : Prop where
  | refused : (∀ exchange ∈ tr, ∀ statement, exchange.1 ≠ .query statement) →
      (∀ response, outcome = some response → response.status ≠ 204 ∧ response.status ≠ 409) →
      s'.table = s.table → Effect lib retention job tr outcome s s'
  | accepted (a : ExecutionAPI) (r : Request) (event : Execution) : job = .request a r →
      lib.decode r.body = .single event → Recorded event.utc (event.utc.columns event.utc.members) →
      s'.now - retention ≤ event.endedAt.unixNano →
      ((s'.table = s.table ∧ ∀ response, outcome = some response → response.status ≠ 204) ∨
        ∃ written matched,
          execute written (.insert (event.utc.columns event.utc.members)) s.table =
            (s'.table, matched) ∧
          ∀ response, outcome = some response → response.status = 204 → matched = true) →
      Effect lib retention job tr outcome s s'
  | pruned : (∀ response, outcome ≠ some response) →
      (s'.table = s.table ∨
        ∃ written, s'.table = (execute written (.prune (s'.now - retention)) s.table).1) →
      Effect lib retention job tr outcome s s'

/-- What is no query leaves the table alone. -/
theorem table_eq_of_no_query {now : ℤ} {table table' : List Row}
    (hcalls : ∀ exchange ∈ tr, ∀ statement, exchange.1 ≠ .query statement)
    (h : Replay (ServesAt now) table tr table') : table' = table := by
  induction h with
  | nil => rfl
  | @cons t t' t'' e rest hserves _ ih =>
    have hrest := ih fun exchange hmem => hcalls exchange (List.mem_cons_of_mem _ hmem)
    obtain ⟨call, answer⟩ := e
    cases call with
    | query statement => exact absurd rfl (hcalls _ (List.mem_cons_self ..) statement)
    | now => rw [hrest, hserves.2]
    | fieldOrder =>
      have hsame : t' = t := hserves
      rw [hrest, hsame]
    | ping =>
      have hsame : t' = t := hserves
      rw [hrest, hsame]

theorem effect_of_request {a : ExecutionAPI} {r : Request} {response : Response} {s s' : Clocked}
    (hexec : Exec (serveHTTP lib a r) tr response)
    (hreplay : Replay (ServesAt s'.now) s.table tr s'.table) :
    Effect lib a.retention (.request a r) tr (some response) s s' := by
  cases ends_of_exec hexec with
  | early hcalls h204 h409 =>
    refine .refused hcalls (fun response' h => ?_) (table_eq_of_no_query hcalls hreplay)
    obtain rfl := Option.some.inj h
    exact ⟨h204, h409⟩
  | answered event payload now order result _ hdecode hvalidate hmarshal =>
    have hrecorded := recorded_of_validate hvalidate hmarshal
    have htimely := (validate_eq_none_iff.mp hvalidate).2
    obtain rfl := members_of_marshal hmarshal
    obtain ⟨table₁, ⟨hnow, hsame₁⟩, hreplay₁⟩ := Replay.cons_iff.mp hreplay
    obtain ⟨table₂, hsame₂, hreplay₂⟩ := Replay.cons_iff.mp hreplay₁
    obtain ⟨table₃, hserves, hnil⟩ := Replay.cons_iff.mp hreplay₂
    -- The first two exchanges leave the table alone.
    obtain rfl : table₁ = s.table := hsame₁
    obtain rfl : table₂ = s.table := hsame₂
    obtain rfl := Replay.nil_iff.mp hnil
    have hrecent : s'.now - a.retention ≤ event.endedAt.unixNano := by
      have := htimely.recent
      omega
    refine .accepted a r event rfl hdecode hrecorded hrecent ?_
    cases result with
    | some matched =>
      obtain ⟨written, hexecute⟩ := hserves
      refine .inr ⟨written, matched, hexecute, fun response' h h204 => ?_⟩
      obtain rfl := Option.some.inj h
      cases matched with
      | true => rfl
      | false => simp [respond, httpError] at h204
    | none =>
      have h503 : ∀ response', some (respond none) = some response' → response'.status ≠ 204 := by
        rintro _ ⟨⟩
        simp [respond, httpError]
      rcases hserves with hsame | ⟨written, hexecute⟩
      · exact .inl ⟨hsame, h503⟩
      · refine .inr ⟨written, _, Prod.ext hexecute.symm rfl, fun response' h h204 => ?_⟩
        exact absurd h204 (h503 response' h)

theorem effect_of_prune {s s' : Clocked} (hexec : Exec (prune retention) tr ())
    (hreplay : Replay (ServesAt s'.now) s.table tr s'.table) :
    Effect lib retention (.prune retention) tr none s s' := by
  unfold prune at hexec
  simp only [Program.perform_bind, Exec.call_iff, Program.pure_eq, Exec.ret_iff] at hexec
  obtain ⟨now, _, rfl, result, _, rfl, rfl, -⟩ := hexec
  obtain ⟨table₁, ⟨hnow, hsame₁⟩, hreplay₁⟩ := Replay.cons_iff.mp hreplay
  obtain ⟨table₂, hserves, hnil⟩ := Replay.cons_iff.mp hreplay₁
  obtain rfl : table₁ = s.table := hsame₁
  obtain rfl := Replay.nil_iff.mp hnil
  have hbefore : (now.add (-retention)).unixNano = s'.now - retention := by
    rw [Time.unixNano_add]
    omega
  rw [hbefore] at hserves
  refine .pruned (by simp) ?_
  cases result with
  | some result =>
    obtain ⟨written, hexecute⟩ := hserves
    exact .inr ⟨written, by rw [hexecute]⟩
  | none => exact hserves

/-- Everything a job can do. -/
theorem effect_of_done {s s' : Clocked} (h : Done lib retention job tr outcome s s') :
    Effect lib retention job tr outcome s s' := by
  obtain ⟨-, hperiod, hexec, hreplay⟩ := h
  cases job with
  | request a r =>
    obtain rfl : a.retention = retention := hperiod
    obtain ⟨tr₁, response, _, rfl, hserve, hret⟩ := Exec.bind_iff.mp hexec
    obtain ⟨rfl, rfl⟩ := Exec.ret_iff.mp hret
    rw [List.append_nil] at hreplay ⊢
    exact effect_of_request hserve hreplay
  | prune retention' =>
    obtain rfl : retention' = retention := hperiod
    obtain ⟨tr₁, ⟨⟩, _, rfl, hprune, hret⟩ := Exec.bind_iff.mp hexec
    obtain ⟨rfl, rfl⟩ := Exec.ret_iff.mp hret
    rw [List.append_nil] at hreplay ⊢
    exact effect_of_prune hprune hreplay

/-! ## Rows and events -/

theorem micro_le_micro {m n : ℤ} (h : m ≤ n) : micro m ≤ micro n := by
  unfold micro
  omega

/-- The column of the row is the end of the event that it holds. -/
theorem endedAt_of_holds {row : Row} {event : Execution} (h : row.IsRecord)
    (hholds : row.Holds event) : row.endedAt = micro event.endedAt.unixNano := by
  obtain ⟨n, hlookup, hcolumn⟩ := (matchesPayload_of_isRecord h).endedAt
  rw [hholds.2] at hlookup
  have hend : event.endedAt.utc = ⟨n, 0⟩ := by
    simpa [Execution.members, Execution.utc, List.lookup_cons] using hlookup
  have hnano : event.endedAt.unixNano = n := congrArg Time.unixNano hend
  rw [hcolumn, hnano]

theorem endedAt_eq_of_members_eq {event event' : Execution}
    (h : event.utc.members = event'.utc.members) :
    event.endedAt.unixNano = event'.endedAt.unixNano := by
  have hend := congrArg (List.lookup "endedAt") h
  have htime : event.endedAt.utc = event'.endedAt.utc := by
    simpa [Execution.members, Execution.utc, List.lookup_cons] using hend
  have hnano : event.endedAt.utc.unixNano = event'.endedAt.utc.unixNano :=
    congrArg Time.unixNano htime
  exact hnano

/-- Every row is the stored insert of an event that keeps the contract. -/
theorem isRecord_of_done {s s' : Clocked} (h : Done lib retention job tr outcome s s')
    (hrecords : ∀ row ∈ s.table, row.IsRecord) : ∀ row ∈ s'.table, row.IsRecord := by
  intro row hrow
  cases effect_of_done h with
  | refused _ _ hsame => exact hrecords row (hsame ▸ hrow)
  | accepted a r event _ _ hrecorded _ heffect =>
    rcases heffect with ⟨hsame, -⟩ | ⟨written, matched, hexecute, -⟩
    · exact hrecords row (hsame ▸ hrow)
    · have hmem : row ∈ (execute written (.insert (event.utc.columns event.utc.members)) s.table).1 := by
        rwa [hexecute]
      rcases mem_of_mem_execute hmem with hold | ⟨c, hinsert, rfl, -⟩
      · exact hrecords row hold
      · obtain rfl := Statement.insert.inj hinsert
        exact ⟨event.utc, _, hrecorded, rfl⟩
  | pruned _ heffect =>
    rcases heffect with hsame | ⟨written, hexecute⟩
    · exact hrecords row (hsame ▸ hrow)
    · rw [hexecute] at hrow
      exact hrecords row (mem_execute_prune.mp hrow).1

theorem isRecord_of_runs {s s' : Clocked} (h : Runs lib retention s s')
    (hrecords : ∀ row ∈ s.table, row.IsRecord) : ∀ row ∈ s'.table, row.IsRecord := by
  induction h with
  | refl => exact hrecords
  | tail _ hstep ih =>
    obtain ⟨job, tr, outcome, hdone⟩ := hstep
    exact isRecord_of_done hdone ih

/-! ## What is accepted is kept -/

/-- A row that ends in time is not deleted. -/
theorem kept_of_done {s s' : Clocked} {row : Row} (h : Done lib retention job tr outcome s s')
    (hrow : row ∈ s.table) (hrecent : micro (s'.now - retention) ≤ row.endedAt) :
    row ∈ s'.table := by
  cases effect_of_done h with
  | refused _ _ hsame => rwa [hsame]
  | accepted a r event _ _ _ _ heffect =>
    rcases heffect with ⟨hsame, -⟩ | ⟨written, matched, hexecute, -⟩
    · rwa [hsame]
    · rcases mem_execute_of_mem written (.insert (event.utc.columns event.utc.members)) hrow with
        hmem | ⟨before, hprune, -⟩
      · rwa [hexecute] at hmem
      · cases hprune
  | pruned _ heffect =>
    rcases heffect with hsame | ⟨written, hexecute⟩
    · rwa [hsame]
    · rw [hexecute]
      exact mem_execute_prune.mpr ⟨hrow, hrecent⟩

/-- It stays as long as the clock does not advance. -/
theorem kept_of_runs {s s' : Clocked} {row : Row} (h : Runs lib retention s s')
    (hrow : row ∈ s.table) (hrecent : micro (s.now - retention) ≤ row.endedAt) :
    s.now ≤ s'.now ∧ (s'.now = s.now → row ∈ s'.table) := by
  induction h with
  | refl => exact ⟨le_refl _, fun _ => hrow⟩
  | @tail t t' _ hstep ih =>
    obtain ⟨job, tr, outcome, hdone⟩ := hstep
    obtain ⟨hle, hkept⟩ := ih
    have hlater := hdone.later
    refine ⟨by omega, fun hnow => ?_⟩
    -- The clock has not advanced before the last job either.
    have hmem := hkept (by omega)
    rw [← hnow] at hrecent
    exact kept_of_done hdone hmem hrecent

/-- The row that an accepted event finds, or becomes. -/
theorem exists_holds_of_done {a : ExecutionAPI} {r : Request} {response : Response}
    {event : Execution} {s s' : Clocked}
    (h : Done lib retention (.request a r) tr (some response) s s')
    (hdecode : lib.decode r.body = .single event)
    (haccepted : response.status = 204 ∨ s'.table ≠ s.table) :
    s'.now - retention ≤ event.endedAt.unixNano ∧ ∃ row ∈ s'.table, row.Holds event := by
  cases effect_of_done h with
  | refused _ hstatus hsame =>
    rcases haccepted with h204 | hne
    · exact absurd h204 (hstatus response rfl).1
    · exact absurd hsame hne
  | pruned hnone => exact absurd rfl (hnone response)
  | accepted a' r' event' hjob hdecode' _ hrecent heffect =>
    obtain ⟨rfl, rfl⟩ := Job.request.inj hjob
    obtain rfl : event = event' := by
      rw [hdecode] at hdecode'
      exact Decoded.single.inj hdecode'
    refine ⟨hrecent, ?_⟩
    rcases heffect with ⟨hsame, hstatus⟩ | ⟨written, matched, hexecute, hmatched⟩
    · rcases haccepted with h204 | hne
      · exact absurd h204 (hstatus response rfl)
      · exact absurd hsame hne
    · rcases haccepted with h204 | hne
      · -- The insert says that the stored payload is that of the event.
        obtain ⟨row, hrow, hid, hpayload⟩ :=
          exists_stored_of_insert written (event.utc.columns event.utc.members) s.table
        rw [hexecute] at hrow hpayload
        exact ⟨row, hrow, hid, hpayload.mp (hmatched response rfl h204)⟩
      · rcases execute_insert_cases written (event.utc.columns event.utc.members) s.table with
          ⟨-, hinsert⟩ | ⟨old, -, hinsert⟩
        · rw [hexecute] at hinsert
          have htable : s'.table = s.table ++
              [⟨(event.utc.columns event.utc.members).encode, written⟩] := congrArg Prod.fst hinsert
          refine ⟨⟨(event.utc.columns event.utc.members).encode, written⟩, ?_, rfl, rfl⟩
          rw [htable]
          exact List.mem_append_right _ (List.mem_singleton_self _)
        · rw [hexecute] at hinsert
          exact absurd (congrArg Prod.fst hinsert) hne

/-! ## What is deleted does not come back -/

/-- The retention period of the event is over, and no row holds it. -/
structure Expired (retention : ℤ) (event : Execution) (s : Clocked) : Prop where
  elapsed : event.endedAt.unixNano < s.now - retention
  gone : ∀ row ∈ s.table, ¬row.Holds event

theorem expired_of_prune {s s' : Clocked} {row : Row} {event : Execution}
    (h : Done lib retention (.prune retention) tr outcome s s')
    (hrecords : ∀ row ∈ s.table, row.IsRecord) (hrow : row ∈ s.table) (hdeleted : row ∉ s'.table)
    (hholds : row.Holds event) : Expired retention event s' := by
  have hcolumn := endedAt_of_holds (hrecords row hrow) hholds
  have hold : row.endedAt < micro (s'.now - retention) := by
    by_contra hrecent
    exact hdeleted (kept_of_done h hrow (by omega))
  refine ⟨?_, fun row' hrow' hholds' => ?_⟩
  · by_contra hrecent
    have hle := micro_le_micro (m := s'.now - retention) (n := event.endedAt.unixNano) (by omega)
    omega
  · -- The delete takes every row with this end, and nothing else changes the table.
    cases effect_of_done h with
    | refused _ _ hsame => exact hdeleted (hsame ▸ hrow)
    | accepted a r event' hjob => cases hjob
    | pruned _ heffect =>
      rcases heffect with hsame | ⟨written, hexecute⟩
      · exact hdeleted (hsame ▸ hrow)
      · rw [hexecute] at hrow'
        obtain ⟨hmem, hrecent⟩ := mem_execute_prune.mp hrow'
        have hcolumn' := endedAt_of_holds (hrecords row' hmem) hholds'
        omega

theorem expired_of_done {s s' : Clocked} {event : Execution}
    (h : Done lib retention job tr outcome s s') (hexpired : Expired retention event s) :
    Expired retention event s' := by
  obtain ⟨helapsed, hgone⟩ := hexpired
  have hlater := h.later
  refine ⟨by omega, fun row hrow hholds => ?_⟩
  cases effect_of_done h with
  | refused _ _ hsame => exact hgone row (hsame ▸ hrow) hholds
  | accepted a r event' _ _ _ hrecent heffect =>
    rcases heffect with ⟨hsame, -⟩ | ⟨written, matched, hexecute, -⟩
    · exact hgone row (hsame ▸ hrow) hholds
    · have hmem : row ∈ (execute written (.insert (event'.utc.columns event'.utc.members)) s.table).1 := by
        rwa [hexecute]
      rcases mem_of_mem_execute hmem with hold | ⟨c, hinsert, rfl, -⟩
      · exact hgone row hold hholds
      · -- A new row is that of an event which ends in time.
        obtain rfl := Statement.insert.inj hinsert
        have hend : event'.endedAt.unixNano = event.endedAt.unixNano :=
          endedAt_eq_of_members_eq hholds.2
        omega
  | pruned _ heffect =>
    rcases heffect with hsame | ⟨written, hexecute⟩
    · exact hgone row (hsame ▸ hrow) hholds
    · rw [hexecute] at hrow
      exact hgone row (mem_execute_prune.mp hrow).1 hholds

theorem expired_of_runs {s s' : Clocked} {event : Execution} (h : Runs lib retention s s')
    (hexpired : Expired retention event s) : Expired retention event s' := by
  induction h with
  | refl => exact hexpired
  | tail _ hstep ih =>
    obtain ⟨job, tr, outcome, hdone⟩ := hstep
    exact expired_of_done hdone ih

/-- A request with an event whose retention period is over sends no statement. -/
theorem refused_of_expired {a : ExecutionAPI} {r : Request} {response : Response}
    {event : Execution} {s s' : Clocked}
    (h : Done lib retention (.request a r) tr (some response) s s')
    (hdecode : lib.decode r.body = .single event) (hexpired : Expired retention event s) :
    response.status ≠ 204 ∧ response.status ≠ 409 ∧
      ∀ exchange ∈ tr, ∀ statement, exchange.1 ≠ .query statement := by
  cases effect_of_done h with
  | refused hcalls hstatus _ => exact ⟨(hstatus response rfl).1, (hstatus response rfl).2, hcalls⟩
  | pruned hnone => exact absurd rfl (hnone response)
  | accepted a' r' event' hjob hdecode' _ hrecent =>
    obtain ⟨rfl, rfl⟩ := Job.request.inj hjob
    obtain rfl : event = event' := by
      rw [hdecode] at hdecode'
      exact Decoded.single.inj hdecode'
    have helapsed := hexpired.elapsed
    have hlater := h.later
    omega

/-! ## The two checks -/

/-- What the check of `validate` and the prune owe each other from a state on. -/
structure RetentionAgrees (lib : Library) (retention : ℤ) (s : Clocked) : Prop where
  /-- An event that is accepted, or stored without an answer, is in the table, and stays
      there through all prunes at the time at which it was accepted. -/
  kept : ∀ a r tr response event s₁,
    Done lib retention (.request a r) tr (some response) s s₁ →
    lib.decode r.body = .single event → response.status = 204 ∨ s₁.table ≠ s.table →
    ∃ row ∈ s₁.table, row.Holds event ∧
      ∀ s₂, Runs lib retention s₁ s₂ → s₂.now = s₁.now → row ∈ s₂.table
  /-- An event that a prune has deleted is in no later table, and no later request with it
      sends a statement. -/
  expired : ∀ tr outcome row event s₁, Done lib retention (.prune retention) tr outcome s s₁ →
    row ∈ s.table → row ∉ s₁.table → row.Holds event → ∀ s₂, Runs lib retention s₁ s₂ →
    (∀ row ∈ s₂.table, ¬row.Holds event) ∧
      ∀ a r tr response s₃, Done lib retention (.request a r) tr (some response) s₂ s₃ →
        lib.decode r.body = .single event → response.status ≠ 204 ∧ response.status ≠ 409 ∧
          ∀ exchange ∈ tr, ∀ statement, exchange.1 ≠ .query statement

/-- They agree in every state of a run that begins with an empty table. -/
theorem retention_agrees {start : ℤ} {s : Clocked} (h : Runs lib retention ⟨start, []⟩ s) :
    RetentionAgrees lib retention s := by
  have hrecords : ∀ row ∈ s.table, row.IsRecord := isRecord_of_runs h (by simp)
  constructor
  case kept =>
    intro a r tr response event s₁ hdone hdecode haccepted
    obtain ⟨hrecent, row, hrow, hholds⟩ := exists_holds_of_done hdone hdecode haccepted
    have hcolumn := endedAt_of_holds (isRecord_of_done hdone hrecords row hrow) hholds
    have hmicro : micro (s₁.now - retention) ≤ row.endedAt := by
      rw [hcolumn]
      exact micro_le_micro hrecent
    exact ⟨row, hrow, hholds, fun s₂ hruns => (kept_of_runs hruns hrow hmicro).2⟩
  case expired =>
    intro tr outcome row event s₁ hdone hrow hdeleted hholds s₂ hruns
    have hexpired := expired_of_runs hruns (expired_of_prune hdone hrecords hrow hdeleted hholds)
    exact ⟨hexpired.gone, fun a r tr response s₃ hrequest hdecode =>
      refused_of_expired hrequest hdecode hexpired⟩

/-! ## A span that is posted and deleted -/

/-- The state after the POST of `fineSpan`. -/
def fineStored : Clocked := ⟨fineNow.unixNano, [⟨(fineSpan.columns fineSpan.members).encode, 0⟩]⟩

/-- The span is posted when it ends. -/
theorem done_post : Done (libraryOf fineBody fineSpan) weekAPI.retention
    (.request weekAPI (postOf fineBody)) [⟨.now, fineNow⟩, ⟨.fieldOrder, ⟨Required.all, .refl _⟩⟩,
      ⟨.query (.insert (fineSpan.columns fineSpan.members)), some true⟩]
    (some { status := 204 }) ⟨0, []⟩ fineStored where
  later := by decide
  period := rfl
  exec := Exec.bind_iff.mpr ⟨_, _, [], rfl,
    exec_postOf fineBody contract_fineSpan timely_fineSpan marshal_fineSpan (some true), .ret _⟩
  replay := by
    have hinsert : ServesAt fineNow.unixNano []
        ⟨.query (.insert (fineSpan.columns fineSpan.members)), some true⟩ fineStored.table :=
      ⟨0, rfl⟩
    exact .cons ⟨rfl, rfl⟩ (.cons rfl (.cons hinsert (.nil _)))

/-- The time at which the row of the span is too old. -/
def fineLater : Time := ⟨fineNow.unixNano + weekAPI.retention + 1000, 0⟩

/-- A prune deletes it. -/
theorem done_prune : Done (libraryOf fineBody fineSpan) weekAPI.retention
    (.prune weekAPI.retention) [⟨.now, fineLater⟩,
      ⟨.query (.prune (fineLater.add (-weekAPI.retention)).unixNano), some ()⟩]
    none fineStored ⟨fineLater.unixNano, []⟩ where
  later := by decide
  period := rfl
  exec := exec_prune (libraryOf fineBody fineSpan) ..
  replay := by
    have hprune : ServesAt fineLater.unixNano fineStored.table
        ⟨.query (.prune (fineLater.add (-weekAPI.retention)).unixNano), some ()⟩ [] := ⟨0, rfl⟩
    exact .cons ⟨rfl, rfl⟩ (.cons hprune (.nil _))

theorem retention_agrees_fineSpan : ∃ tr s s₁,
    Runs (libraryOf fineBody fineSpan) weekAPI.retention ⟨0, []⟩ s ∧
    Done (libraryOf fineBody fineSpan) weekAPI.retention (.prune weekAPI.retention) tr none s s₁ ∧
    s.table ≠ [] ∧ s₁.table = [] ∧
    RetentionAgrees (libraryOf fineBody fineSpan) weekAPI.retention s := by
  have hruns : Runs (libraryOf fineBody fineSpan) weekAPI.retention ⟨0, []⟩ fineStored :=
    .single ⟨_, _, _, done_post⟩
  exact ⟨_, _, _, hruns, done_prune, by simp [fineStored], rfl, retention_agrees hruns⟩

end CubeOperator.Telemetry
