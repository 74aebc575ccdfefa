import CubeOperator.Telemetry.Contract
import CubeOperator.Telemetry.Spans
import CubeOperator.Telemetry.Variants

/-! # The ingestion of the spans

    The spans that `execute` reports are posted as the JSON texts of their dictionaries.
    The service decodes every one of them to an event that keeps the contract, whatever
    became of the tool, if the arguments of the command line are not blank. -/

namespace CubeOperator.Telemetry.Mcp

open Interaction Verification JsonText

/-! ## Times -/

/-- The times between the zero of `time.Time` and the end of the year 9999. -/
structure InRange (micros : ℤ) : Prop where
  after_zero : Time.zero < micros * 1000
  to_year_9999 : micros * 1000 < 253402300800 * 10 ^ 9

variable {micros : ℤ}

theorem InRange.writable (h : InRange micros) : Rfc3339.Writable (micros * 1000) 0 := by
  obtain ⟨hzero, hend⟩ := h
  unfold Time.zero at hzero
  refine ⟨?_, ?_, rfl, by decide⟩
  · unfold Rfc3339.localNanos Rfc3339.epochDays
    omega
  · unfold Rfc3339.localNanos Rfc3339.epochDays
    omega

theorem InRange.marshals (h : InRange micros) : (⟨micros * 1000, 0⟩ : Time).marshals = true := by
  obtain ⟨hzero, hend⟩ := h
  unfold Time.zero at hzero
  simp only [Time.marshals, decide_eq_true_eq]
  omega

theorem toList_isoformat (micros : ℤ) : (isoformat micros).toList =
    Rfc3339.writeDate
      (.ofNumber ((Rfc3339.localNanos (micros * 1000) 0).toNat / (86400 * 10 ^ 9))) ++ 'T' ::
      (Rfc3339.writeClock ((Rfc3339.localNanos (micros * 1000) 0).toNat / 10 ^ 9 % 86400) ++
        ((if (Rfc3339.localNanos (micros * 1000) 0).toNat % 10 ^ 9 = 0 then []
          else '.' :: Rfc3339.digits 6 ((Rfc3339.localNanos (micros * 1000) 0).toNat % 10 ^ 9 / 1000)) ++
        ['+', '0', '0', ':', '0', '0'])) := by
  rw [isoformat, String.toList_ofList]
  rfl

/-- A time of `isoformat` is one of RFC 3339. -/
theorem parseTime_isoformat (h : InRange micros) :
    parseTime (isoformat micros).toList = some ⟨micros * 1000, 0⟩ := by
  have hwritable := h.writable
  have hfrom := hwritable.from_year_0
  have hzone : Rfc3339.readZone ['+', '0', '0', ':', '0', '0'] = some 0 := by decide
  rw [parseTime, toList_isoformat, Rfc3339.read_spelled hwritable ?_ hzone, Option.map_some]
  split
  · rename_i hwhole
    rw [hwhole]
    rfl
  · -- The six digits are those of the microseconds.
    have hmicros : (Rfc3339.localNanos (micros * 1000) 0).toNat % 10 ^ 9 / 1000 * 10 ^ (9 - 6) =
        (Rfc3339.localNanos (micros * 1000) 0).toNat % 10 ^ 9 := by
      unfold Rfc3339.localNanos at hfrom ⊢
      omega
    have hplus : ∀ c ∈ ['+', '0', '0', ':', '0', '0'].head?, c.isDigit = false := by simp
    rw [List.cons_append, Rfc3339.readFraction_digits (by omega) (by decide) (by decide) hplus, hmicros]

theorem isoformat_chars (micros : ℤ) :
    ∀ c ∈ (isoformat micros).toList, Rfc3339.isTimeChar c = true := by
  rw [toList_isoformat]
  refine Rfc3339.chars_append (Rfc3339.writeDate_chars _) (by decide) fun c hc => ?_
  rcases List.mem_append.mp hc with hc | hc
  · exact Rfc3339.writeClock_chars _ c hc
  · rcases List.mem_append.mp hc with hc | hc
    · split at hc
      · cases hc
      · rcases List.mem_cons.mp hc with rfl | hc
        · decide
        · exact Rfc3339.digits_chars c hc
    · exact List.all_eq_true.mp (by decide : ['+', '0', '0', ':', '0', '0'].all Rfc3339.isTimeChar) c hc

/-! ## Texts of dictionaries -/

/-- The characters that an encoder leaves as they are. -/
def isVerbatim (c : Char) : Bool := isPlain c && c.toNat < 0x7F

theorem isVerbatim_of_isTimeChar {c : Char} (h : Rfc3339.isTimeChar c = true) :
    isVerbatim c = true := by
  have hplain := isPlain_of_isTimeChar h
  simp only [Rfc3339.isTimeChar, Bool.or_eq_true, decide_eq_true_eq] at h
  rcases h with (((((hdigit | rfl) | rfl) | rfl) | rfl) | rfl) | rfl
  · have hrange : c.toNat ≤ '9'.toNat := (Char.isDigit_iff_toNat.mp hdigit).2
    have hascii : c.toNat < 0x7F := lt_of_le_of_lt hrange (by decide)
    simp [isVerbatim, hplain, hascii]
  all_goals decide

/-- A member of an object for a key of a dictionary and its value. -/
structure Writes (m : String × Literal) (field : String × String) : Prop where
  key : m.1 = field.1
  value : ∃ raw, m.2 = .text raw ∧ unquote raw = some field.2 ∧
    (field.2.toList.all isVerbatim = true → raw = field.2.toList)

/-- The body is a JSON text of the dictionary. -/
def Encodes (event : PublishedEvent) (body : String) : Prop :=
  ∃ ms, Spells ms body.toList ∧ List.Forall₂ Writes ms event

/-- A character as `json.dumps` writes it with `ensure_ascii=False`. -/
def dumpsChar (c : Char) : List Char := if isPlain c then [c] else escapeChar c

/-- `json.dumps` with `separators=(",", ":")`, for keys that need no escapes. -/
def dumps (event : PublishedEvent) : String :=
  String.ofList (writeObject (event.map fun field =>
    (field.1, .text (field.2.toList.flatMap dumpsChar))))

theorem dumpsChar_cases (c : Char) :
    dumpsChar c = escapeChar c ∨ isPlain c = true ∧ dumpsChar c = [c] := by
  unfold dumpsChar
  by_cases hplain : isPlain c = true
  · exact .inr ⟨hplain, if_pos hplain⟩
  · exact .inl (if_neg hplain)

theorem flatMap_dumpsChar {cs : List Char} (h : cs.all isVerbatim = true) :
    cs.flatMap dumpsChar = cs := by
  induction cs with
  | nil => rfl
  | cons c cs ih =>
    simp only [List.all_cons, Bool.and_eq_true, isVerbatim] at h
    obtain ⟨⟨hplain, -⟩, hrest⟩ := h
    rw [List.flatMap_cons, ih hrest, dumpsChar, if_pos hplain, List.singleton_append]

/-- No character takes more than six in a text. -/
theorem size_dumps_le (event : PublishedEvent) : (dumps event).utf8ByteSize ≤
    4 * (2 + (event.map fun field => 6 * (field.1.length + field.2.length) + 6).sum) := by
  have hmember : ∀ field : String × String,
      (writeMember (field.1, .text (field.2.toList.flatMap dumpsChar))).length + 1 ≤
        6 * (field.1.length + field.2.length) + 6 := by
    intro field
    have hkey : (escape field.1).length ≤ 6 * field.1.length :=
      length_flatMap_le (fun _ => .inl rfl) field.1.toList
    have hvalue : (field.2.toList.flatMap dumpsChar).length ≤ 6 * field.2.length :=
      length_flatMap_le dumpsChar_cases field.2.toList
    simp only [writeMember, writeLiteral, List.length_cons, List.length_append, List.length_nil]
    omega
  have hobject := length_writeObject_le (event.map fun field =>
    (field.1, Literal.text (field.2.toList.flatMap dumpsChar)))
  have hsum := List.sum_le_sum fun field (_ : field ∈ event) => hmember field
  rw [List.map_map] at hobject
  refine (size_ofList_le _).trans (Nat.mul_le_mul_left 4 (hobject.trans ?_))
  exact Nat.add_le_add_left hsum 2

theorem encodes_dumps (event : PublishedEvent) : Encodes event (dumps event) := by
  refine ⟨event.map fun field => (field.1, .text (field.2.toList.flatMap dumpsChar)), ?_, ?_⟩
  · rw [dumps, String.toList_ofList]
    refine spells_writeObject fun m hm => ?_
    obtain ⟨field, -, rfl⟩ := List.mem_map.mp hm
    exact .text (closed_flatMap dumpsChar_cases _)
  · refine List.forall₂_map_left_iff.mpr (List.forall₂_same.mpr fun field _ => ⟨rfl, _, rfl, ?_, ?_⟩)
    · exact unquote_flatMap dumpsChar_cases _
    · exact flatMap_dumpsChar

/-- What a value of a dictionary is for the service. -/
def scalarOf (name value : String) : Option Scalar :=
  match fieldTypes.lookup name with
  | some .text => some (.text value)
  | some .time => (parseTime value.toList).map .time
  | _ => none

/-- The event that a dictionary is for the service. -/
def executionOf (event : PublishedEvent) : Execution :=
  .ofFields fun name => (event.lookup name).bind (scalarOf name)

/-- The texts and times of a dictionary that the service knows. -/
inductive Field : String × String → Prop where
  | text {name value : String} : (name, FieldType.text) ∈ fieldTypes → Field (name, value)
  | time {name value : String} {t : Time} : (name, FieldType.time) ∈ fieldTypes →
      value.toList.all isVerbatim = true → parseTime value.toList = some t → Field (name, value)

section decode

variable {round : RoundFloat} {event : PublishedEvent} {ms : List (String × Literal)}
  {m : String × Literal} {field : String × String} {body : String}

theorem lookup_fieldTypes {name : String} {type : FieldType} (h : (name, type) ∈ fieldTypes) :
    fieldTypes.lookup name = some type := by
  have hall : ∀ f ∈ fieldTypes, fieldTypes.lookup f.1 = some f.2 := by decide +kernel
  exact hall _ h

/-- A member of a known field is stored as what its value is. -/
theorem exists_stored (hwrites : Writes m field) (hfield : Field field) : ∃ type scalar,
    fieldNamed m.1 = some (field.1, type) ∧ scalarOf field.1 field.2 = some scalar ∧
      store round type m.2 = some (some scalar) := by
  obtain ⟨hkey, raw, hraw, hunquote, hverbatim⟩ := hwrites
  cases hfield with
  | @text name value hmem =>
    refine ⟨.text, .text value, ?_, ?_, ?_⟩
    · rw [hkey]
      exact fieldNamed_of_mem hmem
    · simp [scalarOf, lookup_fieldTypes hmem]
    · simp [hraw, store, hunquote]
  | @time name value t hmem hplain ht =>
    refine ⟨.time, .time t, ?_, ?_, ?_⟩
    · rw [hkey]
      exact fieldNamed_of_mem hmem
    · simp [scalarOf, lookup_fieldTypes hmem, ht]
    · simp [hraw, hverbatim hplain, store, ht]

/-- Members with different keys mean what the dictionary holds. -/
theorem lastMeaning_eq_lookup (hms : List.Forall₂ Writes ms event)
    (hkeys : (event.map Prod.fst).Nodup) (hfields : ∀ field ∈ event, Field field) (name : String) :
    lastMeaning round name ms = (event.lookup name).bind (scalarOf name) := by
  induction hms with
  | nil => rfl
  | @cons m field ms event hwrites hms ih =>
    obtain ⟨hnew, hrest⟩ := List.nodup_cons.mp hkeys
    obtain ⟨hfield, hothers⟩ := List.forall_mem_cons.mp hfields
    obtain ⟨type, scalar, hnamed, hscalar, hstore⟩ := exists_stored hwrites hfield
    obtain ⟨key, value⟩ := field
    obtain ⟨key', literal⟩ := m
    rw [lastMeaning, ih hrest hothers]
    by_cases hname : key = name
    · subst hname
      have hnone : event.lookup key = none := by
        refine List.lookup_eq_none_iff.mpr fun f hf => ?_
        exact bne_iff_ne.mpr fun heq => hnew (List.mem_map.mpr ⟨f, hf, heq.symm⟩)
      rw [hnone, memberMeaning_of_field hnamed, meaning_of_store hstore, List.lookup_cons_self]
      simpa using hscalar.symm
    · rw [memberMeaning_of_ne hnamed hname, List.lookup_cons]
      simp [beq_false_of_ne (Ne.symm hname)]

/-- A text of a dictionary of known fields is decoded to what the dictionary says. -/
theorem decode_of_encodes (hkeys : (event.map Prod.fst).Nodup) (hfields : ∀ field ∈ event, Field field)
    (h : Encodes event body) (hsize : body.utf8ByteSize ≤ maxBytes) :
    decodeBody round body = .single (executionOf event) := by
  obtain ⟨ms, hspells, hms⟩ := h
  have hdecodes : ∀ m ∈ ms, Decodes round m := by
    intro m hm
    obtain ⟨field, hfield, hwrites⟩ := exists_right_of_mem hms hm
    obtain ⟨type, scalar, hnamed, -, hstore⟩ := exists_stored hwrites (hfields field hfield)
    exact ⟨_, type, _, hnamed, hstore⟩
  obtain ⟨fields, hdecoded⟩ := exists_decoded hdecodes fun _ => none
  have hbody := decodeBody_of_spells hspells hsize hdecoded
  rw [hbody, eq_ofFields hspells hbody]
  refine congrArg (fun fields => Decoded.single (.ofFields fields)) ?_
  funext name
  exact lastMeaning_eq_lookup hms hkeys hfields name

end decode

/-! ## The spans as events -/

section spans

variable {asUri : String → String} {args : Args} {trace artifact kind status : String}
  {fields : PublishedEvent} {started stopped : ℤ}

/-- The event of a span. -/
def spanExecution (args : Args) (trace kind status : String) (started stopped : ℤ)
    (fields : PublishedEvent) : Execution where
  eventId := trace ++ "-" ++ kind
  startedAt := ⟨started * 1000, 0⟩
  endedAt := ⟨stopped * 1000, 0⟩
  tenantId := args.tenant
  cluster := args.cluster
  ns := args.ns
  traceId := trace
  runId := trace ++ "-run"
  parentId := if kind = "run" then "" else trace ++ "-run"
  agent := args.agent
  kind := kind
  name := args.tool
  status := status
  tool := fields.get "tool"
  artifactUri := fields.get "artifactUri"
  artifactType := fields.get "artifactType"
  errorType := fields.get "errorType"

theorem textOf_lookup {event : PublishedEvent} {name : String}
    (h : (name, FieldType.text) ∈ fieldTypes) :
    textOf ((event.lookup name).bind (scalarOf name)) = event.get name := by
  unfold PublishedEvent.get
  cases event.lookup name with
  | none => rfl
  | some value => simp [scalarOf, lookup_fieldTypes h, textOf]

theorem timeOf_lookup {event : PublishedEvent} {name : String}
    (h : (name, FieldType.time) ∈ fieldTypes) {micros : ℤ} (hrange : InRange micros)
    (hvalue : event.lookup name = some (isoformat micros)) :
    timeOf ((event.lookup name).bind (scalarOf name)) = ⟨micros * 1000, 0⟩ := by
  simp [hvalue, scalarOf, lookup_fieldTypes h, parseTime_isoformat hrange, timeOf]

theorem executionOf_spanEvent (h : Details asUri args artifact kind status fields)
    (hstarted : InRange started) (hstopped : InRange stopped) :
    executionOf (spanEvent args trace kind (isoformat started) (isoformat stopped) status fields) =
      spanExecution args trace kind status started stopped fields := by
  rw [spanEvent_eq h]
  unfold executionOf Execution.ofFields
  have hstart : (common args trace kind (isoformat started) (isoformat stopped) status ++ fields).lookup
      "startedAt" = some (isoformat started) := by
    simp [common, spanEvent, update, List.lookup_cons]
  have hstop : (common args trace kind (isoformat started) (isoformat stopped) status ++ fields).lookup
      "endedAt" = some (isoformat stopped) := by
    simp [common, spanEvent, update, List.lookup_cons]
  simp (disch := decide) only [textOf_lookup]
  rw [timeOf_lookup (by decide) hstarted hstart, timeOf_lookup (by decide) hstopped hstop]
  cases h <;> simp [common, spanEvent, update, spanExecution, PublishedEvent.get, List.lookup_cons] <;> rfl

theorem fields_spanEvent (h : Details asUri args artifact kind status fields)
    (hstarted : InRange started) (hstopped : InRange stopped) {event : PublishedEvent}
    (hevent : event =
      spanEvent args trace kind (isoformat started) (isoformat stopped) status fields) :
    (event.map Prod.fst).Nodup ∧ ∀ field ∈ event, Field field := by
  have htext : ∀ name value, (name, FieldType.text) ∈ fieldTypes → Field (name, value) :=
    fun _ _ => .text
  have htime : ∀ {name micros}, (name, FieldType.time) ∈ fieldTypes → InRange micros →
      Field (name, isoformat micros) := fun hmem hrange =>
    .time hmem (List.all_eq_true.mpr fun c hc => isVerbatim_of_isTimeChar (isoformat_chars _ c hc))
      (parseTime_isoformat hrange)
  have hstart : Field ("startedAt", isoformat started) := htime (by decide) hstarted
  have hstop : Field ("endedAt", isoformat stopped) := htime (by decide) hstopped
  rw [hevent, spanEvent_eq h]
  cases h <;> simp (disch := decide) [common, spanEvent, update, htext, hstart, hstop]

theorem notBlank_append {s : String} (h : NotBlank s) (t : String) : NotBlank (s ++ t) := by
  obtain ⟨c, hc, hspace⟩ := h
  refine ⟨c, ?_, hspace⟩
  rw [String.toList_append]
  exact List.mem_append_left _ hc

/-- The arguments that every span carries are not blank. -/
structure Args.Filled (args : Args) : Prop where
  tenant : NotBlank args.tenant
  cluster : NotBlank args.cluster
  ns : NotBlank args.ns
  agent : NotBlank args.agent
  tool : NotBlank args.tool

theorem contract_spanExecution (h : Details asUri args artifact kind status fields)
    (htrace : NotBlank trace) (huri : ∀ path, asUri path ≠ "") (hstarted : InRange started)
    (hstopped : InRange stopped) (horder : started ≤ stopped) :
    (spanExecution args trace kind status started stopped fields).Contract ↔ args.Filled := by
  constructor
  · intro hcontract
    exact ⟨hcontract.required .tenantId, hcontract.required .cluster, hcontract.required .ns,
      hcontract.required .agent, hcontract.required .name⟩
  · intro hfilled
    have hzero := hstarted.after_zero
    have hzero' := hstopped.after_zero
    have hkind : NotBlank kind := by
      cases h
      all_goals first
        | exact ⟨'t', by decide, by decide⟩
        | exact ⟨'r', by decide, by decide⟩
    have hstatus : NotBlank status := by
      cases h
      all_goals exact ⟨'e', by decide, by decide⟩
    constructor
    case required =>
      intro field
      cases field with
      | eventId => exact notBlank_append (notBlank_append htrace _) _
      | tenantId => exact hfilled.tenant
      | cluster => exact hfilled.cluster
      | ns => exact hfilled.ns
      | traceId => exact htrace
      | runId => exact notBlank_append htrace _
      | agent => exact hfilled.agent
      | kind => exact hkind
      | name => exact hfilled.tool
      | status => exact hstatus
    case started => exact ne_of_gt hzero
    case ended => exact ne_of_gt hzero'
    case ordered =>
      simp only [spanExecution]
      omega
    case status => cases h <;> simp [spanExecution]
    case nonnegative => exact ⟨le_refl 0, le_refl 0, le_refl 0⟩
    case parent => cases h <;> simp [spanExecution, String.append_assoc]
    case usage => exact fun _ => ⟨rfl, rfl, rfl⟩
    case detailed =>
      cases h with
      | toolFailed error => exact .tool rfl (ne_empty_of_notBlank hfilled.tool)
      | tool => exact .tool rfl (ne_empty_of_notBlank hfilled.tool)
      | artifact =>
        exact .artifact rfl (huri _)
          (by simp [spanExecution, PublishedEvent.get, List.lookup_cons])
      | runFailed error => exact .run rfl
      | run => exact .run rfl

/-! ## The spans of an execution -/

variable {tr : List Exchange} {r : Executed} {start stop : ℤ} {course : Course}
  {event : PublishedEvent}

/-- The form of every span, with two readings of the clock in their order. -/
theorem details_of_reports (h : Reports asUri args tr r start stop course)
    (hevent : event ∈ r.events) : ∃ kind status fields started stopped,
      Details asUri args r.artifact kind status fields ∧
      event = spanEvent args r.trace kind (isoformat started) (isoformat stopped) status fields ∧
      [started, stopped].Sublist (readings tr) := by
  rw [h.events, List.mem_append, List.mem_singleton] at hevent
  rw [h.times]
  rcases hevent with hevent | rfl
  · obtain ⟨kind, status, fields, started, stopped, hdetails, -, heq, hsublist⟩ := mem_spans hevent
    exact ⟨kind, status, fields, started, stopped, hdetails, heq,
      .cons _ (hsublist.trans (List.sublist_append_left ..))⟩
  · obtain ⟨fields, hdetails, heq⟩ := runSpan_eq asUri args r.trace r.artifact r.error start stop
    exact ⟨_, _, fields, start, stop, hdetails, heq, by simp⟩

/-- The clock of an execution does not go back. -/
structure Clock (tr : List Exchange) : Prop where
  sorted : (readings tr).Pairwise (· ≤ ·)
  inRange : ∀ micros ∈ readings tr, InRange micros

/-- What a span of an execution is for the service. -/
theorem span_of_reports (h : Reports asUri args tr r start stop course) (hclock : Clock tr)
    (hevent : event ∈ r.events) : ∃ kind status fields started stopped,
      Details asUri args r.artifact kind status fields ∧
      event = spanEvent args r.trace kind (isoformat started) (isoformat stopped) status fields ∧
      executionOf event = spanExecution args r.trace kind status started stopped fields ∧
      InRange started ∧ InRange stopped ∧ started ≤ stopped ∧ stopped ∈ readings tr := by
  obtain ⟨kind, status, fields, started, stopped, hdetails, rfl, hsublist⟩ :=
    details_of_reports h hevent
  have hstarted := hclock.inRange started (hsublist.subset (by simp))
  have hstopped := hclock.inRange stopped (hsublist.subset (by simp))
  refine ⟨kind, status, fields, started, stopped, hdetails, rfl,
    executionOf_spanEvent hdetails hstarted hstopped, hstarted, hstopped, ?_,
    hsublist.subset (by simp)⟩
  simpa using hclock.sorted.sublist hsublist

theorem notBlank_trace (h : Reports asUri args tr r start stop course) : NotBlank r.trace := by
  obtain ⟨hex, -, htrace⟩ := h.traced
  rw [htrace]
  exact notBlank_append ⟨'m', by decide, by decide⟩ hex

theorem marshal_spanExecution (hstarted : InRange started) (hstopped : InRange stopped) :
    (spanExecution args trace kind status started stopped fields).utc.marshal =
      some (spanExecution args trace kind status started stopped fields).members :=
  marshal_of_writable ⟨hstarted.marshals, hstopped.marshals⟩

theorem lookup_of_reports (h : Reports asUri args tr r start stop course) (hclock : Clock tr)
    (hevent : event ∈ r.events) : event.lookup "eventId" = some (executionOf event).eventId := by
  obtain ⟨kind, status, fields, started, stopped, hdetails, heq, hexecution, -⟩ :=
    span_of_reports h hclock hevent
  rw [hexecution, heq, lookup_eventId hdetails]
  rfl

/-- Spans that are the same event for the service are the same. -/
theorem eq_of_eventId (h : Reports asUri args tr r start stop course) (hclock : Clock tr)
    {event' : PublishedEvent} (hevent : event ∈ r.events) (hevent' : event' ∈ r.events)
    (hid : (executionOf event).eventId = (executionOf event').eventId) : event = event' := by
  have hget : event.get "eventId" = event'.get "eventId" := by
    unfold PublishedEvent.get
    rw [lookup_of_reports h hclock hevent, lookup_of_reports h hclock hevent', hid]
  exact (distinctIds_of_reports h).eq_of_get hevent hevent' hget

theorem decode_of_reports {round : RoundFloat} (h : Reports asUri args tr r start stop course)
    (hclock : Clock tr) (hevent : event ∈ r.events) {body : String} (hbody : Encodes event body)
    (hsize : body.utf8ByteSize ≤ maxBytes) : decodeBody round body = .single (executionOf event) := by
  obtain ⟨kind, status, fields, started, stopped, hdetails, heq, -, hstarted, hstopped, -⟩ :=
    span_of_reports h hclock hevent
  obtain ⟨hkeys, hfields⟩ := fields_spanEvent hdetails hstarted hstopped heq
  exact decode_of_encodes hkeys hfields hbody hsize

/-- Every text of a span that `execute` has reported is decoded to the event that the
    dictionary is.  The service accepts it exactly if the arguments that all spans carry are
    not blank and it ends within the time that is accepted. -/
theorem span_accepted_iff {round : RoundFloat} (hexec : Exec (execute asUri args).run tr (.ok r))
    (hclock : Clock tr) (huri : ∀ path, asUri path ≠ "") (hevent : event ∈ r.events) {body : String}
    (hbody : Encodes event body) (hsize : body.utf8ByteSize ≤ maxBytes) :
    decodeBody round body = .single (executionOf event) ∧
      event.lookup "eventId" = some (executionOf event).eventId ∧
      (executionOf event).utc.marshal = some (executionOf event).members ∧
      (∃ micros ∈ readings tr, (executionOf event).endedAt = ⟨micros * 1000, 0⟩) ∧
      ∀ order now retention, (executionOf event).validate order now retention = none ↔
        args.Filled ∧ (executionOf event).Timely now retention := by
  obtain ⟨start, stop, course, hreports⟩ := reports_of_exec hexec
  obtain ⟨kind, status, fields, started, stopped, hdetails, -, hexecution, hstarted, hstopped,
    horder, hreading⟩ := span_of_reports hreports hclock hevent
  refine ⟨decode_of_reports hreports hclock hevent hbody hsize,
    lookup_of_reports hreports hclock hevent, ?_, ⟨stopped, hreading, ?_⟩, ?_⟩
  · rw [hexecution]
    exact marshal_spanExecution hstarted hstopped
  · rw [hexecution]
    rfl
  · intro order now retention
    rw [validate_eq_none_iff, hexecution,
      contract_spanExecution hdetails (notBlank_trace hreports) huri hstarted hstopped horder]

end spans

theorem clock_weather : Clock weather.2.1 := by
  obtain ⟨_, -, -, hreadings⟩ := exists_weather
  have hrange : ∀ {micros : ℤ}, 0 < micros → micros < 2000000000000000 → InRange micros := by
    intro micros hpos hlt
    constructor
    · unfold Time.zero
      omega
    · omega
  constructor
  · rw [hreadings]
    decide
  · rw [hreadings]
    simp [hrange]

theorem size_dumps_weather : ∀ event ∈ weatherSpans, (dumps event).utf8ByteSize ≤ maxBytes := by
  have hlengths : ∀ event ∈ weatherSpans,
      4 * (2 + (event.map fun field => 6 * (field.1.length + field.2.length) + 6).sum) ≤ maxBytes := by
    decide +kernel
  exact fun event hevent => (size_dumps_le event).trans (hlengths event hevent)

theorem span_accepted_iff_weather : ∃ r : Executed, r.events = weatherSpans ∧ ∀ event ∈ r.events,
    decodeBody (fun q => some q) (dumps event) = .single (executionOf event) ∧
      ∀ order now retention, (executionOf event).validate order now retention = none ↔
        weatherArgs.Filled ∧ (executionOf event).Timely now retention := by
  obtain ⟨r, hexec, hevents, -⟩ := exists_weather
  refine ⟨r, hevents, fun event hevent => ?_⟩
  have hsize := size_dumps_weather event (hevents ▸ hevent)
  have huri : ∀ path, fileUri path ≠ "" := by simp [fileUri]
  obtain ⟨hdecode, -, -, -, hvalidate⟩ :=
    span_accepted_iff hexec clock_weather huri hevent (encodes_dumps event) hsize
  exact ⟨hdecode, hvalidate⟩

end CubeOperator.Telemetry.Mcp
