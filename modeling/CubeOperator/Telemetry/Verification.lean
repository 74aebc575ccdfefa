import CubeOperator.Lib.Json
import CubeOperator.Telemetry.Producer
import Mathlib.Data.List.AList
import Mathlib.Data.Finset.Card
import Mathlib.Data.List.Perm.Basic

/-! # The verification of a trace

    `publish_and_verify` in `demo/mcp_execution.py` from its publish loop to its end: the
    trace is queried from Cube until Cube has an answer, at most twenty times, and the
    rows are compared with the events.

    The values of Python that the comparison meets are those of a JSON response, and the
    texts of the events. -/

namespace CubeOperator.Telemetry.Verification

open Interaction

/-! ## The query -/

/-- An event as the dictionary that is posted. -/
abbrev PublishedEvent : Type := List (String × String)

/-- `event.get(name, "")` -/
def PublishedEvent.get (event : PublishedEvent) (name : String) : String :=
  (event.lookup name).getD ""

def names : List String := ["eventId", "parentId", "kind", "status", "tool", "artifactUri"]

def member (name : String) : String := "AgentExecutions." ++ name

def query (trace : String) : Json :=
  .obj [("query", .obj [
    ("dimensions", .arr (names.map fun name => .str (member name))),
    ("filters", .arr [.obj [("member", .str "AgentExecutions.traceId"), ("operator", .str "equals"),
      ("values", .arr [.str trace])]]),
    ("limit", .num 100)])]

/-- What `client.post` gives for a query: a response, its body if it is JSON, or an
    exception. -/
inductive CubeResponse where
  | response (status : ℕ) (body : Option Json)
  | raised
  deriving DecidableEq

inductive CubeCall where
  | post (body : Json)
  | sleep
  deriving DecidableEq

@[reducible] def CubeAnswer : CubeCall → Type
  | .post _ => CubeResponse
  | .sleep => Unit

inductive VerificationError where
  | publishing (error : PublishError)
  | runtimeError (message : String)
  /-- From `raise_for_status`. -/
  | httpStatusError (status : ℕ)
  | keyError (key : String)
  | typeError
  | attributeError
  | raised
  deriving DecidableEq

abbrev Verifying : Type → Type := Attempt CubeCall CubeAnswer VerificationError

/-! ## Reading the response -/

/-- `raise_for_status` and `json` -/
def CubeResponse.json : CubeResponse → Except VerificationError Json
  | .raised => .error .raised
  | .response status body =>
    if 200 ≤ status ∧ status < 300 then
      match body with
      | some result => .ok result
      | none => .error .raised
    else .error (.httpStatusError status)

/-- `value.get(key)`, where `None` is no value. -/
def getKey (value : Json) (key : String) : Except VerificationError (Option Json) :=
  match value with
  | .obj fs => .ok (Json.lookup key fs)
  | _ => .error .attributeError

/-- `value[key]` -/
def subscript (value : Json) (key : String) : Except VerificationError Json :=
  match value with
  | .obj fs =>
    match Json.lookup key fs with
    | some v => .ok v
    | none => .error (.keyError key)
  | _ => .error .typeError

/-- `event[key]` -/
def PublishedEvent.subscript (event : PublishedEvent) (key : String) :
    Except VerificationError String :=
  match event.lookup key with
  | some v => .ok v
  | none => .error (.keyError key)

/-- What a loop over a value goes through: the keys of a dictionary, the characters of a
    text. -/
def elements : Json → Except VerificationError (List Json)
  | .arr items => .ok items
  | .obj fs => .ok (fs.map fun f => .str f.1)
  | .str s => .ok (s.toList.map fun c => .str (String.ofList [c]))
  | _ => .error .typeError

/-- A value as a key of a dictionary, for which `True` is `1`. -/
def hashed : Json → Except VerificationError Json
  | .bool b => .ok (.num (if b then 1 else 0))
  | .arr _ => .error .typeError
  | .obj _ => .error .typeError
  | value => .ok value

/-- `{row["AgentExecutions.eventId"]: row for row in data}` -/
def collect : AList (fun _ : Json => Json) → List Json →
    Except VerificationError (AList fun _ : Json => Json)
  | rows, [] => .ok rows
  | rows, row :: data => do
    let id ← subscript row (member "eventId")
    let key ← hashed id
    collect (rows.insert key row) data

/-- The comparison of a row with its event. -/
def compareRow (rows : AList fun _ : Json => Json) (event : PublishedEvent) :
    Except VerificationError Unit :=
  forM names fun name => do
    let id ← event.subscript "eventId"
    match rows.lookup (.str id) with
    | none => throw (.keyError id)
    | some row => do
      let value ← getKey row (member name)
      if value ≠ some (.str (event.get name)) then
        throw (.runtimeError ("Cube trace mismatch: " ++ name))

/-- The comparison of the rows with the events. -/
def compareRows (events : List PublishedEvent) (data : Json) : Except VerificationError Json := do
  let items ← elements data
  let rows ← collect ∅ items
  let ids ← events.mapM fun event => event.subscript "eventId"
  if rows.keys.toFinset ≠ (ids.map Json.str).toFinset then
    throw (.runtimeError "Cube returned missing, duplicate, or unexpected trace events")
  if items.length ≠ events.length then
    throw (.runtimeError "Cube returned duplicate trace events")
  forM events (compareRow rows)
  pure data

/-! ## The loop -/

abbrev load (trace : String) : Verifying CubeResponse :=
  ExceptT.lift (Program.perform (CubeCall.post (query trace)))

abbrev pause : Verifying Unit := ExceptT.lift (Program.perform CubeCall.sleep)

/-- The loop over the queries that are left. -/
def verify (events : List PublishedEvent) (trace : String) : ℕ → Verifying Json
  | 0 => throw (.runtimeError "Cube did not finish the trace query within the retry limit")
  | n + 1 => do
    let response ← load trace
    let result ← Attempt.ofExcept response.json
    let error ← Attempt.ofExcept (getKey result "error")
    if error = some (.str "Continue wait") then do
      pause
      verify events trace n
    else do
      .failIf error.isSome (.runtimeError "Cube rejected the trace query")
      let data ← Attempt.ofExcept (subscript result "data")
      Attempt.ofExcept (compareRows events data)

/-- The function as a whole, with the JSON text of an event. -/
def publishAndVerify (encode : PublishedEvent → String) (events : List PublishedEvent)
    (trace : String) : Attempt (ProducerCall ⊕ CubeCall) (Sum.elim ProducerAnswer CubeAnswer)
      VerificationError Json :=
  ExceptT.mk ((publish (events.map encode)).run.left >>= fun published =>
    match published with
    | .error error => .ret (.error (.publishing error))
    | .ok () => (verify events trace 20).run.right)

/-! ## What the comparison accepts -/

/-- The events carry pairwise distinct ids. -/
structure DistinctIds (events : List PublishedEvent) : Prop where
  given : ∀ event ∈ events, (event.lookup "eventId").isSome
  distinct : (events.map fun event => event.get "eventId").Nodup

/-- A row that shows the event. -/
def Agrees (event : PublishedEvent) (row : Json) : Prop :=
  ∃ fs, row = .obj fs ∧ ∀ name ∈ names, Json.lookup (member name) fs = some (.str (event.get name))

/-- The data is one row for each event, in any order. -/
def OneRowEach (events : List PublishedEvent) (data : Json) : Prop :=
  ∃ items, elements data = .ok items ∧ ∃ rows, rows.Perm items ∧ List.Forall₂ Agrees events rows

/-- The key of a row in the dictionary of rows. -/
def HasKey (row key : Json) : Prop :=
  ∃ id, subscript row (member "eventId") = .ok id ∧ hashed id = .ok key

variable {events : List PublishedEvent} {event : PublishedEvent} {data row key : Json}
  {items : List Json} {rows rows' : AList fun _ : Json => Json}

theorem HasKey.unique {key' : Json} (h : HasKey row key) (h' : HasKey row key') : key = key' := by
  obtain ⟨id, hid, hkey⟩ := h
  obtain ⟨id', hid', hkey'⟩ := h'
  obtain rfl : id = id' := Except.ok.inj (hid.symm.trans hid')
  exact Except.ok.inj (hkey.symm.trans hkey')

theorem collect_cons_iff : collect rows (row :: items) = .ok rows' ↔
    ∃ key, HasKey row key ∧ collect (rows.insert key row) items = .ok rows' := by
  rw [collect]
  simp only [bind_eq_ok_iff]
  constructor
  · rintro ⟨id, hid, key, hkey, h⟩
    exact ⟨key, ⟨id, hid, hkey⟩, h⟩
  · rintro ⟨key, ⟨id, hid, hkey⟩, h⟩
    exact ⟨id, hid, key, hkey, h⟩

/-- What the dictionary holds under a key is a row with that key. -/
theorem lookup_collect (h : collect rows items = .ok rows') (hlookup : rows'.lookup key = some row) :
    (row ∈ items ∧ HasKey row key) ∨ rows.lookup key = some row := by
  induction items generalizing rows with
  | nil =>
    obtain rfl : rows = rows' := Except.ok.inj h
    exact .inr hlookup
  | cons first items ih =>
    obtain ⟨key', hkey', hrest⟩ := collect_cons_iff.mp h
    rcases ih hrest with ⟨hmem, hkey⟩ | hinserted
    · exact .inl ⟨List.mem_cons_of_mem _ hmem, hkey⟩
    · by_cases heq : key = key'
      · subst heq
        rw [AList.lookup_insert] at hinserted
        obtain rfl := Option.some.inj hinserted
        exact .inl ⟨List.mem_cons_self, hkey'⟩
      · rw [AList.lookup_insert_ne heq] at hinserted
        exact .inr hinserted

/-- Rows that have keys are collected under them. -/
theorem exists_collect (rows : AList fun _ : Json => Json)
    (h : ∀ row ∈ items, ∃ key, HasKey row key) : ∃ rows', collect rows items = .ok rows' ∧
      ∀ key, key ∈ rows' ↔ key ∈ rows ∨ ∃ row ∈ items, HasKey row key := by
  induction items generalizing rows with
  | nil => exact ⟨rows, rfl, by simp⟩
  | cons first items ih =>
    obtain ⟨⟨key, hkey⟩, hitems⟩ := List.forall_mem_cons.mp h
    obtain ⟨rows', hcollect, hkeys⟩ := ih (rows.insert key first) hitems
    refine ⟨rows', collect_cons_iff.mpr ⟨key, hkey, hcollect⟩, fun key' => ?_⟩
    have hfirst : HasKey first key' ↔ key' = key :=
      ⟨fun hkey' => hkey'.unique hkey, fun heq => heq ▸ hkey⟩
    rw [hkeys, AList.mem_insert, List.exists_mem_cons_iff, hfirst]
    tauto

/-- A row that shows an event has the id of the event as its key. -/
theorem Agrees.hasKey (h : Agrees event row) : HasKey row (.str (event.get "eventId")) := by
  obtain ⟨fs, rfl, hfields⟩ := h
  refine ⟨.str _, ?_, rfl⟩
  simp only [subscript, hfields "eventId" (by decide)]

theorem PublishedEvent.subscript_eq_ok_iff {name value : String} :
    event.subscript name = .ok value ↔ event.lookup name = some value := by
  unfold PublishedEvent.subscript
  cases event.lookup name <;> simp

theorem PublishedEvent.get_of_lookup {name value : String} (h : event.lookup name = some value) :
    event.get name = value := by
  rw [PublishedEvent.get, h, Option.getD_some]

/-- One field of the comparison. -/
theorem compareField_eq_ok_iff {name : String} :
    (do
      let value ← getKey row (member name)
      if value ≠ some (.str (event.get name)) then
        throw (.runtimeError ("Cube trace mismatch: " ++ name)) : Except VerificationError Unit) =
      .ok () ↔ ∃ fs, row = .obj fs ∧ Json.lookup (member name) fs = some (.str (event.get name)) := by
  rw [bind_eq_ok_iff]
  constructor
  · rintro ⟨value, hvalue, hcompare⟩
    split at hcompare
    · cases hcompare
    · rename_i heq
      obtain rfl := not_not.mp heq
      cases row with
      | obj fs => exact ⟨fs, rfl, Except.ok.inj hvalue⟩
      | _ => cases hvalue
  · rintro ⟨fs, rfl, hfield⟩
    exact ⟨_, congrArg Except.ok hfield, if_neg (not_not.mpr rfl)⟩

/-- The comparison of an event passes if and only if the row under its id shows it. -/
theorem compareRow_eq_ok_iff {id : String} (hid : event.lookup "eventId" = some id) :
    compareRow rows event = .ok () ↔ ∃ row, rows.lookup (.str id) = some row ∧ Agrees event row := by
  have hsubscript := PublishedEvent.subscript_eq_ok_iff.mpr hid
  unfold compareRow
  rw [forM_eq_ok_iff]
  simp only [bind_eq_ok_iff, hsubscript]
  cases hrow : rows.lookup (.str id) with
  | none =>
    constructor
    · intro h
      obtain ⟨_, ⟨⟩, hmissing⟩ := h "eventId" (by decide)
      rw [hrow] at hmissing
      cases hmissing
    · rintro ⟨_, ⟨⟩, -⟩
  | some row =>
    constructor
    · intro h
      have hfield : ∀ name ∈ names, ∃ fs, row = .obj fs ∧
          Json.lookup (member name) fs = some (.str (event.get name)) := by
        intro name hname
        obtain ⟨_, ⟨⟩, hcompare⟩ := h name hname
        rw [hrow] at hcompare
        exact compareField_eq_ok_iff.mp hcompare
      obtain ⟨fs, rfl, -⟩ := hfield "eventId" (by decide)
      refine ⟨_, rfl, fs, rfl, fun name hname => ?_⟩
      obtain ⟨_, ⟨⟩, heq⟩ := hfield name hname
      exact heq
    · rintro ⟨_, ⟨⟩, fs, rfl, hfields⟩ name hname
      refine ⟨id, rfl, ?_⟩
      rw [hrow]
      exact compareField_eq_ok_iff.mpr ⟨fs, rfl, hfields name hname⟩

theorem DistinctIds.lookup (h : DistinctIds events) (hevent : event ∈ events) :
    event.lookup "eventId" = some (event.get "eventId") := by
  obtain ⟨id, hid⟩ := Option.isSome_iff_exists.mp (h.given event hevent)
  rw [PublishedEvent.get_of_lookup hid, hid]

/-- Events with the same id are the same. -/
theorem DistinctIds.eq_of_get (h : DistinctIds events) {event' : PublishedEvent}
    (hevent : event ∈ events) (hevent' : event' ∈ events)
    (heq : event.get "eventId" = event'.get "eventId") : event = event' :=
  List.inj_on_of_nodup_map h.distinct hevent hevent' heq

/-- Rows that show distinct events are distinct. -/
theorem nodup_of_agrees (h : DistinctIds events) {shown : List Json}
    (hagrees : List.Forall₂ Agrees events shown) : shown.Nodup := by
  have hids : shown.map (fun row => row.get? (member "eventId")) =
      (events.map fun event => event.get "eventId").map fun id => some (Json.str id) := by
    induction hagrees with
    | nil => rfl
    | @cons event row events shown hrow _ ih =>
      obtain ⟨fs, rfl, hfields⟩ := hrow
      have hrest : DistinctIds events :=
        ⟨fun event hevent => h.given event (List.mem_cons_of_mem _ hevent),
          (List.nodup_cons.mp h.distinct).2⟩
      rw [List.map_cons, List.map_cons, List.map_cons, ih hrest, Json.get?, Json.fields_obj,
        hfields "eventId" (by decide)]
  refine List.Nodup.of_map (fun row => row.get? (member "eventId")) ?_
  rw [hids]
  exact h.distinct.map fun id id' heq => Json.str.inj (Option.some.inj heq)

/-- With a row of its own for each event there is no room for another row. -/
theorem oneRowEach_of_agrees (h : DistinctIds events) (hdata : elements data = .ok items)
    (hlength : items.length = events.length)
    (hagrees : ∀ event ∈ events, ∃ row ∈ items, Agrees event row) : OneRowEach events data := by
  obtain ⟨shown, hshown, hmem⟩ : ∃ shown, List.Forall₂ Agrees events shown ∧
      ∀ row ∈ shown, row ∈ items := by
    clear hlength h hdata
    induction events with
    | nil => exact ⟨[], .nil, by simp⟩
    | cons event events ih =>
      obtain ⟨⟨row, hrow, hfirst⟩, hrest⟩ := List.forall_mem_cons.mp hagrees
      obtain ⟨shown, hshown, hmem⟩ := ih hrest
      exact ⟨row :: shown, .cons hfirst hshown, List.forall_mem_cons.mpr ⟨hrow, hmem⟩⟩
  have hsub : shown.Subperm items := (nodup_of_agrees h hshown).subperm hmem
  refine ⟨items, hdata, shown, hsub.perm_of_length_le ?_, hshown⟩
  rw [hlength, hshown.length_eq]

/-- The comparison accepts the data if and only if it is one row for each event. -/
theorem compareRows_eq_ok_iff (h : DistinctIds events) {data' : Json} :
    compareRows events data = .ok data' ↔ data' = data ∧ OneRowEach events data := by
  have hids : events.mapM (fun event => event.subscript "eventId") =
      .ok (events.map fun event => event.get "eventId") := by
    rw [mapM_eq_ok_iff, List.forall₂_map_right_iff, List.forall₂_same]
    exact fun event hevent => PublishedEvent.subscript_eq_ok_iff.mpr (h.lookup hevent)
  unfold compareRows
  simp only [bind_eq_ok_iff, hids]
  constructor
  · rintro ⟨items, hitems, rows, hrows, _, ⟨⟩, hrest⟩
    split at hrest
    · cases hrest
    · split at hrest
      · cases hrest
      · rename_i hlength
        obtain ⟨_, hcompare, heq⟩ := bind_eq_ok_iff.mp hrest
        refine ⟨(Except.ok.inj heq).symm, oneRowEach_of_agrees h hitems (not_not.mp hlength) ?_⟩
        intro event hevent
        obtain ⟨row, hlookup, hagrees⟩ :=
          (compareRow_eq_ok_iff (h.lookup hevent)).mp (forM_eq_ok_iff.mp hcompare event hevent)
        rcases lookup_collect hrows hlookup with ⟨hmem, -⟩ | hnone
        · exact ⟨row, hmem, hagrees⟩
        · cases hnone
  · rintro ⟨rfl, items, hitems, shown, hperm, hshown⟩
    have hevent {row : Json} (hrow : row ∈ items) : ∃ event ∈ events, Agrees event row :=
      exists_left_of_mem hshown (hperm.mem_iff.mpr hrow)
    obtain ⟨rows, hrows, hkeys⟩ := exists_collect ∅ fun row hrow =>
      let ⟨event, _, hagrees⟩ := hevent hrow
      ⟨_, hagrees.hasKey⟩
    have hids' : rows.keys.toFinset =
        ((events.map fun event => event.get "eventId").map Json.str).toFinset := by
      ext key
      rw [List.mem_toFinset, List.mem_toFinset, ← AList.mem_keys, hkeys, List.map_map, List.mem_map]
      constructor
      · rintro (hempty | ⟨row, hrow, hkey⟩)
        · exact absurd hempty (AList.notMem_empty key)
        · obtain ⟨event, hmem, hagrees⟩ := hevent hrow
          exact ⟨event, hmem, hagrees.hasKey.unique hkey⟩
      · rintro ⟨event, hmem, rfl⟩
        obtain ⟨row, hrow, hagrees⟩ := exists_right_of_mem hshown hmem
        exact .inr ⟨row, hperm.mem_iff.mp hrow, hagrees.hasKey⟩
    refine ⟨items, hitems, rows, hrows, _, rfl, ?_⟩
    rw [if_neg (not_not.mpr hids'), if_neg (not_not.mpr (hperm.length_eq.symm.trans hshown.length_eq.symm)),
      bind_eq_ok_iff]
    refine ⟨(), forM_eq_ok_iff.mpr fun event hmem => ?_, rfl⟩
    rw [compareRow_eq_ok_iff (h.lookup hmem)]
    -- The row under the id is that of an event with the id, hence of this event.
    have hmemKeys : (.str (event.get "eventId") : Json) ∈ rows := by
      obtain ⟨row, hrow, hagrees⟩ := exists_right_of_mem hshown hmem
      exact (hkeys _).mpr (.inr ⟨row, hperm.mem_iff.mp hrow, hagrees.hasKey⟩)
    obtain ⟨row, hlookup⟩ := Option.isSome_iff_exists.mp (AList.lookup_isSome.mpr hmemKeys)
    refine ⟨row, hlookup, ?_⟩
    rcases lookup_collect hrows hlookup with ⟨hrow, hkey⟩ | hnone
    · obtain ⟨event', hmem', hagrees⟩ := hevent hrow
      have heq := Json.str.inj (hagrees.hasKey.unique hkey)
      rwa [h.eq_of_get hmem' hmem heq] at hagrees
    · cases hnone

/-! ## Runs -/

variable {trace : String} {n j : ℕ} {responses : ℕ → CubeResponse}

/-- The answers that the publish loop gets, and the number of its posts so far. -/
def answerPosts (posted : ℕ → Posted) (i : ℕ) : (c : ProducerCall) → ProducerAnswer c × ℕ
  | .post _ => (posted i, i + 1)
  | .sleep => ((), i)

/-- The answers of Cube, and the number of queries so far. -/
def answerQueries (responses : ℕ → CubeResponse) (j : ℕ) : (c : CubeCall) → CubeAnswer c × ℕ
  | .post _ => (responses j, j + 1)
  | .sleep => ((), j)

/-- The answer that Cube is not ready. -/
def ContinueWait (response : CubeResponse) : Prop :=
  ∃ fs, response.json = .ok (.obj fs) ∧ Json.lookup "error" fs = some (.str "Continue wait")

/-- A response without an error, the data of which is one row for each event. -/
def Shows (events : List PublishedEvent) (response : CubeResponse) (data : Json) : Prop :=
  ∃ fs, response.json = .ok (.obj fs) ∧ Json.lookup "error" fs = none ∧
    Json.lookup "data" fs = some data ∧ OneRowEach events data

/-- What is done with a response. -/
def proceed (events : List PublishedEvent) (trace : String) (n : ℕ) (response : CubeResponse) :
    Verifying Json := do
  let result ← Attempt.ofExcept response.json
  let error ← Attempt.ofExcept (getKey result "error")
  if error = some (.str "Continue wait") then do
    pause
    verify events trace n
  else do
    .failIf error.isSome (.runtimeError "Cube rejected the trace query")
    let data ← Attempt.ofExcept (subscript result "data")
    Attempt.ofExcept (compareRows events data)

/-- What a response comes to, unless Cube is not ready. -/
def examine (events : List PublishedEvent) (response : CubeResponse) :
    Except VerificationError Json := do
  let result ← response.json
  let error ← getKey result "error"
  if error.isSome then throw (.runtimeError "Cube rejected the trace query")
  let data ← subscript result "data"
  compareRows events data

section proceed

variable {response : CubeResponse}

theorem proceed_of_wait (h : ContinueWait response) :
    proceed events trace n response = (pause >>= fun _ => verify events trace n) := by
  obtain ⟨fs, hjson, herror⟩ := h
  simp [proceed, hjson, getKey, herror]

theorem proceed_of_not_wait (h : ¬ContinueWait response) :
    proceed events trace n response = Attempt.ofExcept (examine events response) := by
  unfold examine proceed
  cases hjson : response.json with
  | error e => rfl
  | ok result =>
    rw [Attempt.ofExcept_ok_bind]
    cases herror : getKey result "error" with
    | error e => simp [herror]
    | ok error =>
      have hother : error ≠ some (.str "Continue wait") := by
        rintro rfl
        cases result with
        | obj fs => exact h ⟨fs, hjson, Except.ok.inj herror⟩
        | _ => cases herror
      rw [Attempt.ofExcept_ok_bind, if_neg hother]
      cases error with
      | some error => simp [herror, throw, throwThe, MonadExceptOf.throw]
      | none => cases hdata : subscript result "data" <;> simp [herror, hdata]

end proceed

/-- One query of the loop. -/
theorem runOn_verify_succ :
    ((verify events trace (n + 1)).run.runOn (answerQueries responses) j).1 =
        ((proceed events trace n (responses j)).run.runOn (answerQueries responses) (j + 1)).1 ∧
      ((verify events trace (n + 1)).run.runOn (answerQueries responses) j).2.2 =
        ((proceed events trace n (responses j)).run.runOn (answerQueries responses) (j + 1)).2.2 :=
  ⟨rfl, rfl⟩

theorem runOn_verify_of_wait (h : ContinueWait (responses j)) :
    ((verify events trace (n + 1)).run.runOn (answerQueries responses) j).1 =
        ((verify events trace n).run.runOn (answerQueries responses) (j + 1)).1 ∧
      ((verify events trace (n + 1)).run.runOn (answerQueries responses) j).2.2 =
        ((verify events trace n).run.runOn (answerQueries responses) (j + 1)).2.2 := by
  rw [runOn_verify_succ.1, runOn_verify_succ.2, proceed_of_wait h]
  exact ⟨rfl, rfl⟩

theorem runOn_verify_of_not_wait (h : ¬ContinueWait (responses j)) :
    ((verify events trace (n + 1)).run.runOn (answerQueries responses) j).1 =
        examine events (responses j) ∧
      ((verify events trace (n + 1)).run.runOn (answerQueries responses) j).2.2 = j + 1 := by
  rw [runOn_verify_succ.1, runOn_verify_succ.2, proceed_of_not_wait h]
  exact ⟨rfl, rfl⟩

/-- Only a response without an error whose data is one row for each event passes. -/
theorem examine_eq_ok_iff (h : DistinctIds events) {response : CubeResponse} :
    examine events response = .ok data ↔ Shows events response data := by
  unfold examine
  simp only [bind_eq_ok_iff]
  constructor
  · intro ⟨result, hjson, error, herror, hrest⟩
    cases result with
    | obj fs =>
      have herror' : Json.lookup "error" fs = error := Except.ok.inj herror
      cases error with
      | some error => cases hrest
      | none =>
        obtain ⟨data', hdata, hcompare⟩ := bind_eq_ok_iff.mp hrest
        obtain ⟨rfl, hrows⟩ := (compareRows_eq_ok_iff h).mp hcompare
        refine ⟨fs, hjson, herror', ?_, hrows⟩
        cases hlookup : Json.lookup "data" fs with
        | none => simp [subscript, hlookup] at hdata
        | some data' => simpa [subscript, hlookup] using hdata
    | _ => cases herror
  · intro ⟨fs, hjson, herror, hdata, hrows⟩
    refine ⟨_, hjson, none, congrArg Except.ok herror, ?_⟩
    have hsubscript : subscript (.obj fs) "data" = .ok data := by simp [subscript, hdata]
    exact bind_eq_ok_iff.mpr ⟨data, hsubscript, (compareRows_eq_ok_iff h).mpr ⟨rfl, hrows⟩⟩

/-- The data is returned if and only if it is what Cube shows after fewer answers than
    there are queries that it is not ready. -/
theorem runOn_verify_eq_ok_iff (h : DistinctIds events) :
    ((verify events trace n).run.runOn (answerQueries responses) j).1 = .ok data ↔
      ∃ k < n, (∀ i < k, ContinueWait (responses (j + i))) ∧
        Shows events (responses (j + k)) data := by
  induction n generalizing j with
  | zero => simp [verify, Program.runOn]
  | succ n ih =>
    by_cases hwait : ContinueWait (responses j)
    · rw [(runOn_verify_of_wait hwait).1, ih]
      constructor
      · rintro ⟨k, hk, hwaits, hshows⟩
        refine ⟨k + 1, by omega, fun i hi => ?_, by rwa [Nat.add_right_comm, Nat.add_assoc] at hshows⟩
        cases i with
        | zero => exact hwait
        | succ i =>
          have hwait' := hwaits i (by omega)
          rwa [Nat.add_right_comm, Nat.add_assoc] at hwait'
      · rintro ⟨k, hk, hwaits, hshows⟩
        cases k with
        | zero =>
          -- Cube is not ready, so it shows nothing.
          obtain ⟨fs, hjson, herror⟩ := hwait
          obtain ⟨fs', hjson', hnone, -⟩ := hshows
          obtain rfl := Json.obj.inj (Except.ok.inj (hjson.symm.trans hjson'))
          rw [hnone] at herror
          cases herror
        | succ k =>
          refine ⟨k, by omega, fun i hi => ?_, by rwa [Nat.add_right_comm, Nat.add_assoc]⟩
          rw [Nat.add_right_comm, Nat.add_assoc]
          exact hwaits (i + 1) (by omega)
    · rw [(runOn_verify_of_not_wait hwait).1, examine_eq_ok_iff h]
      constructor
      · intro hshows
        exact ⟨0, by omega, by simp, hshows⟩
      · rintro ⟨k, hk, hwaits, hshows⟩
        cases k with
        | zero => exact hshows
        | succ k => exact absurd (hwaits 0 (by omega)) hwait

theorem runOn_verify_le : ((verify events trace n).run.runOn (answerQueries responses) j).2.2 ≤ j + n := by
  induction n generalizing j with
  | zero => simp [verify, Program.runOn]
  | succ n ih =>
    by_cases hwait : ContinueWait (responses j)
    · rw [(runOn_verify_of_wait hwait).2]
      have hle := ih (j := j + 1)
      omega
    · rw [(runOn_verify_of_not_wait hwait).2]
      omega

/-! ## The posts -/

variable {encode : PublishedEvent → String} {bodies : List String} {posted : ℕ → Posted}

theorem posts_append (tr tr' : List ProducerExchange) : posts (tr ++ tr') = posts tr + posts tr' :=
  List.countP_append

theorem posts_le_of_publish {tr : List ProducerExchange} {r : Except PublishError Unit}
    (h : Exec (publish bodies).run tr r) : posts tr ≤ 5 * bodies.length := by
  induction bodies generalizing tr with
  | nil =>
    obtain ⟨rfl, -⟩ := Exec.ret_iff.mp h
    exact Nat.zero_le _
  | cons body bodies ih =>
    have hevent {tr : List ProducerExchange} {r : Except PublishError Unit}
        (hexec : Exec (publishEvent body (List.range 5)).run tr r) : posts tr ≤ 5 := by
      rcases exec_publishEvent_range hexec with ⟨-, _, -, -, hposts⟩ | ⟨-, -, -, hposts⟩
      · exact hposts
      · exact hposts
    rw [List.length_cons]
    rcases Exec.attempt_bind_iff.mp h with ⟨e, hfirst, -⟩ | ⟨tr₁, u, tr₂, rfl, hfirst, hrest⟩
    · have hle := hevent hfirst
      omega
    · have hle := hevent hfirst
      have hle' := ih hrest
      rw [posts_append]
      omega

theorem runOn_answerPosts {α : Type} (p : Program ProducerCall ProducerAnswer α) (i : ℕ) :
    (p.runOn (answerPosts posted) i).2.2 = i + posts (p.runOn (answerPosts posted) i).2.1 := by
  induction p generalizing i with
  | ret a => rfl
  | call c next ih =>
    cases c with
    | post body =>
      refine (ih (posted i) (i + 1)).trans ?_
      show _ = i + posts (⟨.post body, posted i⟩ :: _)
      rw [posts_post, Nat.add_right_comm, Nat.add_assoc]
    | sleep => exact ih () i

/-! ## The function as a whole -/

/-- The outcome when the posts and the queries are answered in turn, and how many of each
    there are. -/
def outcome (encode : PublishedEvent → String) (events : List PublishedEvent) (trace : String)
    (posted : ℕ → Posted) (responses : ℕ → CubeResponse) :
    Except VerificationError Json × ℕ × ℕ :=
  let run := (publishAndVerify encode events trace).run.runOn
    (Program.both (answerPosts posted) (answerQueries responses)) (0, 0)
  (run.1, run.2.2)

/-- Every event is acknowledged. -/
def Acknowledges (encode : PublishedEvent → String) (events : List PublishedEvent)
    (posted : ℕ → Posted) : Prop :=
  ((publish (events.map encode)).run.runOn (answerPosts posted) 0).1 = .ok ()

/-- The publish loop runs first, and what it gets decides on the queries. -/
theorem outcome_eq : outcome encode events trace posted responses =
    match ((publish (events.map encode)).run.runOn (answerPosts posted) 0).1 with
    | .error error => (.error (.publishing error),
        ((publish (events.map encode)).run.runOn (answerPosts posted) 0).2.2, 0)
    | .ok () => (((verify events trace 20).run.runOn (answerQueries responses) 0).1,
        ((publish (events.map encode)).run.runOn (answerPosts posted) 0).2.2,
        ((verify events trace 20).run.runOn (answerQueries responses) 0).2.2) := by
  obtain ⟨hleft, hleftState⟩ := Program.runOn_left (answerPosts posted) (answerQueries responses)
    (publish (events.map encode)).run 0 0
  unfold outcome publishAndVerify
  dsimp only
  rw [ExceptT.run_mk, Program.runOn_bind]
  dsimp only
  rw [hleft, hleftState]
  cases ((publish (events.map encode)).run.runOn (answerPosts posted) 0).1 with
  | error error => rfl
  | ok u =>
    obtain ⟨hright, hrightState⟩ := Program.runOn_right (answerPosts posted) (answerQueries responses)
      (verify events trace 20).run ((publish (events.map encode)).run.runOn (answerPosts posted) 0).2.2 0
    dsimp only
    rw [hright, hrightState]

theorem outcome_of_published (h : Acknowledges encode events posted) :
    (outcome encode events trace posted responses).1 =
      ((verify events trace 20).run.runOn (answerQueries responses) 0).1 := by
  rw [outcome_eq, h]

theorem outcome_posts : (outcome encode events trace posted responses).2.1 ≤ 5 * events.length := by
  have hposts : ((publish (events.map encode)).run.runOn (answerPosts posted) 0).2.2 ≤
      5 * events.length := by
    rw [runOn_answerPosts, Nat.zero_add, ← List.length_map encode]
    exact posts_le_of_publish (Program.exec_runOn _ _ 0)
  rw [outcome_eq]
  split <;> exact hposts

theorem outcome_queries : (outcome encode events trace posted responses).2.2 ≤ 20 := by
  rw [outcome_eq]
  split
  · exact Nat.zero_le _
  · exact (runOn_verify_le (j := 0)).trans (by omega)

/-- `publish_and_verify` stops after at most five posts for each event and twenty queries.
    Once the events are published, it returns the data if and only if, after fewer than
    twenty answers that Cube is not ready, Cube shows one row for each event; for any
    other rows it raises. -/
theorem returns_iff_shown (encode : PublishedEvent → String) (events : List PublishedEvent)
    (trace : String) (posted : ℕ → Posted) (responses : ℕ → CubeResponse) :
    (outcome encode events trace posted responses).2.1 ≤ 5 * events.length ∧
      (outcome encode events trace posted responses).2.2 ≤ 20 ∧
      (Acknowledges encode events posted → DistinctIds events →
        (∀ data, (outcome encode events trace posted responses).1 = .ok data ↔
          ∃ k < 20, (∀ i < k, ContinueWait (responses i)) ∧ Shows events (responses k) data) ∧
        ((∃ error, (outcome encode events trace posted responses).1 = .error error) ↔
          ¬∃ data, ∃ k < 20, (∀ i < k, ContinueWait (responses i)) ∧
            Shows events (responses k) data)) := by
  refine ⟨outcome_posts, outcome_queries, fun hpublished hids => ?_⟩
  have hreturns (data : Json) : (outcome encode events trace posted responses).1 = .ok data ↔
      ∃ k < 20, (∀ i < k, ContinueWait (responses i)) ∧ Shows events (responses k) data := by
    rw [outcome_of_published hpublished, runOn_verify_eq_ok_iff hids]
    simp only [Nat.zero_add]
  refine ⟨hreturns, ?_⟩
  simp only [← hreturns]
  cases (outcome encode events trace posted responses).1 <;> simp

/-! ### Two spans -/

/-- The JSON text of an event whose texts need no escapes. -/
def plainText (event : PublishedEvent) : String :=
  "\x7b" ++ ",".intercalate (event.map fun f => "\"" ++ f.1 ++ "\":\"" ++ f.2 ++ "\"") ++ "\x7d"

def publishedTool : PublishedEvent :=
  [("eventId", "t-tool"), ("parentId", "t-run"), ("kind", "tool"), ("status", "succeeded"),
    ("tool", "weather_current")]

def publishedRun : PublishedEvent :=
  [("eventId", "t-run"), ("parentId", ""), ("kind", "run"), ("status", "succeeded")]

def rowOf (event : PublishedEvent) : Json :=
  .obj (names.map fun name => (member name, .str (event.get name)))

/-- Cube is not ready at first, and then shows the rows in another order. -/
def swappedRows : ℕ → CubeResponse
  | 0 => .response 200 (some (.obj [("error", .str "Continue wait")]))
  | _ + 1 => .response 200 (some (.obj [("data", .arr [rowOf publishedRun, rowOf publishedTool])]))

theorem returns_iff_shown_swapped :
    (outcome plainText [publishedTool, publishedRun] "t" (fun _ => .response 204) swappedRows).1 =
      .ok (.arr [rowOf publishedRun, rowOf publishedTool]) := by
  have hpublished : Acknowledges plainText [publishedTool, publishedRun] fun _ => .response 204 := rfl
  have hids : DistinctIds [publishedTool, publishedRun] := ⟨by decide, by decide⟩
  have hreturns := (returns_iff_shown plainText [publishedTool, publishedRun] "t"
    (fun _ => .response 204) swappedRows).2.2 hpublished hids
  refine (hreturns.1 _).mpr ⟨1, by decide, ?_, ?_⟩
  · intro i hi
    obtain rfl : i = 0 := by omega
    exact ⟨_, rfl, rfl⟩
  · refine ⟨_, rfl, rfl, rfl, _, rfl, [rowOf publishedTool, rowOf publishedRun], .swap _ _ _, ?_⟩
    exact .cons ⟨_, rfl, by decide⟩ (.cons ⟨_, rfl, by decide⟩ .nil)

end CubeOperator.Telemetry.Verification
