import CubeOperator.Lib.JsonText
import CubeOperator.Lib.Rfc3339
import CubeOperator.Telemetry.Executions
import Mathlib.Data.List.Nodup
import Mathlib.Logic.Function.Basic

/-! # Decoding a request body

    What the two calls of `Decode` in `ServeHTTP` make of a body: the members of one
    object are stored in the fields of an `Execution` by their JSON names.  A body is given
    as its text, with U+FFFD for what is not UTF-8. -/

namespace CubeOperator.Telemetry

open JsonText

/-! ## Fields -/

/-- The Go types of the fields. -/
inductive FieldType where
  | text
  | time
  | count
  | cost
  deriving DecidableEq

/-- The fields of `Execution` by their JSON names. -/
def fieldTypes : List (String × FieldType) :=
  [("eventId", .text), ("startedAt", .time), ("endedAt", .time), ("tenantId", .text),
    ("cluster", .text), ("namespace", .text), ("traceId", .text), ("runId", .text),
    ("parentId", .text), ("agent", .text), ("kind", .text), ("name", .text), ("status", .text),
    ("skillVersion", .text), ("tool", .text), ("targetAgent", .text), ("artifactUri", .text),
    ("artifactType", .text), ("validation", .text), ("model", .text), ("provider", .text),
    ("inputTokens", .count), ("outputTokens", .count), ("costUsd", .cost), ("errorType", .text)]

/-- `foldRune`: the least of the characters that differ in their case only.  Two other
    characters than letters of ASCII have a letter of ASCII there. -/
def foldRune (c : Char) : Char :=
  if 'a' ≤ c ∧ c ≤ 'z' then Char.ofNat (c.toNat - 32)
  else if c = Char.ofNat 0x17F then 'S'
  else if c = Char.ofNat 0x212A then 'K'
  else c

def foldName (key : String) : List Char := key.toList.map foldRune

/-- The field that a key names, by its name or else by its name up to case. -/
def fieldNamed (key : String) : Option (String × FieldType) :=
  (fieldTypes.find? fun f => f.1 = key).or
    (fieldTypes.find? fun f => foldName f.1 = foldName key)

/-! ## Values -/

/-- The shortest decimal of the double that is nearest to a number, if that is finite. -/
abbrev RoundFloat : Type := ℚ → Option ℚ

/-- `parseStrictRFC3339`, whose strict checks are switched off, so that it takes what
    `time.Parse` takes. -/
def parseTime (raw : List Char) : Option Time :=
  (Rfc3339.read raw).map fun t => ⟨t.1, t.2⟩

/-- What `MarshalJSON` puts between quotes. -/
def Time.format (t : Time) : List Char := Rfc3339.write t.unixNano t.offset

variable (round : RoundFloat)

/-- What a literal stores in a field: nothing if it is `null`. -/
def store : FieldType → Literal → Option (Option Scalar)
  | _, .null => some none
  | .text, .text raw => (unquote raw).map fun s => some (.text s)
  | .time, .text raw => (parseTime raw).map fun t => some (.time t)
  | .count, .number raw => do
    let number ← readNumber raw
    let z ← number.integer?
    if -2 ^ 63 ≤ z ∧ z < 2 ^ 63 then some (some (.number z)) else none
  | .cost, .number raw => do
    let number ← readNumber raw
    let q ← round number.value
    some (some (.number q))
  | _, _ => none

/-- The fields that have been stored, by their names. -/
abbrev Fields : Type := String → Option Scalar

/-- Store the members one after the other.  A key that names no field is an error. -/
def decodeMembers : Fields → List (String × Literal) → Option Fields
  | fields, [] => some fields
  | fields, (key, value) :: ms => do
    let (name, type) ← fieldNamed key
    let stored ← store round type value
    match stored with
    | some scalar => decodeMembers (Function.update fields name (some scalar)) ms
    | none => decodeMembers fields ms

def textOf : Option Scalar → String
  | some (.text s) => s
  | _ => ""

def timeOf : Option Scalar → Time
  | some (.time t) => t
  | _ => ⟨Time.zero, 0⟩

def numberOf : Option Scalar → ℚ
  | some (.number q) => q
  | _ => 0

/-- The event with these fields, and zero values in the others. -/
def Execution.ofFields (fields : Fields) : Execution where
  eventId := textOf (fields "eventId")
  startedAt := timeOf (fields "startedAt")
  endedAt := timeOf (fields "endedAt")
  tenantId := textOf (fields "tenantId")
  cluster := textOf (fields "cluster")
  ns := textOf (fields "namespace")
  traceId := textOf (fields "traceId")
  runId := textOf (fields "runId")
  parentId := textOf (fields "parentId")
  agent := textOf (fields "agent")
  kind := textOf (fields "kind")
  name := textOf (fields "name")
  status := textOf (fields "status")
  skillVersion := textOf (fields "skillVersion")
  tool := textOf (fields "tool")
  targetAgent := textOf (fields "targetAgent")
  artifactUri := textOf (fields "artifactUri")
  artifactType := textOf (fields "artifactType")
  validation := textOf (fields "validation")
  model := textOf (fields "model")
  provider := textOf (fields "provider")
  inputTokens := (numberOf (fields "inputTokens")).num
  outputTokens := (numberOf (fields "outputTokens")).num
  costUsd := numberOf (fields "costUsd")
  errorType := textOf (fields "errorType")

/-! ## Bodies -/

/-- `64<<10` -/
def maxBytes : ℕ := 64 * 1024

/-- Both calls of `Decode`, on a body of which at most `maxBytes` bytes are read. -/
def decodeBody (body : String) : Decoded :=
  match readObject body.toList with
  | none => .malformed
  | some (ms, rest) =>
    if maxBytes < body.utf8ByteSize - (String.ofList rest).utf8ByteSize then .malformed
    else match decodeMembers round (fun _ => none) ms with
      | none => .malformed
      | some fields =>
        if maxBytes < body.utf8ByteSize ∨ ¬rest.all JsonText.isSpace then .trailing
        else .single (.ofFields fields)

/-- The service with this decoder. -/
def goLibrary (sha256 : String → BitVec 256) : Library where
  sha256 := sha256
  decode := decodeBody round

/-! ## What a member means -/

/-- What a literal stores in a field, or nothing where it cannot be stored. -/
def meaning : FieldType → Literal → Option Scalar
  | .text, .text raw => (unquote raw).map .text
  | .time, .text raw => (parseTime raw).map .time
  | .count, .number raw => (readNumber raw).map fun number => .number number.value
  | .cost, .number raw => do
    let number ← readNumber raw
    (round number.value).map .number
  | _, _ => none

/-- What a member means for the field `name`. -/
def memberMeaning (name : String) (m : String × Literal) : Option Scalar :=
  (fieldNamed m.1).bind fun field => if field.1 = name then meaning round field.2 m.2 else none

/-- What the last member that means something for the field `name` means. -/
def lastMeaning (name : String) : List (String × Literal) → Option Scalar
  | [] => none
  | m :: ms => (lastMeaning name ms).or (memberMeaning round name m)

variable {round : RoundFloat} {name : String} {type : FieldType} {m : String × Literal}
  {ms : List (String × Literal)} {e : Execution} {body : String}

theorem meaning_of_store {value : Literal} {stored : Option Scalar}
    (h : store round type value = some stored) : meaning round type value = stored := by
  unfold store at h
  split at h
  · obtain rfl := Option.some.inj h
    cases type <;> rfl
  · obtain ⟨s, hs, rfl⟩ := Option.map_eq_some_iff.mp h
    simp [meaning, hs]
  · obtain ⟨t, ht, rfl⟩ := Option.map_eq_some_iff.mp h
    simp [meaning, ht]
  · simp only [Option.bind_eq_bind, Option.bind_eq_some_iff] at h
    obtain ⟨number, hnumber, z, hz, h⟩ := h
    split at h
    · obtain rfl := Option.some.inj h
      simp [meaning, hnumber, Number.value_of_integer hz]
    · cases h
  · simp only [Option.bind_eq_bind, Option.bind_eq_some_iff] at h
    obtain ⟨number, hnumber, q, hq, h⟩ := h
    obtain rfl := Option.some.inj h
    simp [meaning, hnumber, hq]
  · cases h

theorem memberMeaning_of_field {value : Literal} {key : String}
    (h : fieldNamed key = some (name, type)) :
    memberMeaning round name (key, value) = meaning round type value := by
  simp [memberMeaning, h]

theorem memberMeaning_of_ne {field key : String} (h : fieldNamed key = some (field, type))
    (hne : field ≠ name) (value : Literal) : memberMeaning round name (key, value) = none := by
  simp [memberMeaning, h, hne]

theorem lastMeaning_append (name : String) (ms ms' : List (String × Literal)) :
    lastMeaning round name (ms ++ ms') = (lastMeaning round name ms').or (lastMeaning round name ms) := by
  induction ms with
  | nil => simp [lastMeaning]
  | cons m ms ih => simp [lastMeaning, ih, Option.or_assoc]

theorem lastMeaning_eq_none (h : ∀ m ∈ ms, memberMeaning round name m = none) :
    lastMeaning round name ms = none := by
  induction ms with
  | nil => rfl
  | cons m ms ih =>
    obtain ⟨hhead, hrest⟩ := List.forall_mem_cons.mp h
    rw [lastMeaning, ih hrest, hhead]
    rfl

/-- The meaning that all members with a meaning for a field agree on. -/
theorem lastMeaning_eq_some {x : Scalar} (hsome : ∃ m ∈ ms, memberMeaning round name m = some x)
    (hall : ∀ m ∈ ms, ∀ y, memberMeaning round name m = some y → y = x) :
    lastMeaning round name ms = some x := by
  induction ms with
  | nil => simp at hsome
  | cons m ms ih =>
    obtain ⟨-, hrest⟩ := List.forall_mem_cons.mp hall
    by_cases hlater : ∃ m ∈ ms, memberMeaning round name m = some x
    · rw [lastMeaning, ih hlater hrest, Option.some_or]
    · have hnone : lastMeaning round name ms = none := by
        refine lastMeaning_eq_none fun m' hmem => ?_
        cases hmeaning : memberMeaning round name m' with
        | none => rfl
        | some y =>
          obtain rfl := hrest m' hmem y hmeaning
          exact absurd ⟨m', hmem, hmeaning⟩ hlater
      obtain ⟨m', hmem, hmeaning⟩ := hsome
      rcases List.mem_cons.mp hmem with rfl | hmem
      · rw [lastMeaning, hnone, hmeaning]
        rfl
      · exact absurd ⟨m', hmem, hmeaning⟩ hlater

/-! ## What is decoded -/

/-- A member that the decoder can store. -/
def Decodes (round : RoundFloat) (m : String × Literal) : Prop :=
  ∃ name type stored, fieldNamed m.1 = some (name, type) ∧ store round type m.2 = some stored

theorem decodeMembers_cons {fields fields' : Fields} {key : String} {value : Literal}
    (h : decodeMembers round fields ((key, value) :: ms) = some fields') :
    ∃ field stored, fieldNamed key = some field ∧ store round field.2 value = some stored ∧
      decodeMembers round (Function.update fields field.1 (stored.or (fields field.1))) ms =
        some fields' := by
  unfold decodeMembers at h
  simp only [Option.bind_eq_bind, Option.bind_eq_some_iff] at h
  obtain ⟨field, hfield, stored, hstored, h⟩ := h
  refine ⟨field, stored, hfield, hstored, ?_⟩
  cases stored with
  | none => simpa using h
  | some scalar => simpa using h

/-- Every field holds what the last of its members means. -/
theorem fields_of_decode {fields fields' : Fields} (h : decodeMembers round fields ms = some fields')
    (name : String) : fields' name = (lastMeaning round name ms).or (fields name) := by
  induction ms generalizing fields with
  | nil =>
    obtain rfl := Option.some.inj h
    rfl
  | cons m ms ih =>
    obtain ⟨key, value⟩ := m
    obtain ⟨⟨field, type⟩, stored, hfield, hstored, hrest⟩ := decodeMembers_cons h
    rw [ih hrest, lastMeaning, Option.or_assoc]
    by_cases hname : field = name
    · subst hname
      rw [memberMeaning_of_field hfield, meaning_of_store hstored, Function.update_self]
    · rw [memberMeaning_of_ne hfield hname, Function.update_of_ne (Ne.symm hname), Option.none_or]

theorem exists_decoded (h : ∀ m ∈ ms, Decodes round m) (fields : Fields) :
    ∃ fields', decodeMembers round fields ms = some fields' := by
  induction ms generalizing fields with
  | nil => exact ⟨fields, rfl⟩
  | cons m ms ih =>
    obtain ⟨⟨name, type, stored, hfield, hstored⟩, hrest⟩ := List.forall_mem_cons.mp h
    unfold decodeMembers
    simp only [hfield, hstored, Option.bind_eq_bind, Option.bind_some]
    cases stored with
    | none => exact ih hrest _
    | some scalar => exact ih hrest _

/-- A body that is decoded is the text of an object, and its members are stored. -/
theorem exists_members (h : decodeBody round body = .single e) :
    body.utf8ByteSize ≤ maxBytes ∧ ∃ ms rest fields, readObject body.toList = some (ms, rest) ∧
      decodeMembers round (fun _ => none) ms = some fields ∧ e = .ofFields fields := by
  unfold decodeBody at h
  split at h
  · cases h
  · rename_i ms rest hread
    split at h
    · cases h
    · split at h
      · cases h
      · rename_i fields hfields
        split at h
        · cases h
        · rename_i hend
          rw [not_or, not_lt] at hend
          exact ⟨hend.1, ms, rest, fields, hread, hfields, (Decoded.single.inj h).symm⟩

/-- A text of members that can be stored is decoded. -/
theorem decodeBody_of_spells {fields : Fields} (hspells : Spells ms body.toList)
    (hsize : body.utf8ByteSize ≤ maxBytes)
    (hfields : decodeMembers round (fun _ => none) ms = some fields) :
    decodeBody round body = .single (.ofFields fields) := by
  obtain ⟨rest, hblank, hread⟩ := readObject_spelled hspells
  have hspace : rest.all JsonText.isSpace = true := List.all_eq_true.mpr hblank
  have hlong : ¬maxBytes < body.utf8ByteSize - (String.ofList rest).utf8ByteSize := by omega
  have hend : ¬(maxBytes < body.utf8ByteSize ∨ ¬rest.all JsonText.isSpace) := by
    rw [not_or, not_not]
    exact ⟨not_lt.mpr hsize, hspace⟩
  unfold decodeBody
  simp only [hread, hfields]
  rw [if_neg hlong, if_neg hend]

/-- The event of a text is made of what the members mean. -/
theorem eq_ofFields (hspells : Spells ms body.toList) (h : decodeBody round body = .single e) :
    e = .ofFields fun name => lastMeaning round name ms := by
  obtain ⟨-, ms', rest, fields, hread, hfields, rfl⟩ := exists_members h
  obtain ⟨rest', -, hread'⟩ := readObject_spelled hspells
  obtain ⟨rfl, -⟩ : ms' = ms ∧ rest = rest' := by simpa [hread] using hread'
  congr 1
  funext name
  rw [fields_of_decode hfields, Option.or_none]

/-! ## Values that a decoded event can have -/

/-- What the claims on doubles come to: the zero is one, and the shortest decimal of a double
    reads back as that double. -/
structure RoundTrips (round : RoundFloat) : Prop where
  zero : round 0 = some 0
  again : ∀ p q, round p = some q → round q = some q

/-- The scalars that a field of a type can hold. -/
inductive Held (round : RoundFloat) : FieldType → Scalar → Prop where
  | text (s : String) : Held round .text (.text s)
  | time (t : Time) : Held round .time (.time t)
  | count {z : ℤ} : -2 ^ 63 ≤ z → z < 2 ^ 63 → Held round .count (.number z)
  | cost {q : ℚ} : round q = some q → Held round .cost (.number q)

/-- The numbers of an event fit their fields. -/
structure Execution.Representable (round : RoundFloat) (e : Execution) : Prop where
  inputTokens : -2 ^ 63 ≤ e.inputTokens ∧ e.inputTokens < 2 ^ 63
  outputTokens : -2 ^ 63 ≤ e.outputTokens ∧ e.outputTokens < 2 ^ 63
  costUsd : round e.costUsd = some e.costUsd

theorem held_of_store (hround : RoundTrips round) {value : Literal} {x : Scalar}
    (h : store round type value = some (some x)) : Held round type x := by
  unfold store at h
  split at h
  · cases h
  · obtain ⟨s, -, h⟩ := Option.map_eq_some_iff.mp h
    obtain rfl := Option.some.inj h
    exact .text s
  · obtain ⟨t, -, h⟩ := Option.map_eq_some_iff.mp h
    obtain rfl := Option.some.inj h
    exact .time t
  · simp only [Option.bind_eq_bind, Option.bind_eq_some_iff] at h
    obtain ⟨number, -, z, -, h⟩ := h
    split at h
    · rename_i hrange
      obtain rfl := Option.some.inj (Option.some.inj h)
      exact .count hrange.1 hrange.2
    · cases h
  · simp only [Option.bind_eq_bind, Option.bind_eq_some_iff] at h
    obtain ⟨number, -, q, hq, h⟩ := h
    obtain rfl := Option.some.inj (Option.some.inj h)
    exact .cost (hround.again _ _ hq)
  · cases h

theorem fieldNamed_mem {key : String} {field : String × FieldType} (h : fieldNamed key = some field) :
    field ∈ fieldTypes := by
  unfold fieldNamed at h
  rcases Option.or_eq_some_iff.mp h with h | ⟨-, h⟩
  · exact List.mem_of_find?_eq_some h
  · exact List.mem_of_find?_eq_some h

theorem fieldNamed_of_mem {field : String × FieldType} (h : field ∈ fieldTypes) :
    fieldNamed field.1 = some field := by
  have hall : ∀ field ∈ fieldTypes, fieldNamed field.1 = some field := by decide +kernel
  exact hall field h

/-- No two fields have the same name. -/
theorem type_unique {type' : FieldType} (h : (name, type) ∈ fieldTypes)
    (h' : (name, type') ∈ fieldTypes) : type = type' := by
  have hnodup : (fieldTypes.map Prod.fst).Nodup := by decide +kernel
  have hsame := List.inj_on_of_nodup_map hnodup h h' rfl
  exact (Prod.mk.inj hsame).2

/-- Every field that is stored holds a scalar of its type. -/
theorem held_of_decode (hround : RoundTrips round) {fields fields' : Fields}
    (h : decodeMembers round fields ms = some fields')
    (hheld : ∀ name type x, (name, type) ∈ fieldTypes → fields name = some x → Held round type x) :
    ∀ name type x, (name, type) ∈ fieldTypes → fields' name = some x → Held round type x := by
  induction ms generalizing fields with
  | nil =>
    obtain rfl := Option.some.inj h
    exact hheld
  | cons m ms ih =>
    obtain ⟨key, value⟩ := m
    obtain ⟨⟨field, type'⟩, stored, hfield, hstored, hrest⟩ := decodeMembers_cons h
    refine ih hrest ?_
    intro name type x hmem hx
    by_cases hname : name = field
    · subst hname
      obtain rfl := type_unique hmem (fieldNamed_mem hfield)
      rw [Function.update_self] at hx
      cases stored with
      | none => exact hheld _ _ _ hmem hx
      | some scalar =>
        obtain rfl := Option.some.inj hx
        exact held_of_store hround hstored
    · rw [Function.update_of_ne hname] at hx
      exact hheld _ _ _ hmem hx

theorem representable_of_decode (hround : RoundTrips round) (h : decodeBody round body = .single e) :
    e.Representable round := by
  obtain ⟨-, ms, rest, fields, -, hfields, rfl⟩ := exists_members h
  have hheld := held_of_decode hround hfields (by simp)
  have hcount : ∀ name, (name, FieldType.count) ∈ fieldTypes →
      -2 ^ 63 ≤ (numberOf (fields name)).num ∧ (numberOf (fields name)).num < 2 ^ 63 := by
    intro name hmem
    cases hx : fields name with
    | none => exact ⟨by decide, by decide⟩
    | some x =>
      cases hheld name .count x hmem hx with
      | count hleast hgreatest => exact ⟨hleast, hgreatest⟩
  refine ⟨hcount _ (by decide), hcount _ (by decide), ?_⟩
  cases hx : fields "costUsd" with
  | none => simpa [Execution.ofFields, hx, numberOf] using hround.zero
  | some x =>
    cases hheld "costUsd" .cost x (by decide) hx with
    | cost hq => simpa [Execution.ofFields, hx, numberOf] using hq

/-! ## Events and their fields -/

/-- What a field comes to, with a zero value for nothing and times in UTC. -/
def canonical : FieldType → Option Scalar → Scalar
  | .text, x => .text (textOf x)
  | .time, x => .time (timeOf x).utc
  | .count, x => .number (numberOf x)
  | .cost, x => .number (numberOf x)

/-- Events whose fields come to the same are the same in UTC. -/
theorem utc_ofFields {fields fields' : Fields} (h : ∀ name type, (name, type) ∈ fieldTypes →
    canonical type (fields name) = canonical type (fields' name)) :
    (Execution.ofFields fields).utc = (Execution.ofFields fields').utc := by
  have htext : ∀ name, (name, FieldType.text) ∈ fieldTypes →
      textOf (fields name) = textOf (fields' name) :=
    fun name hmem => Scalar.text.inj (h name .text hmem)
  have htime : ∀ name, (name, FieldType.time) ∈ fieldTypes →
      (timeOf (fields name)).utc = (timeOf (fields' name)).utc :=
    fun name hmem => Scalar.time.inj (h name .time hmem)
  have hcount : ∀ name, (name, FieldType.count) ∈ fieldTypes →
      numberOf (fields name) = numberOf (fields' name) :=
    fun name hmem => Scalar.number.inj (h name .count hmem)
  have hcost : numberOf (fields "costUsd") = numberOf ( fields' "costUsd") :=
    Scalar.number.inj (h "costUsd" .cost (by decide))
  unfold Execution.ofFields Execution.utc
  congr 1
  all_goals first
    | exact htext _ (by decide)
    | exact htime _ (by decide)
    | exact hcost
    | exact congrArg Rat.num (hcount _ (by decide))

/-- The event whose members the fields hold. -/
theorem ofFields_members {fields : Fields} (h : ∀ m ∈ e.members, fields m.1 = some m.2) :
    Execution.ofFields fields = e := by
  simp only [Execution.members, List.forall_mem_cons] at h
  simp [Execution.ofFields, textOf, timeOf, numberOf, h]

/-- The fields of an event by their names. -/
def Execution.fields (e : Execution) : Fields :=
  fun name => (e.members.find? fun m => m.1 = name).map Prod.snd

theorem members_injective {e e' : Execution} (h : e.members = e'.members) : e = e' := by
  have hself : ∀ e : Execution, ∀ m ∈ e.members, e.fields m.1 = some m.2 := by
    simp [Execution.fields, Execution.members]
  have hother : ∀ m ∈ e'.members, e.fields m.1 = some m.2 := by
    rw [← h]
    exact hself e
  exact (ofFields_members (hself e)).symm.trans (ofFields_members hother)

end CubeOperator.Telemetry
