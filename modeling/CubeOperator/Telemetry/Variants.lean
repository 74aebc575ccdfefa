import CubeOperator.Telemetry.Decoding
import CubeOperator.Telemetry.Storage
import Mathlib.Logic.Relation

/-! # The texts of one event

    Two bodies that differ in the order of their members, the case of their keys, their
    white space, the notation of numbers and of strings, the offsets of their times, or in
    members that are left out, `null` or zero, are decoded to the same event in UTC.  A body
    with the members of a stored payload is decoded to the event that was stored. -/

namespace CubeOperator.Telemetry

open JsonText

variable {round : RoundFloat} {name : String} {type : FieldType} {value value' : Literal}
  {m : String × Literal} {ms ms' : List (String × Literal)} {e : Execution} {body body' : String}

/-! ## Variations -/

def FieldType.Numeric (type : FieldType) : Prop := type = .count ∨ type = .cost

/-- Two ways to write one value of a field. -/
inductive SameValue : FieldType → Literal → Literal → Prop where
  /-- `1.50`, `15e-1` and `1.5`. -/
  | number {type : FieldType} {raw raw' : List Char} {n n' : Number} : type.Numeric →
      readNumber raw = some n → readNumber raw' = some n' → n.value = n'.value →
      SameValue type (.number raw) (.number raw')
  /-- `2026-01-01T01:00:00+01:00` and `2026-01-01T00:00:00Z`. -/
  | zone {raw raw' : List Char} {t t' : Time} : parseTime raw = some t → parseTime raw' = some t' →
      t.unixNano = t'.unixNano → SameValue .time (.text raw) (.text raw')
  /-- `a` and `\u0061`. -/
  | escape {raw raw' : List Char} : unquote raw = unquote raw' →
      SameValue .text (.text raw) (.text raw')

/-- The ways to write that a field has its zero value. -/
inductive ZeroValue : FieldType → Literal → Prop where
  | null (type : FieldType) : ZeroValue type .null
  | number {type : FieldType} {raw : List Char} {n : Number} : type.Numeric →
      readNumber raw = some n → n.value = 0 → ZeroValue type (.number raw)
  | time {raw : List Char} {t : Time} : parseTime raw = some t → t.isZero →
      ZeroValue .time (.text raw)
  | text {raw : List Char} : unquote raw = some "" → ZeroValue .text (.text raw)

/-- One difference between the members of two objects that does not matter. -/
inductive Variation : List (String × Literal) → List (String × Literal) → Prop where
  | order (pre post : List (String × Literal)) {m m' : String × Literal} :
      fieldNamed m.1 ≠ fieldNamed m'.1 → Variation (pre ++ m :: m' :: post) (pre ++ m' :: m :: post)
  | key (pre post : List (String × Literal)) {key key' : String} (value : Literal) :
      foldName key = foldName key' → Variation (pre ++ (key, value) :: post) (pre ++ (key', value) :: post)
  | value (pre post : List (String × Literal)) {key name : String} {type : FieldType}
      {value value' : Literal} : fieldNamed key = some (name, type) → SameValue type value value' →
      Variation (pre ++ (key, value) :: post) (pre ++ (key, value') :: post)
  | omitted (pre post : List (String × Literal)) {key name : String} {type : FieldType}
      {value : Literal} : fieldNamed key = some (name, type) → ZeroValue type value →
      (∀ m ∈ pre, fieldNamed m.1 ≠ some (name, type)) →
      Variation (pre ++ (key, value) :: post) (pre ++ post)

/-- Two bodies that spell members with any number of these differences. -/
def Variant (body body' : String) : Prop :=
  ∃ ms ms', Spells ms body.toList ∧ Spells ms' body'.toList ∧ Relation.EqvGen Variation ms ms'

/-! ## Variations mean the same -/

/-- A key names the field whose name it is up to case. -/
theorem fieldNamed_eq (key : String) :
    fieldNamed key = fieldTypes.find? fun f => foldName f.1 = foldName key := by
  have hnodup : (fieldTypes.map fun f => foldName f.1).Nodup := by decide +kernel
  unfold fieldNamed
  cases hexact : fieldTypes.find? fun f => f.1 = key with
  | none => rfl
  | some f =>
    have hkey : f.1 = key := by simpa using List.find?_some hexact
    have hmem := List.mem_of_find?_eq_some hexact
    rw [Option.some_or]
    cases hfold : fieldTypes.find? fun f => foldName f.1 = foldName key with
    | none =>
      have hne := List.find?_eq_none.mp hfold f hmem
      simp [hkey] at hne
    | some f' =>
      have hname : foldName f'.1 = foldName key := by simpa using List.find?_some hfold
      have hsame : foldName f.1 = foldName f'.1 := by rw [hname, hkey]
      rw [List.inj_on_of_nodup_map hnodup hmem (List.mem_of_find?_eq_some hfold) hsame]

theorem fieldNamed_of_fold {key key' : String} (h : foldName key = foldName key') :
    fieldNamed key = fieldNamed key' := by
  rw [fieldNamed_eq, fieldNamed_eq, h]

/-- Only a member of its field means something for a name. -/
theorem field_of_memberMeaning (hmem : (name, type) ∈ fieldTypes) {x : Scalar}
    (h : memberMeaning round name m = some x) : fieldNamed m.1 = some (name, type) := by
  unfold memberMeaning at h
  obtain ⟨⟨field, type'⟩, hfield, h⟩ := Option.bind_eq_some_iff.mp h
  split at h
  · rename_i heq
    obtain rfl : field = name := heq
    rw [hfield, type_unique hmem (fieldNamed_mem hfield)]
  · cases h

/-- Two ways to write a value mean the same: both nothing, or values that come to the same. -/
theorem meaning_of_same (round : RoundFloat) (h : SameValue type value value') :
    meaning round type value = meaning round type value' ∨
      ∃ x x', meaning round type value = some x ∧ meaning round type value' = some x' ∧
        canonical type (some x) = canonical type (some x') := by
  cases h with
  | number hnumeric hn hn' hvalue =>
    rcases hnumeric with rfl | rfl
    · exact .inl (by simp [meaning, hn, hn', hvalue])
    · exact .inl (by simp [meaning, hn, hn', hvalue])
  | @zone _ _ t t' ht ht' hinstant =>
    refine .inr ⟨.time t, .time t', by simp [meaning, ht], by simp [meaning, ht'], ?_⟩
    simp [canonical, timeOf, Time.utc, hinstant]
  | escape hunquote => exact .inl (by simp [meaning, hunquote])

/-- A zero value comes to the same as nothing. -/
theorem canonical_of_zero (hround : RoundTrips round) (h : ZeroValue type value) :
    canonical type (meaning round type value) = canonical type none := by
  cases h with
  | null => cases type <;> rfl
  | number hnumeric hn hzero =>
    rcases hnumeric with rfl | rfl
    · simp [meaning, hn, hzero, canonical, numberOf]
    · simp [meaning, hn, hzero, hround.zero, canonical, numberOf]
  | @time _ t ht hzero =>
    have hinstant : t.unixNano = Time.zero := Time.isZero_iff.mp hzero
    simp [meaning, ht, canonical, timeOf, Time.utc, hinstant]
  | text hempty => simp [meaning, hempty, canonical, textOf]

theorem lastMeaning_split (pre post : List (String × Literal)) (m : String × Literal) :
    lastMeaning round name (pre ++ m :: post) = (lastMeaning round name post).or
      ((memberMeaning round name m).or (lastMeaning round name pre)) := by
  rw [lastMeaning_append, lastMeaning, Option.or_assoc]

/-- After a variation every field comes to the same. -/
theorem canonical_of_variation (hround : RoundTrips round) (h : Variation ms ms')
    (hmem : (name, type) ∈ fieldTypes) :
    canonical type (lastMeaning round name ms) = canonical type (lastMeaning round name ms') := by
  cases h with
  | order pre post hfields =>
    rename_i m m'
    congr 1
    rw [lastMeaning_split, lastMeaning_split, lastMeaning, lastMeaning, Option.or_assoc, Option.or_assoc]
    congr 1
    -- At most one of the two members means something for the field.
    cases hm : memberMeaning round name m with
    | none => simp
    | some x =>
      cases hm' : memberMeaning round name m' with
      | none => simp
      | some x' =>
        refine absurd ?_ hfields
        rw [field_of_memberMeaning hmem hm, field_of_memberMeaning hmem hm']
  | key pre post value hfold =>
    congr 1
    rw [lastMeaning_split, lastMeaning_split]
    simp only [memberMeaning, fieldNamed_of_fold hfold]
  | @value pre post key field type' value value' hfield hsame =>
    rw [lastMeaning_split, lastMeaning_split]
    by_cases hname : field = name
    · subst hname
      obtain rfl := type_unique hmem (fieldNamed_mem hfield)
      rw [memberMeaning_of_field hfield, memberMeaning_of_field hfield]
      rcases meaning_of_same round hsame with heq | ⟨x, x', hx, hx', hcanonical⟩
      · rw [heq]
      · rw [hx, hx', Option.some_or, Option.some_or]
        cases lastMeaning round field post with
        | none => exact hcanonical
        | some y => rfl
    · rw [memberMeaning_of_ne hfield hname, memberMeaning_of_ne hfield hname]
  | @omitted pre post key field type' value hfield hzero hfirst =>
    rw [lastMeaning_split, lastMeaning_append]
    by_cases hname : field = name
    · subst hname
      obtain rfl := type_unique hmem (fieldNamed_mem hfield)
      have hpre : lastMeaning round field pre = none := by
        refine lastMeaning_eq_none fun m hm => ?_
        cases hmeaning : memberMeaning round field m with
        | none => rfl
        | some x => exact absurd (field_of_memberMeaning hmem hmeaning) (hfirst m hm)
      rw [memberMeaning_of_field hfield, hpre]
      cases lastMeaning round field post with
      | none => simpa using canonical_of_zero hround hzero
      | some y => rfl
    · rw [memberMeaning_of_ne hfield hname, Option.none_or]

/-- Variants of one body are decoded to the same event in UTC. -/
theorem utc_of_variant (hround : RoundTrips round) {e' : Execution} (h : Variant body body')
    (hdecode : decodeBody round body = .single e) (hdecode' : decodeBody round body' = .single e') :
    e.utc = e'.utc := by
  obtain ⟨ms, ms', hspells, hspells', hvariations⟩ := h
  rw [eq_ofFields hspells hdecode, eq_ofFields hspells' hdecode']
  refine utc_ofFields fun name type hmem => ?_
  clear hspells hspells'
  induction hvariations with
  | rel _ _ hvariation => exact canonical_of_variation hround hvariation hmem
  | refl _ => rfl
  | symm _ _ _ ih => exact ih.symm
  | trans _ _ _ _ _ ih ih' => exact ih.trans ih'

/-! ## The text of a payload -/

/-- A literal is one way to write a member of a payload.  Counts are written without a
    fraction and an exponent. -/
inductive Writes : String × Scalar → String × Literal → Prop where
  | text {name s : String} {raw : List Char} : unquote raw = some s →
      Writes (name, .text s) (name, .text raw)
  | time (name : String) (t : Time) : Writes (name, .time t) (name, .text t.format)
  | number {name : String} {q : ℚ} {raw : List Char} {n : Number} : readNumber raw = some n →
      n.value = q → ((name, .count) ∈ fieldTypes → n.integer?.isSome) →
      Writes (name, .number q) (name, .number raw)

/-- A body with the members of a payload in any order, and no others: the text that
    `json.Marshal` writes, and the one that `jsonb` gives back. -/
def PayloadText (payload : Payload) (body : String) : Prop :=
  ∃ ms, Spells ms body.toList ∧ (∀ m ∈ payload, ∃ l ∈ ms, Writes m l) ∧
    ∀ l ∈ ms, ∃ m ∈ payload, Writes m l

theorem Writes.key_eq {m : String × Scalar} {l : String × Literal} (h : Writes m l) : l.1 = m.1 := by
  cases h <;> rfl

/-- The members of an event are its fields, each with a value of its type. -/
theorem held_of_members (hrepresentable : e.Representable round) {m : String × Scalar}
    (h : m ∈ e.members) : ∃ type, (m.1, type) ∈ fieldTypes ∧ Held round type m.2 := by
  obtain ⟨hinput, houtput, hcost⟩ := hrepresentable
  have hinputTokens : Held round .count (.number e.inputTokens) := .count hinput.1 hinput.2
  have houtputTokens : Held round .count (.number e.outputTokens) := .count houtput.1 houtput.2
  revert m
  simp only [Execution.members, List.forall_mem_cons]
  refine ⟨?_, ?_, ?_, ?_, ?_, ?_, ?_, ?_, ?_, ?_, ?_, ?_, ?_, ?_, ?_, ?_, ?_, ?_, ?_, ?_, ?_, ?_, ?_,
    ?_, ?_, by simp⟩
  all_goals first
    | exact ⟨.text, by decide, .text _⟩
    | exact ⟨.time, by decide, .time _⟩
    | exact ⟨.count, by decide, hinputTokens⟩
    | exact ⟨.count, by decide, houtputTokens⟩
    | exact ⟨.cost, by decide, .cost hcost⟩

/-- A time in UTC with a year of four digits is read back. -/
theorem parseTime_format {t : Time} (hutc : t.utc = t) (h : t.marshals = true) :
    parseTime t.format = some t := by
  have hoffset : t.offset = 0 := by rw [← hutc, Time.utc]
  have hrange : -62167219200 * 10 ^ 9 ≤ t.unixNano + t.offset * 10 ^ 9 ∧
      t.unixNano + t.offset * 10 ^ 9 < 253402300800 * 10 ^ 9 := by
    simpa [Time.marshals] using h
  have hwritable : Rfc3339.Writable t.unixNano t.offset := by
    rw [hoffset] at hrange ⊢
    constructor
    · unfold Rfc3339.localNanos Rfc3339.epochDays
      omega
    · unfold Rfc3339.localNanos Rfc3339.epochDays
      omega
    · rfl
    · decide
  rw [parseTime, Time.format, Rfc3339.read_write hwritable]
  rfl

/-- What is written for a member is stored as its value. -/
theorem store_of_writes {x : Scalar} {l : String × Literal} (h : Writes (name, x) l)
    (hmem : (name, type) ∈ fieldTypes) (hheld : Held round type x)
    (htime : ∀ t, x = .time t → t.utc = t ∧ t.marshals = true) :
    store round type l.2 = some (some x) := by
  cases h with
  | text hunquote =>
    cases hheld with
    | text s => simp [store, hunquote]
  | time name t =>
    cases hheld with
    | time t =>
      obtain ⟨hutc, hmarshals⟩ := htime t rfl
      simp [store, parseTime_format hutc hmarshals]
  | number hread hvalue hcount =>
    cases hheld with
    | @count z hleast hgreatest =>
      obtain ⟨z', hz'⟩ := Option.isSome_iff_exists.mp (hcount hmem)
      have hcast : (z' : ℚ) = z := by rw [← Number.value_of_integer hz', hvalue]
      obtain rfl : z' = z := Int.cast_injective hcast
      simp only [store, hread, hz', Option.bind_eq_bind, Option.bind_some]
      rw [if_pos ⟨hleast, hgreatest⟩]
    | cost hround => simp [store, hread, hvalue, hround]

theorem names_nodup (e : Execution) : (e.members.map Prod.fst).Nodup := by
  have hnodup : (fieldTypes.map Prod.fst).Nodup := by decide +kernel
  exact hnodup

/-- The text of the payload of an event in UTC is decoded to that event. -/
theorem decode_payloadText (hrepresentable : e.Representable round) (hutc : e.utc = e)
    (hwritable : e.Writable) (htext : PayloadText e.members body)
    (hsize : body.utf8ByteSize ≤ maxBytes) : decodeBody round body = .single e := by
  obtain ⟨ms, hspells, hwritten, honly⟩ := htext
  have htimes : ∀ m ∈ e.members, ∀ t, m.2 = .time t → t.utc = t ∧ t.marshals = true := by
    have hstarted : e.startedAt.utc = e.startedAt := congrArg Execution.startedAt hutc
    have hended : e.endedAt.utc = e.endedAt := congrArg Execution.endedAt hutc
    obtain ⟨hstart, hend⟩ := hwritable
    rw [hstarted] at hstart
    rw [hended] at hend
    simp [Execution.members, hstarted, hended, hstart, hend]
  have hstore : ∀ m ∈ e.members, ∀ l, Writes m l →
      ∃ type, fieldNamed l.1 = some (m.1, type) ∧ store round type l.2 = some (some m.2) := by
    intro m hm l hwrites
    obtain ⟨type, hmem, hheld⟩ := held_of_members hrepresentable hm
    refine ⟨type, ?_, store_of_writes hwrites hmem hheld (htimes m hm)⟩
    rw [hwrites.key_eq]
    exact fieldNamed_of_mem hmem
  have hdecodes : ∀ l ∈ ms, Decodes round l := by
    intro l hl
    obtain ⟨m, hm, hwrites⟩ := honly l hl
    obtain ⟨type, hfield, hstored⟩ := hstore m hm l hwrites
    exact ⟨m.1, type, some m.2, hfield, hstored⟩
  obtain ⟨fields, hfields⟩ := exists_decoded hdecodes fun _ => none
  rw [decodeBody_of_spells hspells hsize hfields]
  congr 1
  refine ofFields_members fun m hm => ?_
  have hmeaning : ∀ m ∈ e.members, ∀ l, Writes m l → memberMeaning round m.1 l = some m.2 := by
    intro m hm l hwrites
    obtain ⟨type, hfield, hstored⟩ := hstore m hm l hwrites
    rw [← meaning_of_store hstored]
    exact memberMeaning_of_field hfield
  rw [fields_of_decode hfields, Option.or_none]
  refine lastMeaning_eq_some ?_ ?_
  · obtain ⟨l, hl, hwrites⟩ := hwritten m hm
    exact ⟨l, hl, hmeaning m hm l hwrites⟩
  · intro l hl y hy
    obtain ⟨m', hm', hwrites⟩ := honly l hl
    obtain ⟨type, hfield, hstored⟩ := hstore m' hm' l hwrites
    obtain ⟨type', hmem, -⟩ := held_of_members hrepresentable hm
    have hfield' := field_of_memberMeaning hmem hy
    -- The member is written under the name of `m`, so that it is `m`.
    have hname : m'.1 = m.1 := by
      rw [hfield] at hfield'
      exact (Prod.mk.inj (Option.some.inj hfield')).1
    obtain rfl := List.inj_on_of_nodup_map (names_nodup e) hm' hm hname
    rw [hmeaning m' hm' l hwrites] at hy
    exact (Option.some.inj hy).symm

/-! ## The text that is written -/

/-- The value of a member as `json.Marshal` writes it, doubles by `formatFloat`. -/
def literalOf (formatFloat : ℚ → List Char) (m : String × Scalar) : Literal :=
  match m.2 with
  | .text s => .text (escape s)
  | .time t => .text t.format
  | .number q =>
    .number (if (m.1, FieldType.count) ∈ fieldTypes then writeInt q.num else formatFloat q)

def Payload.marshalText (formatFloat : ℚ → List Char) (payload : Payload) : String :=
  String.ofList (writeObject (payload.map fun m => (m.1, literalOf formatFloat m)))

theorem isPlain_of_isTimeChar {c : Char} (h : Rfc3339.isTimeChar c = true) : isPlain c = true := by
  simp only [Rfc3339.isTimeChar, Bool.or_eq_true, decide_eq_true_eq] at h
  rcases h with (((((hdigit | rfl) | rfl) | rfl) | rfl) | rfl) | rfl
  · have hrange : '0'.toNat ≤ c.toNat := (Char.isDigit_iff_toNat.mp hdigit).1
    have hquote : c ≠ '"' := by
      rintro rfl
      exact absurd hdigit (by decide)
    have hescape : c ≠ '\\' := by
      rintro rfl
      exact absurd hdigit (by decide)
    have hcontrol : 0x20 ≤ c.toNat := le_trans (by decide) hrange
    simp [isPlain, hquote, hescape, hcontrol]
  all_goals decide

theorem closed_format (t : Time) : Closed t.format :=
  closed_of_plain (List.all_eq_true.mpr fun c hc =>
    isPlain_of_isTimeChar (Rfc3339.write_chars _ _ c hc))

/-- What `json.Marshal` writes is a text of the payload, where doubles are written as texts
    that read back. -/
theorem payloadText_marshalText {formatFloat : ℚ → List Char}
    (hformat : ∀ q, round q = some q → ∃ n, readNumber (formatFloat q) = some n ∧ n.value = q)
    (hrepresentable : e.Representable round) :
    PayloadText e.members (Payload.marshalText formatFloat e.members) := by
  have hwrites : ∀ m ∈ e.members, Writes m (m.1, literalOf formatFloat m) ∧
      SpellsLiteral (literalOf formatFloat m) (writeLiteral (literalOf formatFloat m)) := by
    intro m hm
    obtain ⟨type, hmem, hheld⟩ := held_of_members hrepresentable hm
    obtain ⟨name, x⟩ := m
    cases hheld with
    | text s => exact ⟨.text (unquote_escape s), .text (closed_escape s)⟩
    | time t => exact ⟨.time name t, .text (closed_format t)⟩
    | @count z _ _ =>
      obtain ⟨n, hread, hinteger⟩ := readNumber_writeInt z
      have hliteral : literalOf formatFloat (name, .number z) = .number (writeInt z) := by
        simp only [literalOf, Rat.num_intCast]
        rw [if_pos hmem]
      rw [hliteral]
      exact ⟨.number hread (Number.value_of_integer hinteger) fun _ => by simp [hinteger],
        .number (by simp [hread])⟩
    | @cost q hround =>
      obtain ⟨n, hread, hvalue⟩ := hformat q hround
      have hcost : ¬(name, FieldType.count) ∈ fieldTypes :=
        fun hcount => absurd (type_unique hmem hcount) (by decide)
      have hliteral : literalOf formatFloat (name, .number q) = .number (formatFloat q) := by
        simp only [literalOf]
        rw [if_neg hcost]
      rw [hliteral]
      exact ⟨.number hread hvalue fun hcount => absurd hcount hcost, .number (by simp [hread])⟩
  refine ⟨e.members.map fun m => (m.1, literalOf formatFloat m), ?_, ?_, ?_⟩
  · rw [Payload.marshalText, String.toList_ofList]
    refine spells_writeObject fun l hl => ?_
    obtain ⟨m, hm, rfl⟩ := List.mem_map.mp hl
    exact (hwrites m hm).2
  · exact fun m hm => ⟨_, List.mem_map_of_mem hm, (hwrites m hm).1⟩
  · intro l hl
    obtain ⟨m, hm, rfl⟩ := List.mem_map.mp hl
    exact ⟨m, hm, (hwrites m hm).1⟩

end CubeOperator.Telemetry
