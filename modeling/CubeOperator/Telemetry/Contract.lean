import CubeOperator.Telemetry.Executions
import Mathlib.Tactic.Common
import Mathlib.Data.List.TakeWhile
import Mathlib.Algebra.Order.Ring.Unbundled.Rat

/-! # What the execution API accepts

    `validate` accepts exactly the events that keep the span contract and end within
    the time that is accepted at the moment.  The contract does not depend on the
    clock, and not on the zones in which the times are given. -/

namespace CubeOperator.Telemetry

open Interaction

variable {e : Execution} {order : FieldOrder} {now : Time} {retention : ℤ}

/-! ## The contract -/

/-- A string with a character that is not white space. -/
def NotBlank (s : String) : Prop := ∃ c ∈ s.toList, isSpace c = false

/-- The details that the kind of a span requires. -/
inductive Execution.Detailed (e : Execution) : Prop where
  | run : e.kind = "run" → Detailed e
  | skill : e.kind = "skill" → e.skillVersion ≠ "" → Detailed e
  | tool : e.kind = "tool" → e.tool ≠ "" → Detailed e
  | handoff : e.kind = "handoff" → e.targetAgent ≠ "" → Detailed e
  | artifact : e.kind = "artifact" → e.artifactUri ≠ "" → e.artifactType ≠ "" → Detailed e
  | validation : e.kind = "validation" →
      e.validation = "passed" ∨ e.validation = "failed" ∨ e.validation = "skipped" → Detailed e
  | model : e.kind = "model" → e.model ≠ "" → e.provider ≠ "" → Detailed e

/-- What `validate` demands of a span at any time. -/
structure Execution.Contract (e : Execution) : Prop where
  required : ∀ field : Required, NotBlank (field.value e)
  started : e.startedAt.unixNano ≠ Time.zero
  ended : e.endedAt.unixNano ≠ Time.zero
  ordered : e.startedAt.unixNano ≤ e.endedAt.unixNano
  status : e.status = "succeeded" ∨ e.status = "failed" ∨ e.status = "cancelled"
  nonnegative : 0 ≤ e.inputTokens ∧ 0 ≤ e.outputTokens ∧ 0 ≤ e.costUsd
  parent : e.parentId ≠ e.eventId
  detailed : e.Detailed
  usage : e.kind ≠ "model" → e.inputTokens = 0 ∧ e.outputTokens = 0 ∧ e.costUsd = 0

/-- The span ends within the retention period and not in the future. -/
structure Execution.Timely (e : Execution) (now : Time) (retention : ℤ) : Prop where
  recent : now.unixNano - retention ≤ e.endedAt.unixNano
  past : e.endedAt.unixNano ≤ now.unixNano + 5 * 60 * 10 ^ 9

/-! ## Times -/

namespace Time

variable {t u : Time}

@[simp] theorem isZero_iff : t.isZero = true ↔ t.unixNano = zero := by simp [isZero]

@[simp] theorem before_iff : t.before u = true ↔ t.unixNano < u.unixNano := by simp [before]

@[simp] theorem after_iff : t.after u = true ↔ u.unixNano < t.unixNano := by simp [after]

@[simp] theorem unixNano_add (t : Time) (d : ℤ) : (t.add d).unixNano = t.unixNano + d := rfl

@[simp] theorem unixNano_utc (t : Time) : t.utc.unixNano = t.unixNano := rfl

end Time

/-! ## The checks -/

/-- A check is passed when its condition does not hold. -/
theorem ite_eq_iff_of_some {c : Prop} [Decidable c] {message : String} {rest : Option String} :
    (if c then some message else rest) = none ↔ ¬c ∧ rest = none := by
  by_cases h : c <;> simp [h]

/-- Nothing is left of a string when all of it is white space. -/
theorem trimSpace_eq_empty_iff {s : String} :
    trimSpace s = "" ↔ ∀ c ∈ s.toList, isSpace c = true := by
  have hempty : ∀ l : List Char, String.ofList l = "" ↔ l = [] := by
    intro l
    rw [← String.ofList_nil, String.ofList_inj]
  unfold trimSpace
  rw [hempty, List.reverse_eq_nil_iff, List.dropWhile_eq_nil_iff]
  constructor
  · intro h
    -- The first character after the leading white space would not be white space.
    cases hrest : s.toList.dropWhile isSpace with
    | nil => exact List.dropWhile_eq_nil_iff.mp hrest
    | cons c cs =>
      have hspace : isSpace c = true := h c (by simp [hrest])
      have hnot := List.head?_dropWhile_not isSpace s.toList
      simp [hrest, hspace] at hnot
  · intro h
    rw [List.dropWhile_eq_nil_iff.mpr h]
    simp

theorem notBlank_iff {s : String} : NotBlank s ↔ trimSpace s ≠ "" := by
  rw [ne_eq, trimSpace_eq_empty_iff]
  simp [NotBlank]

theorem ne_empty_of_notBlank {s : String} (h : NotBlank s) : s ≠ "" := by
  rintro rfl
  obtain ⟨c, hc, -⟩ := h
  simp at hc

theorem Required.mem_all (field : Required) : field ∈ Required.all := by
  cases field <;> decide

/-- No required field is found blank, in whatever order they are looked at. -/
theorem find_blank_eq_none_iff :
    (order.val.find? fun field => trimSpace (field.value e) = "") = none ↔
      ∀ field : Required, NotBlank (field.value e) := by
  rw [List.find?_eq_none]
  constructor
  · intro h field
    have hmem : field ∈ order.val := order.property.mem_iff.mpr field.mem_all
    exact notBlank_iff.mpr (by simpa using h field hmem)
  · intro h field _
    simpa using notBlank_iff.mp (h field)

theorem kindError_eq_none_iff : e.kindError = none ↔ e.Detailed := by
  unfold Execution.kindError
  constructor
  · intro h
    split_ifs at h with hrun hskill h1 htool h2 hhandoff h3 hartifact h4 hvalidation h5 hmodel h6
    · exact .run hrun
    · exact .skill hskill h1
    · exact .tool htool h2
    · exact .handoff hhandoff h3
    · exact .artifact hartifact (fun h => h4 (.inl h)) fun h => h4 (.inr h)
    · exact .validation hvalidation (by tauto)
    · exact .model hmodel (fun h => h6 (.inl h)) fun h => h6 (.inr h)
  · intro h
    cases h with
    | run hkind => simp [hkind]
    | skill hkind hversion => simp [hkind, hversion]
    | tool hkind htool => simp [hkind, htool]
    | handoff hkind htarget => simp [hkind, htarget]
    | artifact hkind huri htype => simp [hkind, huri, htype]
    | validation hkind hresult => rcases hresult with h | h | h <;> simp [hkind, h]
    | model hkind hmodel hprovider => simp [hkind, hmodel, hprovider]

/-- The times pass their check. -/
theorem times_iff :
    ¬(e.startedAt.isZero ∨ e.endedAt.isZero ∨ e.endedAt.before e.startedAt ∨
        e.endedAt.after (now.add (5 * 60 * 10 ^ 9)) ∨ e.endedAt.before (now.add (-retention))) ↔
      (e.startedAt.unixNano ≠ Time.zero ∧ e.endedAt.unixNano ≠ Time.zero ∧
        e.startedAt.unixNano ≤ e.endedAt.unixNano) ∧ e.Timely now retention := by
  simp only [Time.isZero_iff, Time.before_iff, Time.after_iff, Time.unixNano_add, not_or, not_lt]
  constructor
  · intro h
    obtain ⟨hstarted, hended, hordered, hpast, hrecent⟩ := h
    have hretained : now.unixNano - retention ≤ e.endedAt.unixNano := by omega
    exact ⟨⟨hstarted, hended, hordered⟩, ⟨hretained, hpast⟩⟩
  · intro h
    obtain ⟨⟨hstarted, hended, hordered⟩, hrecent, hpast⟩ := h
    have hretained : now.unixNano + -retention ≤ e.endedAt.unixNano := by omega
    exact ⟨hstarted, hended, hordered, hpast, hretained⟩

/-! ## What `validate` accepts -/

/-- `validate` accepts the events that keep the contract and end in time, whatever the
    order in which it looks at the required fields. -/
theorem validate_eq_none_iff :
    e.validate order now retention = none ↔ e.Contract ∧ e.Timely now retention := by
  unfold Execution.validate
  cases hblank : order.val.find? fun field => trimSpace (field.value e) = "" with
  | some field =>
    have hsome : ¬∀ field : Required, NotBlank (field.value e) := by
      intro h
      rw [find_blank_eq_none_iff.mpr h] at hblank
      cases hblank
    simp only [reduceCtorEq, false_iff]
    intro h
    exact hsome h.1.required
  | none =>
    have hrequired := find_blank_eq_none_iff.mp hblank
    constructor
    · intro h
      dsimp only at h
      -- no check of the chain has answered
      rw [ite_eq_iff_of_some, ite_eq_iff_of_some, ite_eq_iff_of_some, ite_eq_iff_of_some] at h
      obtain ⟨htimes, hstatus, hnegative, hparent, hrest⟩ := h
      obtain ⟨⟨hstarted, hended, hordered⟩, htimely⟩ := times_iff.mp htimes
      cases hkind : e.kindError with
      | some message => simp [hkind] at hrest
      | none =>
        simp only [hkind, ite_eq_iff_of_some, and_true] at hrest
        simp only [not_or, not_lt] at hnegative
        exact ⟨⟨hrequired, hstarted, hended, hordered, by tauto, hnegative, hparent,
          kindError_eq_none_iff.mp hkind, by tauto⟩, htimely⟩
    · intro h
      obtain ⟨hcontract, htimely⟩ := h
      have hkind := kindError_eq_none_iff.mpr hcontract.detailed
      have hstatus := hcontract.status
      have husage := hcontract.usage
      have htimes := times_iff.mpr
        ⟨⟨hcontract.started, hcontract.ended, hcontract.ordered⟩, htimely⟩
      dsimp only
      rw [if_neg htimes, if_neg, if_neg, if_neg hcontract.parent]
      · simp only [hkind]
        rw [if_neg]
        tauto
      · simpa using hcontract.nonnegative
      · tauto

/-! ## Times in UTC -/

@[simp] theorem utc_utc (e : Execution) : e.utc.utc = e.utc := rfl

theorem detailed_utc_iff : e.utc.Detailed ↔ e.Detailed := by
  rw [← kindError_eq_none_iff, ← kindError_eq_none_iff]
  rfl

theorem required_utc (field : Required) : field.value e.utc = field.value e := by
  cases field <;> rfl

/-- The contract looks at instants only. -/
theorem contract_utc_iff : e.utc.Contract ↔ e.Contract := by
  constructor
  · intro h
    exact ⟨fun field => required_utc (e := e) field ▸ h.required field, h.started, h.ended, h.ordered,
      h.status, h.nonnegative, h.parent, detailed_utc_iff.mp h.detailed, h.usage⟩
  · intro h
    exact ⟨fun field => required_utc (e := e) field ▸ h.required field, h.started, h.ended, h.ordered,
      h.status, h.nonnegative, h.parent, detailed_utc_iff.mpr h.detailed, h.usage⟩

theorem contract_utc (h : e.Contract) : e.utc.Contract := contract_utc_iff.mpr h

end CubeOperator.Telemetry
