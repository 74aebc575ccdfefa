import CubeOperator.Telemetry.Accounting

/-! # The documented contract of a span

    `docs/agent-executions.md` requires details of a span that depend on its kind, in
    the same word in which it requires the common fields.  `validate` trims the common
    fields before it compares them with the empty string, and compares the details as
    they are.  This file gives the spans on which the two differ. -/

namespace CubeOperator.Telemetry

variable {e : Execution} {order : FieldOrder} {now : Time} {retention : ℤ}

/-! ## The producer contract -/

namespace Execution

/-- The texts that the kind of a span requires. -/
def details (e : Execution) : List String :=
  if e.kind = "skill" then [e.skillVersion]
  else if e.kind = "tool" then [e.tool]
  else if e.kind = "handoff" then [e.targetAgent]
  else if e.kind = "artifact" then [e.artifactUri, e.artifactType]
  else if e.kind = "model" then [e.model, e.provider]
  else []

def kinds : List String := ["run", "skill", "tool", "handoff", "artifact", "validation", "model"]

/-- What the documentation requires of a span, the texts of its kind left out. -/
structure Common (e : Execution) (now : Time) (retention : ℤ) : Prop where
  required : ∀ field : Required, NotBlank (field.value e)
  set : e.startedAt.unixNano ≠ Time.zero ∧ e.endedAt.unixNano ≠ Time.zero
  ordered : e.startedAt.unixNano ≤ e.endedAt.unixNano
  retained : now.unixNano - retention ≤ e.endedAt.unixNano
  past : e.endedAt.unixNano ≤ now.unixNano + 5 * 60 * 10 ^ 9
  status : e.status ∈ ["succeeded", "failed", "cancelled"]
  nonnegative : 0 ≤ e.inputTokens ∧ 0 ≤ e.outputTokens ∧ 0 ≤ e.costUsd
  usage : e.kind ≠ "model" → e.inputTokens = 0 ∧ e.outputTokens = 0 ∧ e.costUsd = 0
  parent : e.parentId ≠ e.eventId
  kind : e.kind ∈ kinds
  validation : e.kind = "validation" → e.validation ∈ ["passed", "failed", "skipped"]

/-- The producer contract. -/
structure Documented (e : Execution) (now : Time) (retention : ℤ) : Prop extends
    e.Common now retention where
  details : ∀ detail ∈ e.details, NotBlank detail

/-- Some required detail is given, and is white space only. -/
structure BlankDetail (e : Execution) (now : Time) (retention : ℤ) : Prop extends
    e.Common now retention where
  given : ∀ detail ∈ e.details, detail ≠ ""
  blank : ∃ detail ∈ e.details, ¬NotBlank detail

end Execution

/-! ## What `validate` looks at -/

/-- The checks by kind, without white space being trimmed. -/
theorem detailed_iff : e.Detailed ↔ e.kind ∈ Execution.kinds ∧
    (e.kind = "validation" → e.validation ∈ ["passed", "failed", "skipped"]) ∧
    ∀ detail ∈ e.details, detail ≠ "" := by
  constructor
  · intro h
    cases h with
    | run hkind => simp [hkind, Execution.kinds, Execution.details]
    | skill hkind hversion => simp [hkind, Execution.kinds, Execution.details, hversion]
    | tool hkind htool => simp [hkind, Execution.kinds, Execution.details, htool]
    | handoff hkind htarget => simp [hkind, Execution.kinds, Execution.details, htarget]
    | artifact hkind huri htype => simp [hkind, Execution.kinds, Execution.details, huri, htype]
    | validation hkind hresult => simpa [hkind, Execution.kinds, Execution.details] using hresult
    | model hkind hmodel hprovider =>
      simp [hkind, Execution.kinds, Execution.details, hmodel, hprovider]
  · intro h
    obtain ⟨hkind, hvalidation, hdetails⟩ := h
    simp only [Execution.kinds, List.mem_cons, List.not_mem_nil, or_false] at hkind
    rcases hkind with hkind | hkind | hkind | hkind | hkind | hkind | hkind
    · exact .run hkind
    · exact .skill hkind (hdetails _ (by simp [Execution.details, hkind]))
    · exact .tool hkind (hdetails _ (by simp [Execution.details, hkind]))
    · exact .handoff hkind (hdetails _ (by simp [Execution.details, hkind]))
    · exact .artifact hkind (hdetails _ (by simp [Execution.details, hkind]))
        (hdetails _ (by simp [Execution.details, hkind]))
    · exact .validation hkind (by simpa using hvalidation hkind)
    · exact .model hkind (hdetails _ (by simp [Execution.details, hkind]))
        (hdetails _ (by simp [Execution.details, hkind]))

/-- `validate` asks for the producer contract, with details that are not empty in place of
    details that are not blank. -/
theorem validate_eq_none_iff_common : e.validate order now retention = none ↔
    e.Common now retention ∧ ∀ detail ∈ e.details, detail ≠ "" := by
  rw [validate_eq_none_iff]
  constructor
  · intro h
    obtain ⟨hcontract, htimely⟩ := h
    obtain ⟨hkind, hvalidation, hdetails⟩ := detailed_iff.mp hcontract.detailed
    have hstatus : e.status ∈ ["succeeded", "failed", "cancelled"] := by
      simpa using hcontract.status
    exact ⟨⟨hcontract.required, ⟨hcontract.started, hcontract.ended⟩, hcontract.ordered,
      htimely.recent, htimely.past, hstatus, hcontract.nonnegative, hcontract.usage,
      hcontract.parent, hkind, hvalidation⟩, hdetails⟩
  · intro h
    obtain ⟨hcommon, hdetails⟩ := h
    have hstatus : e.status = "succeeded" ∨ e.status = "failed" ∨ e.status = "cancelled" := by
      simpa using hcommon.status
    have hdetailed := detailed_iff.mpr ⟨hcommon.kind, hcommon.validation, hdetails⟩
    exact ⟨⟨hcommon.required, hcommon.set.1, hcommon.set.2, hcommon.ordered, hstatus,
      hcommon.nonnegative, hcommon.parent, hdetailed, hcommon.usage⟩,
      ⟨hcommon.retained, hcommon.past⟩⟩

/-! ## Where the two differ -/

/-- `validate` decides the producer contract, except on the spans that keep all of it but
    give a required detail as white space. -/
theorem validate_documented_iff (e : Execution) (order : FieldOrder) (now : Time) (retention : ℤ) :
    (e.validate order now retention = none ↔ e.Documented now retention) ↔
      ¬e.BlankDetail now retention := by
  rw [validate_eq_none_iff_common]
  constructor
  · intro h hblank
    have hdocumented := h.mp ⟨hblank.toCommon, hblank.given⟩
    obtain ⟨detail, hmem, hnot⟩ := hblank.blank
    exact hnot (hdocumented.details detail hmem)
  · intro h
    constructor
    · intro haccepted
      obtain ⟨hcommon, hgiven⟩ := haccepted
      refine ⟨hcommon, fun detail hmem => ?_⟩
      -- A blank one would make it a span that is accepted by mistake.
      by_contra hnot
      exact h ⟨hcommon, hgiven, detail, hmem, hnot⟩
    · intro hdocumented
      exact ⟨hdocumented.toCommon, fun detail hmem =>
        ne_empty_of_notBlank (hdocumented.details detail hmem)⟩

/-! ## A tool without a name -/

/-- A tool span whose tool is a blank. -/
def blankTool : Execution := { fineSpan with kind := "tool", tool := " " }

theorem contract_blankTool : blankTool.Contract where
  required field := by
    have hfield := contract_fineSpan.required field
    cases field
    case kind => exact ⟨'t', by decide, by decide⟩
    all_goals exact hfield
  started := by decide
  ended := by decide
  ordered := by decide
  status := .inl rfl
  nonnegative := by decide
  parent := by decide
  detailed := .tool rfl (by decide)
  usage _ := ⟨rfl, rfl, rfl⟩

/-- The span is accepted, and its tool has no character that is not blank. -/
theorem blankTool_accepted : ¬∀ (e : Execution) (order : FieldOrder) (now : Time) (retention : ℤ),
    0 < retention → (e.validate order now retention = none ↔ e.Documented now retention) := by
  intro h
  have htimely : blankTool.Timely fineNow weekAPI.retention := ⟨by decide, by decide⟩
  have haccepted : blankTool.validate ⟨Required.all, .refl _⟩ fineNow weekAPI.retention = none :=
    validate_eq_none_iff.mpr ⟨contract_blankTool, htimely⟩
  have hdocumented := (h blankTool _ fineNow weekAPI.retention (by decide)).mp haccepted
  obtain ⟨c, hc, hspace⟩ := hdocumented.details " " (by decide)
  obtain rfl : c = ' ' := by simpa using hc
  exact absurd hspace (by decide)

end CubeOperator.Telemetry
