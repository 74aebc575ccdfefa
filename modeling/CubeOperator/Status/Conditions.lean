import CubeOperator.Kopf.Pass
import CubeOperator.Status.Stored
import Mathlib.Data.List.Induction

/-! # Conditions over a run

    The status patch of the Kopf controller replaces the list of conditions, and the
    transition time in it is kept only when status, reason and message are all as they
    were.  The Go controller updates its own condition in the list, and compares the
    status alone, which is what the schema says of `lastTransitionTime`.

    `since` is when the condition got its status.  The Go controller records it in every
    run and loses nothing of the conditions of others.  This file gives the runs in which
    the Kopf controller does so. -/

namespace CubeOperator

open Interaction V1alpha1

/-! ## When the condition got its status -/

/-- A call of `set_status`, and what the clock says at it. -/
structure StatusCall where
  generation : ℤ
  ready : ℤ
  status : ConditionStatus
  reason : String
  message : String
  time : ℤ

/-- The time since which a status holds that is set at the time `now`. -/
def heldSince (status : ConditionStatus) (now : ℤ) :
    Option (ConditionStatus × ℤ) → ConditionStatus × ℤ
  | some (before, time) => if before = status then (before, time) else (status, now)
  | none => (status, now)

/-- The status of the condition and the time since which it has it, after a call. -/
def StatusCall.since (call : StatusCall) (before : Option (ConditionStatus × ℤ)) :
    ConditionStatus × ℤ := heldSince call.status call.time before

/-- The status of a condition, with its transition time. -/
def recorded (condition : Condition) : ConditionStatus × ℤ :=
  (condition.status, condition.lastTransitionTime)

/-- The same over a run: the time is that of the latest call at which the status was not
    the one before. -/
def since (initial : Option Condition) (calls : List StatusCall) : Option (ConditionStatus × ℤ) :=
  calls.foldl (fun before call => some (call.since before)) (initial.map recorded)

/-- The conditions of other types. -/
def others (status : CubeClusterStatus) : List Condition :=
  status.conditions.filter fun c => c.type ≠ "Ready"

/-- The conditions of type `Ready`. -/
def readyConditions (status : CubeClusterStatus) : List Condition :=
  status.conditions.filter fun c => c.type = "Ready"

theorem since_append (initial : Option Condition) (calls : List StatusCall) (call : StatusCall) :
    since initial (calls ++ [call]) = some (call.since (since initial calls)) := by
  simp [since]

/-- A call records a status since some earlier time, or since now. -/
theorem since_cases (call : StatusCall) (before : Option (ConditionStatus × ℤ)) :
    (∃ time, before = some (call.status, time) ∧ call.since before = (call.status, time)) ∨
      ((∀ time, before ≠ some (call.status, time)) ∧ call.since before = (call.status, call.time)) := by
  cases before with
  | none => exact .inr ⟨by simp, rfl⟩
  | some recorded =>
    obtain ⟨status, time⟩ := recorded
    by_cases hsame : status = call.status
    · subst hsame
      exact .inl ⟨time, rfl, by simp [StatusCall.since, heldSince]⟩
    · refine .inr ⟨?_, by simp [StatusCall.since, heldSince, hsame]⟩
      intro time' h
      simp only [Option.some.injEq, Prod.mk.injEq] at h
      exact hsame h.1

/-! ## The Go controller -/

namespace Go

variable {latest : CubeCluster} {call : StatusCall}

theorem setStatusCondition_others (t : ℤ) (new : Condition) (cs : List Condition) :
    (setStatusCondition t new cs).filter (fun c => c.type ≠ new.type) =
      cs.filter fun c => c.type ≠ new.type := by
  induction cs with
  | nil => simp [setStatusCondition]
  | cons c cs ih =>
    by_cases h : c.type = new.type
    · simp [setStatusCondition, h]
    · simpa [setStatusCondition, h] using ih

theorem setStatusCondition_recorded (t : ℤ) (new : Condition) (cs : List Condition) :
    ((setStatusCondition t new cs).find? fun c => c.type = new.type).map recorded =
      some (heldSince new.status t ((cs.find? fun c => c.type = new.type).map recorded)) := by
  induction cs with
  | nil => simp [setStatusCondition, recorded, heldSince]
  | cons c cs ih =>
    by_cases h : c.type = new.type
    · by_cases hstatus : c.status = new.status
      · simp [setStatusCondition, h, hstatus, recorded, heldSince]
      · simp [setStatusCondition, h, hstatus, recorded, heldSince]
    · simpa [setStatusCondition, h] using ih

/-- Setting the same again changes nothing, however much later. -/
theorem setStatusCondition_twice (t t' : ℤ) (new : Condition) (cs : List Condition) :
    setStatusCondition t' new (setStatusCondition t new cs) = setStatusCondition t new cs := by
  induction cs with
  | nil => simp [setStatusCondition]
  | cons c cs ih =>
    by_cases h : c.type = new.type
    · simp [setStatusCondition, h]
    · simp [setStatusCondition, h, ih]

/-- What the Go controller records of a call: the time since which the status holds, and
    the conditions of others as they were. -/
theorem newStatus_since (latest : CubeCluster) (call : StatusCall) :
    (newStatus latest call.time call.status call.reason call.message call.ready).ready.map
        recorded = some (call.since (latest.status.ready.map recorded)) ∧
      others (newStatus latest call.time call.status call.reason call.message call.ready) =
        others latest.status :=
  let new : Condition := { type := "Ready", status := call.status, reason := call.reason
                           message := call.message, observedGeneration := latest.generation
                           lastTransitionTime := 0 }
  ⟨setStatusCondition_recorded call.time new latest.status.conditions,
    setStatusCondition_others call.time new latest.status.conditions⟩

/-- An API server with the status `stored` of a cluster, and a clock. -/
def recordStatus (latest : CubeCluster) (time : ℤ) (stored : CubeClusterStatus) :
    (c : Call) → Answer c × CubeClusterStatus
  | .getCluster _ _ => (.ok { latest with status := stored }, stored)
  | .act (.patchStatus _ _ base modified) => (.ok (), patchedStatus base modified stored)
  | .act _ => (.ok (), stored)
  | .get _ => (.error (.other ""), stored)
  | .httpGet _ => (.failed "", stored)
  | .now => (time, stored)

/-- The status after a call of `setStatus` about the cluster `c`. -/
def statusAfterCall (c : CubeCluster) (stored : CubeClusterStatus) (call : StatusCall) :
    CubeClusterStatus :=
  ((setStatus c call.status call.reason call.message call.ready).run.runOn
    (recordStatus { c with generation := call.generation } call.time) stored).2.2

/-- Every call reads the status that the one before has stored. -/
def statusAfter (c : CubeCluster) (initial : CubeClusterStatus) (calls : List StatusCall) :
    CubeClusterStatus :=
  calls.foldl (statusAfterCall c) initial

theorem statusAfterCall_eq (c : CubeCluster) (stored : CubeClusterStatus) (call : StatusCall) :
    statusAfterCall c stored call =
      newStatus { c with generation := call.generation, status := stored } call.time call.status
        call.reason call.message call.ready :=
  patchedStatus_self stored _

theorem statusAfter_append (c : CubeCluster) (initial : CubeClusterStatus)
    (calls : List StatusCall) (call : StatusCall) :
    statusAfter c initial (calls ++ [call]) =
      statusAfterCall c (statusAfter c initial calls) call := by
  simp [statusAfter]

theorem statusAfterCall_twice (c : CubeCluster) (stored : CubeClusterStatus) (call : StatusCall)
    (time : ℤ) :
    statusAfterCall c (statusAfterCall c stored call) { call with time := time } =
      statusAfterCall c stored call := by
  simp only [statusAfterCall_eq, newStatus, endpoint, setStatusCondition_twice]

/-- Over every run of calls the Go controller records the time since which the condition
    has its status, and leaves the conditions of others as they were.  Nothing changes when
    the last call is repeated. -/
theorem conditions_kept (c : CubeCluster) (initial : CubeClusterStatus)
    (calls : List StatusCall) :
    (statusAfter c initial calls).ready.map recorded = since initial.ready calls ∧
      others (statusAfter c initial calls) = others initial ∧
      ∀ call time, statusAfter c initial (calls ++ [call, { call with time := time }]) =
        statusAfter c initial (calls ++ [call]) := by
  refine ⟨?_, ?_, fun call time => ?_⟩
  · induction calls using List.reverseRecOn with
    | nil => rfl
    | append_singleton calls call ih =>
      rw [statusAfter_append, statusAfterCall_eq, since_append, ← ih]
      exact (newStatus_since _ call).1
  · induction calls using List.reverseRecOn with
    | nil => rfl
    | append_singleton calls call ih =>
      rw [statusAfter_append, statusAfterCall_eq, ← ih]
      exact (newStatus_since _ call).2
  · rw [List.append_cons, statusAfter_append, statusAfter_append]
    exact statusAfterCall_twice c _ call time

end Go

/-! ## The Kopf controller -/

namespace Kopf

variable {name ns : String} {initial stored : CubeClusterStatus} {call : StatusCall}
  {calls : List StatusCall}

/-- A clock, and an API server that is not asked. -/
def clockAt (time : ℤ) : (c : Call) → Answer c
  | .act _ => .ok ()
  | .getCluster _ _ => .error (.other "")
  | .get _ => .error (.other "")
  | .httpGet _ => .failed ""
  | .now => time

/-- The status after a call.  The patch replaces what it names, which is all of it. -/
def statusAfterCall (ns name : String) (stored : CubeClusterStatus) (call : StatusCall) :
    CubeClusterStatus :=
  (setStatus stored call.generation ns name call.ready call.status call.reason call.message).eval
    (clockAt call.time)

/-- Every call is given the status that the one before has stored. -/
def statusAfter (ns name : String) (initial : CubeClusterStatus) (calls : List StatusCall) :
    CubeClusterStatus :=
  calls.foldl (statusAfterCall ns name) initial

/-- Status, reason and message of the condition are those of the call. -/
def Unchanged (condition : Condition) (call : StatusCall) : Prop :=
  condition.status = call.status ∧ condition.reason = call.reason ∧
    condition.message = call.message

instance (condition : Condition) (call : StatusCall) : Decidable (Unchanged condition call) :=
  inferInstanceAs (Decidable (_ ∧ _ ∧ _))

/-- The transition time of a call. -/
def transition (stored : CubeClusterStatus) (call : StatusCall) : ℤ :=
  match stored.ready with
  | some previous => if Unchanged previous call then previous.lastTransitionTime else call.time
  | none => call.time

/-- The condition that a call stores. -/
def condition (stored : CubeClusterStatus) (call : StatusCall) : Condition :=
  ⟨"Ready", call.status, call.reason, call.message, call.generation, transition stored call⟩

theorem statusAfterCall_eq (ns name : String) (stored : CubeClusterStatus) (call : StatusCall) :
    statusAfterCall ns name stored call =
      ⟨call.generation, call.ready, endpoint name ns, [condition stored call]⟩ := by
  have htransition : (transitionTime stored call.status call.reason call.message).eval
      (clockAt call.time) = transition stored call := by
    unfold transitionTime transition
    cases stored.ready with
    | none => rfl
    | some previous =>
      by_cases h : Unchanged previous call
      · have hsame : previous.status = call.status ∧ previous.reason = call.reason ∧
          previous.message = call.message := h
        simp [h, hsame]
      · have hdiffers : ¬(previous.status = call.status ∧ previous.reason = call.reason ∧
          previous.message = call.message) := h
        simp only [if_neg h, if_neg hdiffers]
        rfl
  unfold statusAfterCall setStatus
  rw [Program.eval_bind, htransition]
  rfl

@[simp] theorem ready_statusAfterCall :
    (statusAfterCall ns name stored call).ready = some (condition stored call) := by
  rw [statusAfterCall_eq]
  rfl

@[simp] theorem others_statusAfterCall : others (statusAfterCall ns name stored call) = [] := by
  rw [statusAfterCall_eq]
  rfl

theorem statusAfter_append :
    statusAfter ns name initial (calls ++ [call]) =
      statusAfterCall ns name (statusAfter ns name initial calls) call := by
  simp [statusAfter]

/-- Doing the same again changes nothing, however much later. -/
theorem statusAfterCall_twice (time : ℤ) :
    statusAfterCall ns name (statusAfterCall ns name stored call) { call with time := time } =
      statusAfterCall ns name stored call := by
  have hsame : transition (statusAfterCall ns name stored call) { call with time := time } =
      transition stored call := by
    unfold transition
    rw [ready_statusAfterCall]
    exact if_pos ⟨rfl, rfl, rfl⟩
  have hcondition : condition (statusAfterCall ns name stored call) { call with time := time } =
      condition stored call := by
    unfold condition
    rw [hsame]
  rw [statusAfterCall_eq, hcondition, statusAfterCall_eq]

/-! ## What a run records -/

/-- What is recorded after a call of a run: one condition of type `Ready`, with the time
    since which it has its status, and the conditions of others as they were; and nothing
    changes when the call is repeated. -/
structure Recorded (ns name : String) (initial : CubeClusterStatus) (calls : List StatusCall)
    (call : StatusCall) : Prop where
  one : (readyConditions (statusAfter ns name initial (calls ++ [call]))).length = 1
  since : (statusAfter ns name initial (calls ++ [call])).ready.map recorded =
    since initial.ready (calls ++ [call])
  others : others (statusAfter ns name initial (calls ++ [call])) = others initial
  repeated : ∀ time, statusAfter ns name initial (calls ++ [call, { call with time := time }]) =
    statusAfter ns name initial (calls ++ [call])

/-- A call that finds no condition of another type, and no other reason or message with
    the status that it sets. -/
structure Steady (stored : CubeClusterStatus) (call : StatusCall) : Prop where
  alone : others stored = []
  same : ∀ previous, stored.ready = some previous → previous.status = call.status →
    previous.reason = call.reason ∧ previous.message = call.message

/-- `P` holds of every call of the run and the calls before it. -/
def Throughout (P : List StatusCall → StatusCall → Prop) (calls : List StatusCall) : Prop :=
  ∀ before call after, calls = before ++ call :: after → P before call

theorem Throughout.of_append {P : List StatusCall → StatusCall → Prop} {after : List StatusCall}
    (h : Throughout P (calls ++ after)) : Throughout P calls := by
  intro before call rest hsplit
  exact h before call (rest ++ after) (by rw [hsplit, List.append_assoc, List.cons_append])

/-- Every call of the run is steady. -/
def SteadyRun (ns name : String) (initial : CubeClusterStatus) (calls : List StatusCall) : Prop :=
  Throughout (fun before call => Steady (statusAfter ns name initial before) call) calls

/-- Every call of the run is recorded as it should be. -/
def RecordedRun (ns name : String) (initial : CubeClusterStatus) (calls : List StatusCall) : Prop :=
  Throughout (Recorded ns name initial) calls

/-! ## Steady runs -/

/-- A steady call moves the transition time exactly when the status is another one. -/
theorem recorded_of_steady (h : Steady stored call) :
    recorded (condition stored call) = call.since (stored.ready.map recorded) := by
  cases hready : stored.ready with
  | none => simp [recorded, condition, transition, StatusCall.since, heldSince, hready]
  | some previous =>
    by_cases hstatus : previous.status = call.status
    · have hunchanged : Unchanged previous call := ⟨hstatus, h.same previous hready hstatus⟩
      simp [recorded, condition, transition, StatusCall.since, heldSince, hready, hstatus, hunchanged]
    · have hchanged : ¬Unchanged previous call := fun hunchanged => hstatus hunchanged.1
      simp [recorded, condition, transition, StatusCall.since, heldSince, hready, hstatus, hchanged]

theorem since_of_steadyRun (h : SteadyRun ns name initial calls) :
    (statusAfter ns name initial calls).ready.map recorded = since initial.ready calls := by
  induction calls using List.reverseRecOn with
  | nil => rfl
  | append_singleton calls call ih =>
    have hsteady := h calls call [] rfl
    rw [statusAfter_append, ready_statusAfterCall, since_append, Option.map_some,
      recorded_of_steady hsteady, ih h.of_append]

/-- A run that has a first call begins with no condition of another type. -/
theorem others_of_steadyRun (h : SteadyRun ns name initial calls) (hne : calls ≠ []) :
    others initial = [] := by
  cases calls with
  | nil => exact absurd rfl hne
  | cons call after => exact (h [] call after rfl).alone

theorem recordedRun_of_steadyRun (h : SteadyRun ns name initial calls) :
    RecordedRun ns name initial calls := by
  intro before call after hsplit
  have hrun : SteadyRun ns name initial (before ++ [call]) := by
    rw [hsplit, List.append_cons] at h
    exact h.of_append
  constructor
  case one =>
    rw [statusAfter_append, statusAfterCall_eq]
    rfl
  case since => exact since_of_steadyRun hrun
  case others =>
    rw [statusAfter_append, others_statusAfterCall,
      others_of_steadyRun hrun (by simp)]
  case repeated =>
    intro time
    rw [List.append_cons, statusAfter_append, statusAfter_append]
    exact statusAfterCall_twice time

/-! ## Runs that are recorded -/

/-- The recorded time is the first one, or that of some call. -/
theorem since_time {first : Option Condition} {status : ConditionStatus} {time : ℤ}
    (h : since first calls = some (status, time)) :
    (∃ c, first = some c ∧ time = c.lastTransitionTime) ∨ ∃ call ∈ calls, time = call.time := by
  induction calls using List.reverseRecOn generalizing status with
  | nil =>
    obtain ⟨c, rfl, hc⟩ := Option.map_eq_some_iff.mp h
    exact .inl ⟨c, rfl, (congrArg Prod.snd hc).symm⟩
  | append_singleton calls call ih =>
    rw [since_append, Option.some.injEq] at h
    rcases since_cases call (since first calls) with ⟨time', hbefore, hsince⟩ | ⟨-, hsince⟩
    · -- The status was there before, and so was the time.
      obtain rfl : time' = time := congrArg Prod.snd (hsince.symm.trans h)
      rcases ih hbefore with hfirst | ⟨call', hmem, htime⟩
      · exact .inl hfirst
      · exact .inr ⟨call', List.mem_append_left _ hmem, htime⟩
    · exact .inr ⟨call, by simp, (congrArg Prod.snd (hsince.symm.trans h)).symm⟩

theorem since_of_recordedRun (h : RecordedRun ns name initial calls) :
    (statusAfter ns name initial calls).ready.map recorded = since initial.ready calls := by
  induction calls using List.reverseRecOn with
  | nil => rfl
  | append_singleton calls call => exact (h calls call [] rfl).since

theorem steadyRun_of_recordedRun
    (hfirst : ∀ c, initial.ready = some c → ∀ call ∈ calls, c.lastTransitionTime < call.time)
    (hclock : calls.Pairwise fun call later => call.time < later.time)
    (h : RecordedRun ns name initial calls) : SteadyRun ns name initial calls := by
  intro before call after hsplit
  have hrecorded := h before call after hsplit
  have hbefore : (statusAfter ns name initial before).ready.map recorded =
      since initial.ready before := by
    rw [hsplit] at h
    exact since_of_recordedRun h.of_append
  constructor
  case alone =>
    cases before using List.reverseRecOn with
    | nil =>
      have hothers := hrecorded.others
      rw [statusAfter_append, others_statusAfterCall] at hothers
      exact hothers.symm
    | append_singleton before last =>
      rw [statusAfter_append]
      exact others_statusAfterCall
  case same =>
    intro previous hready hstatus
    by_contra hdiffers
    have hchanged : ¬Unchanged previous call := fun hunchanged => hdiffers hunchanged.2
    -- The call has recorded its own time, and the time of the previous condition is right.
    have hsince := hrecorded.since
    rw [hready, Option.map_some, recorded, hstatus] at hbefore
    rw [statusAfter_append, ready_statusAfterCall, since_append, ← hbefore] at hsince
    have htime : call.time = previous.lastTransitionTime := by
      simpa [recorded, condition, transition, hready, hchanged, StatusCall.since, heldSince] using hsince
    have hearlier : previous.lastTransitionTime < call.time := by
      rcases since_time hbefore.symm with ⟨c, hc, htime'⟩ | ⟨call', hmem, htime'⟩
      · rw [htime']
        exact hfirst c hc call (by simp [hsplit])
      · rw [htime']
        rw [hsplit] at hclock
        exact (List.pairwise_append.mp hclock).2.2 call' hmem call (List.mem_cons_self ..)
    omega

/-- In a run whose calls are all steady, every call is recorded as it should be, and in no
    other run, when the condition that is there at first is older than the calls. -/
theorem conditions_recorded_iff (ns name : String) (initial : CubeClusterStatus)
    (calls : List StatusCall) (hclock : calls.Pairwise fun call later => call.time < later.time) :
    (SteadyRun ns name initial calls → RecordedRun ns name initial calls) ∧
      ((∀ c, initial.ready = some c → ∀ call ∈ calls, c.lastTransitionTime < call.time) →
        RecordedRun ns name initial calls → SteadyRun ns name initial calls) :=
  ⟨recordedRun_of_steadyRun, fun hfirst => steadyRun_of_recordedRun hfirst hclock⟩

/-! ## A rollout that makes progress -/

/-- Two passes during a rollout, of which the second finds one more replica ready. -/
def progress : List StatusCall :=
  [⟨1, 0, .isFalse, "Progressing", "API 0/2", 10⟩, ⟨1, 1, .isFalse, "Progressing", "API 1/2", 20⟩]

/-- The second pass moves the transition time. -/
theorem progress_moves : ¬∀ (ns name : String) (initial : CubeClusterStatus)
    (calls : List StatusCall), (readyConditions initial).length ≤ 1 →
    (calls.Pairwise fun call later => call.time < later.time) →
    RecordedRun ns name initial calls := by
  intro h
  have hrecorded := h "default" "cube" {} progress (by decide) (by decide) [_] _ [] rfl
  exact absurd hrecorded.since (by decide)

/-- A rollout whose second pass finds what the first one found. -/
def waiting : List StatusCall :=
  [⟨1, 0, .isFalse, "Progressing", "API 0/2", 10⟩, ⟨1, 0, .isFalse, "Progressing", "API 0/2", 20⟩]

theorem conditions_recorded_waiting : RecordedRun "default" "cube" {} waiting := by
  refine (conditions_recorded_iff "default" "cube" {} waiting (by decide)).1 ?_
  intro before call after hsplit
  -- The first call finds no condition, the second the one of the first.
  rcases before with _ | ⟨first, _ | ⟨second, before⟩⟩
  · exact ⟨rfl, fun previous h => by cases h⟩
  · obtain ⟨hfirst, hrest⟩ := List.cons.inj hsplit
    obtain ⟨hcall, -⟩ := List.cons.inj hrest
    subst hfirst hcall
    refine ⟨rfl, fun previous h _ => ?_⟩
    obtain rfl := Option.some.inj h
    exact ⟨rfl, rfl⟩
  · simp [waiting] at hsplit

end Kopf

end CubeOperator
