import CubeOperator.Lib.Program

/-! # The producer

    The publish loop of `publish_and_verify` in `demo/mcp_execution.py`: each event is
    posted until it is acknowledged, at most five times. -/

namespace CubeOperator.Telemetry

open Interaction

/-! ## The loop -/

/-- What `client.post` gives: a response, an `httpx.TransportError` or another exception. -/
inductive Posted where
  | response (status : ℕ)
  | transportError
  | raised
  deriving DecidableEq, Repr

inductive ProducerCall where
  | post (body : String)
  | sleep
  deriving DecidableEq, Repr

@[reducible] def ProducerAnswer : ProducerCall → Type
  | .post _ => Posted
  | .sleep => Unit

abbrev ProducerExchange : Type := Event ProducerAnswer

inductive PublishError where
  | runtimeError (message : String)
  /-- From `raise_for_status`. -/
  | httpStatusError (status : ℕ)
  | transportError
  | raised
  deriving DecidableEq, Repr

abbrev Producing : Type → Type := Attempt ProducerCall ProducerAnswer PublishError

abbrev post (body : String) : Producing Posted :=
  ExceptT.lift (Program.perform (ProducerCall.post body))

abbrev sleep : Producing Unit := ExceptT.lift (Program.perform ProducerCall.sleep)

/-- `raise_for_status` accepts the statuses 200 to 299. -/
def raiseForStatus (status : ℕ) : Producing Unit :=
  .failIf (!(200 ≤ status ∧ status < 300)) (.httpStatusError status)

/-- The `try` statement: whether the loop breaks. -/
def tryPost (body : String) (attempt : ℕ) : Producing Bool := do
  match ← post body with
  | .response status =>
    if status ≠ 503 then do
      raiseForStatus status
      .failIf (status ≠ 204) (.runtimeError "Ingestion did not acknowledge a durable write")
      pure true
    else pure false
  | .transportError => do
    .failIf (attempt == 4) .transportError
    pure false
  | .raised => throw .raised

/-- The loop over the attempts that are left. -/
def publishEvent (body : String) : List ℕ → Producing Unit
  | [] => pure ()
  | attempt :: attempts => do
    let acknowledged ← tryPost body attempt
    if acknowledged then pure ()
    else do
      .failIf (attempt == 4) (.runtimeError "Ingestion remained unavailable after five attempts")
      sleep
      publishEvent body attempts

/-- The loop over the events, `range(5)` for each. -/
def publish (bodies : List String) : Producing Unit :=
  .forEach (fun body => publishEvent body (List.range 5)) bodies

/-! ## What the loop does -/

variable {body : String} {attempt : ℕ} {attempts : List ℕ} {tr : List ProducerExchange}
  {error : PublishError}

/-- The number of posts. -/
def posts (tr : List ProducerExchange) : ℕ := tr.countP fun e => e.1 != .sleep

/-- An exchange after which the loop goes on. -/
inductive Retried (body : String) : ProducerExchange → Prop where
  | unavailable : Retried body ⟨.post body, .response 503⟩
  | transportError : Retried body ⟨.post body, .transportError⟩
  | slept : Retried body ⟨.sleep, ()⟩

/-- The event is posted until a post is answered 204. -/
def Acknowledged (body : String) (limit : ℕ) (tr : List ProducerExchange) : Prop :=
  ∃ failed, tr = failed ++ [⟨.post body, .response 204⟩] ∧ (∀ e ∈ failed, Retried body e) ∧
    posts tr ≤ limit

/-- The event is posted, and no post is answered 204. -/
def GivenUp (body : String) (limit : ℕ) (tr : List ProducerExchange) : Prop :=
  (∀ e ∈ tr, e.1 = .post body ∨ e.1 = .sleep) ∧ (⟨.post body, .response 204⟩ : ProducerExchange) ∉ tr ∧
    posts tr ≤ limit

theorem exec_post_iff {posted : Except PublishError Posted} :
    Exec (post body).run tr posted ↔ ∃ p, tr = [⟨.post body, p⟩] ∧ posted = .ok p := by
  rw [Exec.lift_iff]
  simp only [Exec.perform_iff]

/-- Either way only the event itself is posted. -/
theorem posted_of_acknowledged {limit : ℕ} (h : Acknowledged body limit tr)
    {e : ProducerExchange} (he : e ∈ tr) {body' : String} (hpost : e.1 = .post body') :
    body' = body := by
  obtain ⟨failed, rfl, hfailed, -⟩ := h
  rcases List.mem_append.mp he with he | he
  · cases hfailed e he <;> cases hpost <;> rfl
  · obtain rfl := List.mem_singleton.mp he
    cases hpost
    rfl

theorem posted_of_givenUp {limit : ℕ} (h : GivenUp body limit tr) {e : ProducerExchange}
    (he : e ∈ tr) {body' : String} (hpost : e.1 = .post body') : body' = body := by
  rcases h.1 e he with hcall | hcall
  · rw [hpost] at hcall
    exact ProducerCall.post.inj hcall
  · rw [hpost] at hcall
    cases hcall

/-- How the `try` statement ends. -/
theorem exec_tryPost {r : Except PublishError Bool} (h : Exec (tryPost body attempt).run tr r) :
    ∃ p, tr = [⟨.post body, p⟩] ∧
      ((r = .ok true ∧ p = .response 204) ∨
        (r = .ok false ∧ Retried body ⟨.post body, p⟩) ∨
        ((∃ error, r = .error error) ∧ p ≠ .response 204)) := by
  unfold tryPost at h
  rcases Exec.attempt_bind_iff.mp h with ⟨e, hpost, -⟩ | ⟨tr₁, p, tr₂, rfl, hpost, hrest⟩
  · obtain ⟨p, -, hp⟩ := exec_post_iff.mp hpost
    cases hp
  · obtain ⟨p', rfl, hp⟩ := exec_post_iff.mp hpost
    obtain rfl : p = p' := Except.ok.inj hp
    cases p with
    | response status =>
      by_cases h503 : status = 503
      · subst h503
        obtain ⟨rfl, rfl⟩ : tr₂ = [] ∧ r = .ok false := by simpa using hrest
        exact ⟨_, rfl, .inr (.inl ⟨rfl, .unavailable⟩)⟩
      · dsimp only at hrest
        rw [if_pos h503] at hrest
        rcases Exec.attempt_bind_iff.mp hrest with ⟨e, hraise, rfl⟩ | ⟨_, _, tr₃, rfl, hraise, hrest₁⟩
        · obtain ⟨rfl, hstatus, -⟩ := Exec.failIf_error_iff.mp hraise
          refine ⟨_, rfl, .inr (.inr ⟨⟨_, rfl⟩, ?_⟩)⟩
          intro hp
          obtain rfl : status = 204 := Posted.response.inj hp
          simp at hstatus
        · obtain ⟨rfl, -⟩ := Exec.failIf_ok_iff.mp hraise
          rcases Exec.attempt_bind_iff.mp hrest₁ with
            ⟨e, hother, rfl⟩ | ⟨_, _, tr₄, rfl, hdone, hrest₂⟩
          · obtain ⟨rfl, hstatus, -⟩ := Exec.failIf_error_iff.mp hother
            refine ⟨_, rfl, .inr (.inr ⟨⟨_, rfl⟩, ?_⟩)⟩
            intro hp
            obtain rfl : status = 204 := Posted.response.inj hp
            simp at hstatus
          · obtain ⟨rfl, hstatus⟩ := Exec.failIf_ok_iff.mp hdone
            obtain ⟨rfl, rfl⟩ : tr₄ = [] ∧ r = .ok true := by simpa using hrest₂
            obtain rfl : status = 204 := by simpa using hstatus
            exact ⟨_, rfl, .inl ⟨rfl, rfl⟩⟩
    | transportError =>
      -- raised after the last attempt, tried again before it
      rcases Exec.attempt_bind_iff.mp hrest with ⟨e, hlast, rfl⟩ | ⟨_, _, tr₃, rfl, hagain, hrest₁⟩
      · obtain ⟨rfl, -, -⟩ := Exec.failIf_error_iff.mp hlast
        exact ⟨_, rfl, .inr (.inr ⟨⟨_, rfl⟩, by simp⟩)⟩
      · obtain ⟨rfl, -⟩ := Exec.failIf_ok_iff.mp hagain
        obtain ⟨rfl, rfl⟩ : tr₃ = [] ∧ r = .ok false := by simpa using hrest₁
        exact ⟨_, rfl, .inr (.inl ⟨rfl, .transportError⟩)⟩
    | raised =>
      obtain ⟨rfl, rfl⟩ : tr₂ = [] ∧ r = .error .raised := by simpa using hrest
      exact ⟨_, rfl, .inr (.inr ⟨⟨_, rfl⟩, by simp⟩)⟩

@[simp] theorem posts_post (p : Posted) (tr : List ProducerExchange) :
    posts (⟨.post body, p⟩ :: tr) = posts tr + 1 := by
  simp [posts]

@[simp] theorem posts_sleep (u : Unit) (tr : List ProducerExchange) :
    posts (⟨.sleep, u⟩ :: tr) = posts tr := by
  simp [posts]

theorem acknowledged_slept {limit : ℕ} {u : Unit} (h : Acknowledged body limit tr) :
    Acknowledged body limit (⟨.sleep, u⟩ :: tr) := by
  obtain ⟨failed, rfl, hfailed, hposts⟩ := h
  refine ⟨⟨.sleep, u⟩ :: failed, rfl, ?_, by simpa using hposts⟩
  intro e he
  rcases List.mem_cons.mp he with rfl | he
  · exact .slept
  · exact hfailed e he

theorem givenUp_slept {limit : ℕ} {u : Unit} (h : GivenUp body limit tr) :
    GivenUp body limit (⟨.sleep, u⟩ :: tr) := by
  obtain ⟨hcalls, hnone, hposts⟩ := h
  exact ⟨by simpa using hcalls, by simpa using hnone, by simpa using hposts⟩

theorem acknowledged_cons {e : ProducerExchange} {limit : ℕ} (he : Retried body e)
    (h : Acknowledged body limit tr) : Acknowledged body (limit + 1) (e :: tr) := by
  obtain ⟨failed, rfl, hfailed, hposts⟩ := h
  refine ⟨e :: failed, rfl, by simpa using ⟨he, hfailed⟩, ?_⟩
  cases he <;> simp <;> omega

theorem givenUp_cons {e : ProducerExchange} {limit : ℕ} (he : Retried body e)
    (h : GivenUp body limit tr) : GivenUp body (limit + 1) (e :: tr) := by
  obtain ⟨hcalls, hnone, hposts⟩ := h
  refine ⟨?_, ?_, ?_⟩
  · cases he <;> simpa using hcalls
  · cases he <;> simpa using hnone
  · cases he <;> simp <;> omega

/-- The loop over attempts the last of which is number 4 acknowledges the event or raises,
    with at most one post for each attempt. -/
theorem exec_publishEvent {r : Except PublishError Unit} (hlast : attempts.getLast? = some 4)
    (h : Exec (publishEvent body attempts).run tr r) :
    (r = .ok () ∧ Acknowledged body attempts.length tr) ∨
      ((∃ error, r = .error error) ∧ GivenUp body attempts.length tr) := by
  induction attempts generalizing tr with
  | nil => cases hlast
  | cons attempt attempts ih =>
    unfold publishEvent at h
    rcases Exec.attempt_bind_iff.mp h with ⟨e, htry, rfl⟩ | ⟨tr₁, b, tr₂, rfl, htry, hrest⟩
    · obtain ⟨p, rfl, ⟨hr, -⟩ | ⟨hr, -⟩ | ⟨-, hp⟩⟩ := exec_tryPost htry
      · cases hr
      · cases hr
      · exact .inr ⟨⟨e, rfl⟩, by simp, by simpa using Ne.symm hp, by simp [posts]⟩
    · obtain ⟨p, rfl, ⟨hr, rfl⟩ | ⟨hr, hretried⟩ | ⟨⟨e, hr⟩, -⟩⟩ := exec_tryPost htry
      · obtain rfl : b = true := Except.ok.inj hr
        obtain ⟨rfl, rfl⟩ : tr₂ = [] ∧ r = .ok () := by simpa using hrest
        exact .inl ⟨rfl, [], rfl, by simp, by simp [posts]⟩
      · obtain rfl : b = false := Except.ok.inj hr
        rw [if_neg Bool.false_ne_true] at hrest
        rcases Exec.attempt_bind_iff.mp hrest with ⟨e, hfail, rfl⟩ | ⟨_, _, tr₃, rfl, hgo, hrest₁⟩
        · obtain ⟨rfl, -, -⟩ := Exec.failIf_error_iff.mp hfail
          have hempty : GivenUp body attempts.length [] := ⟨by simp, by simp, by simp [posts]⟩
          exact .inr ⟨⟨e, rfl⟩, givenUp_cons hretried hempty⟩
        · obtain ⟨rfl, hattempt⟩ := Exec.failIf_ok_iff.mp hgo
          -- The last attempt would have raised.
          have hlast' : attempts.getLast? = some 4 := by
            cases attempts with
            | nil => simp_all
            | cons next attempts => simpa [List.getLast?_cons_cons] using hlast
          rcases Exec.attempt_bind_iff.mp hrest₁ with
            ⟨e, hsleep, -⟩ | ⟨_, u, tr₄, rfl, hsleep, hrest₂⟩
          · obtain ⟨_, -, hok⟩ := Exec.lift_iff.mp hsleep
            cases hok
          · obtain ⟨_, hslept, -⟩ := Exec.lift_iff.mp hsleep
            obtain rfl := Exec.perform_iff.mp hslept
            rcases ih hlast' hrest₂ with ⟨hok, hacknowledged⟩ | ⟨herror, hgivenUp⟩
            · exact .inl ⟨hok, acknowledged_cons hretried (acknowledged_slept hacknowledged)⟩
            · exact .inr ⟨herror, givenUp_cons hretried (givenUp_slept hgivenUp)⟩
      · cases hr

theorem exec_publishEvent_range {r : Except PublishError Unit}
    (h : Exec (publishEvent body (List.range 5)).run tr r) :
    (r = .ok () ∧ Acknowledged body 5 tr) ∨ ((∃ error, r = .error error) ∧ GivenUp body 5 tr) :=
  exec_publishEvent rfl h

end CubeOperator.Telemetry
