import CubeOperator.Telemetry.Mcp

/-! # The spans of an execution

    Which spans `execute` reports, and with which times, follows from what became of the
    tool, whatever the server of the tool does and wherever an exception is raised. -/

namespace CubeOperator.Telemetry.Mcp

open Interaction Verification

/-! ## What a trace shows -/

def reading? : Exchange → Option ℤ
  | ⟨.now, (micros : ℤ)⟩ => some micros
  | _ => none

/-- The readings of the clock. -/
def readings (tr : List Exchange) : List ℤ := tr.filterMap reading?

def toolCall? : Exchange → Option (String × Json × Except Raised ToolResult)
  | ⟨.callTool name arguments, answer⟩ => some (name, arguments, answer)
  | _ => none

/-- The calls of a tool, with their answers. -/
def toolCalls (tr : List Exchange) : List (String × Json × Except Raised ToolResult) :=
  tr.filterMap toolCall?

def write? : Exchange → Option (String × ToolResult × Except Raised Unit)
  | ⟨.writeResult path result, answer⟩ => some (path, result, answer)
  | _ => none

/-- The results that were to be written, with the answers. -/
def writes (tr : List Exchange) : List (String × ToolResult × Except Raised Unit) :=
  tr.filterMap write?

/-- What became of the tool, with the readings of the clock. -/
inductive Course where
  | uncalled
  | failed (started stopped : ℤ)
  | returned (started stopped artifactStarted : ℤ)
  | written (started stopped artifactStarted artifactStopped : ℤ)

namespace Course

variable (asUri : String → String) (args : Args) (trace artifact : String)

def times : Course → List ℤ
  | uncalled => []
  | failed started stopped => [started, stopped]
  | returned started stopped artifactStarted => [started, stopped, artifactStarted]
  | written started stopped artifactStarted artifactStopped =>
    [started, stopped, artifactStarted, artifactStopped]

/-- The spans of the tool and of its artifact. -/
def spans (error : Option String) : Course → List PublishedEvent
  | uncalled => []
  | failed started stopped =>
    [spanEvent args trace "tool" (isoformat started) (isoformat stopped) "failed"
      [("tool", args.tool), ("errorType", error.getD "")]]
  | returned started stopped _ =>
    [spanEvent args trace "tool" (isoformat started) (isoformat stopped) "succeeded"
      [("tool", args.tool)]]
  | written started stopped artifactStarted artifactStopped =>
    [spanEvent args trace "tool" (isoformat started) (isoformat stopped) "succeeded"
      [("tool", args.tool)],
    spanEvent args trace "artifact" (isoformat artifactStarted) (isoformat artifactStopped)
      "succeeded" [("artifactUri", asUri artifact), ("artifactType", "application/json")]]

/-- The exchanges of an execution of this course. -/
inductive Shown : Course → List Exchange → Prop where
  | uncalled {tr : List Exchange} : toolCalls tr = [] → writes tr = [] → Shown uncalled tr
  | failed {started stopped : ℤ} {tr : List Exchange} {answer : Except Raised ToolResult} :
      toolCalls tr = [(args.tool, args.arguments, answer)] →
      (∀ result, answer = .ok result → result.isError = true) → writes tr = [] →
      Shown (failed started stopped) tr
  | returned {started stopped artifactStarted : ℤ} {tr : List Exchange} {result : ToolResult}
      {raised : Raised} : toolCalls tr = [(args.tool, args.arguments, .ok result)] →
      result.isError = false → writes tr = [(artifact, result, .error raised)] →
      Shown (returned started stopped artifactStarted) tr
  | written {started stopped artifactStarted artifactStopped : ℤ} {tr : List Exchange}
      {result : ToolResult} : toolCalls tr = [(args.tool, args.arguments, .ok result)] →
      result.isError = false → writes tr = [(artifact, result, .ok ())] →
      Shown (written started stopped artifactStarted artifactStopped) tr

end Course

/-- The result was written. -/
def Course.complete : Course → Bool
  | .written .. => true
  | _ => false

/-- The span of the whole execution. -/
def runSpan (args : Args) (trace : String) (error : Option String) (start stop : ℤ) :
    PublishedEvent :=
  spanEvent args trace "run" (isoformat start) (isoformat stop)
    (if truthy error then "failed" else "succeeded")
    (if truthy error then [("errorType", error.getD "")] else [])

/-! ## The forms of the spans -/

section details

variable {asUri : String → String} {args : Args} {trace artifact kind status : String}
  {fields : PublishedEvent} {event : PublishedEvent} {error : Option String} {course : Course}

/-- The kinds of spans with their fields. -/
inductive Details (asUri : String → String) (args : Args) (artifact : String) :
    String → String → PublishedEvent → Prop where
  | toolFailed (error : String) : Details asUri args artifact "tool" "failed"
      [("tool", args.tool), ("errorType", error)]
  | tool : Details asUri args artifact "tool" "succeeded" [("tool", args.tool)]
  | artifact : Details asUri args artifact "artifact" "succeeded"
      [("artifactUri", asUri artifact), ("artifactType", "application/json")]
  | runFailed (error : String) : Details asUri args artifact "run" "failed" [("errorType", error)]
  | run : Details asUri args artifact "run" "succeeded" []

/-- The fields that all spans have. -/
def common (args : Args) (trace kind start stop status : String) : PublishedEvent :=
  spanEvent args trace kind start stop status []

theorem spanEvent_eq (h : Details asUri args artifact kind status fields) (start stop : String) :
    spanEvent args trace kind start stop status fields =
      common args trace kind start stop status ++ fields := by
  cases h <;> simp [spanEvent, common, update, set]

theorem lookup_eventId (h : Details asUri args artifact kind status fields) (start stop : String) :
    (spanEvent args trace kind start stop status fields).lookup "eventId" =
      some (trace ++ "-" ++ kind) := by
  rw [spanEvent_eq h]
  simp [common, spanEvent, update]

theorem get_spanEvent (h : Details asUri args artifact kind status fields) (start stop : String) :
    (spanEvent args trace kind start stop status fields).get "eventId" = trace ++ "-" ++ kind ∧
      (spanEvent args trace kind start stop status fields).get "kind" = kind ∧
      (spanEvent args trace kind start stop status fields).get "status" = status ∧
      (spanEvent args trace kind start stop status fields).get "parentId" =
        if kind = "run" then "" else trace ++ "-run" := by
  rw [spanEvent_eq h]
  simp [common, spanEvent, update, PublishedEvent.get, List.lookup_cons]

theorem runSpan_eq (asUri : String → String) (args : Args) (trace artifact : String)
    (error : Option String) (start stop : ℤ) : ∃ fields,
      Details asUri args artifact "run" (if truthy error then "failed" else "succeeded") fields ∧
      runSpan args trace error start stop =
        spanEvent args trace "run" (isoformat start) (isoformat stop)
          (if truthy error then "failed" else "succeeded") fields := by
  unfold runSpan
  by_cases herror : truthy error = true
  · rw [if_pos herror, if_pos herror]
    exact ⟨_, .runFailed _, rfl⟩
  · rw [if_neg herror, if_neg herror]
    exact ⟨_, .run, rfl⟩

theorem mem_spans (hevent : event ∈ course.spans asUri args trace artifact error) :
    ∃ kind status fields started stopped, Details asUri args artifact kind status fields ∧
      kind ≠ "run" ∧
      event = spanEvent args trace kind (isoformat started) (isoformat stopped) status fields ∧
      [started, stopped].Sublist course.times := by
  cases course with
  | uncalled => cases hevent
  | failed started stopped =>
    obtain rfl := List.mem_singleton.mp hevent
    exact ⟨_, _, _, started, stopped, .toolFailed _, by decide, rfl, .refl _⟩
  | returned started stopped artifactStarted =>
    obtain rfl := List.mem_singleton.mp hevent
    exact ⟨_, _, _, started, stopped, .tool, by decide, rfl, by simp [Course.times]⟩
  | written started stopped artifactStarted artifactStopped =>
    rcases List.mem_cons.mp hevent with rfl | hevent
    · exact ⟨_, _, _, started, stopped, .tool, by decide, rfl, by simp [Course.times]⟩
    · obtain rfl := List.mem_singleton.mp hevent
      exact ⟨_, _, _, artifactStarted, artifactStopped, .artifact, by decide, rfl,
        .cons _ (.cons _ (.refl _))⟩

/-- The kinds of the spans of a course, with their statuses. -/
def Course.statuses : Course → List (String × String)
  | .uncalled => []
  | .failed .. => [("tool", "failed")]
  | .returned .. => [("tool", "succeeded")]
  | .written .. => [("tool", "succeeded"), ("artifact", "succeeded")]

theorem statuses_of_spans (asUri : String → String) (args : Args) (trace artifact : String)
    (error : Option String) (course : Course) :
    (course.spans asUri args trace artifact error).map
      (fun event => (event.get "kind", event.get "status")) = course.statuses := by
  have htool : Details asUri args artifact "tool" "succeeded" _ := .tool
  have hartifact : Details asUri args artifact "artifact" "succeeded" _ := .artifact
  have hfailed : ∀ error, Details asUri args artifact "tool" "failed" _ := .toolFailed
  cases course with
  | uncalled => rfl
  | failed => simp [Course.spans, Course.statuses, get_spanEvent (hfailed _)]
  | returned => simp [Course.spans, Course.statuses, get_spanEvent htool]
  | written => simp [Course.spans, Course.statuses, get_spanEvent htool, get_spanEvent hartifact]

/-- The kinds of the spans of a course. -/
def Course.kinds : Course → List String
  | .uncalled => []
  | .failed .. => ["tool"]
  | .returned .. => ["tool"]
  | .written .. => ["tool", "artifact"]

theorem ids_of_spans (asUri : String → String) (args : Args) (trace artifact : String)
    (error : Option String) (course : Course) :
    (course.spans asUri args trace artifact error).map (fun event => event.lookup "eventId") =
      course.kinds.map fun kind => some (trace ++ "-" ++ kind) := by
  have htool : Details asUri args artifact "tool" "succeeded" _ := .tool
  have hartifact : Details asUri args artifact "artifact" "succeeded" _ := .artifact
  have hfailed : ∀ error, Details asUri args artifact "tool" "failed" _ := .toolFailed
  cases course with
  | uncalled => rfl
  | failed => simp [Course.spans, Course.kinds, lookup_eventId (hfailed _)]
  | returned => simp [Course.spans, Course.kinds, lookup_eventId htool]
  | written => simp [Course.spans, Course.kinds, lookup_eventId htool, lookup_eventId hartifact]

end details

/-! ## The session -/

section session

variable {asUri : String → String} {args : Args} {trace artifact : String} {tr : List Exchange}
  {p : Progress} {raised : Option Raised}

/-- How the body of the `async with` statements ends. -/
inductive Ended (asUri : String → String) (args : Args) (trace artifact : String)
    (tr : List Exchange) : Progress → Option Raised → Prop where
  /-- The span of the tool is left to the `except` clause. -/
  | called {started : ℤ} {raised : Raised} :
      (∀ stopped, Course.Shown args artifact (.failed started stopped) tr) →
      readings tr = [started] →
      Ended asUri args trace artifact tr ⟨[], some (isoformat started)⟩ (some raised)
  | settled {course : Course} {events : List PublishedEvent} {raised : Option Raised} :
      course.Shown args artifact tr → readings tr = course.times →
      (∀ error, course.spans asUri args trace artifact error = events) →
      (raised = none → course.complete = true) →
      Ended asUri args trace artifact tr ⟨events, none⟩ raised

theorem Course.Shown.congr {course : Course} {tr' : List Exchange}
    (h : course.Shown args artifact tr) (hcalls : toolCalls tr' = toolCalls tr)
    (hwrites : writes tr' = writes tr) : course.Shown args artifact tr' := by
  cases h with
  | uncalled h₁ h₂ => exact .uncalled (hcalls.trans h₁) (hwrites.trans h₂)
  | failed h₁ h₂ h₃ => exact .failed (hcalls.trans h₁) h₂ (hwrites.trans h₃)
  | returned h₁ h₂ h₃ => exact .returned (hcalls.trans h₁) h₂ (hwrites.trans h₃)
  | written h₁ h₂ h₃ => exact .written (hcalls.trans h₁) h₂ (hwrites.trans h₃)

/-- Exchanges of other kinds show nothing, and a raised exception may be replaced. -/
theorem Ended.congr {raised' : Option Raised} {tr' : List Exchange}
    (h : Ended asUri args trace artifact tr p raised) (hcalls : toolCalls tr' = toolCalls tr)
    (hwrites : writes tr' = writes tr) (hreadings : readings tr' = readings tr)
    (hraised : raised' = none → raised = none) :
    Ended asUri args trace artifact tr' p raised' := by
  cases h with
  | called hshown htimes =>
    obtain ⟨raised', rfl⟩ : ∃ r, raised' = some r :=
      Option.ne_none_iff_exists'.mp fun hnone => by simpa using hraised hnone
    exact .called (fun stopped => (hshown stopped).congr hcalls hwrites) (hreadings.trans htimes)
  | settled hshown htimes hspans hcomplete =>
    exact .settled (hshown.congr hcalls hwrites) (hreadings.trans htimes) hspans
      fun hnone => hcomplete (hraised hnone)

theorem exec_session (h : Exec (session asUri args trace artifact {}) tr (p, raised)) :
    Ended asUri args trace artifact tr p raised ∧ ∀ r, ⟨.leave none, r⟩ ∉ tr := by
  have hkeeps : Ensures (fun (log : List Exchange) e log' => log' = log ++ [e])
      (fun _ _ _ => True) (fun x log => Ended asUri args trace artifact log x.1 x.2 ∧
        ∀ r, ⟨.leave none, r⟩ ∉ log) (session asUri args trace artifact {}) [] := by
    -- `initialize`
    rintro (e | ⟨⟩) _ rfl
    · exact ⟨trivial, .settled (.uncalled rfl rfl) rfl (fun _ => rfl) (by simp), by simp⟩
    refine ⟨trivial, ?_⟩
    -- `list_tools`, and whether the tool is among them
    rintro (e | tools) _ rfl
    · exact ⟨trivial, .settled (.uncalled rfl rfl) rfl (fun _ => rfl) (by simp), by simp⟩
    refine ⟨trivial, ?_⟩
    change Ensures _ _ _ (if args.tool ∉ tools then _ else _) _
    split
    · exact ⟨.settled (.uncalled rfl rfl) rfl (fun _ => rfl) (by simp), by simp⟩
    rintro started _ rfl
    refine ⟨trivial, ?_⟩
    -- `call_tool`
    rintro (e | result) _ rfl
    · exact ⟨trivial, .called (fun _ => .failed rfl (by simp) rfl) rfl, by simp⟩
    refine ⟨trivial, ?_⟩
    change Ensures _ _ _ (if result.isError = true then _ else _) _
    split
    · exact ⟨.called (fun _ => .failed rfl (by simpa) rfl) rfl, by simp⟩
    rename_i hok
    rw [Bool.not_eq_true] at hok
    rintro stopped _ rfl
    refine ⟨trivial, ?_⟩
    rintro artifactStarted _ rfl
    refine ⟨trivial, ?_⟩
    -- `write_text`
    rintro (e | ⟨⟩) _ rfl
    · exact ⟨trivial, @Ended.settled _ _ _ _ _ (.returned started stopped artifactStarted) _ _
        (.returned rfl hok rfl) rfl (fun _ => rfl) (by simp), by simp⟩
    refine ⟨trivial, ?_⟩
    rintro artifactStopped _ rfl
    exact ⟨trivial, .settled (.written rfl hok rfl) rfl (fun _ => rfl) (fun _ => rfl), by simp⟩
  exact hkeeps.sound_log h

theorem exec_withSession (h : Exec (withSession asUri args trace artifact {}) tr (p, raised)) :
    Ended asUri args trace artifact tr p raised ∧ (raised = none ↔ ⟨.leave none, none⟩ ∈ tr) := by
  obtain ⟨entered, rest, rfl, hrest⟩ := Exec.call_iff.mp h
  rcases entered with e | ⟨⟩
  · obtain ⟨rfl, heq⟩ := Exec.ret_iff.mp hrest
    obtain ⟨rfl, rfl⟩ := Prod.mk.inj heq
    exact ⟨.settled (.uncalled rfl rfl) rfl (fun _ => rfl) (by simp), by simp⟩
  change Exec (session asUri args trace artifact {} >>= _) rest _ at hrest
  obtain ⟨tr₁, ⟨p', raised'⟩, tr₂, rfl, hsession, hleave⟩ := Exec.bind_iff.mp hrest
  obtain ⟨hended, hnone⟩ := exec_session hsession
  cases raised' with
  | some _ =>
    obtain ⟨answer, tr₃, rfl, hret⟩ := Exec.call_iff.mp hleave
    obtain ⟨rfl, heq⟩ := Exec.ret_iff.mp hret
    obtain ⟨rfl, rfl⟩ := Prod.mk.inj heq
    refine ⟨hended.congr ?_ ?_ ?_ (by simp), by simp [hnone]⟩
    all_goals exact List.filterMap_append.trans (List.append_nil _)
  | none =>
    obtain ⟨answer, tr₃, rfl, hret⟩ := Exec.call_iff.mp hleave
    obtain ⟨rfl, heq⟩ := Exec.ret_iff.mp hret
    obtain ⟨rfl, rfl⟩ := Prod.mk.inj heq
    refine ⟨hended.congr ?_ ?_ ?_ (fun _ => rfl), by simp [hnone, eq_comm]⟩
    all_goals exact List.filterMap_append.trans (List.append_nil _)

/-- What an execution that began at `start` reports at `stop`, given its trace. -/
structure Reports (asUri : String → String) (args : Args) (tr : List Exchange) (r : Executed)
    (start stop : ℤ) (course : Course) : Prop where
  traced : ∃ hex, ⟨.uuid4, hex⟩ ∈ tr ∧ r.trace = "mcp-" ++ hex
  shown : course.Shown args r.artifact tr
  times : readings tr = start :: (course.times ++ [stop])
  events : r.events = course.spans asUri args r.trace r.artifact r.error ++
    [runSpan args r.trace r.error start stop]
  complete : r.error = none → course.complete = true
  /-- No error is to say that the `async with` statements were left without an exception. -/
  clean : r.error = none ↔ ⟨.leave none, none⟩ ∈ tr
  saved : tr.getLast? = some ⟨.writeEvents r.eventPath r.events, .ok ()⟩

theorem exec_handle {error : Option String} {p' : Progress}
    (h : Exec (handle args trace p raised).run tr (.ok (p', error))) :
    (raised = none ∧ tr = [] ∧ p' = p ∧ error = none) ∨
    ∃ name, raised = some (.exception name) ∧ error = some name ∧
      ((p.toolStarted = none ∧ tr = [] ∧ p' = p) ∨
        ∃ started stopped, p.toolStarted = some started ∧ tr = [⟨.now, stopped⟩] ∧
          p' = { p with events := p.events ++ [spanEvent args trace "tool" started
            (isoformat stopped) "failed" [("tool", args.tool), ("errorType", name)]] }) := by
  match raised with
  | none =>
    obtain ⟨rfl, heq⟩ := Exec.ret_iff.mp h
    obtain ⟨rfl, rfl⟩ := Prod.mk.inj (Except.ok.inj heq)
    exact .inl ⟨rfl, rfl, rfl, rfl⟩
  | some .other =>
    obtain ⟨-, heq⟩ := Exec.ret_iff.mp h
    cases heq
  | some (.exception name) =>
    refine .inr ⟨name, rfl, ?_⟩
    obtain ⟨events, toolStarted⟩ := p
    cases toolStarted with
    | none =>
      obtain ⟨rfl, heq⟩ := Exec.ret_iff.mp h
      obtain ⟨rfl, rfl⟩ := Prod.mk.inj (Except.ok.inj heq)
      exact ⟨rfl, .inl ⟨rfl, rfl, rfl⟩⟩
    | some started =>
      obtain ⟨stopped, rest, rfl, hrest⟩ := Exec.call_iff.mp h
      obtain ⟨rfl, heq⟩ := Exec.ret_iff.mp hrest
      obtain ⟨rfl, rfl⟩ := Prod.mk.inj (Except.ok.inj heq)
      exact ⟨rfl, .inr ⟨started, stopped, rfl, rfl, rfl⟩⟩

theorem exec_attempt {α : Type} {c : Call} {hanswer : Answer c = Except Raised α} {a : α}
    (h : Exec (attempt c hanswer).run tr (.ok a)) : ∃ r, tr = [⟨c, r⟩] ∧ cast hanswer r = .ok a := by
  obtain ⟨r, rest, rfl, hrest⟩ := Exec.call_iff.mp h
  obtain ⟨rfl, heq⟩ := Exec.ret_iff.mp hrest
  exact ⟨r, rfl, heq.symm⟩

theorem exec_span {kind start status : String} {fields : PublishedEvent} {p' : Progress}
    (h : Exec (span args trace kind start status fields p) tr p') : ∃ stop, tr = [⟨.now, stop⟩] ∧
      p' = { p with events := p.events ++
        [spanEvent args trace kind start (isoformat stop) status fields] } := by
  obtain ⟨stop, rest, rfl, hrest⟩ := Exec.call_iff.mp h
  obtain ⟨rfl, rfl⟩ := Exec.ret_iff.mp hrest
  exact ⟨stop, rfl, rfl⟩

theorem reports_of_exec {r : Executed} (h : Exec (execute asUri args).run tr (.ok r)) :
    ∃ start stop course, Reports asUri args tr r start stop course := by
  obtain ⟨_, hex, _, rfl, huuid, h⟩ := Exec.attempt_bind_ok_iff.mp h
  obtain ⟨_, output, _, rfl, hresolve, h⟩ := Exec.attempt_bind_ok_iff.mp h
  obtain ⟨_, _, _, rfl, hmkdir, h⟩ := Exec.attempt_bind_ok_iff.mp h
  obtain ⟨_, startText, _, rfl, hstart, h⟩ := Exec.attempt_bind_ok_iff.mp h
  obtain ⟨tr₁, ⟨p, raised⟩, _, rfl, hsession, h⟩ := Exec.attempt_bind_ok_iff.mp h
  obtain ⟨tr₂, ⟨p', error⟩, _, rfl, hhandle, h⟩ := Exec.attempt_bind_ok_iff.mp h
  obtain ⟨_, p'', _, rfl, hstop, h⟩ := Exec.attempt_bind_ok_iff.mp h
  obtain ⟨_, _, _, rfl, hwrite, h⟩ := Exec.attempt_bind_ok_iff.mp h
  obtain ⟨rfl, hr⟩ := Exec.ret_iff.mp h
  obtain rfl := Except.ok.inj hr
  -- The exchanges around the session.
  obtain ⟨id, hperform, heq⟩ := Exec.lift_iff.mp huuid
  obtain rfl := Except.ok.inj heq
  obtain rfl := Exec.perform_iff.mp hperform
  obtain ⟨resolved, rfl, -⟩ := exec_attempt hresolve
  obtain ⟨made, rfl, -⟩ := exec_attempt hmkdir
  obtain ⟨_, hnow, heq⟩ := Exec.lift_iff.mp hstart
  obtain rfl := Except.ok.inj heq
  obtain ⟨start, _, rfl, hret⟩ := Exec.call_iff.mp hnow
  obtain ⟨rfl, rfl⟩ := Exec.ret_iff.mp hret
  obtain ⟨_, hspan, heq⟩ := Exec.lift_iff.mp hstop
  obtain rfl := Except.ok.inj heq
  obtain ⟨stop, rfl, rfl⟩ := exec_span hspan
  obtain ⟨answer, rfl, hanswer⟩ := exec_attempt hwrite
  obtain rfl : answer = .ok _ := hanswer
  obtain ⟨_, hsession, heq⟩ := Exec.lift_iff.mp hsession
  obtain rfl := Except.ok.inj heq
  obtain ⟨hended, hclean⟩ := exec_withSession hsession
  let executed : Executed :=
    ⟨"mcp-" ++ hex, p'.events ++ [runSpan args ("mcp-" ++ hex) error start stop],
      output ++ "/" ++ ("mcp-" ++ hex) ++ ".result.json",
      output ++ "/" ++ ("mcp-" ++ hex) ++ ".executions.json", error⟩
  let before : List Exchange :=
    [⟨.uuid4, hex⟩, ⟨.resolve args.output, resolved⟩, ⟨.mkdir output, made⟩, ⟨.now, start⟩]
  let after : List Exchange :=
    [⟨.now, stop⟩, ⟨.writeEvents executed.eventPath executed.events, .ok ()⟩]
  change ∃ start stop course,
    Reports asUri args (before ++ (tr₁ ++ (tr₂ ++ after))) executed start stop course
  obtain ⟨hcalls, hwrites, hleave⟩ : toolCalls tr₂ = [] ∧ writes tr₂ = [] ∧ ⟨.leave none, none⟩ ∉ tr₂ := by
    rcases exec_handle hhandle with ⟨-, rfl, -⟩ | ⟨_, -, -, ⟨-, rfl, -⟩ | ⟨_, _, -, rfl, -⟩⟩
    · exact ⟨rfl, rfl, by simp⟩
    · exact ⟨rfl, rfl, by simp⟩
    · exact ⟨rfl, rfl, by simp⟩
  -- What the session shows, the whole trace shows.
  have hreports : ∀ course : Course, course.Shown args executed.artifact tr₁ →
      readings tr₁ ++ readings tr₂ = course.times →
      p'.events = course.spans asUri args executed.trace executed.artifact error →
      (error = none → course.complete = true) →
      (error = none ↔ raised = none) →
      Reports asUri args (before ++ (tr₁ ++ (tr₂ ++ after))) executed start stop course := by
    intro course hshown htimes hevents hcomplete herror
    refine ⟨⟨hex, by simp [before], rfl⟩, hshown.congr ?_ ?_, ?_, congrArg (· ++ _) hevents,
      hcomplete, ?_, ?_⟩
    · rw [toolCalls, List.filterMap_append, List.filterMap_append, List.filterMap_append]
      change [] ++ (toolCalls tr₁ ++ (toolCalls tr₂ ++ [])) = toolCalls tr₁
      simp [hcalls]
    · rw [writes, List.filterMap_append, List.filterMap_append, List.filterMap_append]
      change [] ++ (writes tr₁ ++ (writes tr₂ ++ [])) = writes tr₁
      simp [hwrites]
    · rw [readings, List.filterMap_append, List.filterMap_append, List.filterMap_append, ← htimes]
      change [start] ++ (readings tr₁ ++ (readings tr₂ ++ [stop])) = _
      simp
    · rw [herror, hclean]
      simp [before, after, hleave]
    · simp [after]
  refine ⟨start, stop, ?_⟩
  rcases exec_handle hhandle with ⟨rfl, rfl, rfl, rfl⟩ | ⟨name, rfl, rfl, htool⟩
  · cases hended with
    | settled hshown htimes hspans hcomplete =>
      exact ⟨_, hreports _ hshown ((List.append_nil _).trans htimes) (hspans none).symm
        (fun _ => hcomplete rfl) (by simp)⟩
  rcases htool with ⟨hnone, rfl, rfl⟩ | ⟨_, stopped, hsome, rfl, rfl⟩
  · cases hended with
    | called => cases hnone
    | settled hshown htimes hspans _ =>
      exact ⟨_, hreports _ hshown ((List.append_nil _).trans htimes) (hspans _).symm (by simp) (by simp)⟩
  · cases hended with
    | settled => cases hsome
    | called hshown htimes =>
      obtain rfl := Option.some.inj hsome
      exact ⟨_, hreports _ (hshown stopped) (congrArg (· ++ _) htimes) rfl (by simp) (by simp)⟩

theorem ids_of_reports {r : Executed} {start stop : ℤ} {course : Course}
    (h : Reports asUri args tr r start stop course) :
    r.events.map (fun event => event.lookup "eventId") =
      (course.kinds ++ ["run"]).map fun kind => some (r.trace ++ "-" ++ kind) := by
  obtain ⟨fields, hdetails, heq⟩ := runSpan_eq asUri args r.trace r.artifact r.error start stop
  rw [h.events, List.map_append, List.map_append, heq, ids_of_spans, List.map_singleton,
    lookup_eventId hdetails]
  rfl

theorem distinctIds_of_reports {r : Executed} {start stop : ℤ} {course : Course}
    (h : Reports asUri args tr r start stop course) :
    DistinctIds r.events := by
  have hids := ids_of_reports h
  have hkinds : (course.kinds ++ ["run"]).Nodup := by
    cases course <;> simp [Course.kinds]
  constructor
  · intro event hevent
    have hmem := List.mem_map_of_mem (f := fun event => event.lookup "eventId") hevent
    rw [hids] at hmem
    obtain ⟨kind, -, hkind⟩ := List.mem_map.mp hmem
    rw [← hkind]
    rfl
  · have hget : r.events.map (fun event => event.get "eventId") =
        (course.kinds ++ ["run"]).map fun kind => r.trace ++ "-" ++ kind := by
      have hmapped := congrArg (List.map fun id : Option String => id.getD "") hids
      simpa [List.map_map, Function.comp_def, PublishedEvent.get] using hmapped
    rw [hget]
    refine hkinds.map fun kind kind' heq => ?_
    simpa using heq

/-- A span of this kind and status is reported. -/
def Executed.HasSpan (r : Executed) (kind status : String) : Prop :=
  ∃ event ∈ r.events, event.get "kind" = kind ∧ event.get "status" = status

/-- The spans tell what has happened. -/
structure Truthful (args : Args) (tr : List Exchange) (r : Executed) : Prop where
  succeeded : r.HasSpan "tool" "succeeded" ↔ ∃ result,
    toolCalls tr = [(args.tool, args.arguments, .ok result)] ∧ result.isError = false
  failed : r.HasSpan "tool" "failed" ↔ ∃ answer, toolCalls tr = [(args.tool, args.arguments, answer)] ∧
    ∀ result, answer = .ok result → result.isError = true
  written : r.HasSpan "artifact" "succeeded" ↔ ∃ result, writes tr = [(r.artifact, result, .ok ())]
  complete : r.HasSpan "run" "succeeded" ↔ truthy r.error = false
  incomplete : r.HasSpan "run" "failed" ↔ truthy r.error = true
  /-- No error is to say that the session was left without an exception. -/
  clean : r.error = none ↔ ⟨.leave none, none⟩ ∈ tr
  all : r.error = none → r.HasSpan "tool" "succeeded" ∧ r.HasSpan "artifact" "succeeded"
  distinct : DistinctIds r.events
  /-- The span of the run is the last one and the parent of the others. -/
  tree : ∃ children run, r.events = children ++ [run] ∧ run.get "kind" = "run" ∧
    run.get "parentId" = "" ∧
    ∀ event ∈ children, event.get "kind" ≠ "run" ∧ event.get "parentId" = run.get "eventId"
  saved : tr.getLast? = some ⟨.writeEvents r.eventPath r.events, .ok ()⟩

theorem hasSpan_iff {r : Executed} {start stop : ℤ} {course : Course}
    (h : Reports asUri args tr r start stop course) (kind status : String) : r.HasSpan kind status ↔
      (kind, status) ∈ course.statuses ∨
        kind = "run" ∧ status = if truthy r.error then "failed" else "succeeded" := by
  obtain ⟨fields, hdetails, hrun⟩ := runSpan_eq asUri args r.trace r.artifact r.error start stop
  obtain ⟨-, hkind, hstatus, -⟩ := get_spanEvent hdetails (isoformat start) (isoformat stop)
  have hpairs : r.HasSpan kind status ↔
      (kind, status) ∈ r.events.map fun event => (event.get "kind", event.get "status") := by
    simp [Executed.HasSpan]
  rw [hpairs, h.events, List.map_append, statuses_of_spans, List.mem_append, hrun, List.map_singleton,
    hkind, hstatus, List.mem_singleton, Prod.mk.injEq]

/-- Whatever the server of the tool does and wherever an exception is raised, the spans say
    what became of the tool and of its result. -/
theorem spans_truthful {r : Executed} (h : Exec (execute asUri args).run tr (.ok r)) :
    Truthful args tr r := by
  obtain ⟨start, stop, course, hreports⟩ := reports_of_exec h
  obtain ⟨fields, hdetails, hrun⟩ := runSpan_eq asUri args r.trace r.artifact r.error start stop
  obtain ⟨hid, hkind, -, hparent⟩ := get_spanEvent hdetails (isoformat start) (isoformat stop)
  -- the spans of each course against the calls that it is shown by
  constructor
  case succeeded =>
    rw [hasSpan_iff hreports]
    cases hreports.shown with
    | uncalled hcalls => simp [Course.statuses, hcalls]
    | failed hcalls hfailed => simpa [Course.statuses, hcalls] using hfailed
    | returned hcalls hok => simpa [Course.statuses, hcalls] using hok
    | written hcalls hok => simpa [Course.statuses, hcalls] using hok
  case failed =>
    rw [hasSpan_iff hreports]
    cases hreports.shown with
    | uncalled hcalls => simp [Course.statuses, hcalls]
    | failed hcalls hfailed => simpa [Course.statuses, hcalls] using hfailed
    | returned hcalls hok => simpa [Course.statuses, hcalls] using hok
    | written hcalls hok => simpa [Course.statuses, hcalls] using hok
  case written =>
    rw [hasSpan_iff hreports]
    cases hreports.shown with
    | uncalled _ hwrites => simp [Course.statuses, hwrites]
    | failed _ _ hwrites => simp [Course.statuses, hwrites]
    | returned _ _ hwrites => simp [Course.statuses, hwrites]
    | written _ _ hwrites => simp [Course.statuses, hwrites]
  case complete =>
    rw [hasSpan_iff hreports]
    cases course <;> cases truthy r.error <;> simp [Course.statuses]
  case incomplete =>
    rw [hasSpan_iff hreports]
    cases course <;> cases truthy r.error <;> simp [Course.statuses]
  case clean => exact hreports.clean
  case all =>
    intro hnone
    have hcomplete := hreports.complete hnone
    cases course with
    | written =>
      exact ⟨(hasSpan_iff hreports _ _).mpr (by simp [Course.statuses]),
        (hasSpan_iff hreports _ _).mpr (by simp [Course.statuses])⟩
    | _ => cases hcomplete
  case distinct => exact distinctIds_of_reports hreports
  case saved => exact hreports.saved
  case tree =>
    refine ⟨_, _, hreports.events, ?_⟩
    rw [hrun, hkind, hparent, hid]
    refine ⟨rfl, rfl, fun event hevent => ?_⟩
    obtain ⟨kind, status, fields, started, stopped, hdetails, hne, rfl, -⟩ := mem_spans hevent
    obtain ⟨-, hkind, -, hparent⟩ := get_spanEvent hdetails (isoformat started) (isoformat stopped)
    rw [hkind, hparent, if_neg hne, String.append_assoc]
    exact ⟨hne, rfl⟩

end session

/-! ## A run -/

/-- A server whose tool returns a result, at a clock that goes on by a second. -/
def answersWell (micros : ℤ) : (c : Call) → Answer c × ℤ
  | .uuid4 => ("6f1d", micros)
  | .now => (micros, micros + 1000000)
  | .resolve path => (.ok ("/" ++ path), micros)
  | .mkdir _ => (.ok (), micros)
  | .enter _ => (.ok (), micros)
  | .greet => (.ok (), micros)
  | .listTools => (.ok ["weather_current"], micros)
  | .callTool _ _ => (.ok ⟨false, .obj [("temperature", .num 4)]⟩, micros)
  | .writeResult _ _ => (.ok (), micros)
  | .leave (some raised) => (raised, micros)
  | .leave none => (none, micros)
  | .writeEvents _ _ => (.ok (), micros)

def weatherArgs : Args where
  output := "demo"
  command := ["python", "server.py"]

def fileUri (path : String) : String := "file://" ++ path

/-- What `execute` returns on 1 January 2026, with its trace. -/
def weather : Except Raised Executed × List Exchange × ℤ :=
  (execute fileUri weatherArgs).run.runOn answersWell 1767225600000000

def weatherSpans : List PublishedEvent :=
  match weather.1 with
  | .ok r => r.events
  | .error _ => []

theorem exists_weather : ∃ r, Exec (execute fileUri weatherArgs).run weather.2.1 (.ok r) ∧
    r.events = weatherSpans ∧ readings weather.2.1 =
      [1767225600000000, 1767225601000000, 1767225602000000, 1767225603000000, 1767225604000000,
        1767225605000000] := by
  have hexec := Program.exec_runOn answersWell (execute fileUri weatherArgs).run 1767225600000000
  exact ⟨_, hexec, rfl, rfl⟩

theorem spans_truthful_weather : ∃ r, r.events = weatherSpans ∧ Truthful weatherArgs weather.2.1 r := by
  obtain ⟨r, hexec, hevents, -⟩ := exists_weather
  exact ⟨r, hevents, spans_truthful hexec⟩

end CubeOperator.Telemetry.Mcp
