import CubeOperator.Lib.Session

/-! # Passes that are repeated from a queue

    A controller does all its work in passes of one program.  Passes never overlap.  A
    pass begins when it is asked for in the queue, where many requests count as one, and
    a request that comes during a pass waits for its end.  A pass that returns what is to
    be repeated is asked for again after a delay.  Changes of the world may ask for a
    pass or go by unnoticed, and the controller may be restarted at any time, with an
    empty queue.

    `Recalls.rest` is the rule for what holds when a controller has come to rest: what
    the exchanges of its last pass told it.  Every fact that may be lost unnoticed is one
    the rule asks about. -/

namespace Interaction

variable {σ Call α : Type} {Answer : Call → Type}

/-- A program that is repeated, and what goes on around it. -/
structure ControlLoop (σ Call : Type) (Answer : Call → Type) (α : Type) where
  pass : Program Call Answer α
  /-- After this result another pass is asked for. -/
  repeats : α → Bool
  /-- How an exchange changes the world. -/
  serves : σ → Event Answer → σ → Prop
  /-- The world changes unnoticed. -/
  drifts : σ → σ → Prop
  /-- The world changes, and a pass is asked for. -/
  notifies : σ → σ → Prop
  restarts : σ → σ → Prop

namespace ControlLoop

structure State (σ Call : Type) (Answer : Call → Type) (α : Type) where
  world : σ
  run : Option (Running Unit Call Answer α)
  /-- A pass is asked for. -/
  queued : Bool
  /-- A pass will be asked for after a delay. -/
  delayed : Bool

variable (C : ControlLoop σ Call Answer α)

inductive Step : State σ Call Answer α → State σ Call Answer α → Prop where
  | begin {S : State σ Call Answer α} :
      S.run = none → S.queued = true →
      Step S { S with run := some ⟨(), C.pass, []⟩, queued := false }
  | exchange {S : State σ Call Answer α} {run run' : Running Unit Call Answer α} {w : σ}
      (e : Event Answer) :
      S.run = some run → run.Makes e run' → C.serves S.world e w →
      Step S { S with world := w, run := some run' }
  | finish {S : State σ Call Answer α} {run : Running Unit Call Answer α} (a : α) :
      S.run = some run → run.Finished a →
      Step S { S with run := none, delayed := S.delayed || C.repeats a }
  | expire {S : State σ Call Answer α} :
      S.delayed = true → Step S { S with queued := true, delayed := false }
  | drift {S : State σ Call Answer α} {w : σ} :
      C.drifts S.world w → Step S { S with world := w }
  | notify {S : State σ Call Answer α} {w : σ} :
      C.notifies S.world w → Step S { S with world := w, queued := true }
  | restart {S : State σ Call Answer α} {w : σ} :
      C.restarts S.world w → Step S ⟨w, none, false, false⟩

abbrev Reachable : State σ Call Answer α → State σ Call Answer α → Prop :=
  Relation.ReflTransGen C.Step

/-- Nothing is at work, and nothing is asked for. -/
structure State.Resting (S : State σ Call Answer α) : Prop where
  run : S.run = none
  queued : S.queued = false
  delayed : S.delayed = false

variable {C}

/-! ## What is known at rest -/

/-- An exchange tells the controller a fact about the world, which lasts until a pass is
    asked for.  So does what holds after a restart. -/
structure Recalls (C : ControlLoop σ Call Answer α) (told : Event Answer → σ → Prop)
    (fresh : σ → Prop) : Prop where
  served : ∀ w e w', C.serves w e w' → told e w'
  kept : ∀ w e w' e', C.serves w e w' → told e' w → told e' w'
  drifted : ∀ w w' e, C.drifts w w' → told e w → told e w'
  restarted : ∀ w w', C.restarts w w' → fresh w'
  stays : ∀ w w', C.drifts w w' → fresh w → fresh w'

section recalls

variable {told : Event Answer → σ → Prop} {fresh : σ → Prop} {S₀ S : State σ Call Answer α}

/-- A run of the pass whose facts all hold, and that is not to be repeated. -/
def Concluded (C : ControlLoop σ Call Answer α) (told : Event Answer → σ → Prop) (w : σ) : Prop :=
  ∃ tr a, Exec C.pass tr a ∧ C.repeats a = false ∧ ∀ e ∈ tr, told e w

/-- Unless a pass is asked for, the facts of the pass at work hold, or those of the last
    one. -/
def Informed (C : ControlLoop σ Call Answer α) (told : Event Answer → σ → Prop)
    (fresh : σ → Prop) (S : State σ Call Answer α) : Prop :=
  S.queued = false →
    (∀ run, S.run = some run → ∀ e ∈ run.log, told e S.world) ∧
    (S.run = none → S.delayed = false → fresh S.world ∨ C.Concluded told S.world)

/-- The pass at work is a part of a run of the program. -/
def Underway (C : ControlLoop σ Call Answer α) (S : State σ Call Answer α) : Prop :=
  ∀ run, S.run = some run → ∀ tr a, Exec run.rest tr a → Exec C.pass (run.log ++ tr) a

theorem Step.underway {S S' : State σ Call Answer α} (hstep : C.Step S S') (h : C.Underway S) :
    C.Underway S' := by
  cases hstep with
  | begin =>
    rintro run hrun tr a hexec
    cases hrun
    exact hexec
  | exchange e hrun hmakes =>
    rintro run' hrun' tr a hexec
    cases hrun'
    obtain ⟨job, next, log⟩ := hmakes
    simpa using h _ hrun (e :: tr) a (.call e.2 hexec)
  | finish => exact fun run hrun => by cases hrun
  | expire => exact h
  | drift => exact h
  | notify => exact h
  | restart => exact fun run hrun => by cases hrun

theorem Recalls.step (hC : C.Recalls told fresh) {S S' : State σ Call Answer α}
    (hstep : C.Step S S') (hunderway : C.Underway S) (h : C.Informed told fresh S) :
    C.Informed told fresh S' := by
  intro hqueued
  cases hstep with
  | begin =>
    refine ⟨?_, fun hnone => by cases hnone⟩
    rintro run hrun e he
    cases hrun
    cases he
  | exchange e hrun hmakes hserves =>
    refine ⟨?_, fun hnone => by cases hnone⟩
    obtain ⟨job, next, log⟩ := hmakes
    have hold := (h hqueued).1 _ hrun
    rintro run' hrun' e' he'
    cases hrun'
    rcases List.mem_append.mp he' with he' | he'
    -- what was told before is still so, or the queue would have been notified
    · exact hC.kept _ _ _ _ hserves (hold e' he')
    · obtain rfl := List.mem_singleton.mp he'
      exact hC.served _ _ _ hserves
  | finish a hrun hfinished =>
    -- the pass is not asked for again, so what it returned does not repeat it
    refine ⟨(by rintro _ ⟨⟩), fun _ hdelayed => .inr ?_⟩
    obtain ⟨-, hrepeats⟩ := Bool.or_eq_false_iff.mp hdelayed
    refine ⟨_, a, ?_, hrepeats, (h hqueued).1 _ hrun⟩
    have hexec := hunderway _ hrun [] a (by
      rw [hfinished]
      exact .ret a)
    rwa [List.append_nil] at hexec
  | expire => cases hqueued
  | drift hdrifts =>
    obtain ⟨hrunning, hidle⟩ := h hqueued
    refine ⟨fun run hrun e he => hC.drifted _ _ e hdrifts (hrunning run hrun e he),
      fun hnone hdelayed => ?_⟩
    rcases hidle hnone hdelayed with hfresh | ⟨tr, a, hexec, hrepeats, htold⟩
    · exact .inl (hC.stays _ _ hdrifts hfresh)
    · exact .inr ⟨tr, a, hexec, hrepeats, fun e he => hC.drifted _ _ e hdrifts (htold e he)⟩
  | notify => cases hqueued
  | restart hrestarts =>
    exact ⟨(by rintro _ ⟨⟩), fun _ _ => .inl (hC.restarted _ _ hrestarts)⟩

/-- No pass is at work, and if none is asked for the controller has just been started. -/
def State.Starts (fresh : σ → Prop) (S : State σ Call Answer α) : Prop :=
  S.run = none ∧ (S.queued = false → fresh S.world)

theorem Recalls.informed (hC : C.Recalls told fresh) (h : C.Reachable S₀ S)
    (hS₀ : S₀.Starts fresh) : C.Underway S ∧ C.Informed told fresh S := by
  induction h with
  | refl =>
    obtain ⟨hnone, hfresh⟩ := hS₀
    have hidle : ∀ run, S₀.run ≠ some run := by simp [hnone]
    exact ⟨fun run hrun => absurd hrun (hidle run), fun hqueued =>
      ⟨fun run hrun => absurd hrun (hidle run), fun _ _ => .inl (hfresh hqueued)⟩⟩
  | tail _ hstep ih => exact ⟨hstep.underway ih.1, hC.step hstep ih.1 ih.2⟩

/-- A controller at rest has just been started, or all that its last pass was told still
    holds, and the pass was not to be repeated. -/
theorem Recalls.rest (hC : C.Recalls told fresh) (h : C.Reachable S₀ S) (hS₀ : S₀.Starts fresh)
    (hS : S.Resting) : fresh S.world ∨ C.Concluded told S.world :=
  ((hC.informed h hS₀).2 hS.queued).2 hS.run hS.delayed

end recalls

/-! ## Building runs -/

section building

variable {S : State σ Call Answer α} {w : σ} {tr : List (Event Answer)} {a : α}

theorem reachable_of_exec (log : List (Event Answer)) (queued delayed : Bool)
    {p : Program Call Answer α} (hexec : Exec p tr a) {w₀ : σ}
    (hreplay : Replay C.serves w₀ tr w) :
    ∃ log', C.Reachable ⟨w₀, some ⟨(), p, log⟩, queued, delayed⟩
      ⟨w, some ⟨(), .ret a, log'⟩, queued, delayed⟩ := by
  induction hexec generalizing w₀ log with
  | ret a =>
    obtain rfl := Replay.nil_iff.mp hreplay
    exact ⟨log, .refl⟩
  | call answer _ ih =>
    obtain ⟨w₁, hserves, hrest⟩ := Replay.cons_iff.mp hreplay
    obtain ⟨log', hreach⟩ := ih _ hrest
    exact ⟨log', .head (.exchange _ rfl (.intro ..) hserves) hreach⟩

/-- A whole pass, with nothing else going on. -/
theorem reachable_of_pass (hrun : S.run = none) (hqueued : S.queued = true)
    (hexec : Exec C.pass tr a) (hreplay : Replay C.serves S.world tr w) :
    C.Reachable S ⟨w, none, false, S.delayed || C.repeats a⟩ := by
  obtain ⟨log, hreach⟩ := reachable_of_exec [] false S.delayed hexec hreplay
  exact .head (.begin hrun hqueued) (hreach.tail (.finish a rfl rfl))

end building

end ControlLoop

end Interaction
