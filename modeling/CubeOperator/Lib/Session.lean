import CubeOperator.Lib.Program
import Mathlib.Logic.Function.Basic

/-! # Programs that run side by side

    Threads work on jobs against one environment, one exchange at a time and in
    any order.  A thread may stop at any time, and the environment may change by
    itself.  This file gives

    * `Step` and `Reachable`: the runs of such a system;
    * `Reachable.invariant`: an invariant of the state and of each thread that the
      threads keep for each other;
    * what follows for a thread on its own: its log is a run of its program, and
      its exchanges are those its program can make;
    * `Reachable.sequential`: with one thread, what the programs guarantee and ensure
      holds in all runs. -/

namespace Interaction

variable {ι κ σ Call α : Type} {Answer : Call → Type}

/-! ## Systems -/

/-- A job in progress: what is left of its program, and its exchanges so far. -/
structure Running (κ Call : Type) (Answer : Call → Type) (α : Type) where
  job : κ
  rest : Program Call Answer α
  log : List (Event Answer)

/-- The exchange `e` takes the thread from `run` to `run'`. -/
inductive Running.Makes (e : Event Answer) :
    Running κ Call Answer α → Running κ Call Answer α → Prop where
  | intro (job : κ) (next : Answer e.1 → Program Call Answer α) (log : List (Event Answer)) :
      Makes e ⟨job, .call e.1 next, log⟩ ⟨job, next e.2, log ++ [e]⟩

/-- The thread has come to the end of its program, which returned `a`. -/
def Running.Finished (run : Running κ Call Answer α) (a : α) : Prop := run.rest = .ret a

structure System (ι κ σ Call : Type) (Answer : Call → Type) (α : Type) where
  state : σ
  thread : ι → Option (Running κ Call Answer α)

/-- What the threads of a system run, and against what. -/
structure Environment (ι κ σ Call : Type) (Answer : Call → Type) (α : Type) where
  /-- The program of a job. -/
  program : κ → Program Call Answer α
  /-- The jobs a thread may begin. -/
  begins : ι → σ → κ → Prop
  /-- How an exchange changes the state. -/
  serves : σ → Event Answer → σ → Prop
  /-- How the state changes by itself. -/
  drifts : σ → σ → Prop

namespace Environment

variable [DecidableEq ι] (E : Environment ι κ σ Call Answer α)

/-- The thread `i` makes the exchange `e`. -/
def Exchanges (i : ι) (e : Event Answer) (S S' : System ι κ σ Call Answer α) : Prop :=
  ∃ run run', S.thread i = some run ∧ run.Makes e run' ∧ E.serves S.state e S'.state ∧
    S'.thread = Function.update S.thread i (some run')

inductive Step : System ι κ σ Call Answer α → System ι κ σ Call Answer α → Prop where
  | begin {S : System ι κ σ Call Answer α} (i : ι) (job : κ) :
      S.thread i = none → E.begins i S.state job →
      Step S { S with thread := Function.update S.thread i (some ⟨job, E.program job, []⟩) }
  | exchange {S S' : System ι κ σ Call Answer α} (i : ι) (e : Event Answer) :
      E.Exchanges i e S S' → Step S S'
  | stop {S : System ι κ σ Call Answer α} (i : ι) :
      Step S { S with thread := Function.update S.thread i none }
  | drift {S : System ι κ σ Call Answer α} {s' : σ} :
      E.drifts S.state s' → Step S { S with state := s' }

/-- The states of all runs from `S₀`. -/
abbrev Reachable : System ι κ σ Call Answer α → System ι κ σ Call Answer α → Prop :=
  Relation.ReflTransGen E.Step

/-- A system in which no thread is at work. -/
def idle (s : σ) : System ι κ σ Call Answer α := ⟨s, fun _ => none⟩

variable {E}

/-! ## Invariants -/

/-- The state keeps `I` and each thread `J` when the exchanges of a thread keep both
    for itself, and `J` for the others. -/
theorem Reachable.invariant {I : σ → Prop} {J : σ → Running κ Call Answer α → Prop}
    (hbegin : ∀ i s job, E.begins i s job → I s → J s ⟨job, E.program job, []⟩)
    (hown : ∀ s run e run' s', I s → J s run → run.Makes e run' → E.serves s e s' →
      I s' ∧ J s' run')
    (hother : ∀ (i j : ι) s run e run' s' other, i ≠ j → I s → J s run → run.Makes e run' →
      E.serves s e s' → J s other → J s' other)
    (hdrift : ∀ s s', I s → E.drifts s s' → I s' ∧ ∀ run, J s run → J s' run)
    {S₀ S : System ι κ σ Call Answer α} (h : E.Reachable S₀ S) (hI : I S₀.state)
    (hJ : ∀ i run, S₀.thread i = some run → J S₀.state run) :
    I S.state ∧ ∀ i run, S.thread i = some run → J S.state run := by
  induction h with
  | refl => exact ⟨hI, hJ⟩
  | @tail S S' _ hstep ih =>
    obtain ⟨ihI, ihJ⟩ := ih
    cases hstep with
    | begin i job hnone hbegins =>
      refine ⟨ihI, fun j run hrun => ?_⟩
      by_cases hj : j = i
      · subst hj
        obtain rfl : _ = run := by simpa using hrun
        exact hbegin _ _ _ hbegins ihI
      · exact ihJ j run (by simpa [hj] using hrun)
    | exchange i e hexchanges =>
      obtain ⟨run₁, run₂, hi, hmakes, hserves, hthread⟩ := hexchanges
      obtain ⟨hI', hJ'⟩ := hown _ _ _ _ _ ihI (ihJ i run₁ hi) hmakes hserves
      refine ⟨hI', fun j run hrun => ?_⟩
      -- only the thread of the exchange goes on, the others see the new state
      by_cases hj : j = i
      · subst hj
        obtain rfl : run₂ = run := by simpa [hthread] using hrun
        exact hJ'
      · exact hother i j _ _ _ _ _ run (Ne.symm hj) ihI (ihJ i run₁ hi) hmakes hserves
          (ihJ j run (by simpa [hthread, hj] using hrun))
    | stop i =>
      refine ⟨ihI, fun j run hrun => ?_⟩
      by_cases hj : j = i
      · subst hj
        simp at hrun
      · exact ihJ j run (by simpa [hj] using hrun)
    | drift hdrifts =>
      obtain ⟨hI', hJ'⟩ := hdrift _ _ ihI hdrifts
      exact ⟨hI', fun j run hrun => hJ' run (ihJ j run hrun)⟩

/-- What holds of every job at its beginning and is kept by the exchanges of its
    thread holds of all threads. -/
theorem Reachable.thread {T : Running κ Call Answer α → Prop}
    (hbegin : ∀ i s job, E.begins i s job → T ⟨job, E.program job, []⟩)
    (hmakes : ∀ run e run', T run → run.Makes e run' → T run')
    {S₀ S : System ι κ σ Call Answer α} (h : E.Reachable S₀ S)
    (hS₀ : ∀ i run, S₀.thread i = some run → T run) {i : ι}
    {run : Running κ Call Answer α} (hrun : S.thread i = some run) : T run := by
  refine (Reachable.invariant (I := fun _ => True) (J := fun _ run => T run)
    (fun i s job hbegins _ => hbegin i s job hbegins) ?_ ?_ ?_ h trivial hS₀).2 i run hrun
  · exact fun _ run e run' _ _ hT hmake _ => ⟨trivial, hmakes run e run' hT hmake⟩
  · exact fun _ _ _ _ _ _ _ _ _ _ _ _ _ hT => hT
  · exact fun _ _ _ _ => ⟨trivial, fun _ hT => hT⟩

/-- No thread has made an exchange yet. -/
def Starts (E : Environment ι κ σ Call Answer α) (S : System ι κ σ Call Answer α) : Prop :=
  ∀ i run, S.thread i = some run → run.rest = E.program run.job ∧ run.log = []

/-- The log of a thread is the beginning of a run of its program, which goes on as
    what is left of it. -/
theorem Reachable.exec {S₀ S : System ι κ σ Call Answer α} (h : E.Reachable S₀ S)
    (hS₀ : E.Starts S₀) {i : ι} {run : Running κ Call Answer α} (hrun : S.thread i = some run)
    {tr : List (Event Answer)} {a : α} (hexec : Exec run.rest tr a) :
    Exec (E.program run.job) (run.log ++ tr) a := by
  refine Reachable.thread
    (T := fun run => ∀ tr a, Exec run.rest tr a → Exec (E.program run.job) (run.log ++ tr) a)
    (fun _ _ _ _ _ _ h => h) ?_ h ?_ hrun tr a hexec
  · rintro _ e _ ih ⟨job, next, log⟩ tr a hexec
    simpa using ih (e :: tr) a (.call e.2 hexec)
  · intro i run hrun tr a hexec
    obtain ⟨hrest, hlog⟩ := hS₀ i run hrun
    rwa [hlog, List.nil_append, ← hrest]

/-- What every program ensures of its exchanges, given those before, holds of the
    exchanges in a run. -/
theorem Reachable.exchange {P : κ → List (Event Answer) → Event Answer → Prop}
    (hbegin : ∀ i s job, E.begins i s job →
      Ensures (fun log e log' => log' = log ++ [e]) (fun log e _ => P job log e)
        (fun _ _ => True) (E.program job) [])
    {S S' : System ι κ σ Call Answer α} {s : σ} (h : E.Reachable (idle s) S) {i : ι}
    {e : Event Answer} {run : Running κ Call Answer α} (hrun : S.thread i = some run)
    (hexchanges : E.Exchanges i e S S') : P run.job run.log e := by
  have hensures := Reachable.thread
    (T := fun run => Ensures (fun log e log' => log' = log ++ [e]) (fun log e _ => P run.job log e)
      (fun _ _ => True) run.rest run.log)
    hbegin (by
      rintro _ e _ ih ⟨job, next, log⟩
      exact (ih e.2 _ rfl).2) h (by simp [idle]) hrun
  obtain ⟨run₁, _, hi, ⟨job, next, log⟩, -⟩ := hexchanges
  obtain rfl : _ = run := by simpa [hi] using hrun
  exact (hensures e.2 _ rfl).1

/-- The exchanges of every thread are answered as every exchange is. -/
theorem Reachable.answered {A : Event Answer → Prop} (hserves : ∀ s e s', E.serves s e s' → A e)
    {S : System ι κ σ Call Answer α} {s : σ} (h : E.Reachable (idle s) S) {i : ι}
    {run : Running κ Call Answer α} (hrun : S.thread i = some run) : ∀ e ∈ run.log, A e := by
  refine (Reachable.invariant (I := fun _ => True) (J := fun _ run => ∀ e ∈ run.log, A e)
    (fun _ _ _ _ _ => by simp) ?_ (fun _ _ _ _ _ _ _ _ _ _ _ _ _ hJ => hJ)
    (fun _ _ _ _ => ⟨trivial, fun _ hJ => hJ⟩) h trivial (by simp [idle])).2 i run hrun
  rintro s _ e _ s' - hJ ⟨job, next, log⟩ hserved
  refine ⟨trivial, List.forall_mem_append.mpr ⟨hJ, ?_⟩⟩
  exact List.forall_mem_singleton.mpr (hserves _ _ _ hserved)

/-- What the programs of all jobs keep to, when they are answered as in `A`, the exchanges
    of a run keep to. -/
theorem Reachable.always {A P : Event Answer → Prop} (hserves : ∀ s e s', E.serves s e s' → A e)
    (hbegin : ∀ i s job, E.begins i s job →
      Always (fun (_ : Unit) e _ => A e) (fun _ e _ => P e) (E.program job))
    {S S' : System ι κ σ Call Answer α} {s : σ} (h : E.Reachable (idle s) S) {i : ι}
    {e : Event Answer} (hexchanges : E.Exchanges i e S S') : P e := by
  let Keeps (run : Running κ Call Answer α) : Prop :=
    Always (fun (_ : Unit) e _ => A e) (fun _ e _ => P e) run.rest
  have hkeeps : ∀ i run, S.thread i = some run → Keeps run := by
    refine (Reachable.invariant (I := fun _ => True) (J := fun _ run => Keeps run)
      (fun i s job hbegins _ => hbegin i s job hbegins) ?_
      (fun _ _ _ _ _ _ _ _ _ _ _ _ _ hJ => hJ) (fun _ _ _ _ => ⟨trivial, fun _ hJ => hJ⟩) h
      trivial (by simp [idle])).2
    rintro s _ e _ s' - hJ ⟨job, next, log⟩ hserved
    exact ⟨trivial, fun u => (hJ u e.2 u (hserves _ _ _ hserved)).2⟩
  obtain ⟨_, _, hi, ⟨job, next, log⟩, hserved, -⟩ := hexchanges
  exact (hkeeps i _ hi () e.2 () (hserves _ _ _ hserved)).1

/-- A thread after a step is as it was before, has just begun, or has made the exchange
    of the step. -/
theorem Step.thread_cases {S S' : System ι κ σ Call Answer α} (h : E.Step S S') {i : ι}
    {run : Running κ Call Answer α} (hrun : S'.thread i = some run) : S.thread i = some run ∨
      (∃ job, run = ⟨job, E.program job, []⟩) ∨
      ∃ e before, S.thread i = some before ∧ before.Makes e run ∧ E.Exchanges i e S S' := by
  cases h with
  | begin j job =>
    by_cases hj : i = j
    · subst hj
      obtain rfl : _ = run := by simpa using hrun
      exact .inr (.inl ⟨job, rfl⟩)
    · exact .inl (by simpa [hj] using hrun)
  | exchange j e hexchanges =>
    obtain ⟨before, after, hi, hmakes, -, hthread⟩ := id hexchanges
    by_cases hj : i = j
    · subst hj
      obtain rfl : after = run := by simpa [hthread] using hrun
      exact .inr (.inr ⟨e, before, hi, hmakes, hexchanges⟩)
    · exact .inl (by simpa [hthread, hj] using hrun)
  | stop j =>
    by_cases hj : i = j
    · subst hj
      simp at hrun
    · exact .inl (by simpa [hj] using hrun)
  | drift => exact .inl hrun

/-! ## Another server -/

/-- The environment with another server. -/
def serving (E : Environment ι κ σ Call Answer α) (serves : σ → Event Answer → σ → Prop) :
    Environment ι κ σ Call Answer α := { E with serves := serves }

/-- A run is one of the other server too, if that serves its exchanges in the same way. -/
theorem Reachable.serving {serves : σ → Event Answer → σ → Prop} {S₀ S : System ι κ σ Call Answer α}
    (h : E.Reachable S₀ S) (hserves : ∀ S S' i e, E.Reachable S₀ S → E.Exchanges i e S S' →
      serves S.state e S'.state) : (E.serving serves).Reachable S₀ S := by
  induction h with
  | refl => exact .refl
  | @tail S S' hreach hstep ih =>
    apply ih.tail
    cases hstep with
    | begin i job hnone hbegins => exact .begin i job hnone hbegins
    | exchange i e hexchanges =>
      obtain ⟨run, run', hrun, hmakes, -, hthread⟩ := id hexchanges
      exact .exchange i e ⟨run, run', hrun, hmakes, hserves _ _ i e hreach hexchanges, hthread⟩
    | stop i => exact .stop i
    | drift hdrifts => exact .drift hdrifts

/-! ## Building runs -/

/-- An exchange, perhaps after the state changed by itself. -/
def ServesLater (E : Environment ι κ σ Call Answer α) (s : σ) (e : Event Answer) (s' : σ) : Prop :=
  ∃ s₁, (s₁ = s ∨ E.drifts s s₁) ∧ E.serves s₁ e s'

omit [DecidableEq ι] in
/-- A run in which the state never changes by itself. -/
theorem replay_servesLater {s s' : σ} {tr : List (Event Answer)} (h : Replay E.serves s tr s') :
    Replay E.ServesLater s tr s' :=
  h.map id fun s _ _ hserves => ⟨s, .inl rfl, hserves⟩

theorem reachable_of_drift {s s' : σ} (h : s' = s ∨ E.drifts s s')
    (thread : ι → Option (Running κ Call Answer α)) : E.Reachable ⟨s, thread⟩ ⟨s', thread⟩ := by
  rcases h with rfl | h
  · exact .refl
  · exact .single (.drift h)

/-- A run of a program, cut anywhere, is a run of the system in which only one thread
    moves. -/
theorem reachable_of_exec {i : ι} {job : κ} {tr tr' log : List (Event Answer)} {a : α} {s s' : σ}
    {p : Program Call Answer α} {thread : ι → Option (Running κ Call Answer α)}
    (hexec : Exec p (tr ++ tr') a) (hreplay : Replay E.ServesLater s tr s')
    (hi : thread i = some ⟨job, p, log⟩) :
    ∃ rest, Exec rest tr' a ∧ E.Reachable ⟨s, thread⟩
      ⟨s', Function.update thread i (some ⟨job, rest, log ++ tr⟩)⟩ := by
  induction hreplay generalizing p log thread with
  | nil s =>
    refine ⟨p, hexec, ?_⟩
    rw [List.append_nil, ← hi, Function.update_eq_self]
  | @cons s s₂ s' e tr hserves _ ih =>
    obtain ⟨s₁, hdrift, hserves⟩ := hserves
    cases hexec with
    | @call c next r _ _ hexec =>
      have hmakes : E.Exchanges i ⟨c, r⟩ ⟨s₁, thread⟩
          ⟨s₂, Function.update thread i (some ⟨job, next r, log ++ [⟨c, r⟩]⟩)⟩ :=
        ⟨_, _, hi, .intro (e := ⟨c, r⟩) job next log, hserves, rfl⟩
      obtain ⟨rest, hrest, hreach⟩ := ih hexec (Function.update_self ..)
      refine ⟨rest, hrest, ?_⟩
      have hexchange := Relation.ReflTransGen.single (Step.exchange i _ hmakes)
      simpa using ((reachable_of_drift hdrift _).trans hexchange).trans hreach

/-- The calls of `runFor` are steps of one thread, in a system that sees the state of the
    server as `view`. -/
theorem reachable_of_runFor {τ : Type} (view : τ → σ)
    {R : System ι κ σ Call Answer α → System ι κ σ Call Answer α → Prop}
    {serve : τ → (c : Call) → Answer c × τ} {ok : τ → Call → Bool} {i : ι} {job : κ}
    (hR : ∀ s c thread run run', ok s c = true → thread i = some run →
      run.Makes ⟨c, (serve s c).1⟩ run' →
      R ⟨view s, thread⟩ ⟨view (serve s c).2, Function.update thread i (some run')⟩)
    {n : ℕ} {p rest : Program Call Answer α} {tr log : List (Event Answer)} {s s' : τ}
    {thread : ι → Option (Running κ Call Answer α)}
    (hrun : p.runFor serve ok n s = some (rest, tr, s')) (hi : thread i = some ⟨job, p, log⟩) :
    Relation.ReflTransGen R ⟨view s, thread⟩
      ⟨view s', Function.update thread i (some ⟨job, rest, log ++ tr⟩)⟩ := by
  induction n generalizing p s log thread tr with
  | zero =>
    obtain ⟨rfl, rfl, rfl⟩ : p = rest ∧ tr = [] ∧ s = s' := by simpa [Program.runFor, eq_comm] using hrun
    rw [List.append_nil, ← hi, Function.update_eq_self]
  | succ n ih =>
    cases p with
    | ret a =>
      obtain ⟨rfl, rfl, rfl⟩ : .ret a = rest ∧ tr = [] ∧ s = s' := by
        simpa [Program.runFor, eq_comm] using hrun
      rw [List.append_nil, ← hi, Function.update_eq_self]
    | call c next =>
      rw [Program.runFor] at hrun
      split at hrun
      · rename_i hok
        obtain ⟨⟨rest', tr', s''⟩, hnext, hx⟩ := Option.map_eq_some_iff.mp hrun
        obtain ⟨rfl, rfl, rfl⟩ : rest' = rest ∧ ⟨c, (serve s c).1⟩ :: tr' = tr ∧ s'' = s' := by
          simpa using hx
        have hstep := hR s c thread _ _ hok hi (.intro (e := ⟨c, (serve s c).1⟩) job next log)
        have hrest := ih hnext (Function.update_self (f := thread) i
          (some ⟨job, next (serve s c).1, log ++ [⟨c, (serve s c).1⟩]⟩))
        simpa using Relation.ReflTransGen.head hstep hrest
      · cases hrun

/-- Any exchange of a run of a job is made in some run of the system, and the thread goes on
    with the rest of the run. -/
theorem exists_exchange (i : ι) (job : κ) {tr tr' : List (Event Answer)} {e : Event Answer} {a : α}
    {s s₁ s₂ s' : σ} (hbegin : E.begins i s job) (hexec : Exec (E.program job) (tr ++ e :: tr') a)
    (hreplay : Replay E.ServesLater s tr s₁) (hdrift : s₂ = s₁ ∨ E.drifts s₁ s₂)
    (hserves : E.serves s₂ e s') :
    ∃ S S' run run', E.Reachable (idle s) S ∧ S.state = s₂ ∧ S.thread i = some run ∧
      run.job = job ∧ run.log = tr ∧ E.Exchanges i e S S' ∧ S'.state = s' ∧
      S'.thread i = some run' ∧ Exec run'.rest tr' a := by
  let started : ι → Option (Running κ Call Answer α) :=
    Function.update (fun _ => none) i (some ⟨job, E.program job, []⟩)
  have hi : started i = some ⟨job, E.program job, []⟩ := Function.update_self ..
  have hstart : E.Reachable (idle s) ⟨s, started⟩ := .single (.begin i job rfl hbegin)
  obtain ⟨rest, hrest, hreach⟩ := reachable_of_exec hexec hreplay hi
  cases hrest with
  | @call c next r _ _ hrest =>
    exact ⟨_, ⟨s', _⟩, _, _, (hstart.trans hreach).trans (reachable_of_drift hdrift _), rfl,
      Function.update_self .., rfl, rfl,
      ⟨_, _, Function.update_self .., .intro (e := ⟨c, r⟩) job next _, hserves, rfl⟩, rfl,
      Function.update_self .., hrest⟩

/-- A thread without a job can run one to its end. -/
theorem reachable_finished (i : ι) (job : κ) {tr : List (Event Answer)} {a : α} {s' : σ}
    {S : System ι κ σ Call Answer α} (hi : S.thread i = none) (hbegin : E.begins i S.state job)
    (hexec : Exec (E.program job) tr a) (hreplay : Replay E.ServesLater S.state tr s') :
    E.Reachable S ⟨s', Function.update S.thread i (some ⟨job, .ret a, tr⟩)⟩ := by
  let started : ι → Option (Running κ Call Answer α) :=
    Function.update S.thread i (some ⟨job, E.program job, []⟩)
  have hstarted : started i = some ⟨job, E.program job, []⟩ := Function.update_self ..
  have hstart : E.Reachable S ⟨S.state, started⟩ := .single (.begin i job hi hbegin)
  have hwhole : Exec (E.program job) (tr ++ []) a := by simpa using hexec
  obtain ⟨rest, hrest, hreach⟩ := reachable_of_exec hwhole hreplay hstarted
  obtain rfl : rest = .ret a := by
    cases hrest
    rfl
  simpa [started] using hstart.trans hreach

theorem exists_finished (i : ι) (job : κ) {tr : List (Event Answer)} {a : α} {s' : σ}
    {S : System ι κ σ Call Answer α} (hi : S.thread i = none) (hbegin : E.begins i S.state job)
    (hexec : Exec (E.program job) tr a) (hreplay : Replay E.ServesLater S.state tr s') :
    ∃ S' run, E.Reachable S S' ∧ S'.thread i = some run ∧ run.job = job ∧ run.log = tr ∧
      run.Finished a ∧ S'.state = s' :=
  ⟨_, _, reachable_finished i job hi hbegin hexec hreplay, Function.update_self .., rfl, rfl, rfl,
    rfl⟩

/-- It can forget the job then. -/
theorem reachable_of_whole_run (i : ι) (job : κ) {tr : List (Event Answer)} {a : α} {s' : σ}
    {S : System ι κ σ Call Answer α} (hi : S.thread i = none) (hbegin : E.begins i S.state job)
    (hexec : Exec (E.program job) tr a) (hreplay : Replay E.ServesLater S.state tr s') :
    E.Reachable S ⟨s', S.thread⟩ := by
  have hstop := (reachable_finished i job hi hbegin hexec hreplay).tail (Step.stop i)
  simp only [Function.update_idem] at hstop
  rwa [← hi, Function.update_eq_self] at hstop

/-! ## Views -/

section map

variable {τ : Type} {F : Environment ι κ τ Call Answer α} {f : σ → τ}

/-- The system as it is seen through `f`. -/
def System.map (f : σ → τ) (S : System ι κ σ Call Answer α) : System ι κ τ Call Answer α :=
  ⟨f S.state, S.thread⟩

/-- `F` runs the programs of `E` and sees its state through `f`. -/
structure Views (E : Environment ι κ σ Call Answer α) (F : Environment ι κ τ Call Answer α)
    (f : σ → τ) : Prop where
  program : ∀ job, F.program job = E.program job
  begins : ∀ i s job, E.begins i s job → F.begins i (f s) job
  serves : ∀ s e s', E.serves s e s' → F.serves (f s) e (f s')
  /-- What `f` does not see may change. -/
  drifts : ∀ s s', E.drifts s s' → f s' = f s ∨ F.drifts (f s) (f s')

theorem Views.exchanges (hviews : Views E F f) {S S' : System ι κ σ Call Answer α} {i : ι}
    {e : Event Answer} (h : E.Exchanges i e S S') :
    F.Exchanges i e (System.map f S) (System.map f S') := by
  obtain ⟨run, run', hi, hmakes, hserves, hthread⟩ := h
  exact ⟨run, run', hi, hmakes, hviews.serves _ _ _ hserves, hthread⟩

theorem Views.step (hviews : Views E F f) {S S' : System ι κ σ Call Answer α} (h : E.Step S S') :
    F.Reachable (System.map f S) (System.map f S') := by
  cases h with
  | begin i job hnone hbegins =>
    have hstep : F.Step (System.map f S) ⟨f S.state, _⟩ :=
      .begin i job hnone (hviews.begins _ _ _ hbegins)
    rw [hviews.program job] at hstep
    exact .single hstep
  | exchange i e hexchanges => exact .single (.exchange i e (hviews.exchanges hexchanges))
  | stop i => exact .single (.stop i)
  | drift hdrifts => exact reachable_of_drift (hviews.drifts _ _ hdrifts) S.thread

/-- What is seen of a run is a run. -/
theorem Views.reachable (hviews : Views E F f) {S S' : System ι κ σ Call Answer α}
    (h : E.Reachable S S') : F.Reachable (System.map f S) (System.map f S') := by
  induction h with
  | refl => exact .refl
  | tail _ hstep ih => exact ih.trans (hviews.step hstep)

end map

/-! ## One thread -/

section sequential

variable {I : σ → Prop}
  {G : σ × List (Event Answer) → Event Answer → σ × List (Event Answer) → Prop}
  {Q : κ → α → σ × List (Event Answer) → Prop}

/-- With one thread, what the programs guarantee and ensure holds in all runs, from
    an invariant `I` of the state that the guarantee keeps. -/
theorem Reachable.sequential [Subsingleton ι]
    (hbegin : ∀ i s job, E.begins i s job → I s →
      Ensures (logged E.serves) G (Q job) (E.program job) (s, []))
    (hkeep : ∀ s log e s', I s → G (s, log) e (s', log ++ [e]) → I s')
    (hdrift : ∀ s s', ¬E.drifts s s')
    {S : System ι κ σ Call Answer α} {s : σ} (h : E.Reachable (idle s) S) (hs : I s) :
    I S.state ∧ ∀ i run, S.thread i = some run →
      Ensures (logged E.serves) G (Q run.job) run.rest (S.state, run.log) := by
  refine Reachable.invariant
    (J := fun s run => Ensures (logged E.serves) G (Q run.job) run.rest (s, run.log))
    hbegin ?_ ?_ ?_ h hs (by simp [idle])
  · rintro s _ e _ s' hI hJ ⟨job, next, log⟩ hserves
    obtain ⟨hG, hrest⟩ := hJ e.2 (s', log ++ [e]) ⟨hserves, rfl⟩
    exact ⟨hkeep _ _ _ _ hI hG, hrest⟩
  · exact fun i j _ _ _ _ _ _ hij => absurd (Subsingleton.elim i j) hij
  · exact fun s s' _ hd => absurd hd (hdrift s s')

theorem guarantees_of_ensures {S S' : System ι κ σ Call Answer α} {i : ι} {e : Event Answer}
    (hensures : ∀ i run, S.thread i = some run →
      Ensures (logged E.serves) G (Q run.job) run.rest (S.state, run.log))
    (hexchanges : E.Exchanges i e S S') : ∃ run, S.thread i = some run ∧
      G (S.state, run.log) e (S'.state, run.log ++ [e]) := by
  obtain ⟨_, _, hi, ⟨job, next, log⟩, hserves, -⟩ := hexchanges
  exact ⟨_, hi, (hensures i _ hi e.2 (S'.state, log ++ [e]) ⟨hserves, rfl⟩).1⟩

end sequential

end Environment

end Interaction
