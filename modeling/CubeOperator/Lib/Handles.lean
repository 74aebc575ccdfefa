import CubeOperator.Lib.Session

/-! # Threads that hold handles

    Some exchanges give their thread a handle (a transaction, a lease, a file), and no
    handle is given out twice.  What a thread knows from its own log about its handles,
    the other threads leave alone.

    * `Handles`: which handle an exchange gives out;
    * `Handles.apart`: two threads hold no handle in common;
    * `Handles.invariant`: an invariant of the state and of the log of each thread. -/

namespace Interaction

variable {ι κ σ τ Call α : Type} {Answer : Call → Type}

/-- What the exchanges of `E` give out, and what has been given out in a state. -/
structure Handles (E : Environment ι κ σ Call Answer α) (τ : Type) where
  given : Event Answer → Option τ
  issued : σ → τ → Prop
  fresh : ∀ s e s' t, E.serves s e s' → given e = some t → ¬issued s t
  serves : ∀ s e s' t, E.serves s e s' → issued s t ∨ given e = some t → issued s' t
  drifts : ∀ s s' t, E.drifts s s' → issued s t → issued s' t

namespace Handles

open Environment

variable {E : Environment ι κ σ Call Answer α} (H : Handles E τ) {s₀ : σ}
  {S : System ι κ σ Call Answer α}

/-- The handles that the exchanges of a log gave out. -/
def Held (log : List (Event Answer)) (t : τ) : Prop := ∃ e ∈ log, H.given e = some t

/-- No handle is held in both logs. -/
def Apart (log log' : List (Event Answer)) : Prop := ∀ t, H.Held log t → ¬H.Held log' t

variable {H}

theorem not_held_nil (t : τ) : ¬H.Held [] t := by
  rintro ⟨e, hmem, -⟩
  cases hmem

theorem held_append {log : List (Event Answer)} {e : Event Answer} {t : τ} :
    H.Held (log ++ [e]) t ↔ H.Held log t ∨ H.given e = some t := by
  simp [Held, or_and_right, exists_or]

theorem Apart.symm {log log' : List (Event Answer)} (h : H.Apart log log') : H.Apart log' log :=
  fun t h' hheld => h t hheld h'

variable [DecidableEq ι]

/-- What a thread holds has been given out. -/
theorem issued_of_held (h : E.Reachable (idle s₀) S) {i : ι} {run : Running κ Call Answer α}
    (hrun : S.thread i = some run) {t : τ} (hheld : H.Held run.log t) : H.issued S.state t := by
  refine (Reachable.invariant (I := fun _ => True)
    (J := fun s run => ∀ t, H.Held run.log t → H.issued s t) (fun _ _ _ _ _ t h => ?_) ?_ ?_ ?_ h
    trivial (by simp [idle])).2 i run hrun t hheld
  · exact absurd h (not_held_nil t)
  · rintro s _ e _ s' - hJ ⟨job, next, log⟩ hserves
    refine ⟨trivial, fun t ht => H.serves s e s' t hserves ?_⟩
    exact (held_append.mp ht).imp_left (hJ t)
  · exact fun _ _ s _ e _ s' _ _ _ _ _ hserves hJ t ht => H.serves s e s' t hserves (.inl (hJ t ht))
  · exact fun s s' _ hdrifts => ⟨trivial, fun _ hJ t ht => H.drifts s s' t hdrifts (hJ t ht)⟩

/-- Two threads hold no handle in common: one that is given out is new to all threads. -/
theorem apart (h : E.Reachable (idle s₀) S) {i j : ι} (hne : i ≠ j)
    {run run' : Running κ Call Answer α} (hi : S.thread i = some run)
    (hj : S.thread j = some run') : H.Apart run.log run'.log := by
  induction h generalizing i j run run' with
  | refl => cases hi
  | @tail S S' hreach hstep ih =>
    cases hstep with
    | begin k job =>
      -- The new log is empty.
      by_cases hik : i = k
      · subst hik
        obtain rfl : _ = run := by simpa using hi
        exact fun t hheld => absurd hheld (not_held_nil t)
      by_cases hjk : j = k
      · subst hjk
        obtain rfl : _ = run' := by simpa using hj
        exact fun t _ => not_held_nil t
      exact ih hne (by simpa [hik] using hi) (by simpa [hjk] using hj)
    | exchange k e hexchanges =>
      obtain ⟨_, _, hk, ⟨job, next, log⟩, hserves, hthread⟩ := hexchanges
      have hnew : ∀ {l : ι} {other : Running κ Call Answer α}, k ≠ l →
          S.thread l = some other → H.Apart (log ++ [e]) other.log := by
        intro l other hkl hl t ht hother
        rcases held_append.mp ht with hold | hgiven
        · exact ih hkl hk hl t hold hother
        · exact H.fresh _ _ _ t hserves hgiven (issued_of_held hreach hl hother)
      rw [hthread] at hi hj
      by_cases hik : i = k
      · subst hik
        obtain rfl : _ = run := by simpa using hi
        exact hnew hne (by simpa [Ne.symm hne] using hj)
      by_cases hjk : j = k
      · subst hjk
        obtain rfl : _ = run' := by simpa using hj
        exact (hnew (Ne.symm hne) (by simpa [hne] using hi)).symm
      exact ih hne (by simpa [hik] using hi) (by simpa [hjk] using hj)
    | stop k =>
      by_cases hik : i = k
      · subst hik
        simp at hi
      by_cases hjk : j = k
      · subst hjk
        simp at hj
      exact ih hne (by simpa [hik] using hi) (by simpa [hjk] using hj)
    | drift => exact ih hne hi hj

/-- The state keeps `I`, and each thread `P` of its job and log, when the exchanges that
    the programs make keep both for their own thread, and `P` for the threads whose
    handles are others. -/
theorem invariant (H : Handles E τ) (allowed : κ → List (Event Answer) → Event Answer → Prop)
    {I : σ → Prop} {P : κ → List (Event Answer) → σ → Prop}
    (hprogram : ∀ i s job, E.begins i s job →
      Ensures (fun log e log' => log' = log ++ [e]) (fun log e _ => allowed job log e)
        (fun _ _ => True) (E.program job) [])
    (hbegin : ∀ i s job, E.begins i s job → I s → P job [] s)
    (hown : ∀ s job log e s', I s → P job log s → allowed job log e → E.serves s e s' →
      I s' ∧ P job (log ++ [e]) s')
    (hother : ∀ s job log e s' job' log', I s → P job log s → allowed job log e →
      E.serves s e s' → H.Apart (log ++ [e]) log' → P job' log' s → P job' log' s')
    (hdrift : ∀ s s', I s → E.drifts s s' → I s' ∧ ∀ job log, P job log s → P job log s')
    (h : E.Reachable (idle s₀) S) (hI : I s₀) :
    I S.state ∧ ∀ i run, S.thread i = some run → P run.job run.log S.state := by
  induction h with
  | refl => exact ⟨hI, by simp [idle]⟩
  | @tail S S' hreach hstep ih =>
    obtain ⟨ihI, ihP⟩ := ih
    have hnext := hreach.tail hstep
    cases hstep with
    | begin i job hnone hbegins =>
      refine ⟨ihI, fun j run hrun => ?_⟩
      by_cases hj : j = i
      · subst hj
        obtain rfl : _ = run := by simpa using hrun
        exact hbegin _ _ _ hbegins ihI
      · exact ihP j run (by simpa [hj] using hrun)
    | exchange i e hexchanges =>
      have hexchanges' := hexchanges
      obtain ⟨_, _, hi, ⟨job, next, log⟩, hserves, hthread⟩ := hexchanges
      have hallowed : allowed job log e := Reachable.exchange hprogram hreach hi hexchanges'
      obtain ⟨hI', hP'⟩ := hown _ _ _ _ _ ihI (ihP i _ hi) hallowed hserves
      refine ⟨hI', fun j run hrun => ?_⟩
      by_cases hj : j = i
      · subst hj
        obtain rfl : _ = run := by simpa [hthread] using hrun
        exact hP'
      · -- the handles of the two threads are apart also after the exchange
        have hold : S.thread j = some run := by simpa [hthread, hj] using hrun
        have hi' : S'.thread i = some ⟨job, next e.2, log ++ [e]⟩ := by simp [hthread]
        exact hother _ _ _ _ _ _ _ ihI (ihP i _ hi) hallowed hserves
          (apart hnext (Ne.symm hj) hi' hrun) (ihP j run hold)
    | stop i =>
      refine ⟨ihI, fun j run hrun => ?_⟩
      by_cases hj : j = i
      · subst hj
        simp at hrun
      · exact ihP j run (by simpa [hj] using hrun)
    | drift hdrifts =>
      obtain ⟨hI', hP'⟩ := hdrift _ _ ihI hdrifts
      exact ⟨hI', fun j run hrun => hP' _ _ (ihP j run hrun)⟩

end Handles

end Interaction
