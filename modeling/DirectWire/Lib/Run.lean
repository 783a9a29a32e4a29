import Mathlib.Tactic

/-!
# Runs of a transition system

A system is a partial step function `step : σ → ε → Option σ`: `none` is an event the state does
not allow. `Run` collects the states reached by steps that all meet a condition `ok` on the state
before the step and the event.

* `Run.mono`, `Run.trans`, `Run.lift` — other conditions, runs one after another, larger systems.
-/

namespace DirectWire.Lib

variable {σ ε : Type}

/-- The states reached from `s₀` by steps that all meet `ok`. -/
inductive Run (step : σ → ε → Option σ) (ok : σ → ε → Prop) (s₀ : σ) : σ → Prop where
  | start : Run step ok s₀ s₀
  | step {s s' : σ} {e : ε} :
      Run step ok s₀ s → ok s e → step s e = some s' → Run step ok s₀ s'

def Always (_ : σ) (_ : ε) : Prop := True

variable {step : σ → ε → Option σ} {ok ok' : σ → ε → Prop} {s₀ s : σ}

/-- A property kept by every such step holds in every state of every run. -/
theorem Run.invariant {I : σ → Prop} (h : Run step ok s₀ s) (hInit : I s₀)
    (hStep : ∀ s s' e, I s → ok s e → step s e = some s' → I s') : I s := by
  induction h with
  | start => exact hInit
  | step _ hOk hs ih => exact hStep _ _ _ ih hOk hs

theorem Run.mono (h : Run step ok s₀ s) (hImp : ∀ s e, ok s e → ok' s e) : Run step ok' s₀ s := by
  induction h with
  | start => exact .start
  | step _ hOk hs ih => exact .step ih (hImp _ _ hOk) hs

variable {s' : σ} {es : List ε}

theorem Run.trans (h : Run step ok s₀ s) (h' : Run step ok s s') : Run step ok s₀ s' := by
  induction h' with
  | start => exact h
  | step _ hOk hs ih => exact .step ih hOk hs

theorem Run.lift {τ δ : Type} {step' : τ → δ → Option τ} (ok' : τ → δ → Prop) (f : σ → τ)
    (g : ε → δ) (hStep : ∀ s e s', ok s e → step s e = some s' →
      ok' (f s) (g e) ∧ step' (f s) (g e) = some (f s'))
    (h : Run step ok s₀ s) : Run step' ok' (f s₀) (f s) := by
  induction h with
  | start => exact .start
  | step _ hOk hs ih =>
    obtain ⟨hOk', hs'⟩ := hStep _ _ _ hOk hs
    exact .step ih hOk' hs'

/-- Take the events one after another, each only where it meets `ok`. -/
def exec (step : σ → ε → Option σ) (ok : σ → ε → Prop) [∀ s e, Decidable (ok s e)] :
    σ → List ε → Option σ
  | s, [] => some s
  | s, e :: es => if ok s e then (step s e).bind fun s' => exec step ok s' es else none

instance (s : σ) (e : ε) : Decidable (Always s e) := .isTrue trivial

variable [∀ s e, Decidable (ok s e)]

theorem exec_cons {e : ε} (hOk : ok s e) (hStep : step s e = some s') :
    exec step ok s (e :: es) = exec step ok s' es := by
  rw [exec, if_pos hOk, hStep]
  rfl

theorem Run.exec (hRun : Run step ok s₀ s) (h : exec step ok s es = some s') :
    Run step ok s₀ s' := by
  -- the run so far grows by the event at the head
  induction es generalizing s with
  | nil =>
    cases h
    exact hRun
  | cons e es ih =>
    rw [Lib.exec] at h
    split at h
    · rename_i hOk
      obtain ⟨t, hStep, hRest⟩ := Option.bind_eq_some_iff.mp h
      exact ih (.step hRun hOk hStep) hRest
    · cases h

/-- What an execution shows: every step adds something of the state and the
event. -/
def observe {ω : Type} (step : σ → ε → Option σ) (shows : σ → ε → List ω) : σ → List ε → List ω
  | _, [] => []
  | s, e :: es =>
    shows s e ++ match step s e with
      | some s' => observe step shows s' es
      | none => []

/-- With the events so far, and with what the steps have shown. -/
theorem observe_invariant {ω : Type} (shows : σ → ε → List ω) {I : List ε → List ω → σ → Prop}
    (hInit : I [] [] s)
    (hStep : ∀ es seen s e s', I es seen s → ok s e → step s e = some s' →
      I (es ++ [e]) (seen ++ shows s e) s') (h : exec step ok s es = some s') :
    I es (observe step shows s es) s' := by
  -- carry what is past
  suffices ∀ (past : List ε) (seen : List ω) (s : σ), I past seen s →
      exec step ok s es = some s' → I (past ++ es) (seen ++ observe step shows s es) s' by
    simpa using this [] [] s hInit h
  clear hInit h
  induction es with
  | nil =>
    intro past seen s hI h
    cases h
    simpa [observe] using hI
  | cons e es ih =>
    intro past seen s hI h
    rw [Lib.exec] at h
    split at h
    · rename_i hOk
      obtain ⟨t, hTake, hRest⟩ := Option.bind_eq_some_iff.mp h
      have hKept := hStep past seen s e t hI hOk hTake
      have hNext := ih (past ++ [e]) (seen ++ shows s e) t hKept hRest
      simpa [observe, hTake] using hNext
    · cases h

/-- Executing a list of events gives a run. -/
theorem exists_run_of_exec (step : σ → ε → Option σ) (ok : σ → ε → Prop)
    [∀ s e, Decidable (ok s e)] (s₀ : σ) (es : List ε) (test : σ → Bool)
    (h : (exec step ok s₀ es).any test = true) : ∃ s, Run step ok s₀ s ∧ test s = true := by
  obtain ⟨s, hExec, hTest⟩ := (Option.any_eq_true _ _).mp h
  exact ⟨s, Run.start.exec hExec, hTest⟩

end DirectWire.Lib
