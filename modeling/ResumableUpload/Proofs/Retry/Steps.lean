import ResumableUpload.Retry.Loop

/-!
# Steps of a retried call

`Loop.Goes` lists what a retried call that is not cancelled can do in one step, with the conditions
under which it does. A step does just that, or ends a call that is cancelled (`Loop.step_cases`).
-/

namespace ResumableUpload.Retry

/-- The fault of an attempt, if it failed. -/
def Outcome.fault? (op : Operation) : Outcome α → Option CallFault
  | .value _ => none
  | .fault f => some f
  | .late => some op.lateFault

/-- The signal is the one that the stage waits for. -/
def Stage.awaits : Stage → Signal α → Bool
  | .ready _, .look | .attempting _, .outcome _ | .pausing _ _, .wake => true
  | _, _ => false

/-- How many attempts have begun. -/
def Stage.begun : Stage → Nat
  | .ready n => n
  | .attempting n | .pausing n _ => n + 1

/-- The attempts that have begun and the next one, if one comes, are as many as a bound on the
retries admits. -/
def Stage.Within (maxRetries : Nat) : Stage → Prop
  | .ready n | .attempting n => n ≤ maxRetries
  | .pausing n _ => n < maxRetries

theorem Stage.Within.begun_le {maxRetries : Nat} {stage : Stage} (h : stage.Within maxRetries) :
    stage.begun ≤ maxRetries + 1 := by
  cases stage with
  | ready n => exact Nat.le_succ_of_le h
  | attempting n => exact Nat.succ_le_succ h
  | pausing n wait => exact Nat.le_succ_of_le h

namespace Loop

variable {op : Operation} {noise : Nat}

/-- What a retried call that is not cancelled can do in one step. -/
inductive Goes (op : Operation) (noise : Nat) : Stage → Signal α → Loop α → Prop
  | begins (n : Nat) : Goes op noise (.ready n) .look (.active (.attempting n))
  | succeeds (n : Nat) (a : α) :
      Goes op noise (.attempting n) (.outcome (.value a)) (.ended (.ok a))
  | fails (n : Nat) (o : Outcome α) (f : CallFault) :
      o.fault? op = some f → f.isRetriable = false →
      Goes op noise (.attempting n) (.outcome o) (.ended (.error (.fatal (n + 1) f)))
  | tires (n : Nat) (o : Outcome α) (f : CallFault) :
      o.fault? op = some f → f.isRetriable = true → op.policy.maxRetries ≤ n →
      Goes op noise (.attempting n) (.outcome o) (.ended (.error (.exhausted (n + 1) f)))
  | pauses (n : Nat) (o : Outcome α) (f : CallFault) :
      o.fault? op = some f → f.isRetriable = true → n < op.policy.maxRetries →
      Goes op noise (.attempting n) (.outcome o)
        (.active (.pausing n (op.policy.backoff n f.kind noise)))
  | resumes (n : Nat) (wait : Duration) :
      Goes op noise (.pausing n wait) .wake (.active (.ready (n + 1)))
  | stays (stage : Stage) (s : Signal α) :
      stage.awaits s = false → Goes op noise stage s (.active stage)

theorem goes_afterFault (n : Nat) {o : Outcome α} {f : CallFault} (hf : o.fault? op = some f) :
    Goes op noise (.attempting n) (.outcome o) (op.afterFault noise n f).1 := by
  unfold Operation.afterFault
  by_cases hr : f.isRetriable = true
  · by_cases hn : op.policy.maxRetries ≤ n
    · simp only [hr, hn, Bool.not_true, Bool.false_eq_true, if_false, if_true]
      exact .tires n o f hf hr hn
    · simp only [hr, hn, Bool.not_true, Bool.false_eq_true, if_false]
      exact .pauses n o f hf hr (by omega)
  · have hr' : f.isRetriable = false := by simpa using hr
    simp only [hr', Bool.not_false, if_true]
    exact .fails n o f hf hr'

/-- A step ends a cancelled call, or does what the stage and the signal say. -/
theorem step_cases (op : Operation) (noise : Nat) (cancelled : Bool) (stage : Stage)
    (s : Signal α) :
    (cancelled = true ∧ (step op noise cancelled (active stage) s).1 = ended (.error .cancelled)) ∨
      (cancelled = false ∧ Goes op noise stage s (step op noise cancelled (active stage) s).1) := by
  cases cancelled with
  | true => exact .inl ⟨rfl, rfl⟩
  | false =>
    refine .inr ⟨rfl, ?_⟩
    cases stage with
    | ready n => cases s with
      | look => exact .begins n
      | _ => exact .stays _ _ rfl
    | attempting n => cases s with
      | outcome o => cases o with
        | value a => exact .succeeds n a
        | fault f => exact goes_afterFault (o := .fault f) n rfl
        | late => exact goes_afterFault (o := .late) n rfl
      | _ => exact .stays _ _ rfl
    | pausing n wait => cases s with
      | wake => exact .resumes n wait
      | _ => exact .stays _ _ rfl

end Loop

end ResumableUpload.Retry
