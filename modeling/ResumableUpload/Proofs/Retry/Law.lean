import ResumableUpload.Proofs.Retry.Steps

/-!
# The law of a retried call

How the attempts of a call would end, one after the other without end, is written down in a
`Script`. The call is polled: with each `Poll` it sees whether the token is cancelled, and whether
what it waits for has come. `Script.play` is the call under a list of polls, with what it has done.

The law says what that is (`Script.plays_out`). With `k` the first attempt that gives a value or
fails for good, a call that is never cancelled makes the attempts up to `k`, or up to the bound of
its retries if `k` is beyond it, waits between them as long as the policy says, and ends with what
the last of them says. A call that is cancelled before that is over at the next poll, whatever else
that poll brings, and what it has done is a beginning of the same course.
-/

namespace ResumableUpload.Retry

/-- A call with the ends of all its attempts, and the random words that move its waits. -/
structure Script (α : Type) where
  op : Operation
  outcomes : Nat → Outcome α
  noise : Nat → Nat

/-- What a call sees when it is polled. -/
structure Poll where
  cancelled : Bool := false
  -- the attempt under way has ended, or the wait is over
  ready : Bool := true

/-- What a call does that its surroundings can see. -/
inductive Deed
  | attempt (n : Nat)
  -- the wait after attempt `n`
  | pause (n : Nat) (wait : Duration)
  deriving DecidableEq

namespace Deed

def attempt? : Deed → Option Nat
  | attempt n => some n
  | pause .. => none

def pause? : Deed → Option (Nat × Duration)
  | attempt _ => none
  | pause n wait => some (n, wait)

end Deed

/-- A call under way: where it is, and what it has done so far. -/
structure Course (α : Type) where
  loop : Loop α := .start
  deeds : List Deed := []

/-- What a step did, by where it led. -/
def Loop.deeds : Loop α → Loop α → List Deed
  | .active (.ready _), .active (.attempting n) => [.attempt n]
  | .active (.attempting _), .active (.pausing n wait) => [.pause n wait]
  | _, _ => []

/-- The number of the attempt that a stage is about. -/
def Stage.number : Stage → Nat
  | .ready n | .attempting n | .pausing n _ => n

/-- Why a call failed whose last attempt `n` ended with this fault. -/
def Failure.after (n : Nat) (f : CallFault) : Failure :=
  if f.isRetriable then .exhausted (n + 1) f else .fatal (n + 1) f

theorem Failure.retriable_of_exhausted {m n : Nat} {f g : CallFault}
    (h : .exhausted n f = Failure.after m g) : f.isRetriable = true := by
  unfold Failure.after at h
  by_cases hr : g.isRetriable = true
  · rw [if_pos hr] at h
    cases h
    exact hr
  · rw [if_neg hr] at h
    cases h

theorem Failure.not_retriable_of_fatal {m n : Nat} {f g : CallFault}
    (h : .fatal n f = Failure.after m g) : f.isRetriable = false := by
  unfold Failure.after at h
  by_cases hr : g.isRetriable = true
  · rw [if_pos hr] at h
    cases h
  · rw [if_neg hr] at h
    cases h
    simpa using hr

/-- What the end of attempt `n` means if it was the last. -/
def Outcome.verdict (op : Operation) (n : Nat) : Outcome α → Except Failure α
  | .value a => .ok a
  | .fault f => .error (.after n f)
  | .late => .error (.after n op.lateFault)

namespace Script

variable (s : Script α)

/-- What reaches the call with a poll. -/
def signal (ready : Bool) : Stage → Signal α
  | .ready _ => .look
  | .attempting n => if ready then .outcome (s.outcomes n) else .look
  | .pausing .. => if ready then .wake else .look

/-- The call is polled once. -/
def advance (c : Course α) (p : Poll) : Course α :=
  match c.loop with
  | .ended _ => c
  | .active stage =>
    let loop :=
      ((Loop.active stage).step s.op (s.noise stage.number) p.cancelled (s.signal p.ready stage)).1
    ⟨loop, c.deeds ++ (Loop.active stage).deeds loop⟩

/-- The call is polled again and again. -/
def play (polls : List Poll) : Course α := polls.foldl s.advance {}

def fault? (n : Nat) : Option CallFault := (s.outcomes n).fault? s.op

/-- No attempt follows attempt `n`, whatever the bound of the retries: it gives a value, or a fault
that no retry can mend. -/
def settles (n : Nat) : Bool := !(s.fault? n).any CallFault.isRetriable

/-- The kind of the fault of attempt `n`. -/
def kind (n : Nat) : FaultKind := ((s.fault? n).map CallFault.kind).getD .unknown

/-- The wait that the policy sets after attempt `n`. -/
def wait (n : Nat) : Duration := s.op.policy.backoff n (s.kind n) (s.noise n)

/-- What goes before attempt `n`. -/
def lead : Nat → List Deed
  | 0 => []
  | n + 1 => lead n ++ [.attempt n, .pause n (s.wait n)]

/-- The attempts up to attempt `n`, with the waits between them. -/
def upTo (n : Nat) : List Deed := s.lead n ++ [.attempt n]

/-- The last attempt of a call that is never cancelled. -/
def last : Nat := ((List.range s.op.policy.maxRetries).find? s.settles).getD s.op.policy.maxRetries

/-- The answer of a call that is never cancelled. -/
def verdict : Except Failure α := (s.outcomes s.last).verdict s.op s.last

/-! ## The course of a call that is left alone -/

variable {s}

@[simp] theorem upTo_eq (n : Nat) : s.upTo n = s.lead n ++ [.attempt n] := rfl

theorem lead_succ (n : Nat) : s.lead (n + 1) = s.upTo n ++ [.pause n (s.wait n)] := by
  simp [lead]

theorem lead_mono {m n : Nat} (h : m ≤ n) : s.lead m <+: s.lead n := by
  induction h with
  | refl => exact List.prefix_rfl
  | step _ ih => exact ih.trans (List.prefix_append _ _)

theorem upTo_mono {m n : Nat} (h : m ≤ n) : s.upTo m <+: s.upTo n := by
  rcases Nat.lt_or_eq_of_le h with hlt | rfl
  · have hlead : s.lead (m + 1) <+: s.upTo n := (lead_mono hlt).trans (List.prefix_append _ _)
    rw [lead_succ] at hlead
    exact (List.prefix_append _ _).trans hlead
  · exact List.prefix_rfl

theorem attempts_upTo (n : Nat) : (s.upTo n).filterMap Deed.attempt? = List.range (n + 1) := by
  have hlead : ∀ m, (s.lead m).filterMap Deed.attempt? = List.range m := by
    intro m
    induction m with
    | zero => rfl
    | succ m ih => simp [lead, ih, Deed.attempt?, List.range_succ]
  simp [hlead, Deed.attempt?, List.range_succ]

theorem pauses_upTo (n : Nat) :
    (s.upTo n).filterMap Deed.pause? = (List.range n).map fun i => (i, s.wait i) := by
  have hlead : ∀ m,
      (s.lead m).filterMap Deed.pause? = (List.range m).map fun i => (i, s.wait i) := by
    intro m
    induction m with
    | zero => rfl
    | succ m ih => simp [lead, ih, List.filterMap_cons, Deed.pause?, List.range_succ]
  simp [hlead, List.filterMap_cons, Deed.pause?]

theorem last_le : s.last ≤ s.op.policy.maxRetries := by
  unfold last
  cases hfind : (List.range s.op.policy.maxRetries).find? s.settles with
  | none => exact Nat.le_refl _
  | some k =>
    obtain ⟨-, hk, -⟩ := List.find?_range_eq_some.mp hfind
    exact Nat.le_of_lt (List.mem_range.mp hk)

/-- Before the last attempt, each one failed in a way that a retry may mend. -/
theorem settles_of_lt_last {n : Nat} (h : n < s.last) : s.settles n = false := by
  unfold last at h
  cases hfind : (List.range s.op.policy.maxRetries).find? s.settles with
  | none =>
    rw [hfind] at h
    simpa using List.find?_range_eq_none.mp hfind n h
  | some k =>
    rw [hfind] at h
    obtain ⟨-, -, hbefore⟩ := List.find?_range_eq_some.mp hfind
    simpa using hbefore n h

/-- The last attempt settles the call, unless it uses up the retries. -/
theorem settles_last (h : s.last < s.op.policy.maxRetries) : s.settles s.last = true := by
  unfold last at h ⊢
  cases hfind : (List.range s.op.policy.maxRetries).find? s.settles with
  | none =>
    rw [hfind] at h
    exact absurd h (Nat.lt_irrefl _)
  | some k => exact List.find?_some hfind

theorem last_eq {k : Nat} (hk : k ≤ s.op.policy.maxRetries)
    (hsettles : s.settles k = true ∨ k = s.op.policy.maxRetries)
    (hbefore : ∀ i < k, s.settles i = false) : s.last = k := by
  rcases Nat.lt_trichotomy s.last k with hlt | heq | hgt
  · have hlast := settles_last (Nat.lt_of_lt_of_le hlt hk)
    rw [hbefore _ hlt] at hlast
    cases hlast
  · exact heq
  · rcases hsettles with hset | hmax
    · rw [settles_of_lt_last hgt] at hset
      cases hset
    · have hle := last_le (s := s)
      omega

theorem fault_of_unsettled {n : Nat} (h : s.settles n = false) :
    ∃ f, s.fault? n = some f ∧ f.isRetriable = true := by
  unfold settles at h
  cases hf : s.fault? n with
  | none => simp [hf] at h
  | some f => exact ⟨f, rfl, by simpa [hf] using h⟩

theorem settles_eq_false_iff {n : Nat} {f : CallFault} (hf : s.fault? n = some f) :
    s.settles n = false ↔ f.isRetriable = true := by
  simp [settles, hf]

theorem outcome_of_fault {n : Nat} {f : CallFault} (hf : s.fault? n = some f) :
    s.outcomes n = .fault f ∨ (s.outcomes n = .late ∧ f = s.op.lateFault) := by
  unfold fault? at hf
  cases ho : s.outcomes n with
  | value a => simp [ho, Outcome.fault?] at hf
  | fault g =>
    have hg : g = f := by simpa [ho, Outcome.fault?] using hf
    exact .inl (by rw [hg])
  | late =>
    have hg : s.op.lateFault = f := by simpa [ho, Outcome.fault?] using hf
    exact .inr ⟨rfl, hg.symm⟩

theorem outcome_of_no_fault {n : Nat} (hf : s.fault? n = none) : ∃ a, s.outcomes n = .value a := by
  unfold fault? at hf
  cases ho : s.outcomes n with
  | value a => exact ⟨a, rfl⟩
  | fault f => simp [ho, Outcome.fault?] at hf
  | late => simp [ho, Outcome.fault?] at hf

theorem verdict_of_fault {n : Nat} {f : CallFault} (hf : s.fault? n = some f) :
    (s.outcomes n).verdict s.op n = .error (.after n f) := by
  rcases outcome_of_fault hf with ho | ⟨ho, rfl⟩
  · rw [ho]
    rfl
  · rw [ho]
    rfl

theorem conclude_of_fault {n : Nat} {f : CallFault} (hf : s.fault? n = some f) (noise : Nat) :
    s.op.conclude noise n (s.outcomes n) = s.op.afterFault noise n f := by
  rcases outcome_of_fault hf with ho | ⟨ho, rfl⟩
  · rw [ho]
    rfl
  · rw [ho]
    rfl

/-- After an attempt that is not the last, the call waits as long as the policy says. -/
theorem conclude_of_lt_last {n : Nat} (h : n < s.last) :
    (s.op.conclude (s.noise n) n (s.outcomes n)).1 = .active (.pausing n (s.wait n)) := by
  obtain ⟨f, hf, hr⟩ := fault_of_unsettled (settles_of_lt_last h)
  have hmax : ¬ s.op.policy.maxRetries ≤ n := by
    have hle := last_le (s := s)
    omega
  have hkind : s.kind n = f.kind := by simp [kind, hf]
  rw [conclude_of_fault hf]
  simp [Operation.afterFault, hr, hmax, wait, hkind]

/-- The last attempt ends the call. -/
theorem conclude_last :
    (s.op.conclude (s.noise s.last) s.last (s.outcomes s.last)).1 = .ended s.verdict := by
  cases hf : s.fault? s.last with
  | none =>
    obtain ⟨a, ha⟩ := outcome_of_no_fault hf
    rw [verdict, ha]
    rfl
  | some f =>
    rw [conclude_of_fault hf, verdict, verdict_of_fault hf]
    by_cases hr : f.isRetriable = true
    · have hmax : s.op.policy.maxRetries ≤ s.last := by
        apply Nat.le_of_not_lt
        intro hlt
        have hset := settles_last hlt
        rw [(settles_eq_false_iff hf).mpr hr] at hset
        cases hset
      simp [Operation.afterFault, Failure.after, hr, hmax]
    · simp [Operation.afterFault, Failure.after, hr]

/-- A call that is left alone, somewhere on its course. -/
inductive OnCourse (s : Script α) : Course α → Prop
  | ready (n : Nat) : n ≤ s.last → OnCourse s ⟨.active (.ready n), s.lead n⟩
  | attempting (n : Nat) : n ≤ s.last → OnCourse s ⟨.active (.attempting n), s.upTo n⟩
  | pausing (n : Nat) :
      n < s.last → OnCourse s ⟨.active (.pausing n (s.wait n)), s.lead (n + 1)⟩
  | ended : OnCourse s ⟨.ended s.verdict, s.upTo s.last⟩

/-- How many times what it waits for must come before the call is over. -/
def left (s : Script α) (c : Course α) : Nat :=
  match c.loop with
  | .active (.ready n) => 3 * (s.last - n) + 2
  | .active (.attempting n) => 3 * (s.last - n) + 1
  | .active (.pausing n _) => 3 * (s.last - n)
  | .ended _ => 0

theorem onCourse_start : s.OnCourse {} := .ready 0 (Nat.zero_le _)

/-- One poll keeps a call that is left alone on its course, and if what it waits for has come, it
is one step nearer to the end. -/
theorem onCourse_advance {c : Course α} (h : s.OnCourse c) {p : Poll}
    (hp : p.cancelled = false) :
    s.OnCourse (s.advance c p) ∧
      s.left (s.advance c p) ≤ s.left c - (if p.ready then 1 else 0) := by
  cases h with
  | ready n hn =>
    have hadv : s.advance ⟨.active (.ready n), s.lead n⟩ p
        = ⟨.active (.attempting n), s.upTo n⟩ := by
      simp [advance, Loop.step, hp, signal, Loop.deeds]
    rw [hadv]
    refine ⟨.attempting n hn, ?_⟩
    show 3 * (s.last - n) + 1 ≤ 3 * (s.last - n) + 2 - _
    split <;> omega
  | attempting n hn =>
    cases hready : p.ready with
    | false =>
      have hadv : s.advance ⟨.active (.attempting n), s.upTo n⟩ p
          = ⟨.active (.attempting n), s.upTo n⟩ := by
        simp [advance, Loop.step, hp, hready, signal, Loop.deeds]
      rw [hadv]
      exact ⟨.attempting n hn, Nat.le_refl _⟩
    | true =>
      have hstep : ((Loop.active (.attempting n)).step s.op (s.noise n) p.cancelled
          (s.signal true (.attempting n))).1 = (s.op.conclude (s.noise n) n (s.outcomes n)).1 := by
        simp [Loop.step, hp, signal]
      rcases Nat.lt_or_eq_of_le hn with hlt | rfl
      · have hadv : s.advance ⟨.active (.attempting n), s.upTo n⟩ p
            = ⟨.active (.pausing n (s.wait n)), s.lead (n + 1)⟩ := by
          simp only [advance, Stage.number, hready, hstep, conclude_of_lt_last hlt, Loop.deeds,
            lead_succ]
        rw [hadv]
        refine ⟨.pausing n hlt, ?_⟩
        show 3 * (s.last - n) ≤ 3 * (s.last - n) + 1 - 1
        omega
      · have hadv : s.advance ⟨.active (.attempting s.last), s.upTo s.last⟩ p
            = ⟨.ended s.verdict, s.upTo s.last⟩ := by
          simp [advance, Stage.number, hready, hstep, conclude_last, Loop.deeds]
        rw [hadv]
        exact ⟨.ended, Nat.zero_le _⟩
  | pausing n hn =>
    cases hready : p.ready with
    | false =>
      have hadv : s.advance ⟨.active (.pausing n (s.wait n)), s.lead (n + 1)⟩ p
          = ⟨.active (.pausing n (s.wait n)), s.lead (n + 1)⟩ := by
        simp [advance, Loop.step, hp, hready, signal, Loop.deeds]
      rw [hadv]
      exact ⟨.pausing n hn, Nat.le_refl _⟩
    | true =>
      have hadv : s.advance ⟨.active (.pausing n (s.wait n)), s.lead (n + 1)⟩ p
          = ⟨.active (.ready (n + 1)), s.lead (n + 1)⟩ := by
        simp [advance, Loop.step, hp, hready, signal, Loop.deeds]
      rw [hadv]
      refine ⟨.ready (n + 1) hn, ?_⟩
      show 3 * (s.last - (n + 1)) + 2 ≤ 3 * (s.last - n) - 1
      omega
  | ended => exact ⟨.ended, Nat.zero_le _⟩

theorem OnCourse.deeds_mono {c : Course α} (h : s.OnCourse c) :
    c.deeds <+: s.upTo s.last := by
  cases h with
  | ready n hn => exact (lead_mono hn).trans (List.prefix_append _ _)
  | attempting n hn => exact upTo_mono hn
  | pausing n hn => exact (lead_mono hn).trans (List.prefix_append _ _)
  | ended => exact List.prefix_rfl

theorem OnCourse.of_ended {c : Course α} (h : s.OnCourse c) {answer : Except Failure α}
    (hend : c.loop = .ended answer) : answer = s.verdict ∧ c.deeds = s.upTo s.last := by
  cases h with
  | ended =>
    cases hend
    exact ⟨rfl, rfl⟩
  | _ => cases hend

theorem OnCourse.ended_of_left {c : Course α} (h : s.OnCourse c) (hleft : s.left c = 0) :
    c.loop = .ended s.verdict := by
  cases h with
  | ended => rfl
  | ready n hn =>
    change 3 * (s.last - n) + 2 = 0 at hleft
    omega
  | attempting n hn =>
    change 3 * (s.last - n) + 1 = 0 at hleft
    omega
  | pausing n hn =>
    change 3 * (s.last - n) = 0 at hleft
    omega

theorem onCourse_foldl (polls : List Poll) (hpolls : ∀ p ∈ polls, p.cancelled = false) :
    ∀ c : Course α, s.OnCourse c → s.OnCourse (polls.foldl s.advance c) ∧
      s.left (polls.foldl s.advance c) ≤ s.left c - polls.countP Poll.ready := by
  induction polls with
  | nil =>
    intro c hc
    exact ⟨hc, Nat.le_refl _⟩
  | cons p polls ih =>
    intro c hc
    obtain ⟨hnext, hleft⟩ := onCourse_advance hc (hpolls p List.mem_cons_self)
    obtain ⟨hlater, hrest⟩ :=
      ih (fun q hq => hpolls q (List.mem_cons_of_mem _ hq)) (s.advance c p) hnext
    refine ⟨hlater, ?_⟩
    rw [List.countP_cons]
    show s.left (polls.foldl s.advance (s.advance c p)) ≤ _
    omega

/-- A call that is never cancelled is on its course, as far as what it waited for has come. -/
theorem onCourse_play {polls : List Poll} (h : ∀ p ∈ polls, p.cancelled = false) :
    s.OnCourse (s.play polls) ∧
      s.left (s.play polls) ≤ 3 * s.last + 2 - polls.countP Poll.ready :=
  onCourse_foldl polls h {} onCourse_start

/-! ## Cancelled calls -/

theorem foldl_of_ended {c : Course α} {answer : Except Failure α} (h : c.loop = .ended answer)
    (polls : List Poll) : polls.foldl s.advance c = c := by
  induction polls with
  | nil => rfl
  | cons p polls ih =>
    have hadv : s.advance c p = c := by simp [advance, h]
    simpa [hadv] using ih

/-- A cancelled call is over with its next poll, and does nothing more. -/
theorem advance_cancelled {c : Course α} {stage : Stage} (h : c.loop = .active stage) {p : Poll}
    (hp : p.cancelled = true) : s.advance c p = ⟨.ended (.error .cancelled), c.deeds⟩ := by
  have hdeeds : (Loop.active stage : Loop α).deeds (.ended (.error .cancelled)) = [] := by
    cases stage <;> rfl
  simp [advance, h, hp, Loop.step_cancelled, hdeeds]

theorem play_split (before after : List Poll) (p : Poll) :
    s.play (before ++ p :: after) = after.foldl s.advance (s.advance (s.play before) p) := by
  simp [play]

/-- A poll that finds the token cancelled ends a call that still goes on. -/
theorem play_of_active {before : List Poll} {p : Poll} (after : List Poll) {stage : Stage}
    (hactive : (s.play before).loop = .active stage) (hp : p.cancelled = true) :
    s.play (before ++ p :: after) = ⟨.ended (.error .cancelled), (s.play before).deeds⟩ := by
  rw [play_split, advance_cancelled hactive hp]
  exact foldl_of_ended rfl after

theorem play_of_ended {before : List Poll} (after : List Poll) {answer : Except Failure α}
    (hend : (s.play before).loop = .ended answer) : s.play (before ++ after) = s.play before := by
  have happ : s.play (before ++ after) = after.foldl s.advance (s.play before) := by simp [play]
  rw [happ]
  exact foldl_of_ended hend after

/-- Whatever the polls are, the call is on its course, or was cancelled on it. -/
theorem play_cases (s : Script α) (polls : List Poll) :
    s.OnCourse (s.play polls) ∨
      ((s.play polls).loop = .ended (.error .cancelled) ∧
        (s.play polls).deeds <+: s.upTo s.last) := by
  cases hfind : polls.find? Poll.cancelled with
  | none =>
    have hall : ∀ p ∈ polls, p.cancelled = false := by
      intro p hp
      simpa using List.find?_eq_none.mp hfind p hp
    exact .inl (onCourse_play hall).1
  | some p =>
    obtain ⟨hp, before, after, rfl, hbefore⟩ := List.find?_eq_some_iff_append.mp hfind
    have hcourse : s.OnCourse (s.play before) :=
      (onCourse_play fun q hq => by simpa using hbefore q hq).1
    cases hloop : (s.play before).loop with
    | active stage =>
      rw [play_of_active after hloop hp]
      exact .inr ⟨rfl, hcourse.deeds_mono⟩
    | ended answer =>
      rw [play_of_ended (p :: after) hloop]
      exact .inl hcourse

/-! ## The law -/

/-- A call that is left alone fails only with what its last attempt came to. -/
theorem fault_of_verdict {why : Failure} (h : s.verdict = .error why) :
    ∃ f, s.fault? s.last = some f ∧ why = .after s.last f := by
  cases hf : s.fault? s.last with
  | some f =>
    rw [verdict, verdict_of_fault hf] at h
    cases h
    exact ⟨f, rfl, rfl⟩
  | none =>
    obtain ⟨a, ha⟩ := outcome_of_no_fault hf
    rw [verdict, ha] at h
    cases h

/-- A failure that the call ended with is what its last attempt came to, or the cancel. -/
theorem failure_of_play {polls : List Poll} {why : Failure}
    (h : (s.play polls).loop = .ended (.error why)) :
    why = .cancelled ∨ ∃ n f, why = .after n f := by
  rcases play_cases s polls with hcourse | ⟨hend, -⟩
  · obtain ⟨hanswer, -⟩ := hcourse.of_ended h
    obtain ⟨f, -, hwhy⟩ := fault_of_verdict hanswer.symm
    exact .inr ⟨_, f, hwhy⟩
  · rw [h] at hend
    cases hend
    exact .inl rfl

theorem prefix_of_play (s : Script α) (polls : List Poll) :
    (s.play polls).deeds <+: s.upTo s.last := by
  rcases play_cases s polls with hcourse | ⟨-, hprefix⟩
  · exact hcourse.deeds_mono
  · exact hprefix

/-- The law of a retried call, for every way in which its attempts may end and every way in which
it may be polled. -/
theorem plays_out (s : Script α) (polls : List Poll) :
    -- a first attempt within the bound that gives a value or fails for good is the last
    (∀ k ≤ s.op.policy.maxRetries, s.settles k = true → (∀ i < k, s.settles i = false) →
      s.last = k ∧
      (∀ a, s.outcomes k = .value a → s.verdict = .ok a) ∧
      (∀ f, s.fault? k = some f → s.verdict = .error (.fatal (k + 1) f))) ∧
    -- without one, all retries are used up
    ((∀ i ≤ s.op.policy.maxRetries, s.settles i = false) →
      s.last = s.op.policy.maxRetries ∧
      ∃ f, s.fault? s.last = some f ∧ s.verdict = .error (.exhausted (s.last + 1) f)) ∧
    -- what such a course is
    (s.upTo s.last).filterMap Deed.attempt? = List.range (s.last + 1) ∧
    (s.upTo s.last).filterMap Deed.pause? = ((List.range s.last).map fun i =>
      (i, s.op.policy.backoff i (s.kind i) (s.noise i))) ∧
    -- a call that is left alone goes this way, to its end
    ((∀ p ∈ polls, p.cancelled = false) →
      (∀ answer, (s.play polls).loop = .ended answer →
        answer = s.verdict ∧ (s.play polls).deeds = s.upTo s.last) ∧
      (3 * s.last + 2 ≤ polls.countP Poll.ready →
        (s.play polls).loop = .ended s.verdict)) ∧
    -- every call goes this way as far as it goes
    (s.play polls).deeds <+: s.upTo s.last ∧
    -- a cancelled call is over at once, unless it was over before
    (∀ before p after, polls = before ++ p :: after → p.cancelled = true →
      s.play polls = match (s.play before).loop with
        | .active _ => ⟨.ended (.error .cancelled), (s.play before).deeds⟩
        | .ended _ => s.play before) ∧
    -- no fault is called what it is not
    (∀ n f, (s.play polls).loop = .ended (.error (.exhausted n f)) → f.isRetriable = true) ∧
    (∀ n f, (s.play polls).loop = .ended (.error (.fatal n f)) → f.isRetriable = false) := by
  refine ⟨?_, ?_, attempts_upTo _, pauses_upTo _, ?_, prefix_of_play s polls, ?_, ?_, ?_⟩
  · intro k hk hsettles hbefore
    have hlast : s.last = k := last_eq hk (.inl hsettles) hbefore
    refine ⟨hlast, ?_, ?_⟩
    · intro a ha
      rw [verdict, hlast, ha]
      rfl
    · intro f hf
      have hr : f.isRetriable = false := by simpa [settles, hf] using hsettles
      rw [verdict, hlast, verdict_of_fault hf]
      simp [Failure.after, hr]
  · intro hall
    have hlast : s.last = s.op.policy.maxRetries :=
      last_eq (Nat.le_refl _) (.inr rfl) fun i hi => hall i (Nat.le_of_lt hi)
    obtain ⟨f, hf, hr⟩ := fault_of_unsettled (hall s.last last_le)
    refine ⟨hlast, f, hf, ?_⟩
    rw [verdict, verdict_of_fault hf]
    simp [Failure.after, hr]
  · intro hpolls
    obtain ⟨hcourse, hleft⟩ := onCourse_play hpolls
    refine ⟨fun answer => hcourse.of_ended, ?_⟩
    intro hready
    apply hcourse.ended_of_left
    omega
  · rintro before p after rfl hp
    cases hloop : (s.play before).loop with
    | active stage => exact play_of_active after hloop hp
    | ended answer => exact play_of_ended (p :: after) hloop
  · intro n f hend
    rcases failure_of_play hend with hwhy | ⟨m, g, hwhy⟩
    · cases hwhy
    · exact Failure.retriable_of_exhausted hwhy
  · intro n f hend
    rcases failure_of_play hend with hwhy | ⟨m, g, hwhy⟩
    · cases hwhy
    · exact Failure.not_retriable_of_fatal hwhy

example :
    let s : Script Nat :=
      { op := { name := "请求" }
        outcomes := fun n => if n < 2 then .late else .value n
        noise := fun _ => 0 }
    (s.play (List.replicate 8 {})).deeds =
      [.attempt 0, .pause 0 (.ofSeconds 1), .attempt 1, .pause 1 (.ofSeconds 2), .attempt 2] := by
  decide

end Script

end ResumableUpload.Retry
