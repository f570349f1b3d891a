import ResumableUpload.Pool

/-!
# The course of a pool

What happens at a pool happens move by move (`Pool.Move`): a worker takes a step, the upload of a
part goes on or comes to an end, a worker that stopped abnormally is noticed. In what order, and
how uploads end, is left open; a course of the pool is any list of moves (`Pool.after`).

What a move does to the parts is said once: `Pool.Change` lists it, and every move does one of the
things listed (`change_move`).
-/

namespace ResumableUpload

/-- The part that a worker has taken. -/
def Worker.chunk? : Worker σ → Option Chunk
  | .holding c | .uploading c _ | .failing c _ | .reporting c _ => some c
  | _ => none

namespace Pool

variable {σ : Type} {begins : Chunk → σ} {p p' : Pool σ}

/-! ## Moves -/

/-- Something that happens at a pool between two moments at which anything else may come in
between. -/
inductive Move (σ : Type)
  -- worker `i`, if it does not upload, takes a step; the token may have been cancelled
  | step (i : Nat) (cancelled : Bool)
  -- the upload of worker `i` goes on
  | work (i : Nat) (progress : σ)
  -- the upload of worker `i` ends
  | finish (i : Nat) (result : Except UploadFault String)
  -- worker `i` gives its upload up
  | interrupt (i : Nat)
  -- the upload of worker `i` stops abnormally, be it when it is asked for
  | crash (i : Nat) (text : String)
  -- a worker that stopped abnormally is noticed
  | collect

/-- The part that worker `i` uploads. -/
def uploading? (p : Pool σ) (i : Nat) : Option Chunk :=
  match p.workers[i]? with
  | some (.uploading c _) => some c
  | _ => none

/-- The part that worker `i` has taken. -/
def taken? (p : Pool σ) (i : Nat) : Option Chunk := p.workers[i]?.bind Worker.chunk?

/-- The pool after a move. A move that does not fit changes nothing. -/
def move (begins : Chunk → σ) (p : Pool σ) : Move σ → Pool σ
  | .step i cancelled => (p.step begins cancelled i).1
  | .work i progress =>
    match p.uploading? i with
    | some c => p.setWorker i (.uploading c progress)
    | none => p
  | .finish i result =>
    match p.uploading? i with
    | some c => (p.finish i c result).1
    | none => p
  | .interrupt i =>
    match p.uploading? i with
    | some c => (p.interrupt i c).1
    | none => p
  | .crash i text =>
    match p.workers[i]? with
    | some (.holding _) | some (.uploading _ _) => p.crash i text
    | _ => p
  | .collect => p.collect.1

/-- The pool after some moves. -/
def after (begins : Chunk → σ) (p : Pool σ) (ms : List (Move σ)) : Pool σ :=
  ms.foldl (move begins) p

/-- The part that worker `i` has in the second pool, if it has none in the first. -/
def gained? (p p' : Pool σ) (i : Nat) : Option Chunk :=
  if (p.taken? i).isSome then none else p'.taken? i

/-- The part that a move hands out: a worker has it and had none before. -/
def handed? (begins : Chunk → σ) (p : Pool σ) : Move σ → Option Chunk
  | .step i cancelled => p.gained? (p.move begins (.step i cancelled)) i
  | _ => none

/-- The parts that some moves hand out, in order. -/
def handedOut (begins : Chunk → σ) : Pool σ → List (Move σ) → List Chunk
  | _, [] => []
  | p, m :: ms => (p.handed? begins m).toList ++ handedOut begins (p.move begins m) ms

theorem after_append (p : Pool σ) (ms more : List (Move σ)) :
    p.after begins (ms ++ more) = (p.after begins ms).after begins more := List.foldl_append

theorem uploading?_eq_some {i : Nat} {c : Chunk} (h : p.uploading? i = some c) :
    ∃ work, p.workers[i]? = some (.uploading c work) := by
  unfold uploading? at h
  split at h
  · next c' work hi =>
    rw [← Option.some.inj h]
    exact ⟨work, hi⟩
  · cases h

/-! ## What a move does -/

/-- What a move can do to the parts: the part that it hands out, and the pool that it leads to. -/
inductive Change (p : Pool σ) : Option Chunk → Pool σ → Prop
  | nothing : Change p none p
  -- a worker goes on with what it has
  | goes {i : Nat} {old new : Worker σ} {p' : Pool σ} : p.workers[i]? = some old →
      p'.workers = p.workers.set i new → new.chunk? = old.chunk? → p'.queue = p.queue →
      p'.report = p.report → p'.fallen = p.fallen → old ≠ .crashed → new ≠ .crashed →
      Change p none p'
  | takes {i : Nat} {c : Chunk} {rest : List Chunk} : p.workers[i]? = some .cleared →
      p.queue = c :: rest →
      Change p (some c) ({ p with queue := rest }.setWorker i (.holding c))
  | completes {i : Nat} {old : Worker σ} {c : Chunk} (md5 : String) : p.workers[i]? = some old →
      old.chunk? = some c →
      Change p none ({ p with
        report := { p.report with completed := p.report.completed ++ [(c.index, md5)] }
        }.setWorker i .ready)
  | fails {i : Nat} {old : Worker σ} {c : Chunk} (f : UploadFault) : p.workers[i]? = some old →
      old.chunk? = some c →
      Change p none ({ p with
        report := { p.report with failures := p.report.failures ++ [(c.index, f)] }
        }.setWorker i .ready)
  | drops {i : Nat} {old : Worker σ} {c : Chunk} : p.workers[i]? = some old →
      old.chunk? = some c →
      Change p none ({ p with
        report := { p.report with interrupted := p.report.interrupted ++ [c.index] }
        }.setWorker i .ready)
  -- a worker stops abnormally, and its part goes with it
  | falls {i : Nat} {old : Worker σ} {c : Chunk} (text : String) : p.workers[i]? = some old →
      old.chunk? = some c →
      Change p none ({ p with fallen := p.fallen ++ [(i, text)] }.setWorker i .crashed)
  | collects {i : Nat} {text : String} {rest : List (Nat × String)} :
      p.fallen = (i, text) :: rest →
      Change p none ({ p with
        stopped := true
        report := { p.report with workerErrors := p.report.workerErrors ++ [text] }
        fallen := rest }.setWorker i .left)

/-- What a worker gains by coming to another place. -/
theorem gained?_set {i : Nat} {old : Worker σ} (new : Worker σ) (hi : p.workers[i]? = some old)
    (hp : p'.workers = p.workers.set i new) :
    p.gained? p' i = if old.chunk?.isSome then none else new.chunk? := by
  have hlt : i < p.workers.length := (List.getElem?_eq_some_iff.mp hi).1
  rw [gained?, taken?, taken?, hi, hp, List.getElem?_set_self hlt, Option.bind_some,
    Option.bind_some]

/-- A worker that comes to a place with the same part gains none. -/
theorem gained?_same {i : Nat} {old new : Worker σ} (hi : p.workers[i]? = some old)
    (hp : p'.workers = p.workers.set i new) (hchunk : new.chunk? = old.chunk?) :
    p.gained? p' i = none := by
  rw [gained?_set new hi hp, hchunk]
  cases old.chunk? <;> rfl

theorem gained?_self (p : Pool σ) (i : Nat) : p.gained? p i = none := by
  rw [gained?]
  cases p.taken? i <;> rfl

/-- A step of a worker does one of the things listed. -/
theorem change_step (begins : Chunk → σ) (p : Pool σ) (i : Nat) (cancelled : Bool) :
    p.Change (p.gained? (p.step begins cancelled i).1 i) (p.step begins cancelled i).1 := by
  have hgoes : ∀ {old new : Worker σ} {p' : Pool σ}, p.workers[i]? = some old →
      p'.workers = p.workers.set i new → new.chunk? = old.chunk? → p'.queue = p.queue →
      p'.report = p.report → p'.fallen = p.fallen → old ≠ .crashed → new ≠ .crashed →
      p.Change (p.gained? p' i) p' := by
    intro old new p' hi hworkers hchunk hqueue hreport hfallen hold hnew
    rw [gained?_same hi hworkers hchunk]
    exact .goes hi hworkers hchunk hqueue hreport hfallen hold hnew
  unfold step
  dsimp only
  split
  · next hi => split <;> exact hgoes hi rfl rfl rfl rfl rfl nofun nofun
  · next hi => split <;> exact hgoes hi rfl rfl rfl rfl rfl nofun nofun
  · next hi =>
    split
    · exact hgoes hi rfl rfl rfl rfl rfl nofun nofun
    · next c rest hqueue =>
      rw [gained?_set (.holding c) hi rfl]
      exact .takes hi hqueue
  · next c hi =>
    split
    · rw [gained?_set .ready hi rfl]
      exact .drops hi rfl
    · exact hgoes hi rfl rfl rfl rfl rfl nofun nofun
  · next c f hi => exact hgoes hi rfl rfl rfl rfl rfl nofun nofun
  · next c f hi =>
    rw [gained?_set .ready hi rfl]
    exact .fails f hi rfl
  · rw [gained?_self]
    exact .nothing

/-- The upload of a part comes to an end: the report says how, or the worker keeps the fault. -/
theorem change_finish {i : Nat} {c : Chunk} {work : σ}
    (hi : p.workers[i]? = some (.uploading c work)) (result : Except UploadFault String) :
    p.Change none (p.finish i c result).1 := by
  cases result with
  | ok md5 => exact .completes md5 hi rfl
  | error f =>
    cases f with
    | cancelled => exact .drops hi rfl
    | _ => exact .goes hi rfl rfl rfl rfl rfl nofun nofun

theorem change_collect (p : Pool σ) : p.Change none p.collect.1 := by
  unfold collect
  split
  · exact .nothing
  · next i text rest hfallen => exact .collects hfallen

/-- Every move does one of the things listed. -/
theorem change_move (begins : Chunk → σ) (p : Pool σ) (m : Move σ) :
    p.Change (p.handed? begins m) (p.move begins m) := by
  cases m with
  | step i cancelled => exact change_step begins p i cancelled
  | work i progress =>
    simp only [handed?, move]
    split
    · next c hc =>
      obtain ⟨work, hi⟩ := uploading?_eq_some hc
      exact .goes hi rfl rfl rfl rfl rfl nofun nofun
    · exact .nothing
  | finish i result =>
    simp only [handed?, move]
    split
    · next c hc =>
      obtain ⟨work, hi⟩ := uploading?_eq_some hc
      exact change_finish hi result
    · exact .nothing
  | interrupt i =>
    simp only [handed?, move]
    split
    · next c hc =>
      obtain ⟨work, hi⟩ := uploading?_eq_some hc
      exact .drops hi rfl
    · exact .nothing
  | crash i text =>
    simp only [handed?, move]
    split
    · next c hi => exact .falls (crashReport text) hi rfl
    · next c work hi => exact .falls (crashReport text) hi rfl
    · exact .nothing
  | collect => exact change_collect p

end Pool

end ResumableUpload
