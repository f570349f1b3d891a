import Mathlib.Data.List.Basic
import ResumableUpload.Proofs.Endpoint.Course
import ResumableUpload.Proofs.Session.Frame

/-!
# What sessions do to resolvers

Whatever a task does, a resolver comes out of it by moves of its own: those of the upload of a part
are listed (`Transfer.contacts`), and no step does anything else to a resolver
(`Transfer.resolvers_step`). So every resolver of sessions at work came about by moves
(`History.sprung`), and what holds of all courses of a resolver holds of it (`History.sound`).
-/

namespace ResumableUpload.Session

namespace World

/-- The resolvers after one of them has made some moves. -/
def moved (w : World) (i : Nat) (ms : List Resolver.Move) : List Resolver :=
  w.resolvers.modify i (Resolver.after · ms)

variable {w w' : World}

theorem moved_nil (w : World) (i : Nat) : w.moved i [] = w.resolvers := List.modify_id i w.resolvers

theorem moved_append {i : Nat} {ms : List Resolver.Move} (h : w'.resolvers = w.moved i ms)
    (more : List Resolver.Move) :
    w'.moved i more = w.moved i (ms ++ more) := by
  rw [moved, h, moved, moved, List.modify_modify_eq]
  congr 1
  funext r
  exact (r.after_append ms more).symm

theorem resolvers_withResolver (w : World) (i : Nat) {change : Resolver → Resolver × List LogLine}
    {ms : List Resolver.Move} (h : ∀ r : Resolver, (change r).1 = r.after ms) :
    (w.withResolver i change).1.resolvers = w.moved i ms := by
  rw [moved, List.modify_eq_set_getElem?]
  unfold withResolver
  split
  · next hi => rw [hi]; rfl
  · next r hi =>
    rw [hi]
    show w.resolvers.set i (change r).1 = w.resolvers.set i (r.after ms)
    rw [h]

theorem resolvers_ask (w : World) (i : Nat) (token : String) (c : Caller) :
    (w.ask i token c).world.resolvers = w.moved i [.ask token c] := by
  rw [moved, List.modify_eq_set_getElem?]
  unfold ask
  split
  · next hi => rw [hi]; rfl
  · next r hi => rw [hi]; rfl

/-- What the end of a lookup does to its resolver. -/
def onEnd (lookup : Nat) : LookupReply → Resolver.Move
  | .outcome o => .conclude lookup o
  | .crash _ => .poison lookup

theorem resolvers_endLookup (w : World) (i l : Nat) (r : LookupReply) :
    (w.endLookup i l r).1.resolvers = w.moved i [onEnd l r] := by
  cases r with
  | outcome o => exact resolvers_withResolver w i fun _ => rfl
  | crash text => exact resolvers_withResolver w i fun _ => rfl

end World

/-! ## The upload of a part -/

namespace Transfer

/-- What a step of the upload of a part does to the resolver. -/
def contacts (job : Job) : Transfer → Signal → List Resolver.Move
  | attempting _ _ (.resolving caller), .go => [.ask job.target.accessToken caller]
  | attempting _ _ (.resolving (.waiting l)), .lookup reply _ =>
    match reply with
    | .outcome o => [.conclude l o, .ask job.target.accessToken (.waiting l)]
    | .crash _ => [.poison l]
  | attempting _ _ (.sending _), .reply (.slice _) _ => [.succeed]
  | attempting _ _ (.sending e), .reply (.fault f) _ =>
    if f.kind.isConnectionClass then [.fail e] else []
  | _, _ => []

variable (job : Job) (c : Chunk)

theorem resolvers_replied (payload : ByteArray) (n : Nat) (e : Endpoint) (w : World) (r : Reply)
    (cancels : List Nat) :
    (replied job c payload n e w r).world.resolvers
      = w.moved job.resolver
        (contacts job (attempting payload n (.sending e)) (.reply r cancels)) := by
  cases r with
  | slice r =>
    show (w.withResolver job.resolver fun resolver => (resolver.reportSuccess, [])).1.resolvers = _
    exact w.resolvers_withResolver job.resolver fun _ => rfl
  | fault f =>
    simp only [replied, contacts]
    split
    · exact w.resolvers_withResolver job.resolver fun _ => rfl
    · exact (w.moved_nil job.resolver).symm
  | crash text => exact (w.moved_nil job.resolver).symm
  | precreate r => exact (w.moved_nil job.resolver).symm
  | create r => exact (w.moved_nil job.resolver).symm

/-- A step of the upload of a part does nothing else to resolvers. -/
theorem resolvers_step (cancelled : Bool) (w : World) (t : Transfer) (s : Signal) :
    (step job c cancelled w t s).world.resolvers = w.moved job.resolver (t.contacts job s) := by
  have hidle := (w.moved_nil job.resolver).symm
  unfold step
  split
  · split <;> exact hidle
  · exact hidle
  · rw [world_resolved]
    exact w.resolvers_ask job.resolver _ _
  · next payload n l reply cancels =>
    have hend := w.resolvers_endLookup job.resolver l reply
    cases reply with
    | outcome o =>
      show (resolved job c payload n _).world.resolvers = _
      rw [world_resolved, World.resolvers_ask, World.moved_append hend]
      rfl
    | crash text => exact hend
  · exact resolvers_replied job c _ _ _ w _ _
  · cases ‹Attempt› <;> exact hidle
  · exact hidle
  · next hasks hends hreplies _ _ =>
    have hnone : t.contacts job s = [] := by
      unfold contacts
      split
      · exact absurd rfl (hasks _ _ _ rfl)
      · exact absurd rfl (hends _ _ _ _ _ rfl)
      · exact absurd rfl (hreplies _ _ _ _ _ rfl)
      · exact absurd rfl (hreplies _ _ _ _ _ rfl)
      · rfl
    rw [hnone]
    exact hidle

end Transfer

/-! ## A run -/

namespace World

/-- Resolver `i` has made some moves, and the others are as they were. -/
def TouchedAt (w w' : World) (i : Nat) : Prop := ∃ ms, w'.resolvers = w.moved i ms

/-- A resolver has made some moves, and the others are as they were. -/
def Touched (w w' : World) : Prop := ∃ i, w.TouchedAt w' i

variable {w w' w'' : World}

theorem touchedAt_of_eq (h : w'.resolvers = w.resolvers) (i : Nat) : w.TouchedAt w' i :=
  ⟨[], by rw [h, moved_nil]⟩

theorem touched_of_eq (h : w'.resolvers = w.resolvers) : w.Touched w' := ⟨0, touchedAt_of_eq h 0⟩

theorem touchedAt_ask (w : World) (i : Nat) (token : String) (c : Caller) :
    w.TouchedAt (w.ask i token c).world i := ⟨_, w.resolvers_ask i token c⟩

theorem TouchedAt.getElem?_ne {i j : Nat} (h : w.TouchedAt w' i) (hij : i ≠ j) :
    w'.resolvers[j]? = w.resolvers[j]? := by
  obtain ⟨ms, heq⟩ := h
  rw [heq, moved, List.getElem?_modify]
  cases w.resolvers[j]? with
  | none => rfl
  | some r => exact congrArg some (if_neg hij)

theorem resolvers_withHandle (w : World) (i : Nat) (change : Handle → Handle × List LogLine) :
    (w.withHandle i change).1.resolvers = w.resolvers := by
  unfold withHandle
  split <;> rfl

theorem resolvers_cancelAll (w : World) (is : List Nat) :
    (w.cancelAll is).1.resolvers = w.resolvers := by
  induction is generalizing w with
  | nil => rfl
  | cons i rest ih => exact (ih (w.cancel i).1).trans (w.resolvers_withHandle i Handle.cancel)

end World

namespace Run.Setup

variable (s : Setup)

theorem world_located (job : Job) (r : World.Resolved) : (s.located job r).world = r.world := by
  unfold located
  split <;> rfl

theorem touchedAt_locating (w : World) (cancelled : Bool) (job : Job) (c : Caller) (sig : Signal) :
    w.TouchedAt (s.main w cancelled (.locating job c) sig).world s.resolver := by
  have hask : ∀ c', w.TouchedAt
      (s.located job (w.ask s.resolver s.target.accessToken c')).world s.resolver := by
    intro c'
    rw [world_located]
    exact w.touchedAt_ask s.resolver _ c'
  have hidle : w.TouchedAt w s.resolver := World.touchedAt_of_eq rfl s.resolver
  cases c with
  | waiting l =>
    cases sig with
    | go =>
      simp only [main]
      split
      · exact hidle
      · exact hask _
    | lookup reply cancels =>
      have hend := w.resolvers_endLookup s.resolver l reply
      cases reply with
      | outcome o =>
        refine ⟨[.conclude l o, .ask s.target.accessToken (.waiting l)], ?_⟩
        show (s.located job ((w.endLookup s.resolver l (.outcome o)).1.ask s.resolver
          s.target.accessToken (.waiting l))).world.resolvers = _
        rw [world_located, World.resolvers_ask, World.moved_append hend]
        rfl
      | crash text => exact ⟨_, hend⟩
    | _ => exact hidle
  | entering => cases sig with
    | go => exact hask _
    | _ => exact hidle
  | missed => cases sig with
    | go => exact hask _
    | _ => exact hidle

variable {s}

/-- The task of a run does nothing to resolvers but where it looks for a host. -/
theorem Steps.resolvers {w w' : World} {stage next : Stage} {sig : Signal}
    (h : s.Steps w stage sig w' next) (hno : ∀ job c, stage ≠ .locating job c) :
    w'.resolvers = w.resolvers := by
  cases h with
  | opens => exact w.resolvers_withHandle s.handle _
  | joins => exact w.resolvers_withHandle s.handle _
  | ends => exact w.resolvers_withHandle s.handle _
  | looks => exact absurd rfl (hno _ _)
  | finds => exact absurd rfl (hno _ _)
  | _ => rfl

/-- The task of a run does nothing to resolvers but to its own. -/
theorem touchedAt_main (s : Setup) (w : World) (cancelled : Bool) (stage : Stage) (sig : Signal) :
    w.TouchedAt (s.main w cancelled stage sig).world s.resolver := by
  cases stage with
  | locating job c => exact s.touchedAt_locating w cancelled job c sig
  | _ =>
    apply World.touchedAt_of_eq
    exact (s.steps_main w cancelled _ sig).resolvers nofun

/-- A worker does nothing to resolvers but to that of its job. -/
theorem touchedAt_worker (s : Setup) (w : World) (cancelled : Bool) (i : Nat) {stage : Stage}
    (sig : Signal) {resolver : Nat}
    (hjob : ∀ job pool, stage = .sending job pool → job.resolver = resolver) :
    w.TouchedAt (s.worker w cancelled i stage sig).world resolver := by
  have hidle : w.TouchedAt w resolver := World.touchedAt_of_eq rfl resolver
  unfold worker
  split
  · next job pool =>
    rw [← hjob job pool rfl] at hidle ⊢
    split
    · next c t _ =>
      split
      · exact hidle
      · have hstep := Transfer.resolvers_step job c (w.isCancelled s.handle) w t sig
        have htouched :
            w.TouchedAt (t.step job c (w.isCancelled s.handle) w sig).world job.resolver :=
          ⟨_, hstep⟩
        dsimp only
        split <;> exact htouched
    · split <;> exact hidle
  · exact hidle

theorem touched_worker (s : Setup) (w : World) (cancelled : Bool) (i : Nat) (stage : Stage)
    (sig : Signal) : w.Touched (s.worker w cancelled i stage sig).world := by
  cases stage with
  | sending job pool =>
    refine ⟨job.resolver, s.touchedAt_worker w cancelled i sig fun _ _ heq => ?_⟩
    injection heq with hjob
    rw [hjob]
  | _ => exact World.touched_of_eq rfl

end Run.Setup

/-! ## Histories -/

/-- A resolver that came about by moves. -/
def Sprung (r : Resolver) : Prop := ∃ settings ms, r = (Resolver.start settings).after ms

theorem Sprung.after {r : Resolver} (h : Sprung r) (ms : List Resolver.Move) :
    Sprung (r.after ms) := by
  obtain ⟨settings, before, rfl⟩ := h
  exact ⟨settings, before ++ ms, (Resolver.after_append _ before ms).symm⟩

theorem Sprung.sound {r : Resolver} (h : Sprung r) : r.Sound := by
  obtain ⟨settings, ms, rfl⟩ := h
  exact (Resolver.sound_start settings).after ms

/-- All resolvers of a world came about by moves. -/
def World.Sprung (w : World) : Prop := ∀ r ∈ w.resolvers, Session.Sprung r

theorem World.Sprung.touched {w w' : World} (h : w.Sprung) (ht : w.Touched w') : w'.Sprung := by
  obtain ⟨i, ms, heq⟩ := ht
  intro r hr
  rw [heq] at hr
  obtain ⟨j, hj⟩ := List.mem_iff_getElem?.mp hr
  rw [World.moved, List.getElem?_modify] at hj
  obtain ⟨old, hold, rfl⟩ := Option.map_eq_some_iff.mp hj
  have hsprung := h old (List.mem_of_getElem? hold)
  split
  · exact hsprung.after ms
  · exact hsprung

theorem World.Sprung.addUploader {e : Engine} (h : e.world.Sprung) (settings : Settings) :
    (e.addUploader settings).1.world.Sprung := by
  intro r hr
  rcases List.mem_append.mp hr with hr | hr
  · exact h r hr
  · exact ⟨settings.endpointSettings, [], List.mem_singleton.mp hr⟩

theorem touched_reload (w : World) (path : String) : w.Touched (w.reload path) := by
  apply World.touched_of_eq
  unfold World.reload
  split
  · rfl
  · split <;> rfl

theorem touched_signal (e : Engine) (t : Task) (s : Signal) :
    e.world.Touched (e.signal t s).1.world := by
  unfold Engine.signal
  split
  · exact World.touched_of_eq rfl
  · next r _ =>
    split
    · exact World.touched_of_eq rfl
    · next setup _ =>
      have hcancels := e.world.resolvers_cancelAll
        (Engine.effective (e.world.isCancelled r.handle) r.stage s).cancels
      have hturn : ∀ {w w' : World}, w.resolvers = e.world.resolvers → w.Touched w' →
          e.world.Touched w' := by
        rintro w w' hw ⟨i, ms, heq⟩
        exact ⟨i, ms, by rw [heq, World.moved, hw, World.moved]⟩
      cases t.worker with
      | none => exact hturn hcancels ⟨_, setup.touchedAt_main _ _ r.stage _⟩
      | some i => exact hturn hcancels (setup.touched_worker _ _ i r.stage _)

theorem World.Sprung.act {e : Engine} (h : e.world.Sprung) (a : Action) :
    (e.act a).world.Sprung := by
  cases a with
  | signal t s => exact h.touched (touched_signal e t s)
  | addUploader settings => exact h.addUploader settings
  | addSharingUploader settings other =>
    simp only [Engine.act, Engine.addSharingUploader]
    split
    · exact h.addUploader settings
    · exact h
  | cancel handle =>
    exact h.touched (World.touched_of_eq (e.world.resolvers_withHandle handle Handle.cancel))
  | invalidate resolver =>
    exact h.touched ⟨resolver, [.invalidate], e.world.resolvers_withResolver resolver fun _ => rfl⟩
  | age resolver nanos =>
    exact h.touched ⟨resolver, [.age nanos], e.world.resolvers_withResolver resolver fun _ => rfl⟩
  | reload path => exact h.touched (touched_reload e.world path)
  | _ => exact h

/-- The resolvers of sessions at work came about by moves. -/
theorem History.sprung {w : World} (h : w.Sprung) (as : List Action) :
    ((History.start w).after as).engine.world.Sprung :=
  induct (P := fun h => h.engine.world.Sprung) h (fun _ a ih => World.Sprung.act ih a) as

/-- What holds of all courses of a resolver holds of the resolvers of sessions at work. -/
theorem History.sound {w : World} (h : w.Sprung) (as : List Action) {r : Resolver}
    (hr : r ∈ ((History.start w).after as).engine.world.resolvers) : r.Sound :=
  (History.sprung h as r hr).sound

end ResumableUpload.Session
