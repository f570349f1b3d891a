import ResumableUpload.Proofs.Session.Hosts
import ResumableUpload.Proofs.Session.Transfer

/-!
# Which failures count against a host

An attempt to send a part that fails by the connection counts against its host exactly when the
fault was the answer to the attempt (`journey_blamed`), and no attempt counts twice
(`journey_counted`). An attempt that is cut off at its limit fails by the connection as well, as far
as retries go, but the resolver never hears of it.
-/

namespace ResumableUpload

/-- The host that a move counts a failure against. -/
def Resolver.Move.blamed? : Resolver.Move → Option Endpoint
  | .fail e => some e
  | _ => none

namespace Session

/-! ## Attempts -/

/-- An attempt that had a host, and how it ended for the retried call. -/
structure Tried where
  number : Nat
  host : Endpoint
  outcome : Retry.Outcome String

namespace Tried

/-- The retried call counts the attempt as failed by the connection. -/
def isStrike (op : Retry.Operation) (x : Tried) : Bool :=
  (x.outcome.fault? op).any fun f => f.kind.isConnectionClass

/-- The attempt was cut off at its limit. -/
def isLate (x : Tried) : Bool :=
  match x.outcome with
  | .late => true
  | _ => false

end Tried

/-- A moment at which the upload of a part takes a step. -/
structure Beat where
  world : World
  cancelled : Bool
  signal : Signal

namespace Transfer

/-- The attempt that ends with a signal, if it had a host. -/
def tried? : Transfer → Signal → Option Tried
  | attempting _ n (.sending e), .reply (.slice r) _ => some ⟨n, e, .value r.md5⟩
  | attempting _ n (.sending e), .reply (.fault f) _ => some ⟨n, e, .fault f⟩
  | attempting _ n (.sending e), .limit => some ⟨n, e, .late⟩
  | _, _ => none

/-- What the upload of a part leaves behind: the attempts that had a host, and the hosts that
failures were counted against, in order. -/
structure Trail where
  tried : List Tried := []
  blamed : List Endpoint := []

/-- The upload of a part goes on as the signals say, with any worlds around it. -/
def journey (job : Job) (c : Chunk) : Transfer → List Beat → Trail
  | _, [] => {}
  | t, b :: bs =>
    let rest : Trail :=
      match (t.step job c b.cancelled b.world b.signal).result with
      | .more t' => journey job c t' bs
      | _ => {}
    { tried := (t.tried? b.signal).toList ++ rest.tried
      blamed := (t.contacts job b.signal).filterMap Resolver.Move.blamed? ++ rest.blamed }

variable {job : Job} {c : Chunk} {t t' : Transfer} {sig : Signal} {w : World} {cancelled : Bool}

/-- The retried call takes the outcome of the attempt up. -/
theorem result_of_tried (job : Job) (c : Chunk) (w : World) (cancelled : Bool) {x : Tried}
    (h : t.tried? sig = some x) :
    ∃ payload, t = attempting payload x.number (.sending x.host) ∧
      (t.step job c cancelled w sig).result
        = (conclude job c payload x.number w x.outcome).result := by
  unfold tried? at h
  split at h
  · next payload n e r cancels =>
    rw [← Option.some.inj h]
    exact ⟨payload, rfl, rfl⟩
  · next payload n e f cancels =>
    rw [← Option.some.inj h]
    exact ⟨payload, rfl, rfl⟩
  · next payload n e =>
    rw [← Option.some.inj h]
    exact ⟨payload, rfl, rfl⟩
  · cases h

/-- A step blames the host of an attempt that ends with a fault of the connection as its answer. -/
theorem blamed_contacts (job : Job) (c : Chunk) (t : Transfer) (sig : Signal) :
    (t.contacts job sig).filterMap Resolver.Move.blamed?
      = ((t.tried? sig).toList.filter
          fun x => x.isStrike (operation job c) && !x.isLate).map Tried.host := by
  unfold contacts
  split
  · cases ‹Caller› <;> rfl
  · split <;> rfl
  · rfl
  · next payload n e f cancels =>
    show _ = (List.filter _ [⟨n, e, .fault f⟩]).map Tried.host
    cases hf : f.kind.isConnectionClass with
    | true =>
      rw [if_pos rfl, List.filter_singleton]
      simp only [Tried.isStrike, Retry.Outcome.fault?, Option.any_some, hf]
      rfl
    | false =>
      rw [if_neg Bool.false_ne_true, List.filter_singleton]
      simp only [Tried.isStrike, Retry.Outcome.fault?, Option.any_some, hf]
      rfl
  · next hvalue hfault =>
    unfold tried?
    split
    · exact absurd rfl (hvalue _ _ _ _ _ rfl)
    · exact absurd rfl (hfault _ _ _ _ _ rfl)
    · rfl
    · rfl

/-- Failures count against the hosts of the attempts that were answered with a fault of the
connection, once for each attempt and in their order. -/
theorem journey_blamed (job : Job) (c : Chunk) (t : Transfer) (bs : List Beat) :
    (t.journey job c bs).blamed
      = ((t.journey job c bs).tried.filter
          fun x => x.isStrike (operation job c) && !x.isLate).map Tried.host := by
  induction bs generalizing t with
  | nil => rfl
  | cons b bs ih =>
    rw [journey]
    simp only [List.filter_append, List.map_append, blamed_contacts job c]
    congr 1
    cases (t.step job c b.cancelled b.world b.signal).result with
    | more t' => exact ih t'
    | _ => rfl

/-! ### Attempts are counted -/

/-- The number of the next attempt that ends. -/
def next : Transfer → Nat
  | reading => 0
  | ready _ n => n
  | attempting _ n _ => n
  | pausing _ n _ => n + 1

/-- An attempt that ends leaves the next one to come, if anything. -/
theorem next_conclude {payload : ByteArray} {n : Nat} {o : Retry.Outcome String}
    (h : (conclude job c payload n w o).result = .more t') : t'.next = n + 1 := by
  change (ofLoop job c payload ((Retry.Loop.active (.attempting n)).step (operation job c) 0 false
    (.outcome o)).1).1 = .more t' at h
  rcases Retry.Loop.step_cases (operation job c) 0 false (.attempting n) (.outcome o) with
    ⟨hcancelled, -⟩ | ⟨-, hgoes⟩
  · cases hcancelled
  · generalize ((Retry.Loop.active (.attempting n)).step (operation job c) 0 false
      (.outcome o)).1 = loop at h hgoes
    cases hgoes with
    | pauses =>
      injection h with ht
      rw [← ht]
      rfl
    | stays _ _ hno => cases hno
    | _ => cases h

/-- A step goes on with the attempt or ends it; attempts are counted up. -/
theorem next_step (h : (t.step job c cancelled w sig).result = .more t') :
    t.next ≤ t'.next ∧ ∀ x, t.tried? sig = some x → x.number = t.next ∧ t'.next = t.next + 1 := by
  have htried : ∀ x, t.tried? sig = some x → x.number = t.next ∧ t'.next = t.next + 1 := by
    intro x hx
    obtain ⟨payload, rfl, hresult⟩ := result_of_tried job c w cancelled hx
    rw [hresult] at h
    exact ⟨rfl, next_conclude h⟩
  refine ⟨?_, htried⟩
  obtain ⟨_, hgoes⟩ := goes_of_result h
  cases hgoes with
  | reads => exact Nat.zero_le _
  | pauses payload n a wait _ _ => exact Nat.le_succ n
  | _ => exact Nat.le_refl _

/-- No attempt ends twice, and none before one that came before it. -/
theorem journey_counted (job : Job) (c : Chunk) (t : Transfer) (bs : List Beat) :
    ((t.journey job c bs).tried.map Tried.number).Pairwise (· < ·) ∧
      ∀ x ∈ (t.journey job c bs).tried, t.next ≤ x.number := by
  induction bs generalizing t with
  | nil => exact ⟨.nil, fun _ hx => absurd hx List.not_mem_nil⟩
  | cons b bs ih =>
    rw [journey]
    -- what is left behind after the first step
    generalize hrest : (match (t.step job c b.cancelled b.world b.signal).result with
      | .more t' => journey job c t' bs
      | _ => {} : Trail) = rest
    have hlater : (rest.tried.map Tried.number).Pairwise (· < ·) ∧
        ∀ x ∈ rest.tried, t.next ≤ x.number ∧
          ∀ y, t.tried? b.signal = some y → y.number < x.number := by
      cases hresult : (t.step job c b.cancelled b.world b.signal).result with
      | more t' =>
        rw [hresult] at hrest
        rw [← hrest]
        refine ⟨(ih t').1, fun x hx => ?_⟩
        have hle := (ih t').2 x hx
        obtain ⟨hnext, htried⟩ := next_step hresult
        refine ⟨Nat.le_trans hnext hle, fun y hy => ?_⟩
        obtain ⟨hy, ht'⟩ := htried y hy
        omega
      | _ =>
        rw [hresult] at hrest
        rw [← hrest]
        exact ⟨.nil, fun _ hx => absurd hx List.not_mem_nil⟩
    have hfirst : ∀ y, t.tried? b.signal = some y → t.next ≤ y.number := by
      intro y hy
      obtain ⟨payload, rfl, -⟩ := result_of_tried job c b.world b.cancelled hy
      exact Nat.le_refl _
    cases ht : t.tried? b.signal with
    | none => exact ⟨hlater.1, fun x hx => (hlater.2 x hx).1⟩
    | some y =>
      refine ⟨List.pairwise_cons.mpr ⟨fun k hk => ?_, hlater.1⟩, fun x hx => ?_⟩
      · obtain ⟨x, hx, rfl⟩ := List.mem_map.mp hk
        exact (hlater.2 x hx).2 y ht
      · rcases List.mem_cons.mp hx with rfl | hx
        · exact hfirst x ht
        · exact (hlater.2 x hx).1

end Transfer

end Session

end ResumableUpload
