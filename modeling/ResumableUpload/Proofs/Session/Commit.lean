import Mathlib.Control.Monad.Basic
import ResumableUpload.Proofs.Session.Reached

/-!
# What a commit is worth

A run that commits a file has sent every part that was wanted and no other, each under the
identifier of the upload and with its place in the file, and the server has answered each of them
before the one request that joins the parts (`commit_sound`).
-/

namespace ResumableUpload.Session

deriving instance DecidableEq for Engine.Ending

namespace Run.Setup

variable {s : Setup} {d : Digest.FileDigests} {o : Origin} {evs joining : List Event}

/-- What a run that has sent all parts has done. -/
structure Prepared (s : Setup) (d : Digest.FileDigests) (o : Origin) (evs : List Event) : Prop where
  origin : o.ComesFrom s d evs
  digested : ∃ files, s.Digests files d ∧ .digested files d ∈ evs
  answered : ∀ c, s.Wants o c → s.Answered o evs c
  unjoined : Unjoined evs

theorem Finished.prepared (h : s.Finished d o evs) : s.Prepared d o evs := by
  have hdigested := h.proper.digests
  have hunjoined := h.unjoined
  obtain ⟨hlocated, hcomplete⟩ := h
  have hn : (o.job s d).plan.Numbered := o.numbered_plan s.numbered_plan
  refine ⟨?_, hdigested, fun c hc => ?_, hunjoined⟩
  · rw [List.append_assoc]
    exact hlocated.comesFrom.append _
  · have hpending := mem_pending_job (d := d).mpr hc
    obtain ⟨i, url, payload, r, hmem⟩ := answered_of_acknowledged hn hcomplete.works
      (Plan.mem_chunks_of_mem_pending hpending) (hcomplete.acknowledged c hpending)
    exact ⟨i, url, payload, r, List.mem_append_left _ (List.mem_append_right _ hmem)⟩

theorem Prepared.append {more : List Event} (h : s.Prepared d o evs) (hmore : Unjoined more) :
    s.Prepared d o (evs ++ more) where
  origin := h.origin.append _
  digested := by
    obtain ⟨files, hd, hmem⟩ := h.digested
    exact ⟨files, hd, List.mem_append_left _ hmem⟩
  answered c hc := by
    obtain ⟨i, url, payload, r, hmem⟩ := h.answered c hc
    exact ⟨i, url, payload, r, List.mem_append_left _ hmem⟩
  unjoined := h.unjoined.append hmore

/-- The events of a run that joins the parts: all that it takes, the request, and its answer. -/
theorem Joining.prepared (h : s.Joining d o evs) :
    ∃ before, evs = before ++ [.called none (s.create d o)] ∧ s.Prepared d o before := by
  obtain ⟨hfinished⟩ := h
  rename_i finished
  refine ⟨finished ++ [.checked false], ?_, ?_⟩
  · rw [List.append_assoc]
    rfl
  · exact hfinished.prepared.append (unjoined_singleton rfl)

/-- A run that commits, and not by a rapid announcement, has joined its parts. -/
theorem Outcome.joins {c : Commit} (h : s.Outcome (.ok c) evs) (hrapid : c.rapid = false) :
    ∃ d o before after, evs = before ++ .called none (s.create d o) :: after ∧
      s.Prepared d o before ∧ (∀ x ∈ after, s.Settles d o x) ∧ s.Proper d o evs := by
  cases h with
  | rapid _ _ hc =>
    rw [hrapid] at hc
    cases hc
  | @joined d o joining r _ hjoining _ =>
    have hafter : ∀ x ∈ [.answered none (s.create d o) (.create r), .dropped (s.key d)],
        s.Settles d o x := by
      intro x hx
      rw [List.mem_cons, List.mem_singleton] at hx
      rcases hx with rfl | rfl
      · exact .answered _
      · exact .dropped
    obtain ⟨before, hbefore, hprepared⟩ := hjoining.prepared
    refine ⟨d, o, before, _, ?_, hprepared, hafter, ?_⟩
    · rw [hbefore, List.append_assoc]
      rfl
    · exact hjoining.proper.append fun x hx => .settles (hafter x hx)

end Run.Setup

/-- A run that has ended has gone its course. -/
theorem History.outcome (w : World) (as : List Action) {k : Nat}
    {result : Except UploadFault Commit}
    (hend : ((start w).after as).engine.ending? k = some (.result result)) :
    ∃ s off, ((start w).after as).setup? k = some s ∧
      Trace s off (.ended result) (((start w).after as).of k) ∧
      s.Course off (.ended result) (((start w).after as).of k) := by
  generalize hh : (start w).after as = h at *
  unfold Engine.ending? at hend
  split at hend
  · next handle r hrun =>
    injection hend with hend
    injection hend with hend
    subst hend
    have hin : h.InStep := hh ▸ inStep w as
    rcases hin.follows k _ hrun with ⟨hstage, -⟩ | ⟨s, off, hs, htrace, -⟩
    · cases hstage
    · refine ⟨s, off, ?_, htrace, htrace.course⟩
      simp only [setup?, hrun]
      exact hs
  · cases hend
  · cases hend

namespace History

/-- What a commit is worth. When a run ends with a commit that was no rapid one, its upload has an
identifier, which a resume record or the answer to its announcement gave; its events are some, the
request that joins the parts, and some more, with no other such request; before the request every
part that was wanted was sent under the identifier and answered; no part was sent that was not
wanted; and the request names the identifier, the file and the digests of all its parts in order. -/
theorem commit_sound (w : World) (as : List Action) (k : Nat) (c : Commit)
    (hend : ((start w).after as).engine.ending? k = some (.result (.ok c)))
    (hrapid : c.rapid = false) :
    ∃ s d o files node before after,
      ((start w).after as).setup? k = some s ∧
      .digested files d ∈ before ∧ files.find s.target.localPath = .ok node ∧
      o.ComesFrom s d before ∧
      ((start w).after as).of k = before ++ .called none (.create s.target.accessToken {
        path := s.target.remotePath
        size := s.target.totalSize
        uploadId := o.uploadId
        chunkCount := s.plan.count
        blockList := s.plan.chunks.map fun c => Digest.md5 (c.bytes node.content) }) :: after ∧
      (∀ x ∈ before ++ after, x.isCreate = false) ∧
      (∀ c, s.Wants o c → ∃ i url payload r,
        let call := Call.slice url s.target.accessToken (s.sliceRequest o c payload)
        .called (some i) call ∈ before ∧ .answered (some i) call (.slice r) ∈ before) ∧
      ∀ who url token q, .called who (.slice url token q) ∈ ((start w).after as).of k →
        ∃ c payload, s.Wants o c ∧ q = s.sliceRequest o c payload := by
  obtain ⟨s, off, hs, htrace, hcourse⟩ := outcome w as hend
  generalize ((start w).after as).of k = evs at *
  have houtcome : s.Outcome (.ok c) evs := by
    rcases hcourse with houtcome | ⟨_, _, -, -, hresult⟩
    · exact houtcome
    · cases hresult
  obtain ⟨d, o, before, after, rfl, hbefore, hafter, hproper⟩ := houtcome.joins hrapid
  obtain ⟨files, hd, hdigested⟩ := hbefore.digested
  obtain ⟨node, hnode, hblocks⟩ := Digest.blockList_ofFile hd
  -- a part can have been sent only before the request
  have hsent : ∀ who url token q, .called who (.slice url token q)
        ∈ before ++ .called none (s.create d o) :: after →
      .called who (.slice url token q) ∈ before := by
    intro who url token q hq
    rw [List.mem_append, List.mem_cons] at hq
    rcases hq with hq | hq | hq
    · exact hq
    · cases hq
    · exact absurd rfl ((hafter _ hq).ne_called _ _)
  refine ⟨s, d, o, files, node, before, after, hs, hdigested, hnode, hbefore.origin, ?_, ?_, ?_, ?_⟩
  · rw [Run.Setup.create_eq, hblocks]
  · intro x hx
    rcases List.mem_append.mp hx with hx | hx
    · exact hbefore.unjoined x hx
    · cases x with
      | called who c => exact absurd rfl ((hafter _ hx).ne_called who c)
      | _ => rfl
  · intro c hc
    obtain ⟨i, url, payload, reply, hans⟩ := hbefore.answered c hc
    have hcalled := (htrace.called i _).2 _ (List.mem_append_left _ hans)
    exact ⟨i, url, payload, reply, hsent _ _ _ _ hcalled, hans⟩
  · intro who url token q hq
    exact hproper.sends hq

/-- A run that commits: the sample history joins its two parts, of which the second was answered
before the first. -/
theorem commit_sound_committed :
    ((start Sample.Pair.world).after Sample.Pair.committed).engine.ending? 0
        = some (.result (.ok ⟨7, "/f", 2, "", false⟩)) ∧
      ∃ before request after, ((start Sample.Pair.world).after Sample.Pair.committed).of 0
          = before ++ .called none (.create "token" request) :: after ∧
        ∀ x ∈ before ++ after, x.isCreate = false := by
  have hend : ((start Sample.Pair.world).after Sample.Pair.committed).engine.ending? 0
      = some (.result (.ok ⟨7, "/f", 2, "", false⟩)) := by decide +kernel
  obtain ⟨s, d, o, files, node, before, after, hs, -, -, -, hevs, honce, -⟩ :=
    commit_sound Sample.Pair.world Sample.Pair.committed 0 _ hend rfl
  have htoken : (((start Sample.Pair.world).after Sample.Pair.committed).setup? 0).map
      (fun s => s.target.accessToken) = some "token" := by decide +kernel
  rw [hs] at htoken
  have htoken' : s.target.accessToken = "token" := Option.some.inj htoken
  rw [htoken'] at hevs
  exact ⟨hend, before, _, after, hevs, honce⟩

end History

end ResumableUpload.Session
