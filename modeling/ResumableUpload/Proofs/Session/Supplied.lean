import ResumableUpload.Proofs.Session.Heirs

/-!
# Where the identifiers of uploads come from

Sessions make up no identifiers. Each one that a run names when it sends a part or joins the parts
was the answer to an announcement, in this run or in one that saved a record since, or was in a
record of the store before anything happened (`History.supplied`).
-/

namespace ResumableUpload.Session

/-- The identifier was in a record of the store, or the server has issued it. -/
inductive Supplied (store : Resume.Store) (journal : List Entry) (id : String) : Prop
  | stored {key : String} {r : Resume.Record} : (key, r) ∈ store.entries → r.uploadId = id →
      Supplied store journal id
  | issued {run : Nat} {token : String} {q : PrecreateRequest} {reply : PrecreateReply} :
      ⟨run, .answered none (.precreate token q) (.precreate reply)⟩ ∈ journal →
      reply.isRapid = false → reply.uploadId = id → Supplied store journal id

variable {store : Resume.Store} {journal : List Entry} {id : String}

theorem Supplied.append (h : Supplied store journal id) (more : List Entry) :
    Supplied store (journal ++ more) id := by
  cases h with
  | stored hmem hid => exact .stored hmem hid
  | issued hmem hrapid hid => exact .issued (List.mem_append_left more hmem) hrapid hid

/-- The identifier of the record was supplied. -/
def SuppliedTo (store : Resume.Store) (journal : List Entry) (_ : String) (r : Resume.Record) :
    Prop :=
  Supplied store journal r.uploadId

namespace History

variable {h : History} {k : Nat} {s : Run.Setup} {d : Digest.FileDigests} {o : Origin}

/-- What a run goes by was supplied if the records that were taken were. -/
theorem Vouched.supplied (hvouched : h.Vouched (SuppliedTo store))
    (horigin : o.ComesFrom s d (h.of k)) : Supplied store h.journal o.uploadId := by
  cases o with
  | taken r => exact hvouched.taken k _ r (mem_of.mp horigin.1)
  | issued reply => exact .issued (mem_of.mp horigin.2.1) horigin.2.2 rfl

theorem supplied_records (w : World) (as : List Action) :
    ((start w).after as).Vouched (SuppliedTo w.store) := by
  refine vouched w ?_ ?_ ?_ as
  · intro e he
    exact .stored he rfl
  · intro journal key r hsupplied more
    exact hsupplied.append more
  · intro h k d o key r s hvouched _ _ htells horigin
    show Supplied w.store h.journal r.uploadId
    rw [htells.uploadId]
    exact hvouched.supplied horigin

/-- Every identifier that a run names was in the store at the start, or was issued. -/
theorem supplied (w : World) (as : List Action) (k : Nat)
    (hnames : Names (((start w).after as).of k) id) :
    Supplied w.store ((start w).after as).journal id := by
  have hvouched := supplied_records w as
  obtain ⟨who, c, hcall, hid⟩ := hnames
  obtain ⟨run, s, off, -, -, htrace⟩ := (inStep w as).trace_of_mem hcall
  rcases htrace.course.reached with (⟨-, hnil⟩ | ⟨found, _, -, hone, -⟩) | hreached
  · rw [hnil] at hcall
    cases hcall
  · rw [hone] at hcall
    cases List.mem_singleton.mp hcall
  · obtain ⟨d, o, -, horigin, rfl⟩ := hreached.comesFrom ⟨who, c, hcall, hid⟩
    exact hvouched.supplied horigin

end History

end ResumableUpload.Session
