import ResumableUpload.CommandLine.Upload
import ResumableUpload.Proofs.Settings.Restored

/-!
# What is asked for fits

The size of a part can be asked for in the settings and among the arguments. Both readers take
numbers that fit a word of 64 bits only, so the size that the program goes by is one
(`partSize_adjust_lt`).
-/

namespace ResumableUpload

/-- What holds of the default and of all that is read holds of a field. -/
theorem Fields.forall_of_defaulted {V α : Type} {r : Fields V} {name : String}
    {read? : V → Option α} {d a : α} (h : r.defaulted name read? d = some a) {P : α → Prop}
    (hd : P d) (hread : ∀ v, read? v = some a → P a) : P a := by
  unfold defaulted at h
  split at h
  · exact hread _ h
  · exact Option.some.inj h ▸ hd

namespace Settings

/-! ## Settings -/

variable {s : Settings}

theorem partSize_lt_of_ofFields? {r : Fields Toml} (h : ofFields? Toml.scalars r = some s) :
    s.customUploadPartSize < 2 ^ 64 := by
  -- the size is the fifth field of fourteen
  iterate 4 obtain ⟨_, -, h⟩ := Option.bind_eq_some_iff.mp h
  obtain ⟨n, hn, h⟩ := Option.bind_eq_some_iff.mp h
  iterate 9 obtain ⟨_, -, h⟩ := Option.bind_eq_some_iff.mp h
  cases h
  exact Fields.forall_of_defaulted (P := fun n => n < 2 ^ 64) hn (by decide) fun v hv =>
    Toml.natOfBits?_lt hv

theorem partSize_lt_of_ofTomlText? {text : String} (h : ofTomlText? text = some s) :
    s.customUploadPartSize < 2 ^ 64 := by
  obtain ⟨v, -, h⟩ := Option.bind_eq_some_iff.mp h
  obtain ⟨r, -, h⟩ := Option.bind_eq_some_iff.mp h
  refine Fields.forall_of_defaulted (P := fun s => s.customUploadPartSize < 2 ^ 64) h (by decide)
    fun v hv => ?_
  obtain ⟨r, -, hr⟩ := Option.bind_eq_some_iff.mp hv
  exact partSize_lt_of_ofFields? hr

theorem partSize_lt_of_load {files : Files} {path : String} (h : load files path = .ok s) :
    s.customUploadPartSize < 2 ^ 64 := by
  unfold load at h
  split at h
  · cases h
  · split at h
    · cases h
    · next htext =>
      cases h
      exact partSize_lt_of_ofTomlText? htext

theorem partSize_lt_loadOrDefault (files : Files) (path : String) :
    (loadOrDefault files path).settings.customUploadPartSize < 2 ^ 64 := by
  unfold loadOrDefault
  split
  · next hload => exact partSize_lt_of_load hload
  · split <;> exact Nat.two_pow_pos 64

end Settings

namespace CommandLine

/-! ## Arguments -/

theorem number?_lt {text : String} {n : Nat} (h : number? text = some n) : n < 2 ^ 64 := by
  simp only [number?, Option.ite_none_left_eq_some] at h
  obtain ⟨hno, heq⟩ := h
  cases Option.some.inj heq
  simp only [Bool.or_eq_true, decide_eq_true_eq, not_or, Nat.not_le] at hno
  exact hno.2

theorem eq_of_once {α : Type} {old : Option α} {new : α} {given : Option α}
    (h : once old new = some given) : given = some new := by
  cases old with
  | none => exact (Option.some.inj h).symm
  | some _ => cases h

namespace Given

variable {g g' : Given} {token : Option String} {a : Arguments}

/-- The size of a part that was given, if one was, fits a word. -/
def Fits (g : Given) : Prop := ∀ n, g.partSize = some n → n < 2 ^ 64

theorem Fits.plain {arg : String} (hg : g.Fits) (h : g.plain arg = some g') : g'.Fits := by
  unfold Given.plain at h
  split at h
  · split at h
    · cases h
    · cases h
      exact hg
  · cases h
    exact hg
  · cases h

theorem Fits.plains {args : List String} (hg : g.Fits) (h : g.plains args = some g') :
    g'.Fits := by
  induction args generalizing g with
  | nil => exact Option.some.inj h ▸ hg
  | cons arg rest ih =>
    rw [Given.plains, List.foldlM_cons] at h
    obtain ⟨next, hnext, h⟩ := Option.bind_eq_some_iff.mp h
    exact ih (hg.plain hnext) h

theorem Fits.valued {o : OptionName} {text : String} (hg : g.Fits)
    (h : g.valued o text = some g') : g'.Fits := by
  cases o with
  | partSize =>
    obtain ⟨n, hn, h⟩ := Option.bind_eq_some_iff.mp h
    obtain ⟨given, hgiven, h⟩ := Option.bind_eq_some_iff.mp h
    cases h
    intro m hm
    cases (eq_of_once hgiven).symm.trans hm
    exact number?_lt hn
  | threads =>
    obtain ⟨_, -, h⟩ := Option.bind_eq_some_iff.mp h
    obtain ⟨_, -, h⟩ := Option.bind_eq_some_iff.mp h
    cases h
    exact hg
  | accessToken =>
    obtain ⟨_, -, h⟩ := Option.bind_eq_some_iff.mp h
    cases h
    exact hg
  | config =>
    obtain ⟨_, -, h⟩ := Option.bind_eq_some_iff.mp h
    cases h
    exact hg
  | _ => cases h

theorem Fits.finish (hg : g.Fits) (h : g.finish token = .upload a) :
    ∀ n, a.partSize = some n → n < 2 ^ 64 := by
  unfold Given.finish at h
  split at h
  · cases h
    exact hg
  · cases h

theorem of_andThen {given : Option Given} {next : Given → Wish}
    (h : andThen given next = .upload a) : ∃ g, given = some g ∧ next g = .upload a := by
  cases given with
  | none => cases h
  | some g => exact ⟨g, rfl, h⟩

/-- Whichever arguments come next, the size of a part that they ask for fits. -/
theorem Fits.take {args : List String} (hg : g.Fits) (h : take token g args = .upload a) :
    ∀ n, a.partSize = some n → n < 2 ^ 64 := by
  fun_induction CommandLine.take token g args with
  | case1 => exact hg.finish h
  | case2 g arg rest =>
    -- everything after the mark is plain
    obtain ⟨g', hg', h⟩ := of_andThen h
    exact (hg.plains hg').finish h
  | case3 g arg rest _ ih =>
    obtain ⟨g', hg', h⟩ := of_andThen h
    exact ih g' (hg.plain hg') h
  | case8 g arg rest _ _ _ ih => exact ih hg h
  | case9 g arg rest o text _ _ _ _ ih =>
    obtain ⟨g', hg', h⟩ := of_andThen h
    exact ih g' (hg.valued hg') h
  | case12 g arg o text rest _ _ _ _ _ ih =>
    obtain ⟨g', hg', h⟩ := of_andThen h
    exact ih g' (hg.valued hg') h
  | _ => cases h

end Given

/-- The size of a part that the program goes by fits a word, whether it comes from the arguments or
from the settings. -/
theorem partSize_adjust_lt {args : List String} {token : Option String} {a : Arguments}
    (h : Wish.ofArguments args token = .upload a) (files : Files) (path : String) :
    (adjust a (Settings.loadOrDefault files path).settings).customUploadPartSize < 2 ^ 64 := by
  have hsettings := Settings.partSize_lt_loadOrDefault files path
  have hnothing : ({} : Given).Fits := nofun
  have hgiven := hnothing.take h
  show a.partSize.getD _ < 2 ^ 64
  cases hsize : a.partSize with
  | none => exact hsettings
  | some n => exact hgiven n hsize

end CommandLine

end ResumableUpload
