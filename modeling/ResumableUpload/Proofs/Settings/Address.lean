import Mathlib.Data.List.DropRight
import ResumableUpload.Proofs.Endpoint.Sanctioned

/-!
# The fallback address

Settings pass the check if their upload address begins with a scheme; used as the fallback address,
it is without the slashes at its end (`trimSlashes_spec`). The check is of the address as it was
given. If nothing but slashes follows the scheme, these are cut off too, and what is left is no
address at all (`trimSlashes_hostless`, `bare_scheme_accepted`). For all other settings that pass,
every host that a caller can get has a scheme (`fallback_keeps_scheme_iff`).
-/

namespace ResumableUpload

namespace Text

/-! ## Cutting slashes off -/

theorem dropSlashes_eq (cs : List Char) : dropSlashes cs = cs.rdropWhile (· == '/') := rfl

/-- What is cut off is slashes. -/
theorem exists_dropSlashes (cs : List Char) :
    ∃ n, cs = dropSlashes cs ++ List.replicate n '/' := by
  refine ⟨(cs.rtakeWhile (· == '/')).length, ?_⟩
  have hslashes : cs.rtakeWhile (· == '/')
      = List.replicate (cs.rtakeWhile (· == '/')).length '/' := by
    refine List.eq_replicate_of_mem fun c hc => ?_
    have hslash := List.mem_rtakeWhile_imp hc
    exact eq_of_beq hslash
  rw [← hslashes, dropSlashes_eq, List.rdropWhile_append_rtakeWhile]

theorem dropSlashes_replicate (n : Nat) : dropSlashes (List.replicate n '/') = [] := by
  rw [dropSlashes_eq, List.rdropWhile_eq_nil_iff]
  intro c hc
  rw [List.eq_of_mem_replicate hc]
  rfl

theorem dropSlashes_append (first rest : List Char) :
    dropSlashes (first ++ rest)
      = if dropSlashes rest = [] then dropSlashes first else first ++ dropSlashes rest := by
  have hempty : (rest.reverse.dropWhile (· == '/')).isEmpty = true ↔ dropSlashes rest = [] := by
    rw [List.isEmpty_iff, dropSlashes, List.reverse_eq_nil_iff]
  rw [dropSlashes, List.reverse_append, List.dropWhile_append]
  by_cases h : dropSlashes rest = []
  · rw [if_pos h, if_pos (hempty.mpr h)]
    rfl
  · rw [if_neg h, if_neg fun he => h (hempty.mp he), List.reverse_append, List.reverse_reverse]
    rfl

theorem trimSlashes_spec (s : String) :
    (∃ n, s.toList = (trimSlashes s).toList ++ List.replicate n '/') ∧
      (trimSlashes s).toList.getLast? ≠ some '/' := by
  rw [trimSlashes, String.toList_ofList]
  exact ⟨exists_dropSlashes _, getLast?_dropSlashes _⟩

theorem startsWith_iff {s beginning : String} :
    startsWith s beginning = true ↔ ∃ rest, s.toList = beginning.toList ++ rest := by
  rw [startsWith, List.isPrefixOf_iff_prefix]
  exact ⟨fun ⟨rest, h⟩ => ⟨rest, h.symm⟩, fun ⟨rest, h⟩ => ⟨rest, h.symm⟩⟩

/-! ## Schemes -/

/-- The address begins with a scheme. -/
def hasScheme (address : String) : Bool :=
  startsWith address "https://" || startsWith address "http://"

/-- The address is a scheme, followed by any number of slashes. -/
def Hostless (address : String) : Prop :=
  ∃ scheme ∈ ["https://", "http://"], ∃ n, address.toList = scheme.toList ++ List.replicate n '/'

theorem hasScheme_iff {address : String} :
    hasScheme address = true ↔
      ∃ scheme ∈ ["https://", "http://"], startsWith address scheme = true := by
  rw [hasScheme, Bool.or_eq_true]
  simp only [List.mem_cons, List.not_mem_nil, or_false, exists_eq_or_imp, exists_eq_left]

/-- Of an address without a host the slashes of the scheme are cut off. -/
theorem trimSlashes_hostless {address : String} (h : Hostless address) :
    trimSlashes address = "https:" ∨ trimSlashes address = "http:" := by
  obtain ⟨scheme, hscheme, n, haddress⟩ := h
  rw [trimSlashes, haddress, dropSlashes_append, if_pos (dropSlashes_replicate n)]
  simp only [List.mem_cons, List.not_mem_nil, or_false] at hscheme
  rcases hscheme with rfl | rfl
  · exact .inl rfl
  · exact .inr rfl

/-- An address with a scheme keeps it just if it has more than slashes after it. -/
theorem hasScheme_trimSlashes_iff {address : String} (h : hasScheme address = true) :
    hasScheme (trimSlashes address) = true ↔ ¬ Hostless address := by
  constructor
  · intro hkept hhostless
    rcases trimSlashes_hostless hhostless with heq | heq <;>
      · rw [heq] at hkept
        revert hkept
        decide
  · intro hhost
    obtain ⟨scheme, hscheme, hstarts⟩ := hasScheme_iff.mp h
    obtain ⟨rest, haddress⟩ := startsWith_iff.mp hstarts
    have hmore : dropSlashes rest ≠ [] := by
      intro hnil
      obtain ⟨n, hslashes⟩ := exists_dropSlashes rest
      rw [hnil, List.nil_append] at hslashes
      exact hhost ⟨scheme, hscheme, n, hslashes ▸ haddress⟩
    refine hasScheme_iff.mpr ⟨scheme, hscheme, startsWith_iff.mpr ⟨dropSlashes rest, ?_⟩⟩
    rw [trimSlashes, String.toList_ofList, haddress, dropSlashes_append, if_neg hmore]

end Text

namespace Settings

variable {s : Settings}

theorem hasScheme_of_problem? (h : s.problem? = none) : Text.hasScheme s.uploadApi = true := by
  unfold problem? at h
  split at h
  · cases h
  · split at h
    · cases h
    · next hscheme =>
      rw [Bool.not_eq_true', Bool.not_eq_false] at hscheme
      exact hscheme

/-- The address is used without the slashes at its end, and what is left of one that passes the
check has a scheme but where nothing else followed it. Whatever has happened before, a caller gets
this address or a secure one that the server named. -/
theorem fallback_keeps_scheme_iff (s : Settings) (hs : s.problem? = none) :
    let url := s.endpointSettings.fallbackUrl
    ((∃ n, s.uploadApi.toList = url.toList ++ List.replicate n '/') ∧
        url.toList.getLast? ≠ some '/') ∧
      (Text.hasScheme url = true ↔ ¬ Text.Hostless s.uploadApi) ∧
      (Text.Hostless s.uploadApi → url = "https:" ∨ url = "http:") ∧
      ∀ ms token c e,
        (((Resolver.start s.endpointSettings).after ms).ask token c).resolution = .done (.ok e) →
          s.endpointSettings.Sanctioned e ∧
          (Text.hasScheme e.baseUrl = true ↔ e.source = .dynamic ∨ ¬ Text.Hostless s.uploadApi) := by
  intro url
  have hkept := Text.hasScheme_trimSlashes_iff (hasScheme_of_problem? hs)
  refine ⟨Text.trimSlashes_spec s.uploadApi, hkept, Text.trimSlashes_hostless,
    fun ms token c e hdone => ?_⟩
  have hsanctioned := Resolver.sanctioned_of_done s.endpointSettings ms hdone
  refine ⟨hsanctioned, ?_⟩
  have hfallback : e.source ≠ .dynamic → e.baseUrl = url →
      (Text.hasScheme e.baseUrl = true ↔ e.source = .dynamic ∨ ¬ Text.Hostless s.uploadApi) := by
    intro hsource hurl
    rw [hurl, or_iff_right hsource]
    exact hkept
  cases hsanctioned with
  | static _ hsource hurl => exact hfallback (by rw [hsource]; decide) hurl
  | fallback _ hsource hurl => exact hfallback (by rw [hsource]; decide) hurl
  | dynamic hsource hsecure =>
    have hscheme : Text.hasScheme e.baseUrl = true := Bool.or_eq_true _ _ |>.mpr (.inl hsecure)
    exact iff_of_true hscheme (.inl hsource)

/-- Slashes after a host. -/
theorem fallback_keeps_scheme_slashes :
    let s : Settings := { uploadApi := "http://c.pcs.example.com//", useDynamicUploadApi := false }
    s.problem? = none ∧ s.endpointSettings.fallbackUrl = "http://c.pcs.example.com" ∧
      ¬ Text.Hostless s.uploadApi := by
  intro s
  have hs : s.problem? = none := by decide
  refine ⟨hs, by decide, ?_⟩
  obtain ⟨-, hkept, -⟩ := fallback_keeps_scheme_iff s hs
  exact hkept.mp (by decide)

/-- A scheme alone passes the check, and is what every caller gets without its slashes. -/
theorem bare_scheme_accepted :
    let s : Settings := { uploadApi := "http://", useDynamicUploadApi := false }
    s.problem? = none ∧ s.endpointSettings.fallbackUrl = "http:" ∧
      Text.hasScheme "http:" = false ∧
      ∃ e, ((Resolver.start s.endpointSettings).ask "t" .entering).resolution = .done (.ok e) ∧
        e.baseUrl = "http:" := by
  intro s
  exact ⟨by decide, by decide, by decide, _, rfl, by decide⟩

end Settings

end ResumableUpload
