import PageTree.Proofs.PageUrl

/-!
# The URL that is kept

A URL is checked and then kept without the slashes at its end. The kept URL names the same server as the one
that was checked, and it has no query and no fragment either. But its last segment is another one, and the
parameters of a segment count only if it is the last. So a URL can be kept that is refused when it is given
again: `kept_url_is_accepted_iff` says that this is so just if a slash was dropped from behind parameters.
-/

set_option autoImplicit false

namespace PageTree

namespace Url

/-! ## Parameters at the end of a path -/

/-- A path ends with parameters: something stands behind a semicolon, and no slash. -/
def EndsWithParams (path : Text) : Prop :=
  ∃ front params, path = front ++ CodePoint.ofChar ';' :: params ∧ params ≠ [] ∧
    CodePoint.ofChar '/' ∉ params

/-- Something is left behind a cut just if the character stands in the text with something behind it. -/
theorem cutAt_ne_nil_iff {c : CodePoint} {s : Text} :
    (cutAt c s).2 ≠ [] ↔ ∃ front rest, s = front ++ c :: rest ∧ rest ≠ [] := by
  constructor
  · intro h
    by_cases hmem : c ∈ s
    · obtain ⟨front, rest, rfl, hfront⟩ := Text.exists_first hmem
      rw [cutAt_of_split hfront] at h
      exact ⟨front, rest, rfl, h⟩
    · rw [cutAt_of_notMem hmem] at h
      exact absurd rfl h
  · rintro ⟨front, rest, rfl, hrest⟩
    have hmem : c ∈ front ++ [c] := by simp
    have h := cutAt_append_ne_nil hmem hrest
    rwa [List.append_assoc] at h

/-- The parameters of a path are those of its last segment. -/
theorem cutParams_snd_of_split {front segment : Text} (h : CodePoint.ofChar '/' ∉ segment) :
    (cutParams (front ++ CodePoint.ofChar '/' :: segment)).2 = (cutAt ';' segment).2 := by
  simp only [cutParams, Text.cutLast_of_split front h]

/-- Where there is no slash, the parameters are what stands behind the first semicolon. -/
theorem cutParams_snd_of_notMem {path : Text} (h : CodePoint.ofChar '/' ∉ path) :
    (cutParams path).2 = (cutAt ';' path).2 := by
  simp only [cutParams, Text.cutLast_of_notMem h]

/-- There are parameters just if the path ends with some. -/
theorem cutParams_snd_ne_nil_iff {path : Text} : (cutParams path).2 ≠ [] ↔ EndsWithParams path := by
  constructor
  · intro h
    by_cases hslash : CodePoint.ofChar '/' ∈ path
    · obtain ⟨before, segment, rfl, hsegment⟩ := Text.exists_last hslash
      rw [cutParams_snd_of_split hsegment, cutAt_ne_nil_iff] at h
      obtain ⟨name, params, rfl, hparams⟩ := h
      refine ⟨before ++ CodePoint.ofChar '/' :: name, params, by simp, hparams, ?_⟩
      exact fun hmem => hsegment (List.mem_append_right _ (List.mem_cons_of_mem _ hmem))
    · rw [cutParams_snd_of_notMem hslash, cutAt_ne_nil_iff] at h
      obtain ⟨name, params, rfl, hparams⟩ := h
      refine ⟨name, params, rfl, hparams, ?_⟩
      exact fun hmem => hslash (List.mem_append_right _ (List.mem_cons_of_mem _ hmem))
  · rintro ⟨front, params, rfl, hparams, hnone⟩
    have hnone' : CodePoint.ofChar '/' ∉ CodePoint.ofChar ';' :: params := by simp [hnone]
    by_cases hslash : CodePoint.ofChar '/' ∈ front
    · obtain ⟨before, name, rfl, hname⟩ := Text.exists_last hslash
      have hsegment : CodePoint.ofChar '/' ∉ name ++ CodePoint.ofChar ';' :: params := by
        rw [List.mem_append, not_or]
        exact ⟨hname, hnone'⟩
      rw [List.append_assoc, List.cons_append, cutParams_snd_of_split hsegment, cutAt_ne_nil_iff]
      exact ⟨name, params, rfl, hparams⟩
    · have hpath : CodePoint.ofChar '/' ∉ front ++ CodePoint.ofChar ';' :: params := by
        rw [List.mem_append, not_or]
        exact ⟨hslash, hnone'⟩
      rw [cutParams_snd_of_notMem hpath, cutAt_ne_nil_iff]
      exact ⟨front, params, rfl, hparams⟩

instance (path : Text) : Decidable (EndsWithParams path) := decidable_of_iff _ cutParams_snd_ne_nil_iff

end Url

namespace Settings

variable {u v : Text} {env : Environment} {given : GivenSettings} {settings : Settings}

/-! ## Checking the kept URL -/

/-- If a slash was dropped, there is neither a query nor a fragment that it could belong to. -/
theorem notMem_tail_of_dropped {url : Url} {n : Nat} (hkept : KeptAs u v url n) (haccepts : Accepts u url)
    (hn : n ≠ 0) :
    CodePoint.ofChar '?' ∉ Url.tail v ∧ CodePoint.ofChar '#' ∉ Url.tail v := by
  obtain ⟨-, -, -, -, hquery, hfragment⟩ := haccepts
  have hslashes : Url.slashes n ≠ [] := by
    intro hnil
    exact hn (by simpa [Url.slashes] using congrArg List.length hnil)
  rw [hkept.parts, hkept.tail] at hquery hfragment
  exact Url.notMem_of_append hslashes (fun hmem => absurd (List.eq_of_mem_replicate hmem) (by decide))
    hquery hfragment

/-- A URL of which nothing was dropped is kept as it was. -/
theorem KeptAs.dropped {url : Url} {n : Nat} (hkept : KeptAs u v url n)
    (hv : v = Text.dropTrailing '/' u) (hne : u ≠ v) : n ≠ 0 := by
  obtain ⟨m, hu⟩ := Text.exists_eq_dropTrailing_append (CodePoint.ofChar '/') u
  rw [← hv] at hu
  change u = v ++ Url.slashes m at hu
  obtain ⟨-, -, htail⟩ := hkept.server.append (Url.visible_slashes m) (Url.endsHost_slashes m)
  rw [← hu, hkept.tail, List.append_right_inj] at htail
  rintro rfl
  have hm : Url.slashes m = [] := htail.symm
  exact hne (by rw [hu, hm, List.append_nil])

/-- A URL with a server and parameters is refused for the parameters. -/
theorem checkUrl_of_params {url : Url} (hparsed : Url.parse? v = some url)
    (hscheme : url.scheme = text "http" ∨ url.scheme = text "https") (hhost : url.host ≠ [])
    (hparams : url.params ≠ []) : checkUrl v = .error (.refused .urlWithParams) := by
  have hserver : ¬ ((url.scheme ≠ text "http" ∧ url.scheme ≠ text "https") ∨ url.host = []) := by
    rintro (⟨hhttp, hhttps⟩ | hnone)
    · exact hscheme.elim hhttp hhttps
    · exact hhost hnone
  unfold checkUrl
  simp only [hparsed, if_neg hserver, if_pos hparams]

/-- The kept URL is accepted, unless a slash was dropped from it and it ends with parameters. -/
theorem checkUrl_kept (h : checkUrl u = .ok v) :
    (¬ (u ≠ v ∧ Url.EndsWithParams (Url.tail v)) → checkUrl v = .ok v) ∧
      (u ≠ v ∧ Url.EndsWithParams (Url.tail v) → checkUrl v = .error (.refused .urlWithParams)) := by
  by_cases hne : u ≠ v
  · obtain ⟨⟨url, haccepts⟩, hv⟩ := checkUrl_eq_ok.mp h
    obtain ⟨url', n, hkept⟩ := keptAs_of_checkUrl h
    obtain rfl := Option.some.inj (haccepts.parsed.symm.trans hkept.parse?_given)
    obtain ⟨hnoQuery, hnoFragment⟩ := notMem_tail_of_dropped hkept haccepts (hkept.dropped hv hne)
    have hparsed := hkept.parse?_kept
    rw [Url.ofTail_of_notMem hnoQuery hnoFragment] at hparsed
    have hscheme := haccepts.scheme
    rw [hkept.parts] at hscheme
    refine ⟨fun hnot => ?_, fun hboth => ?_⟩
    · have hparams : (Url.cutParams (Url.tail v)).2 = [] := by
        by_contra hsome
        exact hnot ⟨hne, Url.cutParams_snd_ne_nil_iff.mp hsome⟩
      have hself : v = Text.dropTrailing '/' v := by
        rw [hv]
        exact (Text.dropTrailing_eq_self_iff.mpr (Text.getLast?_dropTrailing _ _)).symm
      exact checkUrl_eq_ok.mpr ⟨⟨_, hparsed, hscheme, hkept.server.2, hparams, rfl, rfl⟩, hself⟩
    · exact checkUrl_of_params hparsed hscheme hkept.server.2
        (Url.cutParams_snd_ne_nil_iff.mpr hboth.2)
  · rw [not_not] at hne
    subst hne
    exact ⟨fun _ => h, fun hboth => absurd rfl hboth.1⟩

/-- Settings that are resolved again, with the kept URL in the place of the one that was given. -/
theorem resolve_again (hresolve : resolve env given = .ok settings) :
    resolve env { given with apiUrl := some settings.apiUrl } =
      (checkUrl settings.apiUrl).map fun url => { settings with apiUrl := url } := by
  obtain ⟨hdomain, hbase⟩ := checks_of_resolve hresolve
  obtain ⟨⟨u, -, hchecked⟩, huser, hkey, hheaders⟩ := resolve_eq_ok hresolve
  obtain ⟨url, n, hkept⟩ := keptAs_of_checkUrl hchecked
  -- The kept URL is not empty, so it is the URL in effect.
  have hchosen (domain basePath : Option Text) :
      chooseUrl (effective env (text "CONFLUENCE_API_URL") (some settings.apiUrl)) domain basePath =
        .ok settings.apiUrl := by
    match hurl : settings.apiUrl with
    | [] => exact absurd (by rw [hurl]; rfl) hkept.server.1
    | c :: s => rfl
  unfold resolve
  dsimp only
  rw [hdomain, hbase, hchosen, huser, hkey, hheaders]
  dsimp only [bind, Except.bind]
  cases checkUrl settings.apiUrl <;> rfl

/-- Settings that have passed pass again with their own URL and stay the same, just if no slash was dropped
from behind parameters at the end of the URL in effect. Otherwise they are refused for the parameters, and
never for a query, a fragment or a missing host. -/
theorem kept_url_is_accepted_iff (hurl : urlInEffect env given = .ok u)
    (hresolve : resolve env given = .ok settings) :
    (resolve env { given with apiUrl := some settings.apiUrl } = .ok settings ↔
      ¬ (u ≠ settings.apiUrl ∧ Url.EndsWithParams (Url.tail settings.apiUrl))) ∧
    (u ≠ settings.apiUrl ∧ Url.EndsWithParams (Url.tail settings.apiUrl) →
      resolve env { given with apiUrl := some settings.apiUrl } = .error (.refused .urlWithParams)) := by
  obtain ⟨⟨u', hurl', hchecked⟩, -⟩ := resolve_eq_ok hresolve
  obtain rfl : u = u' := Except.ok.inj (hurl.symm.trans hurl')
  obtain ⟨haccepted, hrefused⟩ := checkUrl_kept hchecked
  rw [resolve_again hresolve]
  refine ⟨⟨fun h hboth => ?_, fun hnot => ?_⟩, fun hboth => ?_⟩
  · rw [hrefused hboth] at h
    cases h
  · rw [haccepted hnot]
    rfl
  · rw [hrefused hboth]
    rfl

/-- Parameters further up in the path stay where they are when slashes are dropped. -/
theorem kept_url_behind_params :
    urlInEffect [] (Session.urlOnly (text "https://wiki/a;b/api//")) =
        .ok (text "https://wiki/a;b/api//") ∧
      resolve [] (Session.urlOnly (text "https://wiki/a;b/api//")) =
        .ok ⟨text "https://wiki/a;b/api", none, none, none⟩ ∧
      resolve [] (Session.urlOnly (text "https://wiki/a;b/api")) =
        .ok ⟨text "https://wiki/a;b/api", none, none, none⟩ := by
  have hurl : urlInEffect [] (Session.urlOnly (text "https://wiki/a;b/api//")) =
      .ok (text "https://wiki/a;b/api//") := by decide +kernel
  have hresolve : resolve [] (Session.urlOnly (text "https://wiki/a;b/api//")) =
      .ok ⟨text "https://wiki/a;b/api", none, none, none⟩ := by decide +kernel
  have hnot : ¬ (text "https://wiki/a;b/api//" ≠ text "https://wiki/a;b/api" ∧
      Url.EndsWithParams (Url.tail (text "https://wiki/a;b/api"))) := by decide +kernel
  exact ⟨hurl, hresolve, (kept_url_is_accepted_iff hurl hresolve).1.mpr hnot⟩

/-- A slash behind parameters hides them from the check, and is dropped from the URL that is kept. -/
theorem kept_url_may_be_refused :
    resolve [] (Session.urlOnly (text "http://wiki/a;b/")) =
        .ok ⟨text "http://wiki/a;b", none, none, none⟩ ∧
      resolve [] (Session.urlOnly (text "http://wiki/a;b")) = .error (.refused .urlWithParams) := by
  decide +kernel

end Settings

end PageTree
