import PageTree.Proofs.Settings
import PageTree.Proofs.Url

/-!
# The domain and the host

Without a URL of an interface the URL is made of a domain and a base path, put together as texts. It depends
on the code points of the two how the URL falls into its parts again. `domain_is_host_iff` says when the
host part is the domain and the path begins with the base path: the domain must hold no slash, question mark
or number sign, where the host part would end, and neither may hold a tab or a line end, which count for
nothing in a URL.
-/

set_option autoImplicit false

namespace PageTree

/-- None of the marks stands in a text. -/
def Text.Avoids (t : Text) (marks : String) : Prop := ∀ c ∈ t, c ∉ text marks

namespace Url

/-! ## What counts for nothing -/

/-- A URL without the tabs and line ends in it. -/
def withoutBreaks (s : Text) : Text := s.filter fun c => c.val ≠ 0x09 ∧ c.val ≠ 0x0A ∧ c.val ≠ 0x0D

/-- A code point is none of the breaks just if its number is none of theirs. -/
theorem notMem_breaks_iff {c : CodePoint} :
    c ∉ text "\t\n\r" ↔ c.val ≠ 0x09 ∧ c.val ≠ 0x0A ∧ c.val ≠ 0x0D := by
  have hpoint (x : Char) : c = CodePoint.ofChar x ↔ c.val = x.toNat :=
    ⟨congrArg CodePoint.val, fun h => CodePoint.ext_val h⟩
  have htab : '\t'.toNat = 0x09 := rfl
  have hfeed : '\n'.toNat = 0x0A := rfl
  have hreturn : '\r'.toNat = 0x0D := rfl
  simp [text, hpoint, htab, hfeed, hreturn]

/-- Nothing is dropped from a text just if it holds no breaks. -/
theorem withoutBreaks_eq_self_iff {s : Text} : withoutBreaks s = s ↔ s.Avoids "\t\n\r" := by
  unfold withoutBreaks Text.Avoids
  rw [List.filter_eq_self]
  simp only [decide_eq_true_eq, notMem_breaks_iff]

/-- A host part ends at a slash, a question mark or a number sign. -/
theorem endsHost_eq_true_iff {c : CodePoint} : endsHost c = true ↔ c ∈ text "/?#" := by
  simp [endsHost, text, or_assoc]

/-- What precedes the end of a host part is all of a text just if the text holds neither such an end nor
anything that counts for nothing. -/
theorem takeWhile_withoutBreaks_eq_self_iff {s : Text} :
    (withoutBreaks s).takeWhile (!endsHost ·) = s ↔ s.Avoids "/?#\t\n\r" := by
  have hmarks : s.Avoids "/?#\t\n\r" ↔ s.Avoids "\t\n\r" ∧ s.Avoids "/?#" := by
    have hsplit : text "/?#\t\n\r" = text "/?#" ++ text "\t\n\r" := rfl
    simp only [Text.Avoids, hsplit, List.mem_append, not_or]
    exact ⟨fun h => ⟨fun c hc => (h c hc).2, fun c hc => (h c hc).1⟩,
      fun h c hc => ⟨h.2 c hc, h.1 c hc⟩⟩
  have hhost : s.takeWhile (!endsHost ·) = s ↔ s.Avoids "/?#" := by
    rw [List.takeWhile_eq_self_iff]
    simp only [Bool.not_eq_true', ← Bool.not_eq_true, endsHost_eq_true_iff, Text.Avoids]
  rw [hmarks, ← withoutBreaks_eq_self_iff, ← hhost]
  constructor
  · intro h
    -- Both steps leave things out, so if all is left in the end, neither has left out anything.
    have hall : withoutBreaks s = s := by
      apply List.Sublist.antisymm List.filter_sublist
      have hprefix := List.takeWhile_sublist (l := withoutBreaks s) (!endsHost ·)
      rwa [h] at hprefix
    exact ⟨hall, by rwa [hall] at h⟩
  · rintro ⟨hall, h⟩
    rw [hall, h]

/-! ## A URL for HTTPS -/

/-- How a URL for HTTPS falls into its parts. -/
theorem parts_https (rest : Text) :
    schemeOf (text "https://" ++ rest) = text "https" ∧
      hostOf (text "https://" ++ rest) = (withoutBreaks rest).takeWhile (!endsHost ·) ∧
      tail (text "https://" ++ rest) = (withoutBreaks rest).dropWhile (!endsHost ·) := by
  have hclean : clean (text "https://" ++ rest) =
      text "https" ++ CodePoint.ofChar ':' :: (text "//" ++ withoutBreaks rest) := rfl
  have hscheme : cutScheme (clean (text "https://" ++ rest)) =
      (text "https", text "//" ++ withoutBreaks rest) := by
    rw [hclean]
    unfold cutScheme
    rw [Text.cut_of_split (by decide)]
    rfl
  unfold schemeOf hostOf tail
  rw [hscheme]
  exact ⟨rfl, rfl, rfl⟩

end Url

namespace Settings

variable {env : Environment} {given : GivenSettings} {settings : Settings}

/-- The base path that a URL is made with. -/
def basePathInEffect (env : Environment) (given : GivenSettings) : Text :=
  (effective env (text "CONFLUENCE_PATH") given.basePath).getD defaultBasePath

/-- The URL that is made of a domain and a base path. -/
def urlOfDomain (d base : Text) : Text := text "https://" ++ (d ++ (base ++ text "rest/api"))

/-- A base path that passes the check begins with a slash. -/
theorem exists_eq_slash_of_checkBasePath {b : Text} (h : checkBasePath b = .ok ()) :
    ∃ rest, b = CodePoint.ofChar '/' :: rest := by
  unfold checkBasePath at h
  split at h
  · next hslashes =>
      rw [Bool.and_eq_true, List.isPrefixOf_iff_prefix] at hslashes
      obtain ⟨rest, hrest⟩ := hslashes.1
      exact ⟨rest, hrest.symm⟩
  · cases h

/-- A base path that has passed starts with a slash, and the URL is made with it. -/
theorem basePathInEffect_of_passes
    (hpasses : (effective env (text "CONFLUENCE_PATH") given.basePath).forM checkBasePath = .ok ()) :
    (∃ rest, basePathInEffect env given = CodePoint.ofChar '/' :: rest) ∧
      ∀ d, derivedUrl d (effective env (text "CONFLUENCE_PATH") given.basePath) =
        urlOfDomain d (basePathInEffect env given) := by
  unfold basePathInEffect
  cases hbase : effective env (text "CONFLUENCE_PATH") given.basePath with
  | none => exact ⟨⟨text "wiki/", rfl⟩, fun d => by simp [derivedUrl, urlOfDomain]⟩
  | some b =>
      rw [hbase] at hpasses
      obtain ⟨rest, rfl⟩ := exists_eq_slash_of_checkBasePath hpasses
      exact ⟨⟨rest, rfl⟩, fun d => by simp [derivedUrl, urlOfDomain]⟩

/-- Without a URL that is given the URL is made of the domain. -/
theorem chooseUrl_of_none {apiUrl basePath : Option Text} {d u : Text} (hnone : apiUrl.getD [] = [])
    (h : chooseUrl apiUrl (some d) basePath = .ok u) : u = derivedUrl d basePath := by
  have hderived : chooseUrl none (some d) basePath = .ok u := by
    match apiUrl with
    | none => exact h
    | some [] => exact h
    | some (c :: s) => cases hnone
  match d with
  | [] => cases hderived
  | c :: s => exact (Except.ok.inj hderived).symm

/-- The URL that is checked when none is given. -/
theorem checkUrl_urlOfDomain {d : Text}
    (hnone : (effective env (text "CONFLUENCE_API_URL") given.apiUrl).getD [] = [])
    (hdomain : effective env (text "CONFLUENCE_DOMAIN") given.domain = some d)
    (hresolve : resolve env given = .ok settings) :
    (∃ rest, basePathInEffect env given = CodePoint.ofChar '/' :: rest) ∧
      checkUrl (urlOfDomain d (basePathInEffect env given)) = .ok settings.apiUrl := by
  obtain ⟨⟨u, hchosen, hchecked⟩, -⟩ := resolve_eq_ok hresolve
  obtain ⟨hslash, hderived⟩ := basePathInEffect_of_passes (checks_of_resolve hresolve).2
  rw [urlInEffect, hdomain] at hchosen
  obtain rfl := chooseUrl_of_none hnone hchosen
  rw [hderived] at hchecked
  exact ⟨hslash, hchecked⟩

/-- The URL ends with a path segment, so no slash is dropped from it. -/
theorem dropTrailing_urlOfDomain (d base : Text) :
    Text.dropTrailing '/' (urlOfDomain d base) = urlOfDomain d base := by
  have hlast : (text "rest/api").getLast? = some (CodePoint.ofChar 'i') := by decide
  rw [Text.dropTrailing_eq_self_iff, urlOfDomain, List.getLast?_append, List.getLast?_append,
    List.getLast?_append, hlast]
  simp

/-- The URL by its parts. -/
theorem parts_urlOfDomain (d : Text) {base : Text} (hslash : ∃ rest, base = CodePoint.ofChar '/' :: rest) :
    Url.schemeOf (urlOfDomain d base) = text "https" ∧
      Url.hostOf (urlOfDomain d base) = (Url.withoutBreaks d).takeWhile (!Url.endsHost ·) ∧
      Url.tail (urlOfDomain d base) = (Url.withoutBreaks d).dropWhile (!Url.endsHost ·) ++
        (Url.withoutBreaks base ++ text "rest/api") := by
  have hbreaks : Url.withoutBreaks (d ++ (base ++ text "rest/api")) =
      Url.withoutBreaks d ++ (Url.withoutBreaks base ++ text "rest/api") := by
    unfold Url.withoutBreaks
    rw [List.filter_append, List.filter_append]
    rfl
  -- The slash at the start of the base path ends the host part, if nothing has done so before.
  have hstop : ∀ c ∈ (Url.withoutBreaks base ++ text "rest/api").head?, Url.endsHost c = true := by
    obtain ⟨rest, rfl⟩ := hslash
    intro c hc
    obtain rfl := Option.some.inj hc
    rfl
  obtain ⟨hscheme, hhost, htail⟩ := Url.parts_https (d ++ (base ++ text "rest/api"))
  obtain ⟨htake, hdrop⟩ := Url.takeWhile_host_append (Url.withoutBreaks d) hstop
  rw [hbreaks, htake] at hhost
  rw [hbreaks, hdrop] at htail
  exact ⟨hscheme, hhost, htail⟩

/-- All that follows the host part is path, if there is neither a query nor a fragment. -/
theorem path_ofTail {scheme host base : Text}
    (hquery : (Url.ofTail scheme host (base ++ text "rest/api")).query = [])
    (hfragment : (Url.ofTail scheme host (base ++ text "rest/api")).fragment = []) :
    (Url.ofTail scheme host (base ++ text "rest/api")).path = base ++ text "rest/api" := by
  obtain ⟨hnoQuery, hnoFragment⟩ :=
    Url.notMem_of_append (by decide) (by decide) hquery hfragment
  have hsegment : Url.IsSegment (text "api") := by
    unfold Url.IsSegment
    decide
  have hsplit : base ++ text "rest/api" = (base ++ text "rest") ++ CodePoint.ofChar '/' :: text "api" := by
    rw [List.append_assoc]
    rfl
  rw [hsplit, Url.ofTail_segment _ _ hsegment]
  · rw [List.mem_append, not_or]
    exact ⟨hnoQuery, by decide⟩
  · rw [List.mem_append, not_or]
    exact ⟨hnoFragment, by decide⟩

/-- The parts of the URL, if it is accepted: when the domain is the host part, and when the path begins with
the base path. -/
theorem accepts_urlOfDomain {d base : Text} {url : Url}
    (hslash : ∃ rest, base = CodePoint.ofChar '/' :: rest) (h : Accepts (urlOfDomain d base) url) :
    url.scheme = text "https" ∧ (url.host = d ↔ d.Avoids "/?#\t\n\r") ∧
      (url.host = d → (url.path = base ++ text "rest/api" ↔ base.Avoids "\t\n\r")) := by
  obtain ⟨hscheme, hhost, htail⟩ := parts_urlOfDomain d hslash
  obtain ⟨hparsed, -, -, -, hquery, hfragment⟩ := h
  obtain ⟨-, rfl⟩ := Url.parse?_eq_some.mp hparsed
  rw [hscheme, hhost, htail] at hquery hfragment ⊢
  refine ⟨rfl, Url.takeWhile_withoutBreaks_eq_self_iff, fun hall => ?_⟩
  change (Url.withoutBreaks d).takeWhile (!Url.endsHost ·) = d at hall
  -- If the domain is the host part, nothing of it is left for the path.
  have hnothing : (Url.withoutBreaks d).dropWhile (!Url.endsHost ·) = [] := by
    have hboth := congrArg List.length
      (List.takeWhile_append_dropWhile (p := (!Url.endsHost ·)) (l := Url.withoutBreaks d))
    have hshort : (Url.withoutBreaks d).length ≤ d.length := List.length_filter_le _ d
    rw [hall, List.length_append] at hboth
    exact List.length_eq_zero_iff.mp (by omega)
  rw [hnothing, List.nil_append] at hquery hfragment ⊢
  rw [path_ofTail hquery hfragment, List.append_left_inj, Url.withoutBreaks_eq_self_iff]

/-- If no URL is in effect and the settings have passed, their URL is one for HTTPS with the domain as the
host part and the base path at the start of the path, just if the domain holds no delimiter that ends a host
part, and neither holds a tab or a line end. -/
theorem domain_is_host_iff {d : Text}
    (hnone : (effective env (text "CONFLUENCE_API_URL") given.apiUrl).getD [] = [])
    (hdomain : effective env (text "CONFLUENCE_DOMAIN") given.domain = some d)
    (hresolve : resolve env given = .ok settings) :
    (∃ url, Url.parse? settings.apiUrl = some url ∧ url.scheme = text "https" ∧ url.host = d ∧
        url.path = basePathInEffect env given ++ text "rest/api") ↔
      d.Avoids "/?#\t\n\r" ∧ (basePathInEffect env given).Avoids "\t\n\r" := by
  obtain ⟨hslash, hchecked⟩ := checkUrl_urlOfDomain hnone hdomain hresolve
  obtain ⟨⟨url, haccepts⟩, hkept⟩ := checkUrl_eq_ok.mp hchecked
  obtain ⟨hscheme, hhost, hpath⟩ := accepts_urlOfDomain hslash haccepts
  rw [hkept, dropTrailing_urlOfDomain, haccepts.parsed]
  constructor
  · rintro ⟨_, ⟨⟩, -, hdomainIs, hpathIs⟩
    exact ⟨hhost.mp hdomainIs, (hpath hdomainIs).mp hpathIs⟩
  · rintro ⟨hd, hbase⟩
    have hdomainIs := hhost.mpr hd
    exact ⟨url, rfl, hscheme, hdomainIs, (hpath hdomainIs).mpr hbase⟩

/-- Settings that give a domain and nothing else. -/
def domainOnly (d : Text) : GivenSettings := { GivenSettings.nothing with domain := some d }

/-- A port belongs to the host part, and parameters in a base path to the path. -/
theorem domain_with_port_is_host :
    (effective [(text "CONFLUENCE_PATH", text "/a;b/")] (text "CONFLUENCE_API_URL") none).getD [] = [] ∧
      effective [(text "CONFLUENCE_PATH", text "/a;b/")] (text "CONFLUENCE_DOMAIN")
        (some (text "wiki:8443")) = some (text "wiki:8443") ∧
      resolve [(text "CONFLUENCE_PATH", text "/a;b/")] (domainOnly (text "wiki:8443")) =
        .ok ⟨text "https://wiki:8443/a;b/rest/api", none, none, none⟩ ∧
      ∃ url, Url.parse? (text "https://wiki:8443/a;b/rest/api") = some url ∧
        url.scheme = text "https" ∧ url.host = text "wiki:8443" ∧ url.path = text "/a;b/rest/api" := by
  have hnone : (effective [(text "CONFLUENCE_PATH", text "/a;b/")] (text "CONFLUENCE_API_URL")
      none).getD [] = [] := by decide +kernel
  have hdomain : effective [(text "CONFLUENCE_PATH", text "/a;b/")] (text "CONFLUENCE_DOMAIN")
      (some (text "wiki:8443")) = some (text "wiki:8443") := by decide +kernel
  have hresolve : resolve [(text "CONFLUENCE_PATH", text "/a;b/")] (domainOnly (text "wiki:8443")) =
      .ok ⟨text "https://wiki:8443/a;b/rest/api", none, none, none⟩ := by decide +kernel
  have havoids : (text "wiki:8443").Avoids "/?#\t\n\r" := by
    unfold Text.Avoids
    decide +kernel
  have havoids' : (basePathInEffect [(text "CONFLUENCE_PATH", text "/a;b/")]
      (domainOnly (text "wiki:8443"))).Avoids "\t\n\r" := by
    unfold Text.Avoids
    decide +kernel
  exact ⟨hnone, hdomain, hresolve, (domain_is_host_iff hnone hdomain hresolve).mpr ⟨havoids, havoids'⟩⟩

/-- A domain that is a URL is accepted if its scheme is written in capital letters, and the scheme is taken
for the host. -/
theorem scheme_is_taken_for_host :
    resolve [] (domainOnly (text "HTTPS://wiki")) =
        .ok ⟨text "https://HTTPS://wiki/wiki/rest/api", none, none, none⟩ ∧
      (Url.parse? (text "https://HTTPS://wiki/wiki/rest/api")).map (fun url => (url.host, url.path)) =
        some (text "HTTPS:", text "//wiki/wiki/rest/api") ∧
      ¬ ∃ url, Url.parse? (text "https://HTTPS://wiki/wiki/rest/api") = some url ∧
        url.scheme = text "https" ∧ url.host = text "HTTPS://wiki" ∧
        url.path = defaultBasePath ++ text "rest/api" := by
  have hresolve : resolve [] (domainOnly (text "HTTPS://wiki")) =
      .ok ⟨text "https://HTTPS://wiki/wiki/rest/api", none, none, none⟩ := by decide +kernel
  have hparts : (Url.parse? (text "https://HTTPS://wiki/wiki/rest/api")).map
      (fun url => (url.host, url.path)) = some (text "HTTPS:", text "//wiki/wiki/rest/api") := by
    decide +kernel
  refine ⟨hresolve, hparts, ?_⟩
  rintro ⟨url, hparsed, -, hhost, -⟩
  rw [hparsed, Option.map_some, Option.some.injEq, Prod.mk.injEq, hhost] at hparts
  exact absurd hparts.1 (by decide)

end Settings

end PageTree
