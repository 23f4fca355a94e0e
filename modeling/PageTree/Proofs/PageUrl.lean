import PageTree.Proofs.Session
import PageTree.Proofs.Settings
import PageTree.Proofs.Url

/-!
# Where requests for pages go

A session adds a path segment to the URL of the interface that it is kept with. The URL was checked part by
part before, but the segment is added to its text. `landsInPath_iff` says when the two agree: what follows
the host part must not hold a question mark or a number sign, not even with nothing behind it, must not end
with a semicolon, and must not still end with a slash when the slashes at the end are gone, as it does when
a tab or a line end stands behind them.
-/

set_option autoImplicit false

namespace PageTree

/-- The URL of a request addresses the path of an interface, whose URL was given and is kept: the server is
the one of the kept URL, and the path is the given one with a segment for new pages and nothing behind it. -/
def LandsInPath (given kept posted : Text) : Prop :=
  ∃ g k p, Url.parse? given = some g ∧ Url.parse? kept = some k ∧ Url.parse? posted = some p ∧
    p.scheme = k.scheme ∧ p.host = k.host ∧
    p.path = Text.dropTrailing '/' g.path ++ text "/content" ∧
    p.params = [] ∧ p.query = [] ∧ p.fragment = []

/-- A URL that was given ends with its path, and so does the URL that is kept, which ends without a
slash. -/
structure EndsWithPath (given kept : Text) : Prop where
  noQuery : CodePoint.ofChar '?' ∉ Url.tail given
  noFragment : CodePoint.ofChar '#' ∉ Url.tail given
  noParams : (Url.tail given).getLast? ≠ some (CodePoint.ofChar ';')
  noSlash : (Url.tail kept).getLast? ≠ some (CodePoint.ofChar '/')

/-- The segment that is added for new pages, with the slash before it. -/
theorem isSegment_content : Url.IsSegment (text "content") := by
  unfold Url.IsSegment
  decide

namespace Settings

variable {u v : Text} {url : Url} {n : Nat}

/-- How an accepted URL and the URL that is kept of it hang together: they name the same server, and the
tail of the accepted one is that of the kept one with slashes behind it. -/
structure KeptAs (u v : Text) (url : Url) (n : Nat) : Prop where
  server : Url.HasServer v
  admitted : Url.isHost (Url.hostOf v) = true
  scheme : Url.schemeOf u = Url.schemeOf v
  host : Url.hostOf u = Url.hostOf v
  tail : Url.tail u = Url.tail v ++ Url.slashes n
  parts : url = Url.ofTail (Url.schemeOf v) (Url.hostOf v) (Url.tail u)
  params : url.params = []

/-- An accepted URL names a server. -/
theorem Accepts.hasServer (h : Accepts u url) : Url.HasServer u := by
  obtain ⟨-, rfl⟩ := Url.parse?_eq_some.mp h.parsed
  refine ⟨?_, h.host⟩
  intro hnone
  have hscheme : Url.schemeOf u = text "http" ∨ Url.schemeOf u = text "https" := h.scheme
  rw [hnone] at hscheme
  rcases hscheme with hhttp | hhttps
  · exact absurd hhttp (by decide)
  · exact absurd hhttps (by decide)

/-- A URL that passes the check is kept in the way that is described. -/
theorem keptAs_of_checkUrl (h : checkUrl u = .ok v) : ∃ url n, KeptAs u v url n := by
  obtain ⟨⟨url, haccepts⟩, hv⟩ := checkUrl_eq_ok.mp h
  obtain ⟨n, hu⟩ := Text.exists_eq_dropTrailing_append (CodePoint.ofChar '/') u
  rw [← hv] at hu
  have hserver := haccepts.hasServer
  rw [hu] at hserver
  have hkept := hserver.of_slashes
  obtain ⟨hscheme, hhost, htail⟩ :=
    hkept.append (Url.visible_slashes n) (Url.endsHost_slashes n)
  change u = v ++ Url.slashes n at hu
  rw [← hu] at hscheme hhost htail
  obtain ⟨hadmitted, hparts⟩ := Url.parse?_eq_some.mp haccepts.parsed
  rw [hhost] at hadmitted
  rw [hscheme, hhost] at hparts
  exact ⟨url, n, hkept, hadmitted, hscheme, hhost, htail, hparts.symm, haccepts.params⟩

namespace KeptAs

/-- An accepted URL is read as its parts. -/
theorem parse?_given (h : KeptAs u v url n) : Url.parse? u = some url := by
  rw [Url.parse?_eq_some, h.scheme, h.host]
  exact ⟨h.admitted, h.parts.symm⟩

/-- The kept URL is read as the scheme, the host and the tail that it has. -/
theorem parse?_kept (h : KeptAs u v url n) :
    Url.parse? v = some (Url.ofTail (Url.schemeOf v) (Url.hostOf v) (Url.tail v)) :=
  Url.parse?_eq_some.mpr ⟨h.admitted, rfl⟩

/-- The added segment stands behind the tail of the kept URL. -/
theorem parse?_posted (h : KeptAs u v url n) :
    Url.parse? (v ++ text "/content") =
      some (Url.ofTail (Url.schemeOf v) (Url.hostOf v)
        (Url.tail v ++ CodePoint.ofChar '/' :: text "content")) := by
  obtain ⟨hscheme, hhost, htail⟩ := h.server.append (t := text "/content") (by decide) (by decide)
  rw [Url.parse?_eq_some, hscheme, hhost, htail]
  exact ⟨h.admitted, rfl⟩

/-- A delimiter that is no slash stands in both tails or in none. -/
theorem notMem_tail_iff (h : KeptAs u v url n) {d : CodePoint} (hd : d ≠ CodePoint.ofChar '/') :
    d ∉ Url.tail u ↔ d ∉ Url.tail v := by
  have hslashes : d ∉ Url.slashes n := fun hmem => hd (List.eq_of_mem_replicate hmem)
  rw [h.tail, List.mem_append, not_or]
  exact ⟨And.left, fun hnot => ⟨hnot, hslashes⟩⟩

/-- If nothing but a path follows the host part of an accepted URL, that is the path of the URL. -/
theorem path_eq_tail (h : KeptAs u v url n) (hends : EndsWithPath u v) : url.path = Url.tail u := by
  have hparams := h.params
  rw [h.parts, Url.ofTail_of_notMem hends.noQuery hends.noFragment] at hparams ⊢
  rcases Url.cutParams_cases (Url.tail u) with ⟨-, hcut⟩ | ⟨name, params, htail, hcut⟩
  · rw [hcut]
  · rw [hcut] at hparams
    -- The parameters are empty, so the sign before them ends the tail.
    have hlast : (Url.tail u).getLast? = some (CodePoint.ofChar ';') := by
      rw [htail, show params = [] from hparams]
      simp
    exact absurd hlast hends.noParams

/-- If the kept tail is the accepted path without slashes, the accepted tail does not end with the sign for
parameters: the path would have lost that sign. -/
theorem noParams_of_path (h : KeptAs u v url n) (hquery : CodePoint.ofChar '?' ∉ Url.tail u)
    (hfragment : CodePoint.ofChar '#' ∉ Url.tail u)
    (hpath : Url.tail v = Text.dropTrailing '/' url.path) :
    (Url.tail u).getLast? ≠ some (CodePoint.ofChar ';') := by
  intro hlast
  -- Then no slash was dropped, and the path is shorter than the tail by the sign at least.
  have hn : n = 0 := by
    by_contra hpos
    rw [h.tail, Url.slashes, List.getLast?_append, List.getLast?_replicate, if_neg hpos] at hlast
    simp at hlast
  rw [h.parts, Url.ofTail_of_notMem hquery hfragment] at hpath
  rcases Url.cutParams_cases (Url.tail u) with ⟨hnot, -⟩ | ⟨name, params, hsplit, hcut⟩
  · exact hnot hlast
  · rw [hcut] at hpath
    have hshort : (Text.dropTrailing '/' name).length ≤ name.length :=
      (List.rdropWhile_prefix (· == CodePoint.ofChar '/') (l := name)).length_le
    have hlength := congrArg List.length hsplit
    rw [h.tail, hpath, hn] at hlength
    simp only [Url.slashes, List.replicate_zero, List.append_nil, List.length_append,
      List.length_cons] at hlength
    omega

/-- An accepted URL that ends with its path gets the segment in its path. -/
theorem landsInPath (h : KeptAs u v url n) (hends : EndsWithPath u v) :
    LandsInPath u v (v ++ text "/content") := by
  have hnoQuery := (h.notMem_tail_iff (by decide)).mp hends.noQuery
  have hnoFragment := (h.notMem_tail_iff (by decide)).mp hends.noFragment
  have hposted := h.parse?_posted
  rw [Url.ofTail_segment hnoQuery hnoFragment isSegment_content] at hposted
  have hdropped : Text.dropTrailing '/' url.path = Url.tail v := by
    rw [h.path_eq_tail hends, h.tail, Url.slashes, Text.dropTrailing_append_replicate]
    exact Text.dropTrailing_eq_self_iff.mpr hends.noSlash
  refine ⟨url, _, _, h.parse?_given, h.parse?_kept, hposted, rfl, rfl, ?_, rfl, rfl, rfl⟩
  rw [hdropped]
  rfl

/-- Only an accepted URL that ends with its path gets the segment in its path. -/
theorem endsWithPath (h : KeptAs u v url n) (hlands : LandsInPath u v (v ++ text "/content")) :
    EndsWithPath u v := by
  obtain ⟨g, kept, posted, hgiven, -, hposted, -, -, hpath, -, hquery, hfragment⟩ := hlands
  rw [h.parse?_given] at hgiven
  obtain rfl := Option.some.inj hgiven
  rw [h.parse?_posted] at hposted
  obtain rfl := Option.some.inj hposted
  obtain ⟨hnoQuery, hnoFragment⟩ :=
    Url.notMem_of_append (List.cons_ne_nil _ _) (by decide) hquery hfragment
  rw [Url.ofTail_segment hnoQuery hnoFragment isSegment_content] at hpath
  have htrimmed : Url.tail v = Text.dropTrailing '/' url.path := List.append_cancel_right hpath
  have hgivenQuery := (h.notMem_tail_iff (by decide)).mpr hnoQuery
  have hgivenFragment := (h.notMem_tail_iff (by decide)).mpr hnoFragment
  refine ⟨hgivenQuery, hgivenFragment, h.noParams_of_path hgivenQuery hgivenFragment htrimmed, ?_⟩
  rw [htrimmed]
  exact Text.getLast?_dropTrailing _ _

end KeptAs

/-- What follows the host part of an accepted URL decides whether a segment that is added to the kept URL
lands in the path. -/
theorem landsInPath_iff (h : checkUrl u = .ok v) :
    LandsInPath u v (v ++ text "/content") ↔ EndsWithPath u v := by
  obtain ⟨url, n, hkept⟩ := keptAs_of_checkUrl h
  exact ⟨hkept.endsWithPath, hkept.landsInPath⟩

/-- The kept URL has no slashes left to drop. -/
theorem pagesUrl_session {env : Environment} {given : GivenSettings} {settings : Settings}
    (h : resolve env given = .ok settings) :
    settings.session.pagesUrl = settings.apiUrl ++ text "/content" := by
  obtain ⟨⟨u, -, hchecked⟩, -⟩ := resolve_eq_ok h
  obtain ⟨-, hkept⟩ := checkUrl_eq_ok.mp hchecked
  have hself : Text.dropTrailing '/' settings.apiUrl = settings.apiUrl := by
    rw [Text.dropTrailing_eq_self_iff, hkept]
    exact Text.getLast?_dropTrailing _ _
  unfold session Session.start Session.pagesUrl
  rw [hself]

end Settings

namespace Session

/-- Creating a page sends requests to one URL only. -/
theorem url_of_mem_sent {s : Session} {spaceKey title content : Text} {parentId : Option Text}
    {w : World} {post : Post} (h : post ∈ (s.createPage spaceKey title content parentId).sent w) :
    post.url = s.pagesUrl := by
  rw [(s.createPage_performs spaceKey title content parentId w).sent_eq] at h
  cases hpost : s.pagePost spaceKey title content parentId with
  | error fault =>
      rw [hpost] at h
      cases h
  | ok p =>
      rw [hpost] at h
      obtain rfl := List.mem_singleton.mp h
      obtain ⟨-, fields, -, rfl⟩ := pagePost_eq_ok.mp hpost
      rfl

/-- Whatever settings have passed, every request for a new page in a session with them addresses the path
of the URL in effect, just if nothing but a path follows the host part of that URL. -/
theorem page_requests_land_in_path_iff {env : Environment} {given : GivenSettings}
    {settings : Settings} {u : Text} (hurl : Settings.urlInEffect env given = .ok u)
    (hresolve : Settings.resolve env given = .ok settings) (spaceKey title content : Text)
    (parentId : Option Text) (w : World) (post : Post)
    (hpost : post ∈ (settings.session.createPage spaceKey title content parentId).sent w) :
    LandsInPath u settings.apiUrl post.url ↔ EndsWithPath u settings.apiUrl := by
  obtain ⟨⟨u', hurl', hchecked⟩, -⟩ := Settings.resolve_eq_ok hresolve
  obtain rfl : u = u' := Except.ok.inj (hurl.symm.trans hurl')
  rw [url_of_mem_sent hpost, Settings.pagesUrl_session hresolve]
  exact Settings.landsInPath_iff hchecked

/-- Settings that give the URL of an interface and nothing else. -/
def urlOnly (u : Text) : GivenSettings := { GivenSettings.nothing with apiUrl := some u }

/-- The requests for a page with a title and no content in a session with a URL. -/
def pageRequests (apiUrl : Text) : List Post :=
  ((Settings.session ⟨apiUrl, none, none, none⟩).createPage (text "S") (text "T") [] none).sent
    (.start (.empty (.ofText (text "/w"))) [])

/-- Slashes and a semicolon further up in the path do no harm. -/
theorem page_request_behind_slashes :
    Settings.urlInEffect [] (urlOnly (text "HTTP://wiki/a;b/api//")) =
        .ok (text "HTTP://wiki/a;b/api//") ∧
      Settings.resolve [] (urlOnly (text "HTTP://wiki/a;b/api//")) =
        .ok ⟨text "HTTP://wiki/a;b/api", none, none, none⟩ ∧
      ∃ post ∈ pageRequests (text "HTTP://wiki/a;b/api"),
        LandsInPath (text "HTTP://wiki/a;b/api//") (text "HTTP://wiki/a;b/api") post.url := by
  have hurl : Settings.urlInEffect [] (urlOnly (text "HTTP://wiki/a;b/api//")) =
      .ok (text "HTTP://wiki/a;b/api//") := by decide
  have hresolve : Settings.resolve [] (urlOnly (text "HTTP://wiki/a;b/api//")) =
      .ok ⟨text "HTTP://wiki/a;b/api", none, none, none⟩ := by decide +kernel
  have hsome : (pageRequests (text "HTTP://wiki/a;b/api")).head?.isSome := by decide +kernel
  obtain ⟨post, hhead⟩ := Option.isSome_iff_exists.mp hsome
  have hpost := List.mem_of_mem_head? hhead
  have hends : EndsWithPath (text "HTTP://wiki/a;b/api//") (text "HTTP://wiki/a;b/api") :=
    ⟨by decide +kernel, by decide +kernel, by decide +kernel, by decide +kernel⟩
  refine ⟨hurl, hresolve, post, hpost, ?_⟩
  exact (page_requests_land_in_path_iff hurl hresolve _ _ _ _ _ _ hpost).mpr hends

/-- A question mark with nothing behind it is accepted, and makes a query of the added segment. -/
theorem page_request_in_query :
    Settings.resolve [] (urlOnly (text "http://wiki?")) = .ok ⟨text "http://wiki?", none, none, none⟩ ∧
      ∃ post ∈ pageRequests (text "http://wiki?"),
        (Url.parse? post.url).map Url.query = some (text "/content") ∧
        ¬ LandsInPath (text "http://wiki?") (text "http://wiki?") post.url := by
  have hresolve : Settings.resolve [] (urlOnly (text "http://wiki?")) =
      .ok ⟨text "http://wiki?", none, none, none⟩ := by decide +kernel
  have hquery : (pageRequests (text "http://wiki?")).head?.map
      (fun post => (Url.parse? post.url).map Url.query) = some (some (text "/content")) := by
    decide +kernel
  obtain ⟨post, hhead, hparse⟩ := Option.map_eq_some_iff.mp hquery
  refine ⟨hresolve, post, List.mem_of_mem_head? hhead, hparse, ?_⟩
  rintro ⟨g, k, p, -, -, hposted, -, -, -, -, hnone, -⟩
  rw [hposted] at hparse
  simp only [Option.map_some, Option.some.injEq, hnone] at hparse
  exact absurd hparse (by decide)

end Session

end PageTree
