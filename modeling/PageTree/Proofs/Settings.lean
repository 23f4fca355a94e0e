import PageTree.Session
import PageTree.Proofs.Basic

/-!
# What settings come to

`resolve` first checks the domain and the base path, then chooses a URL and checks it. `resolve_eq_ok` says
what is known of settings that have passed: the URL in effect (`urlInEffect`) was accepted, and is kept
without slashes at its end.
-/

set_option autoImplicit false

namespace PageTree.Settings

/-- The URL to use, from what is given or from the environment, before it is checked. -/
def urlInEffect (env : Environment) (given : GivenSettings) : Except SettingsError Text :=
  chooseUrl (effective env (text "CONFLUENCE_API_URL") given.apiUrl)
    (effective env (text "CONFLUENCE_DOMAIN") given.domain)
    (effective env (text "CONFLUENCE_PATH") given.basePath)

/-- A URL is accepted if it is absolute, for HTTP or HTTPS, and its path is the last of its parts. -/
structure Accepts (u : Text) (url : Url) : Prop where
  parsed : Url.parse? u = some url
  scheme : url.scheme = text "http" ∨ url.scheme = text "https"
  host : url.host ≠ []
  params : url.params = []
  query : url.query = []
  fragment : url.fragment = []

/-- A URL passes the check just if it is acceptable, and is kept without the slashes at its end. -/
theorem checkUrl_eq_ok {u v : Text} :
    checkUrl u = .ok v ↔ (∃ url, Accepts u url) ∧ v = Text.dropTrailing '/' u := by
  unfold checkUrl
  constructor
  · intro h
    cases hparse : Url.parse? u with
    | none => simp [hparse] at h
    | some url =>
        simp only [hparse] at h
        split at h
        · cases h
        · next hserver =>
            split at h
            · cases h
            · next hparams =>
                split at h
                · cases h
                · next hquery =>
                    split at h
                    · cases h
                    · next hfragment =>
                        simp only [not_or, not_and, ne_eq, not_not] at hserver hparams hquery hfragment
                        refine ⟨⟨url, hparse, ?_, hserver.2, hparams, hquery, hfragment⟩,
                          (Except.ok.inj h).symm⟩
                        by_cases hhttp : url.scheme = text "http"
                        · exact .inl hhttp
                        · exact .inr (hserver.1 hhttp)
  · rintro ⟨⟨url, hparse, hscheme, hhost, hparams, hquery, hfragment⟩, rfl⟩
    have hserver : ¬ ((url.scheme ≠ text "http" ∧ url.scheme ≠ text "https") ∨ url.host = []) := by
      rintro (⟨hhttp, hhttps⟩ | hnone)
      · exact hscheme.elim hhttp hhttps
      · exact hhost hnone
    simp only [hparse, if_neg hserver, hparams, hquery, hfragment, ne_eq, not_true_eq_false, if_false]

/-- Settings that have passed keep a URL that was accepted, and the other values that are in effect. -/
theorem resolve_eq_ok {env : Environment} {given : GivenSettings} {settings : Settings}
    (h : resolve env given = .ok settings) :
    (∃ u, urlInEffect env given = .ok u ∧ checkUrl u = .ok settings.apiUrl) ∧
      settings.userName = effective env (text "CONFLUENCE_USER_NAME") given.userName ∧
      settings.apiKey = effective env (text "CONFLUENCE_API_KEY") given.apiKey ∧
      settings.headers = given.headers := by
  obtain ⟨_, -, h⟩ := bind_eq_ok.mp h
  obtain ⟨_, -, h⟩ := bind_eq_ok.mp h
  obtain ⟨u, hchosen, h⟩ := bind_eq_ok.mp h
  obtain ⟨v, hchecked, h⟩ := bind_eq_ok.mp h
  obtain rfl := Except.ok.inj h
  exact ⟨⟨u, hchosen, hchecked⟩, rfl, rfl, rfl⟩

/-- Settings that have passed come with a domain and a base path that have passed, if there are such. -/
theorem checks_of_resolve {env : Environment} {given : GivenSettings} {settings : Settings}
    (h : resolve env given = .ok settings) :
    (effective env (text "CONFLUENCE_DOMAIN") given.domain).forM checkDomain = .ok () ∧
      (effective env (text "CONFLUENCE_PATH") given.basePath).forM checkBasePath = .ok () := by
  obtain ⟨_, hdomain, h⟩ := bind_eq_ok.mp h
  obtain ⟨_, hbase, -⟩ := bind_eq_ok.mp h
  exact ⟨hdomain, hbase⟩

/-- The session that is opened with settings. -/
def session (settings : Settings) : Session :=
  .start settings.apiUrl settings.userName settings.apiKey

end PageTree.Settings
