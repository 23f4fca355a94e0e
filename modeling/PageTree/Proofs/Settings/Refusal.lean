import PageTree.CommandLine.Program
import PageTree.Proofs.PageUrl
import PageTree.Proofs.Run

/-!
# Which settings are refused in words

Settings are meant to be usable or to be refused, and the program answers a refusal with status 2. The URL
is taken apart before any of its parts is checked, and a host part with a bracket too many, or with a letter
that stands for a delimiter, cannot be taken apart: nothing is refused then, and the program ends
unexpectedly. `resolve_eq_hostMalformed_iff` says that this is the only other end.
-/

set_option autoImplicit false

namespace PageTree

namespace Url

/-- A URL that requests can be sent to: it is one for HTTP or HTTPS, it has a host part, and no slash stands
at its end. -/
def IsUsable (u : Text) : Prop :=
  (∃ url, parse? u = some url ∧ (url.scheme = text "http" ∨ url.scheme = text "https") ∧
    url.host ≠ []) ∧ u.getLast? ≠ some (CodePoint.ofChar '/')

/-- Code points in ASCII hold no delimiter but themselves. -/
theorem notMem_disguised_of_isAscii {c : CodePoint} (h : c.isAscii = true) :
    c.val ∉ disguised := by
  have hlarge : ∀ n ∈ disguised, 0x80 ≤ n := by decide
  have hsmall : c.val < 0x80 := of_decide_eq_true h
  intro hmem
  have hval := hlarge c.val hmem
  omega

/-- A host part in ASCII and without brackets is admitted. -/
theorem isHost_of_isAscii {host : Text} (hascii : ∀ c ∈ host, c.isAscii = true)
    (hopening : CodePoint.ofChar '[' ∉ host) (hclosing : CodePoint.ofChar ']' ∉ host) :
    isHost host = true := by
  have hdisguised : (host.all fun c => !disguised.contains c.val) = true := by
    rw [List.all_eq_true]
    intro c hc
    simpa using notMem_disguised_of_isAscii (hascii c hc)
  have hnoOpening : host.contains (CodePoint.ofChar '[') = false := by simpa using hopening
  have hnoClosing : host.contains (CodePoint.ofChar ']') = false := by simpa using hclosing
  unfold isHost
  rw [hnoOpening, hnoClosing, hdisguised]
  rfl

end Url

namespace Settings

variable {env : Environment} {given : GivenSettings}

/-- The domain and the base path in effect pass their checks, and the host part of the URL in effect is not
admitted. -/
structure HasOddHost (env : Environment) (given : GivenSettings) : Prop where
  domain : (effective env (text "CONFLUENCE_DOMAIN") given.domain).forM checkDomain = .ok ()
  basePath : (effective env (text "CONFLUENCE_PATH") given.basePath).forM checkBasePath = .ok ()
  host : ∃ u, urlInEffect env given = .ok u ∧ Url.isHost (Url.hostOf u) = false

/-! ## Which step does not refuse in words -/

/-- The check of the domain never finds a malformed host. -/
theorem forM_checkDomain_ne_hostMalformed (domain : Option Text) :
    domain.forM checkDomain ≠ .error .hostMalformed := by
  cases domain with
  | none => exact nofun
  | some d =>
      change checkDomain d ≠ _
      unfold checkDomain
      split <;> exact nofun

/-- The check of the base path never finds a malformed host. -/
theorem forM_checkBasePath_ne_hostMalformed (basePath : Option Text) :
    basePath.forM checkBasePath ≠ .error .hostMalformed := by
  cases basePath with
  | none => exact nofun
  | some b =>
      change checkBasePath b ≠ _
      unfold checkBasePath
      split <;> exact nofun

/-- Choosing the URL never finds a malformed host. -/
theorem chooseUrl_ne_hostMalformed (apiUrl domain basePath : Option Text) :
    chooseUrl apiUrl domain basePath ≠ .error .hostMalformed := by
  unfold chooseUrl
  split
  · exact nofun
  · split <;> exact nofun

/-- The check of a URL finds a malformed host just if the host part of the URL is none. -/
theorem checkUrl_eq_hostMalformed_iff {u : Text} :
    checkUrl u = .error .hostMalformed ↔ Url.isHost (Url.hostOf u) = false := by
  unfold checkUrl
  rw [Url.parse?_eq]
  cases Url.isHost (Url.hostOf u) with
  | false => exact iff_of_true rfl rfl
  | true =>
      refine iff_of_false ?_ nofun
      simp only [if_true]
      split_ifs <;> exact nofun

/-- Only a host part that is not admitted is not refused in words. -/
theorem resolve_eq_hostMalformed_iff : resolve env given = .error .hostMalformed ↔ HasOddHost env given := by
  constructor
  · intro h
    obtain hdomain | ⟨_, hdomain, h⟩ := bind_eq_error.mp h
    · exact absurd hdomain (forM_checkDomain_ne_hostMalformed _)
    obtain hbase | ⟨_, hbase, h⟩ := bind_eq_error.mp h
    · exact absurd hbase (forM_checkBasePath_ne_hostMalformed _)
    obtain hchosen | ⟨u, hchosen, h⟩ := bind_eq_error.mp h
    · exact absurd hchosen (chooseUrl_ne_hostMalformed _ _ _)
    obtain hchecked | ⟨v, -, h⟩ := bind_eq_error.mp h
    · exact ⟨hdomain, hbase, u, hchosen, checkUrl_eq_hostMalformed_iff.mp hchecked⟩
    · cases h
  · rintro ⟨hdomain, hbase, u, hchosen, hhost⟩
    refine bind_eq_error.mpr (.inr ⟨(), hdomain, ?_⟩)
    refine bind_eq_error.mpr (.inr ⟨(), hbase, ?_⟩)
    refine bind_eq_error.mpr (.inr ⟨u, hchosen, ?_⟩)
    exact bind_eq_error.mpr (.inl (checkUrl_eq_hostMalformed_iff.mpr hhost))

/-! ## How settings end -/

/-- The URL of settings that have passed is usable. -/
theorem isUsable_of_resolve {settings : Settings} (h : resolve env given = .ok settings) :
    Url.IsUsable settings.apiUrl := by
  obtain ⟨⟨u, -, hchecked⟩, -⟩ := resolve_eq_ok h
  obtain ⟨⟨url, haccepts⟩, hkept⟩ := checkUrl_eq_ok.mp hchecked
  obtain ⟨_, _, hkeptAs⟩ := keptAs_of_checkUrl hchecked
  -- Dropping slashes leaves the scheme and the host part as they are.
  have hurl := (Url.parse?_eq_some.mp haccepts.parsed).2
  refine ⟨⟨_, hkeptAs.parse?_kept, ?_, hkeptAs.server.2⟩, ?_⟩
  · have hscheme : Url.schemeOf u = text "http" ∨ Url.schemeOf u = text "https" := by
      have haccepted := haccepts.scheme
      rw [← hurl] at haccepted
      exact haccepted
    rw [hkeptAs.scheme] at hscheme
    exact hscheme
  · rw [hkept]
    exact Text.getLast?_dropTrailing _ _

/-- Settings are usable, or they are refused in words. -/
def AreSettled (env : Environment) (given : GivenSettings) : Prop :=
  (∃ settings, resolve env given = .ok settings ∧ Url.IsUsable settings.apiUrl) ∨
    ∃ fault, resolve env given = .error (.refused fault)

/-- Settings are settled just if their host is not odd. -/
theorem areSettled_iff : AreSettled env given ↔ ¬ HasOddHost env given := by
  rw [← resolve_eq_hostMalformed_iff]
  unfold AreSettled
  cases hresolve : resolve env given with
  | ok settings =>
      exact iff_of_true (.inl ⟨settings, rfl, isUsable_of_resolve hresolve⟩) nofun
  | error e =>
      cases e with
      | refused fault => exact iff_of_true (.inr ⟨fault, rfl⟩) (by simp)
      | hostMalformed => exact iff_of_false (by simp) (by simp)

end Settings

/-! ## The program -/

namespace CommandLine

open Settings (resolve HasOddHost AreSettled urlInEffect)

variable {line : List Text} {a : Arguments} {env : Environment} {level : Level}

/-- The program with settings that are refused: a complaint and the status 2, and nothing is done. -/
theorem run_of_refused {fault : SettingsFault} (hparse : Arguments.parse line = .ok a)
    (hlevel : a.level? = some level) (hresolve : resolve env a.settings = .error (.refused fault))
    (w : World) :
    run line env w = .ok ⟨.exit 2, some level, [], complaintLine fault.message⟩ w := by
  unfold run
  rw [hparse]
  dsimp only
  unfold runWith
  rw [hlevel]
  dsimp only
  rw [hresolve]
  rfl

/-- With a host part that is not admitted the program ends unexpectedly, and nothing is done either. -/
theorem run_of_hostMalformed (hparse : Arguments.parse line = .ok a)
    (hlevel : a.level? = some level) (hresolve : resolve env a.settings = .error .hostMalformed)
    (w : World) :
    run line env w = .ok ⟨.crash .host, some level, [], []⟩ w := by
  unfold run
  rw [hparse]
  dsimp only
  unfold runWith
  rw [hlevel]
  dsimp only
  rw [hresolve]
  rfl

/-- How the program ends with arguments that give bad settings: with a complaint about them and the status
2, unless the host part of the URL in effect is odd, which is a crash. -/
def ComplainsUnlessOdd (env : Environment) (given : GivenSettings) : Prop :=
  ∀ line a level w, Arguments.parse line = .ok a → a.level? = some level → a.settings = given →
    (∀ settings, resolve env given ≠ .ok settings) →
    (¬ HasOddHost env given → ∃ fault, resolve env given = .error (.refused fault) ∧
      run line env w = .ok ⟨.exit 2, some level, [], complaintLine fault.message⟩ w) ∧
    (HasOddHost env given → run line env w = .ok ⟨.crash .host, some level, [], []⟩ w)

/-- Settings that are not settled make the program complain, unless their host is odd. -/
theorem complainsUnlessOdd (env : Environment) (given : GivenSettings) :
    ComplainsUnlessOdd env given := by
  rintro line a level w hparse hlevel rfl hbad
  constructor
  · intro hhost
    rcases Settings.areSettled_iff.mpr hhost with ⟨settings, hresolve, -⟩ | ⟨fault, hresolve⟩
    · exact absurd hresolve (hbad settings)
    · exact ⟨fault, hresolve, run_of_refused hparse hlevel hresolve w⟩
  · intro hhost
    exact run_of_hostMalformed hparse hlevel (Settings.resolve_eq_hostMalformed_iff.mpr hhost) w

/-- Whatever is given and whatever the environment holds, settings come to a usable URL or are refused in
words just if the host part of the URL in effect is not an odd one, and the program answers bad settings with
the status 2 just then. A host part in ASCII without brackets is never odd. -/
theorem bad_settings_are_refused_iff (env : Environment) (given : GivenSettings) :
    (AreSettled env given ↔ ¬ HasOddHost env given) ∧
    ComplainsUnlessOdd env given ∧
    ∀ u, urlInEffect env given = .ok u → (∀ c ∈ Url.hostOf u, c.isAscii = true) →
      CodePoint.ofChar '[' ∉ Url.hostOf u → CodePoint.ofChar ']' ∉ Url.hostOf u →
      AreSettled env given := by
  refine ⟨Settings.areSettled_iff, complainsUnlessOdd env given, ?_⟩
  intro u hurl hascii hopening hclosing
  rw [Settings.areSettled_iff]
  rintro ⟨-, -, u', hurl', hodd⟩
  obtain rfl := Except.ok.inj (hurl.symm.trans hurl')
  rw [Url.isHost_of_isAscii hascii hopening hclosing] at hodd
  cases hodd

/-- A command line whose only setting is a URL. -/
def lineWithUrl (url : String) : List Text := [text "m.json", text "--api-url", text url]

/-- The arguments of that command line. -/
def argumentsWithUrl (url : String) : Arguments :=
  { unset with metadata := text "m.json", apiUrl := .given (text url) }

/-- A URL with a query has an ordinary host part, and it is refused. -/
theorem url_with_query_is_refused :
    urlInEffect [] (argumentsWithUrl "http://wiki/?a").settings = .ok (text "http://wiki/?a") ∧
      (∀ c ∈ Url.hostOf (text "http://wiki/?a"), c.isAscii = true) ∧
      AreSettled [] (argumentsWithUrl "http://wiki/?a").settings ∧
      ∀ w, ∃ report, run (lineWithUrl "http://wiki/?a") [] w = .ok report w ∧
        report.ending = .exit 2 := by
  have hurl : urlInEffect [] (argumentsWithUrl "http://wiki/?a").settings =
      .ok (text "http://wiki/?a") := by decide +kernel
  have hascii : ∀ c ∈ Url.hostOf (text "http://wiki/?a"), c.isAscii = true := by decide +kernel
  have hparse : Arguments.parse (lineWithUrl "http://wiki/?a") =
      .ok (argumentsWithUrl "http://wiki/?a") := by decide +kernel
  have hresolve : resolve [] (argumentsWithUrl "http://wiki/?a").settings =
      .error (.refused .urlWithQuery) := by decide +kernel
  obtain ⟨hiff, hcomplains, hplain⟩ :=
    bad_settings_are_refused_iff [] (argumentsWithUrl "http://wiki/?a").settings
  have hsettled := hplain _ hurl hascii (by decide +kernel) (by decide +kernel)
  refine ⟨hurl, hascii, hsettled, fun w => ?_⟩
  obtain ⟨fault, -, hrun⟩ := (hcomplains (lineWithUrl "http://wiki/?a") _ .info w hparse
    (by decide +kernel) rfl (by simp [hresolve])).1 (hiff.mp hsettled)
  exact ⟨_, hrun, rfl⟩

/-- A bracket that is not closed is found when the URL is taken apart, where nobody expects it. -/
theorem open_bracket_is_not_refused :
    resolve [] (argumentsWithUrl "http://[x").settings = .error .hostMalformed ∧
      ¬ AreSettled [] (argumentsWithUrl "http://[x").settings ∧
      ∀ w, ∃ report, run (lineWithUrl "http://[x") [] w = .ok report w ∧
        report.ending = .crash .host := by
  have hparse : Arguments.parse (lineWithUrl "http://[x") =
      .ok (argumentsWithUrl "http://[x") := by decide +kernel
  have hresolve : resolve [] (argumentsWithUrl "http://[x").settings = .error .hostMalformed := by
    decide +kernel
  have hlevel : (argumentsWithUrl "http://[x").level? = some .info := by decide +kernel
  refine ⟨hresolve, ?_, fun w => ⟨_, run_of_hostMalformed hparse hlevel hresolve w, rfl⟩⟩
  rw [Settings.areSettled_iff, not_not]
  exact Settings.resolve_eq_hostMalformed_iff.mp hresolve

end CommandLine

end PageTree
