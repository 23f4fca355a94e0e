import PageTree.Proofs.Resources
import PageTree.Proofs.Settings

/-!
# Empty variables

A variable of the environment that is set to the empty text counts for no more than one that is not set. Each
setting that is taken from a variable is, without the empty ones, what it was before or is not there
(`effective_withoutEmpty`), and what is done with a setting is the same for an empty text and for none.

There is one exception: a base path is checked before it is asked whether there is one, and an empty text has
no slashes at its ends. `empty_variables_count_as_unset_iff` says that this is the only one.
-/

set_option autoImplicit false

namespace PageTree

/-! ## What is read of a session -/

section

variable {s s' : Session}

/-- Sessions with the same credentials sign alike. -/
theorem Session.authorization_congr (hcredentials : s.credentials? = s'.credentials?) :
    s.authorization = s'.authorization := by
  unfold Session.authorization
  rw [hcredentials]

/-- Of a session no more is read than its URL and its credentials. -/
theorem StepsRelated.of_session (hurl : s.apiUrl = s'.apiUrl)
    (hcredentials : s.credentials? = s'.credentials?) : StepsRelated (fun x y => x = y) s s' where
  pure _ := rfl
  bind hx hf := by rw [hx, funext hf]
  readText _ _ := rfl
  createPage spaceKey title content parentId := by
    unfold Session.createPage Session.pagesUrl
    rw [hurl, Session.authorization_congr hcredentials]
  uploadAttachment pageId path := by
    unfold Session.uploadAttachment Session.attachmentsUrl
    rw [hurl, Session.authorization_congr hcredentials]

/-- Sessions whose steps are the same run every call alike. -/
theorem Call.run_congr (hsteps : StepsRelated (fun x y => x = y) s s') (call : Call) :
    call.run s = call.run s' := by
  cases call with
  | createPage spaceKey title content parentId =>
      exact congrArg (fun x => do let _ ← x) (hsteps.createPage spaceKey title content parentId)
  | uploadAttachment pageId path => exact hsteps.uploadAttachment pageId path
  | publish metadata contentRoot => exact Publisher.publish_related hsteps metadata contentRoot

/-- Sessions whose steps are the same leave the same world after calls. -/
theorem Call.worldAfter_congr (hsteps : StepsRelated (fun x y => x = y) s s') (calls : List Call)
    (w : World) : worldAfter s calls w = worldAfter s' calls w := by
  unfold worldAfter
  rw [funext fun w => funext fun call => congrArg (fun x => x.last w) (run_congr hsteps call)]

end

namespace Settings

/-! ## Environments without empty variables -/

/-- The variables that settings are taken from. -/
def variableNames : List Text :=
  [text "CONFLUENCE_API_URL", text "CONFLUENCE_DOMAIN", text "CONFLUENCE_PATH",
    text "CONFLUENCE_USER_NAME", text "CONFLUENCE_API_KEY"]

/-- An environment without those of the variables that are set to the empty text. -/
def withoutEmpty (env : Environment) : Environment :=
  env.filter fun v => ¬ (v.1 ∈ variableNames ∧ lookup? env v.1 = some [])

/-- A text that is there and not empty. -/
def nonEmpty? : Option Text → Option Text
  | some (c :: s) => some (c :: s)
  | _ => none

/-- A variable is found among those that are kept just if it is kept and was found before. -/
theorem lookup?_filter (env : Environment) (keep : Text → Bool) (name : Text) :
    lookup? (env.filter fun v => keep v.1) name = if keep name then lookup? env name else none := by
  unfold lookup?
  rw [List.find?_filter]
  cases hkeep : keep name with
  | true =>
      have hsame : (fun v : Text × Text => decide (keep v.1 = true ∧ (v.1 == name) = true)) =
          fun v => v.1 == name := by
        funext v
        by_cases hname : v.1 = name <;> simp [hname, hkeep]
      rw [hsame]
      rfl
  | false =>
      have hnone : (fun v : Text × Text => decide (keep v.1 = true ∧ (v.1 == name) = true)) =
          fun _ => false := by
        funext v
        by_cases hname : v.1 = name <;> simp [hname, hkeep]
      rw [hnone]
      simp

variable {env : Environment} {name : Text}

/-- A variable that is set to the empty text counts as one that is not set. -/
theorem lookup?_withoutEmpty (hname : name ∈ variableNames) :
    lookup? (withoutEmpty env) name = nonEmpty? (lookup? env name) := by
  have hfilter := lookup?_filter env (fun n => ¬ (n ∈ variableNames ∧ lookup? env n = some [])) name
  unfold withoutEmpty
  rw [hfilter]
  match lookup? env name with
  | some (c :: s) => simp [nonEmpty?]
  | some [] => simp [nonEmpty?, hname]
  | none => simp [nonEmpty?]

/-- Without empty variables, what is in effect is what was in effect before, unless that is empty. -/
theorem effective_withoutEmpty (hname : name ∈ variableNames) (given : Option Text) :
    effective (withoutEmpty env) name given = nonEmpty? (effective env name given) := by
  match given with
  | some (c :: s) => rfl
  | some [] => exact lookup?_withoutEmpty hname
  | none => exact lookup?_withoutEmpty hname

/-- The empty text is in effect just if nothing is given and the variable is set to it. -/
theorem effective_eq_empty_iff {given : Option Text} :
    effective env name given = some [] ↔ given.getD [] = [] ∧ lookup? env name = some [] := by
  match given with
  | some (c :: s) => simp [effective]
  | some [] => simp [effective]
  | none => simp [effective]

/-! ## The same for an empty text and for none -/

/-- An empty domain passes the check, like none. -/
theorem checkDomain_nonEmpty? (domain : Option Text) :
    (nonEmpty? domain).forM checkDomain = domain.forM checkDomain := by
  match domain with
  | some (c :: s) => rfl
  | some [] => rfl
  | none => rfl

/-- Empty texts are as good as none when the URL is chosen. -/
theorem chooseUrl_nonEmpty? (apiUrl domain basePath : Option Text) :
    chooseUrl (nonEmpty? apiUrl) (nonEmpty? domain) (nonEmpty? basePath) =
      chooseUrl apiUrl domain basePath := by
  have hderived (d : Text) : derivedUrl d (nonEmpty? basePath) = derivedUrl d basePath := by
    match basePath with
    | some (c :: s) => rfl
    | some [] => rfl
    | none => rfl
  have hdomain : chooseUrl none (nonEmpty? domain) (nonEmpty? basePath) =
      chooseUrl none domain basePath := by
    match domain with
    | some (c :: s) => exact congrArg Except.ok (hderived (c :: s))
    | some [] => rfl
    | none => rfl
  match apiUrl with
  | some (c :: s) => rfl
  | some [] => exact hdomain
  | none => exact hdomain

/-- Settings without credentials that are empty texts. -/
def withoutEmptyCredentials (settings : Settings) : Settings :=
  { settings with userName := nonEmpty? settings.userName, apiKey := nonEmpty? settings.apiKey }

/-- Empty texts are as good as none as credentials. -/
theorem credentials?_nonEmpty? (url : Text) (userName apiKey : Option Text) :
    (Session.mk url (nonEmpty? userName) (nonEmpty? apiKey)).credentials? =
      (Session.mk url userName apiKey).credentials? := by
  match userName, apiKey with
  | some (c :: s), some (d :: t) => rfl
  | some (c :: s), some [] => simp [Session.credentials?, nonEmpty?, Text.isBlank]
  | some (c :: s), none => rfl
  | some [], some _ => simp [Session.credentials?, nonEmpty?, Text.isBlank]
  | some [], none => rfl
  | none, _ => rfl

/-! ## Outcomes -/

/-- Two outcomes come to the same: the same refusal, or settings with the same URL and the same header fields
for every request, with which a session sends the same requests, whatever is asked of it. The header fields of
a request belong to it, the one that says who asks included. -/
inductive ComeToSame : Except SettingsError Settings → Except SettingsError Settings → Prop
  | refused (e : SettingsError) : ComeToSame (.error e) (.error e)
  | passed {a b : Settings} (hurl : a.apiUrl = b.apiUrl) (hheaders : a.headers = b.headers)
      (hrequests : ∀ (calls : List Call) (w : World),
        posts (Call.worldAfter a.session calls w).trace =
          posts (Call.worldAfter b.session calls w).trace) :
      ComeToSame (.ok a) (.ok b)

/-- Settings come to the same without empty credentials. -/
theorem comeToSame_withoutEmptyCredentials (x : Except SettingsError Settings) :
    ComeToSame x (x.map withoutEmptyCredentials) := by
  cases x with
  | error e => exact .refused e
  | ok settings =>
      have hcredentials : settings.session.credentials? =
          settings.withoutEmptyCredentials.session.credentials? :=
        (credentials?_nonEmpty? _ settings.userName settings.apiKey).symm
      have hsteps : StepsRelated (fun x y => x = y) settings.session
          settings.withoutEmptyCredentials.session := .of_session rfl hcredentials
      refine .passed rfl rfl fun calls w => ?_
      rw [Call.worldAfter_congr hsteps]

/-- Choosing the URL is never refused because of the base path. -/
theorem chooseUrl_ne_basePathOpen (apiUrl domain basePath : Option Text) :
    chooseUrl apiUrl domain basePath ≠ .error (.refused .basePathOpen) := by
  unfold chooseUrl
  split
  · exact nofun
  · split <;> exact nofun

/-- The check of a URL never complains about the base path. -/
theorem checkUrl_ne_basePathOpen (s : Text) : checkUrl s ≠ .error (.refused .basePathOpen) := by
  unfold checkUrl
  split
  · exact nofun
  · split_ifs <;> exact nofun

variable {given : GivenSettings}

/-- Unless the base path in effect is an empty text, nothing is made of empty variables but empty
credentials. -/
theorem resolve_withoutEmpty
    (hpath : effective env (text "CONFLUENCE_PATH") given.basePath ≠ some []) :
    resolve (withoutEmpty env) given = (resolve env given).map withoutEmptyCredentials := by
  have hbase : nonEmpty? (effective env (text "CONFLUENCE_PATH") given.basePath) =
      effective env (text "CONFLUENCE_PATH") given.basePath := by
    match hbasePath : effective env (text "CONFLUENCE_PATH") given.basePath with
    | some (c :: s) => rfl
    | some [] => exact absurd hbasePath hpath
    | none => rfl
  unfold resolve
  rw [effective_withoutEmpty (by simp [variableNames]), effective_withoutEmpty (by simp [variableNames]),
    effective_withoutEmpty (by simp [variableNames]), effective_withoutEmpty (by simp [variableNames]),
    effective_withoutEmpty (by simp [variableNames])]
  dsimp only
  rw [chooseUrl_nonEmpty?, checkDomain_nonEmpty?, hbase]
  cases (effective env (text "CONFLUENCE_DOMAIN") given.domain).forM checkDomain with
  | error e => rfl
  | ok _ =>
      cases (effective env (text "CONFLUENCE_PATH") given.basePath).forM checkBasePath with
      | error e => rfl
      | ok _ =>
          cases chooseUrl (effective env (text "CONFLUENCE_API_URL") given.apiUrl)
              (effective env (text "CONFLUENCE_DOMAIN") given.domain)
              (effective env (text "CONFLUENCE_PATH") given.basePath) with
          | error e => rfl
          | ok u =>
              dsimp only [bind, Except.bind]
              cases checkUrl u <;> rfl

/-- The domain in effect, if there is one, passes its check. -/
def DomainPasses (env : Environment) (given : GivenSettings) : Prop :=
  ∀ d, effective env (text "CONFLUENCE_DOMAIN") given.domain = some d → checkDomain d = .ok ()

/-- The domain in effect passes just if its check does. -/
theorem domainPasses_iff :
    DomainPasses env given ↔
      (effective env (text "CONFLUENCE_DOMAIN") given.domain).forM checkDomain = .ok () := by
  unfold DomainPasses
  cases effective env (text "CONFLUENCE_DOMAIN") given.domain with
  | none => simp [Option.forM, pure, Except.pure]
  | some d => simp [Option.forM]

/-- Empty variables make no difference to whether the domain passes. -/
theorem domainPasses_withoutEmpty :
    DomainPasses (withoutEmpty env) given ↔ DomainPasses env given := by
  rw [domainPasses_iff, domainPasses_iff, effective_withoutEmpty (by simp [variableNames]), checkDomain_nonEmpty?]

/-- A domain that does not pass is refused before anything else is looked at. -/
theorem resolve_of_not_domainPasses (h : ¬ DomainPasses env given) :
    resolve env given = .error (.refused .domainIsUrl) := by
  simp only [DomainPasses, not_forall] at h
  obtain ⟨d, hdomain, hfails⟩ := h
  have hrefused : (some d).forM checkDomain = .error (.refused .domainIsUrl) := by
    change checkDomain d = _
    unfold checkDomain at hfails ⊢
    split at hfails
    · next hurl => exact if_pos hurl
    · exact absurd rfl hfails
  unfold resolve
  dsimp only
  rw [hdomain, hrefused]
  rfl

/-- The check of a base path passes or has one complaint. -/
theorem checkBasePath_cases (b : Text) :
    checkBasePath b = .ok () ∨ checkBasePath b = .error (.refused .basePathOpen) := by
  unfold checkBasePath
  split
  · exact .inl rfl
  · exact .inr rfl

/-- What is done after the base path has been checked does not refuse it. -/
theorem checkChosen_ne_basePathOpen (apiUrl domain basePath : Option Text) (keep : Text → Settings) :
    (do
      let chosen ← chooseUrl apiUrl domain basePath
      let url ← checkUrl chosen
      return keep url) ≠ .error (.refused .basePathOpen) := by
  cases hchosen : chooseUrl apiUrl domain basePath with
  | error e =>
      rintro ⟨⟩
      exact chooseUrl_ne_basePathOpen apiUrl domain basePath hchosen
  | ok chosen =>
      change (checkUrl chosen >>= fun url => pure (keep url)) ≠ _
      cases hchecked : checkUrl chosen with
      | error e =>
          rintro ⟨⟩
          exact checkUrl_ne_basePathOpen chosen hchecked
      | ok url => exact nofun

/-- The base path is refused just if the domain passes and the base path in effect does not. -/
theorem resolve_eq_basePathOpen_iff :
    resolve env given = .error (.refused .basePathOpen) ↔
      DomainPasses env given ∧
        ∃ b, effective env (text "CONFLUENCE_PATH") given.basePath = some b ∧ checkBasePath b ≠ .ok () := by
  by_cases hdomain : DomainPasses env given
  · unfold resolve
    dsimp only
    rw [domainPasses_iff.mp hdomain]
    have hrest := checkChosen_ne_basePathOpen
      (effective env (text "CONFLUENCE_API_URL") given.apiUrl)
      (effective env (text "CONFLUENCE_DOMAIN") given.domain)
    cases hbase : effective env (text "CONFLUENCE_PATH") given.basePath with
    | none => exact iff_of_false (hrest none _) (by simp)
    | some b =>
        rcases checkBasePath_cases b with hpasses | hfails
        · have hchecked : (some b).forM checkBasePath = .ok () := hpasses
          rw [hchecked]
          exact iff_of_false (hrest (some b) _) (by simp [hpasses])
        · have hchecked : (some b).forM checkBasePath = .error (.refused .basePathOpen) := hfails
          rw [hchecked]
          exact iff_of_true rfl ⟨hdomain, b, rfl, by simp [hfails]⟩
  · rw [resolve_of_not_domainPasses hdomain]
    simp [hdomain]

/-- Without its empty variables an environment leads to the same, except that a base path that is not given,
and whose variable is set to the empty text, is no longer refused. -/
theorem empty_variables_count_as_unset_iff (env : Environment) (given : GivenSettings) :
    ComeToSame (resolve env given) (resolve (withoutEmpty env) given) ↔
      ¬ (given.basePath.getD [] = [] ∧ lookup? env (text "CONFLUENCE_PATH") = some [] ∧
        DomainPasses env given) := by
  by_cases hpath : effective env (text "CONFLUENCE_PATH") given.basePath = some []
  · obtain ⟨hgiven, hvariable⟩ := effective_eq_empty_iff.mp hpath
    by_cases hdomain : DomainPasses env given
    · have hrefused : resolve env given = .error (.refused .basePathOpen) :=
        resolve_eq_basePathOpen_iff.mpr ⟨hdomain, [], hpath, by decide⟩
      have hunset : effective (withoutEmpty env) (text "CONFLUENCE_PATH") given.basePath = none := by
        rw [effective_withoutEmpty (by simp [variableNames]), hpath]
        rfl
      refine ⟨fun hsame => ?_, fun hnot => absurd ⟨hgiven, hvariable, hdomain⟩ hnot⟩
      rw [hrefused] at hsame
      cases hwithout : resolve (withoutEmpty env) given with
      | ok settings =>
          rw [hwithout] at hsame
          cases hsame
      | error e =>
          rw [hwithout] at hsame
          cases hsame
          obtain ⟨-, b, hbase, -⟩ := resolve_eq_basePathOpen_iff.mp hwithout
          rw [hunset] at hbase
          cases hbase
    · have hdomain' := mt domainPasses_withoutEmpty.mp hdomain
      rw [resolve_of_not_domainPasses hdomain, resolve_of_not_domainPasses hdomain']
      exact ⟨fun _ hboth => hdomain hboth.2.2, fun _ => .refused _⟩
  · rw [resolve_withoutEmpty hpath]
    refine ⟨fun _ hboth => hpath ?_, fun _ => comeToSame_withoutEmptyCredentials _⟩
    exact effective_eq_empty_iff.mpr ⟨hboth.1, hboth.2.1⟩

/-- A domain alone is enough, unless the variable for the base path is set to the empty text. -/
theorem empty_path_is_refused :
    resolve [(text "CONFLUENCE_DOMAIN", text "wiki"), (text "CONFLUENCE_PATH", [])] .nothing =
        .error (.refused .basePathOpen) ∧
      resolve (withoutEmpty [(text "CONFLUENCE_DOMAIN", text "wiki"), (text "CONFLUENCE_PATH", [])])
          .nothing = .ok ⟨text "https://wiki/wiki/rest/api", none, none, none⟩ ∧
      ¬ ComeToSame
        (resolve [(text "CONFLUENCE_DOMAIN", text "wiki"), (text "CONFLUENCE_PATH", [])] .nothing)
        (resolve (withoutEmpty [(text "CONFLUENCE_DOMAIN", text "wiki"), (text "CONFLUENCE_PATH", [])])
          .nothing) := by
  have hrefused :
      resolve [(text "CONFLUENCE_DOMAIN", text "wiki"), (text "CONFLUENCE_PATH", [])] .nothing =
        .error (.refused .basePathOpen) := by decide +kernel
  have hunset :
      resolve (withoutEmpty [(text "CONFLUENCE_DOMAIN", text "wiki"), (text "CONFLUENCE_PATH", [])])
        .nothing = .ok ⟨text "https://wiki/wiki/rest/api", none, none, none⟩ := by decide +kernel
  refine ⟨hrefused, hunset, ?_⟩
  rw [hrefused, hunset]
  exact nofun

end Settings

end PageTree
