import PageTree.Url

/-!
# Settings

Where the server is and who asks. A setting that is not given, or given as an empty text, is taken from the
environment. Without the URL of an interface the URL is made from a domain and a base path.

The URL has to be absolute, for HTTP or HTTPS, and to end with its path, because further path segments are
added to it. It is kept without slashes at its end.
-/

set_option autoImplicit false

namespace PageTree

/-- Header fields, a name and a value each. -/
abbrev Headers := List (Text × Text)

/-- The environment: variables and their values. -/
abbrev Environment := List (Text × Text)

/-- Settings as they are given. -/
structure GivenSettings where
  apiUrl : Option Text
  domain : Option Text
  basePath : Option Text
  userName : Option Text
  apiKey : Option Text
  headers : Option Headers

/-- Nothing given. -/
def GivenSettings.nothing : GivenSettings := ⟨none, none, none, none, none, none⟩

/-- Settings as they are used. -/
structure Settings where
  apiUrl : Text
  userName : Option Text
  apiKey : Option Text
  headers : Option Headers
deriving DecidableEq

/-- Why settings are refused. -/
inductive SettingsFault
  | domainIsUrl
  | basePathOpen
  | serverMissing
  | urlNotAbsolute
  | urlWithParams
  | urlWithQuery
  | urlWithFragment
deriving DecidableEq

/-- The message of a refusal. -/
def SettingsFault.message : SettingsFault → Text
  | .domainIsUrl => text "Confluence domain looks like a URL; only host name required"
  | .basePathOpen => text "Confluence base path must start and end with a '/'"
  | .serverMissing => text "Confluence API URL or domain required"
  | .urlNotAbsolute => text "Confluence API URL must be an absolute HTTP or HTTPS URL"
  | .urlWithParams => text "expected: Confluence API URL with no parameters"
  | .urlWithQuery => text "expected: Confluence API URL with no query string"
  | .urlWithFragment => text "expected: Confluence API URL with no fragment"

/-- Why there are no settings: they are refused, or the host part of the URL cannot be made out at all. -/
inductive SettingsError
  | refused (fault : SettingsFault)
  | hostMalformed
deriving DecidableEq

namespace Settings

/-- The value of a variable. -/
def lookup? (env : Environment) (name : Text) : Option Text :=
  (env.find? (·.1 == name)).map (·.2)

/-- A setting that is given and not empty, or else the variable of a name. -/
def effective (env : Environment) (name : Text) (given : Option Text) : Option Text :=
  match given with
  | some (c :: s) => some (c :: s)
  | _ => lookup? env name

/-- A domain is the name of a host. -/
def checkDomain (domain : Text) : Except SettingsError Unit :=
  if (text "http://").isPrefixOf domain || (text "https://").isPrefixOf domain ||
      (text "/").isSuffixOf domain then
    .error (.refused .domainIsUrl)
  else .ok ()

/-- A base path has slashes at both ends. -/
def checkBasePath (path : Text) : Except SettingsError Unit :=
  if (text "/").isPrefixOf path && (text "/").isSuffixOf path then .ok ()
  else .error (.refused .basePathOpen)

/-- The URL as it is kept. -/
def checkUrl (s : Text) : Except SettingsError Text :=
  match Url.parse? s with
  | none => .error .hostMalformed
  | some url =>
    if (url.scheme ≠ text "http" ∧ url.scheme ≠ text "https") ∨ url.host = [] then
      .error (.refused .urlNotAbsolute)
    else if url.params ≠ [] then .error (.refused .urlWithParams)
    else if url.query ≠ [] then .error (.refused .urlWithQuery)
    else if url.fragment ≠ [] then .error (.refused .urlWithFragment)
    else .ok (Text.dropTrailing '/' s)

/-- The base path when none is given. -/
def defaultBasePath : Text := text "/wiki/"

/-- The URL made from a domain and a base path. An empty base path counts as none. -/
def derivedUrl (domain : Text) (basePath : Option Text) : Text :=
  text "https://" ++ domain ++
    (match basePath with
      | some (c :: s) => c :: s
      | _ => defaultBasePath) ++
    text "rest/api"

/-- The URL to use, given or derived, before it is checked. -/
def chooseUrl (apiUrl domain basePath : Option Text) : Except SettingsError Text :=
  match apiUrl with
  | some (c :: s) => .ok (c :: s)
  | _ =>
    match domain with
    | some (c :: s) => .ok (derivedUrl (c :: s) basePath)
    | _ => .error (.refused .serverMissing)

/-- The settings that result from what is given and the environment. -/
def resolve (env : Environment) (given : GivenSettings) : Except SettingsError Settings := do
  let apiUrl := effective env (text "CONFLUENCE_API_URL") given.apiUrl
  let domain := effective env (text "CONFLUENCE_DOMAIN") given.domain
  domain.forM checkDomain
  let basePath := effective env (text "CONFLUENCE_PATH") given.basePath
  basePath.forM checkBasePath
  let chosen ← chooseUrl apiUrl domain basePath
  let url ← checkUrl chosen
  return {
    apiUrl := url
    userName := effective env (text "CONFLUENCE_USER_NAME") given.userName
    apiKey := effective env (text "CONFLUENCE_API_KEY") given.apiKey
    headers := given.headers }

end Settings

end PageTree
