import PageTree.Proofs.Session
import PageTree.Proofs.Json.RoundTrip

/-!
# What a request for a page says

The payload of a request for a page is a JSON text. `Post.member?` decodes it and looks up a member, in the
strict dialect, and so says what the server is told without any word about how it is written.

`pagePost_carries` and `pagePost_ancestors?` read off a request what it was made from. `pagePost_of_plain`
says when there is a request: the texts in it hold no surrogate, and the credentials have a form.
-/

set_option autoImplicit false

namespace PageTree

namespace Post

/-- A member of the payload of a request for a page. -/
def member? (name : Text) : Post → Option Value
  | .page _ _ payload =>
    match Json.read? Json.strict payload with
    | some (.object members) => Members.find? name members
    | _ => none
  | .attachment .. => none

/-- The ancestors that a request for a page names, if it names any. -/
def ancestors? (post : Post) : Option Value := post.member? (text "ancestors")

/-- A request says that it creates a page with a title and a content in a space. -/
structure Carries (spaceKey title content : Text) (post : Post) : Prop where
  contentType : post.member? (text "type") = some (.str (text "page"))
  title : post.member? (text "title") = some (.str title)
  space : post.member? (text "space") = some (.object [(text "key", .str spaceKey)])
  body : post.member? (text "body") = some (.object [(text "storage", .object
    [(text "value", .str content), (text "representation", .str (text "storage"))])])

end Post

/-- The list of ancestors that holds one page. -/
def onlyAncestor (id : Text) : Value := .array [.object [(text "id", .str id)]]

/-- The ancestors to name for a page under another one, if there is another one that is not blank. -/
def ancestorsBelow : Option Text → Option Value
  | some id => if Text.isBlank id then none else some (onlyAncestor id)
  | none => none

/-- The members of a request for a page that every one of them has. -/
def commonMembers (spaceKey title content : Text) : Members :=
  [(text "type", .str (text "page")), (text "title", .str title),
    (text "space", .object [(text "key", .str spaceKey)]),
    (text "body", .object [(text "storage", .object
      [(text "value", .str content), (text "representation", .str (text "storage"))])])]

/-- The member that names the page above, unless there is none or it is blank. -/
def ancestorMembers : Option Text → Members
  | some id => if Text.isBlank id then [] else [(text "ancestors", onlyAncestor id)]
  | none => []

variable {spaceKey title content : Text} {parentId : Option Text}

/-- There is no member for the ancestors, or one that names the page above alone. -/
theorem ancestorMembers_cases (parentId : Option Text) :
    ancestorMembers parentId = [] ∨
      ∃ id, parentId = some id ∧ ancestorMembers parentId = [(text "ancestors", onlyAncestor id)] := by
  cases parentId with
  | none => exact .inl rfl
  | some id =>
      dsimp only [ancestorMembers]
      split
      · exact .inl rfl
      · exact .inr ⟨id, rfl, rfl⟩

/-- The value of a request has the members that every request has, and behind them the one for the
ancestors. -/
theorem toValue_pageRequest :
    (pageRequest spaceKey title content parentId).toValue =
      .object (commonMembers spaceKey title content ++ ancestorMembers parentId) := by
  cases parentId with
  | none => rfl
  | some id =>
      unfold pageRequest
      dsimp only [ancestorMembers]
      split <;> rfl

/-- A request for a page is faithful: it holds no numbers and no key twice. -/
theorem faithful_pageRequest :
    Json.Faithful (pageRequest spaceKey title content parentId).toValue := by
  rw [toValue_pageRequest]
  obtain hmembers | ⟨id, -, hmembers⟩ := ancestorMembers_cases parentId <;> rw [hmembers]
  · simp only [commonMembers, List.append_nil, Json.Faithful, Json.FaithfulMembers, List.map_cons,
      List.map_nil, and_true, true_and]
    decide
  · simp only [commonMembers, onlyAncestor, List.cons_append, List.nil_append, Json.Faithful,
      Json.FaithfulMembers, Json.FaithfulItems, List.map_cons, List.map_nil, and_true, true_and]
    decide

/-- Nothing stands in the way of a request whose texts hold no surrogate. -/
theorem obstacle?_pageRequest (hspace : spaceKey.hasSurrogate = false)
    (htitle : title.hasSurrogate = false) (hcontent : content.hasSurrogate = false)
    (hparent : ∀ id, parentId = some id → id.hasSurrogate = false) :
    Json.obstacle? Json.maxNesting (pageRequest spaceKey title content parentId).toValue = none := by
  rw [toValue_pageRequest]
  obtain hmembers | ⟨id, hid, hmembers⟩ := ancestorMembers_cases parentId <;> rw [hmembers]
  · simp [Json.maxNesting, commonMembers, Json.obstacle?, Json.memberObstacle?, Json.textObstacle?,
      Text.hasSurrogate_text, hspace, htitle, hcontent]
  · simp [Json.maxNesting, commonMembers, onlyAncestor, Json.obstacle?, Json.memberObstacle?,
      Json.itemObstacle?, Json.textObstacle?, Text.hasSurrogate_text, hspace, htitle, hcontent,
      hparent id hid]

namespace Session

variable {s : Session} {post : Post}

/-- The payload of a request is read as what it was made from. -/
theorem member?_of_pagePost (h : s.pagePost spaceKey title content parentId = .ok post)
    (name : Text) :
    post.member? name =
      Members.find? name (commonMembers spaceKey title content ++ ancestorMembers parentId) := by
  obtain ⟨hplain, fields, -, rfl⟩ := pagePost_eq_ok.mp h
  have hread := Json.read?_write Json.strict faithful_pageRequest hplain
  unfold Post.member?
  dsimp only
  rw [hread, toValue_pageRequest]

/-- The request for a page carries the space, the title and the content it was made from. -/
theorem pagePost_carries (h : s.pagePost spaceKey title content parentId = .ok post) :
    post.Carries spaceKey title content := by
  refine ⟨?_, ?_, ?_, ?_⟩ <;> rw [member?_of_pagePost h] <;> rfl

/-- A request for a page names the page above it, unless there is none or its identifier is blank. -/
theorem pagePost_ancestors? (h : s.pagePost spaceKey title content parentId = .ok post) :
    post.ancestors? = ancestorsBelow parentId := by
  unfold Post.ancestors?
  rw [member?_of_pagePost h]
  cases parentId with
  | none => rfl
  | some id =>
      dsimp only [ancestorMembers, ancestorsBelow]
      split <;> rfl

/-- Credentials without surrogates have a form. -/
theorem authorizationFields_of_plain
    (h : ∀ user key, s.credentials? = some (user, key) →
      user.hasSurrogate = false ∧ key.hasSurrogate = false) :
    ∃ fields, s.authorizationFields = .ok fields := by
  unfold authorizationFields
  cases hcredentials : s.credentials? with
  | none => exact ⟨[], rfl⟩
  | some credentials =>
      obtain ⟨user, key⟩ := credentials
      obtain ⟨huser, hkey⟩ := h user key hcredentials
      have hplain : (user ++ text ":" ++ key).hasSurrogate = false := by
        simp [Text.hasSurrogate_append, Text.hasSurrogate_text, huser, hkey]
      dsimp only
      rw [basicAuthorization?, Utf8.encode?, if_neg (by rw [hplain]; decide)]
      exact ⟨_, rfl⟩

/-- There is a request for a page whose texts hold no surrogate. -/
theorem pagePost_of_plain {fields : Headers} (hfields : s.authorizationFields = .ok fields)
    (hspace : spaceKey.hasSurrogate = false) (htitle : title.hasSurrogate = false)
    (hcontent : content.hasSurrogate = false)
    (hparent : ∀ id, parentId = some id → id.hasSurrogate = false) :
    ∃ payload, s.pagePost spaceKey title content parentId =
      .ok (.page s.pagesUrl (pageHeaders ++ fields) payload) :=
  ⟨_, pagePost_eq_ok.mpr
    ⟨obstacle?_pageRequest hspace htitle hcontent hparent, fields, hfields, rfl⟩⟩

end Session

end PageTree
