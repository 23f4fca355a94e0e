import PageTree.Proofs.Foreseen
import PageTree.Proofs.SavedTree

/-!
# Requests for pages, read back

A request for a page is written as a JSON text and sent as UTF-8. `PageRequest.ofPayload` goes the other
way, and `PageRequest.shape_toValue` says that nothing of a request is lost: its value is read as the
request. `NewPage.create_sends_what_is_asked` follows from that. The body that is sent is read as the request
for exactly the page that was asked for, so two calls that send the same body have asked for the same page.
-/

set_option autoImplicit false

namespace PageTree

/-! ## Reading what was written -/

namespace Shape

variable {α : Type} {name : Text} {members : Members} {shape : Shape α} {v : Value} {a : α}

/-- A required field that is there is read as what its value is read as. -/
theorem required_of_find? (hfind : Members.find? name members = some v) (hshape : shape v = .ok a) :
    required name shape (.object members) = .ok a :=
  required_eq_ok.mpr ⟨v, hfind, hshape⟩

/-- Values that were written are read as what they were written for. -/
theorem elements_map {toValue : α → Value} (h : ∀ a, shape (toValue a) = .ok a) (l : List α) :
    elements shape (l.map toValue) = .ok l := by
  induction l with
  | nil => rfl
  | cons a rest ih => exact elements_cons_eq_ok.mpr ⟨a, rest, h a, ih, rfl⟩

/-- A list that is left out when nothing is in it is read as the list. -/
theorem optional_list_filter {toValue : α → Value} (h : ∀ a, shape (toValue a) = .ok a) {l : List α}
    (hfind : Members.find? name members =
      (some (.array (l.map toValue))).filter fun v => !isDefault v) :
    optional name [] (list shape) (.object members) = .ok l := by
  rw [optional_object, Collected.under_eq_ok, hfind]
  cases l with
  | nil => rfl
  | cons a rest => exact elements_map h (a :: rest)

end Shape

/-- The value of a space is read as the space. -/
theorem Space.shape_toValue (s : Space) : Space.shape s.toValue = .ok s :=
  Collected.toRecord_eq_ok.mpr ⟨s.key, Shape.required_of_find? rfl rfl, rfl⟩

/-- The value of an ancestor is read as the ancestor. -/
theorem Ancestor.shape_toValue (a : Ancestor) : Ancestor.shape a.toValue = .ok a :=
  Collected.toRecord_eq_ok.mpr ⟨a.id, Shape.required_of_find? rfl rfl, rfl⟩

/-- The name of a type of content is read as the type. -/
theorem ContentType.shape_toText (c : ContentType) : ContentType.shape (.str c.toText) = .ok c := by
  cases c
  rfl

/-- The name of a representation is read as the representation. -/
theorem Representation.shape_toText (r : Representation) :
    Representation.shape (.str r.toText) = .ok r := by
  cases r
  rfl

/-- The value of a stored text is read as the stored text. -/
theorem Storage.shape_toValue (s : Storage) : Storage.shape s.toValue = .ok s := by
  refine Collected.toRecord_eq_ok.mpr ⟨(s.value, s.representation), ?_, rfl⟩
  exact Collected.both_eq_ok.mpr ⟨Shape.required_of_find? rfl rfl,
    Shape.required_of_find? rfl (Representation.shape_toText s.representation)⟩

/-- The value of a body is read as the body. -/
theorem Body.shape_toValue (b : Body) : Body.shape b.toValue = .ok b :=
  Collected.toRecord_eq_ok.mpr
    ⟨b.storage, Shape.required_of_find? rfl (Storage.shape_toValue b.storage), rfl⟩

/-- The value of a request is read as the request. -/
theorem PageRequest.shape_toValue (r : PageRequest) : PageRequest.shape r.toValue = .ok r := by
  obtain ⟨contentType, title, space, body, ancestors⟩ := r
  have hnodup : [text "type", text "title", text "space", text "body", text "ancestors"].Nodup := by
    decide
  have hfind := find?_withoutDefaults [(text "type", .str contentType.toText),
    (text "title", .str title), (text "space", space.toValue), (text "body", body.toValue),
    (text "ancestors", .array (ancestors.map Ancestor.toValue))] hnodup
  refine (Shape.searched_object _).trans
    (Collected.toRecord_eq_ok.mpr ⟨(contentType, title, space, body, ancestors), ?_, rfl⟩)
  simp only [Collected.both_eq_ok]
  refine ⟨?_, ?_, ?_, ?_, ?_⟩
  · exact Shape.required_of_find? (hfind _) contentType.shape_toText
  · exact Shape.required_of_find? (hfind _) rfl
  · exact Shape.required_of_find? (hfind _) space.shape_toValue
  · exact Shape.required_of_find? (hfind _) body.shape_toValue
  · exact Shape.optional_list_filter Ancestor.shape_toValue (hfind _)

/-- The request that a JSON text in UTF-8 describes. -/
def PageRequest.ofPayload (b : Bytes) : Except Cause PageRequest :=
  match (Utf8.decode? b).bind (Json.read? Json.strict) with
  | some v => (PageRequest.shape v).mapError .mismatch
  | none => .error .json

/-! ## What is asked for -/

/-- What is asked for when a page is to be created. -/
structure NewPage where
  spaceKey : Text
  title : Text
  content : Text
  parentId : Option Text
deriving DecidableEq

namespace NewPage

variable (n : NewPage)

/-- Creating the page in a session. -/
def create (s : Session) : Run Text := s.createPage n.spaceKey n.title n.content n.parentId

/-- No surrogate stands in what is asked for. -/
def IsPlain : Prop :=
  ∀ t ∈ n.spaceKey :: n.title :: n.content :: n.parentId.toList, t.hasSurrogate = false

instance : Decidable n.IsPlain := inferInstanceAs (Decidable (∀ t ∈ _, _))

/-- The page to name above the new one: the given one, if there is more than blanks to its identifier. -/
def above? : Option Text := n.parentId.filter fun id => id.any fun c => !c.isBlank

/-- The request for the page and for nothing else. -/
def request : PageRequest :=
  ⟨.page, n.title, ⟨n.spaceKey⟩, ⟨⟨n.content, .storage⟩⟩, n.above?.toList.map .mk⟩

/-- A body asks for the page: read as UTF-8 and as JSON it is the request for the page, and it has a member
for the ancestors just if there is a page to name above. -/
structure IsAskedBy (body : Text) : Prop where
  read : ∃ b, Utf8.encode? body = some b ∧ PageRequest.ofPayload b = .ok n.request
  ancestors : ∃ members, Json.read? Json.strict body = some (.object members) ∧
    Members.find? (text "ancestors") members = n.above?.map onlyAncestor

variable {n : NewPage}

/-- What is asked for is plain just if none of its four texts holds a surrogate. -/
theorem isPlain_iff :
    n.IsPlain ↔ n.spaceKey.hasSurrogate = false ∧ n.title.hasSurrogate = false ∧
      n.content.hasSurrogate = false ∧ ∀ id, n.parentId = some id → id.hasSurrogate = false := by
  simp [IsPlain]

/-- A blank is no surrogate, so a page above that has a surrogate in its identifier is named. -/
theorem hasSurrogate_of_isBlank {t : Text} (h : Text.isBlank t = true) : t.hasSurrogate = false := by
  rw [Text.hasSurrogate, List.any_eq_false]
  intro c hc
  have hblank : c.isBlank = true := List.all_eq_true.mp h c hc
  simp only [CodePoint.isBlank, CodePoint.isSurrogate, Bool.or_eq_true, Bool.and_eq_true,
    decide_eq_true_eq, beq_iff_eq] at hblank ⊢
  omega

/-- Without a page above, none is named. -/
theorem above?_of_none (h : n.parentId = none) : n.above? = none := by
  rw [above?, h]
  rfl

/-- A page above is named unless its identifier is blank. -/
theorem above?_of_some {id : Text} (h : n.parentId = some id) :
    n.above? = if Text.isBlank id then none else some id := by
  rw [above?, h, Option.filter_some, ← List.not_all_eq_any_not]
  unfold Text.isBlank
  cases id.all CodePoint.isBlank <;> rfl

/-- The request that a session makes is the request for the page and for nothing else. -/
theorem pageRequest_eq_request (n : NewPage) :
    pageRequest n.spaceKey n.title n.content n.parentId = n.request := by
  unfold pageRequest request
  cases hparent : n.parentId with
  | none =>
      rw [above?_of_none hparent]
      rfl
  | some id =>
      rw [above?_of_some hparent]
      dsimp only
      split <;> rfl

/-- The member for the ancestors is there just if there is a page to name above. -/
theorem ancestorMembers_parentId (n : NewPage) :
    ancestorMembers n.parentId = (n.above?.map fun id => (text "ancestors", onlyAncestor id)).toList := by
  cases hparent : n.parentId with
  | none =>
      rw [above?_of_none hparent]
      rfl
  | some id =>
      rw [above?_of_some hparent]
      dsimp only [ancestorMembers]
      split <;> rfl

/-- The value of a request has the members that every request has, and behind them the one for the
ancestors. -/
theorem toValue_request (n : NewPage) :
    n.request.toValue = .object (commonMembers n.spaceKey n.title n.content ++
      (n.above?.map fun id => (text "ancestors", onlyAncestor id)).toList) := by
  rw [← pageRequest_eq_request, toValue_pageRequest, ancestorMembers_parentId]

/-- What stands in the way of a request stands in one of its texts. -/
theorem obstacle?_request (n : NewPage) :
    Json.obstacle? Json.maxNesting n.request.toValue =
      (Json.textObstacle? n.title).or ((Json.textObstacle? n.spaceKey).or
        ((Json.textObstacle? n.content).or (n.above?.bind Json.textObstacle?))) := by
  have hliteral : ∀ s, Json.textObstacle? (text s) = none := fun s =>
    Json.textObstacle?_eq_none.mpr (Text.hasSurrogate_text s)
  rw [toValue_request]
  cases n.above? <;>
    simp [Json.maxNesting, commonMembers, onlyAncestor, Json.obstacle?, Json.memberObstacle?,
      Json.itemObstacle?, hliteral]

/-- If a surrogate stands in what is asked for, it stands in the way of the request. -/
theorem obstacle?_of_not_isPlain (h : ¬ n.IsPlain) :
    Json.obstacle? Json.maxNesting n.request.toValue = some .loneSurrogate := by
  have hparent : n.above?.bind Json.textObstacle? = none →
      ∀ id, n.parentId = some id → id.hasSurrogate = false := by
    intro hnone id hid
    rw [above?_of_some hid] at hnone
    cases hblank : Text.isBlank id with
    | true => exact hasSurrogate_of_isBlank hblank
    | false => simpa [hblank, Json.textObstacle?_eq_none] using hnone
  have hsome : Json.obstacle? Json.maxNesting n.request.toValue ≠ none := by
    rw [obstacle?_request]
    intro hnone
    simp only [Option.or_eq_none_iff, Json.textObstacle?_eq_none] at hnone
    obtain ⟨htitle, hspace, hcontent, habove⟩ := hnone
    exact h (isPlain_iff.mpr ⟨hspace, htitle, hcontent, hparent habove⟩)
  have hkind : ∀ s o, Json.textObstacle? s = some o → o = .loneSurrogate := by
    intro s o ho
    unfold Json.textObstacle? at ho
    split at ho
    · exact (Option.some.inj ho).symm
    · cases ho
  obtain ⟨o, ho⟩ := Option.ne_none_iff_exists'.mp hsome
  rw [ho]
  rw [obstacle?_request] at ho
  simp only [Option.or_eq_some_iff, Option.bind_eq_some_iff] at ho
  rcases ho with ho | ⟨-, ho | ⟨-, ho | ⟨-, id, -, ho⟩⟩⟩ <;> rw [hkind _ o ho]

/-- Nothing stands in the way of a request for what is plain. -/
theorem obstacle?_of_isPlain (h : n.IsPlain) : Json.obstacle? Json.maxNesting n.request.toValue = none := by
  obtain ⟨hspace, htitle, hcontent, hparent⟩ := isPlain_iff.mp h
  rw [← pageRequest_eq_request]
  exact obstacle?_pageRequest hspace htitle hcontent hparent

/-- The value of a request is faithful. -/
theorem faithful_request (n : NewPage) : Json.Faithful n.request.toValue := by
  rw [← pageRequest_eq_request]
  exact faithful_pageRequest

/-- The JSON form of a request asks for the page. -/
theorem isAskedBy_write (h : n.IsPlain) : n.IsAskedBy (Json.write n.request.toValue) := by
  have hplain := obstacle?_of_isPlain h
  constructor
  · obtain ⟨b, hencode, hread⟩ :=
      Json.decode?_encode?_write Json.strict (faithful_request n) hplain
    refine ⟨b, hencode, ?_⟩
    rw [PageRequest.ofPayload, hread]
    dsimp only
    rw [PageRequest.shape_toValue]
    rfl
  · have hread := Json.read?_write Json.strict (faithful_request n) hplain
    refine ⟨_, hread.trans (congrArg some (toValue_request n)), ?_⟩
    cases n.above? <;> rfl

/-- One body asks for one page only. -/
theorem request_eq_of_isAskedBy {n' : NewPage} {body : Text} (h : n.IsAskedBy body)
    (h' : n'.IsAskedBy body) : n.request = n'.request := by
  obtain ⟨b, hencode, hread⟩ := h.read
  obtain ⟨b', hencode', hread'⟩ := h'.read
  obtain rfl := Option.some.inj (hencode.symm.trans hencode')
  exact Except.ok.inj (hread.symm.trans hread')

/-- Requests are equal just if the same is asked for, where a blank identifier of the page above is as good
as none. -/
theorem request_eq_iff {n' : NewPage} :
    n.request = n'.request ↔ n.spaceKey = n'.spaceKey ∧ n.title = n'.title ∧ n.content = n'.content ∧
      (n.parentId = n'.parentId ∨ n.above? = none ∧ n'.above? = none) := by
  have hparents : n.above? = n'.above? ↔
      n.parentId = n'.parentId ∨ n.above? = none ∧ n'.above? = none := by
    constructor
    · intro h
      cases habove : n.above? with
      | none => exact .inr ⟨rfl, h.symm.trans habove⟩
      | some id =>
          have hfirst := (Option.filter_eq_some_iff.mp habove).1
          have hsecond := (Option.filter_eq_some_iff.mp (h.symm.trans habove)).1
          exact .inl (hfirst.trans hsecond.symm)
    · rintro (h | ⟨hfirst, hsecond⟩)
      · rw [above?, above?, h]
      · rw [hfirst, hsecond]
  have hancestors : n.above?.toList.map Ancestor.mk = n'.above?.toList.map Ancestor.mk ↔
      n.above? = n'.above? := by
    cases n.above? <;> cases n'.above? <;> simp
  rw [← hparents, ← hancestors]
  simp only [request, PageRequest.mk.injEq, Space.mk.injEq, Body.mk.injEq, Storage.mk.injEq, true_and,
    and_true]
  tauto

/-! ## What is sent -/

variable {s : Session}

/-- The request for a plain page is the JSON form of what is asked for, and lacks only the signature. -/
theorem pagePost_of_isPlain (h : n.IsPlain) :
    s.pagePost n.spaceKey n.title n.content n.parentId = s.authorizationFields.map fun fields =>
      .page s.pagesUrl (Session.pageHeaders ++ fields) (Json.write n.request.toValue) := by
  unfold Session.pagePost payload Json.print
  rw [pageRequest_eq_request, obstacle?_of_isPlain h]

/-- The request for a page with a surrogate in it is refused because of the surrogate. -/
theorem pagePost_of_not_isPlain (h : ¬ n.IsPlain) :
    s.pagePost n.spaceKey n.title n.content n.parentId =
      .error (.failure (.payloadRefused Session.pageRequestKind .loneSurrogate)) := by
  unfold Session.pagePost payload Json.print
  rw [pageRequest_eq_request, obstacle?_of_not_isPlain h]

/-- Where there is no request for a page, creating it sends nothing and ends with the fault. -/
theorem create_of_fault {fault : Fault}
    (h : s.pagePost n.spaceKey n.title n.content n.parentId = .error fault) (w : World) :
    (n.create s).sent w = [] ∧ (n.create s).fault? w = some fault := by
  have hperforms := s.createPage_performs n.spaceKey n.title n.content n.parentId w
  rw [h] at hperforms
  exact ⟨hperforms.sent_eq, Run.fault?_eq_some.mpr ⟨_, hperforms.last.2⟩⟩

/-- Where there is a request for a page, creating it sends this request and no other. -/
theorem create_of_post {post : Post}
    (h : s.pagePost n.spaceKey n.title n.content n.parentId = .ok post) (w : World) :
    (n.create s).sent w = [post] := by
  have hperforms := s.createPage_performs n.spaceKey n.title n.content n.parentId w
  rw [h] at hperforms
  exact hperforms.sent_eq

/-- What is sent is the request for the page, as it is written. -/
theorem eq_write_of_mem_sent {w : World} {url body : Text} {headers : Headers}
    (h : .page url headers body ∈ (n.create s).sent w) :
    n.IsPlain ∧ body = Json.write n.request.toValue := by
  by_cases hplain : n.IsPlain
  · refine ⟨hplain, ?_⟩
    have hpost := pagePost_of_isPlain (s := s) hplain
    cases hfields : s.authorizationFields with
    | error fault =>
        rw [hfields] at hpost
        rw [(create_of_fault hpost w).1] at h
        cases h
    | ok fields =>
        rw [hfields] at hpost
        rw [create_of_post hpost w] at h
        injection List.mem_singleton.mp h
  · rw [(create_of_fault (pagePost_of_not_isPlain hplain) w).1] at h
    cases h

/-- Creating a page sends a body that asks for exactly this page, whatever its texts and whatever happened
before; only credentials without a UTF-8 form keep it from being sent. If a surrogate stands in what is asked
for, there is no body, and nothing is sent. Two calls send the same body just if they ask for the same page,
where a page above with a blank identifier is as good as none. -/
theorem create_sends_what_is_asked (s : Session) (w : World) (n : NewPage) :
    (n.IsPlain → ∃ body, n.IsAskedBy body ∧
      (s.canSign = true → ∃ headers, (n.create s).sent w = [.page s.pagesUrl headers body]) ∧
      (s.canSign = false → (n.create s).sent w = [] ∧
        (n.create s).fault? w = some (.crash .credentials))) ∧
    (¬ n.IsPlain → (n.create s).sent w = [] ∧
      (n.create s).fault? w = some (.failure (.payloadRefused Session.pageRequestKind .loneSurrogate))) ∧
    ∀ (s' : Session) (w' : World) (n' : NewPage) (url url' body body' : Text)
      (headers headers' : Headers), .page url headers body ∈ (n.create s).sent w →
      .page url' headers' body' ∈ (n'.create s').sent w' →
      (body = body' ↔ n.spaceKey = n'.spaceKey ∧ n.title = n'.title ∧ n.content = n'.content ∧
        (n.parentId = n'.parentId ∨ n.above? = none ∧ n'.above? = none)) := by
  refine ⟨fun hplain => ?_, fun hplain => create_of_fault (pagePost_of_not_isPlain hplain) w, ?_⟩
  · refine ⟨_, isAskedBy_write hplain, ?_⟩
    have hpost := pagePost_of_isPlain (s := s) hplain
    rcases s.authorizationFields_cases with ⟨hsign, fields, hfields⟩ | ⟨hsign, hfields⟩
    · rw [hfields] at hpost
      rw [hsign]
      exact ⟨fun _ => ⟨_, create_of_post hpost w⟩, nofun⟩
    · rw [hfields] at hpost
      rw [hsign]
      exact ⟨nofun, fun _ => create_of_fault hpost w⟩
  · intro s' w' n' url url' body body' headers headers' hsent hsent'
    obtain ⟨hplain, rfl⟩ := eq_write_of_mem_sent hsent
    obtain ⟨hplain', rfl⟩ := eq_write_of_mem_sent hsent'
    rw [← request_eq_iff]
    constructor
    · intro hbody
      exact request_eq_of_isAskedBy (isAskedBy_write hplain) (hbody ▸ isAskedBy_write hplain')
    · intro hrequest
      rw [hrequest]

/-- A page with marks, backslashes, control codes and what looks like another member in its texts. -/
def oddPage (parentId : Option Text) : NewPage :=
  ⟨text "S\"", text "A\", \"ancestors\": []\\", text "<p>\x00\n😀</p>", parentId⟩

/-- A page with a surrogate in its title. -/
def brokenPage : NewPage := ⟨text "S", [⟨0xD800, by decide⟩], [], none⟩

/-- A session with a user and a key. -/
def keyedSession : Session := ⟨text "http://wiki", some (text "u"), some (text "k")⟩

/-- A world without files, whose server gives its usual replies. -/
def quietWorld : World := .start (.empty (.ofText (text "/w"))) []

/-- The odd page is sent, and a blank page above makes no difference to its body. The broken page is not
sent. -/
theorem odd_page_is_sent :
    (oddPage none).IsPlain ∧ (oddPage (some (text "\t"))).IsPlain ∧ ¬ brokenPage.IsPlain ∧
      keyedSession.canSign = true ∧
    ∃ body headers, (oddPage none).IsAskedBy body ∧
      ((oddPage none).create keyedSession).sent quietWorld =
        [.page (text "http://wiki/content") headers body] ∧
      (∃ headers', ((oddPage (some (text "\t"))).create keyedSession).sent quietWorld =
        [.page (text "http://wiki/content") headers' body]) ∧
      (brokenPage.create keyedSession).sent quietWorld = [] := by
  have hnone : (oddPage none).IsPlain := by decide
  have hblank : (oddPage (some (text "\t"))).IsPlain := by decide
  have hbroken : ¬ brokenPage.IsPlain := by decide
  have hsign : keyedSession.canSign = true := by decide
  obtain ⟨hsends, -, hpair⟩ := create_sends_what_is_asked keyedSession quietWorld (oddPage none)
  obtain ⟨body, hasked, hsent, -⟩ := hsends hnone
  obtain ⟨headers, hsent⟩ := hsent hsign
  obtain ⟨body', -, hsent', -⟩ :=
    (create_sends_what_is_asked keyedSession quietWorld (oddPage (some (text "\t")))).1 hblank
  obtain ⟨headers', hsent'⟩ := hsent' hsign
  have hbody : body = body' :=
    (hpair _ _ _ _ _ _ _ _ _ (hsent ▸ List.mem_singleton_self _)
      (hsent' ▸ List.mem_singleton_self _)).mpr ⟨rfl, rfl, rfl, .inr ⟨rfl, by decide⟩⟩
  have hnothing := ((create_sends_what_is_asked keyedSession quietWorld brokenPage).2.1 hbroken).1
  exact ⟨hnone, hblank, hbroken, hsign, body, headers, hasked, hsent, ⟨headers', hbody ▸ hsent'⟩, hnothing⟩

/-- A session with a key whose user name has a surrogate in it. -/
def unsignableSession : Session := ⟨text "http://wiki", some [⟨0xD800, by decide⟩], some (text "k")⟩

/-- No surrogate stands in the odd page, and still nothing is sent for it when the session cannot sign. -/
theorem odd_page_is_not_sent :
    (oddPage none).IsPlain ∧ ((oddPage none).create unsignableSession).sent quietWorld = [] ∧
      ((oddPage none).create unsignableSession).fault? quietWorld = some (.crash .credentials) := by
  have hplain : (oddPage none).IsPlain := by decide
  have hsign : unsignableSession.canSign = false := by decide
  have hpost := pagePost_of_isPlain (s := unsignableSession) hplain
  rcases unsignableSession.authorizationFields_cases with ⟨hsigned, -⟩ | ⟨-, hfields⟩
  · rw [hsign] at hsigned
    cases hsigned
  · rw [hfields] at hpost
    exact ⟨hplain, create_of_fault hpost quietWorld⟩

end NewPage

end PageTree
