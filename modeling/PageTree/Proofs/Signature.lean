import PageTree.Proofs.Rehearsal
import PageTree.Proofs.Resources

/-!
# Who asks

Every request of a session carries the header fields of its kind, and behind them the fields that say who
asks. `Session.IsSignature` says which fields these are: one, with the user name and the key as they were
given, if there is more than blanks to both, and none otherwise.

One call prepares its requests with the session alone, whatever the files hold and whatever the server has
replied before (`Call.run_signs`), and what one call keeps, any number of calls keep (`calls_sign`).
-/

set_option autoImplicit false

namespace PageTree

/-! ## Signatures -/

/-- There is more than blanks to a text. -/
def HoldsWord (t : Text) : Prop := ∃ c ∈ t, c.isBlank = false

/-- The header fields of a request of a kind, apart from those that say who asks. -/
def Activity.headers : Activity → Headers
  | .creatingPage =>
    [(text "Content-Type", text "application/json"), (text "Accept", text "application/json")]
  | .uploadingAttachment =>
    [(text "X-Atlassian-Token", text "no-check"), (text "Accept", text "application/json")]

/-- A text is not blank just if it holds a code point that is no blank. -/
theorem isBlank_eq_false_iff {t : Text} : Text.isBlank t = false ↔ HoldsWord t := by
  simp [Text.isBlank, HoldsWord]

namespace Session

variable {s : Session}

/-- A session has a user name and a key, and there is more than blanks to both. -/
def HasCredentials (s : Session) : Prop :=
  ∃ user key, s.userName = some user ∧ s.apiKey = some key ∧ HoldsWord user ∧ HoldsWord key

/-- The header fields with which a session says who asks. -/
inductive IsSignature (s : Session) : Headers → Prop
  | basic {user key value : Text} (huser : s.userName = some user) (hkey : s.apiKey = some key)
      (hwords : HoldsWord user ∧ HoldsWord key) (hvalue : basicAuthorization? user key = some value) :
      IsSignature s [(text "Authorization", value)]
  | unsigned (h : ¬ s.HasCredentials) : IsSignature s []

/-- A request of a session carries the fields of its kind, and those that say who asks. -/
def Signs (s : Session) (fields : Headers) (post : Post) : Prop :=
  s.IsSignature fields ∧ post.headers = post.activity.headers ++ fields

/-- A session has two texts as credentials just if they are its user name and its key and neither is blank. -/
theorem credentials?_eq_some_iff {user key : Text} :
    s.credentials? = some (user, key) ↔
      s.userName = some user ∧ s.apiKey = some key ∧ HoldsWord user ∧ HoldsWord key := by
  unfold credentials?
  cases s.userName with
  | none => simp
  | some u =>
      cases s.apiKey with
      | none => simp
      | some k =>
          simp only [← isBlank_eq_false_iff, Option.some.injEq]
          constructor
          · intro h
            split at h
            · cases h
            · next hwords =>
                obtain ⟨rfl, rfl⟩ := Prod.mk.inj (Option.some.inj h)
                simpa using hwords
          · rintro ⟨rfl, rfl, huser, hkey⟩
            simp [huser, hkey]

/-- A session has credentials just if there are two texts that are. -/
theorem hasCredentials_iff : s.HasCredentials ↔ ∃ c, s.credentials? = some c := by
  simp only [HasCredentials, Prod.exists, credentials?_eq_some_iff]

/-- The fields that say who asks are those that a run adds to a request. -/
theorem isSignature_iff {fields : Headers} :
    s.IsSignature fields ↔ s.authorizationFields = .ok fields := by
  unfold authorizationFields
  cases hcredentials : s.credentials? with
  | none =>
      have hnone : ¬ s.HasCredentials := by simp [hasCredentials_iff, hcredentials]
      constructor
      · rintro (⟨huser, hkey, hwords, -⟩ | -)
        · exact absurd ⟨_, _, huser, hkey, hwords⟩ hnone
        · rfl
      · rintro ⟨⟩
        exact .unsigned hnone
  | some credentials =>
      obtain ⟨user, key⟩ := credentials
      obtain ⟨huser, hkey, hwords⟩ := credentials?_eq_some_iff.mp hcredentials
      constructor
      · rintro (⟨huser', hkey', -, hvalue⟩ | hnone)
        · obtain rfl := Option.some.inj (huser.symm.trans huser')
          obtain rfl := Option.some.inj (hkey.symm.trans hkey')
          simp only [hvalue]
        · exact absurd ⟨user, key, huser, hkey, hwords⟩ hnone
      · intro h
        cases hvalue : basicAuthorization? user key with
        | none => simp [hvalue] at h
        | some value =>
            simp only [hvalue, Except.ok.injEq] at h
            exact h ▸ .basic huser hkey hwords hvalue

/-- A signature names who asks just if the session has credentials. -/
theorem IsSignature.hasCredentials_iff {fields : Headers} (h : s.IsSignature fields) :
    (∃ value, (text "Authorization", value) ∈ fields) ↔ s.HasCredentials := by
  cases h with
  | basic huser hkey hwords hvalue => simp [HasCredentials, huser, hkey, hwords]
  | unsigned hnone => simp [hnone]

/-! ## Requests -/

/-- The request for a page is signed by its session. -/
theorem signs_of_pagePost {spaceKey title content : Text} {parentId : Option Text} {post : Post}
    (h : s.pagePost spaceKey title content parentId = .ok post) : ∃ fields, s.Signs fields post := by
  obtain ⟨-, fields, hfields, rfl⟩ := pagePost_eq_ok.mp h
  exact ⟨fields, isSignature_iff.mpr hfields, rfl⟩

/-- The request for an attachment is signed by its session. -/
theorem signs_of_attachmentPost {pageId : Text} {path : Path} {content : Bytes} {post : Post}
    (h : s.attachmentPost pageId path content = .ok post) : ∃ fields, s.Signs fields post := by
  obtain ⟨fields, hfields, rfl⟩ := attachmentPost_eq_ok.mp h
  exact ⟨fields, isSignature_iff.mpr hfields, rfl⟩

end Session

namespace Publisher

variable {p : Publisher}

/-- The request that is prepared for an item is signed by the session of the publisher. -/
theorem signs_of_prepare {files : FileSystem} {created : Created} {item : Item} {post : Post}
    (h : p.prepare files created item = .ok post) : ∃ fields, p.session.Signs fields post := by
  cases item with
  | page depth page =>
      obtain ⟨content, -, hpost⟩ := bind_eq_ok.mp h
      exact Session.signs_of_pagePost hpost
  | attachment path =>
      obtain ⟨content, -, hpost⟩ := bind_eq_ok.mp h
      exact Session.signs_of_attachmentPost hpost

/-- Every request of a rehearsal is signed by the session of the publisher. -/
theorem signs_of_rehearse (files : FileSystem) (v : Server) (created : Created) (todo : List Item) :
    ∀ post ∈ (p.rehearse files v created todo).1, ∃ fields, p.session.Signs fields post := by
  intro post hpost
  obtain ⟨item, -, before, hprepare⟩ := prepared_of_mem_rehearse hpost
  exact signs_of_prepare hprepare

end Publisher

/-! ## Calls -/

namespace Call

variable (s : Session)

/-- What one call sends is signed, however the call ends. -/
theorem run_signs (call : Call) (w : World) :
    ∃ ps, Sent ps w ((call.run s).last w) ∧ ∀ post ∈ ps, ∃ fields, s.Signs fields post := by
  cases call with
  | createPage spaceKey title content parentId =>
      have hrun : Performs ((Call.createPage spaceKey title content parentId).run s) w _ :=
        (s.createPage_performs spaceKey title content parentId w).bind fun _ w' _ => .pure () w'
      refine ⟨_, hrun.last.1, ?_⟩
      cases hpost : s.pagePost spaceKey title content parentId with
      | error fault => exact nofun
      | ok post =>
          have hsigns := Session.signs_of_pagePost hpost
          dsimp only
          cases ((w.server.respond .creatingPage).identified post).mapError Fault.failure <;>
            simpa using hsigns
  | uploadAttachment pageId path =>
      have hrun := s.uploadAttachment_performs pageId path w
      refine ⟨_, hrun.last.1, ?_⟩
      cases hpost : (w.files.contentAt path (.attachmentUnreadable path)).bind
          (s.attachmentPost pageId path) with
      | error fault => exact nofun
      | ok post =>
          obtain ⟨content, -, hattachment⟩ := bind_eq_ok.mp hpost
          simpa using Session.signs_of_attachmentPost hattachment
  | publish metadata contentRoot =>
      have hrun := Publisher.publish_performs ⟨s, metadata, contentRoot⟩ w
      exact ⟨_, hrun.last.1, Publisher.signs_of_rehearse _ _ _ _⟩

/-- Every request of a list of calls is signed by the session. -/
theorem worldAfter_signs (calls : List Call) (w : World) :
    ∃ ps, Sent ps w (worldAfter s calls w) ∧ ∀ post ∈ ps, ∃ fields, s.Signs fields post := by
  induction calls generalizing w with
  | nil => exact ⟨[], .refl w, nofun⟩
  | cons call rest ih =>
      obtain ⟨ps, hsent, hsigns⟩ := call.run_signs s w
      obtain ⟨qs, hsent', hsigns'⟩ := ih ((call.run s).last w)
      refine ⟨ps ++ qs, hsent.trans hsent', ?_⟩
      exact List.forall_mem_append.mpr ⟨hsigns, hsigns'⟩

end Call

/-- Whatever is asked of a session, in any order and however each call ends: all its requests carry the same
fields that say who asks, behind those of their kind. They name the user and the key just if there is more
than blanks to both. -/
theorem calls_sign (s : Session) :
    ∃ fields, ∀ (calls : List Call) (w : World),
      ∃ ps, posts (Call.worldAfter s calls w).trace = posts w.trace ++ ps ∧
        ∀ post ∈ ps, s.Signs fields post ∧
          ((∃ value, (text "Authorization", value) ∈ post.headers) ↔ s.HasCredentials) := by
  -- A session without a signature cannot send anything, and another one has no other signature.
  refine ⟨s.authorizationFields.toOption.getD [], fun calls w => ?_⟩
  obtain ⟨ps, hsent, hsigns⟩ := Call.worldAfter_signs s calls w
  refine ⟨ps, hsent.posts, fun post hpost => ?_⟩
  obtain ⟨fields, hfields, hheaders⟩ := hsigns post hpost
  rw [Session.isSignature_iff.mp hfields]
  refine ⟨⟨hfields, hheaders⟩, ?_⟩
  rw [← hfields.hasCredentials_iff, hheaders]
  cases post <;> simp [Post.activity, Activity.headers, text]

/-- A session with a blank key signs nothing, and its page is created. -/
example :
    (posts (Call.worldAfter ⟨text "http://wiki", some (text "ada"), some (text " ")⟩
        [.createPage (text "S") (text "A") [] none]
        (.start (.empty (.ofText (text "/w"))) [])).trace).map Post.headers =
      [Activity.creatingPage.headers] := by
  decide +kernel

end PageTree
