import PageTree.Session

/-!
# The server's side

What a server does with requests depends on nothing but the replies that it is going to give and on what
the requests are for. `Server` is that part of a world, `respond` what comes back for the next request and
`next` what is left for the requests after it; `responses` are what comes back for many.

`Session.exchange` is the run that asks a server. `exchange_apply` says that it does what `respond` and
`next` say.
-/

set_option autoImplicit false

namespace PageTree

/-- What comes back for a request, the usual reply spelled out. -/
inductive Response
  | answer (status : Status) (body : Bytes)
  | unreachable (kind explanation : Text)
deriving DecidableEq

/-- The replies to come, and the counts that a usual reply shows. -/
structure Server where
  replies : List Reply
  postCount : Nat
  usualPages : Nat
deriving DecidableEq

/-- The server's side of a world. -/
def World.server (w : World) : Server := ⟨w.replies, w.postCount, w.usualPages⟩

namespace Response

/-- The identifier that an answer gives to a new page: the status is 200, and the body is an object whose
`id` is a text that is not empty. -/
def identifier? : Response → Option Text
  | .answer status body =>
    if status.code = 200 then
      match Json.read? Json.lenient (Utf8.decodeLossy body) with
      | some (.object members) =>
        match Members.find? (text "id") members with
        | some (.str (c :: s)) => some (c :: s)
        | _ => none
      | _ => none
    else none
  | .unreachable _ _ => none

/-- Whether the server has accepted a request. -/
def isAccepted : Response → Bool
  | .answer status _ => status.code == 200
  | .unreachable _ _ => false

/-- Whether a response is what a request needs: the identifier of the new page, or just that the server has
accepted the request. -/
def isUseful : Activity → Response → Bool
  | .creatingPage, r => r.identifier?.isSome
  | .uploadingAttachment, r => r.isAccepted

end Response

namespace Server

/-- What comes back for the next request. -/
def respond (v : Server) (a : Activity) : Response :=
  match v.replies.headD .usual with
  | .usual =>
    .answer Session.accepted
      ((Session.usualBody v.usualPages (v.postCount + 1) a).flatMap Utf8.unit)
  | .answer status body => .answer status body
  | .unreachable kind explanation => .unreachable kind explanation

/-- The server when the next request has been replied to. -/
def next (v : Server) (a : Activity) : Server where
  replies := v.replies.tail
  postCount := v.postCount + 1
  usualPages :=
    if a = .creatingPage ∧ v.replies.headD .usual = .usual then v.usualPages + 1 else v.usualPages

/-- What comes back for requests sent one after the other. -/
def responses (v : Server) : List Activity → List Response
  | [] => []
  | a :: rest => v.respond a :: (v.next a).responses rest

/-- The server when requests have been replied to. -/
def after (v : Server) (activities : List Activity) : Server := activities.foldl next v

/-- Without requests, a server stays as it is. -/
@[simp] theorem after_nil (v : Server) : v.after [] = v := rfl

/-- A server replies to the first request, and then to the others. -/
@[simp] theorem after_cons (v : Server) (a : Activity) (rest : List Activity) :
    v.after (a :: rest) = (v.next a).after rest := rfl

/-- A server replies to two lists of requests one list after the other. -/
theorem after_append (v : Server) (a b : List Activity) : v.after (a ++ b) = (v.after a).after b := by
  simp only [after, List.foldl_append]

/-- The responses to two lists of requests are those to the first and then those of the server after it. -/
theorem responses_append (v : Server) (a b : List Activity) :
    v.responses (a ++ b) = v.responses a ++ (v.after a).responses b := by
  induction a generalizing v with
  | nil => rfl
  | cons first rest ih =>
      simp only [List.cons_append, responses, after_cons]
      rw [ih (v.next first)]

/-- There is one response to each request. -/
@[simp] theorem length_responses (v : Server) (activities : List Activity) :
    (v.responses activities).length = activities.length := by
  induction activities generalizing v with
  | nil => rfl
  | cons a rest ih => simp [responses, ih (v.next a)]

/-- Each request takes one reply. -/
theorem replies_after (v : Server) (activities : List Activity) :
    (v.after activities).replies = v.replies.drop activities.length := by
  induction activities generalizing v with
  | nil => simp
  | cons a rest ih =>
      rw [after_cons, ih (v.next a)]
      show v.replies.tail.drop rest.length = _
      rw [List.drop_tail]
      rfl

/-- All of the requests get what they need. -/
def Accepts (v : Server) (activities : List Activity) : Prop :=
  ∀ x ∈ activities.zip (v.responses activities), x.2.isUseful x.1 = true

instance (v : Server) (activities : List Activity) : Decidable (v.Accepts activities) :=
  inferInstanceAs (Decidable (∀ x ∈ activities.zip (v.responses activities), _))

/-- A server accepts requests just if its response to the first is useful and it then accepts the others. -/
theorem accepts_cons {v : Server} {a : Activity} {rest : List Activity} :
    v.Accepts (a :: rest) ↔ (v.respond a).isUseful a = true ∧ (v.next a).Accepts rest :=
  List.forall_mem_cons

/-- A server accepts two lists of requests just if it accepts the first and then the second. -/
theorem accepts_append {v : Server} {a b : List Activity} :
    v.Accepts (a ++ b) ↔ v.Accepts a ∧ (v.after a).Accepts b := by
  induction a generalizing v with
  | nil => simp [Accepts, responses]
  | cons first rest ih =>
      rw [List.cons_append, accepts_cons, accepts_cons, ih, after_cons, and_assoc]

/-- The identifiers that come back for new pages. -/
def identifiers (v : Server) (activities : List Activity) : List Text :=
  (activities.zip (v.responses activities)).filterMap fun x =>
    match x.1 with
    | .creatingPage => x.2.identifier?
    | .uploadingAttachment => none

/-- The identifiers given to two lists of requests are those of the first and then those of the second. -/
theorem identifiers_append (v : Server) (a b : List Activity) :
    v.identifiers (a ++ b) = v.identifiers a ++ (v.after a).identifiers b := by
  unfold identifiers
  rw [responses_append, List.zip_append (length_responses v a).symm, List.filterMap_append]

/-- An identifier that is given to a page comes before those given later. -/
theorem identifiers_cons_page {v : Server} {id : Text}
    (h : (v.respond .creatingPage).identifier? = some id) (rest : List Activity) :
    v.identifiers (.creatingPage :: rest) = id :: (v.next .creatingPage).identifiers rest :=
  List.filterMap_cons_some h

/-- An attachment is given no identifier. -/
theorem identifiers_cons_attachment (v : Server) (rest : List Activity) :
    v.identifiers (.uploadingAttachment :: rest) =
      (v.next .uploadingAttachment).identifiers rest := rfl

/-- If all requests get what they need, there is an identifier for each new page. -/
theorem length_identifiers {v : Server} {activities : List Activity} (h : v.Accepts activities) :
    (v.identifiers activities).length = activities.count .creatingPage := by
  induction activities generalizing v with
  | nil => rfl
  | cons a rest ih =>
      obtain ⟨hfirst, hrest⟩ := accepts_cons.mp h
      cases a with
      | creatingPage =>
          obtain ⟨id, hid⟩ := Option.isSome_iff_exists.mp hfirst
          rw [identifiers_cons_page hid, List.length_cons, ih hrest, List.count_cons_self]
      | uploadingAttachment =>
          rw [identifiers_cons_attachment, ih hrest, List.count_cons_of_ne (by decide)]

/-! ## New pages -/

/-- The requests that create pages, each with what comes back for it. -/
def creations (v : Server) (ps : List Post) : List (Post × Response) :=
  (ps.zip (v.responses (ps.map Post.activity))).filter fun x => x.1.activity = .creatingPage

/-- Without requests, no pages are created. -/
@[simp] theorem creations_nil (v : Server) : v.creations [] = [] := rfl

/-- A request for a page is a creation, together with the response to it. -/
theorem creations_cons_page {p : Post} (h : p.activity = .creatingPage) (v : Server)
    (rest : List Post) :
    v.creations (p :: rest) =
      (p, v.respond .creatingPage) :: (v.next .creatingPage).creations rest := by
  unfold creations
  rw [List.map_cons, responses, List.zip_cons_cons, List.filter_cons_of_pos (by simp [h]), h]

/-- A request for an attachment is no creation. -/
theorem creations_cons_attachment {p : Post} (h : p.activity = .uploadingAttachment) (v : Server)
    (rest : List Post) :
    v.creations (p :: rest) = (v.next .uploadingAttachment).creations rest := by
  unfold creations
  rw [List.map_cons, responses, List.zip_cons_cons, List.filter_cons_of_neg (by simp [h]), h]

/-- The identifiers that come back for new pages are those of the requests that create them. -/
theorem creations_identifiers (ps : List Post) {v : Server}
    (h : v.Accepts (ps.map Post.activity)) :
    (v.creations ps).map (fun x => x.2.identifier?) =
      (v.identifiers (ps.map Post.activity)).map some := by
  induction ps generalizing v with
  | nil => rfl
  | cons p rest ih =>
      rw [List.map_cons, accepts_cons] at h
      obtain ⟨hfirst, hrest⟩ := h
      rw [List.map_cons]
      cases hactivity : p.activity with
      | creatingPage =>
          rw [hactivity] at hfirst hrest
          obtain ⟨id, hid⟩ := Option.isSome_iff_exists.mp hfirst
          rw [creations_cons_page hactivity, identifiers_cons_page hid, List.map_cons,
            List.map_cons, ih hrest, hid]
      | uploadingAttachment =>
          rw [hactivity] at hrest
          rw [creations_cons_attachment hactivity, identifiers_cons_attachment, ih hrest]

end Server

end PageTree
