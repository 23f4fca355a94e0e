import PageTree.Proofs.Publishing

/-!
# How many requests there are

A rehearsal sends one request for each item, up to the one at which it stops. So a tree is known by two
numbers before anything is sent: how many pages it has, and how many attachments. A complete run sends just
as many requests of the two kinds (`activities_of_rehearse`). One that stops has sent no more of either, and
there is at least one request less that got what it needed (`acceptedCount_lt_of_fault`).
-/

set_option autoImplicit false

namespace PageTree

/-! ## What comes back -/

namespace Server

/-- Requests with what comes back for them. -/
def exchanges (v : Server) (ps : List Post) : List (Post × Response) :=
  ps.zip (v.responses (ps.map Post.activity))

/-- How many of some requests get what they need. -/
def acceptedCount (v : Server) (ps : List Post) : Nat :=
  (v.exchanges ps).countP fun x => x.2.isUseful x.1.activity

/-- How many of some requests are answered with the status 200. -/
def statusCount (v : Server) (ps : List Post) : Nat :=
  (v.exchanges ps).countP fun x => x.2.isAccepted

/-- The last of some requests is for a page, and its answer has the status 200 and names no identifier. -/
def EndsWithoutIdentifier (v : Server) (ps : List Post) : Prop :=
  ∃ x, (v.exchanges ps).getLast? = some x ∧ x.1.activity = .creatingPage ∧
    x.2.isAccepted = true ∧ x.2.identifier? = none

variable {v : Server} {post : Post} {ps : List Post}

/-- The first exchange is the first request with the response to it. -/
theorem exchanges_cons (v : Server) (post : Post) (ps : List Post) :
    v.exchanges (post :: ps) =
      (post, v.respond post.activity) :: (v.next post.activity).exchanges ps := rfl

/-- A request counts as accepted just if the response to it is useful. -/
theorem acceptedCount_cons (v : Server) (post : Post) (ps : List Post) :
    v.acceptedCount (post :: ps) =
      (v.next post.activity).acceptedCount ps +
        if (v.respond post.activity).isUseful post.activity then 1 else 0 := by
  unfold acceptedCount
  rw [exchanges_cons, List.countP_cons]

/-- A request counts by its status just if it is answered with the status 200. -/
theorem statusCount_cons (v : Server) (post : Post) (ps : List Post) :
    v.statusCount (post :: ps) =
      (v.next post.activity).statusCount ps +
        if (v.respond post.activity).isAccepted then 1 else 0 := by
  unfold statusCount
  rw [exchanges_cons, List.countP_cons]

/-- What ends without an identifier still does with a request before it. -/
theorem EndsWithoutIdentifier.cons (h : (v.next post.activity).EndsWithoutIdentifier ps) :
    v.EndsWithoutIdentifier (post :: ps) := by
  obtain ⟨x, hlast, hx⟩ := h
  refine ⟨x, ?_, hx⟩
  rw [exchanges_cons, List.getLast?_cons, hlast]
  rfl

end Server

/-- If an item ends with a failure, its request did not get what it needed. -/
theorem Item.isUseful_of_conclude {item : Item} {created : Created} {post : Post} {r : Response}
    {failure : Failure} (h : item.conclude created post r = .error failure) :
    r.isUseful item.activity = false := by
  by_contra huseful
  rw [Bool.not_eq_false] at huseful
  cases item with
  | page depth page =>
      obtain ⟨id, hid⟩ := Option.isSome_iff_exists.mp huseful
      rw [Item.conclude_page hid] at h
      cases h
  | attachment path =>
      rw [Item.conclude_attachment huseful] at h
      cases h

/-! ## Items -/

/-- Among the requests for an outline there is one for each attachment of its pages. -/
theorem count_uploading_items (entries : List (Int × Page)) :
    ((items entries).map Item.activity).count .uploadingAttachment = attachmentCount entries := by
  induction entries with
  | nil => rfl
  | cons e rest ih =>
      obtain ⟨depth, page⟩ := e
      have hall : (page.attachments.map Item.attachment).map Item.activity =
          List.replicate page.attachments.length .uploadingAttachment := by
        rw [List.map_map]
        exact List.map_const'
      have hsplit : attachmentCount ((depth, page) :: rest) =
          page.attachments.length + attachmentCount rest := by
        unfold attachmentCount
        rw [List.flatMap_cons, List.length_append]
      rw [items_cons, List.map_cons, List.map_append, hsplit, hall]
      refine (List.count_cons_of_ne (show Activity.creatingPage ≠ .uploadingAttachment by decide)).trans ?_
      rw [List.count_append, List.count_replicate_self, ih]

/-- There is one item for each page and each attachment. -/
theorem length_items (entries : List (Int × Page)) :
    (items entries).length = entries.length + attachmentCount entries := by
  have hboth : ∀ activities : List Activity,
      activities.length = activities.count .creatingPage + activities.count .uploadingAttachment := by
    intro activities
    induction activities with
    | nil => rfl
    | cons a rest ih => cases a <;> simp only [List.length_cons, List.count_cons, ih] <;> simp <;> omega
  have hlength := hboth ((items entries).map Item.activity)
  rwa [List.length_map, Publisher.count_items, count_uploading_items] at hlength

namespace Publisher

variable {p : Publisher} {files : FileSystem} {v : Server} {created : Created} {todo : List Item}
  {ps : List Post} {fault : Fault}

/-- However a rehearsal ends, its requests are for the first ones of the items. -/
theorem activities_prefix_of_rehearse {ending : Except Fault Created}
    (h : p.rehearse files v created todo = (ps, ending)) :
    ps.map Post.activity <+: todo.map Item.activity := by
  induction todo generalizing v created ps with
  | nil =>
      obtain ⟨rfl, -⟩ := Prod.mk.inj h
      exact List.prefix_rfl
  | cons item rest ih =>
      rcases p.rehearse_cases files v created item with
        ⟨fault, hprepare⟩ | ⟨post, failure, hprepare, hconclude⟩ | ⟨post, next, hprepare, hconclude⟩
      · rw [rehearse_cons_of_fault p hprepare] at h
        obtain ⟨rfl, -⟩ := Prod.mk.inj h
        exact List.nil_prefix
      · rw [rehearse_cons_of_failure p hprepare hconclude] at h
        obtain ⟨rfl, -⟩ := Prod.mk.inj h
        rw [List.map_cons, List.map_cons, activity_of_prepare hprepare]
        exact (List.prefix_cons_inj _).mpr List.nil_prefix
      · rw [rehearse_cons_of_ok p hprepare hconclude] at h
        obtain ⟨rfl, hending⟩ := Prod.mk.inj h
        rw [List.map_cons, List.map_cons, activity_of_prepare hprepare]
        exact (List.prefix_cons_inj _).mpr (ih (Prod.ext rfl hending))

/-- A rehearsal that stops leaves an item without a request, or its last request did not get what it
needed. -/
theorem acceptedCount_lt_of_fault (h : p.rehearse files v created todo = (ps, .error fault)) :
    v.acceptedCount ps < todo.length := by
  induction todo generalizing v created ps with
  | nil => cases h
  | cons item rest ih =>
      rcases p.rehearse_cases files v created item with
        ⟨fault, hprepare⟩ | ⟨post, failure, hprepare, hconclude⟩ | ⟨post, next, hprepare, hconclude⟩
      · rw [rehearse_cons_of_fault p hprepare] at h
        obtain ⟨rfl, -⟩ := Prod.mk.inj h
        exact Nat.succ_pos _
      · rw [rehearse_cons_of_failure p hprepare hconclude] at h
        obtain ⟨rfl, -⟩ := Prod.mk.inj h
        have huseless := Item.isUseful_of_conclude hconclude
        rw [Server.acceptedCount_cons, activity_of_prepare hprepare, huseless]
        exact Nat.succ_pos _
      · rw [rehearse_cons_of_ok p hprepare hconclude] at h
        obtain ⟨rfl, hending⟩ := Prod.mk.inj h
        have hlater : (v.next item.activity).acceptedCount
            (p.rehearse files (v.next item.activity) next rest).1 < rest.length :=
          ih (Prod.ext rfl hending)
        rw [Server.acceptedCount_cons, activity_of_prepare hprepare, List.length_cons]
        split <;> omega

/-- A request after which its item fails was answered with another status than 200, or without the identifier
of a new page. -/
theorem statusCount_of_conclude {item : Item} {post : Post} {failure : Failure}
    (hactivity : post.activity = item.activity)
    (h : item.conclude created post (v.respond item.activity) = .error failure) :
    v.statusCount [post] = 0 ∨ v.EndsWithoutIdentifier [post] := by
  have huseless := Item.isUseful_of_conclude h
  rw [← hactivity] at huseless
  rw [Server.statusCount_cons]
  cases hstatus : (v.respond post.activity).isAccepted with
  | false => exact .inl rfl
  | true =>
      cases item with
      | page depth page =>
          rw [hactivity] at huseless
          refine .inr ⟨(post, v.respond post.activity), rfl, hactivity, hstatus, ?_⟩
          rw [hactivity]
          exact Option.isNone_iff_eq_none.mp (Option.isSome_eq_false_iff.mp huseless)
      | attachment path =>
          rw [hactivity] at huseless hstatus
          rw [show (v.respond _).isAccepted = false from huseless] at hstatus
          cases hstatus

/-- The statuses alone do not tell: all requests may have been answered with the status 200, and then the
last answer is one to a new page and names no identifier. -/
theorem statusCount_lt_of_fault (h : p.rehearse files v created todo = (ps, .error fault)) :
    v.statusCount ps < todo.length ∨ v.EndsWithoutIdentifier ps := by
  induction todo generalizing v created ps with
  | nil => cases h
  | cons item rest ih =>
      rcases p.rehearse_cases files v created item with
        ⟨fault, hprepare⟩ | ⟨post, failure, hprepare, hconclude⟩ | ⟨post, next, hprepare, hconclude⟩
      · rw [rehearse_cons_of_fault p hprepare] at h
        obtain ⟨rfl, -⟩ := Prod.mk.inj h
        exact .inl (Nat.succ_pos _)
      · rw [rehearse_cons_of_failure p hprepare hconclude] at h
        obtain ⟨rfl, -⟩ := Prod.mk.inj h
        rcases statusCount_of_conclude (activity_of_prepare hprepare) hconclude with hnone | hlast
        · exact .inl (hnone ▸ Nat.succ_pos _)
        · exact .inr hlast
      · rw [rehearse_cons_of_ok p hprepare hconclude] at h
        obtain ⟨rfl, hending⟩ := Prod.mk.inj h
        have hactivity := activity_of_prepare hprepare
        have hlater : (v.next item.activity).statusCount
              (p.rehearse files (v.next item.activity) next rest).1 < rest.length ∨
            (v.next item.activity).EndsWithoutIdentifier
              (p.rehearse files (v.next item.activity) next rest).1 :=
          ih (Prod.ext rfl hending)
        rcases hlater with hfewer | hlast
        · left
          rw [Server.statusCount_cons, hactivity, List.length_cons]
          split <;> omega
        · right
          rw [← hactivity] at hlast ⊢
          exact hlast.cons

end Publisher

end PageTree
