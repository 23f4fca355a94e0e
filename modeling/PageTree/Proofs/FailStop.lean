import PageTree.Proofs.Rehearsal
import PageTree.Proofs.FileSystem

/-!
# The first failure ends publishing

Two runs are compared: one that comes to its end, and one in which a single thing is different, a reply of
the server or a file. Up to the item that the difference is about, the two runs have the same requests; there
the second one ends, with the failure that belongs to the difference (`publish_fail_stop`).

That nothing is sent or read behind the failure is said by what the second run depends on. It sends no
more requests, takes no more replies, and does the same whatever is in the files that only later items
need.
-/

set_option autoImplicit false

namespace PageTree

/-! ## Changed replies -/

/-- The reply that brings a response. -/
def Response.reply : Response → Reply
  | .answer status body => .answer status body
  | .unreachable kind explanation => .unreachable kind explanation

/-- Replies with another one at a place. Missing ones before the place are made up by usual ones. -/
def replaceReply : Nat → Reply → List Reply → List Reply
  | 0, reply, replies => reply :: replies.tail
  | k + 1, reply, replies => replies.headD .usual :: replaceReply k reply replies.tail

namespace Server

/-- The server with another reply at a place. -/
def replace (v : Server) (k : Nat) (reply : Reply) : Server :=
  { v with replies := replaceReply k reply v.replies }

/-- When the next reply is replaced, the new one is the response. -/
theorem respond_replace_zero (v : Server) (r : Response) (a : Activity) :
    (v.replace 0 r.reply).respond a = r := by
  cases r <;> rfl

/-- When a later reply is replaced, the response is the same. -/
theorem respond_replace_succ (v : Server) (k : Nat) (reply : Reply) (a : Activity) :
    (v.replace (k + 1) reply).respond a = v.respond a := rfl

/-- When a later reply is replaced, it is one nearer after a response. -/
theorem next_replace_succ (v : Server) (k : Nat) (reply : Reply) (a : Activity) :
    (v.replace (k + 1) reply).next a = (v.next a).replace k reply := rfl

/-- A changed reply does not matter to the requests before it. -/
theorem responses_replace (v : Server) (reply : Reply) (activities : List Activity) :
    (v.replace activities.length reply).responses activities = v.responses activities := by
  induction activities generalizing v with
  | nil => rfl
  | cons a rest ih =>
      rw [List.length_cons, responses, responses, respond_replace_succ, next_replace_succ, ih]

/-- Behind those requests the changed reply comes next. -/
theorem after_replace (v : Server) (reply : Reply) (activities : List Activity) :
    (v.replace activities.length reply).after activities = (v.after activities).replace 0 reply := by
  induction activities generalizing v with
  | nil => rfl
  | cons a rest ih => rw [List.length_cons, after_cons, after_cons, next_replace_succ, ih]

end Server

/-- A failure is the one that a response calls for: what the transport has to say about the request, or the
status of the answer. -/
def Failure.IsOf (post : Post) : Response → Failure → Prop
  | .unreachable kind explanation, failure =>
    failure = .requestNotSent post.url kind explanation
  | .answer status _, failure => failure.status? = some status

/-- A failure to find an identifier in an answer knows the status of the answer. -/
theorem Session.status?_of_identifier {status : Status} {body : Bytes} {failure : Failure}
    (h : Session.identifier status body = .error failure) : failure.status? = some status := by
  unfold Session.identifier at h
  split at h
  · rw [← Except.error.inj h]
    rfl
  · split at h
    · cases h
    · rw [← Except.error.inj h]
      rfl
  · rw [← Except.error.inj h]
    rfl

namespace Response

variable {post : Post} {r : Response} {failure : Failure}

/-- A response that is not accepted fails in the way that belongs to its request. -/
theorem isOf_of_accepted (h : r.accepted post = .error failure) : failure.IsOf post r := by
  cases r with
  | unreachable kind explanation => exact (Except.error.inj h).symm
  | answer status body =>
      by_cases hcode : status.code = 200
      · simp [accepted, hcode] at h
      · simp only [accepted, hcode, ne_eq, not_false_eq_true, if_true, Except.error.injEq] at h
        rw [← h]
        rfl

/-- A response without an identifier fails in the way that belongs to its request. -/
theorem isOf_of_identified (h : r.identified post = .error failure) : failure.IsOf post r := by
  cases haccepted : r.accepted post with
  | error other =>
      simp only [identified, haccepted, Except.error.injEq] at h
      exact isOf_of_accepted (h ▸ haccepted)
  | ok answer =>
      obtain ⟨status, body⟩ := answer
      have hr : r = .answer status body := by
        cases r with
        | unreachable kind explanation => cases haccepted
        | answer status' body' =>
            simp only [accepted] at haccepted
            split at haccepted <;> simp_all
      simp only [identified, haccepted] at h
      rw [hr]
      exact Session.status?_of_identifier h

end Response

/-- A response that is not what a request needs makes the request fail. -/
theorem Item.conclude_of_useless {item : Item} {r : Response} (h : r.isUseful item.activity = false)
    (created : Created) (post : Post) :
    ∃ failure, item.conclude created post r = .error failure ∧ failure.IsOf post r := by
  cases item with
  | page depth page =>
      cases hidentified : r.identified post with
      | error failure =>
          exact ⟨failure, by rw [conclude, hidentified]; rfl, Response.isOf_of_identified hidentified⟩
      | ok id =>
          rw [Response.identified_eq_ok] at hidentified
          simp [activity, Response.isUseful, hidentified] at h
  | attachment path =>
      cases haccepted : r.accepted post with
      | error failure =>
          exact ⟨failure, by rw [conclude, haccepted]; rfl, Response.isOf_of_accepted haccepted⟩
      | ok answer =>
          have hisOk : true = r.isAccepted := by
            rw [← Response.accepted_isOk post r, haccepted]
            rfl
          exact absurd (hisOk.trans h) (by decide)

namespace Publisher

variable {p : Publisher} {files files' : FileSystem} {v v' : Server} {created : Created}

/-! ## What a rehearsal depends on -/

/-- A request depends on the file that it carries and on no other one. -/
theorem prepare_congr (created : Created) {item : Item}
    (h : files'.read (p.locate item.path) = files.read (p.locate item.path)) :
    p.prepare files' created item = p.prepare files created item := by
  cases item with
  | page depth page =>
      have hread : files'.read (p.locate page.contentPath) = files.read (p.locate page.contentPath) := h
      simp only [prepare, FileSystem.textAt, FileSystem.contentAt, hread]
  | attachment path =>
      have hread : files'.read (p.locate path) = files.read (p.locate path) := h
      simp only [prepare, FileSystem.contentAt, hread]

/-- Without its file there is no request for an item. -/
theorem prepare_of_unreadable {item : Item} {fault : FileFault}
    (h : files.read (p.locate item.path) = .error (.file fault)) (created : Created) :
    ∃ failure, p.prepare files created item = .error (.failure failure) ∧
      failure.path? = some (p.locate item.path) := by
  cases item with
  | page depth page =>
      have hread : files.read (p.locate page.contentPath) = .error (.file fault) := h
      refine ⟨.contentUnreadable (p.locate page.contentPath) (.file fault), ?_, rfl⟩
      simp only [prepare, FileSystem.textAt, FileSystem.contentAt, hread]
      rfl
  | attachment path =>
      have hread : files.read (p.locate path) = .error (.file fault) := h
      refine ⟨.attachmentUnreadable (p.locate path) (.file fault), ?_, rfl⟩
      simp only [prepare, FileSystem.contentAt, hread]
      rfl

/-- A rehearsal depends on the files of its items and on what comes back for its requests. -/
theorem rehearse_congr (created : Created) {todo : List Item}
    (hfiles : ∀ item ∈ todo, files'.read (p.locate item.path) = files.read (p.locate item.path))
    (hserver : v'.responses (todo.map Item.activity) = v.responses (todo.map Item.activity)) :
    p.rehearse files' v' created todo = p.rehearse files v created todo := by
  induction todo generalizing v v' created with
  | nil => rfl
  | cons item rest ih =>
      obtain ⟨hitem, hfiles⟩ := List.forall_mem_cons.mp hfiles
      obtain ⟨hrespond, hserver⟩ := List.cons.inj hserver
      have hprepares := prepare_congr created hitem
      rcases p.rehearse_cases files v created item with
        ⟨fault, hprepare⟩ | ⟨post, failure, hprepare, hconclude⟩ | ⟨post, next, hprepare, hconclude⟩
      · rw [rehearse_cons_of_fault p hprepare, rehearse_cons_of_fault p (hprepares.trans hprepare)]
      · rw [rehearse_cons_of_failure p hprepare hconclude,
          rehearse_cons_of_failure p (hprepares.trans hprepare) (hrespond ▸ hconclude)]
      · rw [rehearse_cons_of_ok p hprepare hconclude,
          rehearse_cons_of_ok p (hprepares.trans hprepare) (hrespond ▸ hconclude),
          ih next hfiles hserver]

/-! ## Where a rehearsal stops -/

/-- Up to one of its items, a rehearsal that comes to its end has gone well, and there was a request for
that item. -/
theorem rehearse_split {before after : List Item} {item : Item} {ps : List Post} {final : Created}
    (h : p.rehearse files v created (before ++ item :: after) = (ps, .ok final)) :
    ∃ middle post, p.rehearse files v created before = (ps.take before.length, .ok middle) ∧
      p.prepare files middle item = .ok post ∧ ps[before.length]? = some post := by
  rw [rehearse_append] at h
  cases hbefore : p.rehearse files v created before with
  | mk qs ending =>
      rw [hbefore] at h
      cases ending with
      | error fault =>
          cases (Prod.mk.inj h).2
      | ok middle =>
          -- There was one request for each item before, so the next one stands at that place.
          have hlength : qs.length = before.length := by
            have hactivities := congrArg List.length (activities_of_rehearse hbefore)
            rwa [List.length_map, List.length_map] at hactivities
          rw [andThen_ok] at h
          obtain ⟨rfl, hending⟩ := Prod.mk.inj h
          rcases p.rehearse_cases files (v.after (before.map Item.activity)) middle item with
            ⟨fault, hprepare⟩ | ⟨post, failure, hprepare, hconclude⟩ |
              ⟨post, next, hprepare, hconclude⟩
          · rw [rehearse_cons_of_fault p hprepare] at hending
            cases hending
          · rw [rehearse_cons_of_failure p hprepare hconclude] at hending
            cases hending
          · rw [rehearse_cons_of_ok p hprepare hconclude]
            refine ⟨middle, post, ?_, hprepare, ?_⟩
            · rw [← hlength, List.take_left]
            · rw [← hlength, List.getElem?_append_right (Nat.le_refl _), Nat.sub_self]
              rfl

/-- A rehearsal that comes to its end has read the files of all items. -/
theorem read_of_rehearse {todo : List Item} {ps : List Post} {final : Created}
    (h : p.rehearse files v created todo = (ps, .ok final)) :
    ∀ item ∈ todo, ∃ content, files.read (p.locate item.path) = .ok content := by
  intro item hitem
  obtain ⟨before, after, rfl⟩ := List.append_of_mem hitem
  obtain ⟨middle, post, -, hprepare, -⟩ := rehearse_split h
  cases item with
  | page depth page =>
      obtain ⟨-, -, bytes, s, -, hread, -, -⟩ := (creates_of_prepare hprepare).1
      exact ⟨bytes, hread⟩
  | attachment path =>
      obtain ⟨-, -, content, -, hread⟩ := uploads_of_prepare hprepare
      exact ⟨content, hread⟩

/-- With a useless reply to the request for one of its items, a rehearsal stops behind that request,
whatever is in the files of the items behind it. -/
theorem rehearse_replaced {before after : List Item} {item : Item} {ps : List Post}
    {final : Created} {r : Response}
    (h : p.rehearse files v created (before ++ item :: after) = (ps, .ok final))
    (huseless : r.isUseful item.activity = false)
    (hfiles : ∀ other ∈ before ++ [item],
      files'.read (p.locate other.path) = files.read (p.locate other.path)) :
    ∃ post failure, ps[before.length]? = some post ∧ failure.IsOf post r ∧
      p.rehearse files' (v.replace before.length r.reply) created (before ++ item :: after) =
        (ps.take (before.length + 1), .error (.failure failure)) := by
  obtain ⟨middle, post, hbefore, hprepare, hpost⟩ := rehearse_split h
  obtain ⟨failure, hconclude, hfailure⟩ := Item.conclude_of_useless huseless middle post
  refine ⟨post, failure, hpost, hfailure, ?_⟩
  -- The changed reply is the one that comes next once the items before are done with.
  have hserver := v.responses_replace r.reply (before.map Item.activity)
  have hafter := v.after_replace r.reply (before.map Item.activity)
  rw [List.length_map] at hserver hafter
  have hsame := rehearse_congr created
    (fun other hother => hfiles other (List.mem_append_left _ hother)) hserver
  have hitem : p.prepare files' middle item = .ok post := by
    rw [prepare_congr middle (hfiles item (by simp)), hprepare]
  rw [← Server.respond_replace_zero (v.after (before.map Item.activity)) r item.activity,
    ← hafter] at hconclude
  rw [rehearse_append, hsame, hbefore, andThen_ok, rehearse_cons_of_failure p hitem hconclude,
    List.take_add_one, hpost]
  rfl

/-- Without the file of one of its items, a rehearsal stops before the request for that item, whatever is in
the files of the items behind it. -/
theorem rehearse_missing {before after : List Item} {item : Item} {ps : List Post}
    {final : Created}
    (h : p.rehearse files v created (before ++ item :: after) = (ps, .ok final))
    (hfiles : ∀ other ∈ before,
      files'.read (p.locate other.path) = files.read (p.locate other.path))
    (hmissing : files'.read (p.locate item.path) = .error (.file .missing)) :
    ∃ failure, failure.path? = some (p.locate item.path) ∧
      p.rehearse files' v created (before ++ item :: after) =
        (ps.take before.length, .error (.failure failure)) := by
  obtain ⟨middle, post, hbefore, -, -⟩ := rehearse_split h
  obtain ⟨failure, hprepare, hpath⟩ := prepare_of_unreadable hmissing middle
  refine ⟨failure, hpath, ?_⟩
  rw [rehearse_append, rehearse_congr created hfiles rfl, hbefore, andThen_ok,
    rehearse_cons_of_fault p hprepare, List.append_nil]

/-! ## Publishing -/

/-- The paths of the files that a tree refers to, in the order of publishing. -/
def references (p : Publisher) : List Path := p.metadata.filePaths p.contentRoot

/-- The place where a tree first refers to the file at a path. -/
def firstReference (p : Publisher) (files : FileSystem) (path : Path) : Nat :=
  p.references.findIdx fun q => files.SameFile q path

/-- At the place where a tree first refers to a file there is a path to that file. -/
theorem sameFile_firstReference {p : Publisher} {files : FileSystem} {path reference : Path}
    (h : p.references[p.firstReference files path]? = some reference) :
    files.SameFile reference path := by
  have hfound := List.findIdx_of_getElem?_eq_some h
  simpa using hfound

/-- No path before the first one that refers to a file refers to this file. -/
theorem not_sameFile_of_mem_take {p : Publisher} {files : FileSystem} {path q : Path}
    (h : q ∈ p.references.take (p.firstReference files path)) : ¬ files.SameFile q path := by
  obtain ⟨i, hi, rfl⟩ := List.mem_iff_getElem.mp h
  have hlt : i < p.firstReference files path := by
    rw [List.length_take] at hi
    omega
  have hnot := List.not_of_lt_findIdx hlt
  rw [List.getElem_take]
  simpa using hnot

/-- The items of a tree carry the files that the tree refers to, in the same order. -/
theorem locate_items (p : Publisher) :
    (items (outline 0 p.metadata.pages)).map (fun item => p.locate item.path) = p.references := by
  unfold references Metadata.filePaths items
  rw [List.map_flatMap]
  refine List.flatMap_congr fun e _ => ?_
  simp only [List.map_cons, List.map_map, Page.filePaths, Item.path]
  rfl

/-- At each place where a tree refers to a file there is an item that carries the file. -/
theorem exists_item_at {p : Publisher} {k : Nat} (h : k < p.references.length) :
    ∃ before item after, items (outline 0 p.metadata.pages) = before ++ item :: after ∧
      before.length = k ∧ p.references[k]? = some (p.locate item.path) ∧
      p.references.take k = before.map (fun other => p.locate other.path) ∧
      p.references.take (k + 1) = (before ++ [item]).map fun other => p.locate other.path := by
  rw [← locate_items, List.length_map] at h
  obtain ⟨before, item, after, hitems, hlength⟩ := exists_split_at h
  refine ⟨before, item, after, hitems, hlength, ?_, ?_, ?_⟩
  · rw [← locate_items, hitems, ← hlength]
    simp
  · rw [← locate_items, hitems, ← hlength]
    simp
  · rw [← locate_items, hitems, ← hlength, List.take_add_one]
    simp

/-- Publishing that comes to its end is a rehearsal that comes to its end. -/
theorem rehearse_of_publish {w done : World} (h : p.publish w = .ok () done) :
    ∃ final, p.rehearse w.files w.server [] (items (outline 0 p.metadata.pages)) =
      (p.publish.sent w, .ok final) := by
  obtain ⟨-, hrun⟩ := (p.publish_performs w).last
  rw [publish_sent]
  rw [h] at hrun
  cases hrehearsal : p.rehearse w.files w.server [] (items (outline 0 p.metadata.pages)) with
  | mk ps ending =>
      rw [hrehearsal] at hrun
      cases ending with
      | error fault => cases hrun
      | ok final => exact ⟨final, rfl⟩

/-- Publishing stops where its rehearsal stops. -/
theorem publish_of_rehearse {w : World} {ps : List Post} {fault : Fault}
    (h : p.rehearse w.files w.server [] (items (outline 0 p.metadata.pages)) = (ps, .error fault)) :
    ∃ aborted, p.publish w = .error fault aborted ∧ posts aborted.trace = posts w.trace ++ ps ∧
      aborted.replies = w.replies.drop ps.length := by
  have hperforms := p.publish_performs w
  rw [h] at hperforms
  obtain ⟨hsent, hrun⟩ := hperforms.last
  refine ⟨_, hrun, hsent.posts, ?_⟩
  have hreplies : (p.publish.last w).server.replies = _ := congrArg Server.replies hsent.server
  rw [Server.replies_after, List.length_map] at hreplies
  exact hreplies

/-- If the reply to request `k` is replaced by one that is not what the request needs, publishing ends with
the failure that belongs to that reply. It has sent the requests of the complete run up to that one and no
other ones, it has taken a reply for each of them and no more, and it makes no difference what is in the
files that the tree refers to behind that place. -/
def StopsAtReply (p : Publisher) (w : World) : Prop :=
  ∀ (k : Nat) (post : Post), (p.publish.sent w)[k]? = some post →
    ∀ r : Response, r.isUseful post.activity = false →
    ∀ files : FileSystem, (∀ q ∈ p.references.take (k + 1), files.read q = w.files.read q) →
    ∃ failure aborted,
      p.publish { w with files := files, replies := replaceReply k r.reply w.replies } =
        .error (.failure failure) aborted ∧
      failure.IsOf post r ∧
      posts aborted.trace = posts w.trace ++ (p.publish.sent w).take (k + 1) ∧
      aborted.replies = (replaceReply k r.reply w.replies).drop (k + 1)

/-- If a file that the tree refers to is removed, publishing ends with the failure to read it where the tree
first refers to it. It has sent the requests of the complete run before that place and no other ones, it
has taken a reply for each of them and no more, and it makes no difference what is in the files that the
tree refers to behind that place. -/
def StopsAtFile (p : Publisher) (w : World) : Prop :=
  ∀ path ∈ p.references, ∀ k, k = p.firstReference w.files path →
    ∀ files : FileSystem,
      (∀ q ∈ p.references.take (k + 1), files.read q = (w.files.remove path).read q) →
    ∃ failure aborted reference,
      p.publish { w with files := files } = .error (.failure failure) aborted ∧
      p.references[k]? = some reference ∧ failure.path? = some reference ∧
      posts aborted.trace = posts w.trace ++ (p.publish.sent w).take k ∧
      aborted.replies = w.replies.drop k

/-- Publishing sends one request for each path that is referred to. -/
theorem length_sent {w done : World} (h : p.publish w = .ok () done) :
    (p.publish.sent w).length = p.references.length := by
  obtain ⟨final, hrun⟩ := rehearse_of_publish h
  have hactivities := congrArg List.length (activities_of_rehearse hrun)
  rw [List.length_map, List.length_map] at hactivities
  rw [hactivities, ← locate_items, List.length_map]

/-- A run that would succeed stops at each reply that is of no use. -/
theorem stopsAtReply {w done : World} (h : p.publish w = .ok () done) : p.StopsAtReply w := by
  intro k post hpost r huseless files hfiles
  obtain ⟨final, hrun⟩ := rehearse_of_publish h
  have hk := (List.getElem?_eq_some_iff.mp hpost).1
  obtain ⟨before, item, after, hitems, rfl, -, -, htake⟩ := exists_item_at (length_sent h ▸ hk)
  rw [hitems] at hrun
  have hactivity : post.activity = item.activity := by
    obtain ⟨middle, other, -, hprepare, hother⟩ := rehearse_split hrun
    obtain rfl := Option.some.inj (hother.symm.trans hpost)
    exact activity_of_prepare hprepare
  obtain ⟨other, failure, hother, hfailure, hstop⟩ := rehearse_replaced hrun
    (hactivity ▸ huseless) fun item' hitem' => hfiles _ (htake ▸ List.mem_map_of_mem hitem')
  obtain rfl := Option.some.inj (hother.symm.trans hpost)
  obtain ⟨aborted, haborted, hposts, hreplies⟩ := publish_of_rehearse (p := p)
    (w := { w with files := files, replies := replaceReply before.length r.reply w.replies })
    (hitems ▸ hstop)
  refine ⟨failure, aborted, haborted, hfailure, hposts, ?_⟩
  rw [hreplies, List.length_take, Nat.min_eq_left hk]

/-- A run that would succeed stops at the first reference to each file that cannot be read. -/
theorem stopsAtFile {w done : World} (h : p.publish w = .ok () done) : p.StopsAtFile w := by
  intro path hpath k hfirst files hfiles
  obtain ⟨final, hrun⟩ := rehearse_of_publish h
  have hk : k < p.references.length := by
    rw [hfirst]
    exact List.findIdx_lt_length_of_exists ⟨path, hpath, by simp [FileSystem.SameFile]⟩
  obtain ⟨before, item, after, hitems, rfl, hitem, htake, hupto⟩ := exists_item_at hk
  rw [hitems] at hrun
  have hread : ∀ q ∈ p.references, ∃ content, w.files.read q = .ok content := by
    intro q hq
    rw [← locate_items, hitems] at hq
    obtain ⟨other, hother, rfl⟩ := List.mem_map.mp hq
    exact read_of_rehearse hrun other hother
  obtain ⟨content, hcontent⟩ := hread path hpath
  -- The removed file is the one at the first reference, and none of those before it.
  have hmissing : files.read (p.locate item.path) = .error (.file .missing) := by
    obtain ⟨found, hfound⟩ := hread _ (List.mem_of_getElem? hitem)
    rw [hfiles _ (hupto ▸ List.mem_map_of_mem (by simp)), FileSystem.read_remove hcontent hfound,
      if_pos (sameFile_firstReference (hfirst ▸ hitem))]
  have hsame : ∀ other ∈ before,
      files.read (p.locate other.path) = w.files.read (p.locate other.path) := by
    intro other hother
    have htaken : p.locate other.path ∈ p.references.take before.length :=
      htake ▸ List.mem_map_of_mem hother
    obtain ⟨found, hfound⟩ := hread _ (List.mem_of_mem_take htaken)
    rw [hfiles _ (hupto ▸ List.mem_map_of_mem (List.mem_append_left _ hother)),
      FileSystem.read_remove hcontent hfound,
      if_neg (not_sameFile_of_mem_take (hfirst ▸ htaken)), hfound]
  obtain ⟨failure, hfailure, hstop⟩ := rehearse_missing hrun hsame hmissing
  obtain ⟨aborted, haborted, hposts, hreplies⟩ := publish_of_rehearse (p := p)
    (w := { w with files := files }) (hitems ▸ hstop)
  refine ⟨failure, aborted, _, haborted, hitem, hfailure, hposts, ?_⟩
  rw [hreplies, List.length_take, Nat.min_eq_left]
  rw [length_sent h]
  exact Nat.le_of_lt hk

/-- Where publishing comes to its end, a useless reply or a missing file in its way would have stopped it on
the spot. -/
theorem publish_fail_stop (p : Publisher) (w done : World) (hdone : p.publish w = .ok () done) :
    p.StopsAtReply w ∧ p.StopsAtFile w :=
  ⟨stopsAtReply hdone, stopsAtFile hdone⟩

/-- The small tree is published with four requests. A refusal of the third one, for the page `B`, stops
publishing behind it, and without the content of `B` it stops before it. -/
theorem small_tree_stops :
    ∃ done, smallTree.publish (smallWorld (text "1")) = .ok () done ∧
      (∃ failure aborted, smallTree.publish { smallWorld (text "1") with
          replies := replaceReply 2 (.answer ⟨500, none⟩ [])
            (smallWorld (text "1")).replies } =
            .error (.failure failure) aborted ∧
        failure.status? = some ⟨500, none⟩ ∧ (posts aborted.trace).length = 3) ∧
      ∃ failure aborted, smallTree.publish { smallWorld (text "1") with
          files := (smallWorld (text "1")).files.remove
            (smallTree.locate (text "b")) } = .error (.failure failure) aborted ∧
        failure.path? = some (smallTree.locate (text "b")) ∧ (posts aborted.trace).length = 2 := by
  obtain ⟨_, done, hdone⟩ := Run.completes_iff.mp
    (show smallTree.publish.completes (smallWorld (text "1")) = true by decide +kernel)
  have hsent : (smallTree.publish.sent (smallWorld (text "1"))).map Post.activity =
      [.creatingPage, .uploadingAttachment, .creatingPage, .creatingPage] := by
    decide +kernel
  have hlength := congrArg List.length hsent
  rw [List.length_map] at hlength
  have hthird := congrArg (fun activities => activities[2]?) hsent
  simp only [List.getElem?_map] at hthird
  obtain ⟨post, hpost, hactivity⟩ := Option.map_eq_some_iff.mp hthird
  obtain ⟨hreply, hfile⟩ := publish_fail_stop smallTree _ done hdone
  refine ⟨done, hdone, ?_, ?_⟩
  · obtain ⟨failure, aborted, haborted, hfailure, hposts, -⟩ :=
      hreply 2 post hpost (.answer ⟨500, none⟩ []) (by rw [hactivity]; rfl) _ fun _ _ => rfl
    refine ⟨failure, aborted, haborted, hfailure, ?_⟩
    rw [hposts, List.length_append, List.length_take, hlength]
    rfl
  · obtain ⟨failure, aborted, reference, haborted, hreference, hfailure, hposts, -⟩ :=
      hfile (smallTree.locate (text "b")) (by decide +kernel) 2 (by decide +kernel) _
        fun _ _ => rfl
    have hb : smallTree.references[2]? = some (smallTree.locate (text "b")) := by decide +kernel
    obtain rfl := Option.some.inj (hreference.symm.trans hb)
    refine ⟨failure, aborted, haborted, hfailure, ?_⟩
    rw [hposts, List.length_append, List.length_take, hlength]
    rfl

end Publisher

end PageTree
