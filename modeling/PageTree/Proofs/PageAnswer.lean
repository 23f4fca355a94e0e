import PageTree.Proofs.Json.Soundness
import PageTree.Proofs.PageRequest

/-!
# What the answer to a request for a page comes to

Whatever bytes a server answers with, creating a page either yields the identifier that the answer names, or
ends with one of three failures. `Names` says which answers name an identifier, by the grammar of JSON and not
by its reader, and `Complaint` what is said of the others; `NewPage.create_answered` ties both to the run.
-/

set_option autoImplicit false

namespace PageTree

/-! ## Answers -/

/-- An answer names an identifier: the request was accepted, and the body is an object whose last `id` is the
identifier. -/
structure Names (status : Status) (body : Bytes) (id : Text) : Prop where
  isAccepted : status.code = 200
  isLast : ∃ given, Json.SpellsObject Json.lenient (Utf8.decodeLossy body) given ∧
    Members.IsLastOf (text "id") (.str id) given
  nonempty : id ≠ []

/-- What is said of an answer that names no identifier, and what lies behind it. -/
inductive Complaint (status : Status) (body : Bytes) : Text → Option Cause → Prop
  | refused (h : status.code ≠ 200) : Complaint status body (text "error while creating page") none
  | malformed (haccepted : status.code = 200)
      (h : ∀ v, ¬ Json.Spells Json.lenient (Utf8.decodeLossy body) v) :
      Complaint status body (text "could not read JSON response for new page") (some .json)
  | unnamed {v : Value} (haccepted : status.code = 200)
      (hv : Json.Spells Json.lenient (Utf8.decodeLossy body) v) (h : ∀ id, ¬ Names status body id) :
      Complaint status body (text "no content ID in response for new page") none

/-- A failure tells of an answer that names no identifier. -/
structure Failure.TellsOf (f : Failure) (status : Status) (body : Bytes) : Prop where
  hasStatus : f.status? = some status
  complains : ∃ said, Complaint status body said f.cause? ∧
    f.message = said ++ text ": " ++ status.toText

section Answers

variable {status : Status} {body : Bytes} {id : Text}

/-- An answer gives an identifier just if it is an object whose member for the identifier is a text that is
not empty. -/
theorem identifier_eq_ok : Session.identifier status body = .ok id ↔
    ∃ members, Json.read? Json.lenient (Utf8.decodeLossy body) = some (.object members) ∧
      Members.find? (text "id") members = some (.str id) ∧ id ≠ [] := by
  unfold Session.identifier
  split
  · next hread => simp [hread]
  · next members hread =>
      simp only [hread, Option.some.injEq, Value.object.injEq, exists_eq_left']
      split
      · next c t hfind =>
          simp only [hfind, Except.ok.injEq, Option.some.injEq, Value.str.injEq]
          constructor
          · rintro rfl
            exact ⟨rfl, by simp⟩
          · rintro ⟨rfl, -⟩
            rfl
      · next hother =>
          constructor
          · nofun
          · rintro ⟨hfind, hnonempty⟩
            obtain ⟨c, t, rfl⟩ := List.exists_cons_of_ne_nil hnonempty
            exact absurd hfind (hother c t)
  · next v hother hread =>
      constructor
      · nofun
      · rintro ⟨members, hobject, -⟩
        exact absurd (Option.some.inj (hread.symm.trans hobject)) (hother members)

/-- An answer that gives no identifier is no JSON at all, or holds none where it should. -/
theorem identifier_eq_error {f : Failure} (h : Session.identifier status body = .error f) :
    (Json.read? Json.lenient (Utf8.decodeLossy body) = none ∧ f = .answerMalformed status) ∨
      ∃ v, Json.read? Json.lenient (Utf8.decodeLossy body) = some v ∧ f = .identifierMissing status := by
  unfold Session.identifier at h
  split at h
  · next hread =>
      cases h
      exact .inl ⟨hread, rfl⟩
  · next members hread =>
      split at h <;> cases h
      exact .inr ⟨_, hread, rfl⟩
  · next v _ hread =>
      cases h
      exact .inr ⟨_, hread, rfl⟩

/-- An accepted answer is taken for the identifier that it names. -/
theorem identifier_eq_ok_iff_names (haccepted : status.code = 200) :
    Session.identifier status body = .ok id ↔ Names status body id := by
  rw [identifier_eq_ok]
  constructor
  · rintro ⟨members, hread, hfind, hnonempty⟩
    obtain ⟨given, hgiven, rfl⟩ := Json.spells_object_iff.mp (Json.read?_eq_some_iff.mp hread)
    exact ⟨haccepted, ⟨given, hgiven, Members.find?_ofList.mp hfind⟩, hnonempty⟩
  · rintro ⟨-, ⟨given, hgiven, hlast⟩, hnonempty⟩
    have hread := (Json.spells_object_iff.mpr ⟨given, hgiven, rfl⟩).read?_eq
    exact ⟨_, hread, Members.find?_ofList.mpr hlast, hnonempty⟩

/-- A failure to find an identifier in an accepted answer tells of the answer. -/
theorem tellsOf_of_identifier {f : Failure} (haccepted : status.code = 200)
    (h : Session.identifier status body = .error f) : f.TellsOf status body := by
  rcases identifier_eq_error h with ⟨hread, rfl⟩ | ⟨v, hread, rfl⟩
  · refine ⟨rfl, _, .malformed haccepted fun v hv => ?_, rfl⟩
    rw [hv.read?_eq] at hread
    cases hread
  · refine ⟨rfl, _, .unnamed haccepted (Json.read?_eq_some_iff.mp hread) fun id hid => ?_, rfl⟩
    rw [(identifier_eq_ok_iff_names haccepted).mpr hid] at h
    cases h

/-- So does the failure of a request for a page that is refused. -/
theorem tellsOf_refused (hrefused : status.code ≠ 200) :
    (Failure.requestRefused .creatingPage status).TellsOf status body :=
  ⟨rfl, _, .refused hrefused, rfl⟩

variable {p : Post}

/-- A response identifies a page just if its answer names it. -/
theorem identified_eq_ok_iff_names :
    (Response.answer status body).identified p = .ok id ↔ Names status body id := by
  unfold Response.identified Response.accepted
  by_cases hcode : status.code = 200
  · simp only [hcode, ne_eq, not_true_eq_false, ↓reduceIte]
    exact identifier_eq_ok_iff_names hcode
  · simp only [hcode, ne_eq, not_false_eq_true, ↓reduceIte]
    exact ⟨nofun, fun h => absurd h.isAccepted hcode⟩

/-- A response that identifies no page fails in the way that tells what was wrong with its answer. -/
theorem tellsOf_of_identified {f : Failure} (hp : p.activity = .creatingPage)
    (h : (Response.answer status body).identified p = .error f) : f.TellsOf status body := by
  unfold Response.identified Response.accepted at h
  by_cases hcode : status.code = 200
  · simp only [hcode, ne_eq, not_true_eq_false, ↓reduceIte] at h
    exact tellsOf_of_identifier hcode h
  · simp only [hcode, ne_eq, not_false_eq_true, ↓reduceIte, hp] at h
    obtain rfl := Except.error.inj h
    exact tellsOf_refused hcode

end Answers

namespace NewPage

/-- When a request for a page is answered, whatever the answer, an identifier comes out just if the answer
names it. If it names none, the run ends with a failure that tells of the answer. -/
theorem create_answered (n : NewPage) (s : Session) (w : World) {status : Status} {body : Bytes}
    (hsent : (n.create s).sent w ≠ [])
    (hanswer : w.server.respond .creatingPage = .answer status body) :
    (∀ id, (n.create s).value? w = some id ↔ Names status body id) ∧
      ((∀ id, ¬ Names status body id) →
        ∃ f : Failure, (n.create s).fault? w = some (.failure f) ∧ f.TellsOf status body) := by
  have hperforms : Performs (n.create s) w _ :=
    s.createPage_performs n.spaceKey n.title n.content n.parentId w
  cases hpost : s.pagePost n.spaceKey n.title n.content n.parentId with
  | error fault => exact absurd (create_of_fault hpost w).1 hsent
  | ok p =>
      rw [hpost, hanswer] at hperforms
      have hactivity : p.activity = .creatingPage := by
        obtain ⟨-, fields, -, rfl⟩ := Session.pagePost_eq_ok.mp hpost
        rfl
      dsimp only at hperforms
      simp only [hperforms.value?_eq_some, hperforms.fault?_eq_some]
      cases hidentified : (Response.answer status body).identified p with
      | ok id =>
          have hnames := identified_eq_ok_iff_names.mp hidentified
          refine ⟨fun other => ?_, fun hnone => absurd hnames (hnone id)⟩
          rw [← identified_eq_ok_iff_names (p := p), hidentified]
          simp [Except.mapError]
      | error f =>
          refine ⟨fun id => ?_, fun _ => ⟨f, rfl, tellsOf_of_identified hactivity hidentified⟩⟩
          rw [← identified_eq_ok_iff_names (p := p), hidentified]
          exact ⟨nofun, nofun⟩

/-- A server answers the first request with a body, and gives no reason for the status. -/
def answeringWorld (code : Int) (body : Bytes) : World :=
  .start (.empty (.ofText (text "/w"))) [.answer ⟨code, none⟩ body]

/-- A body with two values for `id`, of which only the last is a text. One of the keys has an escape in it. -/
def namingBody : Bytes :=
  (text "\x7b\"id\": [NaN, 1], \"\\u0069d\": \"7\"\x7d\n").flatMap Utf8.unit

/-- The same values in the other order. -/
def namelessBody : Bytes := (text "\x7b\"id\": \"7\", \"id\": [NaN, 1]\x7d").flatMap Utf8.unit

/-- The last value counts. It makes the identifier of the page, or the failure to find one. -/
theorem last_id_is_answered :
    ((oddPage none).create keyedSession).value? (answeringWorld 200 namingBody) = some (text "7") ∧
      Names ⟨200, none⟩ namingBody (text "7") ∧
      ∃ f : Failure, f.TellsOf ⟨200, none⟩ namelessBody ∧
        ((oddPage none).create keyedSession).fault? (answeringWorld 200 namelessBody) =
          some (.failure f) := by
  have hanswer : ∀ body, (answeringWorld 200 body).server.respond .creatingPage =
      .answer ⟨200, none⟩ body := fun _ => rfl
  have hnaming := create_answered (oddPage none) keyedSession (answeringWorld 200 namingBody)
    (by decide +kernel) (hanswer namingBody)
  have hnameless := create_answered (oddPage none) keyedSession (answeringWorld 200 namelessBody)
    (by decide +kernel) (hanswer namelessBody)
  have hvalue : ((oddPage none).create keyedSession).value? (answeringWorld 200 namingBody) =
      some (text "7") := by decide +kernel
  have hnone : ((oddPage none).create keyedSession).value? (answeringWorld 200 namelessBody) =
      none := by decide +kernel
  refine ⟨hvalue, (hnaming.1 _).mp hvalue, ?_⟩
  obtain ⟨f, hfault, htells⟩ := hnameless.2 fun id hid => by
    rw [← hnameless.1, hnone] at hid
    cases hid
  exact ⟨f, htells, hfault⟩

end NewPage

end PageTree
