import PageTree.Proofs.Session
import PageTree.Proofs.Json.LineEnds

/-!
# Loading a tree

What comes of loading depends on the file alone (`load_apply`). A file in JSON is read as text, with strict
UTF-8 and with line ends made alike, and only then as JSON. `load_eq_ok_iff_ofPayload` says that this detour
leaves no trace: the outcome is that of reading the bytes themselves.
-/

set_option autoImplicit false

namespace PageTree

/-- The failures to load the file at a path: it cannot be read, describes no tree, or names no space. -/
inductive Failure.IsConfiguration (path : Path) : Failure → Prop
  | unreadable (cause : Cause) : IsConfiguration path (.metadataUnreadable path cause)
  | malformed (cause : Cause) : IsConfiguration path (.metadataMalformed path cause)
  | spaceKeyMissing : IsConfiguration path (.spaceKeyMissing path)

namespace Metadata

/-- The tree that a JSON text in UTF-8 describes. -/
def ofPayload (b : Bytes) : Except Cause Metadata :=
  match Utf8.decode? b with
  | some s => ofJson s
  | none => .error .json

/-- The tree that the text of a file describes, by the suffix of the file's path. -/
def ofText (path : Path) (s : Text) : Except Cause Metadata :=
  if isYamlPath path then ofYaml s else ofJson s

/-- The world after it has been noted that a file is going to be loaded. -/
def announced (path : Path) (w : World) : World :=
  w.note (.logged .info (.words (text "Reading metadata: " ++ path.toText)))

/-- Loading reads the text of the file, turns it into a tree and asks for a space key. -/
theorem load_apply (path : Path) (w : World) :
    load path w =
      match w.files.textAt path (.metadataUnreadable path) with
      | .error fault => .error fault (announced path w)
      | .ok s =>
        match ofText path s with
        | .error cause => Run.reject path cause (announced path w)
        | .ok m =>
          if Text.isBlank m.spaceKey then
            .error (.failure (.spaceKeyMissing path)) (announced path w)
          else .ok m (announced path w) := by
  unfold load
  have hlog : Run.log .info (text "Reading metadata: " ++ path.toText) w =
      .ok () (announced path w) := rfl
  have hfiles : (announced path w).files = w.files := rfl
  rw [Run.bind_apply, hlog]
  dsimp only
  rw [Run.bind_apply, Run.readText_apply, hfiles]
  cases w.files.textAt path (.metadataUnreadable path) with
  | error fault => rfl
  | ok s =>
      dsimp only [Run.ending, ofText]
      cases (if isYamlPath path then ofYaml s else ofJson s) with
      | error cause => rfl
      | ok m =>
          dsimp only
          split <;> rfl

/-- The fault of a file that describes no tree. -/
def rejection (path : Path) : Cause → Fault
  | .yaml fault =>
    if fault.isForeseen then .failure (.metadataMalformed path (.yaml fault)) else .crash (.yaml fault)
  | cause => .failure (.metadataMalformed path cause)

/-- A file is rejected by a record of the failure, and nothing else happens. -/
theorem reject_apply (path : Path) (cause : Cause) (w : World) :
    (Run.reject path cause : Run Metadata) w = .error (rejection path cause) w := by
  cases cause with
  | yaml fault =>
      unfold Run.reject rejection
      dsimp only
      split <;> rfl
  | _ => rfl

/-- What the text of a file comes to: a tree that can be published, or the fault of one that cannot. -/
def ofFile (path : Path) (s : Text) : Except Fault Metadata :=
  match ofText path s with
  | .error cause => .error (rejection path cause)
  | .ok m => if Text.isBlank m.spaceKey then .error (.failure (.spaceKeyMissing path)) else .ok m

/-- What loading comes to, in some files. -/
def loaded (path : Path) (files : FileSystem) : Except Fault Metadata :=
  (files.textAt path (.metadataUnreadable path)).bind (ofFile path)

/-- Loading is noted first, and what comes of it depends on the files alone. -/
theorem load_eq (path : Path) (w : World) :
    load path w = Run.ending (loaded path w.files) (announced path w) := by
  rw [load_apply]
  unfold loaded ofFile
  cases w.files.textAt path (.metadataUnreadable path) with
  | error fault => rfl
  | ok s =>
      dsimp only [Except.bind]
      cases ofText path s with
      | error cause => exact reject_apply path cause _
      | ok m =>
          dsimp only
          split <;> rfl

/-- Line ends do not matter to a JSON text. -/
theorem ofJson_unifyLines (s : Text) : ofJson (Text.unifyLines s) = ofJson s := by
  unfold ofJson
  rw [Json.read?_unifyLines]

/-- What is wrong with a JSON text is never a fault of YAML, so it is foreseen. -/
theorem reject_of_ofJson {s : Text} {cause : Cause} (h : ofJson s = .error cause) (path : Path)
    (w : World) :
    (Run.reject path cause : Run Metadata) w =
      .error (.failure (.metadataMalformed path cause)) w := by
  unfold ofJson ofValue at h
  split at h
  · next v _ =>
      cases hshape : Metadata.shape v with
      | error m =>
          rw [hshape] at h
          obtain rfl := Except.error.inj h
          rfl
      | ok m =>
          rw [hshape] at h
          exact absurd h (by simp [Except.mapError])
  · obtain rfl := Except.error.inj h
    rfl

/-- What loading comes to when the bytes of a JSON file have been read. -/
def ofJsonFile (path : Path) (b : Bytes) : Except Failure Metadata :=
  match Utf8.decode? b with
  | none => .error (.metadataUnreadable path .notUtf8)
  | some s =>
    match ofJson s with
    | .error cause => .error (.metadataMalformed path cause)
    | .ok m => if Text.isBlank m.spaceKey then .error (.spaceKeyMissing path) else .ok m

/-- A JSON file gives a tree just if its bytes do and the space key is not blank. -/
theorem ofJsonFile_eq_ok (path : Path) {b : Bytes} {m : Metadata} :
    ofJsonFile path b = .ok m ↔ ofPayload b = .ok m ∧ Text.isBlank m.spaceKey = false := by
  unfold ofJsonFile ofPayload
  cases Utf8.decode? b with
  | none => simp
  | some s =>
      dsimp only
      cases ofJson s with
      | error cause => simp
      | ok found =>
          dsimp only
          cases hkey : Text.isBlank found.spaceKey with
          | true =>
              simp only [if_true, reduceCtorEq, Except.ok.injEq, false_iff, not_and]
              rintro rfl
              simp [hkey]
          | false =>
              simp only [Bool.false_eq_true, if_false, Except.ok.injEq]
              constructor
              · rintro rfl
                exact ⟨rfl, hkey⟩
              · intro h
                exact h.1

/-- A JSON file that gives no tree is reported as a failure of the configuration, with its path. -/
theorem isConfiguration_of_ofJsonFile {path : Path} {b : Bytes} {failure : Failure}
    (h : ofJsonFile path b = .error failure) : failure.IsConfiguration path := by
  unfold ofJsonFile at h
  split at h
  · exact Except.error.inj h ▸ .unreadable .notUtf8
  · split at h
    · next cause _ => exact Except.error.inj h ▸ .malformed cause
    · split at h
      · exact Except.error.inj h ▸ .spaceKeyMissing
      · exact absurd h (by simp)

/-- The text of a JSON file has other line ends than its bytes, and that makes no difference. -/
theorem load_json {path : Path} {w : World} {b : Bytes} (hread : w.files.read path = .ok b)
    (hsuffix : isYamlPath path = false) :
    load path w = Run.ending ((ofJsonFile path b).mapError .failure) (announced path w) := by
  have hcontent : w.files.contentAt path (.metadataUnreadable path) = .ok b :=
    FileSystem.contentAt_eq_ok.mpr hread
  rw [load_apply]
  unfold FileSystem.textAt ofJsonFile
  rw [hcontent]
  dsimp only
  cases Utf8.decode? b with
  | none => rfl
  | some s =>
      have htext : ofText path (Text.unifyLines s) = ofJson s := by
        unfold ofText
        rw [hsuffix, ofJson_unifyLines]
        rfl
      dsimp only
      rw [htext]
      cases hjson : ofJson s with
      | error cause => exact reject_of_ofJson hjson path (announced path w)
      | ok m =>
          dsimp only
          split <;> rfl

/-- A JSON file is loaded as a tree just if its bytes, read as JSON, describe that tree and the tree has a
space key that is not blank. Otherwise loading fails, and the failure is one of those that are foreseen. -/
theorem load_eq_ok_iff_ofPayload {path : Path} {w : World} {b : Bytes}
    (hread : w.files.read path = .ok b) (hsuffix : isYamlPath path = false) :
    (∀ m, (∃ done, load path w = .ok m done) ↔
      ofPayload b = .ok m ∧ Text.isBlank m.spaceKey = false) ∧
    ((¬ ∃ m, ofPayload b = .ok m ∧ Text.isBlank m.spaceKey = false) →
      ∃ failure done, load path w = .error (.failure failure) done ∧
        failure.IsConfiguration path) := by
  rw [load_json hread hsuffix]
  simp only [← ofJsonFile_eq_ok path]
  cases hfile : ofJsonFile path b with
  | ok m =>
      constructor
      · intro n
        constructor
        · rintro ⟨done, hdone⟩
          injection hdone with hm
          rw [hm]
        · intro hm
          exact ⟨announced path w, by rw [Except.ok.inj hm]; rfl⟩
      · intro hnone
        exact absurd ⟨m, rfl⟩ hnone
  | error failure =>
      constructor
      · intro n
        constructor
        · rintro ⟨done, hdone⟩
          exact absurd hdone (by simp [Run.ending, Except.mapError])
        · intro hm
          exact absurd hm (by simp)
      · intro _
        exact ⟨failure, announced path w, rfl, isConfiguration_of_ofJsonFile hfile⟩

/-- A file with three kinds of line ends describes the tree of a space and nothing else. -/
def smallFile : Bytes := (text "\x7b\r\n\"spaceKey\":\r\"S\"\n\x7d\r").flatMap Utf8.unit

/-- A world with one file in its working directory. -/
def worldWith (path : Path) (content : Bytes) : World :=
  .start ((FileSystem.empty (.ofText (text "/w"))).write path (.file content)) []

/-- A file with nothing but a space key is loaded as a tree without pages. -/
theorem load_small_file :
    (worldWith (.ofText (text "m.json")) smallFile).files.read (.ofText (text "m.json")) =
        .ok smallFile ∧
      isYamlPath (.ofText (text "m.json")) = false ∧
      ∃ done, load (.ofText (text "m.json")) (worldWith (.ofText (text "m.json")) smallFile) =
        .ok ⟨text "S", [], none⟩ done := by
  have hread : (worldWith (.ofText (text "m.json")) smallFile).files.read
      (.ofText (text "m.json")) = .ok smallFile := by
    decide +kernel
  have hsuffix : isYamlPath (.ofText (text "m.json")) = false := by decide +kernel
  refine ⟨hread, hsuffix, ?_⟩
  apply ((load_eq_ok_iff_ofPayload hread hsuffix).1 _).mpr
  exact ⟨rfl, by decide⟩

end Metadata

end PageTree
