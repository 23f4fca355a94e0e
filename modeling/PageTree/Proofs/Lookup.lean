import Mathlib.Data.List.Forall2
import PageTree.Proofs.CommandLine.Outcome
import PageTree.Proofs.FileSystem.Absolute
import PageTree.Proofs.Foreseen
import PageTree.Proofs.SavedTree

/-!
# Where files are looked up

The files of a tree are looked up by path, seen from the directory of the metadata file. How the paths are
spelled makes no difference: a publisher that reads a respelled tree, from a metadata file whose path is
respelled or made absolute, sends the same requests and comes to the same end (`runAlike_of_respelled`). The
one thing that can come in between is the length of the path of the metadata file, since the absolute path may
be too long to be opened.
-/

set_option autoImplicit false

namespace PageTree

/-! ## Respelled trees -/

mutual

/-- The second page spells the same paths, and the pages below it do. -/
inductive Page.Respelled : Page → Page → Prop
  | page (title : Text) {contentPath contentPath' : Text} {attachments attachments' : List Text}
    {children children' : List Page} (hcontent : Path.Respelled contentPath contentPath')
    (hattachments : List.Forall₂ Path.Respelled attachments attachments')
    (hchildren : Page.AllRespelled children children') :
    Page.Respelled ⟨title, contentPath, attachments, children⟩
      ⟨title, contentPath', attachments', children'⟩

/-- The pages of the second list spell the same paths as those of the first, one by one. -/
inductive Page.AllRespelled : List Page → List Page → Prop
  | nil : Page.AllRespelled [] []
  | cons {page page' : Page} {pages pages' : List Page} (hpage : page.Respelled page')
    (hpages : Page.AllRespelled pages pages') : Page.AllRespelled (page :: pages) (page' :: pages')

end

/-- The second tree is the first one with its paths respelled. -/
structure Metadata.Respelled (m m' : Metadata) : Prop where
  spaceKey : m'.spaceKey = m.spaceKey
  pages : Page.AllRespelled m.pages m'.pages
  parentId : m'.parentId = m.parentId

mutual

/-- A page spells its paths like itself. -/
theorem Page.Respelled.refl : (page : Page) → page.Respelled page
  | ⟨title, contentPath, _, children⟩ =>
    .page title (.refl contentPath) (List.forall₂_same.mpr fun s _ => .refl s)
      (Page.AllRespelled.refl children)

/-- Pages spell their paths like themselves. -/
theorem Page.AllRespelled.refl : (pages : List Page) → Page.AllRespelled pages pages
  | [] => .nil
  | page :: pages => .cons (Page.Respelled.refl page) (Page.AllRespelled.refl pages)

end

/-- A tree spells its paths like itself. -/
theorem Metadata.Respelled.refl (m : Metadata) : m.Respelled m := ⟨rfl, .refl m.pages, rfl⟩

namespace Publisher

/-! ## Publishing a respelled tree -/

section

variable (session : Session) (spaceKey : Text) (root : Path)

/-- Attachments are uploaded in the same way under every spelling of their paths. -/
theorem uploadAll_of_respelled (pageId : Text) {attachments attachments' : List Text}
    (h : List.Forall₂ Path.Respelled attachments attachments') :
    uploadAll session root pageId attachments = uploadAll session root pageId attachments' := by
  induction h with
  | nil => rfl
  | cons hpath _ ih => rw [uploadAll, uploadAll, Path.ofText_eq_of_respelled hpath, ih]

mutual

/-- A page is published in the same way under every spelling of its paths. -/
theorem publishPage_of_respelled {page page' : Page} : page.Respelled page' → (parentId : Option Text) →
    publishPage session spaceKey root parentId page = publishPage session spaceKey root parentId page'
  | .page title hcontent hattachments hchildren, parentId => by
      rw [publishPage, publishPage, Path.ofText_eq_of_respelled hcontent]
      refine congrArg _ (funext fun content => congrArg _ (funext fun id => ?_))
      rw [uploadAll_of_respelled session root id hattachments,
        publishPages_of_respelled hchildren (some id)]

/-- Pages are published in the same way under every spelling of their paths. -/
theorem publishPages_of_respelled {pages pages' : List Page} : Page.AllRespelled pages pages' →
    (parentId : Option Text) →
    publishPages session spaceKey root parentId pages = publishPages session spaceKey root parentId pages'
  | .nil, _ => rfl
  | .cons hpage hpages, parentId => by
      rw [publishPages, publishPages, publishPage_of_respelled hpage parentId,
        publishPages_of_respelled hpages parentId]

end

end

/-- A respelled tree is published in the same way. -/
theorem publish_of_respelled (session : Session) (root : Path) {m m' : Metadata} (h : m.Respelled m') :
    publish ⟨session, m, root⟩ = publish ⟨session, m', root⟩ := by
  unfold publish
  dsimp only
  rw [h.spaceKey, h.parentId]
  exact publishPages_of_respelled session m.spaceKey root h.pages m.parentId

end Publisher

/-! ## Loading by another path -/

/-- A failure to load, as it is reported for another path. -/
def Failure.reportedFor (path : Path) : Failure → Failure
  | .metadataUnreadable _ cause => .metadataUnreadable path cause
  | .metadataMalformed _ cause => .metadataMalformed path cause
  | .spaceKeyMissing _ => .spaceKeyMissing path
  | other => other

/-- A fault, as it is reported for another path of the metadata file. -/
def Fault.reportedFor (path : Path) : Fault → Fault
  | .failure f => .failure (f.reportedFor path)
  | .crash c => .crash c

/-- A failure of publishing does not name the metadata file, so it is reported for any other path as it is. -/
theorem Failure.IsOfPublishing.reportedFor {failure : Failure} (h : failure.IsOfPublishing) (path : Path) :
    failure.reportedFor path = failure := by
  cases h <;> rfl

namespace Metadata

variable {path path' : Path}

/-- Loading comes to what the files determine. -/
theorem outcome_load (path : Path) (w : World) : (load path).outcome w = loaded path w.files := by
  rw [Run.outcome, load_eq]
  cases loaded path w.files <;> rfl

/-- A rejection for one path is that for another one with the path replaced. -/
theorem rejection_reportedFor (path path' : Path) (cause : Cause) :
    rejection path' cause = (rejection path cause).reportedFor path' := by
  cases cause with
  | yaml fault =>
      unfold rejection
      dsimp only
      split <;> rfl
  | _ => rfl

/-- A text is read from two files with the same kind of suffix alike, apart from the path in a report. -/
theorem ofFile_reportedFor (hsuffix : isYamlPath path' = isYamlPath path) (s : Text) :
    ofFile path' s = (ofFile path s).mapError (Fault.reportedFor path') := by
  unfold ofFile ofText
  rw [hsuffix]
  cases (if isYamlPath path then ofYaml s else ofJson s) with
  | error cause => exact congrArg Except.error (rejection_reportedFor path path' cause)
  | ok m =>
      dsimp only
      split <;> rfl

/-- Two paths to the same file, with the same kind of suffix, are loaded alike. -/
theorem loaded_reportedFor {files : FileSystem} (hread : files.read path' = files.read path)
    (hsuffix : (∃ content, files.read path = .ok content) → isYamlPath path' = isYamlPath path) :
    loaded path' files = (loaded path files).mapError (Fault.reportedFor path') := by
  unfold loaded FileSystem.textAt FileSystem.contentAt
  rw [hread]
  cases hcontent : files.read path with
  | error fault => cases fault <;> rfl
  | ok content =>
      dsimp only
      cases Utf8.decode? content with
      | none => rfl
      | some s => exact ofFile_reportedFor (hsuffix ⟨content, hcontent⟩) _

end Metadata

namespace Path

/-- The texts that lead to one file: spellings of a path, and the absolute path. -/
inductive LeadsAlike (directory : Path) : Text → Text → Prop
  | pads {s t : Text} (h : Pads s t) : LeadsAlike directory s t
  | absolute (s : Text) : LeadsAlike directory s ((ofText s).absolute directory).toText

/-- Two texts become the same when they are respelled or made absolute. -/
def SameFile (directory : Path) : Text → Text → Prop := Relation.EqvGen (LeadsAlike directory)

variable {directory p q : Path}

/-- An absolute path is its own absolute form. -/
theorem absolute_of_isAbsolute (h : p.isAbsolute = true) (directory : Path) :
    p.absolute directory = p := by
  rw [absolute, join, if_pos h]

/-- The absolute form of a path is absolute. -/
theorem isAbsolute_absolute (h : directory.isAbsolute = true) (p : Path) :
    (p.absolute directory).isAbsolute = true := by
  unfold absolute join
  split
  · next hp => exact hp
  · exact h

/-- Two spellings of one file have the same absolute form. -/
theorem absolute_eq_of_sameFile (hnormal : directory.Normal) (habsolute : directory.isAbsolute = true)
    {s t : Text} (h : SameFile directory s t) :
    (ofText s).absolute directory = (ofText t).absolute directory := by
  induction h with
  | rel s t halike =>
      cases halike with
      | pads hpads => rw [hpads.ofText_eq]
      | absolute =>
          have hwhole : ((ofText s).absolute directory).Normal := hnormal.join (normal_ofText s)
          rw [ofText_toText hwhole, absolute_of_isAbsolute (isAbsolute_absolute habsolute (ofText s))]
  | refl _ => rfl
  | symm _ _ _ ih => exact ih.symm
  | trans _ _ _ _ _ ih₁ ih₂ => exact ih₁.trans ih₂

/-- Of two paths with the same absolute path, one is that path unless they are the same. -/
theorem cases_of_absolute_eq (h : p.absolute directory = q.absolute directory) :
    p = q ∨ q = p.absolute directory ∨ p = q.absolute directory := by
  cases hp : p.isAbsolute with
  | true => exact .inr (.inr ((absolute_of_isAbsolute hp directory).symm.trans h))
  | false =>
      cases hq : q.isAbsolute with
      | true => exact .inr (.inl ((absolute_of_isAbsolute hq directory).symm.trans h.symm))
      | false =>
          left
          have hroots : p.root = q.root := by
            simp only [isAbsolute, bne_eq_false_iff_eq] at hp hq
            rw [hp, hq]
          have hnames := congrArg names h
          simp only [absolute, join, hp, hq, Bool.false_eq_true, if_false, List.append_cancel_left_eq]
            at hnames
          exact congrArg₂ Path.mk hroots hnames

/-- A path with a name keeps its suffix when it is made absolute. -/
theorem suffix_absolute (h : p.names ≠ []) (directory : Path) :
    (p.absolute directory).suffix = p.suffix := by
  have hname : (p.absolute directory).name = p.name := by
    unfold absolute join
    split
    · rfl
    · simp [name, List.getLastD_eq_getLast?, List.getLast?_append, List.getLast?_eq_getLast_of_ne_nil h]
  unfold suffix
  rw [hname]

end Path

namespace FileSystem.IsInDirectory

variable {fs : FileSystem} {p : Path}

/-- A path to a file has the suffix of the absolute path. -/
theorem isYamlPath_absolute (hfs : fs.IsInDirectory)
    (hlong : (p.absolute fs.workingDirectory).IsOverlong ↔ p.IsOverlong)
    (hfile : ∃ content, fs.read p = .ok content) :
    isYamlPath (p.absolute fs.workingDirectory) = isYamlPath p := by
  cases hp : p.isAbsolute with
  | true => rw [Path.absolute_of_isAbsolute hp]
  | false =>
      by_cases hnames : p.names = []
      · -- Without names the path leads to the working directory, which is no file.
        obtain ⟨content, hcontent⟩ := hfile
        have hdirectory : p.absolute fs.workingDirectory = fs.workingDirectory := by
          rw [Path.absolute, Path.join, if_neg (by simp [hp]), hnames, List.append_nil]
        rw [← read_absolute hfs hlong, hdirectory] at hcontent
        exact absurd hcontent (hfs.noFile content)
      · unfold isYamlPath
        rw [Path.suffix_absolute hnames]

end FileSystem.IsInDirectory

/-- Two paths that are the same when made absolute are loaded alike, if both or neither are too long. -/
theorem Metadata.loaded_of_absolute_eq {files : FileSystem} (hplace : files.IsInDirectory) {p q : Path}
    (habsolute : p.absolute files.workingDirectory = q.absolute files.workingDirectory)
    (hlong : p.IsOverlong ↔ q.IsOverlong) :
    loaded q files = (loaded p files).mapError (Fault.reportedFor q) := by
  rcases Path.cases_of_absolute_eq habsolute with rfl | hq | hp
  · exact loaded_reportedFor rfl fun _ => rfl
  · rw [hq] at hlong ⊢
    exact loaded_reportedFor (FileSystem.read_absolute hplace hlong.symm)
      (hplace.isYamlPath_absolute hlong.symm)
  · rw [hp] at hlong ⊢
    have hread := FileSystem.read_absolute hplace hlong
    exact loaded_reportedFor hread.symm fun hfile =>
      (hplace.isYamlPath_absolute hlong (hread ▸ hfile)).symm

/-! ## Runs on respelled trees -/

/-- The second world has the metadata file of the first one with the paths in it respelled. The server is the
same, and so are the files that the tree refers to. -/
structure World.Respelled (path : Path) (w w' : World) : Prop where
  server : w'.server = w.server
  directory : w'.files.workingDirectory = w.files.workingDirectory
  tree : (∃ fault, (Metadata.load path).outcome w = .error fault ∧
      (Metadata.load path).outcome w' = .error fault) ∨
    ∃ m m', (Metadata.load path).outcome w = .ok m ∧ (Metadata.load path).outcome w' = .ok m' ∧
      m.Respelled m' ∧
      ∀ q ∈ m.filePaths (path.absolute w.files.workingDirectory).parent, w'.files.read q = w.files.read q

/-- A world spells the paths of a tree like itself. -/
theorem World.Respelled.refl (path : Path) (w : World) : w.Respelled path w := by
  refine ⟨rfl, rfl, ?_⟩
  cases houtcome : (Metadata.load path).outcome w with
  | error fault => exact .inl ⟨fault, rfl, rfl⟩
  | ok m => exact .inr ⟨m, m, rfl, rfl, .refl m, fun _ _ => rfl⟩

namespace Publisher

/-- Two runs load a publisher with the same directory, send the same requests and come to the same end, but
that a failure to load names the path of its own metadata file. -/
structure RunAlike (session : Session) (path : Path) (w : World) (path' : Path) (w' : World) : Prop where
  contentRoot : ((load session path').outcome w').map contentRoot =
    (((load session path).outcome w).map contentRoot).mapError (Fault.reportedFor path')
  sent : (loadAndPublish session path').sent w' = (loadAndPublish session path).sent w
  outcome : (loadAndPublish session path').outcome w' =
    ((loadAndPublish session path).outcome w).mapError (Fault.reportedFor path')

/-- A publisher takes the files of its tree from a directory. -/
structure LooksUpIn (p : Publisher) (directory : Path) (w : World) : Prop where
  contentRoot : p.contentRoot = directory
  /-- A path without a root starts from the directory. -/
  relative : ∀ s, (Path.ofText s).isAbsolute = false →
    p.locate s = ⟨directory.root, directory.names ++ (Path.ofText s).names⟩
  /-- What is sent has been read at the paths of the tree, seen from the directory. -/
  sent : ∀ post ∈ p.publish.sent w, ∃ item ∈ items (outline 0 p.metadata.pages),
    match item with
    | .page _ page => p.Creates w.files page post
    | .attachment path => ∃ id, p.Uploads w.files id path post
  /-- The path that a failure names is one of these paths, and nothing is left to be dropped from it. -/
  failure : ∀ f path, p.publish.outcome w = .error (.failure f) → f.path? = some path →
    (∃ item ∈ items (outline 0 p.metadata.pages), path = directory.join (Path.ofText item.path)) ∧
      Path.ofText path.toText = path

variable {session : Session} {p : Publisher} {w w' : World}

/-- The fault of a rehearsal is that of an item or of a response, and never names the metadata file. -/
theorem reportedFor_rehearse (p : Publisher) (files : FileSystem) (v : Server) (todo : List Item)
    (path : Path) :
    (silent (p.rehearse files v [] todo)).2.mapError (Fault.reportedFor path) =
      (silent (p.rehearse files v [] todo)).2 := by
  cases hrun : p.rehearse files v [] todo with
  | mk ps ending =>
      rcases ending with (f | c) | final
      · obtain ⟨-, item, -, -, middle, -, -, hstop⟩ := stop_of_rehearse hrun
        have hpublishing : f.IsOfPublishing := by
          rcases hstop with hprepare | ⟨post, r, other, hother, heq⟩
          · exact (isOfPreparing_of_prepare hprepare).isOfPublishing
          · exact Fault.failure.inj heq ▸ hother.isOfPublishing
        exact congrArg (Except.error ∘ Fault.failure) (hpublishing.reportedFor path)
      · rfl
      · rfl

/-- Publishing a respelled tree is rehearsed alike. -/
theorem rehearse_of_respelled (session : Session) {root : Path} {m m' : Metadata} (hm : m.Respelled m')
    (hserver : w'.server = w.server)
    (hfiles : ∀ q ∈ m.filePaths root, w'.files.read q = w.files.read q) :
    silent (rehearse ⟨session, m', root⟩ w'.files w'.server [] (items (outline 0 m'.pages))) =
      silent (rehearse ⟨session, m, root⟩ w.files w.server [] (items (outline 0 m.pages))) := by
  have hpublish := publish_performs ⟨session, m', root⟩ w'
  rw [← publish_of_respelled session root hm] at hpublish
  have hsame := hpublish.unique (publish_performs ⟨session, m, root⟩ w')
  refine hsame.trans (congrArg silent ?_)
  refine rehearse_congr [] (fun item hitem => hfiles _ ?_) (by rw [hserver])
  have hreference : locate ⟨session, m, root⟩ item.path ∈ references ⟨session, m, root⟩ :=
    locate_items ⟨session, m, root⟩ ▸ List.mem_map_of_mem hitem
  exact hreference

/-- A publisher that has been loaded looks up its files in the directory of the metadata file. -/
theorem lookUpIn {path : Path} {done : World} (hload : load session path w = .ok p done)
    (hplace : w.files.IsInDirectory) (hpath : path.Normal) :
    p.LooksUpIn (path.absolute w.files.workingDirectory).parent w := by
  have hroot : p.contentRoot = (path.absolute w.files.workingDirectory).parent := by
    have hloaded := loaded_of_load session path hload
    unfold loaded at hloaded
    cases hm : Metadata.loaded path w.files with
    | error fault => simp [hm, Except.map] at hloaded
    | ok m =>
        rw [hm] at hloaded
        rw [← Except.ok.inj hloaded]
  refine ⟨hroot, ?_, ?_, ?_⟩
  · intro s hs
    rw [locate, Path.join, if_neg (by simp [hs]), hroot]
  · intro post hpost
    rw [publish_sent] at hpost
    obtain ⟨item, hitem, before, hprepare⟩ := prepared_of_mem_rehearse hpost
    refine ⟨item, hitem, ?_⟩
    cases item with
    | page depth page => exact (creates_of_prepare hprepare).1
    | attachment path => exact ⟨_, uploads_of_prepare hprepare⟩
  · intro f path' hfault hnamed
    have hrehearsal := (publish_performs p w).outcome_eq
    rw [hfault] at hrehearsal
    cases hrun : p.rehearse w.files w.server [] (items (outline 0 p.metadata.pages)) with
    | mk ps ending =>
        rw [hrun] at hrehearsal
        cases ending with
        | ok final => cases hrehearsal
        | error fault =>
            obtain rfl : Fault.failure f = fault := Except.error.inj hrehearsal
            obtain ⟨before, item, after, -, middle, hitems, -, hstop⟩ := stop_of_rehearse hrun
            have hlocated : path' = p.locate item.path := by
              rcases hstop with hprepare | ⟨post, r, other, hother, heq⟩
              · exact (isOfPreparing_of_prepare hprepare).path_eq hnamed
              · rw [Fault.failure.inj heq, hother.path?] at hnamed
                cases hnamed
            refine ⟨⟨item, hitems ▸ List.mem_append_right _ List.mem_cons_self, ?_⟩, ?_⟩
            · rw [hlocated, locate, hroot]
            · rw [hlocated, locate, hroot]
              have habsolute : (path.absolute w.files.workingDirectory).Normal := hplace.normal.join hpath
              exact Path.ofText_toText (habsolute.parent.join (Path.normal_ofText _))

/-- Spelling makes no difference. Take a metadata file whose path is respelled or made absolute, and paths in
its tree that are respelled: the directory, the requests and the end of loading and publishing stay the same.
For the path of the metadata file both or neither of the two paths must be too long to be opened. The files of
the tree are looked up in the directory of the metadata file. -/
theorem runAlike_of_respelled (session : Session) {s t : Text} {w w' : World}
    (hplace : w.files.IsInDirectory) (hpath : Path.SameFile w.files.workingDirectory s t)
    (hlong : (Path.ofText s).IsOverlong ↔ (Path.ofText t).IsOverlong)
    (hworlds : w.Respelled (Path.ofText t) w') :
    RunAlike session (Path.ofText s) w (Path.ofText t) w' ∧
      ∀ p done, load session (Path.ofText s) w = .ok p done →
        p.LooksUpIn ((Path.ofText s).absolute w.files.workingDirectory).parent w := by
  have habsolute := Path.absolute_eq_of_sameFile hplace.normal hplace.isAbsolute hpath
  refine ⟨?_, fun p done hload => lookUpIn hload hplace (Path.normal_ofText s)⟩
  generalize Path.ofText s = path at *
  generalize Path.ofText t = path' at *
  have hsame := Metadata.loaded_of_absolute_eq hplace habsolute hlong
  obtain ⟨hserver, hdirectory, htree⟩ := hworlds
  rw [Metadata.outcome_load, Metadata.outcome_load] at htree
  have hloading := (load_performs session path w).outcome_eq
  have hloading' := (load_performs session path' w').outcome_eq
  have hrun := loadAndPublish_performs session path w
  have hrun' := loadAndPublish_performs session path' w'
  rcases htree with ⟨fault, hfault, hfault'⟩ | ⟨m, m', hm, hm', hrespelled, hfiles⟩
  · rw [hfault] at hsame
    cases hloaded : Metadata.loaded path w.files with
    | ok m => simp [hloaded, Except.mapError] at hsame
    | error other =>
        rw [hloaded] at hsame
        obtain rfl : fault = other.reportedFor path' := Except.error.inj hsame
        simp only [result, loaded, hloaded, hfault', Except.map, andThen_error] at hloading hloading' hrun hrun'
        exact
          { contentRoot := by rw [hloading, hloading']; rfl
            sent := by rw [hrun.sent_eq, hrun'.sent_eq]
            outcome := by rw [hrun.outcome_eq, hrun'.outcome_eq]; rfl }
  · rw [hm] at hsame
    cases hloaded : Metadata.loaded path w.files with
    | error other => simp [hloaded, Except.mapError] at hsame
    | ok found =>
        rw [hloaded] at hsame
        obtain rfl : m = found := Except.ok.inj hsame
        have hrehearse := rehearse_of_respelled session hrespelled hserver hfiles
        simp only [result, loaded, hloaded, hm', Except.map, andThen_ok, hdirectory, habsolute, hrehearse,
          List.nil_append] at hloading hloading' hrun hrun'
        exact
          { contentRoot := by rw [hloading, hloading']; rfl
            sent := by rw [hrun.sent_eq, hrun'.sent_eq]
            outcome := by rw [hrun.outcome_eq, hrun'.outcome_eq, reportedFor_rehearse] }

/-! ## A respelled tree, and a path that is too long -/

/-- A world with a metadata file, the content of a page, an attachment and a directory in its working
directory. -/
def workWorld (metadata : Bytes) : World :=
  .start
    ⟨.directory
      [((text "work").flatMap Utf8.unit, .directory
        [([109], .file metadata), ([99], .file [67]), ([102], .file [70]), ([97], .directory [])])],
      .ofText (text "/work")⟩ []

/-- The world of the example has a working directory. -/
theorem isInDirectory_workWorld (metadata : Bytes) : (workWorld metadata).files.IsInDirectory where
  normal := Path.normal_ofText (text "/work")
  isAbsolute := rfl
  nameable := by
    show (Path.ofText (text "/work")).isNameable = true
    decide +kernel
  noFile := by
    have hread : (workWorld metadata).files.read (.ofText (text "/work")) = .error (.file .isDirectory) := rfl
    exact fun content hcontent => nomatch hread.symm.trans hcontent

/-- A tree of one page with an attachment. -/
def spelledTree (content attachment : Text) : Metadata :=
  ⟨text "S", [⟨text "A", content, [attachment], []⟩], none⟩

/-- The tree of the example is loaded in its world. -/
theorem outcome_load_workWorld {b : Bytes} {content attachment : Text}
    (h : Metadata.ofPayload b = .ok (spelledTree content attachment)) :
    (Metadata.load (.ofText (text "/work/./m"))).outcome (workWorld b) = .ok (spelledTree content attachment) := by
  have hread : (workWorld b).files.read (.ofText (text "/work/./m")) = .ok b := rfl
  have hfile : Metadata.ofJsonFile (.ofText (text "/work/./m")) b = .ok (spelledTree content attachment) :=
    (Metadata.ofJsonFile_eq_ok _).mpr ⟨h, rfl⟩
  rw [Run.outcome, Metadata.load_json hread (by decide +kernel), hfile]
  rfl

/-- A dot in the path of the metadata file and in that of a page, and a slash behind the name of an attachment,
make no difference to a tree. -/
theorem runAlike_spelledTree :
    ∃ b b', (workWorld b).files.IsInDirectory ∧
      Path.SameFile (workWorld b).files.workingDirectory (text "m") (text "/work/./m") ∧
      ((Path.ofText (text "m")).IsOverlong ↔ (Path.ofText (text "/work/./m")).IsOverlong) ∧
      (workWorld b).Respelled (Path.ofText (text "/work/./m")) (workWorld b') ∧
      RunAlike ⟨text "http://wiki", none, none⟩ (Path.ofText (text "m")) (workWorld b)
        (Path.ofText (text "/work/./m")) (workWorld b') := by
  obtain ⟨b, hb⟩ : ∃ b, Metadata.ofPayload b = .ok (spelledTree (text "c") (text "f")) :=
    Metadata.exists_ofPayload_eq (by decide) (by decide)
  obtain ⟨b', hb'⟩ : ∃ b, Metadata.ofPayload b = .ok (spelledTree (text "./c") (text "f/")) :=
    Metadata.exists_ofPayload_eq (by decide) (by decide)
  have hdirectory : Path.HasName (text "/work") := ⟨CodePoint.ofChar 'w', by simp [text], by decide⟩
  have hname : Path.HasName (text "f") := ⟨CodePoint.ofChar 'f', by simp [text], by decide⟩
  have hpath : Path.SameFile (workWorld b).files.workingDirectory (text "m") (text "/work/./m") :=
    .trans _ (text "/work/m") _ (.rel _ _ (.absolute (text "m")))
      (.rel _ _ (.pads (.inside hdirectory (.inr rfl) (text "m"))))
  have hlong : (Path.ofText (text "m")).IsOverlong ↔ (Path.ofText (text "/work/./m")).IsOverlong := by
    decide +kernel
  have htree : (spelledTree (text "c") (text "f")).Respelled (spelledTree (text "./c") (text "f/")) :=
    { spaceKey := rfl
      pages := .cons
        (.page (text "A") (.rel _ _ (.dotFirst 0 (by decide)))
          (.cons (.rel _ _ (.last hname (.inl rfl))) .nil) .nil)
        .nil
      parentId := rfl }
  have hworlds : (workWorld b).Respelled (Path.ofText (text "/work/./m")) (workWorld b') := by
    refine ⟨rfl, rfl, .inr ⟨_, _, outcome_load_workWorld hb, outcome_load_workWorld hb', htree, ?_⟩⟩
    intro q hq
    have hpaths : Metadata.filePaths
        ((Path.ofText (text "/work/./m")).absolute (workWorld b).files.workingDirectory).parent
        (spelledTree (text "c") (text "f")) = [.ofText (text "/work/c"), .ofText (text "/work/f")] := rfl
    rw [hpaths] at hq
    rcases List.mem_pair.mp hq with rfl | rfl <;> rfl
  exact ⟨b, b', isInDirectory_workWorld b, hpath, hlong, hworlds,
    (runAlike_of_respelled _ (isInDirectory_workWorld b) hpath hlong hworlds).1⟩

/-- A long path to the file `m` in the working directory. -/
def longSpelling : Text := (List.replicate 818 (text "a/../")).flatten ++ text "m"

/-- Its absolute path. -/
def longerSpelling : Text := ((Path.ofText longSpelling).absolute (.ofText (text "/work"))).toText

/-- The directory of that file, as it is reached by this path. -/
def longDirectory : Path := ((Path.ofText longSpelling).absolute (.ofText (text "/work"))).parent

/-- A tree of one page. -/
def tinyFile : Bytes :=
  (text "\x7b\"spaceKey\":\"S\",\"pages\":[\x7b\"title\":\"A\",\"contentFilePath\":\"c\"\x7d]\x7d").flatMap
    Utf8.unit

/-- A metadata file may be opened by a path though the absolute path is too long for that. Then it matters which
of the two is given, and the content of the page is not found, though it is in the directory. -/
theorem long_path_is_not_alike :
    (workWorld tinyFile).files.IsInDirectory ∧
      Path.SameFile (workWorld tinyFile).files.workingDirectory longSpelling longerSpelling ∧
      (workWorld tinyFile).Respelled (Path.ofText longerSpelling) (workWorld tinyFile) ∧
      ¬ RunAlike ⟨text "http://wiki", none, none⟩ (Path.ofText longSpelling) (workWorld tinyFile)
        (Path.ofText longerSpelling) (workWorld tinyFile) ∧
      (loadAndPublish ⟨text "http://wiki", none, none⟩ (.ofText longSpelling)).outcome (workWorld tinyFile) =
        .error (.failure (.contentUnreadable (longDirectory.join (.ofText (text "c"))) (.file .nameTooLong))) ∧
      (workWorld tinyFile).files.read (.ofText (text "/work/c")) = .ok [67] := by
  have hrelative : (loadAndPublish ⟨text "http://wiki", none, none⟩ (.ofText longSpelling)).fault?
      (workWorld tinyFile) = some (.failure
        (.contentUnreadable (longDirectory.join (.ofText (text "c"))) (.file .nameTooLong))) := by
    decide +kernel
  have habsolute : (loadAndPublish ⟨text "http://wiki", none, none⟩ (.ofText longerSpelling)).fault?
      (workWorld tinyFile) = some (.failure
        (.metadataUnreadable (.ofText longerSpelling) (.file .nameTooLong))) := by
    decide +kernel
  rw [← Run.outcome_eq_error] at hrelative habsolute
  refine ⟨isInDirectory_workWorld tinyFile, .rel _ _ (.absolute longSpelling), .refl _ _, ?_, hrelative, rfl⟩
  intro halike
  have hsame := halike.outcome
  rw [hrelative, habsolute] at hsame
  cases Except.error.inj hsame

end Publisher

end PageTree
