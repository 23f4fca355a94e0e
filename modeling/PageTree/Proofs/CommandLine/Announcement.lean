import PageTree.Proofs.CommandLine.Outcome
import PageTree.Proofs.Tally
import PageTree.Proofs.Text.Cut

/-!
# What the program announces

Before it publishes a tree the program says in its log how many pages and attachments there are and what
space they go to. No other record reads like that (`loaded_of_announced`), and its numbers can be read off it
(`summary_inj`). The numbers are counted along the outline, and so are the requests in a rehearsal, so what is
announced is what is sent.
-/

set_option autoImplicit false

namespace PageTree.CommandLine

/-- The words of an announcement. -/
def summary (pages attachments : Nat) (spaceKey : Text) : Text :=
  text "Publishing " ++ Text.ofNat pages ++ text " page(s) with " ++ Text.ofNat attachments ++
    text " attachment(s) to space " ++ spaceKey

/-- The log of a run: the records that were added between two worlds. -/
def logBetween (w w' : World) : List (Level × Message) := records (w'.trace.drop w.trace.length)

/-- The announcement of a tree is the summary of its counts: the pages and the attachments of its outline, and
the space. -/
theorem announcement_eq_summary (m : Metadata) :
    announcement m =
      summary (outline 0 m.pages).length (attachmentCount (outline 0 m.pages)) m.spaceKey := rfl

/-! ## Reading an announcement -/

/-- A number with a blank behind it can be told from what follows. -/
theorem ofNat_append_blank_inj {n m : Nat} {s t : Text}
    (h : Text.ofNat n ++ CodePoint.ofChar ' ' :: s = Text.ofNat m ++ CodePoint.ofChar ' ' :: t) :
    n = m ∧ s = t := by
  have hblank (k : Nat) : CodePoint.ofChar ' ' ∉ Text.ofNat k := fun hmem =>
    CodePoint.ne_ofChar_of_isDigit (Text.isDigit_of_mem_ofNat k _ hmem) (by decide) rfl
  have hcut := congrArg (Text.cut (CodePoint.ofChar ' ')) h
  rw [Text.cut_of_split (hblank n), Text.cut_of_split (hblank m)] at hcut
  obtain ⟨hnumber, hrest⟩ := Prod.mk.inj hcut
  exact ⟨Text.ofNat_injective hnumber, Option.some.inj hrest⟩

/-- The numbers and the space can be read off an announcement. -/
theorem summary_inj {pages attachments pages' attachments' : Nat} {spaceKey spaceKey' : Text}
    (h : summary pages attachments spaceKey = summary pages' attachments' spaceKey') :
    pages = pages' ∧ attachments = attachments' ∧ spaceKey = spaceKey' := by
  have hwords (n m : Nat) (s : Text) : summary n m s =
      text "Publishing " ++ (Text.ofNat n ++ CodePoint.ofChar ' ' :: (text "page(s) with " ++
        (Text.ofNat m ++ CodePoint.ofChar ' ' :: (text "attachment(s) to space " ++ s)))) := by
    simp [summary, text]
  rw [hwords, hwords] at h
  obtain ⟨hpages, hrest⟩ := ofNat_append_blank_inj (List.append_cancel_left h)
  obtain ⟨hattachments, hspace⟩ := ofNat_append_blank_inj (List.append_cancel_left hrest)
  exact ⟨hpages, hattachments, List.append_cancel_left hspace⟩

/-- Loading and publishing announce nothing themselves. -/
theorem not_isOwn_summary (pages attachments : Nat) (spaceKey : Text) :
    ¬ (Event.logged .info (.words (summary pages attachments spaceKey))).IsOwn := by
  have hhead : (summary pages attachments spaceKey).head? = some (CodePoint.ofChar 'P') := rfl
  generalize hwords : summary pages attachments spaceKey = words at hhead
  generalize hevent : Event.logged .info (.words words) = e
  intro hown
  cases hown with
  | reading | creating | uploading =>
      cases hevent
      cases hhead
  | _ => cases hevent

/-- A report is made of errors. -/
theorem level_of_mem_reportOf {result : Except Fault Unit} {r : Level × Message}
    (h : r ∈ reportOf result) : r.1 = .error := by
  cases result with
  | ok => cases h
  | error fault =>
      cases fault with
      | crash => cases h
      | failure f =>
          rcases List.mem_cons.mp h with rfl | h
          · rfl
          · obtain ⟨cause, -, rfl⟩ := Option.map_eq_some_iff.mp (Option.mem_toList.mp h)
            rfl

/-! ## The run behind an announcement -/

variable {line : List Text} {env : Environment} {w w' : World} {report : Report}

/-- A run of the program that changes the world comes down to publishing and reporting. -/
theorem publishAndReport_of_runWith {a : Arguments} (hrun : runWith env a w = .ok report w')
    (hquiet : w' ≠ w) : ∃ settings path, publishAndReport settings path w = .ok report.ending w' := by
  unfold runWith at hrun
  cases hlevel : a.level? with
  | none =>
      rw [hlevel] at hrun
      injection hrun with _ hworld
      exact absurd hworld.symm hquiet
  | some level =>
      rw [hlevel] at hrun
      dsimp only at hrun
      cases hresolve : Settings.resolve env a.settings with
      | error error =>
          rw [hresolve] at hrun
          cases error <;> injection hrun with _ hworld <;> exact absurd hworld.symm hquiet
      | ok settings =>
          rw [hresolve] at hrun
          dsimp only at hrun
          rw [Run.bind_apply] at hrun
          refine ⟨settings, Path.ofText a.metadata, ?_⟩
          cases hending : publishAndReport settings (Path.ofText a.metadata) w with
          | error fault w₁ =>
              rw [hending] at hrun
              cases hrun
          | ok ending w₁ =>
              rw [hending] at hrun
              injection hrun with hreport hworld
              rw [← hreport, ← hworld]

/-- A run that leaves something in its log has found settings. -/
theorem publishAndReport_of_run (hrun : run line env w = .ok report w')
    (hlog : logBetween w w' ≠ []) :
    ∃ settings path, publishAndReport settings path w = .ok report.ending w' := by
  have hquiet : w' ≠ w := by
    rintro rfl
    simp [logBetween, records] at hlog
  unfold run at hrun
  cases hparse : Arguments.parse line with
  | error stop =>
      rw [hparse] at hrun
      injection hrun with _ hworld
      exact absurd hworld.symm hquiet
  | ok a =>
      rw [hparse] at hrun
      exact publishAndReport_of_runWith hrun hquiet

/-- An announcement among the records of a run is that of a tree that has been loaded: the events of the session
are no records, and the records of the report are errors. -/
theorem loaded_of_announced {session : Session} {path : Path} {files : FileSystem} {during : List Event}
    {headers : Headers} {result : Except Fault Unit} {pages attachments : Nat} {spaceKey : Text}
    (hduring : ∀ e ∈ during, IsOfTask session path files e)
    (hline : (.info, .words (summary pages attachments spaceKey)) ∈
      records (.sessionOpened headers :: (during ++ .sessionClosed :: logEvents (reportOf result)))) :
    ∃ p, Publisher.loaded session path files = .ok p ∧
      announcement p.metadata = summary pages attachments spaceKey := by
  obtain ⟨e, he, hrecord⟩ := List.mem_filterMap.mp hline
  have hevent : e = .logged .info (.words (summary pages attachments spaceKey)) := by
    cases e <;> simp_all
  rcases List.mem_cons.mp he with rfl | he
  · cases hevent
  rcases List.mem_append.mp he with he | he
  · rcases hduring e he with hown | ⟨p, hloads, hsame⟩
    · exact absurd (hevent ▸ hown) (not_isOwn_summary pages attachments spaceKey)
    · rw [hevent] at hsame
      injection hsame with _ hmessage
      injection hmessage with hwords
      exact ⟨p, hloads, hwords.symm⟩
  rcases List.mem_cons.mp he with rfl | he
  · cases hevent
  · obtain ⟨r, hr, rfl⟩ := List.mem_map.mp he
    injection hevent with hlevel _
    rw [level_of_mem_reportOf hr] at hlevel
    cases hlevel

/-- What follows an announcement is the rehearsal of the tree that is announced. -/
theorem rehearsed_of_announced {pages attachments : Nat} {spaceKey : Text}
    (hrun : run line env w = .ok report w')
    (hline : (.info, .words (summary pages attachments spaceKey)) ∈ logBetween w w') :
    ∃ (p : Publisher) (ps : List Post) (ending : Except Fault Created),
      p.rehearse w.files w.server [] (items (outline 0 p.metadata.pages)) = (ps, ending) ∧
      posts w'.trace = posts w.trace ++ ps ∧
      (report.ending = .exit 0 ↔ ∃ final, ending = .ok final) ∧
      announcement p.metadata = summary pages attachments spaceKey := by
  obtain ⟨settings, path, hreport⟩ := publishAndReport_of_run hrun (List.ne_nil_of_mem hline)
  obtain ⟨result, during, w'', halone, happly, htrace, hduring⟩ := publishAndReport_apply settings path w
  rw [hreport] at happly
  injection happly with hending hworld
  subst hworld
  unfold logBetween at hline
  rw [htrace, List.drop_left] at hline
  obtain ⟨p, hloads, hwords⟩ := loaded_of_announced hduring hline
  have hsame := halone.unique (Publisher.loadAndPublish_performs settings.session path w)
  rw [Publisher.result, hloads, andThen_ok, List.nil_append] at hsame
  cases hrehearsal : p.rehearse w.files w.server [] (items (outline 0 p.metadata.pages)) with
  | mk ps ending =>
      rw [hrehearsal] at hsame
      obtain ⟨hposts, hresult⟩ := Prod.mk.inj hsame
      refine ⟨p, ps, ending, hrehearsal, ?_, ?_, hwords⟩
      · rw [htrace, posts_append, posts_cons_of_isOfSession rfl, posts_append,
          posts_cons_of_isOfSession rfl, posts_logEvents, List.append_nil, hposts]
        rfl
      · rw [hending, Ending.ofResult_eq_exit_zero, hresult]
        cases ending <;> simp [Publisher.silent, Except.map]

/-- What is sent, as far as an announcement tells: no more pages and attachments than announced, in the space
that was announced. -/
structure KeepsTo (pages attachments : Nat) (spaceKey : Text) (added : List Post) : Prop where
  pages : (added.map Post.activity).count .creatingPage ≤ pages
  attachments : (added.map Post.activity).count .uploadingAttachment ≤ attachments
  space : ∀ post ∈ added, post.activity = .creatingPage →
    post.member? (text "space") = some (.object [(text "key", .str spaceKey)])

/-- If the log of a run announces pages, attachments and a space, the requests of the run keep to that. If
the program ends well they are just as many as announced. If not, at least one of the announced requests was
not accepted: it was not sent, or its answer was not what it needed. An answer with the status 200 does not
count as such if it names no identifier for a new page, and then it is the last one. -/
theorem announced_is_published {pages attachments : Nat} {spaceKey : Text}
    (hrun : run line env w = .ok report w')
    (hline : (.info, .words (summary pages attachments spaceKey)) ∈ logBetween w w') :
    ∃ added, posts w'.trace = posts w.trace ++ added ∧
      KeepsTo pages attachments spaceKey added ∧
      (report.ending = .exit 0 →
        (added.map Post.activity).count .creatingPage = pages ∧
        (added.map Post.activity).count .uploadingAttachment = attachments) ∧
      (report.ending ≠ .exit 0 →
        w.server.acceptedCount added < pages + attachments ∧
        (w.server.statusCount added < pages + attachments ∨ w.server.EndsWithoutIdentifier added)) := by
  obtain ⟨p, added, ending, hrehearsal, hposts, hdone, hwords⟩ :=
    rehearsed_of_announced hrun hline
  rw [announcement_eq_summary] at hwords
  obtain ⟨rfl, rfl, rfl⟩ := summary_inj hwords
  have hprefix := Publisher.activities_prefix_of_rehearse hrehearsal
  refine ⟨added, hposts, ⟨?_, ?_, ?_⟩, ?_, ?_⟩
  · rw [← Publisher.count_items]
    exact hprefix.sublist.count_le _
  · rw [← count_uploading_items]
    exact hprefix.sublist.count_le _
  · intro post hpost hactivity
    have hsent : post ∈ (p.rehearse w.files w.server [] (items (outline 0 p.metadata.pages))).1 := by
      rwa [hrehearsal]
    obtain ⟨item, -, before, hprepare⟩ := Publisher.prepared_of_mem_rehearse hsent
    rw [Publisher.activity_of_prepare hprepare] at hactivity
    cases item with
    | attachment path => cases hactivity
    | page depth page =>
        obtain ⟨⟨_, _, _, _, -, -, -, hcarries⟩, -⟩ := Publisher.creates_of_prepare hprepare
        exact hcarries.space
  · intro hwell
    obtain ⟨final, rfl⟩ := hdone.mp hwell
    rw [Publisher.activities_of_rehearse hrehearsal, Publisher.count_items, count_uploading_items]
    exact ⟨rfl, rfl⟩
  · intro hbad
    rw [← length_items]
    cases ending with
    | ok final => exact absurd (hdone.mpr ⟨final, rfl⟩) hbad
    | error fault =>
        exact ⟨Publisher.acceptedCount_lt_of_fault hrehearsal,
          Publisher.statusCount_lt_of_fault hrehearsal⟩

/-- A tree with one page and one attachment, whose file is not there. -/
def halfTree : Text :=
  text "\x7b\"spaceKey\":\"S\",\"pages\":[\x7b\"title\":\"A\",\"contentFilePath\":\"a\",\"attachments\":[\"b\"]\x7d]\x7d"

def halfWorld : World :=
  .start
    (((FileSystem.empty (.ofText (text "/w"))).write (.ofText (text "m.json"))
      (.file (halfTree.flatMap Utf8.unit))).write (.ofText (text "a")) (.file [])) []

/-- The run sends the page only, and one of the two announced requests was not accepted. -/
theorem half_tree_is_announced :
    ∃ report w', run smallLine [] halfWorld = .ok report w' ∧ report.ending ≠ .exit 0 ∧
      (.info, .words (summary 1 1 (text "S"))) ∈ logBetween halfWorld w' ∧
      ∃ added, posts w'.trace = added ∧ added.map Post.activity = [.creatingPage] ∧
        halfWorld.server.acceptedCount added < 2 := by
  have hending : ((run smallLine []).value? halfWorld).map Report.ending = some (.exit 1) := by
    decide +kernel
  have hlog : (.info, .words (summary 1 1 (text "S"))) ∈
      logBetween halfWorld ((run smallLine []).last halfWorld) := by
    decide +kernel
  have hsent : (posts ((run smallLine []).last halfWorld).trace).map Post.activity =
      [.creatingPage] := by
    decide +kernel
  obtain ⟨report, hvalue, hexit⟩ := Option.map_eq_some_iff.mp hending
  obtain ⟨w', hrun⟩ := Run.value?_eq_some.mp hvalue
  have hlast : (run smallLine []).last halfWorld = w' := by
    unfold Run.last
    rw [hrun]
  rw [hlast] at hlog hsent
  have hbad : report.ending ≠ .exit 0 := by simp [hexit]
  obtain ⟨added, hposts, -, -, hfewer⟩ := announced_is_published hrun hlog
  have hadded : posts w'.trace = added := hposts
  exact ⟨report, w', hrun, hbad, hlog, added, hadded, hadded ▸ hsent, (hfewer hbad).1⟩

end PageTree.CommandLine
