import PageTree.CommandLine.Program
import PageTree.Proofs.Rehearsal
import PageTree.Proofs.Settings
import PageTree.Proofs.Trace

/-!
# What the program comes to

The program opens a session, loads a tree and publishes it, and closes the session, whatever happens. Then
it reports a failure, if there was one. `Concluded` says what that leaves: how the program ends, what its
log ends with, and that its requests are those of a publisher that loads and publishes on its own.
-/

set_option autoImplicit false

namespace PageTree

/-- Whether an event opens or closes a session. -/
def Event.isOfSession : Event → Bool
  | .sessionOpened _ => true
  | .sessionClosed => true
  | _ => false

/-- No event of the session is one of the task's own. -/
theorem Event.IsOwn.isOfSession {e : Event} (h : e.IsOwn) : e.isOfSession = false := by
  cases h <;> rfl

/-! ## A publisher on its own -/

namespace Publisher

/-- A publisher on its own: it loads the tree of a file, and publishes it. -/
def loadAndPublish (session : Session) (path : Path) : Run Unit := do
  let publisher ← load session path
  publisher.publish

/-- The fault that ends loading, or publishing what has been loaded. -/
inductive EndsWith (session : Session) (path : Path) (w : World) (fault : Fault) : Prop
  | loading {w₁ : World} (h : load session path w = .error fault w₁)
  | publishing {p : Publisher} {w₁ w₂ : World} (hload : load session path w = .ok p w₁)
    (hpublish : p.publish w₁ = .error fault w₂)

variable {session : Session} {path : Path} {w : World}

/-- Loading and publishing succeeds just if loading does and publishing does after it. -/
theorem loadAndPublish_eq_ok :
    (∃ w₂, loadAndPublish session path w = .ok () w₂) ↔
      ∃ p w₁ w₂, load session path w = .ok p w₁ ∧ p.publish w₁ = .ok () w₂ := by
  unfold loadAndPublish
  rw [Run.bind_apply]
  cases load session path w with
  | error fault w₁ => simp
  | ok p w₁ => simp

/-- Loading and publishing ends with a fault just if one of the two does. -/
theorem loadAndPublish_eq_error {fault : Fault} :
    (∃ w₂, loadAndPublish session path w = .error fault w₂) ↔ EndsWith session path w fault := by
  unfold loadAndPublish
  rw [Run.bind_apply]
  constructor
  · rintro ⟨w₂, h⟩
    cases hload : load session path w with
    | error other w₁ =>
        rw [hload] at h
        injection h with hfault
        exact .loading (hfault ▸ hload)
    | ok p w₁ =>
        rw [hload] at h
        exact .publishing hload h
  · rintro (hload | ⟨hload, hpublish⟩)
    · rw [hload]
      exact ⟨_, rfl⟩
    · rw [hload]
      exact ⟨_, hpublish⟩

/-- Nothing is sent before the tree has been loaded. -/
theorem sent_of_load_eq_error {fault : Fault} {w₁ : World} (hload : load session path w = .error fault w₁) :
    (loadAndPublish session path).sent w = [] := by
  have hperforms := load_performs session path w
  have hfault : loaded session path w.files = .error fault :=
    hperforms.outcome_eq.symm.trans (by rw [Run.outcome, hload])
  rw [hfault] at hperforms
  exact (hperforms.bind_error fun p => p.publish).sent_eq

/-- Publishing does not depend on what was done before, as long as nothing was sent. -/
theorem publish_performs_of_sent (p : Publisher) {w' : World} (h : Sent [] w w') :
    Performs p.publish w' (silent (p.rehearse w.files w.server [] (items (outline 0 p.metadata.pages)))) := by
  have hpublish := p.publish_performs w'
  rw [h.files, h.server] at hpublish
  exact hpublish

/-- What loading and publishing come to, in some files and with some server. -/
def result (session : Session) (path : Path) (files : FileSystem) (v : Server) :
    List Post × Except Fault Unit :=
  andThen ([], loaded session path files) fun p =>
    silent (p.rehearse files v [] (items (outline 0 p.metadata.pages)))

/-- Loading and publishing comes to its result and leaves its events, and nothing else. -/
theorem loadAndPublish_performs (session : Session) (path : Path) (w : World) :
    Performs (loadAndPublish session path) w (result session path w.files w.server) :=
  (load_performs session path w).bind fun p _ h => p.publish_performs_of_sent h

end Publisher

namespace CommandLine

open Publisher (loadAndPublish EndsWith)

/-! ## In the session of the program -/

/-- What the program does in its session. -/
def task (session : Session) (path : Path) : Run Unit := do
  let publisher ← Publisher.load session path
  Run.log .info (announcement publisher.metadata)
  publisher.publish

/-- An event of loading and publishing, or the announcement of the tree that has been loaded. -/
def IsOfTask (session : Session) (path : Path) (files : FileSystem) (e : Event) : Prop :=
  e.IsOwn ∨ ∃ p, Publisher.loaded session path files = .ok p ∧
    e = .logged .info (.words (announcement p.metadata))

/-- No event of the session is one of loading and publishing. -/
theorem IsOfTask.isOfSession {session : Session} {path : Path} {files : FileSystem} {e : Event}
    (h : IsOfTask session path files e) : e.isOfSession = false := by
  rcases h with hown | ⟨p, -, rfl⟩
  · exact hown.isOfSession
  · rfl

/-- The task adds nothing else to the trace. -/
theorem task_adds (session : Session) (path : Path) (w : World) :
    ∃ events, ((task session path).last w).trace = w.trace ++ events ∧
      ∀ e ∈ events, IsOfTask session path w.files e := by
  obtain ⟨first, hfirst, hloading⟩ := Publisher.load_addsOwn session path w
  unfold task
  unfold Run.last at hfirst ⊢
  rw [Run.bind_apply]
  cases hload : Publisher.load session path w with
  | error fault w₁ =>
      rw [hload] at hfirst
      exact ⟨first, hfirst, fun e he => .inl (hloading e he)⟩
  | ok p w₁ =>
      rw [hload] at hfirst
      obtain ⟨rest, hrest, hpublishing⟩ :=
        p.publish_addsOwn (w₁.note (.logged .info (.words (announcement p.metadata))))
      refine ⟨first ++ .logged .info (.words (announcement p.metadata)) :: rest, ?_, ?_⟩
      · refine hrest.trans ?_
        simp [World.note, hfirst]
      · intro e he
        rcases List.mem_append.mp he with he | he
        · exact .inl (hloading e he)
        · rcases List.mem_cons.mp he with rfl | he
          · exact .inr ⟨p, Publisher.loaded_of_load session path hload, rfl⟩
          · exact .inl (hpublishing e he)

/-- The task does what a publisher on its own does. -/
theorem task_performs (session : Session) (path : Path) {w w' : World} (h : Sent [] w w') :
    Performs (task session path) w' (Publisher.result session path w.files w.server) := by
  unfold Publisher.result
  rw [← h.files]
  refine (Publisher.load_performs session path w').bind fun p w₁ h₁ => ?_
  rw [h.files]
  refine (Performs.note w₁ rfl).bind_ok fun w₂ h₂ => ?_
  exact p.publish_performs_of_sent ((h.trans h₁).trans h₂)

/-- Publishing a file opens the session, performs the task and closes the session, whatever the task
comes to. -/
theorem publishFile_apply (settings : Settings) (path : Path) (w : World) :
    publishFile settings path w =
      match task settings.session path (w.note (.sessionOpened (settings.headers.getD []))) with
      | .ok a w₁ => .ok a (w₁.note .sessionClosed)
      | .error fault w₁ => .error fault (w₁.note .sessionClosed) := by
  show Run.ensuring (task settings.session path) (discard (Connection.leave ⟨settings, some settings.session⟩))
    (w.note (.sessionOpened (settings.headers.getD []))) = _
  unfold Run.ensuring
  cases task settings.session path (w.note (.sessionOpened (settings.headers.getD []))) <;> rfl

/-! ## The report of a failure -/

/-- The report of how a run ends: nothing, or for a failure its message, and its cause if it has one. -/
def reportOf : Except Fault Unit → List (Level × Message)
  | .error (.failure f) =>
    (.error, .words f.message) :: (f.cause?.map fun cause => (.error, .cause cause)).toList
  | _ => []

/-- How the program ends when a run of it ends so. -/
def Ending.ofResult : Except Fault Unit → Ending
  | .ok () => .exit 0
  | .error (.failure _) => .exit 1
  | .error (.crash c) => .crash c

/-- Records, as events of a trace. -/
def logEvents (log : List (Level × Message)) : List Event := log.map fun r => .logged r.1 r.2

/-- The records among the events of a log are the log. -/
theorem records_logEvents (log : List (Level × Message)) : records (logEvents log) = log := by
  unfold records logEvents
  rw [List.filterMap_map]
  exact List.filterMap_some

/-- No request is among the events of a log. -/
theorem posts_logEvents (log : List (Level × Message)) : posts (logEvents log) = [] := by
  unfold posts logEvents
  rw [List.filterMap_map]
  exact List.filterMap_eq_nil_iff.mpr fun _ _ => rfl

/-- The records of two lists of events are those of the first and then those of the second. -/
theorem records_append (a b : List Event) : records (a ++ b) = records a ++ records b :=
  List.filterMap_append

/-- An event of the session is no request. -/
theorem posts_cons_of_isOfSession {e : Event} (he : e.isOfSession = true) (events : List Event) :
    posts (e :: events) = posts events := by
  cases e <;> first | rfl | cases he

/-- Reporting a failure adds the records of the report to the trace and changes nothing else. -/
theorem reportFailure_apply (f : Failure) (w : World) :
    reportFailure f w =
      .ok () { w with trace := w.trace ++ logEvents (reportOf (.error (.failure f))) } := by
  unfold reportFailure
  rw [Run.bind_apply]
  cases hcause : f.cause? with
  | none =>
      simp only [reportOf, hcause]
      rfl
  | some cause =>
      show EStateM.Result.ok () ((w.note _).note _) = _
      simp only [reportOf, hcause, World.note, List.append_assoc]
      rfl

/-- Only the level of critical records hides the report of a failure. -/
theorem visible_reportOf {level : Level} (hlevel : level ≠ .critical) (result : Except Fault Unit) :
    visible level (reportOf result) = reportOf result := by
  have herror : level.rank ≤ Level.error.rank := by
    cases level <;> simp [Level.rank] at hlevel ⊢
  unfold visible reportOf
  split
  · next f =>
      cases f.cause? <;> simp [herror]
  · rfl

/-- Unless it is hidden, the report is what the log ends with. -/
theorem visible_records_append {level : Level} (hlevel : level ≠ .critical) (events : List Event)
    (result : Except Fault Unit) :
    visible level (records (events ++ logEvents (reportOf result))) =
      visible level (records events) ++ reportOf result := by
  have hreport := visible_reportOf hlevel result
  unfold visible at hreport ⊢
  rw [records_append, records_logEvents, List.filter_append, hreport]

/-- The exit status is zero just if the result is a success. -/
theorem Ending.ofResult_eq_exit_zero {result : Except Fault Unit} :
    Ending.ofResult result = .exit 0 ↔ result = .ok () := by
  cases result with
  | ok a => simp [ofResult]
  | error fault => cases fault <;> simp [ofResult]

/-- A run with a report of how it has ended. -/
theorem publishAndReport_of_ending {settings : Settings} {path : Path} {w w₁ : World}
    {result : Except Fault Unit} (h : publishFile settings path w = Run.ending result w₁) :
    ∃ w', publishAndReport settings path w = .ok (Ending.ofResult result) w' ∧
      w'.trace = w₁.trace ++ logEvents (reportOf result) := by
  unfold publishAndReport
  rw [h]
  cases result with
  | ok a => exact ⟨w₁, rfl, (List.append_nil _).symm⟩
  | error fault =>
      cases fault with
      | crash c => exact ⟨w₁, rfl, (List.append_nil _).symm⟩
      | failure f =>
          dsimp only [Run.ending]
          rw [reportFailure_apply]
          exact ⟨_, rfl, rfl⟩

/-! ## The end of the program -/

/-- A publisher on its own ends in one way only. -/
theorem result_of_endsWith {session : Session} {path : Path} {w w₁ : World} {result : Except Fault Unit}
    (hlast : loadAndPublish session path w = Run.ending result w₁) {fault : Fault}
    (h : EndsWith session path w fault) : result = .error fault := by
  obtain ⟨w₂, hw₂⟩ := Publisher.loadAndPublish_eq_error.mpr h
  rw [hlast] at hw₂
  cases result with
  | ok a => cases hw₂
  | error other =>
      injection hw₂ with hother
      rw [hother]

/-- With settings, the program does what a publisher on its own does, in a session of its own. Then it reports
how that has ended. -/
theorem publishAndReport_apply (settings : Settings) (path : Path) (w : World) :
    ∃ result during w', Performs (loadAndPublish settings.session path) w (posts during, result) ∧
      publishAndReport settings path w = .ok (Ending.ofResult result) w' ∧
      w'.trace = w.trace ++ (.sessionOpened (settings.headers.getD []) ::
        (during ++ .sessionClosed :: logEvents (reportOf result))) ∧
      ∀ e ∈ during, IsOfTask settings.session path w.files e := by
  -- The task starts one event later than a publisher on its own, which neither of them can tell.
  have halone := Publisher.loadAndPublish_performs settings.session path w
  have hhere := task_performs settings.session path
    (Sent.note w (e := .sessionOpened (settings.headers.getD [])) rfl)
  generalize Publisher.result settings.session path w.files w.server = r at halone hhere
  obtain ⟨ps, result⟩ := r
  obtain ⟨hsent, hlast⟩ := hhere.last
  obtain ⟨during, htrace, hduring⟩ := task_adds settings.session path
    (w.note (.sessionOpened (settings.headers.getD [])))
  generalize (task settings.session path).last
    (w.note (.sessionOpened (settings.headers.getD []))) = w₁ at hsent hlast htrace
  -- What was sent is what the trace has gained, since it only grows.
  have hposts : posts during = ps := by
    have hps := hsent.posts
    rw [htrace, posts_append] at hps
    exact List.append_cancel_left hps
  subst hposts
  have hfile : publishFile settings path w = Run.ending result (w₁.note .sessionClosed) := by
    rw [publishFile_apply, hlast]
    cases result <;> rfl
  obtain ⟨w', hrun, hreport⟩ := publishAndReport_of_ending hfile
  refine ⟨result, during, w', halone, hrun, ?_, hduring⟩
  rw [hreport]
  simp [World.note, htrace]

/-- What the program leaves when it has settings and a log level. -/
structure Concluded (a : Arguments) (settings : Settings) (level : Level) (w : World) (ending : Ending)
    (w' : World) : Prop where
  /-- One session is opened, with the given header fields, and it is closed. -/
  session : ∃ during after, w'.trace = w.trace ++ (.sessionOpened (a.headers.getD []) ::
    (during ++ .sessionClosed :: after)) ∧ ∀ e ∈ during ++ after, e.isOfSession = false
  /-- The program ends well just if both loading and publishing do. -/
  done : ending = .exit 0 ↔ ∃ p w₁ w₂,
    Publisher.load settings.session (Path.ofText a.metadata) w = .ok p w₁ ∧ p.publish w₁ = .ok () w₂
  /-- A failure of either makes the status 1, and its report is the last thing in the log. -/
  failed : ∀ f, EndsWith settings.session (Path.ofText a.metadata) w (.failure f) →
    ending = .exit 1 ∧ (level ≠ .critical → ∃ earlier, visible level (records w'.trace) =
      earlier ++ (.error, .words f.message) ::
        (f.cause?.map fun cause => (.error, .cause cause)).toList)
  /-- A crash of either is one of the program. -/
  crashed : ∀ c, EndsWith settings.session (Path.ofText a.metadata) w (.crash c) → ending = .crash c
  /-- Nothing is sent unless the tree can be loaded. -/
  unloaded : ∀ fault w₁, Publisher.load settings.session (Path.ofText a.metadata) w = .error fault w₁ →
    posts w'.trace = posts w.trace
  /-- The requests are those of a publisher on its own. -/
  sent : posts w'.trace =
    posts w.trace ++ (loadAndPublish settings.session (Path.ofText a.metadata)).sent w

/-- Publishing and reporting always ends, and in the way that is asked for. -/
theorem concluded (a : Arguments) (settings : Settings) (level : Level) (w : World)
    (hheaders : settings.headers = a.headers) :
    ∃ ending w', publishAndReport settings (Path.ofText a.metadata) w = .ok ending w' ∧
      Concluded a settings level w ending w' := by
  obtain ⟨result, during, w', halone, hrun, htrace, hduring⟩ :=
    publishAndReport_apply settings (Path.ofText a.metadata) w
  have hsent := halone.sent_eq
  obtain ⟨-, hlast⟩ := halone.last
  have hposts : posts w'.trace = posts w.trace ++ posts during := by
    rw [htrace, posts_append, posts_cons_of_isOfSession rfl, posts_append, posts_cons_of_isOfSession rfl,
      posts_logEvents, List.append_nil]
  refine ⟨Ending.ofResult result, w', hrun, ?_, ?_, ?_, ?_, ?_, ?_⟩
  · refine ⟨during, logEvents (reportOf result), by rw [htrace, hheaders], ?_⟩
    intro e he
    rcases List.mem_append.mp he with he | he
    · exact (hduring e he).isOfSession
    · obtain ⟨r, -, rfl⟩ := List.mem_map.mp he
      rfl
  · rw [← Publisher.loadAndPublish_eq_ok, hlast, Ending.ofResult_eq_exit_zero]
    cases result <;> simp [Run.ending]
  · intro f hf
    obtain rfl := result_of_endsWith hlast hf
    refine ⟨rfl, fun hlevel => ?_⟩
    have hsplit : w'.trace = w.trace ++ (.sessionOpened (settings.headers.getD []) ::
        (during ++ [.sessionClosed])) ++ logEvents (reportOf (.error (.failure f))) := by
      simp [htrace]
    rw [hsplit, visible_records_append hlevel]
    exact ⟨_, rfl⟩
  · intro c hc
    obtain rfl := result_of_endsWith hlast hc
    rfl
  · intro fault w₁ hload
    have hnone : posts during = [] := hsent.symm.trans (Publisher.sent_of_load_eq_error hload)
    rw [hposts, hnone, List.append_nil]
  · rw [hsent, hposts]

/-- What becomes of arguments that can be read. Without settings there is no session, and nothing is done; if
the settings were refused, the status is 2. With settings, there is one session, and the program ends as
`Concluded` says. Arguments without a log level end the program before it looks for settings. -/
theorem run_outcome {line : List Text} {a : Arguments} (hparse : Arguments.parse line = .ok a)
    (env : Environment) (w : World) :
    ∃ report w', run line env w = .ok report w' ∧ report.level = a.level? ∧
      (a.level? = none → report.ending = .crash .logLevel ∧ w' = w) ∧
      (∀ error, Settings.resolve env a.settings = .error error → w' = w ∧
        ∀ fault, error = .refused fault → a.level?.isSome → report.ending = .exit 2) ∧
      ∀ settings level, Settings.resolve env a.settings = .ok settings → a.level? = some level →
        Concluded a settings level w report.ending w' := by
  unfold run
  rw [hparse]
  dsimp only
  unfold runWith
  cases hlevel : a.level? with
  | none =>
      -- The log level is chosen before the settings are looked at, so they do not matter.
      refine ⟨_, w, rfl, rfl, fun _ => ⟨rfl, rfl⟩, ?_, ?_⟩
      · intro error _
        exact ⟨rfl, fun fault _ hsome => by simp at hsome⟩
      · intro settings level _ hsome
        cases hsome
  | some level =>
      dsimp only
      cases hresolve : Settings.resolve env a.settings with
      | error error =>
          cases error with
          | hostMalformed =>
              refine ⟨_, w, rfl, rfl, by simp, ?_, by simp⟩
              rintro _ ⟨⟩
              exact ⟨rfl, by simp⟩
          | refused fault =>
              refine ⟨_, w, rfl, rfl, by simp, ?_, by simp⟩
              rintro _ ⟨⟩
              exact ⟨rfl, fun _ _ _ => rfl⟩
      | ok settings =>
          obtain ⟨-, -, -, hheaders⟩ := Settings.resolve_eq_ok hresolve
          obtain ⟨ending, w', hrun, hconcluded⟩ := concluded a settings level w hheaders
          refine ⟨⟨ending, some level, [], []⟩, w', ?_, rfl, by simp, by simp, ?_⟩
          · dsimp only
            rw [Run.bind_apply, hrun]
            rfl
          · rintro _ _ ⟨⟩ ⟨⟩
            exact hconcluded

/-- A command line that names a file, a server and a header field. -/
def smallLine : List Text :=
  [text "m.json", text "--api-url", text "http://wiki/", text "--headers", text "X=1"]

def smallArguments : Arguments :=
  { unset with
    metadata := text "m.json"
    apiUrl := .given (text "http://wiki/")
    headers := some [(text "X", text "1")] }

/-- Without the file the program fails, and has opened and closed a session all the same. -/
theorem run_without_file :
    Arguments.parse smallLine = .ok smallArguments ∧
      ∃ report w', run smallLine [] (.start (.empty (.ofText (text "/w"))) []) = .ok report w' ∧
        report.ending = .exit 1 ∧
        Concluded smallArguments
          ⟨text "http://wiki", none, none, some [(text "X", text "1")]⟩ .info
          (.start (.empty (.ofText (text "/w"))) []) report.ending w' := by
  have hparse : Arguments.parse smallLine = .ok smallArguments := by decide +kernel
  have hresolve : Settings.resolve [] smallArguments.settings =
      .ok ⟨text "http://wiki", none, none, some [(text "X", text "1")]⟩ := by decide +kernel
  have hending : ((run smallLine []).value? (.start (.empty (.ofText (text "/w"))) [])).map
      Report.ending = some (.exit 1) := by decide +kernel
  obtain ⟨report, w', hrun, -, -, -, hconcluded⟩ :=
    run_outcome hparse [] (.start (.empty (.ofText (text "/w"))) [])
  rw [Run.value?_eq_some.mpr ⟨w', hrun⟩] at hending
  exact ⟨hparse, report, w', hrun, Option.some.inj hending, hconcluded _ .info hresolve (by decide)⟩

end CommandLine

end PageTree
