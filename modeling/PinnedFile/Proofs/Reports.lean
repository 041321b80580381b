/-
  PinnedFile.Proofs.Reports

  Every failure is reported once, and to one place.

  To whom a failure is reported is settled when its outcome reaches the loop: to the handler
  of the operation, to the failure listener of the stream that asked for it, as it is
  registered then, or to the sink.  The report is the very next thing that happens.  So a
  history falls into pairs of a failure and its report, and entries that are neither; a step
  adds such a piece, and pieces can be put together.
-/

import PinnedFile.Proofs.Handlers
import PinnedFile.Proofs.Histories

namespace PinnedFile

open Run

/-- A failure of native work is reported: a handler is called with it, a failure listener is
    called, or the sink is told. -/
def Event.isReport : Event → Bool
  | .handled _ _ _ (.error (.native ..)) | .failed .. | .unheard .. => true
  | _ => false

/-- The report of a failure to the failure listener of a stream, or to the sink as one that
    nobody listens for. -/
def Handle.reportOfStream (s : Handle) (h : HandleId) (listener : Option Registration)
    (e : FileError) : Event :=
  match listener with
  | some r => .failed h r.listener.tag e
  | none => .unheard h s.sink (.unhandled e)

/-- The report of the failure of an operation on a handle, by the listeners that are
    registered on it. -/
def Job.reportOn (job : Job) (s : Handle) (source : IoError) : Event :=
  let e : FileError := .native job.completion.operation source
  match job.completion.handler?, job.completion with
  | some handler, c => .handled job.id c.operation handler.tag (.error e)
  | none, .chunk => s.reportOfStream job.handle (s.reader.bind Reader.failure) e
  | none, .send _ => s.reportOfStream job.handle (s.writer.bind Writer.failure) e
  | none, _ => .unheard job.handle s.sink e

/-- The report that is due on an entry: if it is that a failure has reached the loop, by the
    handles as they are then. -/
def Entry.report? (e : Entry) : Option Event :=
  match e.event with
  | .completed job (.error source) => e.handles[job.handle]?.map (job.reportOn · source)
  | _ => none

/-- An entry tells that a failure has reached the loop. -/
def Entry.isFailure (e : Entry) : Bool :=
  match e.event with
  | .completed _ (.error _) => true
  | _ => false

/-- An entry that is neither a failure nor a report. -/
def Entry.IsPlain (e : Entry) : Prop := e.isFailure = false ∧ e.event.isReport = false

theorem Event.IsRoutine.plain {e : Entry} (routine : e.event.IsRoutine) : e.IsPlain := by
  rcases e with ⟨context, event, handles⟩
  cases event with
  | completed | handled | delivered | data | ended | failed | unheard => cases routine
  | _ => exact ⟨rfl, rfl⟩

/-- A part of a history, the latest first, in which each failure is followed by its report,
    and nothing else is reported. -/
inductive Reported : List Entry → Prop where
  | nil : Reported []
  | plain {e : Entry} {older : List Entry} (plain : e.IsPlain) (reported : Reported older) :
      Reported (e :: older)
  | failure {c e : Entry} {older : List Entry} (due : c.report? = some e.event)
      (reported : Reported older) : Reported (e :: c :: older)

namespace Reported

variable {newer older history : List Entry} {c e : Entry} {report : Event}

theorem isFailure_of_report? (due : c.report? = some report) : c.isFailure = true := by
  unfold Entry.report? at due
  split at due
  next failed => rw [Entry.isFailure, failed]
  · cases due

theorem report?_of_not_failure (unfailing : c.isFailure = false) : c.report? = none := by
  rcases due : c.report? with _ | report
  · rfl
  · rw [isFailure_of_report? due] at unfailing
    cases unfailing

/-- What is due as a report is one. -/
theorem isReport_of_report? (due : c.report? = some report) : report.isReport = true := by
  unfold Entry.report? at due
  split at due
  next job source _ =>
    obtain ⟨s, -, rfl⟩ := Option.map_eq_some_iff.mp due
    rcases job with ⟨id, h, t, completion⟩
    cases completion with
    | write | read => rfl
    | send length =>
      show (s.reportOfStream h (s.writer.bind Writer.failure) _).isReport = true
      unfold Handle.reportOfStream
      split <;> rfl
    | chunk =>
      show (s.reportOfStream h (s.reader.bind Reader.failure) _).isReport = true
      unfold Handle.reportOfStream
      split <;> rfl
    | flush handler | close handler => cases handler <;> rfl
  · cases due

/-- A failure is no report itself. -/
theorem not_isReport_of_isFailure (failed : c.isFailure = true) : c.event.isReport = false := by
  unfold Entry.isFailure at failed
  split at failed
  next completed => rw [completed]; rfl
  · cases failed

theorem of_plain (all : ∀ e ∈ newer, e.IsPlain) (reported : Reported older) :
    Reported (newer ++ older) := by
  induction newer with
  | nil => exact reported
  | cons e rest ih =>
    exact .plain (all e List.mem_cons_self)
      (ih fun e listed => all e (List.mem_cons_of_mem _ listed))

/-- Parts can be put together: none of them ends between a failure and its report. -/
theorem append (first : Reported newer) (second : Reported older) :
    Reported (newer ++ older) := by
  induction first with
  | nil => exact second
  | plain isPlain _ ih => exact .plain isPlain ih
  | failure due _ ih => exact .failure due ih

/-- Each failure is reported, and nothing else is, in the order in which they came. -/
theorem reports (reported : Reported history) :
    (history.map Entry.event).filter Event.isReport = history.filterMap Entry.report? ∧
      history.countP Entry.isFailure = (history.filterMap Entry.report?).length := by
  induction reported with
  | nil => exact ⟨rfl, rfl⟩
  | plain isPlain _ ih =>
    obtain ⟨unfailing, silent⟩ := isPlain
    rw [List.map_cons, List.filter_cons_of_neg (by rw [silent]; exact Bool.false_ne_true),
      List.filterMap_cons_none (report?_of_not_failure unfailing),
      List.countP_cons_of_neg (by rw [unfailing]; exact Bool.false_ne_true)]
    exact ih
  | @failure c e older due _ ih =>
    have report := isReport_of_report? due
    have failed := isFailure_of_report? due
    have silent := not_isReport_of_isFailure failed
    -- the report is no failure, for a failure is no report
    have unfailing : e.isFailure = false := by
      by_contra other
      rw [not_isReport_of_isFailure (eq_true_of_ne_false other)] at report
      cases report
    rw [List.map_cons, List.map_cons, List.filter_cons_of_pos report,
      List.filter_cons_of_neg (by rw [silent]; exact Bool.false_ne_true),
      List.filterMap_cons_none (report?_of_not_failure unfailing),
      List.filterMap_cons_some due, List.countP_cons_of_neg (by rw [unfailing]; exact
        Bool.false_ne_true), List.countP_cons_of_pos failed, List.length_cons, ih.1, ih.2]
    exact ⟨rfl, rfl⟩

/-- The report of a failure comes right after it. -/
theorem follows (reported : Reported history) (split : history = newer ++ c :: older)
    (failed : c.isFailure = true) :
    ∃ later e, newer = later ++ [e] ∧ c.report? = some e.event := by
  induction reported generalizing newer with
  | nil =>
    have longer := congrArg List.length split
    simp at longer
  | @plain e rest isPlain _ ih =>
    rcases List.append_eq_cons_iff.mp split.symm with ⟨-, here⟩ | ⟨more, rfl, behind⟩
    · obtain ⟨rfl, -⟩ := List.cons.inj here
      rw [isPlain.1] at failed
      cases failed
    · obtain ⟨later, report, rfl, due⟩ := ih behind
      exact ⟨e :: later, report, rfl, due⟩
  | @failure c' e rest due _ ih =>
    rcases List.append_eq_cons_iff.mp split.symm with ⟨-, here⟩ | ⟨more, rfl, behind⟩
    · -- a report is no failure
      obtain ⟨rfl, -⟩ := List.cons.inj here
      have silent := not_isReport_of_isFailure failed
      rw [isReport_of_report? due] at silent
      cases silent
    · rcases List.append_eq_cons_iff.mp behind.symm with ⟨rfl, here⟩ | ⟨more, rfl, further⟩
      · obtain ⟨rfl, -⟩ := List.cons.inj here
        exact ⟨[], e, rfl, due⟩
      · obtain ⟨later, report, rfl, due⟩ := ih further
        exact ⟨e :: c' :: later, report, rfl, due⟩

end Reported

/-! ## Deliveries -/

variable {mode : Mode} {w after : World} {job : Job} {outcome : Outcome} {rest : Queue Task}

theorem toldSink_eq {h : HandleId} {s : Handle} {e : FileError}
    (known : w.handles[h]? = some s) : w.toldSink h e = w.record (.unheard h s.sink e) := by
  rw [World.toldSink, known]

theorem history_toldReadFailure {h : HandleId} {s : Handle} {e : FileError}
    (known : w.handles[h]? = some s) : ∃ handles, (w.toldReadFailure h e).history =
      ⟨w.context, s.reportOfStream h (s.reader.bind Reader.failure) e, handles⟩ :: w.history := by
  unfold World.toldReadFailure Handle.reportOfStream
  rw [show w.reader? h = s.reader by rw [World.reader?, known]; rfl]
  rcases s.reader.bind Reader.failure with _ | r
  · rw [toldSink_eq known]
    exact ⟨_, rfl⟩
  · exact ⟨_, rfl⟩

theorem history_toldWriteFailure {h : HandleId} {s : Handle} {e : FileError}
    (known : w.handles[h]? = some s) : ∃ handles, (w.toldWriteFailure h e).history =
      ⟨w.context, s.reportOfStream h (s.writer.bind Writer.failure) e, handles⟩ :: w.history := by
  unfold World.toldWriteFailure Handle.reportOfStream
  rw [show w.writer? h = s.writer by rw [World.writer?, known]; rfl]
  rcases s.writer.bind Writer.failure with _ | r
  · rw [toldSink_eq known]
    exact ⟨_, rfl⟩
  · exact ⟨_, rfl⟩

/-- A failure is told by its report, and by nothing else. -/
theorem history_told_error {s : Handle} {source : IoError}
    (known : w.handles[job.handle]? = some s) : ∃ handles,
      (w.told job (.error source)).history =
        ⟨w.context, job.reportOn s source, handles⟩ :: w.history := by
  rcases job with ⟨id, h, t, c⟩
  cases c with
  | write | read => exact ⟨_, rfl⟩
  | send length => exact history_toldWriteFailure known
  | chunk =>
    -- that the stream is not busy any more leaves its listeners as they are
    have received : (w.modifyReader h (·.receiving (.error source))).handles[h]? =
        some { s with reader := s.reader.map (·.receiving (.error source)) } := by
      rw [World.modifyReader, World.modifyHandle, List.getElem?_modify_eq, known]
      rfl
    obtain ⟨handles, told⟩ := history_toldReadFailure (e := .native .read source) received
    have listener : (s.reader.map (·.receiving (.error source))).bind Reader.failure =
        s.reader.bind Reader.failure := by cases s.reader <;> rfl
    rw [listener] at told
    exact ⟨handles, told⟩
  | flush handler =>
    rcases handler with _ | handler
    · exact ⟨_, congrArg World.history (toldSink_eq known)⟩
    · exact ⟨_, rfl⟩
  | close handler =>
    rcases handler with _ | handler
    · have unregistered : (w.modifyHandle h Handle.unregistered).handles[h]? =
          some s.unregistered := by
        rw [World.modifyHandle, List.getElem?_modify_eq, known]
        rfl
      exact ⟨_, congrArg World.history (toldSink_eq unregistered)⟩
    · exact ⟨_, rfl⟩

/-- What is told of a success is no report. -/
theorem notes_told_ok (bytes : Bytes) : Notes Entry.IsPlain w (w.told job (.ok bytes)) := by
  rcases job with ⟨id, h, t, c⟩
  cases c with
  | write length handler =>
    have told : Notes Entry.IsPlain w (w.record (.handled id .write handler.tag (.ok []))) :=
      notes_record ⟨rfl, rfl⟩
    exact told
  | read target offset handler =>
    have told : Notes Entry.IsPlain w (w.record (.handled id .read handler.tag
        (readResult target offset (.ok bytes)))) := by
      refine notes_record ⟨rfl, ?_⟩
      -- the bytes are placed, or have no place in the buffer, which is no failure of the file
      unfold readResult
      split
      · rfl
      · unfold Buffer.setBytes
        split <;> rfl
      next failed => cases failed
    exact told
  | send length =>
    show Notes _ w (w.toldDrained h)
    unfold World.toldDrained
    split
    · exact notes_refl
    · split
      · exact notes_record (w := w.clearDrain h) ⟨rfl, rfl⟩
      · exact notes_refl
  | chunk =>
    rcases bytes with _ | ⟨first, more⟩
    · show Notes _ w (World.toldEnd _ h)
      unfold World.toldEnd
      split
      · exact notes_refl
      · exact notes_record (w := World.modifyReader _ h _) ⟨rfl, rfl⟩
    · show Notes _ w (World.toldData _ h _)
      unfold World.toldData
      split
      · exact notes_refl
      · exact notes_record (w := World.modifyReader _ h _) ⟨rfl, rfl⟩
  | flush handler =>
    rcases handler with _ | handler
    · exact notes_refl
    · have told : Notes Entry.IsPlain w (w.record (.handled id .flush handler.tag (.ok []))) :=
        notes_record ⟨rfl, rfl⟩
      exact told
  | close handler =>
    rcases handler with _ | handler
    · exact notes_of_same rfl
    · have told : Notes Entry.IsPlain (w.modifyHandle h Handle.unregistered)
          ((w.modifyHandle h Handle.unregistered).record
            (.handled id .close handler.tag (.ok []))) := notes_record ⟨rfl, rfl⟩
      exact told

/-- What is added to the history is a part in which each failure is followed by its report. -/
def Reports (w after : World) : Prop :=
  ∃ new, after.history = new ++ w.history ∧ Reported new

theorem reports_of_notes (notes : Notes Entry.IsPlain w after) : Reports w after := by
  obtain ⟨new, added, all⟩ := notes
  have reported := Reported.of_plain all .nil
  rw [List.append_nil] at reported
  exact ⟨new, added, reported⟩

theorem Reports.trans {middle : World} (first : Reports w middle)
    (second : Reports middle after) : Reports w after := by
  obtain ⟨new, added, reported⟩ := first
  obtain ⟨new', added', reported'⟩ := second
  exact ⟨new' ++ new, by rw [added', added, List.append_assoc], reported'.append reported⟩

/-- The telling of an outcome makes its report, if it is a failure. -/
theorem reports_told {s : Handle} (known : w.handles[job.handle]? = some s) :
    Reports w ((w.completing job outcome).told job outcome) := by
  have there : (w.completing job outcome).handles[job.handle]? =
      some (s.releasing job.completion) := by
    show (w.handles.modify _ _)[job.handle]? = _
    rw [List.getElem?_modify_eq, known]
    rfl
  rcases outcome with source | bytes
  · obtain ⟨handles, told⟩ : ∃ handles, ((w.completing job (.error source)).told job
        (.error source)).history = ⟨_, _, handles⟩ :: (w.completing job (.error source)).history :=
      history_told_error there
    refine ⟨[_, _], told, .failure ?_ .nil⟩
    show ((w.completing job (.error source)).handles[job.handle]?).map _ = _
    rw [there]
    rfl
  · have completed : Notes Entry.IsPlain w (w.completing job (.ok bytes)) :=
      notes_record (w := w.modifyHandle job.handle (·.releasing job.completion)) ⟨rfl, rfl⟩
    exact reports_of_notes (completed.trans (notes_told_ok bytes))

theorem Moves.reports (moves : Moves w after) : Reports w after :=
  reports_of_notes (moves.routine.mono fun _ => Event.IsRoutine.plain)

/-- A delivery makes the report of its operation, if that has failed, and no other. -/
theorem reports_deliver (here : w.OnOwner job.handle) :
    Reports w (exec (deliver job outcome) w).2 := by
  obtain ⟨s, known, -⟩ := id here
  have told : Reports w (exec (tell job outcome) (w.completing job outcome)).2 :=
    (reports_told known).trans
      (moves_tell job outcome (World.onOwner_completing job outcome here)).reports
  have stays := World.onOwner_announce job outcome here
  rw [exec_deliver here]
  rcases ends : exec (tell job outcome) (w.completing job outcome) with ⟨message | _, first⟩
  · rw [ends] at told
    have announced : exec (announce job outcome) w = (.error message, first) := by
      rw [exec_announce, exec_bind_error ends]
    rw [exec_bind_error announced]
    exact told
  · rw [ends] at told
    have announced : exec (announce job outcome) w =
        (.ok (), first.record (.delivered job.id)) := by
      rw [exec_announce, exec_bind_ok ends, exec_note]
    have delivered : Reports first (first.record (.delivered job.id)) :=
      reports_of_notes (notes_record ⟨rfl, rfl⟩)
    rw [announced] at stays
    rw [exec_bind_ok announced]
    -- what comes after the announcement is the code of a client
    exact (told.trans delivered).trans (reports_of_notes ((notes_after_announce stays).mono
      fun _ clients => clients.1.routine.plain))

/-- What a step adds to the history is a part in which each failure is followed by its
    report. -/
theorem Step.reports (step : Step mode w after) (sound : Books.Sound mode w.books) :
    Reports w after := by
  rcases step.routine_or_delivery (known_of_sound sound) with
    routine | ⟨job, outcome, rest, runs⟩
  · exact reports_of_notes (routine.mono fun _ => Event.IsRoutine.plain)
  · have delivered : Reports (w.delivering job outcome rest)
        (exec (deliver job outcome) (w.delivering job outcome rest)).2 :=
      reports_deliver runs.here
    obtain ⟨new, added, reported⟩ := delivered
    exact ⟨new, runs.history.trans added, reported⟩

/-- In every run each failure is followed by its report, and nothing else is reported. -/
theorem Reachable.reported (reached : Reachable mode w) : Reported w.history := by
  refine Reachable.induct (P := fun w => Reported w.history) (fun _ _ => .nil) ?_ reached
  intro w after reached reported step
  obtain ⟨new, added, now⟩ := step.reports reached.sound
  rw [added]
  exact now.append reported

/-! ## Failures of operations -/

/-- Who is told of the failure of an operation does not depend on how far it has come. -/
theorem reportOn_congr {a : Job} (same : a.ticket = job.ticket) :
    a.reportOn = job.reportOn := by
  rcases a with ⟨id, h, t, c⟩
  rcases job with ⟨id', h', t', c'⟩
  obtain ⟨rfl, rfl, rfl⟩ := Ticket.mk.inj same
  rfl

namespace World

/-- All reports of failures, the latest first. -/
def reports (w : World) : List Event := (w.history.map Entry.event).filter Event.isReport

/-- The native work of an operation has come to an outcome. -/
def CameTo (w : World) (a : Job) (outcome : Outcome) : Prop :=
  ∃ u, a.transfer.Made (w.books.exchangesOf a.id) (some u) ∧ u.outcome? = some outcome

/-- The failure of an operation has reached the loop, and right after that it was reported, by
    the listeners that were registered on its handle at that moment. -/
def IsReported (w : World) (a : Job) (source : IoError) : Prop :=
  ∃ newer report failure older job s, w.history = newer ++ report :: failure :: older ∧
    failure.event = .completed job (.error source) ∧ job.ticket = a.ticket ∧
    failure.handles[a.handle]? = some s ∧ report.event = a.reportOn s source

end World

/-- What is completed is an accepted operation, with the outcome of its own native work. -/
theorem cameTo_of_completed (reached : Reachable mode w)
    (completed : (job, outcome) ∈ w.completed) :
    ∃ a ∈ w.accepted, a.ticket = job.ticket ∧ w.CameTo a outcome := by
  obtain ⟨⟨a, accepted, ticket, made⟩, ended⟩ := reached.sound.traced.completed _ completed
  exact ⟨a, accepted, ticket, job.transfer, made, ended⟩

/-- In a calm run at rest, what an operation has come to has reached the loop. -/
theorem completed_of_rest (reached : Reachable .calm w) (alive : w.IsAlive) (rest : w.AtRest)
    {a : Job} (accepted : a ∈ w.accepted) (came : w.CameTo a outcome) :
    ∃ job, (job, outcome) ∈ w.completed ∧ job.ticket = a.ticket := by
  have sound := reached.sound
  obtain ⟨⟨job, outcome'⟩, completed, ticket⟩ := sound.completed_of_rest alive rest accepted
  obtain ⟨made, ended⟩ := sound.made_of_completed accepted completed (congrArg Ticket.id ticket)
  obtain ⟨u, made', ended'⟩ := came
  obtain rfl := Option.some.inj (made.unique made')
  obtain rfl := Option.some.inj (ended.symm.trans ended')
  exact ⟨job, completed, ticket⟩

/-- A failure that has reached the loop has been reported. -/
theorem isReported_of_completed (reported : Reported w.history) {a : Job} {source : IoError}
    (completed : (job, .error source) ∈ w.completed) (same : job.ticket = a.ticket) :
    w.IsReported a source := by
  obtain ⟨failure, listed, found⟩ := List.mem_filterMap.mp completed
  have event := Event.completed?_eq_some_iff.mp found
  obtain ⟨newer, older, split⟩ := List.append_of_mem listed
  obtain ⟨later, report, rfl, due⟩ := reported.follows split (by rw [Entry.isFailure, event])
  rw [Entry.report?, event] at due
  obtain ⟨s, known, told⟩ := Option.map_eq_some_iff.mp due
  refine ⟨later, report, failure, older, job, s, ?_, event, same, ?_, ?_⟩
  · rw [split, List.append_assoc]
    rfl
  · rwa [← show job.handle = a.handle from congrArg Ticket.handle same]
  · rw [← told, reportOn_congr same]

/-- In any run the reports of failures are those that are due on the failures which have
    reached the loop, one for each, and in their order.  Each comes right after its failure.
    A failure that reaches the loop is that of an accepted operation, by its own native work,
    and each operation reaches the loop once.  In a calm run that has come to rest every
    failure has been reported. -/
theorem failures_are_reported_once {mode : Mode} {w : World} (reached : Reachable mode w) :
    w.reports = w.history.filterMap Entry.report? ∧
    w.reports.length = w.history.countP Entry.isFailure ∧
    (∀ newer failure older, w.history = newer ++ failure :: older → failure.isFailure = true →
      ∃ later report, newer = later ++ [report] ∧ failure.report? = some report.event) ∧
    (∀ job outcome, (job, outcome) ∈ w.completed →
      ∃ a ∈ w.accepted, a.ticket = job.ticket ∧ w.CameTo a outcome) ∧
    (w.completed.map fun c => c.1.id).Nodup ∧
    (mode = .calm → w.IsAlive → w.AtRest →
      ∀ a ∈ w.accepted, ∀ source, w.CameTo a (.error source) → w.IsReported a source) := by
  have reported := reached.reported
  obtain ⟨all, count⟩ := reported.reports
  obtain ⟨loose, accounted, -⟩ := reached.sound.accounted
  refine ⟨all, ?_, fun newer failure older => reported.follows, fun job outcome =>
    cameTo_of_completed reached, accounted.completed_nodup, ?_⟩
  · rw [count, World.reports, all]
  · rintro rfl alive rest a accepted source came
    obtain ⟨job, completed, same⟩ := completed_of_rest reached alive rest accepted came
    exact isReported_of_completed reported completed same

/-- A run in which everything fails: a write of a stream, whose failure listener is registered
    while the write is under way, a write with a handler, and a flush and a close without. -/
def reportingRun : Option World :=
  (World.start 2 ⟨[], []⟩).follow
    [.body 0 [
      .openFile 0 { write := true } .log (.memory (.bytes []) none {}),
      .writeStream 0, .send 0 (.bytes [1])],
    .take,
    .body 0 [
      .onWriteFailure 0 ⟨"failed", [], [], []⟩,
      .write 0 (.bytes [2]) 0 ⟨"written", [], []⟩, .flush 0 none, .close 0 none],
    .take, .answer 0 (.failed (.bare .storageFull)), .answer 1 (.failed (.os 5)),
    .finish 0, .finish 1, .task, .task,
    .take, .answer 2 (.failed (.os 5)), .finish 2, .task,
    .take, .answer 3 (.failed (.os 5)), .finish 3, .task]

theorem failures_are_reported_once_at_rest : ∃ w, reportingRun = some w ∧ w.IsAlive ∧ w.AtRest ∧
    w.accepted.length = 4 ∧ w.reports.length = 4 ∧
    ∀ a ∈ w.accepted, ∀ source, w.CameTo a (.error source) → w.IsReported a source := by
  have stands : (reportingRun.map fun w => (w.restsUp, w.accepted.length, w.reports.length)) =
      some (true, 4, 4) := by decide +kernel
  obtain ⟨w, run, stands⟩ := Option.map_eq_some_iff.mp stands
  obtain ⟨rests, accepted, reports⟩ : w.restsUp = true ∧ w.accepted.length = 4 ∧
      w.reports.length = 4 := by simpa only [Prod.mk.injEq] using stands
  obtain ⟨alive, rest⟩ := World.rest_of_restsUp rests
  have reached : Reachable .calm w := World.reachable_of_follow run
  obtain ⟨-, -, -, -, -, all⟩ := failures_are_reported_once reached
  exact ⟨w, run, alive, rest, accepted, reports, all rfl alive rest⟩

end PinnedFile
