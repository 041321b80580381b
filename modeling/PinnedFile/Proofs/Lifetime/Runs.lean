/-
  PinnedFile.Proofs.Lifetime.Runs

  References in every run.

  No step brings a handle back that is gone.  Between two steps no handle is held by a task, and
  no handle that is gone has registrations: a task ends with a sweep, and what happens outside
  of tasks either gives up no reference or sweeps as well.
-/

import PinnedFile.Proofs.Confinement
import PinnedFile.Proofs.Lifetime.Code

namespace PinnedFile

open Run

variable {mode : Mode} {w middle after : World} {h k : HandleId} {job : Job}

/-! ## Steps on a handle that is gone -/

namespace World

/-- How a task ends: its context is left, what it held is given up, and handles that are gone
    give up their registrations. -/
theorem exists_runOn {α : Type} {context : ContextId} {holds : List HandleId} {code : Run α} :
    ∃ note, (w.runOn context holds code).2 = { ({ (exec code (w.entered context holds)).2 with
      context := w.context, held := w.held } : World).sweep with panicNote := note } := by
  unfold runOn
  rcases ends : code.run.run { w with context := some context, held := holds } with
    ⟨message | a, after⟩
  · have same : (exec code (w.entered context holds)).2 = after := congrArg Prod.snd ends
    rw [same]
    exact ⟨_, rfl⟩
  · have same : (exec code (w.entered context holds)).2 = after := congrArg Prod.snd ends
    rw [same]
    exact ⟨_, rfl⟩

end World

theorem spares_runOn {α : Type} {context : ContextId} {holds : List HandleId} {code : Run α}
    (others : h ∉ holds) (leads : Leads (Spares h) code (w.entered context holds)) :
    Spares h w (w.runOn context holds code).2 := by
  apply spares_of_dead
  intro dead
  -- what the task held is given up at its end, and nobody else held the handle before
  have free : h ∉ w.held := fun listed => dead ⟨.held, listed⟩
  have begun : Spares h w (w.entered context holds) := by
    have held : Spares h w { w with held := holds } := spares_hold others
    exact held.trans (spares_of_same rfl rfl fun place => by cases place <;> rfl)
  have left (v : World) : Spares h v { v with context := w.context, held := w.held }.sweep := by
    have held : Spares h v { v with held := w.held } := spares_hold free
    refine (held.trans ?_).trans spares_sweep
    exact spares_of_same rfl rfl fun place => by cases place <;> rfl
  obtain ⟨note, same⟩ := @World.exists_runOn w α context holds code
  rw [same]
  refine ((begun.trans leads).trans (left _)).trans ?_
  exact spares_of_same rfl rfl fun place => by cases place <;> rfl

/-! ## Jobs on their way -/

namespace World

theorem handles_answer {call : Call} {a : Answer} {files : FileTree} {backends : List Backend} :
    ({ w with files, backends }.answer job call a).handles = w.handles := by
  unfold answer
  dsimp only
  split <;> rfl

theorem held_answer {call : Call} {a : Answer} {files : FileTree} {backends : List Backend} :
    ({ w with files, backends }.answer job call a).held = w.held := by
  unfold answer
  dsimp only
  split <;> rfl

theorem held_finish {outcome : Outcome} : (w.finish job outcome).held = w.held := by
  unfold finish
  dsimp only
  split <;> rfl

theorem handles_finish {outcome : Outcome} : (w.finish job outcome).handles = w.handles := by
  unfold finish
  dsimp only
  split <;> rfl

/-- Two worlds that differ in what is held at one place. -/
theorem refers_iff_of_place {P : Prop} (place : Place)
    (elsewhere : ∀ other, other ≠ place → after.heldAt other = w.heldAt other)
    (here : h ∈ after.heldAt place ↔ P ∨ h ∈ w.heldAt place) :
    after.Refers h ↔ P ∨ w.Refers h := by
  constructor
  · rintro ⟨other, there⟩
    by_cases same : other = place
    · subst same
      exact (here.mp there).imp_right fun before => ⟨other, before⟩
    · rw [elsewhere other same] at there
      exact .inr ⟨other, there⟩
  · rintro (new | ⟨other, there⟩)
    · exact ⟨place, here.mpr (.inl new)⟩
    · by_cases same : other = place
      · subst same
        exact ⟨other, here.mpr (.inr there)⟩
      · exact ⟨other, by rwa [elsewhere other same]⟩

/-- A job takes its references along when a worker takes it. -/
theorem refers_takeJob (takes : w.takeJob = some after) : after.Refers h ↔ w.Refers h := by
  obtain ⟨job, rest, next, rfl⟩ := exists_takeJob takes
  -- in two moves, out of the queue and over to the workers
  have left : w.Refers h ↔ h ∈ job.holds ∨ ({ w with jobs := rest } : World).Refers h := by
    refine refers_iff_of_place .jobs
      (fun place other => by cases place <;> first | rfl | exact absurd rfl other) ?_
    rw [heldAt, (Queue.pop_eq_some_iff.mp next).1]
    exact List.mem_append
  rw [left]
  refine refers_iff_of_place .running
    (fun place other => by cases place <;> first | rfl | exact absurd rfl other) ?_
  rw [heldAt, record, List.flatMap_append, List.flatMap_singleton, List.mem_append, or_comm]
  rfl

/-- What the jobs of workers hold is what one of them holds, and what the others do. -/
theorem refers_withoutJob (nodup : (w.running.map Job.id).Nodup) (listed : job ∈ w.running) :
    w.Refers h ↔ h ∈ job.holds ∨ (w.withoutJob job).Refers h := by
  refine refers_iff_of_place .running
    (fun place other => by cases place <;> first | rfl | exact absurd rfl other) ?_
  have perm := Books.perm_eraseP nodup listed
  rw [heldAt, List.mem_flatMap]
  constructor
  · rintro ⟨other, there, holds⟩
    rcases List.mem_cons.mp (perm.mem_iff.mp there) with rfl | others
    · exact .inl holds
    · exact .inr (List.mem_flatMap.mpr ⟨other, others, holds⟩)
  · rintro (holds | here)
    · exact ⟨job, listed, holds⟩
    · obtain ⟨other, there, holds⟩ := List.mem_flatMap.mp here
      exact ⟨other, perm.mem_iff.mpr (List.mem_cons_of_mem _ there), holds⟩

/-- The references of a job that is lost are left behind. -/
theorem refers_leak : (w.leak job).Refers h ↔ h ∈ job.holds ∨ w.Refers h :=
  refers_iff_of_place .leaked
    (fun place other => by cases place <;> first | rfl | exact absurd rfl other) List.mem_append

/-- A job takes its references along through a native call, or leaves them behind. -/
theorem refers_answer {call : Call} {a : Answer} {files : FileTree} {backends : List Backend}
    (nodup : (w.running.map Job.id).Nodup) (listed : job ∈ w.running) :
    ({ w with files, backends }.answer job call a).Refers h ↔ w.Refers h := by
  rw [refers_withoutJob nodup listed]
  have recorded : ((({ w with files, backends } : World).withoutJob job).record
      (.native job.id job.handle call a)).Refers h ↔ (w.withoutJob job).Refers h := by
    constructor <;> exact fun refers => refers.of_each fun place here =>
      .inl (by cases place <;> exact here)
  rw [← recorded]
  unfold answer
  dsimp only
  rcases job.transfer.feed a with _ | t
  · exact refers_leak
  · refine refers_iff_of_place .running
      (fun place other => by cases place <;> first | rfl | exact absurd rfl other) ?_
    rw [heldAt, List.flatMap_append, List.flatMap_singleton, List.mem_append, or_comm]
    rfl

theorem refers_finish {outcome : Outcome} (nodup : (w.running.map Job.id).Nodup)
    (listed : job ∈ w.running) : (w.finish job outcome).Refers h ↔ w.Refers h := by
  rw [refers_withoutJob nodup listed]
  unfold finish
  dsimp only
  split
  next isOpen =>
    refine refers_iff_of_place .tasks
      (fun place other => by cases place <;> first | rfl | exact absurd rfl other) ?_
    rw [heldAt, post, Queue.items_push isOpen, List.flatMap_append, List.flatMap_singleton,
      List.mem_append, or_comm]
    rfl
  · exact refers_leak

end World

/-- No step brings a handle back that is gone, or does anything on its behalf. -/
theorem Step.spares (step : Step mode w after) (sound : Books.Sound mode w.books) :
    Spares h w after := by
  have nodup : (w.running.map Job.id).Nodup := by
    obtain ⟨loose, accounted, -⟩ := sound.accounted
    exact accounted.running_nodup
  apply spares_of_dead
  intro dead
  cases step with
  | task runs =>
    obtain ⟨task, rest, next, rfl⟩ := World.exists_task_of_runTask runs
    have begun : Spares h w { w with tasks := rest } := by
      refine spares_of_places rfl rfl fun place here => ?_
      cases place with
      | tasks =>
        rw [World.heldAt, (Queue.pop_eq_some_iff.mp next).1]
        exact .inl (List.mem_append_right _ here)
      | _ => exact .inl here
    have others : h ∉ World.taskHolds task := fun holds =>
      dead ⟨.tasks, List.mem_flatMap.mpr ⟨task, Queue.mem_of_pop next, holds⟩⟩
    refine begun.trans (spares_runOn others ?_)
    cases task with
    | deliver job outcome =>
      exact leads_deliver fun same => others (same ▸ List.mem_cons_self)
    | client context task =>
      have started {v : World} : Spares h v (v.record (.started task.tag)) := spares_record nofun
      exact leads_note_bind started (spares_runAll [] task.body _)
    | later context =>
      have noted {v : World} : Spares h v (v.record .later) := spares_record nofun
      exact noted
  | command context c => exact spares_runOn List.not_mem_nil (spares_command [] c _)
  | body context body => exact spares_runOn List.not_mem_nil (spares_runAll [] body _)
  | outside c => exact spares_command [] c w
  | post context task => exact spares_post List.not_mem_nil
  | postLater context => exact spares_post List.not_mem_nil
  | take takes =>
    obtain ⟨id, noted⟩ := World.history_takeJob takes
    refine spares_intro (fun s known _ => ?_) (World.refers_takeJob takes).mp
      ⟨[_], noted, fun e listed => ?_⟩
    · obtain ⟨job, rest, -, rfl⟩ := World.exists_takeJob takes
      exact known
    · rw [List.mem_singleton.mp listed]
      exact nofun
  | @answer job call a files backends running makes calm =>
    refine spares_intro (fun s known _ => ?_) (World.refers_answer nodup running).mp
      ⟨[_], World.history_answer, fun e listed => ?_⟩
    · rw [World.handles_answer]
      exact known
    · rw [List.mem_singleton.mp listed]
      exact nofun
  | finish running ended =>
    refine spares_intro (fun s known _ => ?_) (World.refers_finish nodup running).mp
      (notes_of_same World.history_finish)
    rw [World.handles_finish]
    exact known
  | shutDown origin => exact spares_shutDown origin
  | freshContext | takePanic => exact spares_of_same rfl rfl fun place => by cases place <;> rfl

/-! ## Between two steps -/

/-- Outside of contexts code holds nothing, and no handle that is gone keeps registrations. -/
def Tidies (w after : World) : Prop :=
  w.context = none → after.context = none ∧ after.held = w.held ∧ (w.Swept → after.Swept)

theorem tidies_refl : Tidies w w := fun outside => ⟨outside, rfl, id⟩

theorem Tidies.trans (first : Tidies w middle) (second : Tidies middle after) :
    Tidies w after := by
  intro outside
  obtain ⟨still, held, swept⟩ := first outside
  obtain ⟨stays, held', swept'⟩ := second still
  exact ⟨stays, held'.trans held, swept' ∘ swept⟩

instance : IsPreorder World Tidies where
  refl _ := tidies_refl
  trans _ _ _ first second := Tidies.trans first second

/-- What is known of references bears on what was swept. -/
theorem World.Swept.of_refers (swept : w.Swept) (handles : after.handles = w.handles)
    (refers : ∀ h, w.Refers h → after.Refers h) : after.Swept := by
  intro h s known gone
  rw [handles] at known
  refine swept h s known (World.isLive_eq_false_iff.mpr fun before => ?_)
  exact World.isLive_eq_false_iff.mp gone (refers h before)

theorem tidies_of_same (context : after.context = w.context) (handles : after.handles = w.handles)
    (places : ∀ place, after.heldAt place = w.heldAt place) : Tidies w after := by
  intro outside
  refine ⟨context.trans outside, places .held, fun swept => swept.of_refers handles ?_⟩
  rintro h ⟨place, here⟩
  exact ⟨place, by rwa [places]⟩

theorem World.context_sweep : w.sweep.context = w.context :=
  World.sweep_induct (P := fun v => v.context = w.context) rfl fun _ same => same

theorem World.held_sweep : w.sweep.held = w.held :=
  World.sweep_induct (P := fun v => v.held = w.held) rfl fun _ same => same

theorem tidies_sweep {v : World} (context : v.context = w.context) (held : v.held = w.held) :
    Tidies w v.sweep := fun outside =>
  ⟨World.context_sweep.trans (context.trans outside), World.held_sweep.trans held,
    fun _ => World.swept_sweep⟩

/-- Outside of contexts no handle accepts a request. -/
theorem World.check_ne_ok {s : Handle} (outside : w.context = none) : w.check k ≠ .ok s := by
  intro passed
  obtain ⟨-, here, -⟩ := World.check_eq_ok_iff.mp passed
  rw [outside] at here
  cases here

theorem leads_outside {α : Type} {code : Run α}
    (leads : w.context = none → Leads Tidies code w) : Leads Tidies code w :=
  fun outside => leads outside outside

/-- Some handle accepts a request now. -/
def World.Accepts (w : World) : Prop := ∃ k s, w.check k = .ok s

theorem accepts_of_map {f : Handle → World} (ok : (w.check k).map f = .ok after) : w.Accepts := by
  obtain ⟨s, passed, -⟩ := except_map_eq_ok.mp ok
  exact ⟨k, s, passed⟩

theorem accepts_of_stream {f : Handle → World} (ok : (w.checkStream k).map f = .ok after) :
    w.Accepts := by
  obtain ⟨s, passed, -⟩ := except_map_eq_ok.mp ok
  exact ⟨k, s, World.check_of_checkStream passed⟩

/-- A request that a handle must accept is refused outside of contexts. -/
theorem tidies_request {α : Type} {f : World → Except FileError World}
    {next : Except FileError Unit → Run α} (checks : ∀ after, f w = .ok after → w.Accepts)
    (refused : ∀ e, Leads Tidies (next (.error e)) w) :
    Leads Tidies (request f >>= next) w := by
  apply leads_outside
  intro outside
  have never (after : World) (ok : f w = .ok after) : False := by
    obtain ⟨k, s, passed⟩ := checks after ok
    exact World.check_ne_ok outside passed
  exact leads_request_bind (fun e _ => refused e) (fun after ok => (never after ok).elim)
    fun after ok => (never after ok).elim

theorem tidies_ask {f : World → Except FileError World}
    (checks : ∀ after, f w = .ok after → w.Accepts) : Leads Tidies (ask f) w := by
  rw [ask, ← bind_pure_comp]
  exact tidies_request checks fun _ => leads_pure _

theorem tidies_replace {kind : StreamKind} {f : World → Except FileError World}
    (checks : ∀ after, f w = .ok after → w.Accepts) : Leads Tidies (replace k kind f) w :=
  tidies_request checks fun _ => leads_pure _

theorem tidies_resumeReading : Leads Tidies (resumeReading k) w := by
  apply leads_get_bind
  refine tidies_request (fun after => accepts_of_stream) fun _ => ?_
  apply leads_get_bind
  exact leads_pure _

/-- Outside of contexts no file is opened. -/
theorem tidies_openFile {f : Slot} {options : OpenOptions} {sink : Sink} {source : Source}
    {received : Bytes} : Leads Tidies (openFile f options sink source received) w := by
  apply leads_outside
  intro outside
  have never {owner : ContextId} (owned : options.owner w.context = .ok owner) : False := by
    have current := OpenOptions.current_of_owner owned
    rw [outside] at current
    cases current
  rcases source with ⟨data, max, directives⟩ | g | path
  · refine leads_ask fun after ok => ?_
    obtain ⟨owner, owned, -⟩ := except_map_eq_ok.mp ok
    exact (never owned).elim
  · apply leads_get_bind
    split
    · exact leads_pure _
    · apply leads_get_bind
      split
      · refine leads_ask fun after ok => ?_
        obtain ⟨owner, owned, -⟩ := except_map_eq_ok.mp ok
        exact (never owned).elim
      · exact leads_pure _
  · refine leads_ask fun after ok => ?_
    obtain ⟨owner, -, -, owned, -⟩ := World.exists_openPath ok
    exact (never owned).elim

theorem tidies_putHandle {target : Slot} : Leads Tidies (putHandle k target) w := by
  apply leads_ask
  intro after ok
  split at ok
  · obtain rfl := Except.ok.inj ok
    exact tidies_sweep rfl rfl
  · cases ok

/-- A task that is put behind the others brings its references along. -/
theorem World.refers_post {task : Task} (refers : w.Refers h) : (w.post task).Refers h := by
  refine refers.of_each fun place here => ?_
  cases place with
  | tasks =>
    obtain ⟨other, there, holds⟩ := List.mem_flatMap.mp here
    refine .inl (List.mem_flatMap.mpr ⟨other, ?_, holds⟩)
    rcases isOpen : w.tasks.isOpen with _ | _
    · rwa [World.post, Queue.push_of_shut isOpen]
    · rw [World.post, Queue.items_push isOpen]
      exact List.mem_append_left _ there
  | _ => exact .inl here

theorem tidies_command (received : Bytes) (c : Command) (w : World) :
    Leads Tidies (c.run received) w := by
  cases c with
  | openFile => exact tidies_openFile
  | clone | drop =>
    exact leads_withHandle fun k => leads_modify_bind (tidies_sweep rfl rfl) (leads_pure _)
  | write | flush | close =>
    exact leads_withHandle fun k => tidies_ask fun after => accepts_of_map
  | read =>
    apply leads_withHandle
    intro k
    apply tidies_ask
    intro after ok
    obtain ⟨s, passed, -⟩ := World.exists_read ok
    exact ⟨k, s, passed⟩
  | readStream f | writeStream f =>
    apply leads_withHandle
    intro k
    apply tidies_ask
    intro after ok
    obtain ⟨middle, got, -⟩ := except_map_eq_ok.mp ok
    exact accepts_of_map got
  | describe f | path f =>
    apply leads_withHandle
    intro k
    apply leads_get_bind
    split <;> exact leads_pure _
  | onEnd | onReadFailure | clearData =>
    exact leads_withReader fun k => tidies_replace fun after => accepts_of_stream
  | pause => exact leads_withReader fun k => tidies_ask fun after => accepts_of_stream
  | resume => exact leads_withReader fun k => tidies_resumeReading
  | onData | pauseResume =>
    exact leads_withReader fun k =>
      tidies_request (fun after => accepts_of_stream) fun e => leads_pure _
  | setChunkSize =>
    apply leads_withReader
    intro k
    apply tidies_ask
    intro after ok
    obtain ⟨s, passed, -⟩ := World.exists_setChunkSize ok
    exact ⟨k, s, World.check_of_checkStream passed⟩
  | readerHandle => exact leads_withReader fun k => tidies_putHandle
  | send | setQueueMax =>
    exact leads_withWriter fun k _ => tidies_ask fun after => accepts_of_stream
  | sendTwice =>
    exact leads_withWriter fun k _ =>
      tidies_request (fun after => accepts_of_stream) fun e => leads_pure _
  | queueFull f =>
    apply leads_withWriter
    intro k _
    apply leads_get_bind
    split <;> exact leads_pure _
  | ifQueueFull f yes no =>
    apply leads_outside
    intro outside
    apply leads_withWriter
    intro k _
    apply leads_get_bind
    -- outside of contexts the queue cannot be asked, so neither branch is run
    have never (full : Bool) (ok : w.queueFull k = .ok full) : False := by
      obtain ⟨s, passed, -⟩ := except_map_eq_ok.mp ok
      exact World.check_ne_ok outside (World.check_of_checkStream passed)
    split
    · exact leads_pure _
    next ok => exact (never true ok).elim
    next ok => exact (never false ok).elim
  | onDrain f handler =>
    obtain ⟨tag, body, keeps⟩ := handler
    apply leads_withWriter
    intro k _
    apply leads_get_bind
    apply leads_get_bind
    exact tidies_request (fun after => accepts_of_stream) fun e => leads_pure _
  | onWriteFailure =>
    exact leads_withWriter fun k _ => tidies_replace fun after => accepts_of_stream
  | writerHandle => exact leads_withWriter fun k _ => tidies_putHandle
  | execute context task =>
    rw [Command.run]
    split
    · refine leads_modify_bind ?_ (leads_pure _)
      intro outside
      exact ⟨outside, rfl, fun swept => swept.of_refers rfl fun h => World.refers_post⟩
    · exact leads_pure _
  | currentContext | contextTexts => exact leads_get_bind (leads_pure _)
  | contents f =>
    apply leads_get_bind
    split <;> exact leads_pure _
  | held f =>
    apply leads_get_bind
    split
    · exact leads_pure _
    · exact leads_get_bind (leads_pure _)
  | adjust f data max directives =>
    apply leads_get_bind
    split
    · exact leads_pure _
    · exact leads_modify_bind (tidies_of_same rfl rfl fun place => by cases place <;> rfl)
        (leads_pure _)
  | require what c =>
    apply leads_bind (tidies_command received c w)
    intro reply after _
    split
    · exact leads_throw _
    · exact leads_pure _
  | shutDown origin => exact leads_modify_bind (tidies_sweep rfl rfl) (leads_pure _)
  | panic message =>
    exact leads_note_bind (tidies_of_same rfl rfl fun place => by cases place <;> rfl)
      (leads_throw _)

/-- Between two steps no task holds a handle, and no handle that is gone has registrations. -/
theorem Reachable.tidy (reached : Reachable mode w) : w.held = [] ∧ w.Swept := by
  refine Reachable.induct (P := fun w => w.held = [] ∧ w.Swept) ?_ ?_ reached
  · intro workers files
    exact ⟨rfl, fun h s known _ => by cases known⟩
  · rintro w after reached ⟨held, swept⟩ step
    -- a step that does not sweep gives up no reference
    obtain ⟨loose, accounted, -⟩ := reached.sound.accounted
    have ran {α : Type} (v : World) (context : ContextId) (holds : List HandleId) (code : Run α)
        (free : v.held = []) :
        (v.runOn context holds code).2.held = [] ∧ (v.runOn context holds code).2.Swept := by
      obtain ⟨note, same⟩ := @World.exists_runOn v α context holds code
      rw [same]
      exact ⟨World.held_sweep.trans free, World.swept_sweep⟩
    cases step with
    | task runs =>
      obtain ⟨task, rest, -, rfl⟩ := World.exists_task_of_runTask runs
      exact ran _ _ _ _ held
    | command | body => exact ran _ _ _ _ held
    | outside c =>
      obtain ⟨-, same, kept⟩ := tidies_command [] c w reached.context
      exact ⟨same.trans held, kept swept⟩
    | post | postLater =>
      exact ⟨held, swept.of_refers rfl fun h => World.refers_post⟩
    | take takes =>
      have moved := fun h => (World.refers_takeJob (h := h) takes).mpr
      obtain ⟨job, rest, -, rfl⟩ := World.exists_takeJob takes
      exact ⟨held, swept.of_refers rfl moved⟩
    | answer a files backends running makes calm =>
      exact ⟨World.held_answer.trans held, swept.of_refers World.handles_answer
        fun h => (World.refers_answer accounted.running_nodup running).mpr⟩
    | finish running ended =>
      exact ⟨World.held_finish.trans held, swept.of_refers World.handles_finish
        fun h => (World.refers_finish accounted.running_nodup running).mpr⟩
    | shutDown origin => exact ⟨World.held_sweep.trans held, World.swept_sweep⟩
    | freshContext | takePanic =>
      exact ⟨held, swept.of_refers rfl fun h refers =>
        refers.of_each fun place here => .inl (by cases place <;> exact here)⟩

end PinnedFile
