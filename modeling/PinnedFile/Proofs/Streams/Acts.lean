/-
  PinnedFile.Proofs.Streams.Acts

  What a run does to the streams of one handle, said once.

  An act is a change that the code of a client makes, or a delivery: the operation is
  completed, the client is told, and what its callbacks do are changes again.  Every step is
  a sequence of acts, so what every act keeps holds in every run.
-/

import PinnedFile.Proofs.Streams.Changes

namespace PinnedFile

open Run

/-- Any number of changes, one after the other. -/
abbrev Changes (h : HandleId) : World → World → Prop := Relation.ReflTransGen (Change h)

variable {mode : Mode} {w after : World} {h k : HandleId} {job : Job} {outcome : Outcome}
  {rest : Queue Task}

theorem Moves.changes (moves : Moves w after) : Changes h w after :=
  Relation.ReflTransGen.mono (fun _ _ => Move.change) _ _ moves

theorem QuietFor.changes (quiet : QuietFor h w after) : Changes h w after := .single (.quiet quiet)

namespace World

/-- A world in which the loop delivers an outcome and has just told the client of it. -/
def telling (w : World) (job : Job) (outcome : Outcome) (rest : Queue Task) : World :=
  ((w.delivering job outcome rest).completing job outcome).told job outcome

/-- An operation was accepted and has not been completed. -/
def IsDue (w : World) (job : Job) : Prop :=
  ∃ a ∈ w.accepted, a.ticket = job.ticket ∧ a.id ∉ w.books.delivered

end World

/-- What a run does, seen from the streams of one handle. -/
inductive Act (mode : Mode) (h : HandleId) : World → World → Prop where
  | change {w after : World} (change : Change h w after) : Act mode h w after
  /-- An outcome is delivered, and all callbacks return.  After a write of a stream the drain
      callback is looked at, and after a chunk the stream goes on. -/
  | deliver {w after : World} {job : Job} {outcome : Outcome} {rest : Queue Task}
      (next : w.tasks.pop = some (.deliver job outcome, rest)) (due : w.IsDue job)
      (calls : Changes h (w.telling job outcome rest) after)
      (looks : ∀ n, job.completion = .send n →
        ∃ v : World, Changes h (v.toldDrained job.handle) after) :
      Act mode h w ((after.record (.delivered job.id)).readsOn job outcome)
  /-- An outcome is delivered, and a callback panics. -/
  | breakOff {w after : World} {job : Job} {outcome : Outcome} {rest : Queue Task}
      (next : w.tasks.pop = some (.deliver job outcome, rest)) (due : w.IsDue job)
      (calls : Changes h (w.telling job outcome rest) after) (panics : mode ≠ .calm) :
      Act mode h w after

/-- Any number of acts, one after the other. -/
abbrev Acts (mode : Mode) (h : HandleId) : World → World → Prop :=
  Relation.ReflTransGen (Act mode h)

theorem Changes.acts (changes : Changes h w after) : Acts mode h w after :=
  Relation.ReflTransGen.mono (fun _ _ => .change) _ _ changes

/-! ## Steps are acts -/

theorem isDue_of_posted (sound : Books.Sound mode w.books)
    (posted : .deliver job outcome ∈ w.tasks.items) : w.IsDue job := by
  obtain ⟨loose, accounted, -⟩ := sound.accounted
  have there : job ∈ w.books.underway := Books.underway_of_posted posted
  obtain ⟨a, accepted, ticket, -⟩ := sound.traced.underway job there
  refine ⟨a, accepted, ticket, ?_⟩
  rw [show a.id = job.ticket.id from congrArg Ticket.id ticket]
  exact accounted.not_completed (ticket_mem_bag (List.mem_append_left _ there))

/-- The drain callback is looked at after a write of a stream, if no callback has panicked. -/
theorem looks_of_tell {n : Nat} (sent : job.completion = .send n) (here : w.OnOwner job.handle)
    (returns : (exec (tell job outcome) w).1 = .ok ()) :
    ∃ v : World, Changes h (v.toldDrained job.handle) (exec (tell job outcome) w).2 := by
  have finish : tell job outcome = finishSend job.handle outcome := by rw [Run.tell, sent]
  rw [finish] at returns ⊢
  rcases outcome with e | bytes
  · obtain ⟨v, -, -, looks⟩ := moves_finishSend_error here e
    exact ⟨v, (looks returns).changes⟩
  · exact ⟨w, moves_tellDrained.changes⟩

theorem quietFor_closeIfQuiet : QuietFor h w (exec (closeIfQuiet k) w).2 := by
  rw [closeIfQuiet, exec_get_bind]
  split
  · exact quietFor_refl
  · split
    · split
      · exact quietFor_refl
      next job waits =>
        have taken : QuietFor h w (w.modifyHandle k ({ · with pendingClose := none })) :=
          quietFor_modifyHandle fun _ _ => Handle.stays_pendingClose
        exact taken.trans (quietFor_submit job)
    · exact quietFor_refl

/-- A delivery on the context of its handle is an act, and then a few changes. -/
theorem acts_deliver (next : w.tasks.pop = some (.deliver job outcome, rest))
    (due : w.IsDue job) (here : (w.delivering job outcome rest).OnOwner job.handle)
    (calm : mode = .calm → w.CallbacksReturn) :
    Acts mode h w (exec (deliver job outcome) (w.delivering job outcome rest)).2 := by
  rw [exec_deliver here]
  have calls : Changes h (w.telling job outcome rest)
      (exec (tell job outcome) ((w.delivering job outcome rest).completing job outcome)).2 :=
    (moves_tell job outcome (World.onOwner_completing job outcome here)).changes
  rcases told : exec (tell job outcome) ((w.delivering job outcome rest).completing job outcome)
    with ⟨message | _, first⟩
  · -- a callback panics, and nothing more is done
    have announced : exec (announce job outcome) (w.delivering job outcome rest) =
        (.error message, first) := by rw [exec_announce, exec_bind_error told]
    rw [exec_bind_error announced]
    rw [told] at calls
    refine .single (.breakOff next due calls fun isCalm => ?_)
    have returns := calm isCalm job outcome rest next
    rw [announced] at returns
    cases returns
  · have announced : exec (announce job outcome) (w.delivering job outcome rest) =
        (.ok (), first.record (.delivered job.id)) := by
      rw [exec_announce, exec_bind_ok told, exec_note]
    have looks : ∀ n, job.completion = .send n →
        ∃ v : World, Changes h (v.toldDrained job.handle) first := by
      intro n sent
      obtain ⟨v, looks⟩ := looks_of_tell (h := h) sent (World.onOwner_completing job outcome here)
        (congrArg Prod.fst told)
      rw [told] at looks
      exact ⟨v, looks⟩
    rw [exec_bind_ok announced]
    rw [told] at calls
    refine .head (.deliver next due calls looks) ?_
    rw [← exec_readOn]
    rcases readsOn : exec (readOn job outcome) (first.record (.delivered job.id))
      with ⟨message | _, second⟩
    · rw [exec_bind_error readsOn]
    · rw [exec_bind_ok readsOn]
      exact quietFor_closeIfQuiet.changes.acts

/-- When a task ends, its context is left, and whatever panic ended it is noted. -/
theorem quietFor_runOn {α : Type} {context : ContextId} {holds : List HandleId} {code : Run α} :
    QuietFor h (exec code (w.entered context holds)).2 (w.runOn context holds code).2 := by
  unfold World.runOn
  rcases ends : code.run.run { w with context := some context, held := holds } with
    ⟨message | a, after⟩
  · have same : (exec code (w.entered context holds)).2 = after := congrArg Prod.snd ends
    rw [same]
    have swept : QuietFor h after { after with context := w.context, held := w.held }.sweep :=
      quietFor_sweep.of_same rfl rfl rfl
    have noted (v : World) : QuietFor h v (v.notePanic message) := quietFor_of_same rfl rfl rfl
    exact swept.trans (noted _)
  · have same : (exec code (w.entered context holds)).2 = after := congrArg Prod.snd ends
    rw [same]
    exact quietFor_sweep.of_same rfl rfl rfl

/-- The code of a client that runs on a context. -/
theorem acts_client {α : Type} {context : ContextId} {holds : List HandleId} {code : Run α}
    (changes : ∀ v, Changes h v (exec code v).2) :
    Acts mode h w (w.runOn context holds code).2 := by
  have entered : QuietFor h w (w.entered context holds) := quietFor_of_same rfl rfl rfl
  exact Changes.acts ((entered.changes.trans (changes _)).trans quietFor_runOn.changes)

theorem acts_runTask (runs : w.runTask = some after) (sound : Books.Sound mode w.books)
    (calm : mode = .calm → w.CallbacksReturn) : Acts mode h w after := by
  obtain ⟨task, rest, next, rfl⟩ := World.exists_task_of_runTask runs
  have begun : QuietFor h w { w with tasks := rest } := quietFor_of_same rfl rfl rfl
  cases task with
  | deliver job outcome =>
    have posted := Queue.mem_of_pop next
    obtain ⟨s, known⟩ := known_of_sound sound job outcome posted
    have delivered := acts_deliver (h := h) next (isDue_of_posted sound posted)
      (World.onOwner_delivering outcome rest known) calm
    exact delivered.trans (quietFor_runOn (w := { w with tasks := rest })).changes.acts
  | client context task =>
    refine begun.changes.acts.trans (acts_client fun v => ?_)
    have started : QuietFor h v (v.record (.started task.tag)) := quietFor_record trivial
    rw [World.taskCode, exec_note_bind]
    exact started.changes.trans (Moves.changes (moves_runAll [] task.body _))
  | later context =>
    refine begun.changes.acts.trans (acts_client fun v => ?_)
    exact (quietFor_record (e := .later) trivial).changes

/-- Every step is a sequence of acts. -/
theorem Step.acts (step : Step mode w after) (sound : Books.Sound mode w.books) :
    Acts mode h w after := by
  cases step with
  | task runs calm => exact acts_runTask runs sound calm
  | command context c alive => exact acts_client fun v => (moves_command [] c v).changes
  | body context body alive => exact acts_client fun v => (moves_runAll [] body v).changes
  | outside c => exact (Moves.changes (moves_command [] c w)).acts
  | post | postLater | freshContext | takePanic =>
    exact Changes.acts (QuietFor.changes (quietFor_of_same rfl rfl rfl))
  | take takes =>
    unfold World.takeJob at takes
    split at takes
    · split at takes
      · cases takes
      next job rest next =>
        obtain rfl := Option.some.inj takes
        have taken : QuietFor h w { w with jobs := rest, running := w.running ++ [job] } :=
          quietFor_of_same rfl rfl rfl
        exact Changes.acts (.single (.quiet (taken.record trivial)))
    · cases takes
  | @answer job call a files backends running makes calm =>
    have noted : QuietFor h w (({ w with files, backends }.withoutJob job).record
        (.native job.id job.handle call a)) :=
      (quietFor_record (e := .native job.id job.handle call a) trivial).of_same rfl rfl rfl
    apply Changes.acts
    unfold World.answer
    dsimp only
    split
    · exact noted.changes.tail (.quiet (quietFor_of_same rfl rfl rfl))
    · exact noted.changes.tail (.quiet (quietFor_of_same rfl rfl rfl))
  | finish running ended =>
    apply Changes.acts
    unfold World.finish
    dsimp only
    split
    · exact QuietFor.changes (quietFor_of_same rfl rfl rfl)
    · exact QuietFor.changes (quietFor_of_same rfl rfl rfl)
  | shutDown origin => exact quietFor_shutDown.changes.acts

/-- What holds at the start and is kept by every act holds in every run. -/
theorem Reachable.acts_induct {P : World → Prop}
    (start : ∀ workers files, P (.start workers files))
    (act : ∀ w after, P w → Act mode h w after → P after) (reached : Reachable mode w) : P w := by
  refine Reachable.induct start ?_ reached
  intro w after reached kept step
  have acts : Acts mode h w after := step.acts reached.sound
  clear step
  induction acts with
  | refl => exact kept
  | tail _ last ih => exact act _ _ ih last

/-! ## Telling -/

theorem quietFor_aboutToTell : QuietFor h w (w.aboutToTell job) := by
  unfold World.aboutToTell
  split
  · exact quietFor_modifyHandle fun _ _ => Handle.stays_unregistered
  · exact quietFor_refl

theorem quietFor_toldHandler : QuietFor h w (w.toldHandler job outcome) := by
  unfold World.toldHandler
  split
  · exact quietFor_refl
  · exact quietFor_record trivial

/-- What is told of other handles is quiet. -/
theorem quietFor_toldWithoutHandler_ne (other : job.handle ≠ h) :
    QuietFor h w (w.toldWithoutHandler job outcome) := by
  have modified (f : Handle → Handle) : QuietFor h w (w.modifyHandle job.handle f) :=
    quietFor_modifyHandle fun own => absurd own other
  obtain ⟨f, -, told | ⟨e, called, told⟩⟩ := World.callsAtMost_toldWithoutHandler w job outcome
  · rw [told]
    exact modified f
  · rw [told]
    refine (modified f).record ?_
    cases e with
    | data k tag chunk => exact fun own => other (called.symm.trans own)
    | ended k tag => exact fun own => other (called.symm.trans own)
    | failed | unheard | drained => exact trivial
    | _ => cases called

theorem quietFor_toldSink {e : FileError} : QuietFor h w (w.toldSink k e) := by
  unfold World.toldSink
  split
  · exact quietFor_refl
  · exact quietFor_record trivial

theorem quietFor_toldDrained : QuietFor h w (w.toldDrained k) := by
  unfold World.toldDrained
  split
  · exact quietFor_refl
  · split
    · exact quietFor_clearDrain.record trivial
    · exact quietFor_refl

theorem quietFor_toldReadFailure {e : FileError} : QuietFor h w (w.toldReadFailure k e) := by
  unfold World.toldReadFailure
  split
  · exact quietFor_toldSink
  · apply QuietFor.record
    · exact quietFor_modifyReader (fun _ => rfl) (fun _ => rfl) (fun _ => rfl) (fun _ => id)
        fun _ _ => Reader.rests_of_same
          (fun wanted => ⟨wanted.heard, wanted.flowing, wanted.goes_on⟩) rfl rfl rfl
    · exact trivial

theorem quietFor_toldWriteFailure {e : FileError} : QuietFor h w (w.toldWriteFailure k e) := by
  unfold World.toldWriteFailure
  split
  · exact quietFor_toldSink
  · apply QuietFor.record
    · exact quietFor_modifyWriter (fun _ => rfl) fun _ => .inr rfl
    · exact trivial

/-- Only of chunks is anything told that is not quiet. -/
theorem quietFor_told (plain : job.completion ≠ .chunk) : QuietFor h w (w.told job outcome) := by
  have handled : QuietFor h w ((w.aboutToTell job).toldHandler job outcome) :=
    quietFor_aboutToTell.trans quietFor_toldHandler
  refine handled.trans ?_
  rw [World.told]
  generalize (w.aboutToTell job).toldHandler job outcome = v
  unfold World.toldWithoutHandler
  split
  next chunk => exact absurd chunk plain
  · exact quietFor_toldDrained
  · exact quietFor_toldWriteFailure
  · exact quietFor_toldSink
  · exact quietFor_toldSink
  · exact quietFor_refl

theorem quietFor_telling_ne (other : job.handle ≠ h) :
    QuietFor h w (w.telling job outcome rest) := by
  have released : QuietFor h w
      ((w.delivering job outcome rest).modifyHandle job.handle (·.releasing job.completion)) :=
    QuietFor.of_same (quietFor_modifyHandle fun own => absurd own other) rfl rfl rfl
  have completed := released.record (e := .completed job outcome) other
  exact completed.trans ((quietFor_aboutToTell.trans quietFor_toldHandler).trans
    (quietFor_toldWithoutHandler_ne other))

/-- An event that tells of what a read stream has read: a chunk, or the end. -/
def Event.IsOfReading : Event → Prop
  | .data .. | .ended .. => True
  | _ => False

namespace World

/-- A world in which an outcome has just reached its handle, and nobody has been told. -/
def arriving (w : World) (job : Job) (outcome : Outcome) (rest : Queue Task) : World :=
  let w := (w.delivering job outcome rest).completing job outcome
  match job.completion with
  | .chunk => w.modifyReader job.handle (·.receiving outcome)
  | _ => w

/-- The one entry that is made when an outcome reaches its handle. -/
theorem history_arriving (w : World) : (w.arriving job outcome rest).history =
    ⟨(w.delivering job outcome rest).context, .completed job outcome,
      ((w.delivering job outcome rest).completing job outcome).handles⟩ :: w.history := by
  unfold arriving
  dsimp only
  split <;> rfl

/-- A chunk that has been received leaves the listeners as they are. -/
theorem data_receiving {v : World} :
    ((v.modifyReader k (·.receiving outcome)).reader? k).bind Reader.data =
      (v.reader? k).bind Reader.data := by
  rw [reader?_modifyReader]
  rcases v.reader? k with _ | r
  · rfl
  · rcases outcome with error | _ | ⟨first, more⟩ <;> rfl

/-- Of the outcome of a read of a stream only the stream is told. -/
theorem told_chunk {v : World} (chunk : job.completion = .chunk) :
    v.told job outcome = v.toldChunk job.handle outcome := by
  simp only [told, aboutToTell, toldHandler, toldWithoutHandler, Completion.handler?, chunk]

/-- What is told after an outcome has reached its handle is quiet, but for a chunk that is
    handed to the data listener, and for the end of a stream, if anybody listens. -/
theorem telling_cases (w : World) (job : Job) (outcome : Outcome) (rest : Queue Task) :
    (QuietFor h (w.arriving job outcome rest) (w.telling job outcome rest) ∧
      ∀ first more, job.completion = .chunk → outcome = .ok (first :: more) →
        (((w.delivering job outcome rest).completing job outcome).reader? job.handle).bind
          Reader.data = none) ∨
    (∃ v tag first more, QuietFor h (w.arriving job outcome rest) v ∧
      w.telling job outcome rest = v.record (.data job.handle tag (first :: more)) ∧
      job.completion = .chunk ∧ outcome = .ok (first :: more) ∧
      ((((w.delivering job outcome rest).completing job outcome).reader? job.handle).bind
        Reader.data).isSome = true) ∨
    ∃ v tag, QuietFor h (w.arriving job outcome rest) v ∧
      w.telling job outcome rest = v.record (.ended job.handle tag) ∧
      job.completion = .chunk ∧ outcome = .ok [] := by
  unfold arriving telling
  generalize (w.delivering job outcome rest).completing job outcome = v
  dsimp only
  split
  next chunk =>
    rw [told_chunk chunk]
    unfold toldChunk
    rcases outcome with e | _ | ⟨first, more⟩
    · exact .inl ⟨quietFor_toldReadFailure, fun _ _ _ none => by cases none⟩
    · dsimp only
      unfold toldEnd
      split
      · exact .inl ⟨quietFor_refl, fun _ _ _ none => by cases none⟩
      next r found =>
        refine .inr (.inr ⟨_, r.listener.tag, ?_, rfl, chunk, rfl⟩)
        exact quietFor_modifyReader (fun _ => rfl) (fun _ => rfl) (fun _ => rfl) (fun _ => id)
          fun _ _ => Reader.rests_of_same
            (fun wanted => ⟨wanted.heard, wanted.flowing, wanted.goes_on⟩) rfl rfl rfl
    · dsimp only
      unfold toldData
      split
      next nobody =>
        rw [data_receiving] at nobody
        exact .inl ⟨quietFor_refl, fun _ _ _ _ => nobody⟩
      next r found =>
        refine .inr (.inl ⟨_, r.listener.tag, first, more, ?_, rfl, chunk, rfl, ?_⟩)
        · refine quietFor_modifyReader (f := ({ · with data := some r.called })) (fun _ => rfl)
            (fun _ => rfl) (fun _ => rfl) (fun _ => id) fun stream there => ?_
          rw [there, Option.bind_some] at found
          exact Reader.rests_of_same
            (fun wanted => ⟨by rw [found]; rfl, wanted.flowing, wanted.goes_on⟩) rfl rfl rfl
        · rw [data_receiving] at found
          rw [found]
          rfl
  next plain =>
    exact .inl ⟨quietFor_told plain, fun _ _ chunk => absurd chunk plain⟩

/-- What is told after an outcome has reached its handle is quiet, but for one entry of a chunk
    or of an end. -/
theorem telling_record (w : World) (job : Job) (outcome : Outcome) (rest : Queue Task) :
    ∃ v, QuietFor h (w.arriving job outcome rest) v ∧ (w.telling job outcome rest = v ∨
      ∃ e, e.IsOfReading ∧ w.telling job outcome rest = v.record e) := by
  rcases w.telling_cases (h := h) job outcome rest with
    ⟨quiet, -⟩ | ⟨v, tag, first, more, quiet, told, -⟩ | ⟨v, tag, quiet, told, -⟩
  · exact ⟨_, quiet, .inl rfl⟩
  · exact ⟨v, quiet, .inr ⟨.data job.handle tag (first :: more), trivial, told⟩⟩
  · exact ⟨v, quiet, .inr ⟨.ended job.handle tag, trivial, told⟩⟩

end World

/-! ## Going on -/

/-- After a delivery the stream of the handle goes on, or nothing happens to it. -/
theorem readsOn_cases (w : World) (job : Job) (outcome : Outcome) :
    QuietFor h w (w.readsOn job outcome) ∨
    ((job.handle = h ∧ job.completion = .chunk) ∧ (∃ first more, outcome = .ok (first :: more)) ∧
      w.readsOn job outcome = w.readingOn h) := by
  unfold World.readsOn
  split
  next first more chunk =>
    by_cases own : job.handle = h
    · subst own
      exact .inr ⟨⟨rfl, chunk⟩, ⟨first, more, rfl⟩, rfl⟩
    · exact .inl (quietFor_readingOn_ne own)
  · exact .inl quietFor_refl

/-! ## Laws of streams -/

/-- What holds at the start, and is kept by every change, by the telling of every outcome on the
    handle, and by a stream that goes on, holds in every run. -/
theorem Reachable.streams_induct {P : World → Prop}
    (start : ∀ workers files, P (.start workers files))
    (change : ∀ w after, P w → Change h w after → P after)
    (tell : ∀ (w : World) job outcome rest,
      w.tasks.pop = some (.deliver job outcome, rest) → w.IsDue job → job.handle = h → P w →
      P (w.telling job outcome rest))
    (delivered : ∀ (w : World) id, P w → P (w.record (.delivered id)))
    (goes_on : ∀ w : World, P w → P (w.readingOn h))
    (reached : Reachable mode w) : P w := by
  have changes {v v' : World} (changed : Changes h v v') (kept : P v) : P v' := by
    induction changed with
    | refl => exact kept
    | tail _ last ih => exact change _ _ ih last
  have tells (v : World) (job : Job) (outcome : Outcome) (rest : Queue Task)
      (next : v.tasks.pop = some (.deliver job outcome, rest)) (due : v.IsDue job) (kept : P v) :
      P (v.telling job outcome rest) := by
    by_cases own : job.handle = h
    · exact tell v job outcome rest next due own kept
    · exact change _ _ kept (.quiet (quietFor_telling_ne own))
  have readsOn (v : World) (job : Job) (outcome : Outcome) (kept : P v) :
      P (v.readsOn job outcome) := by
    rcases readsOn_cases (h := h) v job outcome with quiet | ⟨-, -, same⟩
    · exact change _ _ kept (.quiet quiet)
    · rw [same]
      exact goes_on v kept
  refine Reachable.acts_induct (h := h) start (fun v v' kept act => ?_) reached
  cases act with
  | change made => exact change _ _ kept made
  | deliver next due calls looks =>
    exact readsOn _ _ _ (delivered _ _ (changes calls (tells _ _ _ _ next due kept)))
  | breakOff next due calls panics => exact changes calls (tells _ _ _ _ next due kept)

end PinnedFile
