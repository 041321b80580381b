/-
  PinnedFile.Proofs.Copying.Beginning

  How the copying begins: both files are opened, the streams are made, and once somebody
  listens for chunks the first read is under way.
-/

import PinnedFile.Proofs.Copying.Steps

namespace PinnedFile

open Run

namespace Copying

variable {files opened : FileTree} {sourcePath destinationPath contents old unsent : Bytes}
  {a b : NodeId} {w after : World} {setting : Setting} {intake : Intake} {outlet : Outlet}
  {listener : Listener Command}

/-! ## Registrations -/

/-- A registration that is replaced leaves both handles in their slots. -/
theorem returns_replace {h : HandleId} {kind : StreamKind} {f : World → Except FileError World}
    (known : h = sourceHandle ∨ h = destinationHandle) (accepted : f w = .ok after)
    (stands : InTask setting intake outlet unsent after) :
    Returns (Goes setting intake outlet unsent) (replace h kind f) w := by
  have live : after.isLive h = true := by
    rcases known with rfl | rfl
    · exact stands.isLive_source
    · exact stands.isLive_destination
  rw [replace]
  refine returns_request_bind accepted (returns_get_bind ?_)
  rw [stands.sweep, if_pos live]
  refine returns_modify_bind ?_
  rw [stands.sweep]
  exact returns_pure ⟨trivial, stands⟩

theorem returns_onReadFailure (stands : InTask setting intake outlet unsent w)
    (opened : intake.closed = false) (calls : listener.calls = [])
    (each : listener.each = onFailure) :
    Returns (Goes setting intake outlet unsent)
      ((Command.onReadFailure source listener).run []) w := by
  obtain ⟨s, -, -, accepted⟩ := stands.checkStream_source opened
  rw [Command.run]
  refine returns_reading stands.toStands (returns_replace (.inl rfl)
    (by rw [World.onReadFailure, accepted]; rfl) ?_)
  refine stands.modifyReader (fun r reader => { reader with failure := ?_ }) rfl rfl stands.held
  rintro g ⟨⟩
  exact ⟨calls, each⟩

theorem returns_onWriteFailure (stands : InTask setting intake outlet unsent w)
    (opened : outlet.closed = false) (calls : listener.calls = [])
    (each : listener.each = onFailure) :
    Returns (Goes setting intake outlet unsent)
      ((Command.onWriteFailure destination listener).run []) w := by
  obtain ⟨t, -, -, accepted⟩ := stands.checkStream_destination opened
  rw [Command.run]
  refine returns_sending stands.toStands (returns_replace (.inr rfl)
    (by rw [World.onWriteFailure, accepted]; rfl) ?_)
  refine stands.modifyWriter (fun v writer => { writer with failure := ?_ }) rfl rfl rfl stands.held
  rintro g ⟨⟩
  exact ⟨calls, each⟩

/-- The first read is started as soon as somebody listens for chunks. -/
theorem returns_onData (stands : InTask setting { deaf := true, endless := true } outlet unsent w)
    (calls : listener.calls = []) (each : listener.each = onChunk) :
    Returns (Goes setting { busy := true, counted := true, endless := true } outlet unsent)
      ((Command.onData source listener).run []) w := by
  obtain ⟨s, -, -, accepted⟩ := stands.checkStream_source rfl
  have heard : InTask setting { endless := true } outlet unsent
      (w.modifyReader sourceHandle (·.listening (w.registration listener))) :=
    stands.modifyReader (fun r reader => { reader with
      data := fun _ _ => ⟨_, rfl, calls, each⟩ }) rfl rfl
      fun waits => nomatch (stands.held waits).paused
  rw [Command.run]
  refine returns_reading stands.toStands ?_
  rw [listenForData]
  refine returns_request_bind (by rw [World.onData, accepted]; rfl) (returns_holding ?_)
  have held := heard.hold ([sourceHandle] ++ (w.modifyReader sourceHandle
    (·.listening (w.registration listener))).held)
  refine returns_get_bind ?_
  rw [held.wantsRead rfl rfl]
  exact returns_bind (returns_startRead held) fun _ last reads =>
    returns_pure ⟨trivial, reads.settle _⟩

theorem returns_onEnd_listening {busy counted : Bool}
    (stands : InTask setting { busy, counted, endless := true } outlet unsent w)
    (calls : listener.calls = []) (each : listener.each = onEnd) :
    Returns (Goes setting { busy, counted } outlet unsent)
      ((Command.onEnd source listener).run []) w := by
  obtain ⟨s, -, -, accepted⟩ := stands.checkStream_source rfl
  rw [Command.run]
  refine returns_reading stands.toStands (returns_replace (.inl rfl)
    (by rw [World.onEnd, accepted]; rfl) ?_)
  exact stands.modifyReader (fun r reader => { reader with
    ending := fun _ _ => ⟨_, rfl, calls, each⟩ }) rfl rfl
    fun waits => nomatch (stands.held waits).paused

/-! ## The whole of it -/

/-- The first of some commands, when it is known where it leads to. -/
theorem exec_first {c : Command} {rest : List Command} {reply : Reply}
    (ends : exec (c.run []) w = (.ok reply, after)) :
    exec (runAll [] (c :: rest)) w = exec (runAll [] rest) (after.record (.ran c reply)) := by
  rw [runAll, exec_bind_ok ends]
  rfl

theorem returns_first {c : Command} {rest : List Command} {reply : Reply} {P : Unit → World → Prop}
    (ends : exec (c.run []) w = (.ok reply, after))
    (next : Returns P (runAll [] rest) (after.record (.ran c reply))) :
    Returns P (runAll [] (c :: rest)) w := by
  obtain ⟨_, last, ends', holds⟩ := next
  exact ⟨_, last, (exec_first ends).trans ends', holds⟩

theorem exec_open {f : Slot} {options : OpenOptions} {sink : Sink} {path : Bytes} {what : String}
    (opens : w.openPath f options sink path = .ok after) :
    exec ((Command.require what (.openFile f options sink (.path path))).run []) w =
      (.ok (.result (.ok ())), after) := by
  have asked : exec ((Command.openFile f options sink (.path path)).run []) w =
      (.ok (.result (.ok ())), after) := by
    rw [Command.run, Run.openFile, ask, exec_map, exec_request_ok opens]
    rfl
  rw [Command.run, exec_bind_ok asked]
  rfl

/-- The last four commands: once there are listeners, the copying reads. -/
theorem returns_listening (sourcePath destinationPath : Bytes)
    (stands : InTask setting { deaf := true, endless := true } {} [] w) :
    Returns (fun _ after => InTask setting { busy := true, counted := true } {} [] after)
      (runAll [] ((program sourcePath destinationPath).drop 4)) w := by
  refine returns_cons (returns_require (returns_onReadFailure stands rfl rfl rfl))
    fun _ stands => ?_
  refine returns_cons (returns_require (returns_onWriteFailure stands rfl rfl rfl))
    fun _ stands => ?_
  refine returns_cons (returns_require (returns_onData stands rfl rfl)) fun _ stands => ?_
  refine returns_cons (returns_require (returns_onEnd_listening stands rfl rfl)) fun _ stands => ?_
  exact returns_nil stands

/-! ## Worlds at the beginning -/

/-- The context that the program runs on: the first that is not known by number. -/
def programContext : ContextId := ⟨World.namedContexts⟩

/-- The source, open. -/
def openSource (path : Bytes) (reader : Option Reader) : Handle where
  owner := programContext
  backend := 0
  sink := .log
  path := path
  readChunk := sourceOptions.readBufferSize
  queueMax := sourceOptions.writeQueueMaxSize
  reader := reader

/-- The destination, open. -/
def openDestination (path : Bytes) (writer : Option Writer) : Handle where
  owner := programContext
  backend := 1
  sink := .log
  path := path
  readChunk := destinationOptions.readBufferSize
  queueMax := destinationOptions.writeQueueMaxSize
  writer := writer

/-- A world in which nothing was done but to open files and to make streams. -/
def prepared (files : FileTree) (backends : List Backend) (handles : List Handle)
    (slots : List (Slot × SlotEntry)) (history : List Entry) : World :=
  { World.start workers files with
    backends, handles, slots, history
    context := some programContext
    nextContext := World.namedContexts + 1 }

/-- A world in which both files are open, and streams are there. -/
def bothOpen (files : FileTree) (a b : NodeId) (sourcePath destinationPath : Bytes)
    (reader : Option Reader) (writer : Option Writer) (history : List Entry) : World :=
  prepared files [.file ⟨a, true, false⟩, .file ⟨b, false, true⟩]
    [openSource sourcePath reader, openDestination destinationPath writer]
    [(source, { handle := some sourceHandle, reader := reader.map fun _ => sourceHandle }),
     (destination,
      { handle := some destinationHandle, writer := writer.map fun _ => destinationHandle })]
    history

/-- Both paths open, whatever they lead to. -/
structure CanOpen (files : FileTree) (sourcePath destinationPath : Bytes) (opened : FileTree)
    (a b : NodeId) : Prop where
  source : files.openPath sourcePath true false false OpenOptions.defaultMode =
    .ok (⟨a, true, false⟩, files)
  destination : files.openPath destinationPath false true true OpenOptions.defaultMode =
    .ok (⟨b, false, true⟩, opened)

theorem Opens.canOpen (opens : Opens files sourcePath destinationPath opened a b contents old) :
    CanOpen files sourcePath destinationPath opened a b := ⟨opens.source, opens.destination⟩

theorem exec_open_source {what : String} (opens : files.openPath sourcePath true false false
      OpenOptions.defaultMode = .ok (⟨a, true, false⟩, files)) :
    exec ((Command.require what (.openFile source sourceOptions .log (.path sourcePath))).run [])
      ((World.start workers files).freshContext.2.entered programContext []) =
      (.ok (.result (.ok ())), prepared files [.file ⟨a, true, false⟩] [openSource sourcePath none]
        [(source, { handle := some sourceHandle })] []) :=
  exec_open (World.openPath_ok rfl rfl opens)

theorem exec_open_destination {what : String}
    (opens : files.openPath destinationPath false true true OpenOptions.defaultMode =
      .ok (⟨b, false, true⟩, opened)) (history : List Entry) :
    exec ((Command.require what
        (.openFile destination destinationOptions .log (.path destinationPath))).run [])
      (prepared files [.file ⟨a, true, false⟩] [openSource sourcePath none]
        [(source, { handle := some sourceHandle })] history) =
      (.ok (.result (.ok ())),
        bothOpen opened a b sourcePath destinationPath none none history) :=
  exec_open (World.openPath_ok rfl rfl opens)

theorem exec_readStream {what : String} (history : List Entry) :
    exec ((Command.require what (.readStream source)).run [])
      (bothOpen files a b sourcePath destinationPath none none history) =
      (.ok (.result (.ok ())), bothOpen files a b sourcePath destinationPath
        (some { chunkSize := chunkSize }) none history) := rfl

theorem exec_writeStream {what : String} (history : List Entry) :
    exec ((Command.require what (.writeStream destination)).run [])
      (bothOpen files a b sourcePath destinationPath (some { chunkSize := chunkSize }) none
        history) =
      (.ok (.result (.ok ())), bothOpen files a b sourcePath destinationPath
        (some { chunkSize := chunkSize }) (some (.ofQueueMax queueMax)) history) := rfl

theorem isSource_open : IsSource programContext { deaf := true, endless := true }
    (openSource sourcePath (some { chunkSize := chunkSize })) where
  owner := rfl
  backend := rfl
  closed := rfl
  inFlight := rfl
  stream := ⟨_, rfl, rfl, rfl, rfl, rfl, nofun, nofun, nofun⟩

theorem isDestination_open : IsDestination programContext {}
    (openDestination destinationPath (some (.ofQueueMax queueMax))) where
  owner := rfl
  backend := rfl
  closed := rfl
  full := nofun
  room := show 0 < queueMax by decide
  stream := ⟨_, rfl, rfl, rfl, rfl, nofun⟩

/-- The setting in which the copying begins. -/
def beginning (isSmooth : Bool) (opened : FileTree) (a b : NodeId) : Setting :=
  ⟨isSmooth, programContext, opened, [.file ⟨a, true, false⟩, .file ⟨b, false, true⟩], []⟩

/-- Nothing was written through a handle, and it has no write stream. -/
structure IsUnwritten (s : Handle) : Prop where
  outstanding : s.outstanding = 0
  writer : s.writer = none

theorem balanced_of_unwritten {handles : List Handle} (fresh : ∀ s ∈ handles, IsUnwritten s) :
    Balanced handles where
  bounded t known := by
    rw [(fresh t (List.mem_of_getElem? known)).outstanding]
    decide
  held t v known made := by
    rw [(fresh t (List.mem_of_getElem? known)).writer] at made
    cases made

/-- Both streams are there, and so far nothing was done but to run commands. -/
theorem inTask_bothOpen {isSmooth : Bool} {here here' here'' : Option ContextId}
    {c c' c'' : Command} {handles handles' handles'' : List Handle} (balanced : Balanced handles)
    (balanced' : Balanced handles') (balanced'' : Balanced handles'') :
    InTask (beginning isSmooth opened a b) { deaf := true, endless := true } {} []
      (bothOpen opened a b sourcePath destinationPath (some { chunkSize := chunkSize })
        (some (.ofQueueMax queueMax)) [⟨here, .ran c (.result (.ok ())), handles⟩,
          ⟨here', .ran c' (.result (.ok ())), handles'⟩,
          ⟨here'', .ran c'' (.result (.ok ())), handles''⟩]) where
  slots := rfl
  handles := ⟨_, _, rfl, isSource_open, isDestination_open⟩
  held := nofun
  jobs _ := rfl
  tasks _ := rfl
  deliveries := List.forall_mem_nil _
  calm := rfl
  files := rfl
  backends := rfl
  exchanges := rfl
  proper := by
    simp only [bothOpen, prepared, List.forall_mem_cons]
    exact ⟨trivial, trivial, trivial, List.forall_mem_nil _⟩
  smooth _ := by
    simp only [bothOpen, prepared, List.forall_mem_cons]
    exact ⟨trivial, trivial, trivial, List.forall_mem_nil _⟩
  balanced := by
    simp only [bothOpen, prepared, List.forall_mem_cons]
    exact ⟨balanced, balanced', balanced'', List.forall_mem_nil _⟩
  copied := (bytesRead_cons_of_none rfl).trans ((bytesRead_cons_of_none rfl).trans
    (bytesRead_cons_of_none rfl))
  here := rfl

/-! ## The whole program -/

theorem returns_program {isSmooth : Bool}
    (opens : CanOpen files sourcePath destinationPath opened a b) :
    Returns (fun _ after =>
        InTask (beginning isSmooth opened a b) { busy := true, counted := true } {} [] after)
      (runAll [] (program sourcePath destinationPath))
      ((World.start workers files).freshContext.2.entered programContext []) := by
  rw [program]
  -- before both streams are there no stance can be told, so these commands are run outright
  refine returns_first (exec_open_source opens.source)
    (returns_first (exec_open_destination opens.destination _) ?_)
  refine returns_first (exec_readStream _) (returns_first (exec_writeStream _) ?_)
  have source (reader : Option Reader) : IsUnwritten (openSource sourcePath reader) := ⟨rfl, rfl⟩
  have destination : IsUnwritten (openDestination destinationPath none) := ⟨rfl, rfl⟩
  refine returns_listening sourcePath destinationPath (InTask.record (inTask_bothOpen
    (balanced_of_unwritten ?_) (balanced_of_unwritten ?_) (balanced_of_unwritten ?_))
    trivial trivial)
  · exact List.forall_mem_cons.mpr ⟨source _, List.forall_mem_singleton.mpr destination⟩
  · exact List.forall_mem_cons.mpr ⟨source _, List.forall_mem_singleton.mpr destination⟩
  · exact List.forall_mem_singleton.mpr (source none)

theorem Setting.isSound_beginning
    (opens : Opens files sourcePath destinationPath opened a b contents old) :
    (beginning true opened a b).IsSound contents old a b where
  smooth := rfl
  backends := rfl
  source := opens.source_opened
  destination := opens.held
  reads := List.forall_mem_nil _
  writes := List.forall_mem_nil _

/-- To begin is to have the program run on a new context. -/
theorem step_begin : Step .calm (World.start workers files).freshContext.2
    (begin files sourcePath destinationPath) :=
  .body programContext (program sourcePath destinationPath) rfl

/-- If both files open, the copying begins with a read under way. -/
theorem stands_begin {isSmooth : Bool}
    (opens : CanOpen files sourcePath destinationPath opened a b) :
    Stands (beginning isSmooth opened a b) { busy := true, counted := true } {} []
      (begin files sourcePath destinationPath) := by
  obtain ⟨_, last, stands, same⟩ := World.runOn_of_returns (returns_program opens)
  have settled : Stands (beginning isSmooth opened a b) { busy := true, counted := true } {} []
      { last with context := none, held := [] } := { stands with }
  have here : begin files sourcePath destinationPath =
      { last with context := none, held := [] } := same.trans settled.sweep
  rw [here]
  exact settled

theorem copies_begin
    (opens : Opens files sourcePath destinationPath opened a b contents old) :
    Copies contents old a b (begin files sourcePath destinationPath) := by
  have reached : Reachable .calm (World.start workers files).freshContext.2 :=
    (Reachable.start workers files).step .freshContext
  have staffed : (begin files sourcePath destinationPath).workers = workers :=
    (step_begin.turns_of_sound reached.sound).workers
  exact ⟨reached.step step_begin, by rw [staffed]; decide, beginning true opened a b, _, _,
    .reading, stands_begin opens.canOpen, Setting.isSound_beginning opens⟩

end Copying

end PinnedFile
