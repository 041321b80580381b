/-
  PinnedFile.Proofs.Registrations

  What becomes of a handle when a registration of its streams is changed.

  A registration may hold the last reference to its own handle.  Then the handle is given up with
  the registration, within the very call that replaces it.  The registrations of chunks and of
  drain callbacks keep the handle until they return, so that it is taken down like any other; the
  other calls do not, and panic, for a stream cannot be taken down while it is being changed.
-/

import PinnedFile.Proofs.Lifetime

namespace PinnedFile

open Run

variable {w v after : World} {h k : HandleId} {s : Handle}

/-! ## Taking down -/

namespace World

/-- Nothing refers to a handle any more: its streams have no registrations, and its backend is
    kept for the sake of others only. -/
structure IsTornDown (w : World) (h : HandleId) (s : Handle) : Prop extends w.IsGone h s where
  released : w.isHeld s.backend = true ↔
    ∃ k ≠ h, ∃ t, w.isLive k = true ∧ w.handles[k]? = some t ∧ t.backend = s.backend

theorem Swept.isTornDown (swept : w.Swept) (known : w.handles[h]? = some s)
    (dead : w.isLive h = false) : w.IsTornDown h s := by
  refine ⟨⟨known, dead, swept h s known dead⟩, isHeld_iff.trans ?_⟩
  constructor
  · rintro ⟨k, t, live, there, same⟩
    refine ⟨k, fun own => ?_, t, live, there, same⟩
    rw [own, dead] at live
    cases live
  · rintro ⟨k, -, held⟩
    exact ⟨k, held⟩

/-- What nothing refers to before a sweep, nothing refers to after it. -/
theorem isLive_of_sweep (live : w.sweep.isLive h = true) : w.isLive h = true := by
  rw [isLive_iff] at live ⊢
  revert live
  exact sweep_induct (P := fun v => v.Refers h → w.Refers h) id fun v before refers =>
    before (refers_of_sweepOnce refers)

/-- A sweep leaves alone what is referred to after it. -/
theorem handles_sweep_of_live (live : w.sweep.isLive h = true) :
    w.sweep.handles[h]? = w.handles[h]? := by
  revert live
  refine sweep_induct (P := fun v => v.isLive h = true → v.handles[h]? = w.handles[h]?)
    (fun _ => rfl) fun v before live => ?_
  have live' : v.isLive h = true := isLive_iff.mpr (refers_of_sweepOnce (isLive_iff.mp live))
  rw [handles_sweepOnce, ← before live', live']
  simp

end World

/-- Code that changes a registration returns with the change made, in `v`, and all that was given
    up with what is replaced is taken down, the handle of the stream included. -/
structure Run.Settles (code : Run Reply) (w v : World) : Prop where
  returns : exec code w = (.ok (.result (.ok ())), v.sweep)
  kept : ∀ k, v.sweep.isLive k = true → v.sweep.handles[k]? = v.handles[k]?
  fewer : ∀ k, v.isLive k = false → v.sweep.isLive k = false
  tornDown : ∀ k s, v.sweep.handles[k]? = some s → v.sweep.isLive k = false →
    v.sweep.IsTornDown k s

theorem Run.settles_of_exec {code : Run Reply}
    (returns : exec code w = (.ok (.result (.ok ())), v.sweep)) : Settles code w v where
  returns := returns
  kept _ := World.handles_sweep_of_live
  fewer k dead := Bool.eq_false_iff.mpr fun live => by
    rw [World.isLive_of_sweep live] at dead
    cases dead
  tornDown _ _ := World.swept_sweep.isTornDown

/-! ## Calls that keep the handle -/

/-- Code that holds some handles gives them up as it returns. -/
theorem Run.exec_holding_ok {α : Type} {handles : List HandleId} {code : Run α} {a : α}
    (inside : exec code { w with held := handles ++ w.held } = (.ok a, after)) :
    exec (holding handles code) w = (.ok a, { after with held := w.held }.sweep) := by
  rw [holding, exec_get_bind, exec_modify_bind, exec_bind_ok inside, exec_modify_bind, exec_pure]

namespace World

/-- If a read of the stream is started now, there is room for its bytes. -/
def HasRoomFor (w : World) (h : HandleId) : Prop :=
  ∀ stream, w.wantsRead h = true → w.idleReader? h = some stream →
    stream.chunkSize ≤ Buffer.maxLength

theorem readingOn_holds : (w.readingOn h).held = w.held := by
  have same : w.readingOn h = { w.readingOn h with held := w.held } := readingOn_held
  rw [same]

end World

theorem Run.exec_startRead_of_room (wanted : w.wantsRead h = true) (room : w.HasRoomFor h) :
    exec (startRead h) w = (.ok (), w.readingOn h) := by
  have leads := exec_startRead wanted
  refine Prod.ext ?_ leads
  rw [startRead, exec_get_bind]
  split
  · rfl
  next stream idle =>
    rw [exec_modify_bind, if_neg (Nat.not_lt.mpr (room stream wanted idle))]
    rfl

/-- Where there is no room, the start of a read is a panic. -/
theorem Run.exec_startRead_of_no_room {stream : Reader} (idle : w.idleReader? h = some stream)
    (large : Buffer.maxLength < stream.chunkSize) :
    (exec (startRead h) w).1 = .error capacityOverflow := by
  rw [startRead, exec_get_bind, idle, exec_modify_bind, if_pos large]
  rfl

namespace World

/-- The world in which a listener for chunks is registered. -/
def listening (w : World) (h : HandleId) (l : Listener Command) : World :=
  w.modifyReader h (·.listening (w.registration l))

/-- The world in which a drain callback is registered. -/
def awaiting (w : World) (h : HandleId) (c : Callback Command) : World :=
  ({ w with nextDrain := w.nextDrain + 1 }.modifyWriter h
    (·.awaiting ⟨w.nextDrain, w.handler c⟩)).record (.awaited h w.nextDrain)

/-- The world in which a drain callback is called within its registration, which keeps the
    handle. -/
def drainingAtOnce (w : World) (h : HandleId) (c : Callback Command) : World :=
  (({ w.awaiting h c with held := [h] ++ w.held } : World).clearDrain h).record
    (.drained h w.nextDrain c.tag)

end World

section Keeping

variable (passed : w.checkStream h = .ok s)
include passed

theorem Run.exec_listenForData {l : Listener Command} (room : (w.listening h l).HasRoomFor h) :
    exec (listenForData h l) w =
      (.ok (.result (.ok ())), ((w.listening h l).readingOn h).sweep) := by
  have accepted : w.onData h l = .ok (w.listening h l) := by rw [World.onData, passed]; rfl
  rw [listenForData, exec_bind_ok (exec_request_ok accepted)]
  -- that the handle is held meanwhile makes no difference to the stream
  have inside : exec (do
      if (← get).wantsRead h then startRead h
      pure (.result (.ok ()) : Reply))
      { w.listening h l with held := [h] ++ (w.listening h l).held } =
      (.ok (.result (.ok ())), { (w.listening h l).readingOn h with
        held := [h] ++ (w.listening h l).held }) := by
    rw [← World.readingOn_held, exec_get_bind]
    dsimp only
    split
    next wanted => rw [exec_bind_ok (exec_startRead_of_room wanted room), exec_pure]
    next unwanted => rw [World.readingOn_of_unwanted (Bool.eq_false_iff.mpr unwanted), exec_pure]
  rw [exec_holding_ok inside, ← World.readingOn_holds (h := h)]

theorem Run.exec_listenForData_of_no_room {l : Listener Command}
    (noRoom : ¬ (w.listening h l).HasRoomFor h) :
    (exec (listenForData h l) w).1 = .error capacityOverflow := by
  have accepted : w.onData h l = .ok (w.listening h l) := by rw [World.onData, passed]; rfl
  simp only [World.HasRoomFor, not_forall, Nat.not_le] at noRoom
  obtain ⟨stream, wanted, idle, large⟩ := noRoom
  rw [listenForData, exec_bind_ok (exec_request_ok accepted), fst_exec_holding, exec_get_bind]
  have wanted' : ({ w.listening h l with held := [h] ++ (w.listening h l).held } :
      World).wantsRead h = true := wanted
  rw [wanted', if_pos rfl]
  rcases starts : exec (startRead h)
    { w.listening h l with held := [h] ++ (w.listening h l).held } with ⟨result, last⟩
  have panics := exec_startRead_of_no_room
    (w := { w.listening h l with held := [h] ++ (w.listening h l).held }) idle large
  rw [starts] at panics
  obtain rfl : result = .error capacityOverflow := panics
  rw [exec_bind_error starts]

end Keeping

/-- What is done once a drain callback is registered: it is called if the queue has drained. -/
def Run.lookAtQueue (h : HandleId) (wait : Nat) (kept : List HandleId) (tag : String)
    (body : List Command) : Run Reply := do
  if (← get).hasDrained h then
    modify (·.clearDrain h)
    note (.drained h wait tag)
    holding kept (runAll [] body)
  pure (.result (.ok ()))

section Draining

variable {f : Slot} {c : Callback Command} {received : Bytes}
  (passed : w.checkStream h = .ok s) (got : (w.slot f).writer = some h)
include passed got

theorem Run.exec_onDrain : exec ((Command.onDrain f c).run received) w =
    exec (holding [h] (lookAtQueue h w.nextDrain (w.handlesIn c.keeps) c.tag c.body))
      (w.awaiting h c) := by
  rcases c with ⟨tag, body, keeps⟩
  have accepted : w.onDrain h ⟨tag, body, keeps⟩ = .ok (w.awaiting h ⟨tag, body, keeps⟩) := by
    rw [World.onDrain, passed]
    rfl
  rw [Command.run, exec_withWriter got, exec_get_bind, exec_get_bind,
    exec_bind_ok (exec_request_ok accepted)]
  rfl

/-- A drain callback is registered on a queue that has not drained. -/
theorem Run.exec_onDrain_waiting (waits : (w.awaiting h c).hasDrained h = false) :
    exec ((Command.onDrain f c).run received) w =
      (.ok (.result (.ok ())), (w.awaiting h c).sweep) := by
  have inside : exec (lookAtQueue h w.nextDrain (w.handlesIn c.keeps) c.tag c.body)
      { w.awaiting h c with held := [h] ++ (w.awaiting h c).held } =
      (.ok (.result (.ok ())),
        { w.awaiting h c with held := [h] ++ (w.awaiting h c).held }) := by
    have waits' : ({ w.awaiting h c with held := [h] ++ (w.awaiting h c).held } :
        World).hasDrained h = false := waits
    rw [lookAtQueue, exec_get_bind, waits', if_neg Bool.false_ne_true, exec_pure]
  rw [exec_onDrain passed got, exec_holding_ok inside]

/-- A drain callback that is called within its registration, and returns. -/
theorem Run.exec_onDrain_called {last : World} (drained : (w.awaiting h c).hasDrained h = true)
    (returns : exec (holding (w.handlesIn c.keeps) (runAll [] c.body)) (w.drainingAtOnce h c) =
      (.ok (), last)) :
    exec ((Command.onDrain f c).run received) w =
      (.ok (.result (.ok ())), { last with held := w.held }.sweep) := by
  have inside : exec (lookAtQueue h w.nextDrain (w.handlesIn c.keeps) c.tag c.body)
      { w.awaiting h c with held := [h] ++ (w.awaiting h c).held } =
      (.ok (.result (.ok ())), last) := by
    have drained' : ({ w.awaiting h c with held := [h] ++ (w.awaiting h c).held } :
        World).hasDrained h = true := drained
    rw [lookAtQueue, exec_get_bind, drained', if_pos rfl, exec_modify_bind, exec_note_bind]
    exact exec_bind_ok returns
  rw [exec_onDrain passed got, exec_holding_ok inside]
  rfl

end Draining

/-! ## Calls that do not keep the handle -/

/-- A call on the stream in a slot that replaces a registration while the stream is being
    changed, and the change that it makes. -/
inductive Command.Replaces (f : Slot) : Command → (World → HandleId → World) → Prop where
  | clearData : Replaces f (.clearData f) fun w h =>
      w.modifyReader h fun r => { r.noting .clear with data := none }
  | onEnd (l : Listener Command) : Replaces f (.onEnd f l) fun w h =>
      w.modifyReader h (·.listeningForEnd (w.registration l))
  | onReadFailure (l : Listener Command) : Replaces f (.onReadFailure f l) fun w h =>
      w.modifyReader h (·.listeningForFailure (w.registration l))
  | onWriteFailure (l : Listener Command) : Replaces f (.onWriteFailure f l) fun w h =>
      w.modifyWriter h (·.listeningForFailure (w.registration l))

/-- The stream in a slot on which a command that replaces a registration is a call. -/
def Command.streamOf (c : Command) (entry : SlotEntry) : Option HandleId :=
  match c with
  | .onWriteFailure .. => entry.writer
  | _ => entry.reader

theorem Run.exec_replace_live {kind : StreamKind} {f : World → Except FileError World}
    (accepted : f w = .ok after) (live : after.sweep.isLive h = true) :
    exec (replace h kind f) w = (.ok (.result (.ok ())), after.sweep) := by
  rw [replace, exec_bind_ok (exec_request_ok accepted)]
  dsimp only
  rw [exec_get_bind, if_pos live, exec_modify_bind, exec_pure]

/-- The stream of a handle that is given up within the call cannot be taken down, and what its
    registrations hold stays held. -/
theorem Run.exec_replace_dead {kind : StreamKind} {f : World → Except FileError World}
    (accepted : f w = .ok after) (dead : after.sweep.isLive h = false) :
    exec (replace h kind f) w = (.error changedMeanwhile, (after.strand h kind).sweep) := by
  rw [replace, exec_bind_ok (exec_request_ok accepted)]
  dsimp only
  rw [exec_get_bind, if_neg (Bool.eq_false_iff.mp dead), exec_modify_bind, exec_throw]

/-- A call that replaces a registration makes its change, and then looks whether the handle was
    given up with it. -/
theorem Command.Replaces.exec {f : Slot} {c : Command} {change : World → HandleId → World}
    (replaces : c.Replaces f change) (received : Bytes) (passed : w.checkStream h = .ok s)
    (got : c.streamOf (w.slot f) = some h) :
    ∃ (kind : StreamKind) (request : World → Except FileError World),
      request w = .ok (change w h) ∧
      exec (c.run received) w = exec (replace h kind request) w := by
  cases replaces with
  | clearData =>
    refine ⟨.read, (·.clearData h), ?_, by rw [Command.run, exec_withReader got]⟩
    exact congrArg (Except.map _) passed
  | onEnd l =>
    refine ⟨.read, (·.onEnd h l), ?_, by rw [Command.run, exec_withReader got]⟩
    exact congrArg (Except.map _) passed
  | onReadFailure l =>
    refine ⟨.read, (·.onReadFailure h l), ?_, by rw [Command.run, exec_withReader got]⟩
    exact congrArg (Except.map _) passed
  | onWriteFailure l =>
    refine ⟨.write, (·.onWriteFailure h l), ?_, by rw [Command.run, exec_withWriter got]⟩
    exact congrArg (Except.map _) passed

/-! ## All calls -/

/-- What becomes of a registration that is changed by a call whose check has passed.  For chunks
    and for a drain callback: the call returns, unless there is no room for the read that it
    starts, or the callback that it calls at once panics; and whatever was given up with the
    registration that is replaced is taken down, be it the handle itself.  For all others: it is
    the same if something still refers to the handle, and otherwise the call panics. -/
theorem replaced_registrations_are_given_up (passed : w.checkStream h = .ok s) (f : Slot)
    (received : Bytes) :
    (∀ l, (w.slot f).reader = some h →
      ((w.listening h l).HasRoomFor h →
        Settles ((Command.onData f l).run received) w ((w.listening h l).readingOn h)) ∧
      (¬ (w.listening h l).HasRoomFor h →
        (exec ((Command.onData f l).run received) w).1 = .error capacityOverflow)) ∧
    (∀ c : Callback Command, (w.slot f).writer = some h →
      ((w.awaiting h c).hasDrained h = false →
        Settles ((Command.onDrain f c).run received) w (w.awaiting h c)) ∧
      ((w.awaiting h c).hasDrained h = true → ∀ last,
        exec (holding (w.handlesIn c.keeps) (runAll [] c.body)) (w.drainingAtOnce h c) =
          (.ok (), last) →
        Settles ((Command.onDrain f c).run received) w { last with held := w.held })) ∧
    ∀ c change, Command.Replaces f c change → c.streamOf (w.slot f) = some h →
      ((change w h).sweep.isLive h = true → Settles (c.run received) w (change w h)) ∧
      ((change w h).sweep.isLive h = false →
        (exec (c.run received) w).1 = .error changedMeanwhile) := by
  refine ⟨fun l got => ⟨fun room => ?_, fun noRoom => ?_⟩, fun c got => ⟨fun waits => ?_,
    fun drained last returns => ?_⟩, fun c change replaces got => ?_⟩
  · apply settles_of_exec
    rw [Command.run, exec_withReader got, exec_listenForData passed room]
  · rw [Command.run, exec_withReader got, exec_listenForData_of_no_room passed noRoom]
  · exact settles_of_exec (exec_onDrain_waiting passed got waits)
  · exact settles_of_exec (exec_onDrain_called passed got drained returns)
  · obtain ⟨kind, request, accepted, same⟩ := replaces.exec received passed got
    constructor
    · intro live
      apply settles_of_exec
      rw [same, exec_replace_live accepted live]
    · intro dead
      rw [same, exec_replace_dead accepted dead]

/-- A run in which the listener for chunks of a paused stream is all that still holds the handle. -/
def capturedRun : Option World :=
  (World.start 1 ⟨[], []⟩).follow
    [.body 0 [
      .openFile 0 { read := true } .log (.memory (.bytes [1, 2, 3]) none {}),
      .readStream 0, .pause 0, .onData 0 ⟨"old", [], [], [0]⟩, .drop 0]]

/-- Another listener takes its place, and the handle is taken down by that call. -/
theorem captured_handle_is_torn_down : ∃ w s t, capturedRun = some w ∧ w.AtRest ∧
    w.handles[0]? = some s ∧ w.isHeld s.backend = true ∧
    exec ((Command.onData 0 ⟨"new", [], [], []⟩).run []) (w.entered ⟨0⟩ []) =
      (.ok (.result (.ok ())), ((w.entered ⟨0⟩ []).listening 0 ⟨"new", [], [], []⟩).sweep) ∧
    ((w.entered ⟨0⟩ []).listening 0 ⟨"new", [], [], []⟩).sweep.IsTornDown 0 t := by
  have facts : (capturedRun.any fun w => w.restsUp && w.handles[0]?.any fun s =>
      w.isHeld s.backend &&
      ((w.entered ⟨0⟩ []).checkStream 0).isOk &&
      decide (((w.entered ⟨0⟩ []).slot 0).reader = some 0) &&
      let v := (w.entered ⟨0⟩ []).listening 0 ⟨"new", [], [], []⟩
      !v.wantsRead 0 && !v.isLive 0 && v.sweep.handles[0]?.isSome) = true := by decide +kernel
  obtain ⟨w, run, stands⟩ := (Option.any_eq_true _ _).mp facts
  simp only [Bool.and_eq_true] at stands
  obtain ⟨rests, there⟩ := stands
  obtain ⟨-, rest⟩ := World.rest_of_restsUp rests
  obtain ⟨s, known, facts⟩ := (Option.any_eq_true _ _).mp there
  simp only [Bool.and_eq_true, Bool.not_eq_true', decide_eq_true_eq, Option.isSome_iff_exists]
    at facts
  obtain ⟨⟨⟨held, checks⟩, got⟩, ⟨unwanted, dead⟩, t, stays⟩ := facts
  obtain ⟨s', passed⟩ : ∃ s', (w.entered ⟨0⟩ []).checkStream 0 = .ok s' := by
    rcases checked : (w.entered ⟨0⟩ []).checkStream 0 with e | s'
    · rw [checked] at checks
      cases checks
    · exact ⟨s', rfl⟩
  obtain ⟨data, -, -⟩ := replaced_registrations_are_given_up passed 0 []
  have settles := (data ⟨"new", [], [], []⟩ got).1 fun stream wanted => by
    rw [unwanted] at wanted
    cases wanted
  rw [World.readingOn_of_unwanted unwanted] at settles
  exact ⟨w, s, t, run, rest, known, held, settles.returns,
    settles.tornDown 0 t stays (settles.fewer 0 dead)⟩

/-- A run in which the listener for the end of a stream is all that still holds the handle. -/
def endCapturedRun : Option World :=
  (World.start 1 ⟨[], []⟩).follow
    [.body 0 [
      .openFile 0 { read := true } .log (.memory (.bytes [1, 2, 3]) none {}),
      .readStream 0, .onEnd 0 ⟨"old", [], [], [0]⟩, .drop 0]]

/-- A run in which a read stream is to ask for more bytes than any buffer has room for. -/
def roomlessRun : Option World :=
  (World.start 1 ⟨[], []⟩).follow
    [.body 0 [
      .openFile 0 { read := true } .log (.memory (.bytes [1, 2, 3]) none {}),
      .readStream 0, .setChunkSize 0 9223372036854775808]]

/-- The text of the panic that ends some code, if one does. -/
def Run.panicText? {α : Type} (code : Run α) (w : World) : Option String :=
  match (exec code w).1 with
  | .error message => some message
  | .ok _ => none

theorem Run.exec_of_panicText? {α : Type} {code : Run α} {message : String}
    (panics : code.panicText? w = some message) : (exec code w).1 = .error message := by
  unfold Run.panicText? at panics
  split at panics
  next message' ends => rw [ends, Option.some.inj panics]
  · cases panics

/-- A call whose check passes may panic all the same: the registration of another listener for the
    end, if the one that is replaced holds the last of the handle; and that of a listener for
    chunks, if there is no room for a chunk. -/
theorem changing_a_registration_can_panic :
    (∃ w, endCapturedRun = some w ∧ Reachable .calm w ∧ w.AtRest ∧
      ((w.entered ⟨0⟩ []).checkStream 0).isOk = true ∧
      (exec ((Command.onEnd 0 ⟨"new", [], [], []⟩).run []) (w.entered ⟨0⟩ [])).1 =
        .error changedMeanwhile) ∧
    ∃ w, roomlessRun = some w ∧ Reachable .calm w ∧ w.AtRest ∧
      ((w.entered ⟨0⟩ []).checkStream 0).isOk = true ∧
      (exec ((Command.onData 0 ⟨"data", [], [], []⟩).run []) (w.entered ⟨0⟩ [])).1 =
        .error capacityOverflow := by
  have first : (endCapturedRun.any fun w => w.restsUp &&
      ((w.entered ⟨0⟩ []).checkStream 0).isOk &&
      decide (((Command.onEnd 0 ⟨"new", [], [], []⟩).run []).panicText? (w.entered ⟨0⟩ []) =
        some changedMeanwhile)) = true := by decide +kernel
  have second : (roomlessRun.any fun w => w.restsUp &&
      ((w.entered ⟨0⟩ []).checkStream 0).isOk &&
      decide (((Command.onData 0 ⟨"data", [], [], []⟩).run []).panicText? (w.entered ⟨0⟩ []) =
        some capacityOverflow)) = true := by decide +kernel
  obtain ⟨w, run, stands⟩ := (Option.any_eq_true _ _).mp first
  obtain ⟨v, run', stands'⟩ := (Option.any_eq_true _ _).mp second
  simp only [Bool.and_eq_true, decide_eq_true_eq] at stands stands'
  obtain ⟨⟨rests, checks⟩, panics⟩ := stands
  obtain ⟨⟨rests', checks'⟩, panics'⟩ := stands'
  exact ⟨⟨w, run, World.reachable_of_follow run, (World.rest_of_restsUp rests).2, checks,
    exec_of_panicText? panics⟩, v, run', World.reachable_of_follow run',
    (World.rest_of_restsUp rests').2, checks', exec_of_panicText? panics'⟩

end PinnedFile
