/-
  PinnedFile.Proofs.Refusals

  What a call on a handle or on one of its streams is refused for, and that it changes
  nothing then.

  The reasons are looked for in one order: a stream's handle is gone, the caller is on
  another context, the handle is closed, an argument is no good.  Each call looks for them
  before it does anything, so one that is refused leaves the whole world as it is.
-/

import PinnedFile.Proofs.Runs

namespace PinnedFile

open Run

/-- Through what a call reaches a handle. -/
inductive Access where
  | file | readStream | writeStream
deriving DecidableEq, Repr

/-- A call on a handle or on one of its streams: through what it reaches the handle, the slot
    that holds this, and what its arguments are refused for. -/
structure HandleCall where
  access : Access
  slot : Slot
  fault : Option FileError := none
deriving DecidableEq, Repr

/-- The call on a handle or on one of its streams that a command makes, if it makes one. -/
def Command.handleCall? : Command → Option HandleCall
  | .write f .. | .flush f _ | .close f _ | .readStream f | .writeStream f => some ⟨.file, f, none⟩
  | .read f _ offset _ length _ => some ⟨.file, f,
      if Buffer.maxLength < offset + length then
        some (.invalidArgument (.readRange length offset))
      else none⟩
  | .onData f _ | .clearData f | .onEnd f _ | .onReadFailure f _ | .pause f | .resume f =>
    some ⟨.readStream, f, none⟩
  | .setChunkSize f size =>
    some ⟨.readStream, f, if size = 0 then some (.invalidArgument .emptyReadBuffer) else none⟩
  | .send f _ | .queueFull f | .setQueueMax f _ | .onDrain f _ | .onWriteFailure f _ =>
    some ⟨.writeStream, f, none⟩
  | _ => none

namespace World

/-- The handle that a call reaches. -/
def reached? (w : World) (call : HandleCall) : Option HandleId :=
  match call.access with
  | .file => (w.slot call.slot).handle
  | .readStream => (w.slot call.slot).reader
  | .writeStream => (w.slot call.slot).writer

/-- What a call on a handle is refused for: the handle of a stream is gone, the caller is on
    another context, the handle is closed, or an argument is no good. -/
def refusal? (w : World) (h : HandleId) (call : HandleCall) : Option FileError :=
  if call.access ≠ .file ∧ w.isLive h = false then some .closed
  else
    match w.handles[h]? with
    -- a handle that was never opened is as good as closed
    | none => some .closed
    | some s =>
      if w.context ≠ some s.owner then some (.wrongContext (some s.owner) w.context)
      else if s.closed then some .closed
      else call.fault

/-- What is looked at before a call is made. -/
def checkThrough (w : World) (h : HandleId) : Access → Except FileError Handle
  | .file => w.check h
  | .readStream | .writeStream => w.checkStream h

end World

/-- It is decided that something is refused for a reason exactly if there is this reason. -/
def Decides {α : Type} (refusal : Option FileError) (decided : Except FileError α) : Prop :=
  ∀ e, decided = .error e ↔ refusal = some e

/-- Code ends with a refusal, and has done nothing, exactly if there is a reason for it. -/
structure Obeys (refusal : Option FileError) (code : Run Reply) (w : World) : Prop where
  refuses : ∀ e, refusal = some e → exec code w = (.ok (.result (.error e)), w)
  admits : refusal = none → ∀ e, (exec code w).1 ≠ .ok (.result (.error e))

section Refusals

variable {α β : Type} {w : World} {h : HandleId} {f : Slot} {call : HandleCall}
  {access : Access} {refusal : Option FileError} {e : FileError}

/-! ## Decisions -/

theorem World.check_of_known {s : Handle} (known : w.handles[h]? = some s) : w.check h =
    if w.context = some s.owner then if s.closed then .error .closed else .ok s
    else .error (.wrongContext (some s.owner) w.context) := by
  simp only [check, known, guard]
  split <;> rfl

theorem World.check_of_unknown (unknown : w.handles[h]? = none) :
    w.check h = .error .closed := by rw [check, unknown]

theorem World.checkThrough_eq : w.checkThrough h access =
    if access ≠ .file ∧ w.isLive h = false then .error .closed else w.check h := by
  rcases access with _ | _ | _
  · exact (if_neg fun gone => gone.1 rfl).symm
  all_goals
    rw [checkThrough, checkStream]
    rcases w.isLive h with _ | _ <;> rfl

theorem decides_error : Decides (some e) (.error e : Except FileError α) :=
  fun _ => ⟨fun same => congrArg some (Except.error.inj same),
    fun same => congrArg Except.error (Option.some.inj same)⟩

theorem decides_ok {a : α} : Decides none (.ok a) := fun _ => ⟨nofun, nofun⟩

/-- A call is decided by what is looked at before, and then by its arguments. -/
theorem decides_of_check {decided : Except FileError α}
    (refused : ∀ e, w.checkThrough h call.access = .error e → decided = .error e)
    (passed : ∀ s, w.checkThrough h call.access = .ok s → Decides call.fault decided) :
    Decides (w.refusal? h call) decided := by
  rw [World.checkThrough_eq] at refused passed
  unfold World.refusal?
  split
  next gone =>
    rw [refused .closed (if_pos gone)]
    exact decides_error
  next there =>
    rw [if_neg there] at refused passed
    split
    next unknown =>
      rw [refused .closed (World.check_of_unknown unknown)]
      exact decides_error
    next s known =>
      rw [World.check_of_known known] at refused passed
      split
      next elsewhere =>
        rw [refused _ (if_neg elsewhere)]
        exact decides_error
      next here =>
        rw [if_pos (Decidable.of_not_not here)] at refused passed
        split
        next closed =>
          rw [refused _ (if_pos closed)]
          exact decides_error
        next opened => exact passed s (if_neg opened)

theorem Decides.map {decided : Except FileError α} (decides : Decides refusal decided)
    (g : α → β) : Decides refusal (decided.map g) := by
  intro e
  rw [← decides e]
  rcases decided with e' | a <;> simp [Except.map]

theorem decides_map {g : Handle → β} :
    Decides (w.refusal? h ⟨access, f, none⟩) ((w.checkThrough h access).map g) := by
  refine Decides.map (decides_of_check (fun _ => id) fun s passed => ?_) g
  rw [passed]
  exact decides_ok

theorem Decides.exists_ok {decided : Except FileError α} (decides : Decides none decided) :
    ∃ a, decided = .ok a := by
  rcases decided with e | a
  · exact absurd ((decides e).mp rfl) nofun
  · exact ⟨a, rfl⟩

/-! ## Code -/

/-- Code that ends with a reply ends with no other. -/
theorem fst_exec_bind_pure_ne {x : Run α} :
    (exec (x >>= fun _ => pure (Reply.result (.ok ()))) w).1 ≠ .ok (.result (.error e)) := by
  rw [exec_bind]
  rcases exec x w with ⟨message | a, after⟩
  · exact nofun
  · exact nofun

theorem fst_exec_holding {handles : List HandleId} {code : Run α} :
    (exec (holding handles code) w).1 = (exec code { w with held := handles ++ w.held }).1 := by
  rw [holding, exec_get_bind, exec_modify_bind, exec_bind]
  rcases exec code { w with held := handles ++ w.held } with ⟨message | a, after⟩ <;> rfl

theorem obeys_get_bind {next : World → Run Reply} (obeys : Obeys refusal (next w) w) :
    Obeys refusal (get >>= next) w := ⟨obeys.refuses, obeys.admits⟩

theorem obeys_request {f : World → Except FileError World}
    {next : Except FileError Unit → Run Reply} (decides : Decides refusal (f w))
    (refused : ∀ e, exec (next (.error e)) w = (.ok (.result (.error e)), w))
    (accepted : ∀ after e, (exec (next (.ok ())) after).1 ≠ .ok (.result (.error e))) :
    Obeys refusal (request f >>= next) w where
  refuses e some := by
    rw [exec_bind_ok (exec_request_error ((decides e).mpr some))]
    exact refused e
  admits none e := by
    obtain ⟨after, ok⟩ := (none ▸ decides).exists_ok
    rw [exec_bind_ok (exec_request_ok ok)]
    exact accepted after e

theorem obeys_ask {f : World → Except FileError World} (decides : Decides refusal (f w)) :
    Obeys refusal (ask f) w := by
  rw [ask, ← bind_pure_comp]
  exact obeys_request decides (fun _ => rfl) fun _ _ => nofun

theorem obeys_replace {kind : StreamKind} {f : World → Except FileError World}
    (decides : Decides refusal (f w)) : Obeys refusal (replace h kind f) w := by
  refine obeys_request decides (fun _ => rfl) fun after e => ?_
  rw [exec_get_bind]
  split
  · rw [exec_modify_bind]
    exact nofun
  · rw [exec_modify_bind, exec_throw]
    exact nofun

theorem obeys_listenForData {listener : Listener Command}
    (decides : Decides refusal (w.onData h listener)) :
    Obeys refusal (listenForData h listener) w := by
  refine obeys_request decides (fun _ => rfl) fun after e => ?_
  rw [fst_exec_holding, exec_get_bind]
  dsimp only
  split
  · exact fst_exec_bind_pure_ne
  · exact nofun

theorem obeys_resumeReading (decides : Decides refusal (w.resume h)) :
    Obeys refusal (resumeReading h) w := by
  refine obeys_get_bind (obeys_request decides (fun _ => rfl) fun after e => ?_)
  rw [exec_get_bind]
  dsimp only
  split
  · exact fst_exec_bind_pure_ne
  · exact nofun

theorem obeys_withHandle {next : HandleId → Run Reply} (got : (w.slot f).handle = some h)
    (obeys : Obeys refusal (next h) w) : Obeys refusal (withHandle f next) w := by
  apply obeys_get_bind
  rw [got]
  exact obeys

theorem obeys_withReader {next : HandleId → Run Reply} (got : (w.slot f).reader = some h)
    (obeys : Obeys refusal (next h) w) : Obeys refusal (withReader f next) w := by
  apply obeys_get_bind
  rw [got]
  exact obeys

theorem obeys_withWriter {next : HandleId → Run Reply} (got : (w.slot f).writer = some h)
    (obeys : Obeys refusal (next h) w) : Obeys refusal (withWriter f next) w := by
  apply obeys_get_bind
  rw [got]
  exact obeys

/-! ## Calls -/

theorem decides_read {target : Bytes} {offset position length : Nat}
    {handler : Callback Command} : Decides
      (w.refusal? h ⟨.file, f, if Buffer.maxLength < offset + length then
        some (.invalidArgument (.readRange length offset)) else none⟩)
      (w.read h target offset position length handler) := by
  refine decides_of_check (fun e refused => ?_) fun s passed => ?_
  · rw [World.read, show w.check h = .error e from refused]
  · rw [World.read, show w.check h = .ok s from passed, Buffer.fits]
    by_cases large : Buffer.maxLength < offset + length
    · simp only [large, Nat.not_le_of_lt large, decide_false, if_true]
      exact decides_error
    · simp only [large, Nat.le_of_not_lt large, decide_true, if_true, if_false]
      exact decides_ok

theorem decides_setChunkSize {size : Nat} : Decides
      (w.refusal? h ⟨.readStream, f,
        if size = 0 then some (.invalidArgument .emptyReadBuffer) else none⟩)
      (w.setChunkSize h size) := by
  refine decides_of_check (fun e refused => ?_) fun s passed => ?_
  · rw [World.setChunkSize, show w.checkStream h = .error e from refused]
  · rw [World.setChunkSize, show w.checkStream h = .ok s from passed]
    by_cases zero : size = 0
    · simp only [zero, if_true]
      exact decides_error
    · simp only [zero, if_false]
      exact decides_ok

theorem obeys_queueFull (decides : Decides refusal (w.queueFull h)) :
    Obeys refusal (do
      match (← get).queueFull h with
      | .error e => pure (.result (.error e))
      | .ok full => pure (.flag full)) w := by
  refine obeys_get_bind ⟨fun e some => ?_, fun none e => ?_⟩
  · rw [(decides e).mpr some]
    rfl
  · obtain ⟨full, ok⟩ := (none ▸ decides).exists_ok
    rw [ok]
    exact nofun

theorem obeys_onDrain {handler : Callback Command} (got : (w.slot f).writer = some h)
    (decides : Decides refusal (w.onDrain h handler)) (received : Bytes) :
    Obeys refusal ((Command.onDrain f handler).run received) w := by
  rcases handler with ⟨tag, body, keeps⟩
  refine obeys_withWriter got (obeys_get_bind (obeys_get_bind
    (obeys_request decides (fun _ => rfl) fun after e => ?_)))
  rw [fst_exec_holding, exec_get_bind]
  dsimp only
  split
  · rw [exec_modify_bind, exec_note_bind]
    exact fst_exec_bind_pure_ne
  · exact nofun

/-- Each call on a handle or a stream is refused for the reasons that there are. -/
theorem obeys_command {c : Command} (makes : c.handleCall? = some call)
    (reaches : w.reached? call = some h) (received : Bytes) :
    Obeys (w.refusal? h call) (c.run received) w := by
  cases c with
  | write | flush | close =>
    obtain rfl := Option.some.inj makes
    exact obeys_withHandle reaches (obeys_ask decides_map)
  | read =>
    obtain rfl := Option.some.inj makes
    exact obeys_withHandle reaches (obeys_ask decides_read)
  | readStream | writeStream =>
    obtain rfl := Option.some.inj makes
    exact obeys_withHandle reaches (obeys_ask (decides_map.map _))
  | onData =>
    obtain rfl := Option.some.inj makes
    exact obeys_withReader reaches (obeys_listenForData decides_map)
  | onEnd | onReadFailure | clearData =>
    obtain rfl := Option.some.inj makes
    exact obeys_withReader reaches (obeys_replace decides_map)
  | pause =>
    obtain rfl := Option.some.inj makes
    exact obeys_withReader reaches (obeys_ask decides_map)
  | resume =>
    obtain rfl := Option.some.inj makes
    exact obeys_withReader reaches (obeys_resumeReading decides_map)
  | setChunkSize =>
    obtain rfl := Option.some.inj makes
    exact obeys_withReader reaches (obeys_ask decides_setChunkSize)
  | send | setQueueMax =>
    obtain rfl := Option.some.inj makes
    exact obeys_withWriter reaches (obeys_ask decides_map)
  | queueFull =>
    obtain rfl := Option.some.inj makes
    exact obeys_withWriter reaches (obeys_queueFull decides_map)
  | onWriteFailure =>
    obtain rfl := Option.some.inj makes
    exact obeys_withWriter reaches (obeys_replace decides_map)
  | onDrain =>
    obtain rfl := Option.some.inj makes
    exact obeys_onDrain reaches decides_map received
  | _ => cases makes

/-- A call on a handle, or on one of its streams, is refused in any state and on any context
    exactly if there is a reason, and for the first one: the handle of a stream is gone, the
    caller is not on the context of the handle, the handle is closed, or an argument is no
    good.  A call that is refused leaves the whole world as it is. -/
theorem refused_calls_change_nothing {c : Command} (makes : c.handleCall? = some call)
    (reaches : w.reached? call = some h) (received : Bytes) :
    (∀ e, (exec (c.run received) w).1 = .ok (.result (.error e)) ↔
      w.refusal? h call = some e) ∧
    ∀ e, w.refusal? h call = some e → (exec (c.run received) w).2 = w := by
  have obeys := obeys_command makes reaches received
  refine ⟨fun e => ⟨fun refused => ?_, fun some => ?_⟩, fun e some => ?_⟩
  · rcases reason : w.refusal? h call with _ | e'
    · exact absurd refused (obeys.admits reason e)
    · rw [obeys.refuses e' reason] at refused
      obtain rfl : e' = e := by simpa using refused
      rfl
  · rw [obeys.refuses e some]
  · rw [obeys.refuses e some]

/-- A run in which a file is opened on a context and its read stream is got. -/
def openingRun : Option World :=
  (World.start 1 ⟨[], []⟩).follow
    [.body 0 [
      .openFile 0 { read := true } .log (.memory (.bytes [1, 2, 3]) none {}),
      .readStream 0]]

theorem reads_of_nothing_are_refused : ∃ w, openingRun = some w ∧
    exec ((Command.pause 0).run []) w =
      (.ok (.result (.error (.wrongContext (some ⟨0⟩) none))), w) ∧
    exec ((Command.setChunkSize 0 0).run []) (w.entered ⟨0⟩ []) =
      (.ok (.result (.error (.invalidArgument .emptyReadBuffer))), w.entered ⟨0⟩ []) := by
  have stands : (openingRun.any fun w => w.reached? ⟨.readStream, 0, none⟩ = some 0 &&
      w.refusal? 0 ⟨.readStream, 0, none⟩ = some (.wrongContext (some ⟨0⟩) none) &&
      (w.entered ⟨0⟩ []).refusal? 0 ⟨.readStream, 0, some (.invalidArgument .emptyReadBuffer)⟩ =
        some (.invalidArgument .emptyReadBuffer)) = true := by decide +kernel
  obtain ⟨w, run, same⟩ := (Option.any_eq_true _ _).mp stands
  simp only [Bool.and_eq_true, decide_eq_true_eq] at same
  obtain ⟨⟨reaches, elsewhere⟩, empty⟩ := same
  obtain ⟨refused, unchanged⟩ := refused_calls_change_nothing (c := .pause 0) rfl reaches []
  obtain ⟨refused', unchanged'⟩ := refused_calls_change_nothing (w := w.entered ⟨0⟩ [])
    (c := .setChunkSize 0 0) rfl reaches []
  exact ⟨w, run, Prod.ext ((refused _).mpr elsewhere) (unchanged _ elsewhere),
    Prod.ext ((refused' _).mpr empty) (unchanged' _ empty)⟩

end Refusals

end PinnedFile
