/-
  PinnedFile.Proofs.Lifetime.Code

  All code leaves a handle alone that is gone.

  A command reaches a handle through a slot, which refers to it, or through a stream, and then
  it is refused if nothing refers to the handle.  A delivery is one on a handle that its
  operation refers to.  So neither reaches a handle that is gone.
-/

import PinnedFile.Proofs.Lifetime.Gone

namespace PinnedFile

open Run

variable {w : World} {h k : HandleId}

/-! ## The parts of commands -/

/-- Code that holds other handles while it runs. -/
theorem leads_holding {α : Type} {handles : List HandleId} {code : Run α}
    (others : h ∉ handles)
    (inside : Leads (Spares h) code { w with held := handles ++ w.held }) :
    Leads (Spares h) (holding handles code) w := by
  apply leads_of_dead
  intro dead
  have free : h ∉ w.held := fun listed => dead ⟨.held, listed⟩
  apply leads_get_bind
  apply leads_modify_bind (spares_hold fun listed =>
    (List.mem_append.mp listed).elim others free)
  apply leads_bind inside
  intro a after _
  exact leads_modify_bind ((spares_hold free).trans spares_sweep) (leads_pure a)

theorem leads_replace {kind : StreamKind} {f : World → Except FileError World}
    (accepted : ∀ after, f w = .ok after → Spares h w after) :
    Leads (Spares h) (replace k kind f) w := by
  refine leads_request_bind (fun e _ => leads_pure _) accepted ?_
  intro after _
  apply leads_get_bind
  split
  · exact leads_modify_bind spares_sweep (leads_pure _)
  · exact leads_modify_bind (spares_strand.trans spares_sweep) (leads_throw _)

theorem leads_startRead (other : k ≠ h) : Leads (Spares h) (startRead k) w := by
  apply leads_get_bind
  split
  · exact leads_pure _
  next stream _ =>
    have marked : Spares h w (w.modifyReader k ({ · with busy := true })) :=
      spares_modifyReader other fun _ => .inl
    apply leads_modify_bind marked
    split
    · exact leads_bind (leads_throw _) fun a later ends => by simp at ends
    · exact leads_modify (spares_enqueue other List.not_mem_nil)

theorem leads_listenForData {listener : Listener Command} :
    Leads (Spares h) (listenForData k listener) w := by
  apply leads_of_dead
  intro dead
  refine leads_request_bind (fun e _ => leads_pure _) (fun after ok => spares_onData ok) ?_
  intro after ok
  obtain ⟨s, passed, -⟩ := except_map_eq_ok.mp ok
  have other := ne_of_checkStream dead passed
  refine leads_holding (fun listed => other (List.mem_singleton.mp listed).symm) ?_
  apply leads_get_bind
  dsimp only
  split
  · exact leads_bind (leads_startRead other) fun _ _ _ => leads_pure _
  · exact leads_pure _

theorem leads_resumeReading : Leads (Spares h) (resumeReading k) w := by
  apply leads_of_dead
  intro dead
  apply leads_get_bind
  refine leads_request_bind (fun e _ => ?_) (fun after ok => spares_resume ok) ?_
  · apply leads_get_bind
    exact leads_pure _
  · intro after ok
    obtain ⟨s, passed, -⟩ := except_map_eq_ok.mp ok
    have other := ne_of_checkStream dead passed
    apply leads_get_bind
    dsimp only
    split
    · exact leads_bind (leads_startRead other) fun _ _ _ => leads_pure _
    · exact leads_pure _

theorem leads_openFile {f : Slot} {options : OpenOptions} {sink : Sink} {source : Source}
    {received : Bytes} : Leads (Spares h) (openFile f options sink source received) w := by
  have opened (v after : World) (b : BackendId)
      (ok : v.openBackend f options sink b = .ok after) : Spares h v after := by
    obtain ⟨owner, -, rfl⟩ := except_map_eq_ok.mp ok
    exact spares_addHandle
  rcases source with ⟨data, max, directives⟩ | g | path
  · refine leads_ask fun after ok => (?_ : Spares h w { w with
      backends := w.backends ++ [.memory f _] }).trans (opened _ after _ ok)
    exact spares_of_same rfl rfl fun place => by cases place <;> rfl
  · apply leads_get_bind
    split
    · exact leads_pure _
    · apply leads_get_bind
      split
      · exact leads_ask fun after ok => opened w after _ ok
      · exact leads_pure _
  · refine leads_ask fun after ok => ?_
    obtain ⟨owner, descriptor, files, -, rfl⟩ := World.exists_openPath ok
    have placed : Spares h w { w with files, backends := w.backends ++ [.file descriptor] } :=
      spares_of_same rfl rfl fun place => by cases place <;> rfl
    exact placed.trans spares_addHandle

theorem leads_putHandle {target : Slot} : Leads (Spares h) (putHandle k target) w := by
  apply leads_of_dead
  intro dead
  apply leads_ask
  intro after ok
  split at ok
  next live =>
    obtain rfl := Except.ok.inj ok
    have other := ne_of_refers dead (World.isLive_iff.mp live)
    exact spares_setSlotHandle fun same => other (Option.some.inj same)
  · cases ok

/-- A call through a slot is one on a handle that something refers to. -/
theorem leads_throughSlot {f : Slot} {next : HandleId → Run Reply}
    (found : ¬ w.Refers h → ∀ k ≠ h, (w.slot f).handle = some k → Leads (Spares h) (next k) w) :
    Leads (Spares h) (withHandle f next) w := by
  apply leads_of_dead
  intro dead
  apply leads_get_bind
  split
  · exact leads_pure _
  next k got => exact found dead k (ne_of_refers dead (World.refers_of_slot got)) got

theorem spares_clearDrain (other : k ≠ h) : Spares h w (w.clearDrain k) := by
  refine spares_modifyWriter other fun r holds => .inl ?_
  exact List.mem_append_right _ ((List.mem_append.mp holds).resolve_left List.not_mem_nil)

theorem spares_drained {wait : Nat} {tag : String} (other : k ≠ h) :
    Spares h w (w.record (.drained k wait tag)) :=
  spares_record fun same => other (Option.some.inj same)

/-- The registration of a drain callback, after which the callback waits or is called. -/
theorem leads_onDrain (handler : Callback Command) {wait : Nat} {kept : List HandleId}
    {reply : Reply} (other : k ≠ h) (others : h ∉ kept)
    (body : ∀ v, Leads (Spares h) (runAll [] handler.body) v) :
    Leads (Spares h) (holding [k] do
      if (← get).hasDrained k then
        modify (·.clearDrain k)
        note (.drained k wait handler.tag)
        holding kept (runAll [] handler.body)
      pure reply) w := by
  refine leads_holding (fun listed => other (List.mem_singleton.mp listed).symm) ?_
  apply leads_get_bind
  dsimp only
  split
  · apply leads_modify_bind (spares_clearDrain other)
    apply leads_note_bind (spares_drained other)
    exact leads_bind (leads_holding others (body _)) fun _ _ _ => leads_pure _
  · exact leads_pure _

theorem slot_readStream {f : Slot} {after : World} (ok : w.readStream k = .ok after) :
    after.slot f = w.slot f := by
  obtain ⟨s, -, rfl⟩ := except_map_eq_ok.mp ok
  rfl

theorem slot_writeStream {f : Slot} {after : World} (ok : w.writeStream k = .ok after) :
    after.slot f = w.slot f := by
  obtain ⟨s, -, rfl⟩ := except_map_eq_ok.mp ok
  rfl

/-! ## Commands -/

mutual

/-- No command does anything to a handle that is gone, or on its behalf. -/
theorem spares_command (received : Bytes) : (c : Command) → (w : World) →
    Leads (Spares h) (c.run received) w
  | .openFile .., w => leads_openFile
  | .clone .., w => leads_throughSlot fun _ k other _ => leads_modify_bind
    (spares_setSlotHandle fun same => other (Option.some.inj same)) (leads_pure _)
  | .drop .., w => leads_throughSlot fun _ k _ _ =>
    leads_modify_bind (spares_setSlotHandle nofun) (leads_pure _)
  | .write .., w => leads_throughSlot fun dead k other _ =>
    leads_ask fun after ok => spares_write dead other ok
  | .read .., w => leads_throughSlot fun dead k other _ =>
    leads_ask fun after ok => spares_read dead other ok
  | .flush .., w => leads_throughSlot fun dead k other _ =>
    leads_ask fun after ok => spares_flush dead other ok
  | .close .., w => leads_throughSlot fun dead k other _ =>
    leads_ask fun after ok => spares_close dead other ok
  | .readStream f, w => by
    apply leads_throughSlot
    intro dead k other got
    apply leads_ask
    intro after ok
    obtain ⟨middle, accepted, rfl⟩ := except_map_eq_ok.mp ok
    have same : (middle.slot f).handle = some k := by
      rw [← got]
      exact congrArg SlotEntry.handle (slot_readStream accepted)
    exact (spares_readStream other accepted).trans
      (spares_setSlot fun here => other (Option.some.inj (same.symm.trans here)))
  | .writeStream f, w => by
    apply leads_throughSlot
    intro dead k other got
    apply leads_ask
    intro after ok
    obtain ⟨middle, accepted, rfl⟩ := except_map_eq_ok.mp ok
    have same : (middle.slot f).handle = some k := by
      rw [← got]
      exact congrArg SlotEntry.handle (slot_writeStream accepted)
    exact (spares_writeStream other accepted).trans
      (spares_setSlot fun here => other (Option.some.inj (same.symm.trans here)))
  | .describe f, w | .path f, w => by
    apply leads_withHandle
    intro k
    apply leads_get_bind
    split <;> exact leads_pure _
  | .onData .., w => leads_withReader fun k => leads_listenForData
  | .onEnd .., w => leads_withReader fun k => leads_replace fun after ok => spares_onEnd ok
  | .onReadFailure .., w =>
    leads_withReader fun k => leads_replace fun after ok => spares_onReadFailure ok
  | .clearData .., w =>
    leads_withReader fun k => leads_replace fun after ok => spares_clearData ok
  | .pause .., w => leads_withReader fun k => leads_ask fun after ok => spares_pause ok
  | .resume .., w => leads_withReader fun k => leads_resumeReading
  | .pauseResume .., w => leads_withReader fun k =>
    leads_request_bind (fun e _ => leads_pure _) (fun after ok => spares_pause ok)
      fun after _ => leads_resumeReading
  | .setChunkSize .., w =>
    leads_withReader fun k => leads_ask fun after ok => spares_setChunkSize ok
  | .readerHandle .., w => leads_withReader fun k => leads_putHandle
  | .send .., w => leads_withWriter fun k _ => leads_ask fun after ok => spares_send ok
  | .sendTwice .., w => leads_withWriter fun k _ =>
    leads_request_bind (fun e _ => leads_pure _) (fun after ok => spares_send ok)
      fun after _ => leads_ask fun later ok => spares_send ok
  | .queueFull f, w => by
    apply leads_withWriter
    intro k _
    apply leads_get_bind
    split <;> exact leads_pure _
  -- the branches are bodies of their own, so the recursion goes through `spares_runAll`
  | .ifQueueFull f yes no, w => by
    apply leads_withWriter
    intro k _
    apply leads_get_bind
    split
    · exact leads_pure _
    · exact leads_bind (spares_runAll received yes w) fun _ _ _ => leads_pure _
    · exact leads_bind (spares_runAll received no w) fun _ _ _ => leads_pure _
  | .setQueueMax .., w =>
    leads_withWriter fun k _ => leads_ask fun after ok => spares_setQueueMax ok
  | .onDrain f ⟨tag, body, keeps⟩, w => by
    apply leads_withWriter
    intro k _
    apply leads_of_dead
    intro dead
    apply leads_get_bind
    apply leads_get_bind
    refine leads_request_bind (fun e _ => leads_pure _) (fun after ok => spares_onDrain ok) ?_
    intro after ok
    obtain ⟨s, passed, -⟩ := except_map_eq_ok.mp ok
    have other := ne_of_checkStream dead passed
    exact leads_onDrain ⟨tag, body, keeps⟩ other (not_mem_handlesIn dead) (spares_runAll [] body)
  | .onWriteFailure .., w =>
    leads_withWriter fun k _ => leads_replace fun after ok => spares_onWriteFailure ok
  | .writerHandle .., w => leads_withWriter fun k _ => leads_putHandle
  | .execute context task, w => by
    rw [Command.run]
    split
    · exact leads_modify_bind (spares_post List.not_mem_nil) (leads_pure _)
    · exact leads_pure _
  | .currentContext, w | .contextTexts, w => leads_get_bind (leads_pure _)
  | .contents f, w => by
    apply leads_get_bind
    split <;> exact leads_pure _
  | .held f, w => by
    apply leads_get_bind
    split
    · exact leads_pure _
    · exact leads_get_bind (leads_pure _)
  | .adjust f data max directives, w => by
    apply leads_get_bind
    split
    · exact leads_pure _
    · refine leads_modify_bind ?_ (leads_pure _)
      exact spares_of_same rfl rfl fun place => by cases place <;> rfl
  | .require what c, w => by
    apply leads_bind (spares_command received c w)
    intro reply after _
    split
    · exact leads_throw _
    · exact leads_pure _
  | .shutDown origin, w => leads_modify_bind (spares_shutDown origin) (leads_pure _)
  | .panic message, w => by
    have noted : Spares h w (w.record .panicking) := spares_record nofun
    exact leads_note_bind noted (leads_throw _)

/-- And so it is with the body of a callback. -/
theorem spares_runAll (received : Bytes) : (body : List Command) → (w : World) →
    Leads (Spares h) (runAll received body) w
  | [], w => leads_pure _
  | c :: rest, w => by
    apply leads_bind (spares_command received c w)
    intro reply after _
    have noted : Spares h after (after.record (.ran c reply)) := spares_record nofun
    apply leads_note_bind noted
    exact spares_runAll received rest _

end

/-! ## Deliveries -/

/-- The call of a callback of another handle that holds other handles. -/
theorem leads_call {f : World → World} {e : Event} {holds : List HandleId} {received : Bytes}
    {body : List Command} (change : Spares h w (f w)) (noted : e.caller? ≠ some h)
    (others : h ∉ holds) : Leads (Spares h) (do
      modify f
      note e
      holding holds (runAll received body)) w := by
  apply leads_modify_bind change
  apply leads_note_bind (spares_record noted)
  exact leads_holding others (spares_runAll received body _)

theorem leads_tellSink {e : FileError} (other : k ≠ h) : Leads (Spares h) (tellSink k e) w := by
  apply leads_get_bind
  split
  · exact leads_pure _
  next s _ =>
    have noted : Spares h w (w.record (.unheard k s.sink e)) :=
      spares_record fun same => other (Option.some.inj same)
    exact noted

/-- What a listener of a read stream holds is referred to. -/
theorem refers_of_listener {part : Reader → Option Registration} {r : Registration}
    (known : (w.reader? k).bind part = some r) (holds : h ∈ r.holds)
    (kept : ∀ reader : Reader, h ∈ registrationHolds (part reader) → h ∈ reader.holds) :
    w.Refers h := by
  obtain ⟨reader, there, registered⟩ := Option.bind_eq_some_iff.mp known
  exact World.refers_of_reader there (kept reader (by rw [registered]; exact holds))

theorem leads_tellReadFailure {e : FileError} (other : k ≠ h) :
    Leads (Spares h) (tellReadFailure k e) w := by
  apply leads_of_dead
  intro dead
  apply leads_get_bind
  split
  · exact leads_tellSink other
  next r registered =>
    have others : h ∉ r.holds := fun holds => dead (refers_of_listener registered holds
      fun _ failure => mem_holds_reader.mpr (.inr (.inl failure)))
    refine leads_call (spares_modifyReader other fun reader holds => .inl ?_)
      (fun same => other (Option.some.inj same)) others
    rcases mem_holds_reader.mp holds with data | called | ending
    · exact mem_holds_reader.mpr (.inl data)
    · exact absurd called others
    · exact mem_holds_reader.mpr (.inr (.inr ending))

theorem leads_tellEnd (other : k ≠ h) : Leads (Spares h) (tellEnd k) w := by
  apply leads_of_dead
  intro dead
  apply leads_get_bind
  split
  · exact leads_pure _
  next r registered =>
    have others : h ∉ r.holds := fun holds => dead (refers_of_listener registered holds
      fun _ ending => mem_holds_reader.mpr (.inr (.inr ending)))
    refine leads_call (spares_modifyReader other fun reader holds => .inl ?_)
      (fun same => other (Option.some.inj same)) others
    rcases mem_holds_reader.mp holds with data | failure | called
    · exact mem_holds_reader.mpr (.inl data)
    · exact mem_holds_reader.mpr (.inr (.inl failure))
    · exact absurd called others

theorem leads_tellData {chunk : Bytes} (other : k ≠ h) :
    Leads (Spares h) (tellData k chunk) w := by
  apply leads_of_dead
  intro dead
  apply leads_get_bind
  split
  · exact leads_pure _
  next r registered =>
    have others : h ∉ r.holds := fun holds => dead (refers_of_listener registered holds
      fun _ data => mem_holds_reader.mpr (.inl data))
    refine leads_call (spares_modifyReader other fun reader holds => .inl ?_)
      (fun same => other (Option.some.inj same)) others
    rcases mem_holds_reader.mp holds with called | rest
    · exact absurd called others
    · exact mem_holds_reader.mpr (.inr rest)

theorem leads_tellWriteFailure {e : FileError} (other : k ≠ h) :
    Leads (Spares h) (tellWriteFailure k e) w := by
  apply leads_of_dead
  intro dead
  apply leads_get_bind
  split
  · exact leads_tellSink other
  next r registered =>
    have others : h ∉ r.holds := by
      intro holds
      obtain ⟨writer, there, failure⟩ := Option.bind_eq_some_iff.mp registered
      refine dead (World.refers_of_writer there (List.mem_append_right _ ?_))
      rw [failure]
      exact holds
    refine leads_call (spares_modifyWriter other fun writer holds => .inl ?_)
      (fun same => other (Option.some.inj same)) others
    exact List.mem_append_left _ ((List.mem_append.mp holds).resolve_right others)

theorem leads_tellDrained (other : k ≠ h) : Leads (Spares h) (tellDrained k) w := by
  apply leads_of_dead
  intro dead
  apply leads_get_bind
  split
  · exact leads_pure _
  next id handler waiting =>
    have others : h ∉ handler.holds := by
      intro holds
      obtain ⟨writer, there, drain⟩ := Option.bind_eq_some_iff.mp waiting
      refine dead (World.refers_of_writer there (List.mem_append_left _ ?_))
      rw [drain]
      exact holds
    split
    · exact leads_call (spares_clearDrain other) (fun same => other (Option.some.inj same)) others
    · exact leads_pure _

theorem leads_finishChunk {outcome : Outcome} (other : k ≠ h) :
    Leads (Spares h) (finishChunk k outcome) w := by
  have idle : Spares h w (w.modifyReader k ({ · with busy := false })) :=
    spares_modifyReader other fun _ => .inl
  apply leads_modify_bind idle
  rcases outcome with e | _ | chunk
  · exact leads_tellReadFailure other
  · have ended {v : World} : Spares h v (v.modifyReader k ({ · with ended := true })) :=
      spares_modifyReader other fun _ => .inl
    exact leads_modify_bind ended (leads_tellEnd other)
  · have moved {v : World} (n : Nat) : Spares h v (v.modifyReader k fun r =>
        { r with position := r.position + n }) := spares_modifyReader other fun _ => .inl
    exact leads_modify_bind (moved _) (leads_tellData other)

theorem leads_finishSend {outcome : Outcome} (other : k ≠ h) :
    Leads (Spares h) (finishSend k outcome) w := by
  rcases outcome with e | bytes
  · exact leads_bind (leads_tellWriteFailure other) fun _ _ _ => leads_tellDrained other
  · exact leads_tellDrained other

variable {job : Job} {outcome : Outcome}

theorem leads_callHandler {handler : Handler} {result : Except FileError Bytes}
    (other : job.handle ≠ h) : Leads (Spares h) (callHandler job handler result) w := by
  have noted : Spares h w (w.record
      (.handled job.id job.completion.operation handler.tag result)) := spares_record nofun
  apply leads_note_bind noted
  apply leads_bind (spares_runAll _ _ _)
  intro _ after _
  have held : h ∉ [job.handle] := fun listed => other (List.mem_singleton.mp listed).symm
  exact leads_modify ((spares_hold held).trans spares_sweep)

theorem leads_callHandlerOrSink {handler : Option Handler} {result : Except FileError Bytes}
    (other : job.handle ≠ h) : Leads (Spares h) (callHandlerOrSink job handler result) w := by
  rcases handler with _ | handler
  · rcases result with e | bytes
    · exact leads_tellSink other
    · exact leads_pure _
  · exact leads_callHandler other

theorem leads_tell (other : job.handle ≠ h) : Leads (Spares h) (tell job outcome) w := by
  unfold Run.tell
  split
  · exact leads_callHandler other
  · exact leads_finishSend other
  · exact leads_callHandler other
  · exact leads_finishChunk other
  · exact leads_callHandlerOrSink other
  · refine leads_modify_bind (spares_modifyHandle other fun s known holds => ?_)
      (leads_callHandlerOrSink other)
    exact World.refers_of_handle known (Handle.holds_unregistered_subset holds)

theorem leads_closeIfQuiet (other : k ≠ h) : Leads (Spares h) (closeIfQuiet k) w := by
  apply leads_of_dead
  intro dead
  apply leads_get_bind
  split
  · exact leads_pure _
  next s known =>
    split
    · split
      · exact leads_pure _
      next job waits =>
        -- the close is queued with what it held while it waited
        have others : h ∉ job.holds := by
          intro holds
          refine dead (World.refers_of_handle known (List.mem_append_right _ ?_))
          rw [waits]
          exact holds
        refine leads_modify (Spares.trans (spares_modifyHandle other fun s known holds => ?_)
          (spares_submit others))
        refine World.refers_of_handle known (List.mem_append_left _ ?_)
        exact (List.mem_append.mp holds).resolve_right List.not_mem_nil
    · exact leads_pure _

/-- A delivery on another handle. -/
theorem leads_deliver (other : job.handle ≠ h) : Leads (Spares h) (deliver job outcome) w := by
  apply leads_get_bind
  split
  · exact leads_pure _
  · have completed : Spares h w (w.modifyHandle job.handle (·.releasing job.completion)) :=
      spares_modifyHandle other fun s known holds => World.refers_of_handle known holds
    refine leads_bind ?_ fun _ _ _ => leads_bind ?_ fun _ _ _ => leads_closeIfQuiet other
    · apply leads_modify_bind completed
      have counted {v : World} : Spares h v (v.record (.completed job outcome)) :=
        spares_record fun same => other (Option.some.inj same)
      apply leads_note_bind counted
      refine leads_bind (leads_tell other) fun _ _ _ => ?_
      have noted {v : World} : Spares h v (v.record (.delivered job.id)) :=
        spares_record fun same => by cases same
      exact noted
    · unfold readOn
      split
      · apply leads_get_bind
        split
        · exact leads_startRead other
        · exact leads_pure _
      · exact leads_pure _

end PinnedFile
