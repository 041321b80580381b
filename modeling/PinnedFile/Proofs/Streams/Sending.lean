/-
  PinnedFile.Proofs.Streams.Sending

  How a write stream goes on.

  The stream moves on when something is written to it, and by nothing else: not when the
  native work is done, and not when it fails.  So each write is for the place where the one
  accepted before it ends, and the writes of a stream never overlap.
-/

import PinnedFile.Proofs.Streams.Acts

namespace PinnedFile

/-- Whether what is completed is a write of a write stream. -/
def Completion.isSend : Completion → Bool
  | .send _ => true
  | _ => false

/-- A write of the write stream of a handle. -/
def Job.IsSendOf (h : HandleId) (a : Job) : Prop := a.handle = h ∧ a.completion.isSend = true

instance (h : HandleId) (a : Job) : Decidable (a.IsSendOf h) := inferInstanceAs (Decidable (_ ∧ _))

/-- What an operation is to write. -/
def Job.data (a : Job) : Bytes :=
  match a.transfer with
  | .write data _ _ => data
  | _ => []

/-- All that some operations are to write, in their order. -/
def dataOf (jobs : List Job) : Bytes := jobs.flatMap Job.data

namespace World

/-- The writes that were accepted on the write stream of a handle, the first one first. -/
def sends (w : World) (h : HandleId) : List Job :=
  (w.accepted.filter fun a => a.IsSendOf h).reverse

end World

/-- Each write begins where those before it end. -/
def BackToBack (jobs : List Job) : Prop :=
  ∀ earlier a later, jobs = earlier ++ a :: later →
    a.transfer = .ofWrite a.data (dataOf earlier).length

/-- How far the write stream of a handle has come among some handles. -/
def sentPositionIn (handles : List Handle) (h : HandleId) : Nat :=
  (handles[h]?.map fun s => s.writeStream.position).getD 0

/-- The state of a write stream agrees with what was written to it. -/
structure Sending (h : HandleId) (w : World) : Prop where
  position : sentPositionIn w.handles h = (dataOf (w.sends h)).length
  placed : BackToBack (w.sends h)
  /-- Whoever has got the stream has got one that was made. -/
  made : ∀ f, (w.slot f).writer = some h →
    ∃ s, w.handles[h]? = some s ∧ s.writer.isSome = true

/-- A handle whose write stream has not moved on. -/
structure Handle.SendsNothing (s s' : Handle) : Prop where
  sent : s'.writeStream.position = s.writeStream.position
  writer : s.writer.isSome = true → s'.writer.isSome = true

/-- Nothing was written to a stream. -/
structure SendsNothing (h : HandleId) (w after : World) : Prop where
  remains : Remains Handle.SendsNothing w.handles[h]? after.handles[h]?
  sends : after.sends h = w.sends h
  slots : ∀ f, (after.slot f).writer = some h →
    (w.slot f).writer = some h ∨ ∃ s, after.handles[h]? = some s ∧ s.writer.isSome = true

section Sending

variable {mode : Mode} {h : HandleId} {w after : World} {job a : Job} {jobs : List Job}
  {outcome : Outcome} {rest : Queue Task} {s : Handle} {v : Writer} {t : Transfer}
  {c : Completion} {data : Bytes}

/-! ## Lists of writes -/

theorem dataOf_append {more : List Job} : dataOf (jobs ++ more) = dataOf jobs ++ dataOf more :=
  List.flatMap_append

theorem dataOf_singleton : dataOf [a] = a.data := List.flatMap_singleton ..

/-- One more write, where those before it end. -/
theorem BackToBack.snoc (placed : BackToBack jobs)
    (last : a.transfer = .ofWrite a.data (dataOf jobs).length) : BackToBack (jobs ++ [a]) := by
  intro earlier b later split
  rcases append_eq_split split with ⟨middle, rfl, tail⟩ | ⟨middle, before, -⟩
  · rcases middle with _ | ⟨first, middle⟩
    · obtain ⟨rfl, -⟩ := List.cons.inj tail
      rwa [List.append_nil]
    · obtain ⟨-, none⟩ := List.cons.inj tail
      cases middle <;> cases none
  · exact placed earlier b middle before

/-! ## What sends nothing -/

theorem Completion.isStreams_of_isSend (send : c.isSend = true) : c.isStreams = true := by
  cases c with
  | send n => rfl
  | _ => cases send

theorem sends_of_notes (notes : Notes (fun e => ∀ a, e.event = .accepted a → ¬ a.IsSendOf h) w after) :
    after.sends h = w.sends h := by
  obtain ⟨new, added, none⟩ := notes
  have nothing : (new.filterMap (·.event.accepted?)).filter (fun a => a.IsSendOf h) = [] := by
    rw [List.filter_eq_nil_iff]
    intro a listed own
    obtain ⟨e, there, told⟩ := List.mem_filterMap.mp listed
    refine none e there a ?_ (of_decide_eq_true own)
    rcases e with ⟨context, event, handles⟩
    cases event with
    | accepted b =>
      obtain rfl := Option.some.inj told
      rfl
    | _ => cases told
  rw [World.sends, World.accepted, added, List.filterMap_append, List.filter_append, nothing]
  rfl

theorem sends_enqueue : (w.enqueue h t c).sends h =
    if c.isSend then w.sends h ++ [⟨w.nextOperation, h, t, c⟩] else w.sends h := by
  rw [World.sends, World.accepted_enqueue, List.filter_cons]
  by_cases send : c.isSend = true
  · simp [Job.IsSendOf, send, World.sends]
  · simp [Job.IsSendOf, send, World.sends]

theorem slots_enqueue : (w.enqueue h t c).slots = w.slots := by
  unfold World.enqueue World.submit
  dsimp only
  split <;> rfl

theorem Handle.Stays.sendsNothing {s' : Handle} (stays : s.Stays s') : s.SendsNothing s' :=
  ⟨stays.sent, stays.writer⟩

theorem QuietFor.sendsNothing (quiet : QuietFor h w after) : SendsNothing h w after where
  remains := quiet.remains.mono fun _ _ => Handle.Stays.sendsNothing
  sends := by
    refine sends_of_notes (quiet.notes.mono fun e told a same own => ?_)
    have plain := told.1
    rw [same] at plain
    have none : a.completion.isStreams = false := plain own.1
    rw [Completion.isStreams_of_isSend own.2] at none
    cases none
  slots := quiet.slots

/-- A change of one handle, with nothing accepted. -/
theorem sendsNothing_of_modify {f : Handle → Handle}
    (handles : after.handles = w.handles.modify h f) (slots : after.slots = w.slots)
    (sends : after.sends h = w.sends h) (nothing : ∀ s : Handle, s.SendsNothing (f s)) :
    SendsNothing h w after where
  remains := by
    rw [handles]
    exact remains_modify (fun _ => ⟨rfl, id⟩) fun _ => nothing
  sends := sends
  slots f got := by
    rw [World.slot, slots] at got
    exact .inl got

/-- The law is kept by whatever sends nothing. -/
theorem Sending.sendsNothing (sending : Sending h w) (nothing : SendsNothing h w after) :
    Sending h after where
  position := by
    rw [nothing.sends, ← sending.position]
    exact nothing.remains.figure (fun _ => Handle.IsNew.sent) fun _ _ => Handle.SendsNothing.sent
  placed := by
    rw [nothing.sends]
    exact sending.placed
  made f got := by
    rcases nothing.slots f got with before | made
    · obtain ⟨s, known, made⟩ := sending.made f before
      have remains := nothing.remains
      rw [known] at remains
      generalize after.handles[h]? = later at remains
      cases remains with
      | known related => exact ⟨_, rfl, related.writer made⟩
    · exact made

/-! ## What is sent -/

/-- A write is accepted where the stream is, and the stream moves on behind it. -/
theorem Sending.send (sending : Sending h w) (got : ∃ f, (w.slot f).writer = some h)
    (known : w.handles[h]? = some s) :
    Sending h ((w.enqueue h (.ofWrite data s.writeStream.position) (.send data.length)).modifyWriter
      h fun v => { v with position := v.position + data.length }) := by
  obtain ⟨f, got⟩ := got
  obtain ⟨s', known', isMade⟩ := sending.made f got
  obtain rfl := Option.some.inj (known.symm.trans known')
  obtain ⟨v, made⟩ := Option.isSome_iff_exists.mp isMade
  have stream : s.writeStream = v := by rw [Handle.writeStream, made, Option.getD_some]
  have there : v.position = (dataOf (w.sends h)).length := by
    rw [← sending.position, sentPositionIn, known, Option.map_some, Option.getD_some, stream]
  rw [stream]
  generalize after_eq : (w.enqueue h (.ofWrite data v.position) (.send data.length)).modifyWriter
    h _ = after
  -- the handle and the writes of the stream as they are then
  have now : after.handles[h]? = some { s.taking (.send data.length) with
      writer := some { v with position := v.position + data.length } } := by
    rw [← after_eq, World.modifyWriter, World.modifyHandle, World.handles_enqueue,
      List.modify_modify_eq, List.getElem?_modify_eq, known]
    simp [Handle.taking, made]
  let a : Job := ⟨w.nextOperation, h, .ofWrite data v.position, .send data.length⟩
  have sends : after.sends h = w.sends h ++ [a] := by
    rw [← after_eq]
    exact sends_enqueue
  refine ⟨?_, ?_, fun f _ => ⟨_, now, rfl⟩⟩
  · rw [sends, dataOf_append, dataOf_singleton, List.length_append, ← there, sentPositionIn, now]
    rfl
  · rw [sends]
    refine sending.placed.snoc ?_
    rw [← there]
    rfl

/-! ## In every run -/

theorem sending_start (workers : Nat) (files : FileTree) :
    Sending h (World.start workers files) where
  position := rfl
  placed earlier a later split := by cases earlier <;> cases split
  made f got := by cases got

theorem Sending.modifyReader {f : Reader → Reader} (sending : Sending h w) :
    Sending h (w.modifyReader h f) :=
  sending.sendsNothing (sendsNothing_of_modify rfl rfl rfl fun _ => ⟨rfl, id⟩)

/-- What a read stream begins is no write. -/
theorem Sending.readingOn (sending : Sending h w) : Sending h (w.readingOn h) := by
  rcases w.readingOn_cases h with same | ⟨r, -, -, started⟩
  · rwa [same]
  · rw [started]
    rcases w.startingRead_cases h r with ⟨-, large⟩ | ⟨-, fits⟩
    · rw [large]
      exact sending.modifyReader
    · rw [fits]
      have marked := sending.modifyReader (f := ({ · with busy := true }))
      exact marked.sendsNothing (sendsNothing_of_modify World.handles_enqueue slots_enqueue
        sends_enqueue fun s => ⟨rfl, id⟩)

theorem Sending.change (sending : Sending h w) (change : Change h w after) : Sending h after := by
  cases change with
  | quiet quiet => exact sending.sendsNothing quiet.sendsNothing
  | listen listener => exact sending.modifyReader.readingOn
  | resume paused => exact sending.modifyReader.readingOn
  | send got known => exact sending.send got known
  | awaitDrain =>
    refine sending.sendsNothing (sendsNothing_of_modify rfl rfl rfl fun s => ?_)
    refine ⟨?_, fun isMade => (Option.isSome_map ..).trans isMade⟩
    rcases made : s.writer with _ | v
    · rw [Handle.writeStream, Handle.writeStream, made, Option.map_none]
    · rw [Handle.writeStream, Handle.writeStream, made, Option.map_some]
      rfl

theorem Sending.telling (sending : Sending h w) (handle : job.handle = h) :
    Sending h (w.telling job outcome rest) := by
  subst handle
  have released : Sending job.handle ((w.delivering job outcome rest).completing job outcome) :=
    sending.sendsNothing (sendsNothing_of_modify (f := (·.releasing job.completion)) rfl rfl rfl
      fun _ => ⟨rfl, id⟩)
  have arrived : Sending job.handle (w.arriving job outcome rest) := by
    unfold World.arriving
    dsimp only
    split
    · exact released.sendsNothing (sendsNothing_of_modify rfl rfl rfl fun _ => ⟨rfl, id⟩)
    · exact released
  obtain ⟨v, quiet, told | ⟨e, reading, told⟩⟩ :=
    w.telling_record (h := job.handle) job outcome rest
  · rw [told]
    exact arrived.sendsNothing quiet.sendsNothing
  · rw [told]
    have aside : Notes (fun e => ∀ a, e.event = .accepted a → ¬ a.IsSendOf job.handle) v
        (v.record e) := notes_record fun a accepts => by
      dsimp only at accepts
      rw [accepts] at reading
      cases reading
    exact (arrived.sendsNothing quiet.sendsNothing).sendsNothing
      ⟨remains_refl fun _ => ⟨rfl, id⟩, sends_of_notes aside, fun _ => .inl⟩

/-- In every run the state of a write stream agrees with what was written to it. -/
theorem Reachable.sending (reached : Reachable mode w) (h : HandleId) : Sending h w := by
  refine Reachable.streams_induct (h := h) sending_start ?_ ?_ ?_ ?_ reached
  · intro w after sending change
    exact sending.change change
  · intro w job outcome rest _ _ handle sending
    exact sending.telling handle
  · intro w id sending
    exact ⟨sending.position, sending.placed, sending.made⟩
  · intro w sending
    exact sending.readingOn

end Sending

end PinnedFile
