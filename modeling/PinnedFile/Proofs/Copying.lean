/-
  PinnedFile.Proofs.Copying

  The copying copies, and cannot get stuck.

  Both files are regular files, and native calls on them go well: they are interrupted, or they
  move something, and a read finds the end of the source only where it is.  Beyond that nothing
  is fixed: not the lengths, not how the transfers are cut up, not the order in which workers
  and the loop go on.  Nothing then ever goes wrong, and where nothing goes on any more the
  whole source has been copied.
-/

import PinnedFile.Proofs.Copying.Schedule

namespace PinnedFile.Copying

variable {files opened : FileTree} {sourcePath destinationPath contents old : Bytes}
  {a b : NodeId} {w : World}

/-- Nothing has gone wrong: no task has panicked, no command was refused, no failure was told,
    and whatever handler was called was told of a success. -/
structure GoesSmoothly (w : World) : Prop where
  calm : w.panicNote = none
  accepted : ∀ e ∈ w.history, ∀ c reply, e.event = .ran c reply → IsAccepted reply
  untroubled : errors w = []
  handled : ∀ call ∈ w.handlerCalls, ∃ bytes, call.result = .ok bytes

/-- The source was copied: both handles are closed, each native file once, it was told once that
    the copying is done, and how many bytes were copied, and the destination holds the source,
    and behind it what it held there before. -/
structure IsCopied (contents old : Bytes) (a b : NodeId) (w : World) : Prop where
  closed : ∀ h ∈ [sourceHandle, destinationHandle], ∃ s, w.handles[h]? = some s ∧
    s.closed = true ∧ (w.books.closesDone h).length = 1
  done : isDone w = true
  once : w.history.countP isReport = 1
  told : output w = "Copied " ++ toString contents.length ++ " bytes\n"
  source : w.files.contents? a = some contents
  destination : w.files.contents? b = some (contents ++ old.drop contents.length)

namespace Copies

theorem goesSmoothly (copies : Copies contents old a b w) : GoesSmoothly w := by
  obtain ⟨setting, intake, outlet, -, stands, sound⟩ := copies.stands
  have allSmooth := stands.smooth sound.smooth
  refine ⟨stands.calm, fun e listed c reply ran => ?_,
    List.filterMap_eq_nil_iff.mpr fun e listed => ?_, fun call called => ?_⟩
  · have smooth := allSmooth e listed
    rw [ran] at smooth
    exact smooth
  · have smooth := allSmooth e (List.mem_reverse.mp listed)
    rcases e with ⟨context, event, handles⟩
    cases event with
    | failed => exact smooth.elim
    | _ => rfl
  · obtain ⟨e, listed, told⟩ := List.mem_filterMap.mp called
    have smooth := allSmooth e listed
    rcases e with ⟨context, event, handles⟩
    cases event with
    | handled id operation tag result =>
      obtain rfl := Option.some.inj told
      exact smooth.2.2
    | _ => cases told

/-- Where the copying rests it is over, and has copied. -/
theorem isCopied_of_rest (copies : Copies contents old a b w) (rest : w.AtRest) :
    IsCopied contents old a b w := by
  obtain ⟨setting, stands, sound⟩ := copies.finished_of_rest rest
  have once := copies.countP_of_rest rest
  have done : isDone w = true := by
    obtain ⟨e, listed, told⟩ := List.countP_pos_iff.mp (once ▸ Nat.one_pos)
    exact List.any_eq_true.mpr ⟨e, listed, told⟩
  have closed {h : HandleId} {s : Handle} (known : w.handles[h]? = some s)
      (closed : s.closed = true) : ∃ s, w.handles[h]? = some s ∧ s.closed = true ∧
        (w.books.closesDone h).length = 1 := by
    obtain ⟨other, -, -, rfl, carried⟩ := copies.carriesOut_of_rest rest known closed
    exact ⟨s, known, closed, carried.made⟩
  constructor
  · obtain ⟨s, knownSource, isSource⟩ := stands.source?
    obtain ⟨t, knownDestination, isDestination⟩ := stands.destination?
    simp only [List.forall_mem_cons]
    exact ⟨closed knownSource isSource.closed, closed knownDestination isDestination.closed,
      List.forall_mem_nil _⟩
  · exact done
  · exact once
  · rw [output, if_pos done, copies.total_of_done done]
  · rw [stands.files]
    exact sound.source
  · exact copies.contents_of_rest rest

end Copies

/-- A session that copies a file, and has been waited for, has copied it. -/
theorem copy_of_rest (opens : Opens files sourcePath destinationPath opened a b contents old)
    (small : contents.length ≤ FileTree.sizeLimit)
    (rest : (begin files sourcePath destinationPath).settled.AtRest) :
    (copy files sourcePath destinationPath).exitCode = 0 ∧
      (copy files sourcePath destinationPath).output =
        "Copied " ++ toString contents.length ++ " bytes\n" ∧
      (copy files sourcePath destinationPath).errors = [] ∧
      (copy files sourcePath destinationPath).files.contents? b =
        some (contents ++ old.drop contents.length) := by
  -- a session is one way in which the copying can go on
  have copies := (copies_begin opens).steps opens.fits opens.apart
    ((copies_begin opens).proceeds_settle opens.apart small World.patience)
  have copied := copies.isCopied_of_rest rest
  have smooth := copies.goesSmoothly
  refine ⟨?_, copied.told, smooth.untroubled, copied.destination⟩
  have both : (isDone (begin files sourcePath destinationPath).settled &&
      (begin files sourcePath destinationPath).settled.panicNote.isNone) = true := by
    rw [World.settled, copied.done, smooth.calm]
    rfl
  rw [copy]
  exact if_pos both

/-- A directory with a file of three bytes and one of five. -/
def twoFiles : FileTree :=
  ⟨[.directory [([97], 1), ([98], 2)], .file 0o644 [1, 2, 3], .file 0o644 [9, 8, 7, 6, 5]], [0]⟩

theorem opens_twoFiles :
    Opens twoFiles [97] [98] twoFiles 1 2 [1, 2, 3] [9, 8, 7, 6, 5] where
  source := by decide +kernel
  holds := by decide +kernel
  destination := by decide +kernel
  held := by decide +kernel
  apart := by decide
  fits := by decide

end PinnedFile.Copying
