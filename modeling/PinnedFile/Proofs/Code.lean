/-
  PinnedFile.Proofs.Code

  Code on the loop, taken as a function from worlds to worlds.

  `exec` is what code ends with, and the world in which it ends; each primitive has its
  equation for it.  `Leads R` says that code which begins in some world ends in one that
  `R` relates it to, whether it ends with a value or with a panic.  For a preorder `R` it
  is enough to look at each change that the code makes.
-/

import Mathlib.Order.Defs.Unbundled
import PinnedFile.World.Delivery

namespace PinnedFile.Run

variable {α β : Type} {R : World → World → Prop} {w : World}

/-! ## What code ends with -/

/-- What code ends with, and the world in which it ends. -/
def exec (code : Run α) (w : World) : Except String α × World := code.run.run w

@[simp] theorem exec_pure (a : α) : exec (pure a) w = (.ok a, w) := rfl

@[simp] theorem exec_throw (message : String) :
    exec (throw message : Run α) w = (.error message, w) := rfl

@[simp] theorem exec_get : exec get w = (.ok w, w) := rfl

@[simp] theorem exec_set (after : World) : exec (set after) w = (.ok (), after) := rfl

@[simp] theorem exec_modify (f : World → World) : exec (modify f) w = (.ok (), f w) := rfl

@[simp] theorem exec_note (event : Event) : exec (note event) w = (.ok (), w.record event) := rfl

theorem exec_bind (x : Run α) (f : α → Run β) :
    exec (x >>= f) w = match exec x w with
      | (.ok a, after) => exec (f a) after
      | (.error message, after) => (.error message, after) := by
  simp only [exec, ExceptT.run_bind, StateT.run_bind]
  rcases x.run.run w with ⟨_ | a, after⟩ <;> rfl

theorem exec_bind_ok {x : Run α} {f : α → Run β} {a : α} {after : World}
    (first : exec x w = (.ok a, after)) : exec (x >>= f) w = exec (f a) after := by
  rw [exec_bind, first]

theorem exec_bind_error {x : Run α} {f : α → Run β} {message : String} {after : World}
    (first : exec x w = (.error message, after)) :
    exec (x >>= f) w = (.error message, after) := by
  rw [exec_bind, first]

@[simp] theorem exec_get_bind (f : World → Run β) : exec (get >>= f) w = exec (f w) w := rfl

@[simp] theorem exec_modify_bind (g : World → World) (f : PUnit → Run β) :
    exec (modify g >>= f) w = exec (f ()) (g w) := rfl

@[simp] theorem exec_note_bind (event : Event) (f : Unit → Run β) :
    exec (note event >>= f) w = exec (f ()) (w.record event) := rfl

theorem exec_map (f : α → β) (x : Run α) :
    exec (f <$> x) w = ((exec x w).1.map f, (exec x w).2) := by
  simp only [exec, ExceptT.run_map, StateT.run_map]
  rcases x.run.run w with ⟨_ | a, after⟩ <;> rfl

/-- A request that is refused leaves the world as it is. -/
theorem exec_request_error {f : World → Except FileError World} {e : FileError}
    (refused : f w = .error e) : exec (request f) w = (.ok (.error e), w) := by
  simp [request, refused]

theorem exec_request_ok {f : World → Except FileError World} {after : World}
    (accepted : f w = .ok after) : exec (request f) w = (.ok (.ok ()), after) := by
  simp only [request, exec_get_bind, accepted]
  rfl

theorem exec_ask_error {f : World → Except FileError World} {e : FileError}
    (refused : f w = .error e) : exec (ask f) w = (.ok (.result (.error e)), w) := by
  change exec (Reply.result <$> request f) w = _
  rw [exec_map, exec_request_error refused]
  rfl

theorem exec_ask_ok {f : World → Except FileError World} {after : World}
    (accepted : f w = .ok after) : exec (ask f) w = (.ok (.result (.ok ())), after) := by
  change exec (Reply.result <$> request f) w = _
  rw [exec_map, exec_request_ok accepted]
  rfl

/-! ## What slots hold -/

theorem exec_withHandle {f : Slot} {h : HandleId} {next : HandleId → Run Reply}
    (got : (w.slot f).handle = some h) : exec (withHandle f next) w = exec (next h) w := by
  rw [withHandle, exec_get_bind, got]

theorem exec_withReader {f : Slot} {h : HandleId} {next : HandleId → Run Reply}
    (got : (w.slot f).reader = some h) : exec (Run.withReader f next) w = exec (next h) w := by
  rw [Run.withReader, exec_get_bind, got]

theorem exec_withWriter {f : Slot} {h : HandleId} {next : HandleId → Run Reply}
    (got : (w.slot f).writer = some h) : exec (withWriter f next) w = exec (next h) w := by
  rw [withWriter, exec_get_bind, got]

/-! ## Where code leads -/

/-- Code that begins in `w` ends in a world that `R` relates `w` to. -/
def Leads (R : World → World → Prop) (code : Run α) (w : World) : Prop := R w (exec code w).2

theorem Leads.of_exec {code : Run α} {result : Except String α} {after : World}
    (ends : exec code w = (result, after)) (related : R w after) : Leads R code w := by
  rw [Leads, ends]
  exact related

theorem leads_map {f : α → β} {x : Run α} (first : Leads R x w) : Leads R (f <$> x) w := by
  rw [Leads, exec_map]
  exact first

section Preorder

variable [IsPreorder World R]

theorem leads_pure (a : α) : Leads R (pure a) w := refl_of R w

theorem leads_throw (message : String) : Leads R (throw message : Run α) w := refl_of R w

/-- The second part of code begins where the first part ended. -/
theorem related_bind {x : Run α} {f : α → Run β}
    (next : ∀ a after, exec x w = (.ok a, after) → Leads R (f a) after) :
    R (exec x w).2 (exec (x >>= f) w).2 := by
  rcases ends : exec x w with ⟨message | a, after⟩
  · rw [exec_bind_error ends]
    exact refl_of R after
  · rw [exec_bind_ok ends]
    exact next a after ends

theorem leads_bind {x : Run α} {f : α → Run β} (first : Leads R x w)
    (next : ∀ a after, exec x w = (.ok a, after) → Leads R (f a) after) :
    Leads R (x >>= f) w := trans_of R first (related_bind next)

/-- Code that changes the world and goes on. -/
theorem leads_modify_bind {g : World → World} {f : PUnit → Run β} (change : R w (g w))
    (next : Leads R (f ()) (g w)) : Leads R (modify g >>= f) w := by
  rw [Leads, exec_modify_bind]
  exact trans_of R change next

theorem leads_note_bind {event : Event} {f : Unit → Run β} (change : R w (w.record event))
    (next : Leads R (f ()) (w.record event)) : Leads R (note event >>= f) w := by
  rw [Leads, exec_note_bind]
  exact trans_of R change next

/-- A request leads where its acceptance leads. -/
theorem leads_request {f : World → Except FileError World}
    (accepted : ∀ after, f w = .ok after → R w after) : Leads R (request f) w := by
  rcases decided : f w with e | after
  · exact .of_exec (exec_request_error decided) (refl_of R w)
  · exact .of_exec (exec_request_ok decided) (accepted after decided)

theorem leads_request_bind {f : World → Except FileError World}
    {next : Except FileError Unit → Run β}
    (refused : ∀ e, f w = .error e → Leads R (next (.error e)) w)
    (accepted : ∀ after, f w = .ok after → R w after)
    (goes_on : ∀ after, f w = .ok after → Leads R (next (.ok ())) after) :
    Leads R (request f >>= next) w := by
  rcases decided : f w with e | after
  · rw [Leads, exec_bind_ok (exec_request_error decided)]
    exact refused e decided
  · rw [Leads, exec_bind_ok (exec_request_ok decided)]
    exact trans_of R (accepted after decided) (goes_on after decided)

theorem leads_ask {f : World → Except FileError World}
    (accepted : ∀ after, f w = .ok after → R w after) : Leads R (ask f) w :=
  leads_map (leads_request accepted)

end Preorder

theorem leads_get_bind {f : World → Run β} (next : Leads R (f w) w) :
    Leads R (get >>= f) w := by
  rw [Leads, exec_get_bind]
  exact next

theorem leads_modify {g : World → World} (change : R w (g w)) :
    Leads R (modify g : Run PUnit) w := change

end PinnedFile.Run
