/-
  PinnedFile.Proofs.Returns

  Code that returns.

  `Returns Q code w` says that code which begins in `w` ends with a value and not with a
  panic, and that `Q` holds of the value and of the world in which it ends.  It is put
  together along the code: what comes first returns, and whatever it returns with, so does
  what comes after it.
-/

import PinnedFile.Proofs.Code

namespace PinnedFile.Run

variable {α β : Type} {w : World} {P : α → World → Prop} {Q : β → World → Prop}

/-- Code that begins in `w` ends with a value, in a world of which `P` holds. -/
def Returns (P : α → World → Prop) (code : Run α) (w : World) : Prop :=
  ∃ a after, exec code w = (.ok a, after) ∧ P a after

theorem Returns.exec_eq_ok {code : Run Unit} {P : Unit → World → Prop}
    (returns : Returns P code w) : (exec code w).1 = .ok () := by
  obtain ⟨_, after, ends, -⟩ := returns
  rw [ends]

theorem Returns.mono {code : Run α} {P' : α → World → Prop} (returns : Returns P code w)
    (weaker : ∀ a after, P a after → P' a after) : Returns P' code w := by
  obtain ⟨a, after, ends, holds⟩ := returns
  exact ⟨a, after, ends, weaker a after holds⟩

theorem returns_pure {a : α} (holds : P a w) : Returns P (pure a) w := ⟨a, w, exec_pure a, holds⟩

/-- What comes second begins where what comes first has ended. -/
theorem returns_bind {x : Run α} {f : α → Run β} (first : Returns P x w)
    (next : ∀ a after, P a after → Returns Q (f a) after) : Returns Q (x >>= f) w := by
  obtain ⟨a, after, ends, holds⟩ := first
  obtain ⟨b, last, ends', holds'⟩ := next a after holds
  exact ⟨b, last, (exec_bind_ok ends).trans ends', holds'⟩

theorem returns_get_bind {f : World → Run β} (next : Returns Q (f w) w) :
    Returns Q (get >>= f) w := next

theorem returns_modify_bind {g : World → World} {f : PUnit → Run β}
    (next : Returns Q (f ()) (g w)) : Returns Q (modify g >>= f) w := next

theorem returns_modify {g : World → World} {P : PUnit → World → Prop} (holds : P () (g w)) :
    Returns P (modify g) w := ⟨(), g w, exec_modify g, holds⟩

theorem returns_note_bind {event : Event} {f : Unit → Run β}
    (next : Returns Q (f ()) (w.record event)) : Returns Q (note event >>= f) w := next

theorem returns_note {event : Event} {P : Unit → World → Prop} (holds : P () (w.record event)) :
    Returns P (note event) w := ⟨(), w.record event, exec_note event, holds⟩

/-- A request that is accepted. -/
theorem returns_request_bind {f : World → Except FileError World} {after : World}
    {next : Except FileError Unit → Run β} (accepted : f w = .ok after)
    (goes_on : Returns Q (next (.ok ())) after) : Returns Q (request f >>= next) w := by
  obtain ⟨b, last, ends, holds⟩ := goes_on
  exact ⟨b, last, (exec_bind_ok (exec_request_ok accepted)).trans ends, holds⟩

theorem returns_ask {f : World → Except FileError World} {after : World}
    {P : Reply → World → Prop} (accepted : f w = .ok after) (holds : P (.result (.ok ())) after) :
    Returns P (ask f) w := by
  refine ⟨_, after, ?_, holds⟩
  rw [ask, exec_map, exec_request_ok accepted]
  rfl

/-- Code that holds some handles meanwhile gives them up as it returns. -/
theorem returns_holding {handles : List HandleId} {code : Run α}
    (inside : Returns (fun a after => P a { after with held := w.held }.sweep) code
      { w with held := handles ++ w.held }) : Returns P (holding handles code) w := by
  rw [holding]
  exact returns_get_bind (returns_modify_bind (returns_bind inside fun a after holds =>
    returns_modify_bind (returns_pure holds)))

end PinnedFile.Run
