/-
  PinnedFile.Proofs.Books.Handles

  What holds of each handle, whatever happens to the others.

  A close waits on a handle as long as the handle is closed and something of it is not
  delivered.  That it waits then is so in every run.  That it waits no longer needs the
  deliveries to come to their end, for it is there that a close is started.
-/

import PinnedFile.Proofs.Books.Turns

namespace PinnedFile

namespace Handle

/-- A close waits on a closed handle only, and it does if the handle is not quiet. -/
structure Coherent (s : Handle) : Prop where
  opened : s.closed = false → s.pendingClose = none
  busy : s.closed = true → s.isQuiet = false → s.pendingClose.isSome = true

/-- No close waits on a quiet handle. -/
def Prompt (s : Handle) : Prop := s.pendingClose.isSome = true → s.isQuiet = false

theorem isQuiet_eq_false_iff {s : Handle} :
    s.isQuiet = false ↔ s.outstanding ≠ 0 ∨ s.inFlight ≠ 0 := by
  simp only [isQuiet, Bool.and_eq_false_iff, decide_eq_false_iff_not]

theorem isQuiet_taking {s : Handle} {c : Completion} (busy : s.isQuiet = false) :
    (s.taking c).isQuiet = false := by
  rw [isQuiet_eq_false_iff] at busy ⊢
  simp only [taking]
  omega

theorem isQuiet_of_releasing {s : Handle} {c : Completion}
    (busy : (s.releasing c).isQuiet = false) : s.isQuiet = false := by
  rw [isQuiet_eq_false_iff] at busy ⊢
  simp only [releasing] at busy
  omega

theorem Coherent.taking {s : Handle} {c : Completion} (opened : s.closed = false)
    (coherent : s.Coherent) : (s.taking c).Coherent where
  opened _ := coherent.opened opened
  busy closed := by
    rw [show (s.taking c).closed = s.closed from rfl, opened] at closed
    cases closed

theorem Coherent.releasing {s : Handle} {c : Completion} (coherent : s.Coherent) :
    (s.releasing c).Coherent where
  opened := coherent.opened
  busy closed busy := coherent.busy closed (isQuiet_of_releasing busy)

theorem Coherent.prompt_of_open {s : Handle} (coherent : s.Coherent) (opened : s.closed = false) :
    s.Prompt := by
  intro waits
  rw [coherent.opened opened] at waits
  cases waits

end Handle

namespace Books

/-! ## Changes to one of many -/

section Modify

variable {α : Type} {P : α → Prop} {l : List α} {i k : Nat} {f : α → α} {a new : α}

/-- What stands at a place after one was changed is what was changed, or stood there before. -/
theorem getElem?_modify_cases (found : (l.modify i f)[k]? = some a) :
    (i = k ∧ ∃ before, l[i]? = some before ∧ f before = a) ∨ (i ≠ k ∧ l[k]? = some a) := by
  by_cases equal : i = k
  · subst equal
    rw [List.getElem?_modify_eq] at found
    exact .inl ⟨rfl, Option.map_eq_some_iff.mp found⟩
  · rw [List.getElem?_modify_ne _ _ equal] at found
    exact .inr ⟨equal, found⟩

/-- What stands at a place after one was added stood there before, or is what was added. -/
theorem getElem?_append_cases (found : (l ++ [new])[k]? = some a) :
    l[k]? = some a ∨ (l.length ≤ k ∧ a = new) := by
  rcases Nat.lt_or_ge k l.length with old | beyond
  · rw [List.getElem?_append_left old] at found
    exact .inl found
  · rw [List.getElem?_append_right beyond] at found
    exact .inr ⟨beyond, List.mem_singleton.mp (List.mem_of_getElem? found)⟩

theorem forall_modify (all : ∀ a ∈ l, P a) (change : ∀ a, l[i]? = some a → P a → P (f a)) :
    ∀ a ∈ l.modify i f, P a := by
  intro a listed
  obtain ⟨k, found⟩ := List.mem_iff_getElem?.mp listed
  rcases getElem?_modify_cases found with ⟨-, before, known, rfl⟩ | ⟨-, same⟩
  · exact change before known (all before (List.mem_of_getElem? known))
  · exact all a (List.mem_of_getElem? same)

end Modify

variable {mode : Mode} {b after : Books} {h : HandleId} {s : Handle}

/-! ## A close that waits -/

/-- Every handle is coherent. -/
def Coherent (b : Books) : Prop := ∀ s ∈ b.handles, s.Coherent

theorem handle_accept {t : Transfer} {c : Completion} (admits : b.Admits h s) :
    (b.accept h t c).handles[h]? = some (s.taking c) := by
  simp [accept, admits.known]

theorem coherent_accept {t : Transfer} {c : Completion} (coherent : b.Coherent)
    (admits : b.Admits h s) : (b.accept h t c).Coherent := by
  apply forall_modify coherent
  intro s' known' one
  obtain rfl := Option.some.inj (admits.known.symm.trans known')
  exact one.taking admits.opened

theorem coherent_submit {job : Job} (coherent : b.Coherent) : (b.submit job).Coherent := coherent

theorem Move.coherent (entry : Move b after) (coherent : b.Coherent) : after.Coherent := by
  cases entry with
  | accept admits fits plain => exact coherent_submit (coherent_accept coherent admits)
  | @close h s handler admits quiet =>
    -- it is closed while it is quiet, so no close has to wait
    apply forall_modify (coherent_accept (t := .close) (c := .close handler) coherent admits)
    intro s' known' one
    obtain rfl := Option.some.inj ((handle_accept admits).symm.trans known')
    refine ⟨(fun opened => by cases opened), fun _ busy => ?_⟩
    rw [show Handle.isQuiet { s.taking (.close handler) with closed := true } = s.isQuiet from rfl,
      quiet] at busy
    cases busy
  | closeLater admits busy =>
    apply forall_modify (coherent_accept coherent admits)
    intro s' known' one
    exact ⟨(fun opened => by cases opened), fun _ _ => rfl⟩
  | «open» fresh =>
    intro s listed
    rcases List.mem_append.mp listed with old | new
    · exact coherent s old
    · obtain rfl := List.mem_singleton.mp new
      exact ⟨fun _ => fresh.2.2.2, fun closed => by rw [fresh.1] at closed; cases closed⟩
  | call | post | shutDown => exact coherent

theorem Moves.coherent (entries : Moves b after) (coherent : b.Coherent) : after.Coherent := by
  induction entries with
  | refl => exact coherent
  | tail _ last ih => exact last.coherent ih

theorem coherent_opening {rest : Queue Task} {owner : ContextId} {job : Job}
    {outcome : Outcome} (coherent : b.Coherent) :
    (b.opening rest owner job outcome).Coherent :=
  forall_modify coherent fun _ _ one => one.releasing

theorem coherent_closeIfQuiet (coherent : b.Coherent) : (b.closeIfQuiet h).Coherent := by
  rcases closeIfQuiet_cases b h with ⟨same, -⟩ | ⟨s, job, known, quiet, -, same⟩
  · rw [same]
    exact coherent
  · rw [same]
    apply forall_modify coherent
    intro s' known' one
    obtain rfl := Option.some.inj (known.symm.trans known')
    refine ⟨fun _ => rfl, fun _ busy => ?_⟩
    rw [show Handle.isQuiet { s with pendingClose := none } = s.isQuiet from rfl, quiet] at busy
    cases busy

theorem Turn.coherent (turn : Turn mode b after) (coherent : b.Coherent) : after.Coherent := by
  cases turn with
  | move entry => exact entry.coherent coherent
  | deliver next known entries =>
    exact coherent_closeIfQuiet (entries.coherent (coherent_opening coherent))
  | breakOff next known entries calm => exact entries.coherent (coherent_opening coherent)
  | switch | begin | take | answer | finish => exact coherent

/-! ## A close that waits no longer -/

/-- No close waits on a handle that is quiet. -/
def PromptAt (b : Books) (h : HandleId) : Prop := ∀ s, b.handles[h]? = some s → s.Prompt

theorem promptAt_modify {k : HandleId} {f : Handle → Handle} (prompt : b.PromptAt h)
    (change : k = h → ∀ s, b.handles[h]? = some s → s.Prompt → (f s).Prompt) :
    (b.modify k f).PromptAt h := by
  intro s known
  rcases getElem?_modify_cases known with ⟨same, before, known', rfl⟩ | ⟨-, same⟩
  · have there := same ▸ known'
    exact change same before there (prompt before there)
  · exact prompt s same

theorem promptAt_accept {k : HandleId} {t : Transfer} {c : Completion} (prompt : b.PromptAt h) :
    (b.accept k t c).PromptAt h :=
  promptAt_modify (f := (·.taking c)) prompt fun _ _ _ one waits => Handle.isQuiet_taking (one waits)

theorem promptAt_submit {job : Job} (prompt : b.PromptAt h) : (b.submit job).PromptAt h := prompt

/-- The code of a client has no close wait on a quiet handle. -/
theorem Move.promptAt (entry : Move b after) (prompt : b.PromptAt h) : after.PromptAt h := by
  cases entry with
  | accept admits fits plain => exact promptAt_submit (promptAt_accept prompt)
  | close admits quiet =>
    apply promptAt_modify (promptAt_accept prompt)
    intro _ s _ one
    exact one
  | @closeLater k s handler admits busy =>
    apply promptAt_modify (promptAt_accept (t := .close) (c := .close handler) prompt)
    -- a close counts for nothing, so the handle is as busy as it was
    rintro rfl s' known' _ _
    obtain rfl := Option.some.inj ((handle_accept admits).symm.trans known')
    exact busy
  | @«open» new fresh =>
    intro s known
    rcases getElem?_append_cases known with old | ⟨-, rfl⟩
    · exact prompt s old
    · intro waits
      rw [fresh.2.2.2] at waits
      cases waits
  | call | post | shutDown => exact prompt

theorem Moves.promptAt (entries : Moves b after) (prompt : b.PromptAt h) : after.PromptAt h := by
  induction entries with
  | refl => exact prompt
  | tail _ last ih => exact last.promptAt ih

theorem promptAt_opening {rest : Queue Task} {owner : ContextId} {job : Job} {outcome : Outcome}
    (prompt : b.PromptAt h) (other : job.handle ≠ h) :
    (b.opening rest owner job outcome).PromptAt h :=
  promptAt_modify (f := (·.releasing job.completion)) (b := { b with tasks := rest }) prompt
    fun own => absurd own other

/-- A close that waited on a handle which is quiet has been queued. -/
theorem promptAt_closeIfQuiet (coherent : b.Coherent) : (b.closeIfQuiet h).PromptAt h := by
  intro s known waits
  rcases closeIfQuiet_cases b h with ⟨same, settled⟩ | ⟨before, job, known', -, -, same⟩
  · rw [same] at known
    by_cases opened : s.closed = false
    · exact (coherent s (List.mem_of_getElem? known)).prompt_of_open opened waits
    · by_cases busy : s.isQuiet = false
      · exact busy
      · rw [settled s known (eq_true_of_ne_false opened) (eq_true_of_ne_false busy)] at waits
        cases waits
  · rw [same] at known
    rcases getElem?_modify_cases known with ⟨-, _, -, rfl⟩ | ⟨other, -⟩
    · cases waits
    · exact absurd rfl other

/-- Nothing is done to the other handles. -/
theorem promptAt_closeIfQuiet_ne {k : HandleId} (prompt : b.PromptAt h) (other : k ≠ h) :
    (b.closeIfQuiet k).PromptAt h := by
  rcases closeIfQuiet_cases b k with ⟨same, -⟩ | ⟨before, job, -, -, -, same⟩
  · rw [same]
    exact prompt
  · rw [same]
    exact promptAt_submit (promptAt_modify prompt fun own => absurd own other)

/-- No close waits on a quiet handle, but for one whose delivery a panic has broken off. -/
theorem Turn.promptAt (turn : Turn mode b after) (coherent : b.Coherent)
    (prompt : b.PromptAt h) : after.PromptAt h ∨
      ∃ job outcome, job.handle = h ∧ after.completed = (job, outcome) :: b.completed ∧
        (mode = .calm → ∃ s, after.handles[h]? = some s ∧ s.closed = false) := by
  cases turn with
  | move entry => exact .inl (entry.promptAt prompt)
  | @deliver middle job outcome rest s next known entries =>
    left
    by_cases own : job.handle = h
    · rw [own]
      exact promptAt_closeIfQuiet (entries.coherent (coherent_opening coherent))
    · exact promptAt_closeIfQuiet_ne (entries.promptAt (promptAt_opening prompt own)) own
  | @breakOff _ job outcome rest s next known entries calm =>
    by_cases own : job.handle = h
    · exact .inr ⟨job, outcome, own, entries.sameWork.completed, fun isCalm => own ▸ calm isCalm⟩
    · exact .inl (entries.promptAt (promptAt_opening prompt own))
  | switch | begin | take | answer | finish => exact .inl prompt

/-- No close waits on a quiet handle, other than the one that something is delivered on. -/
def Prompt (b : Books) (delivering : Option HandleId) : Prop :=
  ∀ (h : HandleId) (s : Handle), b.handles[h]? = some s → delivering ≠ some h → s.Prompt

/-- In a calm run no close waits longer than it has to. -/
theorem Turn.prompt (turn : Turn .calm b after) (coherent : b.Coherent)
    (prompt : b.Prompt none) : after.Prompt none := by
  intro h s known _
  have before : b.PromptAt h := fun s known => prompt h s known fun none => by cases none
  rcases turn.promptAt coherent before with kept | ⟨job, outcome, -, -, opened⟩
  · exact kept s known
  · -- the delivery did not come to its end, but the handle is open, and no close waits on it
    obtain ⟨s', known', isOpen⟩ := opened rfl
    obtain rfl := Option.some.inj (known'.symm.trans known)
    exact (turn.coherent coherent s' (List.mem_of_getElem? known')).prompt_of_open isOpen

end Books

end PinnedFile
