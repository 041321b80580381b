/-
  PinnedFile.Proofs.NativeClose

  The native file of a handle is closed at most once, on behalf of an accepted close, and
  no other native call of the handle is under way then or is ever made afterwards.

  A native close has begun when it is made by a worker or has returned.  It can begin only
  when nothing that counts is left on the handle, and what counts for nothing makes no call.
  So a closed handle on which no close waits has its native work behind it, and since it
  accepts nothing, that stays so.
-/

import PinnedFile.Proofs.Books.Sound

namespace PinnedFile

namespace Books

variable {mode : Mode} {b after : Books} {loose : List Job} {h : HandleId} {s : Handle}
  {job : Job}

/-! ## Native closes -/

/-- The native closes of a handle that have returned. -/
def closesDone (b : Books) (h : HandleId) : List Exchange :=
  b.exchanges.filter fun e => e.handle = h ∧ e.call = .close

/-- The native closes of a handle that workers are making. -/
def closesRunning (b : Books) (h : HandleId) : List Job :=
  b.running.filter fun job => job.handle = h ∧ job.transfer.call? = some .close

/-- The native calls of a handle that have returned, other than closes. -/
def otherCalls (b : Books) (h : HandleId) : List Exchange :=
  b.exchanges.filter fun e => e.handle = h ∧ e.call ≠ .close

/-- A native close of a handle is under way or over. -/
def Begun (b : Books) (h : HandleId) : Prop := b.closesDone h ≠ [] ∨ b.closesRunning h ≠ []

/-- A native close that has returned was made for an accepted close, and is all that was
    made for it. -/
theorem Traced.of_closesDone (traced : b.Traced) {e : Exchange}
    (listed : e ∈ b.closesDone h) :
    ∃ a ∈ b.accepted, a.Closes ∧ a.handle = h ∧ b.exchangesOf a.id = [e] := by
  rw [closesDone, List.mem_filter, decide_eq_true_iff] at listed
  obtain ⟨listed, same, closes⟩ := listed
  obtain ⟨a, accepted, number, handle⟩ := traced.exchanged e listed
  obtain ⟨r, made⟩ := traced.made a accepted
  have own : e ∈ b.exchangesOf a.id :=
    List.mem_filter.mpr ⟨listed, decide_eq_true number.symm⟩
  obtain ⟨transfer, alone⟩ := made.of_close own closes
  exact ⟨a, accepted, (traced.fits a accepted).close_iff.mp transfer, handle.trans same, alone⟩

/-- A worker makes a native close for an accepted close, as the first call that is made for
    it. -/
theorem Traced.of_closesRunning (traced : b.Traced) (listed : job ∈ b.closesRunning h) :
    job ∈ b.running ∧
      ∃ a ∈ b.accepted, a.Closes ∧ a.handle = h ∧ a.id = job.id ∧ b.exchangesOf a.id = [] := by
  rw [closesRunning, List.mem_filter, decide_eq_true_iff] at listed
  obtain ⟨running, same, makes⟩ := listed
  obtain ⟨a, accepted, ticket, made⟩ :=
    traced.underway job (underway_of_running running)
  rw [Transfer.call?_eq_close_iff.mp makes] at made
  obtain ⟨transfer, untouched⟩ := made.eq_close
  exact ⟨running, a, accepted, (traced.fits a accepted).close_iff.mp transfer,
    (congrArg Ticket.handle ticket).trans same, congrArg Ticket.id ticket, untouched⟩

/-- The native closes of a handle that have returned were made for its one close. -/
theorem Sound.length_closesDone_le (sound : Sound mode b) {a : Job} (accepted : a ∈ b.accepted)
    (closes : a.Closes) (handle : a.handle = h) :
    (b.closesDone h).length ≤ (b.exchangesOf a.id).length := by
  have own : ∀ e ∈ b.closesDone h, decide (e.operation = a.id) = true := by
    intro e listed
    obtain ⟨a', accepted', closes', handle', alone⟩ := sound.traced.of_closesDone listed
    obtain rfl := sound.closing.once a accepted a' accepted' closes closes'
      (handle.trans handle'.symm)
    have there : e ∈ b.exchangesOf a.id := by
      rw [alone]
      exact List.mem_cons_self
    exact (List.mem_filter.mp there).2
  rw [← List.filter_eq_self.mpr own, closesDone, List.filter_comm]
  exact List.length_filter_le _ _

/-- The native file of a handle is closed at most once. -/
theorem Sound.closes_le_one (sound : Sound mode b) (h : HandleId) :
    (b.closesDone h).length + (b.closesRunning h).length ≤ 1 := by
  obtain ⟨loose, accounted, -⟩ := sound.accounted
  rcases running : b.closesRunning h with _ | ⟨job, rest⟩
  · rcases done : b.closesDone h with _ | ⟨e, rest⟩
    · exact Nat.zero_le 1
    · -- all that have returned are calls of one close, and that makes only one
      obtain ⟨a, accepted, closes, handle, alone⟩ :=
        sound.traced.of_closesDone (e := e) (by rw [done]; exact List.mem_cons_self)
      have least := sound.length_closesDone_le accepted closes handle
      rw [alone, done] at least
      exact least
  · -- while one is made none has returned, and two jobs under way have different numbers
    obtain ⟨-, a, accepted, closes, handle, -, untouched⟩ :=
      sound.traced.of_closesRunning (by rw [running]; exact List.mem_cons_self)
    have least := sound.length_closesDone_le accepted closes handle
    rw [untouched] at least
    have apart : ((b.closesRunning h).map Job.id).Nodup :=
      accounted.running_nodup.sublist (List.filter_sublist.map _)
    have single : (b.closesRunning h).length ≤ 1 := by
      apply length_le_one apart (k := a.id)
      intro other there
      obtain ⟨-, a', accepted', closes', handle', number, -⟩ := sound.traced.of_closesRunning there
      rw [← number, sound.closing.once a accepted a' accepted' closes closes'
        (handle.trans handle'.symm)]
    rw [← running]
    exact Nat.add_le_add least single

/-! ## When a native close has begun -/

/-- The close that a native close was begun for does not wait any more. -/
theorem Sound.of_begun (sound : Sound mode b) (begun : b.Begun h) :
    ∃ a ∈ b.accepted, a.Closes ∧ a.handle = h ∧
      ∀ waiting ∈ b.handles.filterMap Handle.pendingClose, waiting.handle ≠ h := by
  obtain ⟨loose, accounted, -⟩ := sound.accounted
  -- a close that waits has no call made for it, and it is with no worker
  have started : ∃ a ∈ b.accepted, a.Closes ∧ a.handle = h ∧
      (b.exchangesOf a.id ≠ [] ∨ a.id ∈ b.running.map Job.id) := by
    rcases begun with done | running
    · obtain ⟨e, listed⟩ := List.exists_mem_of_ne_nil _ done
      obtain ⟨a, accepted, closes, handle, alone⟩ := sound.traced.of_closesDone listed
      exact ⟨a, accepted, closes, handle, .inl (by rw [alone]; exact List.cons_ne_nil _ _)⟩
    · obtain ⟨job, listed⟩ := List.exists_mem_of_ne_nil _ running
      obtain ⟨there, a, accepted, closes, handle, number, -⟩ :=
        sound.traced.of_closesRunning listed
      exact ⟨a, accepted, closes, handle, .inr (number ▸ List.mem_map_of_mem there)⟩
  obtain ⟨a, accepted, closes, handle, isStarted⟩ := started
  refine ⟨a, accepted, closes, handle, fun waiting listed same => ?_⟩
  obtain ⟨s, there, waits⟩ := List.mem_filterMap.mp listed
  obtain ⟨k, known⟩ := List.mem_iff_getElem?.mp there
  have transfer := (sound.closing.waiting k s waiting known waits).untouched
  obtain ⟨a', accepted', ticket, made⟩ :=
    sound.traced.underway waiting (underway_of_waiting there waits)
  rw [transfer] at made
  obtain ⟨transfer', untouched⟩ := made.eq_close
  have closes' : a'.Closes := (sound.traced.fits a' accepted').close_iff.mp transfer'
  have handle' : a'.handle = waiting.handle := congrArg Ticket.handle ticket
  obtain rfl := sound.closing.once a accepted a' accepted' closes closes'
    (handle.trans (handle'.trans same).symm)
  rcases isStarted with called | running
  · exact called untouched
  · have number : a.id = waiting.id := congrArg Ticket.id ticket
    rw [number] at running
    refine accounted.ne_waiting ?_ listed rfl
    rw [List.map_append, List.map_append]
    exact List.mem_append_left _ (List.mem_append_right _ running)

/-- Once a native close has begun the handle is closed and quiet. -/
theorem Sound.quiet_of_begun (sound : Sound mode b) (begun : b.Begun h) :
    ∃ s, b.handles[h]? = some s ∧ s.closed = true ∧ s.isQuiet = true := by
  obtain ⟨a, accepted, closes, rfl, notWaiting⟩ := sound.of_begun begun
  obtain ⟨s, known⟩ := sound.known a accepted
  have closed := sound.closing.closed a accepted closes s known
  -- a closed handle that is busy has its close wait, but this one has begun
  refine ⟨s, known, closed, ?_⟩
  by_contra busy
  have listed := List.mem_of_getElem? known
  have waits := (sound.coherent s listed).busy closed (eq_false_of_ne_true busy)
  obtain ⟨waiting, there⟩ := Option.isSome_iff_exists.mp waits
  apply notWaiting waiting (List.mem_filterMap.mpr ⟨s, listed, there⟩)
  exact (sound.closing.waiting a.handle s waiting known there).handle

/-- Jobs on a quiet handle make no call but a close. -/
theorem Sound.call_of_quiet (sound : Sound mode b) (known : b.handles[job.handle]? = some s)
    (quiet : s.isQuiet = true) (there : job ∈ b.underway) {call : Call}
    (makes : job.transfer.call? = some call) : call = .close := by
  obtain ⟨loose, accounted, -⟩ := sound.accounted
  have bytes := (sound.counted .bytes).load_le accounted known there
  have operations := (sound.counted .operations).load_le accounted known there
  have counts : s.outstanding = 0 ∧ s.inFlight = 0 := by simpa [Handle.isQuiet] using quiet
  obtain ⟨a, accepted, ticket, made⟩ := sound.traced.underway job there
  have completion : a.completion = job.completion := congrArg Ticket.completion ticket
  have fits := sound.traced.fits a accepted
  rw [completion] at fits
  -- the job counts for nothing, so it is a close or a write of no bytes, which makes no call
  rcases fits.of_no_load (Nat.le_zero.mp (counts.1 ▸ bytes))
    (Nat.le_zero.mp (counts.2 ▸ operations)) with closes | idle
  · rw [closes] at made
    exact made.call_of_close makes
  · obtain ⟨-, same⟩ := made.of_call?_eq_none idle
    rw [Option.some.inj same, idle] at makes
    cases makes

theorem Sound.call_of_begun (sound : Sound mode b) (begun : b.Begun h)
    (running : job ∈ b.running) (handle : job.handle = h) {call : Call}
    (makes : job.transfer.call? = some call) : call = .close := by
  obtain ⟨s, known, -, quiet⟩ := sound.quiet_of_begun begun
  rw [← handle] at known
  exact sound.call_of_quiet known quiet (underway_of_running running) makes

/-! ## From then on -/

/-- In a turn the call of one job returns, or none does. -/
theorem Turn.natives (turn : Turn mode b after) (accounted : b.Accounted loose) :
    (after.exchanges = b.exchanges ∧
      ∀ job ∈ b.running, job.transfer.call? ≠ none → job ∈ after.running) ∨
    ∃ job call a, job ∈ b.running ∧ job.transfer.call? = some call ∧
      after.exchanges = ⟨job.id, job.handle, call, a⟩ :: b.exchanges ∧
      ∀ other ∈ b.running, other ≠ job → other ∈ after.running := by
  -- taking one job off takes off no other, for their numbers differ
  have stays (job other : Job) (running : job ∈ b.running) (there : other ∈ b.running)
      (differs : other ≠ job) : other ∈ (b.withoutJob job).running := by
    apply (List.mem_eraseP_of_neg ?_).mpr there
    intro same
    exact differs (List.inj_on_of_nodup_map accounted.running_nodup there running
      (of_decide_eq_true same))
  cases turn with
  | move entry =>
    have same := entry.sameWork
    exact .inl ⟨same.exchanges, fun _ running _ => same.running ▸ running⟩
  | @deliver middle job outcome rest s next known entries =>
    have same := entries.sameWork.trans (sameWork_closeIfQuiet middle job.handle)
    exact .inl ⟨same.exchanges, fun _ running _ => same.running ▸ running⟩
  | breakOff next known entries calm =>
    have same := entries.sameWork
    exact .inl ⟨same.exchanges, fun _ running _ => same.running ▸ running⟩
  | switch | begin => exact .inl ⟨rfl, fun _ running _ => running⟩
  | take => exact .inl ⟨rfl, fun _ running _ => List.mem_append_left _ running⟩
  | @answer job call a running makes calm =>
    refine .inr ⟨job, call, a, running, makes, rfl, fun other there differs => ?_⟩
    exact List.mem_append_left _ (stays job other running there differs)
  | @finish job outcome running ended =>
    refine .inl ⟨rfl, fun other there makes => stays job other running there ?_⟩
    rintro rfl
    exact makes ((Transfer.call?_eq_none_iff _).mpr ⟨outcome, ended⟩)

/-- A native close that has begun stays begun, and no other call of the handle returns. -/
theorem Turn.begun (turn : Turn mode b after) (sound : Sound mode b) (begun : b.Begun h) :
    after.Begun h ∧ after.otherCalls h = b.otherCalls h := by
  obtain ⟨loose, accounted, -⟩ := sound.accounted
  rcases turn.natives accounted with
    ⟨same, stays⟩ | ⟨job, call, a, running, makes, entered, stays⟩
  · refine ⟨?_, by rw [otherCalls, otherCalls, same]⟩
    rcases begun with done | making
    · left
      rwa [closesDone, same]
    · right
      obtain ⟨job, listed⟩ := List.exists_mem_of_ne_nil _ making
      obtain ⟨running, isClose⟩ := List.mem_filter.mp listed
      have makes : job.transfer.call? ≠ none := by
        rw [(of_decide_eq_true isClose).2]
        exact Option.some_ne_none _
      exact List.ne_nil_of_mem (List.mem_filter.mpr ⟨stays job running makes, isClose⟩)
  · constructor
    · rcases begun with done | making
      · left
        obtain ⟨e, listed⟩ := List.exists_mem_of_ne_nil _ done
        obtain ⟨there, isClose⟩ := List.mem_filter.mp listed
        apply List.ne_nil_of_mem (a := e)
        rw [closesDone, entered]
        exact List.mem_filter.mpr ⟨List.mem_cons_of_mem _ there, isClose⟩
      · obtain ⟨other, listed⟩ := List.exists_mem_of_ne_nil _ making
        obtain ⟨there, isClose⟩ := List.mem_filter.mp listed
        by_cases answered : other = job
        · left
          obtain ⟨handle, closes⟩ := of_decide_eq_true isClose
          rw [answered] at handle closes
          apply List.ne_nil_of_mem (a := ⟨job.id, job.handle, call, a⟩)
          rw [closesDone, entered]
          refine List.mem_filter.mpr ⟨List.mem_cons_self, decide_eq_true ⟨handle, ?_⟩⟩
          exact Option.some.inj (makes.symm.trans closes)
        · right
          exact List.ne_nil_of_mem (List.mem_filter.mpr ⟨stays other there answered, isClose⟩)
    · -- the call that returned is no other than the close
      rw [otherCalls, entered, List.filter_cons_of_neg, otherCalls]
      intro other
      obtain ⟨handle, differs⟩ := of_decide_eq_true other
      exact differs (sound.call_of_begun begun running handle makes)

theorem Turns.begun (turns : Turns mode b after) (sound : Sound mode b) (begun : b.Begun h) :
    after.Begun h ∧ after.otherCalls h = b.otherCalls h := by
  induction turns with
  | refl => exact ⟨begun, rfl⟩
  | tail before last ih =>
    obtain ⟨begunNow, same⟩ := last.begun (Turns.sound before sound) ih.1
    exact ⟨begunNow, same.trans ih.2⟩

end Books

namespace World

/-- The number of native closes of a handle that workers have made or are making. -/
def nativeCloses (w : World) (h : HandleId) : Nat :=
  (w.books.closesDone h).length + (w.books.closesRunning h).length

/-- The native calls of a handle that have returned, other than closes. -/
def otherCalls (w : World) (h : HandleId) : List Exchange := w.books.otherCalls h

theorem begun_of_nativeCloses {w : World} {h : HandleId} (some : 0 < w.nativeCloses h) :
    w.books.Begun h := by
  rcases done : w.books.closesDone h with _ | ⟨e, rest⟩
  · rw [nativeCloses, done, List.length_nil, Nat.zero_add, List.length_pos_iff] at some
    exact .inr some
  · exact .inl (by rw [done]; exact List.cons_ne_nil _ _)

end World

variable {mode : Mode} {w after : World} {h : HandleId}

/-- What has begun stays begun in all steps that follow. -/
theorem Steps.begun (steps : Steps mode w after) (reached : Reachable mode w)
    (begun : w.books.Begun h) : after.books.Begun h ∧ after.otherCalls h = w.otherCalls h := by
  induction steps with
  | refl => exact ⟨begun, rfl⟩
  | tail before last ih =>
    have sound := (reached.steps before).sound
    obtain ⟨begunNow, same⟩ := (last.turns_of_sound sound).begun sound ih.1
    exact ⟨begunNow, same.trans ih.2⟩

/-- In any run the native file of a handle is closed at most once, and only after a close of
    the handle was accepted.  From the moment at which the native close is made, no other
    native call of the handle is under way, and none returns ever after. -/
theorem native_close_is_last (reached : Reachable mode w) (h : HandleId) :
    w.nativeCloses h ≤ 1 ∧
    (0 < w.nativeCloses h →
      (∃ a ∈ w.accepted, a.handle = h ∧ a.completion.operation = .close) ∧
      ∀ after, Steps mode w after →
        (∀ job ∈ after.running, job.handle = h →
          ∀ call, job.transfer.call? = some call → call = .close) ∧
        after.otherCalls h = w.otherCalls h) := by
  refine ⟨reached.sound.closes_le_one h, fun some => ?_⟩
  have begun := World.begun_of_nativeCloses some
  obtain ⟨a, accepted, closes, handle, -⟩ := reached.sound.of_begun begun
  refine ⟨⟨a, accepted, handle, closes⟩, fun after steps => ?_⟩
  obtain ⟨begunNow, same⟩ := Steps.begun steps reached begun
  refine ⟨fun job running handle call makes => ?_, same⟩
  exact (reached.steps steps).sound.call_of_begun begunNow running handle makes

/-- A run in which a close waits for a write that is cut short, until a worker makes it. -/
def closingRun : Option World :=
  (World.start 2 ⟨[], []⟩).follow
    [.body 0 [
      .openFile 0 { write := true } .log (.memory (.bytes []) none {}),
      .write 0 (.bytes [7, 8, 9]) 0 ⟨"written", [], []⟩,
      .close 0 (some ⟨"closed", [], []⟩)],
    .take, .answer 0 (.moved 1 []), .answer 0 (.moved 2 []), .finish 0, .task, .take]

theorem native_close_after_short_write : ∃ w, closingRun = some w ∧ w.nativeCloses 0 = 1 ∧
    (w.otherCalls 0).length = 2 ∧ ∀ after, Steps .any w after →
      (∀ job ∈ after.running, job.handle = 0 →
        ∀ call, job.transfer.call? = some call → call = .close) ∧
      after.otherCalls 0 = w.otherCalls 0 := by
  have counts : (closingRun.map fun w => (w.nativeCloses 0, (w.otherCalls 0).length)) =
      some (1, 2) := by decide +kernel
  obtain ⟨w, run, known⟩ := Option.map_eq_some_iff.mp counts
  obtain ⟨closes, others⟩ := Prod.mk.inj known
  have reached : Reachable .any w := World.reachable_of_follow run
  refine ⟨w, run, closes, others, ?_⟩
  exact ((native_close_is_last reached 0).2 (by rw [closes]; exact Nat.one_pos)).2

end PinnedFile
