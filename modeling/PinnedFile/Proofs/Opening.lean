/-
  PinnedFile.Proofs.Opening

  What opening is refused for, and in which order.

  There are two ways to a handle: a path is opened, or a backend that is there already is taken.
  Both look for the same faults in the same order before they do anything: no access, nothing to
  read into, nobody to belong to.  A path is then refused for malformed permissions as well, and
  a backend is not.  A refusal leaves the whole world as it is, its files and handles included.
-/

import PinnedFile.Proofs.Permissions
import PinnedFile.Proofs.Registrations
import PinnedFile.Proofs.Streams.Changes

namespace PinnedFile

open Run

namespace OpenOptions

/-- What opening is refused for, whatever is opened: the first of these. -/
def faults (o : OpenOptions) (current : Option ContextId) : List FileError :=
  (if o.read || o.write then [] else [.invalidArgument .noAccess])
    ++ (if 0 < o.readBufferSize then [] else [.invalidArgument .emptyReadBuffer])
    ++ (if current.isSome then [] else [.wrongContext none none])

/-- The permissions of a created file are a form, if the options name any. -/
def HasForm (o : OpenOptions) : Prop :=
  ∀ text, o.perms = some text → Permissions.IsForm text.toUTF8.toList

variable {o : OpenOptions} {current : Option ContextId} {e : FileError}

theorem owner_of_fault (first : (o.faults current).head? = some e) :
    o.owner current = .error e := by
  rcases o with ⟨read, write, create, sync, perms, size, most⟩
  rcases current with _ | context <;> rcases read with _ | _ <;> rcases write with _ | _ <;>
    rcases size with _ | size <;> simp_all [faults, owner, validate]

theorem owner_of_no_fault (none : o.faults current = []) :
    ∃ context, current = some context ∧ o.owner current = .ok context := by
  rcases o with ⟨read, write, create, sync, perms, size, most⟩
  rcases current with _ | context <;> rcases read with _ | _ <;> rcases write with _ | _ <;>
    rcases size with _ | size <;> simp_all [faults, owner, validate]

theorem mode_of_misfit {text : String} {misuse : Misuse} (named : o.perms = some text)
    (refused : Permissions.parse text = .error misuse) :
    o.mode = .error (.invalidArgument misuse) := by
  rw [mode, named]
  dsimp only
  rw [refused]

theorem HasForm.exists_mode (form : o.HasForm) : ∃ mode, o.mode = .ok mode := by
  rw [OpenOptions.mode]
  rcases named : o.perms with _ | text
  · exact ⟨_, rfl⟩
  · obtain ⟨mode, read⟩ := Permissions.exists_parse_iff.mpr (form text named)
    dsimp only
    rw [read]
    exact ⟨mode, rfl⟩

end OpenOptions

/-! ## What opening makes -/

/-- One handle more was opened: the last one, which the slot holds.  It is open, belongs to the
    context of the running code and has the sizes that were asked for. -/
structure World.HasOpened (w : World) (f : Slot) (options : OpenOptions) (after : World) :
    Prop where
  slot : (after.slot f).handle = some w.handles.length
  length : after.handles.length = w.handles.length + 1
  handle : ∃ s, after.handles[w.handles.length]? = some s ∧ w.context = some s.owner ∧
    s.closed = false ∧ s.readChunk = options.readBufferSize ∧
    s.queueMax = options.writeQueueMaxSize

section Opening

variable {w v after : World} {f : Slot} {options : OpenOptions} {sink : Sink} {path : Bytes}
  {e : FileError} {owner : ContextId} {source : Source} {received : Bytes}

theorem World.slots_sweep : w.sweep.slots = w.slots :=
  sweep_induct (P := fun v => v.slots = w.slots) rfl fun _ same => same

theorem World.hasOpened_addHandle {backend : BackendId} {native : Option BackendId}
    (handles : v.handles = w.handles) (here : w.context = some owner) :
    w.HasOpened f options (v.addHandle f owner options sink path backend native) := by
  have slot : ((v.addHandle f owner options sink path backend native).slot f).handle =
      some w.handles.length := by
    rw [World.slot, addHandle, setSlot, slots_sweep, lookup_replaceSlot, if_pos rfl, handles]
    rfl
  refine ⟨slot, ?_, ?_⟩
  · rw [addHandle, setSlot, sweep, length_rounds, ← handles]
    exact List.length_append
  · -- the slot refers to the new handle, so the sweep leaves it alone
    have live := isLive_iff.mpr (refers_of_slot slot)
    let s : Handle :=
      { owner, backend, sink, path
        readChunk := options.readBufferSize
        queueMax := options.writeQueueMaxSize }
    have last : (v.handles ++ [s])[w.handles.length]? = some s := by
      rw [← handles]
      exact List.getElem?_concat_length
    exact ⟨s, (handles_sweep_of_live live).trans last, here, rfl, rfl, rfl⟩

/-! ## The two ways -/

/-- A source is a backend that is there: a new memory file, or one that something refers to. -/
def Source.IsBackend (w : World) : Source → Prop
  | .memory .. => True
  | .shared g => ∃ b label m, w.memory? g = some (b, label, m) ∧ w.isHeld b = true
  | .path _ => False

theorem openBackend_of_fault {backend : BackendId}
    (first : (options.faults w.context).head? = some e) :
    w.openBackend f options sink backend = .error e := by
  rw [World.openBackend, OpenOptions.owner_of_fault first]
  rfl

/-- Taking a backend is making one request, in a world that has it. -/
theorem exec_openFile_of_isBackend (there : source.IsBackend w) (f : Slot)
    (options : OpenOptions) (sink : Sink) (received : Bytes) :
    ∃ (v : World) (b : BackendId), v.handles = w.handles ∧ v.context = w.context ∧
      (∀ e, v.openBackend f options sink b = .error e →
        exec ((Command.openFile f options sink source).run received) w =
          (.ok (.result (.error e)), w)) ∧
      ∀ after, v.openBackend f options sink b = .ok after →
        exec ((Command.openFile f options sink source).run received) w =
          (.ok (.result (.ok ())), after) := by
  cases source with
  | memory data most directives =>
    let m : Memory := { data := data.resolve received, max := most, directives }
    exact ⟨{ w with backends := w.backends ++ [.memory f m] }, w.backends.length, rfl, rfl,
      fun e refused => exec_ask_error (f := (·.openMemory f options sink m)) refused,
      fun after accepted => exec_ask_ok (f := (·.openMemory f options sink m)) accepted⟩
  | shared g =>
    obtain ⟨b, label, m, named, held⟩ := there
    have taken : exec ((Command.openFile f options sink (.shared g)).run received) w =
        exec (ask (·.openBackend f options sink b)) w := by
      rw [Command.run, Run.openFile, exec_get_bind, named]
      dsimp only
      rw [exec_get_bind, if_pos held]
    rw [taken]
    exact ⟨w, b, rfl, rfl, fun e refused => exec_ask_error refused,
      fun after accepted => exec_ask_ok accepted⟩
  | path => cases there

/-- A backend that is there is taken unless there is a fault. -/
theorem exec_openFile_of_backend (there : source.IsBackend w) (f : Slot)
    (options : OpenOptions) (sink : Sink) (received : Bytes) :
    (∀ e, (options.faults w.context).head? = some e →
      exec ((Command.openFile f options sink source).run received) w =
        (.ok (.result (.error e)), w)) ∧
    (options.faults w.context = [] → ∃ after,
      exec ((Command.openFile f options sink source).run received) w =
        (.ok (.result (.ok ())), after) ∧ w.HasOpened f options after) := by
  obtain ⟨v, b, handles, context, refused, accepted⟩ :=
    exec_openFile_of_isBackend there f options sink received
  rw [← context]
  constructor
  · intro e first
    exact refused e (openBackend_of_fault first)
  · intro none
    obtain ⟨owner, here, owned⟩ := OpenOptions.owner_of_no_fault none
    have taken : v.openBackend f options sink b =
        .ok (v.addHandle f owner options sink [] b (some b)) := by
      rw [World.openBackend, owned]
      rfl
    exact ⟨_, accepted _ taken, World.hasOpened_addHandle handles (context ▸ here)⟩

/-- A path is refused for a fault, and then for permissions that are no form; otherwise it is opened
    or cannot be. -/
theorem exec_openFile_path (w : World) (f : Slot) (options : OpenOptions) (sink : Sink)
    (path received : Bytes) :
    (∀ e, (options.faults w.context).head? = some e →
      exec ((Command.openFile f options sink (.path path)).run received) w =
        (.ok (.result (.error e)), w)) ∧
    (options.faults w.context = [] →
      (∀ text, options.perms = some text → ¬ Permissions.IsForm text.toUTF8.toList →
        ∃ misuse, Permissions.parse text = .error misuse ∧
          exec ((Command.openFile f options sink (.path path)).run received) w =
            (.ok (.result (.error (.invalidArgument misuse))), w)) ∧
      (options.HasForm →
        (∃ after, exec ((Command.openFile f options sink (.path path)).run received) w =
            (.ok (.result (.ok ())), after) ∧ w.HasOpened f options after) ∨
        ∃ error, exec ((Command.openFile f options sink (.path path)).run received) w =
          (.ok (.result (.error (.openFailure path error))), w))) := by
  refine ⟨fun e first => exec_ask_error ?_, fun none => ?_⟩
  · rw [World.openPath, OpenOptions.owner_of_fault first]
  obtain ⟨owner, here, owned⟩ := OpenOptions.owner_of_no_fault none
  -- permissions come last, and before the file
  constructor
  · intro text named noForm
    rcases read : Permissions.parse text with misuse | mode
    · refine ⟨misuse, rfl, exec_ask_error ?_⟩
      rw [World.openPath, owned]
      dsimp only
      rw [OpenOptions.mode_of_misfit named read]
    · exact absurd (Permissions.form_of_parse read).1 noForm
  · intro form
    obtain ⟨mode, allowed⟩ := form.exists_mode
    rcases opens : w.files.openPath path options.read options.write options.create mode with
      error | ⟨descriptor, files⟩
    · exact .inr ⟨error, exec_ask_error (World.openPath_error owned allowed opens)⟩
    · exact .inl ⟨_, exec_ask_ok (World.openPath_ok owned allowed opens),
        World.hasOpened_addHandle rfl here⟩

/-- Both ways to a handle, in any world and with any options.  If there is a fault both are refused
    for the first one, and nothing has changed.  If there is none, a backend is taken, and has its
    handle; a path is refused for permissions that are no form, and nothing has changed then, and
    otherwise it is opened and has its handle, or cannot be opened. -/
theorem open_ways_differ_in_permissions_only (there : source.IsBackend w) (f : Slot)
    (options : OpenOptions) (sink : Sink) (path received : Bytes) :
    (∀ e, (options.faults w.context).head? = some e →
      exec ((Command.openFile f options sink source).run received) w =
        (.ok (.result (.error e)), w) ∧
      exec ((Command.openFile f options sink (.path path)).run received) w =
        (.ok (.result (.error e)), w)) ∧
    (options.faults w.context = [] →
      (∃ after, exec ((Command.openFile f options sink source).run received) w =
        (.ok (.result (.ok ())), after) ∧ w.HasOpened f options after) ∧
      (∀ text, options.perms = some text → ¬ Permissions.IsForm text.toUTF8.toList →
        ∃ misuse, Permissions.parse text = .error misuse ∧
          exec ((Command.openFile f options sink (.path path)).run received) w =
            (.ok (.result (.error (.invalidArgument misuse))), w)) ∧
      (options.HasForm →
        (∃ after, exec ((Command.openFile f options sink (.path path)).run received) w =
            (.ok (.result (.ok ())), after) ∧ w.HasOpened f options after) ∨
        ∃ error, exec ((Command.openFile f options sink (.path path)).run received) w =
          (.ok (.result (.error (.openFailure path error))), w))) := by
  obtain ⟨refused, taken⟩ := exec_openFile_of_backend there f options sink received
  obtain ⟨refused', opened⟩ := exec_openFile_path w f options sink path received
  exact ⟨fun e first => ⟨refused e first, refused' e first⟩, fun none => ⟨taken none, opened none⟩⟩

/-- A world in which a task has just begun, on the first context. -/
def beginningWorld : World := (World.start 1 FileTree.initial).entered ⟨0⟩ []

/-- Options for reading, with permissions of which the third letter is none. -/
def misspelledOptions : OpenOptions := { read := true, perms := some "rwz------" }

theorem no_faults_misspelled : misspelledOptions.faults beginningWorld.context = [] := by decide

theorem not_isForm_misspelled : ¬ Permissions.IsForm "rwz------".toUTF8.toList := fun form => by
  have stands := form.mayStand 2 122 (by decide +kernel)
  rw [Permissions.mayStand_iff] at stands
  revert stands
  decide

/-- Without access both ways are refused for that, whatever else is wrong; with malformed
    permissions and no other fault a backend is taken, and a path is not opened. -/
theorem fault_refuses_both_ways :
    (Source.memory (.bytes []) none {}).IsBackend beginningWorld ∧
    exec ((Command.openFile 0 { readBufferSize := 0 } .log (.memory (.bytes []) none {})).run [])
      beginningWorld = (.ok (.result (.error (.invalidArgument .noAccess))), beginningWorld) ∧
    exec ((Command.openFile 0 { readBufferSize := 0 } .log (.path [112])).run []) beginningWorld =
      (.ok (.result (.error (.invalidArgument .noAccess))), beginningWorld) ∧
    (∃ after, exec ((Command.openFile 0 misspelledOptions .log
        (.memory (.bytes []) none {})).run []) beginningWorld = (.ok (.result (.ok ())), after) ∧
      beginningWorld.HasOpened 0 misspelledOptions after) ∧
    ∃ misuse, exec ((Command.openFile 0 misspelledOptions .log (.path [112])).run [])
      beginningWorld = (.ok (.result (.error (.invalidArgument misuse))), beginningWorld) := by
  have there : (Source.memory (.bytes []) none {}).IsBackend beginningWorld := trivial
  obtain ⟨refused, -⟩ :=
    open_ways_differ_in_permissions_only there 0 { readBufferSize := 0 } .log [112] []
  obtain ⟨-, passed⟩ := open_ways_differ_in_permissions_only there 0 misspelledOptions .log [112] []
  obtain ⟨taken, malformed, -⟩ := passed no_faults_misspelled
  obtain ⟨native, byPath⟩ := refused (.invalidArgument .noAccess) rfl
  obtain ⟨misuse, -, refusal⟩ := malformed "rwz------" rfl not_isForm_misspelled
  exact ⟨there, native, byPath, taken, misuse, refusal⟩

/-- The same options take a backend and do not open a path: there is an invalid argument that only
    one of the two ways is refused for. -/
theorem misspelled_permissions_take_a_backend :
    ∃ after, exec ((Command.openFile 0 misspelledOptions .log
        (.memory (.bytes []) none {})).run []) beginningWorld = (.ok (.result (.ok ())), after) ∧
      exec ((Command.openFile 0 misspelledOptions .log (.path [112])).run []) beginningWorld =
        (.ok (.result (.error (.invalidArgument (.permissionLetter "rwz------" 122 2)))),
          beginningWorld) := by
  have there : (Source.memory (.bytes []) none {}).IsBackend beginningWorld := trivial
  obtain ⟨-, taken⟩ := exec_openFile_of_backend there 0 misspelledOptions .log []
  obtain ⟨after, taken, -⟩ := taken no_faults_misspelled
  obtain ⟨-, opened⟩ := exec_openFile_path beginningWorld 0 misspelledOptions .log [112] []
  obtain ⟨malformed, -⟩ := opened no_faults_misspelled
  obtain ⟨misuse, read, refused⟩ := malformed "rwz------" rfl not_isForm_misspelled
  have which : Permissions.parse "rwz------" = .error (.permissionLetter "rwz------" 122 2) := by
    rw [Permissions.parse, Text.toList_eq_toList_data]
    rfl
  obtain rfl := Except.error.inj (read.symm.trans which)
  exact ⟨after, taken, refused⟩

end Opening

end PinnedFile
