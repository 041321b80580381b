/-
  PinnedFile.Proofs.Copying.Files

  Calls on regular files that go well.

  Such a call moves a part of what it was asked to, not nothing unless a read finds the end
  of the file; or it is cut short by a signal.  A transfer whose calls go well neither fails
  nor panics, as long as its file is no longer than positions can tell.
-/

import PinnedFile.Copying
import PinnedFile.Proofs.Contents

namespace PinnedFile

/-- Nothing is found behind what is found. -/
theorem Bytes.window_length {b : Bytes} {p n : Nat} :
    b.window p (b.window p n).length = b.window p n := by
  rw [window, window, List.take_eq_take_iff, List.length_take]
  omega

/-! ## Calls -/

/-- A native call has returned, and if it has failed, it was cut short by a signal. -/
def Call.IsAnswered : Call → Answer → Prop
  | _, .moved _ _ => True
  | .read _ _, .failed e | .write _ _, .failed e => e.isInterrupted = true
  | _, _ => False

/-- A native call on a regular file that holds `contents` has gone well. -/
structure Call.GoesWell (contents : Bytes) (call : Call) (a : Answer) : Prop where
  reads : call.ReadsFrom contents a
  stores : call.StoresSome a
  answered : call.IsAnswered a

/-- The kind of a native call. -/
def Call.operation : Call → Operation
  | .read _ _ => .read
  | .write _ _ => .write
  | .sync => .flush
  | .close => .close

/-- A native call has gone well, on a file of which all places are positions if it is one
    that is read. -/
def Exchange.WentWell (x : Exchange) : Prop :=
  ∃ contents, x.call.GoesWell contents x.answer ∧
    (x.call.operation = .read → contents.length < Transfer.wordLimit)

/-- Only a write changes what a file holds. -/
theorem Call.storing_of_ne {call : Call} {a : Answer} {contents : Bytes}
    (other : call.operation ≠ .write) : call.storing a contents = contents := by
  cases call with
  | write => exact absurd rfl other
  | read | sync | close => rfl

namespace Transfer

variable {t u : Transfer} {call : Call} {a : Answer} {contents : Bytes} {calls : List Exchange}
  {operation : Operation} {limit most : Nat}

/-- A transfer that has not failed, for places up to `limit`, and if it is a read, for at most
    `most` bytes. -/
def IsWell (limit most : Nat) : Transfer → Prop
  | .write data position _ => position + data.length ≤ limit
  | .read position length filled _ => position ≤ limit ∧ filled ≤ length ∧ length ≤ most
  | .sync | .close => True
  | .ended outcome => ∃ bytes, outcome = .ok bytes

/-- All calls that a transfer makes from now on are of one kind. -/
def IsFor (operation : Operation) : Transfer → Prop
  | .write .. => operation = .write
  | .read .. => operation = .read
  | .sync => operation = .flush
  | .close => operation = .close
  | .ended _ => True

theorem IsFor.operation_of_call? (isFor : t.IsFor operation) (makes : t.call? = some call) :
    call.operation = operation := by
  cases t with
  | write | read =>
    simp only [call?] at makes
    split at makes
    · obtain rfl := Option.some.inj makes
      exact isFor.symm
    · cases makes
  | sync | close =>
    obtain rfl := Option.some.inj makes
    exact isFor.symm
  | ended => cases makes

/-- A read brings at most as many bytes as it asks for. -/
theorem length_readBytes_le {length filled : Nat} {scratch : Bytes} :
    (readBytes length filled scratch).length ≤ length := by
  rw [readBytes, Bytes.length_upTo]
  exact Nat.min_le_right _ _

/-- What an answer makes of a transfer: it is as it was, but for how far it has come, or it has
    ended, and only a read has brought anything. -/
theorem feed_cases (fed : t.feed a = some u) : u = t ∨
    (∃ data position written written', t = .write data position written ∧
      u = .write data position written') ∨
    (∃ position length filled filled' scratch scratch', t = .read position length filled scratch ∧
      u = .read position length filled' scratch') ∨
    ∃ outcome, u = .ended outcome ∧ ∀ bytes, outcome = .ok bytes → bytes = [] ∨
      ∃ position length filled scratch, t = .read position length filled scratch ∧
        bytes.length ≤ length := by
  have failed {e : IoError} : ∃ outcome, ended (.error e) = .ended outcome ∧
      ∀ bytes, outcome = .ok bytes → bytes = [] ∨ ∃ position length filled scratch,
        t = .read position length filled scratch ∧ bytes.length ≤ length := ⟨_, rfl, nofun⟩
  cases a with
  | panicked message => cases fed
  | failed e =>
    cases t with
    | write | read =>
      obtain rfl := Option.some.inj fed
      split
      · exact .inl rfl
      · exact .inr (.inr (.inr failed))
    | sync | close =>
      obtain rfl := Option.some.inj fed
      exact .inr (.inr (.inr failed))
    | ended =>
      obtain rfl := Option.some.inj fed
      exact .inl rfl
  | moved count bytes =>
    cases t with
    | write data position written =>
      simp only [Transfer.feed, wrote] at fed
      split at fed
      · obtain rfl := Option.some.inj fed
        exact .inr (.inr (.inr failed))
      · split at fed
        · obtain rfl := Option.some.inj fed
          exact .inr (.inl ⟨data, position, written, _, rfl, rfl⟩)
        · cases fed
    | read position length filled scratch =>
      simp only [Transfer.feed, filledBy] at fed
      split at fed
      · obtain rfl := Option.some.inj fed
        refine .inr (.inr (.inr ⟨_, rfl, ?_⟩))
        rintro bytes ⟨⟩
        exact .inr ⟨position, length, filled, scratch, rfl, length_readBytes_le⟩
      · split at fed
        · cases fed
        · split at fed
          · cases fed
          · obtain rfl := Option.some.inj fed
            exact .inr (.inr (.inl ⟨position, length, filled, _, scratch, _, rfl, rfl⟩))
    | sync | close =>
      obtain rfl := Option.some.inj fed
      refine .inr (.inr (.inr ⟨_, rfl, ?_⟩))
      rintro bytes ⟨⟩
      exact .inl rfl
    | ended =>
      obtain rfl := Option.some.inj fed
      exact .inl rfl

/-- An answer does not change the kind of the calls. -/
theorem IsFor.feed (isFor : t.IsFor operation) (fed : t.feed a = some u) :
    u.IsFor operation := by
  rcases feed_cases fed with rfl | ⟨_, _, _, _, rfl, rfl⟩ | ⟨_, _, _, _, _, _, rfl, rfl⟩ |
    ⟨outcome, rfl, -⟩
  · exact isFor
  · exact isFor
  · exact isFor
  · exact trivial

theorem Made.isFor (made : t.Made calls (some u)) (isFor : t.IsFor operation) :
    u.IsFor operation := by
  induction calls generalizing u with
  | nil =>
    cases made
    exact isFor
  | cons x older ih =>
    obtain ⟨v, before, -, fed⟩ := made.cons
    exact (ih before).feed fed

/-- An operation begins with the calls of its own kind. -/
theorem isFor_of_fits {c : Completion} (fits : c.Fits t) : t.IsFor c.operation := by
  cases c with
  | write | send =>
    obtain ⟨data, position, rfl, -⟩ := fits
    rfl
  | read | chunk =>
    obtain ⟨position, length, rfl⟩ := fits
    rfl
  | flush | close =>
    obtain rfl := fits
    rfl

/-- A transfer that brings at most `most` bytes. -/
def IsAtMost (most : Nat) : Transfer → Prop
  | .read _ length _ _ => length ≤ most
  | .ended outcome => ∀ bytes, outcome = .ok bytes → bytes.length ≤ most
  | .write .. | .sync | .close => True

/-- Whatever is answered, no more is brought than was asked for. -/
theorem IsAtMost.feed (atMost : t.IsAtMost most) (fed : t.feed a = some u) : u.IsAtMost most := by
  rcases feed_cases fed with rfl | ⟨_, _, _, _, rfl, rfl⟩ | ⟨_, _, _, _, _, _, rfl, rfl⟩ |
    ⟨outcome, rfl, brings⟩
  · exact atMost
  · exact atMost
  · exact atMost
  · intro bytes same
    rcases brings bytes same with rfl | ⟨_, length, _, _, rfl, within⟩
    · exact Nat.zero_le most
    · exact within.trans atMost

theorem Made.isAtMost (made : t.Made calls (some u)) (atMost : t.IsAtMost most) :
    u.IsAtMost most := by
  induction calls generalizing u with
  | nil =>
    cases made
    exact atMost
  | cons x older ih =>
    obtain ⟨v, before, -, fed⟩ := made.cons
    exact (ih before).feed fed

/-- What a transfer has brought when it is at its end. -/
theorem IsAtMost.length_le {bytes : Bytes} (atMost : t.IsAtMost most)
    (ended : t.outcome? = some (.ok bytes)) : bytes.length ≤ most := by
  cases t with
  | write data position written =>
    simp only [outcome?] at ended
    split at ended
    · cases ended
    · obtain rfl := Except.ok.inj (Option.some.inj ended)
      exact Nat.zero_le most
  | read position length filled scratch =>
    simp only [outcome?] at ended
    split at ended
    · cases ended
    · obtain rfl := Except.ok.inj (Option.some.inj ended)
      exact length_readBytes_le.trans atMost
  | sync | close => cases ended
  | ended outcome => exact atMost bytes (Option.some.inj ended)

/-- A write that goes well has moved on. -/
theorem wrote_of_some {data : Bytes} {position written count : Nat} (some : 0 < count)
    (inside : position + written + count < wordLimit) :
    wrote data position written count = Option.some (.write data position (written + count)) := by
  rw [wrote, if_neg (Nat.ne_of_gt some), if_pos inside]

/-- A read that goes well has moved on, or found the end. -/
theorem isWell_filledBy {position length filled count : Nat} {scratch : Bytes}
    (well : (Transfer.read position length filled scratch).IsWell limit most)
    (small : most < wordLimit) (fits : filled + count ≤ length)
    (inside : count ≠ 0 → position + filled + count < wordLimit) :
    ∃ u, filledBy position length filled scratch count = some u ∧ u.IsWell limit most := by
  obtain ⟨begins, -, length⟩ := well
  unfold filledBy
  split
  · exact ⟨_, rfl, _, rfl⟩
  next moves =>
    rw [if_neg (by omega), if_neg (by have := inside moves; omega)]
    exact ⟨_, rfl, begins, fits, length⟩

/-- A transfer whose call goes well goes on well. -/
theorem IsWell.feed (well : t.IsWell limit most) (places : limit < wordLimit)
    (small : most < wordLimit) (makes : t.call? = some call) (goes : call.GoesWell contents a)
    (fits : call.operation = .read → contents.length < wordLimit) :
    ∃ u, t.feed a = some u ∧ u.IsWell limit most := by
  obtain ⟨reads, stores, answered⟩ := goes
  cases t with
  | write data position written =>
    simp only [call?] at makes
    split at makes
    next more =>
      obtain rfl := Option.some.inj makes
      have within : position + data.length ≤ limit := well
      cases a with
      | moved count bytes =>
        obtain ⟨some, part⟩ := stores
        rw [List.length_drop] at part
        exact ⟨_, wrote_of_some some (by omega), well⟩
      | failed e => exact ⟨_, congrArg Option.some (if_pos answered), well⟩
      | panicked message => exact answered.elim
    · cases makes
  | read position length filled scratch =>
    simp only [call?] at makes
    split at makes
    next more =>
      obtain rfl := Option.some.inj makes
      cases a with
      | moved count bytes =>
        obtain ⟨rfl, length, part, -⟩ := reads
        rw [Bytes.length_window] at length
        have short := fits rfl
        exact isWell_filledBy well small (by omega) fun moves => by omega
      | failed e => exact ⟨_, congrArg Option.some (if_pos answered), well⟩
      | panicked message => exact answered.elim
    · cases makes
  | sync | close =>
    obtain rfl := Option.some.inj makes
    cases a with
    | moved count bytes => exact ⟨_, rfl, _, rfl⟩
    | failed | panicked => exact answered.elim
  | ended => cases makes

/-- A transfer all of whose calls went well is well. -/
theorem Made.isWell (made : t.Made calls (some u)) (well : t.IsWell limit most)
    (places : limit < wordLimit) (small : most < wordLimit) (went : ∀ x ∈ calls, x.WentWell) :
    u.IsWell limit most := by
  induction calls generalizing u with
  | nil =>
    cases made
    exact well
  | cons x older ih =>
    obtain ⟨v, before, makes, fed⟩ := made.cons
    obtain ⟨contents, goes, fits⟩ := went x List.mem_cons_self
    have earlier := ih before fun y earlier => went y (List.mem_cons_of_mem _ earlier)
    obtain ⟨u', fed', well'⟩ := earlier.feed places small makes goes fits
    obtain rfl := Option.some.inj (fed.symm.trans fed')
    exact well'

theorem IsWell.outcome {outcome : Outcome} (well : t.IsWell limit most)
    (ended : t.outcome? = some outcome) : ∃ bytes, outcome = .ok bytes := by
  cases t with
  | write | read =>
    simp only [outcome?] at ended
    split at ended
    · cases ended
    · exact ⟨_, (Option.some.inj ended).symm⟩
  | sync | close => cases ended
  | ended =>
    obtain rfl := Option.some.inj ended
    exact well

end Transfer

/-! ## Regular files -/

namespace FileTree

variable {t opened : FileTree} {id other : NodeId} {d : Descriptor} {call : Call}
  {data contents : Bytes}

/-- The bytes of a regular file. -/
def contents? (t : FileTree) (id : NodeId) : Option Bytes :=
  match t.node id with
  | .file _ data => some data
  | _ => none

/-- A tree in which a regular file holds `data`. -/
def store (t : FileTree) (id : NodeId) (data : Bytes) : FileTree :=
  match t.node id with
  | .file mode _ => { t with nodes := t.nodes.set id (.file mode data) }
  | _ => t

theorem node_of_contents? (holds : t.contents? id = some data) :
    ∃ mode, t.node id = .file mode data ∧ id < t.nodes.length := by
  unfold contents? at holds
  split at holds
  next mode data' found =>
    obtain rfl := Option.some.inj holds
    refine ⟨mode, found, ?_⟩
    by_contra beyond
    rw [node, List.getD_eq_getElem?_getD, List.getElem?_eq_none (Nat.le_of_not_lt beyond)] at found
    cases found
  · cases holds

theorem contents?_store_self (holds : t.contents? id = some data) :
    (t.store id contents).contents? id = some contents := by
  obtain ⟨mode, found, known⟩ := node_of_contents? holds
  have stored : (t.store id contents).node id = .file mode contents := by
    rw [store, found, node, List.getD_eq_getElem?_getD]
    dsimp only
    rw [List.getElem?_set_self known]
    rfl
  rw [contents?, stored]

theorem contents?_store_ne (apart : id ≠ other) :
    (t.store id contents).contents? other = t.contents? other := by
  unfold store
  split
  · rw [contents?, contents?, node, node, List.getD_eq_getElem?_getD, List.getD_eq_getElem?_getD,
      List.getElem?_set_ne apart]
  · rfl

theorem store_self (holds : t.contents? id = some data) : t.store id data = t := by
  obtain ⟨mode, found, known⟩ := node_of_contents? holds
  have same : t.nodes[id] = .file mode data := by
    rwa [node, List.getD_eq_getElem?_getD, List.getElem?_eq_getElem known, Option.getD_some]
      at found
  rw [store, found]
  dsimp only
  rw [← same, List.set_getElem_self]

/-! ## Calls on regular files -/

/-- A native call that a descriptor admits, and for a range that a regular file can have. -/
def Admits (d : Descriptor) : Call → Prop
  | .read position length => d.readable = true ∧ 0 < length ∧ position + length < positionLimit
  | .write data position => d.writable = true ∧ data ≠ [] ∧ position < sizeLimit ∧
      position + data.length < positionLimit
  | .sync | .close => True

/-- Calls on regular files go well, and the file then holds what was stored. -/
theorem perform_regular (holds : t.contents? d.node = some data) (admits : Admits d call) :
    call.GoesWell data (t.perform d call).1 ∧
      (t.perform d call).2 = t.store d.node (call.storing (t.perform d call).1 data) := by
  obtain ⟨mode, found, known⟩ := node_of_contents? holds
  cases call with
  | read position length =>
    obtain ⟨readable, some, range⟩ := admits
    have answered : t.perform d (.read position length) =
        (.moved (data.window position length).length (data.window position length), t) := by
      simp only [perform, readable, found, readNode]
      rw [if_neg (by omega), if_neg (by simp), if_neg (by omega)]
    rw [answered]
    refine ⟨⟨⟨Bytes.window_length.symm, rfl, ?_, fun none => ?_⟩, trivial, trivial⟩,
      (store_self holds).symm⟩
    · rw [Bytes.length_window]
      omega
    · rw [Bytes.length_window] at none
      omega
  | write bytes position =>
    obtain ⟨writable, some, small, range⟩ := admits
    have answered : t.perform d (.write bytes position) =
        (.moved (bytes.take (sizeLimit - position)).length [],
          t.store d.node (data.place position (bytes.take (sizeLimit - position)))) := by
      simp only [perform, writable, found, writeNode, store]
      rw [if_neg (by omega), if_neg (by simp), if_neg (by omega), if_neg (by omega)]
    have length := List.length_pos_of_ne_nil some
    rw [answered]
    refine ⟨⟨trivial, ⟨?_, ?_⟩, trivial⟩, ?_⟩
    · rw [List.length_take]
      omega
    · rw [List.length_take]
      omega
    · rw [Call.storing, List.length_take, ← List.take_eq_take_min]
  | sync =>
    have answered : t.perform d .sync = (.moved 0 [], t) := by
      simp only [perform, found]
    rw [answered]
    exact ⟨⟨trivial, trivial, trivial⟩, (store_self holds).symm⟩
  | close => exact ⟨⟨trivial, trivial, trivial⟩, (store_self holds).symm⟩

/-! ## Opening regular files -/

/-- A new node leaves the files that are there as they are. -/
theorem contents?_insert {parent : NodeId} {name : Bytes} {new : Node}
    (holds : t.contents? id = some data) : (t.insert parent name new).contents? id = some data := by
  obtain ⟨mode, found, known⟩ := node_of_contents? holds
  have same : t.nodes[id]? = some (.file mode data) := by
    rw [List.getElem?_eq_getElem known]
    rwa [node, List.getD_eq_getElem?_getD, List.getElem?_eq_getElem known, Option.getD_some,
      ← Option.some_inj] at found
  have still : (t.insert parent name new).node id = .file mode data := by
    rw [node, insert, List.getD_eq_getElem?_getD, List.getElem?_append_left (by simpa using known),
      List.getElem?_modify, same]
    split <;> rfl
  rw [contents?, still]

theorem contents?_insert_new {parent : NodeId} {name : Bytes} {mode : Nat} :
    (t.insert parent name (.file mode data)).contents? t.nodes.length = some data := by
  have new : (t.insert parent name (.file mode data)).node t.nodes.length = .file mode data := by
    rw [node, insert, List.getD_eq_getElem?_getD, List.getElem?_append_right (by simp)]
    simp
  rw [contents?, new]

/-- What is opened was there before, or it is a new file with nothing in it. -/
theorem openOrCreate_cases {path : Path} {read write : Bool} {mode : Nat}
    (opens : t.openOrCreate path read write mode = .ok (id, opened)) : opened = t ∨
      id = t.nodes.length ∧
        ∃ parent name mode, opened = t.insert parent name (.file mode []) := by
  simp only [openOrCreate, bind, Except.bind] at opens
  split at opens
  · cases opens
  · split at opens
    · cases opens
    · split at opens
      · cases opens
      · split at opens
        · cases opens
        · split at opens
          · -- the name stands for a node
            split at opens
            · cases opens
            · obtain ⟨_, -, same⟩ := except_map_eq_ok.mp opens
              exact .inl (Prod.mk.inj same).2.symm
          · split at opens
            · obtain ⟨rfl, rfl⟩ := Prod.mk.inj (Except.ok.inj opens)
              exact .inr ⟨rfl, _, _, _, rfl⟩
            · cases opens

theorem openPath_creating {path : Bytes} {read write : Bool} {mode : Nat}
    (opens : t.openPath path read write true mode = .ok (d, opened)) : opened = t ∨
      d.node = t.nodes.length ∧
        ∃ parent name mode, opened = t.insert parent name (.file mode []) := by
  simp only [openPath, bind, Except.bind, if_true] at opens
  split at opens
  · cases opens
  · split at opens
    · cases opens
    next found created =>
      obtain ⟨rfl, rfl⟩ := Prod.mk.inj (Except.ok.inj opens)
      exact openOrCreate_cases created

end FileTree

namespace Copying

/-- Both paths open, as two regular files.  The source holds `contents`, every place of which
    is a position.  The destination holds `old`. -/
structure Opens (files : FileTree) (sourcePath destinationPath : Bytes) (opened : FileTree)
    (a b : NodeId) (contents old : Bytes) : Prop where
  source : files.openPath sourcePath true false false OpenOptions.defaultMode =
    .ok (⟨a, true, false⟩, files)
  holds : files.contents? a = some contents
  destination : files.openPath destinationPath false true true OpenOptions.defaultMode =
    .ok (⟨b, false, true⟩, opened)
  held : opened.contents? b = some old
  apart : a ≠ b
  fits : contents.length < Transfer.wordLimit

variable {files opened : FileTree} {sourcePath destinationPath contents old : Bytes}
  {a b : NodeId}

/-- The destination was there before and is as it was, or it was not and is empty. -/
theorem Opens.old_cases
    (opens : Opens files sourcePath destinationPath opened a b contents old) :
    files.contents? b = some old ∨ b = files.nodes.length ∧ old = [] := by
  have held := opens.held
  rcases FileTree.openPath_creating opens.destination with rfl | ⟨new, parent, name, mode, rfl⟩
  · exact .inl held
  · have fresh : b = files.nodes.length := new
    rw [fresh, FileTree.contents?_insert_new] at held
    exact .inr ⟨fresh, (Option.some.inj held).symm⟩

/-- To open the destination leaves the source as it is. -/
theorem Opens.source_opened
    (opens : Opens files sourcePath destinationPath opened a b contents old) :
    opened.contents? a = some contents := by
  rcases FileTree.openPath_creating opens.destination with rfl | ⟨-, parent, name, mode, rfl⟩
  · exact opens.holds
  · exact FileTree.contents?_insert opens.holds

end Copying

end PinnedFile
