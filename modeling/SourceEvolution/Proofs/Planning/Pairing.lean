import Mathlib.Data.List.Induction
import SourceEvolution.Proofs.Passes
import SourceEvolution.Proofs.Planning.Survey

/-!
# The pairing of frames

Opening a frame hands out an id, and closing a frame asks for one. All that is compared is the
number of frames below and a serial number. This module says that this is enough: whatever calls are
made, in whatever order, an id closes the frame that it was handed out for, while that is the
innermost one, and nothing else.

* **Calls** (`FrameCall`, `Frames.run`): frames are opened, filled and closed, and a frame that is
  closed out of its turn ends the run.
* **Balance** (`Balanced`): calls that close every frame that they open, and no other. What they
  leave behind in the frame around them is what they append outside of these frames
  (`run_of_balanced`).
* **The open frames** (`LeavesOpen.of_run`, `run_of_opening`): the frames that are open are those
  that were open before some call, and the one that this call opened, with balanced calls since
  then.
* **Serial numbers** (`Renews`): a frame that is opened has a number that no frame had before.
* **Pairing** (`Frames.pop_pairs`): an id closes the innermost frame if it was handed out for that
  one, and otherwise it closes nothing.
-/

namespace SourceEvolution

/-- A call that opens a frame, adds a candidate to the innermost one, or closes one. -/
inductive FrameCall where
  | push
  | append (candidate : Candidate)
  | pop (id : FrameId)

namespace Frames

variable {frames between after : Frames} {calls inner before : List FrameCall} {id : FrameId}
  {candidates : List Candidate}

/-! ## Calls -/

/-- The frames after a call. A candidate that is rejected changes nothing, but closing a frame out
of its turn is an error. -/
def perform (frames : Frames) : FrameCall → Except FrameError Frames
  | .push => .ok frames.push.2
  | .append candidate =>
    match frames.append candidate with
    | .ok after => .ok after
    | .error _ => .ok frames
  | .pop id =>
    match frames.pop id with
    | (.ok _, after) => .ok after
    | (.error cause, _) => .error cause

/-- The frames after several calls, if no frame is closed out of its turn. -/
def run (frames : Frames) (calls : List FrameCall) : Except FrameError Frames :=
  calls.foldlM perform frames

/-- The id that is handed out if a frame is opened after some calls on no frames. -/
def nextId (before : List FrameCall) : Except FrameError FrameId :=
  (run {} before).map fun opening => opening.push.1

theorem run_append {first second : List FrameCall} :
    frames.run (first ++ second) = .ok after ↔
      ∃ between, frames.run first = .ok between ∧ between.run second = .ok after := by
  unfold run
  rw [List.foldlM_append, Except.bind_eq_ok_iff]

theorem run_singleton (frames : Frames) (call : FrameCall) :
    frames.run [call] = frames.perform call := by
  unfold run
  rw [List.foldlM_cons]
  exact bind_pure _

theorem run_push (frames : Frames) (calls : List FrameCall) :
    frames.run (.push :: calls) = frames.push.2.run calls :=
  rfl

theorem perform_append (frames : Frames) (candidate : Candidate) :
    frames.perform (.append candidate) = .ok (frames.absorb [candidate] 0) := by
  obtain ⟨stack, nextSerial⟩ := frames
  cases stack <;> rfl

/-- Closing is judged by the number and the place of the innermost frame. -/
theorem pop_cons (serial : Nat) (held : List Candidate) (rest : List Frame) (nextSerial : Nat)
    (id : FrameId) :
    pop ⟨⟨serial, held⟩ :: rest, nextSerial⟩ id =
      (if id.depth = rest.length ∧ id.serial = serial then .ok held
        else .error (.outOfOrder serial id), ⟨rest, nextSerial⟩) := by
  unfold pop
  simp only
  split_ifs <;> rfl

/-- An id closes the innermost frame, and leaves the others, if it says the number and the place of
that one. -/
theorem pop_eq_iff :
    frames.pop id = (.ok candidates, after) ↔
      frames.stack = ⟨id.serial, candidates⟩ :: after.stack ∧ id.depth = after.stack.length ∧
        after.nextSerial = frames.nextSerial := by
  obtain ⟨stack, nextSerial⟩ := frames
  obtain ⟨left, laterSerial⟩ := after
  cases stack with
  | nil => simp [pop]
  | cons frame rest =>
    rw [pop_cons]
    constructor
    · intro h
      split_ifs at h with hid
      · cases h
        exact ⟨by rw [hid.2], hid.1, rfl⟩
      · cases h
    · rintro ⟨hstack, hdepth, hserial⟩
      cases hstack
      cases hserial
      rw [if_pos ⟨hdepth, rfl⟩]

theorem perform_pop_eq_ok_iff :
    frames.perform (.pop id) = .ok after ↔
      ∃ candidates, frames.pop id = (.ok candidates, after) := by
  rcases hpop : frames.pop id with ⟨cause | candidates, rest⟩
  · simp [perform, hpop]
  · simp [perform, hpop]

end Frames

/-! ## Balance -/

/-- The calls close every frame that they open, and no other. The candidates are those that they
append outside of these frames. -/
inductive Balanced : List FrameCall → List Candidate → Prop
  /-- There may be no calls. -/
  | nil : Balanced [] []
  /-- A candidate is appended. -/
  | append {calls : List FrameCall} {candidates : List Candidate} (candidate : Candidate)
      (front : Balanced calls candidates) :
      Balanced (calls ++ [.append candidate]) (candidates ++ [candidate])
  /-- A frame is opened, and closed again. -/
  | frame {calls inner : List FrameCall} {candidates inside : List Candidate} (id : FrameId)
      (front : Balanced calls candidates) (within : Balanced inner inside) :
      Balanced (calls ++ .push :: (inner ++ [.pop id])) candidates

/-- The innermost of the frames that are open after some calls was opened behind `before`. Since
then the calls have been balanced, and these are the candidates for this frame. -/
def IsInnermost (calls before : List FrameCall) (candidates : List Candidate) : Prop :=
  ∃ inner, calls = before ++ .push :: inner ∧ Balanced inner candidates

namespace Frames

variable {frames after : Frames} {calls inner before : List FrameCall} {id : FrameId}
  {candidates : List Candidate}

/-- What balanced calls leave behind is what they append outside of their frames. -/
theorem run_of_balanced (hbalanced : Balanced calls candidates)
    (h : frames.run calls = .ok after) : ∃ opened, after = frames.absorb candidates opened := by
  induction hbalanced generalizing frames after with
  | nil =>
    cases h
    exact ⟨0, (absorb_nil frames).symm⟩
  | append candidate front ih =>
    obtain ⟨between, hfront, hlast⟩ := run_append.mp h
    obtain ⟨opened, rfl⟩ := ih hfront
    rw [run_singleton, perform_append] at hlast
    cases hlast
    exact ⟨opened + 0, absorb_absorb _ _ _ _ _⟩
  | @frame calls inner candidates inside id front within ih ihwithin =>
    obtain ⟨between, hfront, hframe⟩ := run_append.mp h
    obtain ⟨opened, rfl⟩ := ih hfront
    rw [run_push] at hframe
    obtain ⟨filled, hinner, hpop⟩ := run_append.mp hframe
    obtain ⟨more, rfl⟩ := ihwithin hinner
    rw [run_singleton] at hpop
    obtain ⟨held, hheld⟩ := perform_pop_eq_ok_iff.mp hpop
    obtain ⟨hstack, -, hserial⟩ := pop_eq_iff.mp hheld
    -- the frame that was opened is gone, and the others are as they were
    have hclosed : after.stack = (frames.absorb candidates opened).stack :=
      (List.cons.inj hstack).2.symm
    have hnext : after.nextSerial = frames.nextSerial + (opened + (1 + more)) := by
      simp [hserial, absorb, push, Nat.add_assoc]
    exact ⟨opened + (1 + more), congrArg₂ Frames.mk hclosed hnext⟩

/-- Where a frame has been opened, and since then the calls have been balanced, that frame is the
innermost one. The others are those that were open before. -/
theorem run_of_opening (hbalanced : Balanced inner candidates)
    (h : run {} (before ++ .push :: inner) = .ok frames) :
    ∃ opening, run {} before = .ok opening ∧
      frames.stack = ⟨opening.nextSerial, candidates⟩ :: opening.stack := by
  obtain ⟨opening, hbefore, hopened⟩ := run_append.mp h
  rw [run_push] at hopened
  obtain ⟨opened, rfl⟩ := run_of_balanced hbalanced hopened
  exact ⟨opening, hbefore, rfl⟩

end Frames

/-! ## The open frames -/

/-- The frames that are open after some calls, told by the calls. Either the calls have been
balanced, or there is a call that opened the innermost frame, with balanced calls since then, and
the others are those that were open before it. -/
inductive LeavesOpen : List FrameCall → List Frame → Prop
  /-- No frame is open. -/
  | none {calls : List FrameCall} {outside : List Candidate} (balanced : Balanced calls outside) :
      LeavesOpen calls []
  /-- The innermost frame and those around it. -/
  | frame {before inner : List FrameCall} {stack : List Frame} {serial : Nat}
      {candidates : List Candidate} (around : LeavesOpen before stack)
      (opening : Frames.run {} before = .ok ⟨stack, serial⟩) (since : Balanced inner candidates) :
      LeavesOpen (before ++ .push :: inner) (⟨serial, candidates⟩ :: stack)

namespace LeavesOpen

variable {calls : List FrameCall} {frames after : Frames} {frame : Frame} {stack : List Frame}

theorem append (h : LeavesOpen calls frames.stack) (candidate : Candidate) :
    LeavesOpen (calls ++ [.append candidate]) (frames.absorb [candidate] 0).stack := by
  obtain ⟨stack, nextSerial⟩ := frames
  cases h with
  | none balanced => exact .none (balanced.append candidate)
  | frame around opening since =>
    have hmore := around.frame opening (since.append candidate)
    rwa [← List.cons_append, ← List.append_assoc] at hmore

theorem pop (h : LeavesOpen calls (frame :: stack)) (id : FrameId) :
    LeavesOpen (calls ++ [.pop id]) stack := by
  cases h with
  | frame around opening since =>
    rw [List.append_assoc, List.cons_append]
    cases around with
    | none balanced => exact .none (balanced.frame id since)
    | frame outer start front =>
      -- the calls for the frame that is closed become a part of those since the next one
      have hmore := outer.frame start (front.frame id since)
      rwa [← List.cons_append, ← List.append_assoc] at hmore

/-- One more call. -/
theorem perform (h : LeavesOpen calls frames.stack) (hrun : Frames.run {} calls = .ok frames)
    {call : FrameCall} (hcall : frames.perform call = .ok after) :
    LeavesOpen (calls ++ [call]) after.stack := by
  cases call with
  | push =>
    cases hcall
    exact h.frame hrun .nil
  | append candidate =>
    rw [Frames.perform_append] at hcall
    cases hcall
    exact h.append candidate
  | pop id =>
    obtain ⟨held, hpop⟩ := Frames.perform_pop_eq_ok_iff.mp hcall
    rw [(Frames.pop_eq_iff.mp hpop).1] at h
    exact h.pop id

/-- The frames that are open after some calls are those that the calls tell. -/
theorem of_run (hrun : Frames.run {} calls = .ok frames) : LeavesOpen calls frames.stack := by
  induction calls using List.reverseRecOn generalizing frames with
  | nil =>
    cases hrun
    exact .none .nil
  | append_singleton front call ih =>
    obtain ⟨between, hfront, hlast⟩ := Frames.run_append.mp hrun
    rw [Frames.run_singleton] at hlast
    exact (ih hfront).perform hfront hlast

end LeavesOpen

/-! ## Serial numbers -/

/-- What calls do to serial numbers: the next one does not fall, and a frame that was not open
before has a number that was not given before. -/
structure Renews (frames after : Frames) : Prop where
  /-- The next number does not fall. -/
  le : frames.nextSerial ≤ after.nextSerial
  /-- The number of a frame is that of a frame from before, or a new one. -/
  fresh : ∀ frame ∈ after.stack, (∃ older ∈ frames.stack, frame.serial = older.serial) ∨
    frames.nextSerial ≤ frame.serial ∧ frame.serial < after.nextSerial

namespace Renews

variable {frames between after : Frames}

theorem refl (frames : Frames) : Renews frames frames where
  le := Nat.le_refl _
  fresh := fun frame hframe => .inl ⟨frame, hframe, rfl⟩

theorem trans (h : Renews frames between) (h' : Renews between after) : Renews frames after where
  le := Nat.le_trans h.le h'.le
  fresh := by
    intro frame hframe
    rcases h'.fresh frame hframe with ⟨older, holder, hserial⟩ | ⟨hle, hlt⟩
    · rw [hserial]
      rcases h.fresh older holder with hold | ⟨hle, hlt⟩
      · exact .inl hold
      · exact .inr ⟨hle, Nat.lt_of_lt_of_le hlt h'.le⟩
    · exact .inr ⟨Nat.le_trans h.le hle, hlt⟩

theorem perform {call : FrameCall} (h : frames.perform call = .ok after) : Renews frames after := by
  cases call with
  | push =>
    cases h
    refine ⟨Nat.le_succ _, fun frame hframe => ?_⟩
    rcases List.mem_cons.mp hframe with rfl | hframe
    · exact .inr ⟨Nat.le_refl _, Nat.lt_succ_self _⟩
    · exact .inl ⟨frame, hframe, rfl⟩
  | append candidate =>
    rw [Frames.perform_append] at h
    cases h
    refine ⟨Nat.le_refl _, fun frame hframe => .inl ?_⟩
    obtain ⟨stack, nextSerial⟩ := frames
    cases stack with
    | nil => cases hframe
    | cons first rest =>
      rcases List.mem_cons.mp hframe with rfl | hframe
      · exact ⟨first, List.mem_cons_self, rfl⟩
      · exact ⟨frame, List.mem_cons_of_mem first hframe, rfl⟩
  | pop id =>
    obtain ⟨held, hpop⟩ := Frames.perform_pop_eq_ok_iff.mp h
    obtain ⟨hstack, -, hserial⟩ := Frames.pop_eq_iff.mp hpop
    refine ⟨Nat.le_of_eq hserial.symm, fun frame hframe => .inl ⟨frame, ?_, rfl⟩⟩
    rw [hstack]
    exact List.mem_cons_of_mem _ hframe

theorem run {calls : List FrameCall} (h : frames.run calls = .ok after) : Renews frames after := by
  induction calls generalizing frames with
  | nil =>
    cases h
    exact refl _
  | cons call calls ih =>
    obtain ⟨between, hcall, hrest⟩ := Except.bind_eq_ok_iff.mp h
    exact (perform hcall).trans (ih hrest)

end Renews

/-! ## Pairing -/

namespace Frames

variable {frames final opening : Frames} {calls before other later : List FrameCall}
  {id id' : FrameId} {candidates : List Candidate}

theorem nextId_eq_ok_iff :
    nextId before = .ok id ↔ ∃ opening, run {} before = .ok opening ∧ opening.push.1 = id := by
  unfold nextId
  rcases run {} before with cause | opening <;> simp [Except.map]

theorem nextSerial_lt_of_run (h : opening.run (.push :: later) = .ok frames) :
    opening.nextSerial < frames.nextSerial := by
  rw [run_push] at h
  exact (Renews.run h).le

/-- The number of an open frame has been given out. -/
theorem serial_lt_of_mem (hrun : run {} calls = .ok frames) {frame : Frame}
    (h : frame ∈ frames.stack) : frame.serial < frames.nextSerial := by
  rcases (Renews.run hrun).fresh frame h with ⟨older, holder, -⟩ | ⟨-, hlt⟩
  · cases holder
  · exact hlt

/-- A frame that is opened later gets a greater number. -/
theorem nextId_serial_lt (hleads : before ++ [.push] <+: other) (h : nextId before = .ok id)
    (h' : nextId other = .ok id') : id.serial < id'.serial := by
  obtain ⟨later, rfl⟩ := hleads
  obtain ⟨opening, hbefore, rfl⟩ := nextId_eq_ok_iff.mp h
  obtain ⟨opening', hother, rfl⟩ := nextId_eq_ok_iff.mp h'
  rw [List.append_assoc, List.singleton_append] at hother
  obtain ⟨between, hbetween, hlater⟩ := run_append.mp hother
  obtain rfl : opening = between := Except.ok.inj (hbefore.symm.trans hbetween)
  exact nextSerial_lt_of_run hlater

/-- No two calls hand out the same id. -/
theorem eq_of_nextId (hbefore : before ++ [.push] <+: calls) (hother : other ++ [.push] <+: calls)
    (h : nextId before = .ok id) (h' : nextId other = .ok id) : before = other := by
  rcases List.prefix_or_prefix_of_prefix hbefore hother with hleads | hleads
  · rcases List.prefix_concat_iff.mp hleads with heq | hleads
    · exact List.append_cancel_right heq
    · exact absurd (nextId_serial_lt hleads h h') (Nat.lt_irrefl _)
  · rcases List.prefix_concat_iff.mp hleads with heq | hleads
    · exact (List.append_cancel_right heq).symm
    · exact absurd (nextId_serial_lt hleads h' h) (Nat.lt_irrefl _)

/-- What an id closes is the innermost frame, and the id was handed out for it. -/
theorem exists_isInnermost_of_pop (hrun : run {} calls = .ok frames)
    (h : (frames.pop id).1 = .ok candidates) :
    ∃ before, IsInnermost calls before candidates ∧ nextId before = .ok id := by
  obtain ⟨hstack, hdepth, -⟩ := pop_eq_iff.mp (Prod.ext h rfl)
  have hopen := LeavesOpen.of_run hrun
  rw [hstack] at hopen
  cases hopen with
  | @frame before inner _ _ _ around opening since =>
    refine ⟨before, ⟨inner, rfl, since⟩, nextId_eq_ok_iff.mpr ⟨_, opening, ?_⟩⟩
    unfold push
    rw [← hdepth]

/-- The innermost frame is closed by the id that was handed out for it. It gives its candidates, and
the frames that were open before it are left. -/
theorem pop_of_isInnermost (hrun : run {} calls = .ok frames)
    (h : IsInnermost calls before candidates) (hbefore : run {} before = .ok opening) :
    frames.stack = ⟨opening.nextSerial, candidates⟩ :: opening.stack ∧
      frames.pop opening.push.1 = (.ok candidates, { frames with stack := opening.stack }) := by
  obtain ⟨inner, rfl, hbalanced⟩ := h
  obtain ⟨opening', hbefore', hstack⟩ := run_of_opening hbalanced hrun
  obtain rfl : opening = opening' := Except.ok.inj (hbefore.symm.trans hbefore')
  exact ⟨hstack, pop_eq_iff.mpr ⟨hstack, rfl, rfl⟩⟩

theorem pop_eq_ok_iff (hrun : run {} calls = .ok frames) :
    (frames.pop id).1 = .ok candidates ↔
      ∃ before, IsInnermost calls before candidates ∧ nextId before = .ok id := by
  constructor
  · exact exists_isInnermost_of_pop hrun
  · rintro ⟨before, hinnermost, hid⟩
    obtain ⟨opening, hbefore, rfl⟩ := nextId_eq_ok_iff.mp hid
    rw [(pop_of_isInnermost hrun hinnermost hbefore).2]

theorem exists_error_of_pop (h : ∀ candidates, (frames.pop id).1 ≠ .ok candidates) :
    ∃ cause, (frames.pop id).1 = .error cause := by
  rcases hpop : (frames.pop id).1 with cause | candidates
  · exact ⟨cause, rfl⟩
  · exact absurd hpop (h candidates)

/-- An id that was handed out for a frame that is not the innermost one closes nothing. -/
theorem exists_error_of_not_isInnermost (hrun : run {} calls = .ok frames)
    (hleads : before ++ [.push] <+: calls) (hid : nextId before = .ok id)
    (h : ∀ candidates, ¬ IsInnermost calls before candidates) :
    ∃ cause, (frames.pop id).1 = .error cause := by
  apply exists_error_of_pop
  intro candidates hpop
  obtain ⟨other, hinnermost, hother⟩ := exists_isInnermost_of_pop hrun hpop
  obtain ⟨inner, hcalls, hbalanced⟩ := hinnermost
  have hopened : other ++ [.push] <+: calls := ⟨inner, by simp [hcalls]⟩
  obtain rfl := eq_of_nextId hleads hopened hid hother
  exact h candidates ⟨inner, hcalls, hbalanced⟩

/-- An id that has closed a frame closes nothing any more. -/
theorem exists_error_of_closed (hrun : run {} (calls ++ .pop id :: later) = .ok final) :
    ∃ cause, (final.pop id).1 = .error cause := by
  obtain ⟨frames, hcalls, hlater⟩ := run_append.mp hrun
  obtain ⟨closed, hclosed, hrest⟩ := Except.bind_eq_ok_iff.mp hlater
  obtain ⟨held, hpop⟩ := perform_pop_eq_ok_iff.mp hclosed
  obtain ⟨before, hinnermost, hid⟩ := exists_isInnermost_of_pop hcalls (congrArg Prod.fst hpop)
  obtain ⟨opening, hbefore, rfl⟩ := nextId_eq_ok_iff.mp hid
  have hleft := (pop_of_isInnermost hcalls hinnermost hbefore).2
  obtain rfl : closed = { frames with stack := opening.stack } :=
    (Prod.mk.inj (hpop.symm.trans hleft)).2
  apply exists_error_of_pop
  intro candidates hagain
  obtain ⟨hstack, -, -⟩ := pop_eq_iff.mp (Prod.ext hagain rfl)
  have hmem : ⟨opening.nextSerial, candidates⟩ ∈ final.stack := by
    rw [hstack]
    exact List.mem_cons_self
  -- its number is neither that of a frame that was open when it was closed, nor a new one
  rcases (Renews.run hrest).fresh _ hmem with ⟨older, holder, hserial⟩ | ⟨hle, -⟩
  · have hlt := serial_lt_of_mem hbefore holder
    exact absurd hserial (Nat.ne_of_gt hlt)
  · obtain ⟨inner, rfl, -⟩ := hinnermost
    obtain ⟨opening', hbefore', hopened⟩ := run_append.mp hcalls
    obtain rfl : opening = opening' := Except.ok.inj (hbefore.symm.trans hbefore')
    have hlt := nextSerial_lt_of_run hopened
    exact absurd hle (Nat.not_le_of_gt hlt)

/-- No frame is open exactly if the calls have been balanced. -/
theorem isEmpty_iff_balanced (hrun : run {} calls = .ok frames) :
    frames.isEmpty = true ↔ ∃ outside, Balanced calls outside := by
  unfold isEmpty
  rw [List.isEmpty_iff]
  constructor
  · intro hstack
    have hopen := LeavesOpen.of_run hrun
    rw [hstack] at hopen
    cases hopen with
    | none balanced => exact ⟨_, balanced⟩
  · rintro ⟨outside, hbalanced⟩
    obtain ⟨opened, rfl⟩ := run_of_balanced hbalanced hrun
    rfl

theorem append_eq_error_iff {candidate rejected : Candidate} :
    frames.append candidate = .error rejected ↔ frames.isEmpty = true ∧ rejected = candidate := by
  obtain ⟨stack, nextSerial⟩ := frames
  cases stack with
  | nil => simp [append, append?, isEmpty, eq_comm]
  | cons frame rest => simp [append, append?, isEmpty]

/-- Frames are closed in pairs with their opening. After any calls on no frames, none of which has
closed a frame out of its turn:

An id closes a frame exactly if it was handed out for the innermost one, and that gives the
candidates that were appended while it was the innermost one, in their order. The other frames are
left as they were, which is as they were when it was opened. An id that was handed out for any other
frame closes nothing, whether that frame has been closed or is further out, and neither does an id
that has been used. A candidate is rejected, and handed back, exactly if no frame is open. -/
theorem pop_pairs (hrun : run {} calls = .ok frames) :
    (∀ id candidates, (frames.pop id).1 = .ok candidates ↔
      ∃ before, IsInnermost calls before candidates ∧ nextId before = .ok id) ∧
    (∀ before candidates opening, IsInnermost calls before candidates →
      run {} before = .ok opening →
        frames.stack = ⟨opening.nextSerial, candidates⟩ :: opening.stack ∧
        frames.pop opening.push.1 = (.ok candidates, { frames with stack := opening.stack })) ∧
    (∀ before id, before ++ [.push] <+: calls → nextId before = .ok id →
      (∀ candidates, ¬ IsInnermost calls before candidates) →
        ∃ cause, (frames.pop id).1 = .error cause) ∧
    (∀ id later final, run {} (calls ++ .pop id :: later) = .ok final →
      ∃ cause, (final.pop id).1 = .error cause) ∧
    (frames.isEmpty = true ↔ ∃ outside, Balanced calls outside) ∧
    ∀ candidate rejected, frames.append candidate = .error rejected ↔
      frames.isEmpty = true ∧ rejected = candidate := by
  refine ⟨?_, ?_, ?_, ?_, isEmpty_iff_balanced hrun, ?_⟩
  · intro id candidates
    exact pop_eq_ok_iff hrun
  · intro before candidates opening hinnermost hbefore
    exact pop_of_isInnermost hrun hinnermost hbefore
  · intro before id hleads hid hnot
    exact exists_error_of_not_isInnermost hrun hleads hid hnot
  · intro id later final hfinal
    exact exists_error_of_closed hfinal
  · intro candidate rejected
    exact append_eq_error_iff

end Frames

/-- A candidate that is told by its number. -/
def Sample.candidate (number : Nat) : Candidate :=
  ⟨.shuffleMembers ⟨[number]⟩, Build.expr "x", [number]⟩

/-- Calls that fill a frame, and in it two frames one after the other. The second one is still open.
-/
def Sample.frameCalls : List FrameCall :=
  [.push, .append (candidate 0), .push, .append (candidate 1)] ++
    .pop ⟨1, 1⟩ :: [.push, .append (candidate 2), .append (candidate 3)]

/-- The frames that these calls leave open. -/
def Sample.openFrames : Frames :=
  ⟨[⟨2, [candidate 2, candidate 3]⟩, ⟨0, [candidate 0]⟩], 3⟩

/-- The innermost frame is closed by its id, and not by that of the frame which was open at the same
place before it, nor by that of the frame around it. -/
theorem Frames.pop_pairs_frameCalls :
    run {} Sample.frameCalls = .ok Sample.openFrames ∧
      Sample.openFrames.pop ⟨1, 2⟩ = (.ok [Sample.candidate 2, Sample.candidate 3],
        ⟨[⟨0, [Sample.candidate 0]⟩], 3⟩) ∧
      (∃ cause, (Sample.openFrames.pop ⟨1, 1⟩).1 = .error cause) ∧
      ∃ cause, (Sample.openFrames.pop ⟨0, 0⟩).1 = .error cause := by
  have hrun : run {} Sample.frameCalls = .ok Sample.openFrames := rfl
  obtain ⟨-, hclose, houter, -⟩ := pop_pairs hrun
  refine ⟨hrun, ?_, ?_, ?_⟩
  · have hsince : Balanced [.append (Sample.candidate 2), .append (Sample.candidate 3)]
        [Sample.candidate 2, Sample.candidate 3] :=
      (Balanced.nil.append (Sample.candidate 2)).append (Sample.candidate 3)
    exact (hclose (Sample.frameCalls.take 5) _ _ ⟨_, rfl, hsince⟩ rfl).2
  · have hfilled : run {} (Sample.frameCalls.take 4) =
        .ok ⟨[⟨1, [Sample.candidate 1]⟩, ⟨0, [Sample.candidate 0]⟩], 2⟩ := rfl
    obtain ⟨-, -, -, honce, -⟩ := pop_pairs hfilled
    exact honce ⟨1, 1⟩ _ _ hrun
  · refine houter [] ⟨0, 0⟩ ⟨_, rfl⟩ rfl ?_
    intro candidates hinnermost
    have hstack := (hclose [] candidates {} hinnermost rfl).1
    cases hstack

end SourceEvolution
