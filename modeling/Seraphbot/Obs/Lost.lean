import Seraphbot.Obs.Service

/-!
# Lost connections

`sendOBSCommand` connects to OBS when `m_connected` is not set.  Once it is set,
nothing but another attempt to connect would take it back: when an operation on the
stream fails, the exception goes to the caller and the flag stays.  So a connection
that is lost stays lost.  Every command from then on is written to the dead stream,
and none of them ever returns (`silent_of_fail`).

This is about failures of the stream.  After an answer that cannot be parsed, which
makes the command throw as well, the next command goes on with the stream.
-/

namespace Seraphbot.Obs

/-- A command that waits for an operation on a stream. -/
inductive Waits (ws : Nat) : Task → Prop where
  | writing (command : UInt64) : Waits ws (.writing ws command)
  | reading (command : UInt64) : Waits ws (.reading ws command)

theorem Waits.stream {ws : Nat} {t : Task} (h : Waits ws t) : t.stream = some ws := by
  cases h <;> rfl

namespace OBSService

/-- The service is connected through a stream, and all its coroutines wait for it. -/
structure Attached (ws : Nat) (s : OBSService) : Prop where
  connected : s.connected = true
  current : s.ws = some ws
  tasks : ∀ t ∈ s.tasks, Waits ws t

/-- The stream is dead, and the service does not know. -/
structure Lost (ws : Nat) (s : OBSService) : Prop extends Attached ws s where
  dead : (s.streams ws).dead = true

variable {s : OBSService} {ws : Nat}

/-- A failed operation is the loss of the connection. -/
theorem Attached.fail (h : Attached ws s) {t : Task} (ht : Waits ws t) (i : Nat) :
    Lost ws (s.fail i t) := by
  have hfail : s.fail i t = (s.kill ws).endTask i := by
    cases ht <;> rfl
  rw [hfail]
  refine ⟨⟨h.connected, h.current, ?_⟩, by simp [endTask, kill, onStream]⟩
  intro t ht
  exact h.tasks t (List.mem_of_mem_eraseIdx ht)

namespace Lost

/-- What happens to other streams changes nothing. -/
theorem onStream (h : Lost ws s) {w : Nat} {f : Stream → Stream}
    (hf : ∀ l : Stream, l.dead = true → (f l).dead = true) : Lost ws (s.onStream w f) := by
  refine ⟨⟨h.connected, h.current, h.tasks⟩, ?_⟩
  by_cases hw : ws = w
  · subst hw
    simpa [OBSService.onStream] using hf _ h.dead
  · simpa [OBSService.onStream, hw] using h.dead

/-- A new command is written to the dead stream. -/
theorem call (h : Lost ws s) (t : Task) : Lost ws ((s.spawn t).sendNext s.tasks.length) := by
  have hnext : (s.spawn t).sendNext s.tasks.length =
      { s with
        requestId := s.requestId + 1
        tasks := s.tasks ++ [.writing ws s.requestId] } := by
    simp [sendNext, sendOBSCommand, sendMessage, await, setTask, spawn, h.connected, h.current]
  rw [hnext]
  refine ⟨⟨h.connected, h.current, ?_⟩, h.dead⟩
  intro t ht
  rcases List.mem_append.mp ht with hold | hnew
  · exact h.tasks t hold
  · rw [List.mem_singleton.mp hnew]
    exact .writing _

theorem answer (h : Lost ws s) (w : Nat) (request : UInt64) (body : Option Json) :
    Lost ws (s.answer w request body) := by
  unfold OBSService.answer
  split_ifs
  · exact h
  · refine h.onStream ?_
    exact fun _ hdead ↦ hdead

theorem notify (h : Lost ws s) (w : Nat) (body : Option Json) : Lost ws (s.notify w body) := by
  unfold OBSService.notify
  split_ifs
  · exact h
  · refine h.onStream ?_
    exact fun _ hdead ↦ hdead

theorem step (h : Lost ws s) (ev : Event) :
    Lost ws (machine.step s ev).1 ∧ (machine.step s ev).2 = none := by
  unfold machine
  dsimp only
  split_ifs
  · exact ⟨h, rfl⟩
  fun_cases OBSService.step s ev with
  | case1 => exact ⟨h.call _, rfl⟩
  | case2 =>
      unfold OBSService.playVideo
      rw [if_pos h.connected]
      exact ⟨h.call _, rfl⟩
  | case3 | case4 | case6 => exact ⟨h, rfl⟩
  | case5 i t ht hvain =>
      have hstream := (h.tasks t (List.mem_of_getElem? ht)).stream
      simp [waitsInVain, hstream, h.dead] at hvain
  | case7 i t ht => exact ⟨h.fail (h.tasks t (List.mem_of_getElem? ht)) i, rfl⟩
  | case8 w request body => exact ⟨h.answer w request body, rfl⟩
  | case9 w body => exact ⟨h.notify w body, rfl⟩

theorem silent (h : Lost ws s) (es : List Event) : (machine.trace s es).filterMap id = [] := by
  induction es generalizing s with
  | nil => rfl
  | cons ev es ih =>
      obtain ⟨hnext, hnone⟩ := h.step ev
      rw [Machine.trace_cons, hnone, List.filterMap_cons_none rfl]
      exact ih hnext

theorem visits (h : Lost ws s) (es : List Event) :
    machine.Visits (fun s ↦ s.connected = true ∧ s.ws = some ws) s es :=
  Machine.visits_of_invariant (I := Lost ws) (P := fun _ _ ↦ True)
    (fun _ ev hlost _ ↦ (hlost.step ev).1) (fun _ hlost ↦ ⟨hlost.connected, hlost.current⟩) h
    (machine.along_of_forall fun _ _ ↦ trivial)

end Lost

/-- **A lost connection stays lost.**  When an operation fails that a command awaits
on the connected stream, while all other coroutines wait for that stream as well:
whatever is called from then on, and whatever OBS sends, the service stays connected
through that stream, as it sees it, and no command returns any more. -/
theorem silent_of_fail (h : Attached ws s) (hcrashed : s.crashed = false) {i : Nat} {t : Task}
    (ht : s.tasks[i]? = some t) (es : List Event) :
    machine.Visits (fun s ↦ s.connected = true ∧ s.ws = some ws) s (.fail i :: es) ∧
      (machine.trace s (.fail i :: es)).filterMap id = [] := by
  have hstep : machine.step s (.fail i) = (s.fail i t, none) := by
    simp [machine, hcrashed, OBSService.step, ht]
  have hlost : Lost ws (s.fail i t) := h.fail (h.tasks t (List.mem_of_getElem? ht)) i
  rw [Machine.visits_cons, Machine.trace_cons, hstep, List.filterMap_cons_none rfl]
  exact ⟨⟨⟨h.connected, h.current⟩, hlost.visits es⟩, hlost.silent es⟩

/-- The events of a command that connects to OBS and has been written. -/
def written : List Event := [.call, .resume 0, .resume 0, .resume 0, .resume 0]

/-- Its answer is never read.  The next command is written as well. -/
theorem silent_of_fail_reading :
    let es : List Event := [.fail 0, .call, .resume 0, .answer 0 2 (some .null), .resume 0]
    machine.Visits (fun s ↦ s.connected = true ∧ s.ws = some 0) (machine.run {} written) es ∧
      (machine.trace (machine.run {} written) es).filterMap id = [] := by
  have hattached : Attached 0 (machine.run {} written) := by
    refine ⟨rfl, rfl, fun t ht ↦ ?_⟩
    obtain rfl : t = .reading 0 1 := List.mem_singleton.mp ht
    exact .reading 1
  exact silent_of_fail hattached rfl (i := 0) (t := .reading 0 1) rfl _

-- An answer that cannot be parsed is another matter.
example :
    ((machine.trace (machine.run {} written)
        [.answer 0 1 none, .resume 0, .call, .resume 0, .answer 0 2 (some .null),
          .resume 0]).filterMap id).map Returned.command = [2] := by
  decide

end OBSService

end Seraphbot.Obs
