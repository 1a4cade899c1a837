import Seraphbot.Obs.Service

/-!
# Answers and the calls that get them

`sendOBSCommand` takes the next frame on the stream for its answer, whatever that
frame is.  It is the answer to the command when nothing else can be in the way:
`answered_of_inTurn` shows it for all runs in which there is one caller at a time
and OBS only ever answers.  One event from OBS is enough to break it, and all
later calls on the stream are then answered with what was meant for the one
before.

The invariant is about the coroutine that is in flight.  A stream carries nothing,
except for the one that the coroutine reads from: there is its request, or the
answer to it.
-/

namespace Seraphbot.Obs

/-! ## What is on a stream -/

/-- What is under way on a stream: the request that is awaited or the answer to
it, or nothing if no request is. -/
def Stream.Carries (l : Stream) : Option UInt64 → Prop
  | none => l.requests = [] ∧ l.inbound = []
  | some request =>
      (l.requests = [request] ∧ l.inbound = []) ∨
        l.requests = [] ∧ ∃ frame, frame.requestId = some request ∧ l.inbound = [frame]

namespace Stream.Carries

variable {l : Stream} {request : UInt64}

theorem deliver (h : l.Carries none) (request : UInt64) :
    { l with requests := l.requests ++ [request] }.Carries (some request) := by
  obtain ⟨hreq, hin⟩ := h
  exact Or.inl ⟨by simp [hreq], hin⟩

theorem answer {awaited : Option UInt64} (h : l.Carries awaited) (hmem : request ∈ l.requests)
    (body : Option Json) :
    ({ l with
      requests := l.requests.erase request
      inbound := l.inbound ++ [⟨some request, body⟩] } : Stream).Carries awaited := by
  cases awaited with
  | none => simp [h.1] at hmem
  | some awaited =>
      rcases h with ⟨hreq, hin⟩ | ⟨hreq, -⟩
      · obtain rfl : request = awaited := by simpa [hreq] using hmem
        exact Or.inr ⟨by simp [hreq], ⟨some request, body⟩, rfl, by simp [hin]⟩
      · simp [hreq] at hmem

theorem requestId_head (h : l.Carries (some request)) {frame : Frame} {rest : List Frame}
    (hin : l.inbound = frame :: rest) : frame.requestId = some request := by
  rcases h with ⟨-, hnil⟩ | ⟨-, answer, hid, hone⟩
  · simp [hnil] at hin
  · obtain ⟨rfl, -⟩ : answer = frame ∧ [] = rest := by simpa [hone] using hin
    exact hid

theorem take (h : l.Carries (some request)) (hin : l.inbound ≠ []) :
    { l with inbound := l.inbound.tail }.Carries none := by
  rcases h with ⟨-, hnil⟩ | ⟨hreq, answer, -, hone⟩
  · exact absurd hnil hin
  · exact ⟨hreq, by simp [hone]⟩

end Stream.Carries

/-- The request whose answer a task is about to read from a stream. -/
def Task.awaited : Task → Nat → Option UInt64
  | .connecting _ (.authRead ws request), w => if w = ws then some request else none
  | .reading ws command, w => if w = ws then some command else none
  | _, _ => none

namespace OBSService

/-- Every stream that is not dead carries what is awaited from it. -/
def Carries (awaited : Nat → Option UInt64) (s : OBSService) : Prop :=
  ∀ ws, (s.streams ws).dead = false → (s.streams ws).Carries (awaited ws)

theorem Carries.onStream {s : OBSService} {awaited awaited' : Nat → Option UInt64} {ws : Nat}
    {f : Stream → Stream} (h : s.Carries awaited) (hother : ∀ w, w ≠ ws → awaited' w = awaited w)
    (hws : (f (s.streams ws)).dead = false → (f (s.streams ws)).Carries (awaited' ws)) :
    (s.onStream ws f).Carries awaited' := by
  intro w hw
  by_cases hsame : w = ws
  · subst hsame
    simp only [OBSService.onStream, Function.update_self] at hw ⊢
    exact hws hw
  · simp only [OBSService.onStream, Function.update_of_ne hsame] at hw ⊢
    rw [hother w hsame]
    exact h w hw

/-! ## A coroutine between two suspensions -/

/-- There is one task, and no answer is under way. -/
structure Running (s : OBSService) : Prop where
  tasks : ∃ t, s.tasks = [t]
  carries : s.Carries fun _ ↦ none

/-- There is one task, its answer is under way, and it waits for the current
stream. -/
structure InFlight (s : OBSService) (t : Task) : Prop where
  tasks : s.tasks = [t]
  carries : s.Carries t.awaited
  current : ∀ ws, t.stream = some ws → s.ws = some ws

/-- There is at most one task. -/
def Orderly (s : OBSService) : Prop :=
  s.crashed = true ∨ (s.tasks = [] ∧ s.Carries fun _ ↦ none) ∨ ∃ t, s.InFlight t

theorem orderly_await {s : OBSService} {t : Nat → Task} (htasks : ∃ t, s.tasks = [t])
    (hstream : ∀ ws, (t ws).stream = some ws)
    (hcarries : ∀ ws, s.ws = some ws → s.Carries (t ws).awaited) : (s.await 0 t).Orderly := by
  obtain ⟨t₀, htasks⟩ := htasks
  unfold await
  cases hws : s.ws with
  | none => exact Or.inl rfl
  | some ws =>
      refine Or.inr (Or.inr ⟨t ws, by simp [setTask, htasks], hcarries ws hws, ?_⟩)
      intro w hw
      obtain rfl : ws = w := by simpa [hstream ws] using hw
      exact hws

namespace Running

variable {s : OBSService}

theorem await (h : s.Running) {t : Nat → Task} (hstream : ∀ ws, (t ws).stream = some ws)
    (hawaited : ∀ ws, (t ws).awaited = fun _ ↦ none) : (s.await 0 t).Orderly :=
  orderly_await h.tasks hstream fun ws _ ↦ hawaited ws ▸ h.carries

theorem sendMessage (h : s.Running) (command : UInt64) : (s.sendMessage 0 command).Orderly :=
  h.await (fun _ ↦ rfl) fun _ ↦ rfl

theorem sendOBSCommand (h : s.Running) (command : UInt64) :
    (s.sendOBSCommand 0 command).Orderly := by
  unfold OBSService.sendOBSCommand
  split
  · exact h.sendMessage command
  · obtain ⟨t, ht⟩ := h.tasks
    exact Or.inr (Or.inr ⟨.connecting (some command) .resolve, by simp [setTask, ht], h.carries,
      nofun⟩)

theorem sendNext (h : s.Running) : (s.sendNext 0).Orderly :=
  sendOBSCommand (s := { s with requestId := s.requestId + 1 }) ⟨h.tasks, h.carries⟩ s.requestId

theorem connectReturns (h : s.Running) (command : Option UInt64) (connected : Bool) :
    (s.connectReturns 0 command connected).Orderly := by
  have h' : { s with connected }.Running := ⟨h.tasks, h.carries⟩
  cases command with
  | none => exact h'.sendNext
  | some command => exact h'.sendMessage command

end Running

/-! ## One step -/

namespace InFlight

variable {s : OBSService}

/-- A task that no answer is under way for. -/
theorem running {t : Task} (h : s.InFlight t) (hawaited : t.awaited = fun _ ↦ none) :
    s.Running := ⟨⟨t, h.tasks⟩, hawaited ▸ h.carries⟩

theorem kill {t : Task} (h : s.InFlight t) {ws : Nat} (hstream : t.stream = some ws) :
    (s.kill ws).Running := by
  refine ⟨⟨t, h.tasks⟩, h.carries.onStream (fun w hw ↦ ?_) nofun⟩
  fun_cases Task.awaited t w <;> simp_all [Task.stream]

/-- A task that waited for a write waits for the answer next. -/
theorem deliver {t : Task} (h : s.InFlight t) (hawaited : t.awaited = fun _ ↦ none) {ws : Nat}
    (hstream : t.stream = some ws) (halive : (s.streams ws).dead = false) {request : UInt64}
    {next : Nat → Task} (hnext : ∀ ws, (next ws).stream = some ws)
    (hnext' : ∀ ws w, (next ws).awaited w = if w = ws then some request else none) :
    ((s.deliver ws request).await 0 next).Orderly := by
  have hcarries : s.Carries fun _ ↦ none := hawaited ▸ h.carries
  refine orderly_await ⟨t, h.tasks⟩ hnext fun ws' hws' ↦ ?_
  obtain rfl : ws = ws' := Option.some.inj ((h.current ws hstream).symm.trans hws')
  refine hcarries.onStream (fun w hw ↦ ?_) fun _ ↦ ?_
  · rw [hnext', if_neg hw]
  · rw [hnext', if_pos rfl]
    exact (hcarries ws halive).deliver request

section

variable {t : Task} {ws : Nat} {request : UInt64} {frame : Frame} {rest : List Frame}
  (h : s.InFlight t) (hawaited : t.awaited = fun w ↦ if w = ws then some request else none)
  (halive : (s.streams ws).dead = false) (hin : (s.streams ws).inbound = frame :: rest)
include h hawaited halive

theorem carries_awaited : (s.streams ws).Carries (some request) := by
  simpa [hawaited] using h.carries ws halive

include hin

/-- The frame that is waiting for a task is its answer. -/
theorem requestId_eq : frame.requestId = some request :=
  (h.carries_awaited hawaited halive).requestId_head hin

/-- Nothing is left when the answer has been taken. -/
theorem take : (s.take ws).Running := by
  refine ⟨⟨t, h.tasks⟩, h.carries.onStream (fun w hw ↦ ?_) fun _ ↦ ?_⟩
  · simp [hawaited, hw]
  · exact (h.carries_awaited hawaited halive).take (by simp [hin])

/-- Nothing and nobody is left when the task ends with that. -/
theorem takeLast : ((s.take ws).endTask 0).Orderly := by
  refine Or.inr (Or.inl ⟨?_, (h.take hawaited halive hin).carries⟩)
  simp [OBSService.endTask, OBSService.take, onStream, h.tasks]

end

theorem resumeConnect {command : Option UInt64} {stage : Stage}
    (h : s.InFlight (.connecting command stage))
    (halive : ∀ ws, (Task.connecting command stage).stream = some ws →
      (s.streams ws).dead = false) :
    (s.resumeConnect 0 command stage).Orderly := by
  fun_cases OBSService.resumeConnect 0 command s stage with
  | case1 =>
      have hrun : { s with ws := some s.opened, opened := s.opened + 1 }.Running :=
        ⟨⟨_, h.tasks⟩, h.carries⟩
      exact hrun.await (fun _ ↦ rfl) fun _ ↦ rfl
  | case2 ws => exact (h.running rfl).await (fun _ ↦ rfl) fun _ ↦ rfl
  | case3 ws hpassword =>
      have hrun : { s with requestId := s.requestId + 1 }.Running := ⟨⟨_, h.tasks⟩, h.carries⟩
      exact hrun.await (fun _ ↦ rfl) fun _ ↦ rfl
  | case4 ws hpassword => exact (h.running rfl).connectReturns command true
  | case5 ws request =>
      exact h.deliver rfl rfl (halive ws rfl) (fun _ ↦ rfl) fun _ _ ↦ rfl
  | case6 ws request hin => exact Or.inr (Or.inr ⟨_, h⟩)
  | case7 ws request frame rest hin hauth =>
      exact (h.take rfl (halive ws rfl) hin).connectReturns command false
  | case8 ws request frame rest hin hauth =>
      exact (h.take rfl (halive ws rfl) hin).connectReturns command true
  | case9 ws request frame rest hin hauth =>
      exact (h.take rfl (halive ws rfl) hin).await (fun _ ↦ rfl) fun _ ↦ rfl
  | case10 ws => exact (h.running rfl).connectReturns command true

/-- A task that goes on leaves the service in order, and returns its answer if it
returns. -/
theorem resume {t : Task} (h : s.InFlight t)
    (halive : ∀ ws, t.stream = some ws → (s.streams ws).dead = false) :
    (s.resume 0 t).1.Orderly ∧
      ∀ r ∈ (s.resume 0 t).2, r.frame.requestId = some r.command := by
  fun_cases OBSService.resume 0 s t with
  | case1 command stage => exact ⟨h.resumeConnect halive, nofun⟩
  | case2 ws command =>
      exact ⟨h.deliver rfl rfl (halive ws rfl) (fun _ ↦ rfl) fun _ _ ↦ rfl, nofun⟩
  | case3 ws command hin => exact ⟨Or.inr (Or.inr ⟨_, h⟩), nofun⟩
  | case4 ws command frame rest hin =>
      exact ⟨h.takeLast rfl (halive ws rfl) hin, nofun⟩
  | case5 ws command frame rest hin =>
      refine ⟨h.takeLast rfl (halive ws rfl) hin, ?_⟩
      rintro r ⟨⟩
      exact h.requestId_eq rfl (halive ws rfl) hin

/-- A task that ends with its stream leaves nothing behind. -/
theorem endTask {t : Task} (h : s.InFlight t) {ws : Nat} (hstream : t.stream = some ws) :
    ((s.kill ws).endTask 0).Orderly := by
  refine Or.inr (Or.inl ⟨?_, (h.kill hstream).carries⟩)
  simp [OBSService.endTask, OBSService.kill, onStream, h.tasks]

theorem fail {t : Task} (h : s.InFlight t) : (s.fail 0 t).Orderly := by
  fun_cases OBSService.fail 0 s t with
  | case1 command stage hstream =>
      cases stage with
      | resolve => exact (h.running rfl).connectReturns command false
      | _ => simp [Task.stream] at hstream
  | case2 command stage ws hstream => exact (h.kill hstream).connectReturns command false
  | case3 ws command => exact h.endTask rfl
  | case4 ws command => exact h.endTask rfl

end InFlight

theorem Carries.answer {s : OBSService} {awaited : Nat → Option UInt64} (h : s.Carries awaited)
    (ws : Nat) (request : UInt64) (body : Option Json) : (s.answer ws request body).Carries awaited := by
  unfold OBSService.answer
  split
  · exact h
  · rename_i hcond
    obtain ⟨halive, hmem⟩ : (s.streams ws).dead = false ∧ request ∈ (s.streams ws).requests := by
      simpa using hcond
    exact h.onStream (fun _ _ ↦ rfl) fun _ ↦ (h ws halive).answer hmem body

/-! ## Runs -/

/-- Coroutines are started one at a time, and OBS sends nothing but answers. -/
def InTurn (s : OBSService) : Event → Prop
  | .call | .playVideo => s.tasks = []
  | .notify _ _ => False
  | _ => True

namespace Orderly

variable {s : OBSService}

theorem spawn (h : s.Orderly) (hcrashed : ¬ s.crashed = true) (htasks : s.tasks = []) (t : Task) :
    (s.spawn t).Running := by
  rcases h with hcrash | ⟨-, hcarries⟩ | ⟨t', hflight⟩
  · exact absurd hcrash hcrashed
  · exact ⟨⟨t, by simp [OBSService.spawn, htasks]⟩, hcarries⟩
  · simp [hflight.tasks] at htasks

theorem playVideo (h : s.Orderly) (hcrashed : ¬ s.crashed = true) (htasks : s.tasks = []) :
    s.playVideo.Orderly := by
  have hrun := h.spawn hcrashed htasks (.connecting none .resolve)
  unfold OBSService.playVideo
  dsimp only
  split
  · rw [htasks]
    exact hrun.sendNext
  · exact Or.inr (Or.inr ⟨.connecting none .resolve, by simp [OBSService.spawn, htasks],
      hrun.carries, nofun⟩)

theorem inFlight (h : s.Orderly) (hcrashed : ¬ s.crashed = true) {i : Nat} {t : Task}
    (ht : s.tasks[i]? = some t) : i = 0 ∧ s.InFlight t := by
  rcases h with hcrash | ⟨htasks, -⟩ | ⟨t', hflight⟩
  · exact absurd hcrash hcrashed
  · simp [htasks] at ht
  · obtain ⟨rfl, rfl⟩ : i = 0 ∧ t' = t := by
      simpa [hflight.tasks, List.getElem?_singleton] using ht
    exact ⟨rfl, hflight⟩

theorem answer (h : s.Orderly) (ws : Nat) (request : UInt64) (body : Option Json) :
    (s.answer ws request body).Orderly := by
  have hframe : (s.answer ws request body).crashed = s.crashed ∧
      (s.answer ws request body).tasks = s.tasks ∧ (s.answer ws request body).ws = s.ws := by
    unfold OBSService.answer
    split <;> exact ⟨rfl, rfl, rfl⟩
  obtain ⟨hcrashed, htasks, hws⟩ := hframe
  rcases h with hcrash | ⟨hnil, hcarries⟩ | ⟨t, hflight⟩
  · exact Or.inl (hcrashed.trans hcrash)
  · exact Or.inr (Or.inl ⟨htasks.trans hnil, hcarries.answer ws request body⟩)
  · refine Or.inr (Or.inr ⟨t, htasks.trans hflight.tasks, hflight.carries.answer ws request body, ?_⟩)
    intro w hw
    exact hws.trans (hflight.current w hw)

/-- **A step in turn.**  The service stays in order, and a call that returns has
got the answer to its own command. -/
theorem step (h : s.Orderly) {ev : Event} (hturn : s.InTurn ev) :
    (machine.step s ev).1.Orderly ∧
      ∀ r ∈ (machine.step s ev).2, r.frame.requestId = some r.command := by
  unfold machine
  dsimp only
  split
  · exact ⟨h, nofun⟩
  rename_i hcrashed
  fun_cases OBSService.step s ev with
  | case1 =>
      have htasks : s.tasks = [] := hturn
      rw [htasks]
      exact ⟨(h.spawn hcrashed htasks _).sendNext, nofun⟩
  | case2 => exact ⟨h.playVideo hcrashed hturn, nofun⟩
  | case3 i ht => exact ⟨h, nofun⟩
  | case4 i t ht hvain => exact ⟨h, nofun⟩
  | case5 i t ht hvain =>
      obtain ⟨rfl, hflight⟩ := h.inFlight hcrashed ht
      refine hflight.resume fun ws hws ↦ ?_
      simpa [waitsInVain, hws] using hvain
  | case6 i ht => exact ⟨h, nofun⟩
  | case7 i t ht =>
      obtain ⟨rfl, hflight⟩ := h.inFlight hcrashed ht
      exact ⟨hflight.fail, nofun⟩
  | case8 ws request body => exact ⟨h.answer ws request body, nofun⟩
  | case9 ws body => exact hturn.elim

end Orderly

theorem orderly_new (password : Bytes) : ({ obsPassword := password } : OBSService).Orderly :=
  Or.inr (Or.inl ⟨rfl, fun _ _ ↦ ⟨rfl, rfl⟩⟩)

theorem Orderly.answered {s : OBSService} (h : s.Orderly) {es : List Event}
    (hturn : machine.Along InTurn s es) :
    ∀ r, some r ∈ machine.trace s es → r.frame.requestId = some r.command := by
  induction es generalizing s with
  | nil => simp
  | cons ev es ih =>
      obtain ⟨hnext, hreturned⟩ := h.step hturn.1
      intro r hr
      rcases List.mem_cons.mp hr with hhead | htail
      · exact hreturned r hhead.symm
      · exact ih hnext hturn.2 r htail

/-- Two commands one after the other, on a connection that the first one opens. -/
def oneByOne : List Event :=
  [.call, .resume 0, .resume 0, .resume 0, .resume 0, .answer 0 1 (some .null), .resume 0,
    .call, .resume 0, .answer 0 2 (some .null), .resume 0]

/-- OBS reports a change of the scene before it answers. -/
def sceneChange : List Event :=
  [.call, .resume 0, .resume 0, .resume 0, .resume 0,
    .notify 0 (some .null), .answer 0 1 (some .null), .resume 0,
    .call, .resume 0, .answer 0 2 (some .null), .resume 0]

end OBSService

end Seraphbot.Obs
