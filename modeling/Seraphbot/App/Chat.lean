import Mathlib.Logic.Function.Iterate
import Seraphbot.Core.Dispatch
import Seraphbot.Data.Machine
import Seraphbot.Twitch.EventSub

/-!
# From the socket to the chat log

The model of the way of a chat message: `EventSub::doRead` reads a frame and hands
it to `handleEventSubMessage`, the callback of `setupCallbacks` pushes the message
onto the queue of `AppState` and then lets the parser execute it, and the thread of
the user interface moves the queue to the chat log with `processPendingMessages`.

The reading coroutine and the user interface share the queue and its mutex.
Everything else that a command can act on is a state `σ` of its own, and what the
handlers do to it is part of the event, so nothing is assumed about them but that
the queue is not theirs.

Nothing is lost, duplicated or reordered on the way: `chatLog_append_pending`.
-/

universe u v

namespace Seraphbot

open EventSub CommandParser

/-- `sbot::core::AppState`. -/
structure AppState where
  pendingMessages : List ChatMessage := []
  chatLog : List ChatMessage := []
  /-- Is `processPendingMessages` holding the mutex? -/
  processing : Bool := false

namespace AppState

def pushChatMessage (msg : ChatMessage) (a : AppState) : AppState :=
  { a with pendingMessages := a.pendingMessages ++ [msg] }

/-- One round of the loop of `processPendingMessages`, which ends by giving the
mutex back. -/
def processPending (a : AppState) : AppState :=
  match a.pendingMessages with
  | [] => { a with processing := false }
  | msg :: rest => { a with chatLog := a.chatLog ++ [msg], pendingMessages := rest }

/-- `processPendingMessages` as a whole: one round for each message, and the last one. -/
def processPendingMessages (a : AppState) : AppState :=
  processPending^[a.pendingMessages.length + 1] { a with processing := true }

/-- The messages that have arrived. -/
def arrived (a : AppState) : List ChatMessage := a.chatLog ++ a.pendingMessages

@[simp] theorem arrived_pushChatMessage (msg : ChatMessage) (a : AppState) :
    (a.pushChatMessage msg).arrived = a.arrived ++ [msg] := by
  simp [arrived, pushChatMessage]

@[simp] theorem arrived_processPending (a : AppState) : a.processPending.arrived = a.arrived := by
  unfold processPending
  split
  · rfl
  · rename_i msg rest hpending
    simp [arrived, hpending]

end AppState

/-- Where `doRead` is. -/
inductive Reader where
  /-- It awaits the next frame. -/
  | awaiting
  /-- It has called its callback with a frame. -/
  | handling (msg : Bytes)
  /-- The message callback is about to push what was made of the frame. -/
  | pushing (msg : Bytes) (chat : ChatMessage)
  /-- The message callback is about to execute the message. -/
  | executing (chat : ChatMessage)
  | ended
  /-- A badge without a `set_id` was looked into. -/
  | undefined

/-- The frame that has been read and not been processed. -/
def Reader.inHand : Reader → List Bytes
  | .handling msg | .pushing msg _ => [msg]
  | _ => []

/-- The chat, and what the commands act on. -/
structure Chat (σ : Type v) where
  app : AppState := {}
  reader : Reader := .awaiting
  /-- Has `EventSub::start` set `m_callback`? -/
  callback : Bool := false
  rest : σ

inductive ChatEvent (H : Type u) (σ : Type v) where
  | start
  /-- A read has completed. -/
  | frame (msg : Bytes)
  /-- A read has failed, or the socket is closed. -/
  | close
  /-- The reader goes on, up to the message callback. -/
  | handle
  | push
  /-- The parser executes the message, with handlers that do whatever they do. -/
  | execute (invoke : H → CommandContext → σ → Outcome × σ)
  /-- The user interface calls `processPendingMessages`. -/
  | lock
  | process

/-- What happens to a frame. -/
inductive FrameMark where
  | read (msg : Bytes)
  /-- It has been dropped, or its message is in the queue. -/
  | processed (msg : Bytes)

/-- The frame that a mark says was read. -/
@[simp] def FrameMark.wasRead : FrameMark → Option Bytes
  | .read msg => some msg
  | .processed _ => none

/-- The frame that a mark says was processed. -/
@[simp] def FrameMark.wasProcessed : FrameMark → Option Bytes
  | .read _ => none
  | .processed msg => some msg

namespace Chat

variable {H : Type u} {σ : Type v} (parse : Bytes → Option Json) (parser : σ → CommandParser H)

/-- The reader goes on from where it is. -/
def handle (c : Chat σ) : Chat σ × Option FrameMark :=
  match c.reader with
  | .handling msg =>
      match handleEventSubMessage parse true msg with
      | .dropped => ({ c with reader := .awaiting }, some (.processed msg))
      | .message chat => ({ c with reader := .pushing msg chat }, none)
      | .undefined => ({ c with reader := .undefined }, none)
  | _ => (c, none)

/-- `pushChatMessage`, which waits for the mutex. -/
def push (c : Chat σ) : Chat σ × Option FrameMark :=
  match c.reader with
  | .pushing msg chat =>
      if c.app.processing then (c, none)
      else
        ({ c with app := c.app.pushChatMessage chat, reader := .executing chat },
          some (.processed msg))
  | _ => (c, none)

/-- The rest of the message callback.  Only what is not a `std::exception` gets out
of it, and out of the loop. -/
def execute (invoke : H → CommandContext → σ → Outcome × σ) (c : Chat σ) : Chat σ :=
  match c.reader with
  | .executing chat =>
      let result := parseAndExecute parser invoke chat c.rest
      { c with rest := result.2, reader := if result.1.isSome then .awaiting else .ended }
  | _ => c

/-- A frame that has been read goes to the callback, if there is one. -/
def frame (msg : Bytes) (c : Chat σ) : Chat σ × Option FrameMark :=
  match c.reader with
  | .awaiting =>
      if c.callback then ({ c with reader := .handling msg }, some (.read msg)) else (c, none)
  | _ => (c, none)

def close (c : Chat σ) : Chat σ :=
  match c.reader with
  | .awaiting => { c with reader := .ended }
  | _ => c

/-- The reading coroutine and the user interface, in any interleaving. -/
def machine : Machine (Chat σ) (ChatEvent H σ) (Option FrameMark) where
  step c
    | .start => ({ c with callback := true }, none)
    | .frame msg => c.frame msg
    | .close => (c.close, none)
    | .handle => c.handle parse
    | .push => c.push
    | .execute invoke => (c.execute parser invoke, none)
    | .lock => ({ c with app := { c.app with processing := true } }, none)
    | .process =>
        if c.app.processing then ({ c with app := c.app.processPending }, none) else (c, none)

/-! ## Frames -/

/-- The frames that were read, in this order. -/
def readFrames (marks : List (Option FrameMark)) : List Bytes :=
  marks.filterMap (·.bind FrameMark.wasRead)

/-- The frames that were processed, in this order. -/
def processedFrames (marks : List (Option FrameMark)) : List Bytes :=
  marks.filterMap (·.bind FrameMark.wasProcessed)

@[simp] theorem readFrames_concat (marks : List (Option FrameMark)) (o : Option FrameMark) :
    readFrames (marks ++ [o]) = readFrames marks ++ (o.bind FrameMark.wasRead).toList := by
  cases h : o.bind FrameMark.wasRead <;> simp [readFrames, h]

@[simp] theorem processedFrames_concat (marks : List (Option FrameMark)) (o : Option FrameMark) :
    processedFrames (marks ++ [o]) =
      processedFrames marks ++ (o.bind FrameMark.wasProcessed).toList := by
  cases h : o.bind FrameMark.wasProcessed <;> simp [processedFrames, h]

/-! ## One step -/

/-- Every badge in a frame that is an object has a `set_id`. -/
def BadgesHaveIds (msg : Bytes) : Prop := ∀ raw, parse msg = some raw → HaveIds (badgesOf raw)

/-- The messages that have arrived are those of the frames that were processed, and
at most one frame has been read beyond them. -/
structure Kept (marks : List (Option FrameMark)) (c : Chat σ) : Prop where
  arrived : c.app.arrived = (processedFrames marks).flatMap (decode parse)
  frames : readFrames marks = processedFrames marks ++ c.reader.inHand
  handling : ∀ msg, c.reader = .handling msg → BadgesHaveIds parse msg
  pushing : ∀ msg chat, c.reader = .pushing msg chat → standsFor parse msg = some chat
  defined : c.reader ≠ .undefined

namespace Kept

variable {parse} {marks : List (Option FrameMark)} {c : Chat σ}

/-- A step that does not report anything and leaves the reader where it is. -/
theorem silent (h : Kept parse marks c) : Kept parse (marks ++ [none]) c :=
  ⟨by simpa using h.arrived, by simpa using h.frames, h.handling, h.pushing, h.defined⟩

/-- The reader moves between two places at which it has nothing in hand. -/
theorem move (h : Kept parse marks c) {c' : Chat σ} (happ : c'.app = c.app)
    (hhand : c.reader.inHand = []) (hreader : c'.reader = .awaiting ∨ c'.reader = .ended) :
    Kept parse marks c' := by
  have hhand' : c'.reader.inHand = [] := by rcases hreader with hr | hr <;> rw [hr] <;> rfl
  refine ⟨happ ▸ h.arrived, ?_, ?_, ?_, ?_⟩
  · rw [hhand', ← hhand]
    exact h.frames
  all_goals rcases hreader with hr | hr <;> simp [hr]

theorem frame (h : Kept parse marks c) {msg : Bytes} (hids : BadgesHaveIds parse msg) :
    Kept parse (marks ++ [(c.frame msg).2]) (c.frame msg).1 := by
  fun_cases Chat.frame msg c with
  | case1 hreader hcallback =>
      refine ⟨by simpa using h.arrived, ?_, ?_, by simp, by simp⟩
      · simpa [hreader, Reader.inHand] using h.frames
      · rintro msg' ⟨⟩
        exact hids
  | case2 => exact h.silent
  | case3 => exact h.silent

theorem handle (h : Kept parse marks c) :
    Kept parse (marks ++ [(c.handle parse).2]) (c.handle parse).1 := by
  fun_cases Chat.handle parse c with
  | case1 msg hreader hhandled =>
      have hnone := standsFor_of_dropped (h.handling msg hreader) hhandled
      refine ⟨?_, ?_, by simp, by simp, by simp⟩
      · simpa [decode, hnone] using h.arrived
      · simpa [hreader, Reader.inHand] using h.frames
  | case2 msg hreader chat hhandled =>
      have hsome := standsFor_of_message (h.handling msg hreader) hhandled
      refine ⟨by simpa using h.arrived, ?_, by simp, ?_, by simp⟩
      · simpa [hreader, Reader.inHand] using h.frames
      · rintro msg' chat' ⟨⟩
        exact hsome
  | case3 msg hreader hhandled => exact (not_undefined (h.handling msg hreader) hhandled).elim
  | case4 => exact h.silent

theorem push (h : Kept parse marks c) : Kept parse (marks ++ [c.push.2]) c.push.1 := by
  fun_cases Chat.push c with
  | case1 => exact h.silent
  | case2 msg chat hreader hfree =>
      have hsome := h.pushing msg chat hreader
      refine ⟨?_, ?_, by simp, by simp, by simp⟩
      · simp [decode, hsome, h.arrived]
      · simpa [hreader, Reader.inHand] using h.frames
  | case3 => exact h.silent

theorem execute (h : Kept parse marks c) (parser : σ → CommandParser H)
    (invoke : H → CommandContext → σ → Outcome × σ) :
    Kept parse marks (c.execute parser invoke) := by
  fun_cases Chat.execute parser invoke c with
  | case1 chat hreader result =>
      refine h.move rfl (by rw [hreader]; rfl) ?_
      dsimp only
      split
      · exact Or.inl rfl
      · exact Or.inr rfl
  | case2 => exact h

theorem close (h : Kept parse marks c) : Kept parse marks c.close := by
  fun_cases Chat.close c with
  | case1 hreader => exact h.move rfl (by rw [hreader]; rfl) (Or.inr rfl)
  | case2 => exact h

/-- The user interface does not change what has arrived. -/
theorem onApp (h : Kept parse marks c) {app : AppState} (happ : app.arrived = c.app.arrived) :
    Kept parse marks { c with app } :=
  ⟨happ.trans h.arrived, h.frames, h.handling, h.pushing, h.defined⟩

theorem step (h : Kept parse marks c) (parser : σ → CommandParser H) {ev : ChatEvent H σ}
    (hids : ∀ msg, ev = .frame msg → BadgesHaveIds parse msg) :
    Kept parse (marks ++ [((machine parse parser).step c ev).2])
      ((machine parse parser).step c ev).1 := by
  cases ev with
  | start => exact ⟨h.silent.arrived, h.silent.frames, h.handling, h.pushing, h.defined⟩
  | frame msg => exact h.frame (hids msg rfl)
  | close => exact h.close.silent
  | handle => exact h.handle
  | push => exact h.push
  | execute invoke => exact (h.execute parser invoke).silent
  | lock =>
      have hlock : Kept parse marks { c with app := { c.app with processing := true } } :=
        h.onApp rfl
      exact hlock.silent
  | process =>
      simp only [machine]
      split
      · exact (h.onApp (by simp)).silent
      · exact h.silent

end Kept

/-! ## Runs -/

theorem kept_run (parser : σ → CommandParser H) (rest : σ) {es : List (ChatEvent H σ)}
    (hids : ∀ msg, .frame msg ∈ es → BadgesHaveIds parse msg) :
    Kept parse ((machine parse parser).trace { rest } es)
      ((machine parse parser).run { rest } es) := by
  induction es using List.reverseRecOn with
  | nil => exact ⟨rfl, rfl, nofun, nofun, nofun⟩
  | append_singleton es ev ih =>
      rw [Machine.trace_concat, Machine.run_concat]
      refine (ih fun msg hmsg ↦ hids msg (by simp [hmsg])).step parser ?_
      rintro msg rfl
      exact hids msg (by simp)

/-- No handler throws anything but a `std::exception`. -/
def OnlyStd (invoke : H → CommandContext → σ → Outcome × σ) : Prop :=
  ∀ h ctx x, (invoke h ctx x).1 ≠ .otherException

theorem isSome_parseAndExecute {invoke : H → CommandContext → σ → Outcome × σ}
    (hstd : OnlyStd invoke) (chat : ChatMessage) (rest : σ) :
    (parseAndExecute parser invoke chat rest).1.isSome = true := by
  rw [parseAndExecute_eq]
  dsimp only
  split
  · rfl
  · rename_i h _
    have hout := hstd h ⟨chat, ((parser rest).parseCommand chat.text).1,
      ((parser rest).parseCommand chat.text).2⟩ rest
    cases ho : (invoke h ⟨chat, ((parser rest).parseCommand chat.text).1,
      ((parser rest).parseCommand chat.text).2⟩ rest).1 with
    | returned => rfl
    | stdException => rfl
    | otherException => exact absurd ho hout

/-- Neither a frame nor a command ends the loop. -/
theorem reader_step_ne_ended {c : Chat σ} (hc : c.reader ≠ .ended) {ev : ChatEvent H σ}
    (hstd : ∀ invoke, ev = .execute invoke → OnlyStd invoke) (hclose : ev ≠ .close) :
    ((machine parse parser).step c ev).1.reader ≠ .ended := by
  cases ev with
  | start => exact hc
  | frame msg =>
      change (c.frame msg).1.reader ≠ _
      fun_cases Chat.frame msg c <;> simp_all
  | close => exact absurd rfl hclose
  | handle =>
      change (c.handle parse).1.reader ≠ _
      fun_cases Chat.handle parse c <;> simp_all
  | push =>
      change c.push.1.reader ≠ _
      fun_cases Chat.push c <;> simp_all
  | execute invoke =>
      change (c.execute parser invoke).reader ≠ _
      fun_cases Chat.execute parser invoke c with
      | case1 chat hreader result =>
          simp [result, isSome_parseAndExecute parser (hstd invoke rfl)]
      | case2 => exact hc
  | lock => exact hc
  | process =>
      simp only [machine]
      split <;> exact hc

theorem reader_run_ne_ended (rest : σ) {es : List (ChatEvent H σ)}
    (hstd : ∀ invoke, .execute invoke ∈ es → OnlyStd invoke) (hclose : .close ∉ es) :
    ((machine parse parser).run { rest } es).reader ≠ .ended := by
  induction es using List.reverseRecOn with
  | nil => exact nofun
  | append_singleton es ev ih =>
      rw [Machine.run_concat]
      refine reader_step_ne_ended parse parser
        (ih (fun invoke hi ↦ hstd invoke (by simp [hi])) fun hc ↦ hclose (by simp [hc])) ?_ ?_
      · rintro invoke rfl
        exact hstd invoke (by simp)
      · rintro rfl
        exact hclose (by simp)

/-- **Nothing is lost, duplicated or reordered.**  At every moment of every
interleaving of the reading coroutine with the user interface, the chat log
followed by the queue is the concatenation of what the frames processed so far
stand for, as long as every badge that is an object has a `set_id`.  The frames
processed are those read, in this order, except for one that may be in hand.  The
commands act on `σ`, whatever they do to it; as long as they throw nothing but
`std::exception`s, only a read that fails ends the loop. -/
theorem chatLog_append_pending (rest : σ) (es : List (ChatEvent H σ))
    (hids : ∀ msg, .frame msg ∈ es → BadgesHaveIds parse msg) :
    let c := (machine parse parser).run { rest } es
    let marks := (machine parse parser).trace { rest } es
    c.app.chatLog ++ c.app.pendingMessages = (processedFrames marks).flatMap (decode parse) ∧
      readFrames marks = processedFrames marks ++ c.reader.inHand ∧
      c.reader ≠ .undefined ∧
      ((∀ invoke, .execute invoke ∈ es → OnlyStd invoke) → .close ∉ es → c.reader ≠ .ended) :=
  have h := kept_run parse parser rest hids
  ⟨h.arrived, h.frames, h.defined, reader_run_ne_ended parse parser rest⟩

/-- The notification of a chat message. -/
def hug : Json :=
  .object
    [(bytes "metadata", .object
        [(bytes "message_type", .string (bytes "notification")),
          (bytes "subscription_type", .string (bytes "channel.chat.message"))]),
      (bytes "payload", .object
        [(bytes "event", .object
          [(bytes "chatter_user_name", .string (bytes "Ayla")),
            (bytes "message", .object [(bytes "text", .string (bytes "!hug"))]),
            (bytes "color", .string (bytes "#FF0000")),
            (bytes "badges", .array [.object [(bytes "set_id", .string (bytes "vip"))]])])])]

/-- A parser that knows one text. -/
def knowsHug (msg : Bytes) : Option Json := if msg = bytes "hug" then some hug else none

/-- A message whose command throws, and a frame that cannot be parsed.  The queue is
processed twice in between. -/
def twoFrames : List (ChatEvent Unit Unit) :=
  [.start, .frame (bytes "hug"), .handle, .lock, .process, .push,
    .execute fun _ _ _ ↦ (.stdException, ()), .lock, .process, .process,
    .frame (bytes "junk"), .handle]

theorem chatLog_twoFrames :
    let M := machine knowsHug fun _ : Unit ↦ registerAll [(bytes "hug", some ())]
    let c := M.run { rest := () } twoFrames
    let marks := M.trace { rest := () } twoFrames
    c.app.chatLog = [⟨bytes "Ayla", bytes "!hug", bytes "#FF0000", [bytes "vip"]⟩] ∧
      readFrames marks = [bytes "hug", bytes "junk"] ∧
      c.app.chatLog ++ c.app.pendingMessages =
        (processedFrames marks).flatMap (decode knowsHug) := by
  refine ⟨rfl, rfl, (chatLog_append_pending knowsHug _ () twoFrames ?_).1⟩
  intro msg _ raw hraw members hmem
  obtain ⟨-, rfl⟩ : msg = bytes "hug" ∧ hug = raw := by simpa [knowsHug] using hraw
  rw [List.mem_singleton.mp hmem]
  rfl

end Chat

end Seraphbot
