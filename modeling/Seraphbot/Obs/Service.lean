import Seraphbot.Core.Json
import Seraphbot.Data.Machine

/-!
# The OBS service

The model of `obs/obsservice.hpp`: coroutines that send commands to OBS over one
websocket and read the answers from it.  Each command carries a number of its
own, and OBS puts it into the response.

A coroutine runs from one `co_await` to the next, and `Task` says at which one it
is suspended.  The service keeps a pointer to the stream of the latest
connection, which every operation reads anew; an operation that was started on an
older stream goes on there, so tasks remember the stream they wait for.

OBS is the other end of the streams.  It receives what is written, answers the
requests it has received in any order, and sends events on its own account.  Of the
websocket library it is assumed that a stream is dead once an operation on it has
failed: nothing is delivered on it any more.  A text that cannot be parsed makes
`receiveMessage` throw as well, but the stream lives on.
-/

namespace Seraphbot.Obs

/-! ## The service -/

/-- A message from OBS: the `requestId` if it is a response, and the parsed text,
`none` if that fails. -/
structure Frame where
  requestId : Option UInt64
  body : Option Json

/-- A websocket stream, seen from its other end. -/
structure Stream where
  dead : Bool := false
  /-- The requests that OBS has received and not answered. -/
  requests : List UInt64 := []
  /-- What OBS has sent and nobody has read. -/
  inbound : List Frame := []

/-- Where `connectToOBS` is suspended, and on which stream. -/
inductive Stage where
  | resolve
  | connect (ws : Nat)
  | handshake (ws : Nat)
  /-- In `authenticate`, whose request has that number. -/
  | authWrite (ws : Nat) (request : UInt64)
  | authRead (ws : Nat) (request : UInt64)
  | identify (ws : Nat)

/-- A suspended coroutine. -/
inductive Task where
  /-- In `connectToOBS`, called for the command with that number, or by
  `playVideo` before it has made one. -/
  | connecting (command : Option UInt64) (stage : Stage)
  /-- In the `sendMessage` of `sendOBSCommand`. -/
  | writing (ws : Nat) (command : UInt64)
  /-- In the `receiveMessage` of `sendOBSCommand`. -/
  | reading (ws : Nat) (command : UInt64)

/-- The stream a task waits for. -/
def Task.stream : Task → Option Nat
  | .connecting _ .resolve => none
  | .connecting _ (.connect ws) | .connecting _ (.handshake ws)
  | .connecting _ (.authWrite ws _) | .connecting _ (.authRead ws _)
  | .connecting _ (.identify ws) | .writing ws _ | .reading ws _ => some ws

/-- `OBSService`, the tasks in it, and the streams it has opened. -/
structure OBSService where
  obsPassword : Bytes := []
  ws : Option Nat := none
  connected : Bool := false
  requestId : UInt64 := 1
  tasks : List Task := []
  opened : Nat := 0
  streams : Nat → Stream := fun _ ↦ {}
  /-- A null pointer was followed; nothing is said about what comes then. -/
  crashed : Bool := false

/-- A call of `sendOBSCommand` that has returned. -/
structure Returned where
  command : UInt64
  frame : Frame

namespace OBSService

def setTask (i : Nat) (t : Task) (s : OBSService) : OBSService :=
  { s with tasks := s.tasks.set i t }

def endTask (i : Nat) (s : OBSService) : OBSService := { s with tasks := s.tasks.eraseIdx i }

def onStream (ws : Nat) (f : Stream → Stream) (s : OBSService) : OBSService :=
  { s with streams := Function.update s.streams ws (f (s.streams ws)) }

/-- The task awaits an operation on `*m_ws`. -/
def await (i : Nat) (t : Nat → Task) (s : OBSService) : OBSService :=
  match s.ws with
  | none => { s with crashed := true }
  | some ws => s.setTask i (t ws)

/-- The request reaches OBS. -/
def deliver (ws : Nat) (request : UInt64) (s : OBSService) : OBSService :=
  s.onStream ws fun l ↦ { l with requests := l.requests ++ [request] }

/-- The first frame that is waiting on a stream is taken off it. -/
def take (ws : Nat) (s : OBSService) : OBSService :=
  s.onStream ws fun l ↦ { l with inbound := l.inbound.tail }

def kill (ws : Nat) (s : OBSService) : OBSService := s.onStream ws fun l ↦ { l with dead := true }

/-- The second half of `sendOBSCommand`, up to its first suspension. -/
def sendMessage (i : Nat) (command : UInt64) (s : OBSService) : OBSService :=
  s.await i fun ws ↦ .writing ws command

/-- `sendOBSCommand`, up to its first suspension. -/
def sendOBSCommand (i : Nat) (command : UInt64) (s : OBSService) : OBSService :=
  if s.connected then s.sendMessage i command
  else s.setTask i (.connecting (some command) .resolve)

/-- The number for a command, and a call with it. -/
def sendNext (i : Nat) (s : OBSService) : OBSService :=
  { s with requestId := s.requestId + 1 }.sendOBSCommand i s.requestId

/-- `connectToOBS` returns.  Its callers do not look at the result. -/
def connectReturns (i : Nat) (command : Option UInt64) (connected : Bool) (s : OBSService) :
    OBSService :=
  match command with
  | some command => { s with connected }.sendMessage i command
  | none => { s with connected }.sendNext i

/-- Does the answer ask for an identification?  Challenge and salt have to be
strings then. -/
def authRequired (response : Json) : Option Bool := do
  if !response.contains "d" then return false
  let d ← response.index "d"
  if !d.contains "authRequired" then return false
  if !(← d.index "authRequired").isTrue then return false
  let _ ← (← d.index "challenge").getString
  let _ ← (← d.index "salt").getString
  return true

/-- `connectToOBS` goes on after the operation it awaited has succeeded. -/
def resumeConnect (i : Nat) (command : Option UInt64) (s : OBSService) : Stage → OBSService
  | .resolve =>
      { s with ws := some s.opened, opened := s.opened + 1 }.await i
        fun ws ↦ .connecting command (.connect ws)
  | .connect _ => s.await i fun ws ↦ .connecting command (.handshake ws)
  | .handshake _ =>
      if s.obsPassword ≠ [] then
        { s with requestId := s.requestId + 1 }.await i
          fun ws ↦ .connecting command (.authWrite ws s.requestId)
      else s.connectReturns i command true
  | .authWrite ws request =>
      (s.deliver ws request).await i fun ws ↦ .connecting command (.authRead ws request)
  | .authRead ws _ =>
      match (s.streams ws).inbound with
      | [] => s
      | frame :: _ =>
          match frame.body.bind authRequired with
          | none => (s.take ws).connectReturns i command false
          | some false => (s.take ws).connectReturns i command true
          | some true => (s.take ws).await i fun ws ↦ .connecting command (.identify ws)
  | .identify _ => s.connectReturns i command true

/-- A task goes on after the operation it awaited has succeeded. -/
def resume (i : Nat) (s : OBSService) : Task → OBSService × Option Returned
  | .connecting command stage => (s.resumeConnect i command stage, none)
  | .writing ws command => ((s.deliver ws command).await i fun ws ↦ .reading ws command, none)
  | .reading ws command =>
      match (s.streams ws).inbound with
      | [] => (s, none)
      | frame :: _ =>
          match frame.body with
          -- the exception goes to the caller
          | none => ((s.take ws).endTask i, none)
          | some _ => ((s.take ws).endTask i, some ⟨command, frame⟩)

/-- The operation a task awaited has failed: `connectToOBS` catches the exception,
`sendOBSCommand` does not. -/
def fail (i : Nat) (s : OBSService) : Task → OBSService
  | .connecting command stage =>
      match (Task.connecting command stage).stream with
      | none => s.connectReturns i command false
      | some ws => (s.kill ws).connectReturns i command false
  | .writing ws _ | .reading ws _ => (s.kill ws).endTask i

end OBSService

/-! ## Callers and OBS -/

inductive Event where
  /-- `getSourceId`, `getMediaDuration` or `playVideo` builds a command and calls
  `sendOBSCommand` with it. -/
  | call
  /-- `playVideo` is called. -/
  | playVideo
  /-- The operation that the task at this position awaits is over. -/
  | resume (i : Nat)
  | fail (i : Nat)
  /-- OBS answers a request it has received on a stream. -/
  | answer (ws : Nat) (request : UInt64) (body : Option Json)
  /-- OBS sends something else. -/
  | notify (ws : Nat) (body : Option Json)

namespace OBSService

/-- A new coroutine, at the position after the others. -/
def spawn (t : Task) (s : OBSService) : OBSService := { s with tasks := s.tasks ++ [t] }

/-- `playVideo`, up to its first suspension. -/
def playVideo (s : OBSService) : OBSService :=
  let s' := s.spawn (.connecting none .resolve)
  if s.connected then s'.sendNext s.tasks.length else s'

/-- Is the task at a position waiting for a stream that is dead? -/
def waitsInVain (t : Task) (s : OBSService) : Bool := t.stream.any fun ws ↦ (s.streams ws).dead

def answer (ws : Nat) (request : UInt64) (body : Option Json) (s : OBSService) : OBSService :=
  if (s.streams ws).dead ∨ request ∉ (s.streams ws).requests then s
  else s.onStream ws fun l ↦
    { l with
      requests := l.requests.erase request
      inbound := l.inbound ++ [⟨some request, body⟩] }

def notify (ws : Nat) (body : Option Json) (s : OBSService) : OBSService :=
  if (s.streams ws).dead then s
  else s.onStream ws fun l ↦ { l with inbound := l.inbound ++ [⟨none, body⟩] }

def step (s : OBSService) : Event → OBSService × Option Returned
  | .call => ((s.spawn (.connecting none .resolve)).sendNext s.tasks.length, none)
  | .playVideo => (s.playVideo, none)
  | .resume i =>
      match s.tasks[i]? with
      | none => (s, none)
      | some t => if s.waitsInVain t then (s, none) else s.resume i t
  | .fail i =>
      match s.tasks[i]? with
      | none => (s, none)
      | some t => (s.fail i t, none)
  | .answer ws request body => (s.answer ws request body, none)
  | .notify ws body => (s.notify ws body, none)

/-- Any number of callers, in any interleaving with each other and with OBS. -/
def machine : Machine OBSService Event (Option Returned) where
  step s ev := if s.crashed then (s, none) else s.step ev

end OBSService

end Seraphbot.Obs
