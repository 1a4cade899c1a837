import Seraphbot.Data.Parallel
import Seraphbot.Twitch.Interleaving

/-!
# Coroutines that outlive their object

The coroutines of `EventSub` run on a plain `this`.  Nothing keeps the object alive for
them: `disconnect` destroys it whoever is in the middle of `connect`, `subscribe` or
`doRead`, and so does `setupChatServices` when it makes the next one.  A coroutine that
goes on afterwards and uses a member reads memory that was freed.

The service is followed together with the objects and with the coroutines on them.
Objects are numbered in the order in which they are made; the last one is alive as long
as `m_eventsub` points to it.

* A call of `connectToChat` awaits `connect`, which uses the object in every segment, and
  later `subscribe` through `requestSubscription`.
* `start`, the seven further calls of `subscribe` and the read loop are spawned and not
  awaited.
* `subscribe` uses the object when it begins and when its request was answered well, to
  set up a timer.  An exception and the end of the timer do not use it.
* The read loop waits on the socket of the object.  When a message is there already, the
  loop goes on and takes it out of the buffer of the object.

What happens to a wait on a socket that is destroyed is not for this program to say, and
the library does not allow it.  The best is assumed: that the wait is aborted, and the
loop ends with that without using anything.

The service takes no notice of the objects: what is followed here is a run of the service
(`exists_run_service`).  What a call of `connectToChat` awaits goes with the place at
which the service has it suspended (`Linked`), and this holds in all runs.
-/

namespace Seraphbot

open Twitch

/-- What a call of `connectToChat` awaits, as far as an `EventSub` is concerned. -/
structure Awaited where
  owner : Nat
  /-- Is it going to use the object? -/
  busy : Bool
deriving DecidableEq

/-- Where a spawned coroutine of `EventSub` is. -/
inductive DetachedPc where
  /-- `start` has not begun. -/
  | start
  /-- `subscribe` has not begun. -/
  | subscribe
  /-- `subscribe` waits for the response. -/
  | posting
  /-- `subscribe` waits for the subscription to become active. -/
  | waiting
  /-- `doRead` waits for a message. -/
  | reading
  /-- `doRead` has a message and is about to go on. -/
  | arrived
deriving DecidableEq

/-- Is it going to use the object, unless an exception prevents it? -/
def DetachedPc.busy : DetachedPc → Bool
  | .start | .subscribe | .posting | .arrived => true
  | .waiting | .reading => false

structure Detached where
  owner : Nat
  pc : DetachedPc
deriving DecidableEq

/-- The service with its `EventSub` objects and the coroutines on them. -/
structure Lifetimes where
  service : TwitchService
  /-- How many objects were made so far. -/
  made : Nat := 0
  /-- One for each call of `connectToChat` in flight. -/
  awaited : List Awaited := []
  detached : List Detached := []
  /-- An object was used after it was destroyed. -/
  freed : Bool := false

namespace Lifetimes

def alive (k : Nat) (t : Lifetimes) : Bool := t.service.eventsub.isSome && k == t.made

/-- The objects that are going to be used. -/
def users (t : Lifetimes) : List Nat :=
  (t.awaited.filter (·.busy)).map (·.owner) ++ (t.detached.filter (·.pc.busy)).map (·.owner)

/-- A member of the `k`-th object is used. -/
def use (k : Nat) (t : Lifetimes) : Lifetimes := { t with freed := t.freed || !t.alive k }

/-! ## Steps -/

/-- The first segment of `connectToChat`, up to the wait in `connect`. -/
def connectToChat (t : Lifetimes) : Lifetimes :=
  let service := t.service.connectToChat.1
  if t.service.state ≠ .loggedIn then { t with service }
  else { t with
    service
    made := t.made + 1
    awaited := t.awaited ++ [⟨t.made + 1, true⟩] }

/-- Resume the `i`-th call of `connectToChat`, whose awaited operation has come to its
end. -/
def resumeConnect (i : Nat) (r : Resumption Unit) (t : Lifetimes) : Lifetimes :=
  let service := (t.service.resumeConnect i r).1
  match t.service.connects[i]?, t.awaited[i]?, r with
  | some _, some _, .threw _ => { t with service, awaited := t.awaited.eraseIdx i }
  | some .connect, some a, .returned _ =>
      -- the session is stored in the object `connect` was called on
      { t.use a.owner with
        service
        awaited := t.awaited.set i ⟨a.owner, false⟩
        detached := t.detached ++ [⟨t.made, .start⟩] }
  | some .timer, some _, .returned _ =>
      { t with service, awaited := t.awaited.set i ⟨t.made, true⟩ }
  | some .requestSubscription, some a, .returned _ =>
      -- `subscribe` does not return before it was answered
      if a.busy then t
      else { t with
        service
        awaited := t.awaited.eraseIdx i
        detached := t.detached ++
          TwitchService.subscriptions.map fun _ ↦ ⟨t.made, .subscribe⟩ }
  | _, _, _ => t

/-- A spawned read loop starts.  A loop that finds the socket closed is one whose wait
ends at once. -/
def startRead (t : Lifetimes) : Lifetimes :=
  let service := t.service.startRead.1
  match t.service.reads, t.service.eventsub with
  | _ + 1, some _ => { t with service, detached := t.detached ++ [⟨t.made, .reading⟩] }
  | _, _ => { t with service }

/-- What the `i`-th call of `connectToChat` awaits goes on: `connect` from one handshake
to the next, `subscribe` to its timer. -/
def goOn (i : Nat) (t : Lifetimes) : Lifetimes :=
  match t.service.connects[i]?, t.awaited[i]? with
  | some .connect, some a => t.use a.owner
  | some .requestSubscription, some ⟨k, true⟩ =>
      { t.use k with awaited := t.awaited.set i ⟨k, false⟩ }
  | _, _ => t

/-- A message arrives for the `i`-th spawned coroutine. -/
def arrive (i : Nat) (t : Lifetimes) : Lifetimes :=
  match t.detached[i]? with
  | some ⟨k, .reading⟩ =>
      if t.alive k then { t with detached := t.detached.set i ⟨k, .arrived⟩ } else t
  | _ => t

/-- Start or resume the `i`-th spawned coroutine.  For a response, `ok` says that it is
not an error; for a message, that the socket is still open when it has been handled. -/
def resume (i : Nat) (ok : Bool) (t : Lifetimes) : Lifetimes :=
  match t.detached[i]? with
  | none => t
  | some ⟨k, .start⟩ => { t.use k with detached := t.detached.eraseIdx i }
  | some ⟨k, .subscribe⟩ => { t.use k with detached := t.detached.set i ⟨k, .posting⟩ }
  | some ⟨k, .posting⟩ =>
      if ok then { t.use k with detached := t.detached.set i ⟨k, .waiting⟩ }
      else { t with detached := t.detached.eraseIdx i }
  | some ⟨_, .waiting⟩ | some ⟨_, .reading⟩ => { t with detached := t.detached.eraseIdx i }
  | some ⟨k, .arrived⟩ =>
      if ok then { t.use k with detached := t.detached.set i ⟨k, .reading⟩ }
      else { t.use k with detached := t.detached.eraseIdx i }

/-- The atomic steps: those of the service, and those inside of an `EventSub`. -/
inductive Event where
  | service (ev : TwitchService.Event)
  | goOn (i : Nat)
  | arrive (i : Nat)
  | resume (i : Nat) (ok : Bool)

def act (t : Lifetimes) : Event → Lifetimes
  | .service .connectToChat => t.connectToChat
  | .service (.resumeConnect i r) => t.resumeConnect i r
  | .service .startRead => t.startRead
  | .service ev => { t with service := (t.service.act ev).1 }
  | .goOn i => t.goOn i
  | .arrive i => t.arrive i
  | .resume i ok => t.resume i ok

/-- The model ends where a null pointer or freed memory was used.  Only the users of
objects are followed, and nothing is emitted. -/
def machine : Machine Lifetimes Event Unit where
  step t ev := (if t.service.crashed || t.freed then t else t.act ev, ())

theorem step_of_running {t : Lifetimes} (hc : t.service.crashed = false) (hf : t.freed = false)
    (ev : Event) : (machine.step t ev).1 = t.act ev := by
  simp [machine, hc, hf]

theorem stopped_or_running (t : Lifetimes) :
    (t.service.crashed || t.freed) = true ∨ t.service.crashed = false ∧ t.freed = false := by
  cases t.service.crashed <;> cases t.freed <;> decide

theorem step_of_stopped {t : Lifetimes} (h : (t.service.crashed || t.freed) = true) (ev : Event) :
    (machine.step t ev).1 = t :=
  if_pos h

/-! ## Calls and what they await -/

/-- The two accounts of a call of `connectToChat` agree. -/
def Fits : ConnectPc → Awaited → Prop
  | .connect, a => a.busy = true
  | .timer, a => a.busy = false
  | .requestSubscription, _ => True

/-- What holds in all runs. -/
structure Linked (t : Lifetimes) : Prop where
  wired : t.service.Wired
  fits : t.service.crashed = false → List.Forall₂ Fits t.service.connects t.awaited

section

variable {s : TwitchService}

/-- Neither the object nor a call of `connectToChat` is concerned. -/
def Aside : TwitchService.Event → Prop
  | .connectToChat | .resumeConnect _ _ | .disconnect => False
  | _ => True

theorem act_aside (ev : TwitchService.Event) (hev : Aside ev) :
    (s.act ev).1.eventsub = s.eventsub ∧ (s.act ev).1.connects = s.connects := by
  cases ev with
  | startLogin =>
      change s.startLogin.1.eventsub = _ ∧ s.startLogin.1.connects = _
      fun_cases TwitchService.startLogin s <;> exact ⟨rfl, rfl⟩
  | resumeLogin i r =>
      change (s.resumeLogin i r).1.eventsub = _ ∧ (s.resumeLogin i r).1.connects = _
      fun_cases TwitchService.resumeLogin i r s <;> exact ⟨rfl, rfl⟩
  | startRead =>
      change s.startRead.1.eventsub = _ ∧ s.startRead.1.connects = _
      fun_cases TwitchService.startRead s <;> exact ⟨rfl, rfl⟩
  | sendMessage message =>
      change (s.sendMessage message).1.eventsub = _ ∧ (s.sendMessage message).1.connects = _
      fun_cases TwitchService.sendMessage message s <;> exact ⟨rfl, rfl⟩
  | resumeSend i r =>
      change (s.resumeSend i r).1.eventsub = _ ∧ (s.resumeSend i r).1.connects = _
      fun_cases TwitchService.resumeSend i r s <;> exact ⟨rfl, rfl⟩
  | connectToChat | resumeConnect | disconnect => exact hev.elim

theorem resumeConnect_eventsub (i : Nat) (r : Resumption Unit) :
    (s.resumeConnect i r).1.eventsub = s.eventsub := by
  fun_cases TwitchService.resumeConnect i r s <;> rfl

end

/-- A step is one of the service, or the service takes no notice of it. -/
theorem act_service (t : Lifetimes) (ev : Event) :
    (t.act ev).service = t.service ∨
      ∃ e, ev = .service e ∧ (t.act ev).service = (t.service.act e).1 := by
  cases ev with
  | service e =>
      cases e with
      | connectToChat =>
          refine .inr ⟨_, rfl, ?_⟩
          change t.connectToChat.service = _
          fun_cases connectToChat t <;> rfl
      | resumeConnect i r =>
          change (t.resumeConnect i r).service = _ ∨ ∃ e, _ ∧ (t.resumeConnect i r).service = _
          fun_cases resumeConnect i r t with
          | case1 | case2 | case3 | case5 => exact .inr ⟨_, rfl, rfl⟩
          | case4 | case6 => exact .inl rfl
      | startRead =>
          refine .inr ⟨_, rfl, ?_⟩
          change t.startRead.service = _
          fun_cases startRead t <;> rfl
      | _ => exact .inr ⟨_, rfl, rfl⟩
  | goOn i =>
      refine .inl ?_
      change (t.goOn i).service = _
      fun_cases goOn i t <;> rfl
  | arrive i =>
      refine .inl ?_
      change (t.arrive i).service = _
      fun_cases arrive i t <;> rfl
  | resume i ok =>
      refine .inl ?_
      change (t.resume i ok).service = _
      fun_cases resume i ok t <;> rfl

/-- What is followed here is a run of the service. -/
theorem exists_run_service (t : Lifetimes) (es : List Event) :
    ∃ es', (machine.run t es).service = TwitchService.machine.run t.service es' := by
  induction es generalizing t with
  | nil => exact ⟨[], rfl⟩
  | cons ev es ih =>
      obtain ⟨es', hes'⟩ := ih (machine.step t ev).1
      rw [Machine.run_cons, hes']
      rcases stopped_or_running t with hstop | ⟨hc, hf⟩
      · exact ⟨es', by rw [step_of_stopped hstop]⟩
      · rw [step_of_running hc hf]
        rcases act_service t ev with heq | ⟨e, -, heq⟩
        · exact ⟨es', by rw [heq]⟩
        · refine ⟨e :: es', ?_⟩
          rw [heq, Machine.run_cons, TwitchService.step_of_not_crashed hc]

theorem resumeConnect_fits (i : Nat) (r : Resumption Unit) {t : Lifetimes}
    (hfits : List.Forall₂ Fits t.service.connects t.awaited)
    (hc' : (t.resumeConnect i r).service.crashed = false) :
    List.Forall₂ Fits (t.resumeConnect i r).service.connects (t.resumeConnect i r).awaited := by
  revert hc'
  fun_cases resumeConnect i r t with
  | case1 _ _ _ _ hpc =>
      intro _
      simpa +zetaDelta [TwitchService.resumeConnect, hpc, TwitchService.setState]
        using forall₂_eraseIdx hfits i
  | case2 _ _ _ hpc =>
      cases he : t.service.eventsub with
      | none => simp +zetaDelta [TwitchService.resumeConnect, hpc, he, TwitchService.crash]
      | some eventsub =>
          intro _
          simpa +zetaDelta [TwitchService.resumeConnect, hpc, he]
            using forall₂_set hfits i (a := .timer) (b := ⟨_, false⟩) rfl
  | case3 _ _ _ hpc =>
      cases he : t.service.chatRead with
      | none => simp +zetaDelta [TwitchService.resumeConnect, hpc, he, TwitchService.crash]
      | some read =>
          intro _
          simpa +zetaDelta [TwitchService.resumeConnect, hpc, he]
            using forall₂_set hfits i (a := .requestSubscription) trivial
  | case4 => exact fun _ ↦ hfits
  | case5 _ _ _ hpc =>
      cases he : t.service.eventsub with
      | none => simp +zetaDelta [TwitchService.resumeConnect, hpc, he, TwitchService.crash]
      | some eventsub =>
          intro _
          simpa +zetaDelta [TwitchService.resumeConnect, hpc, he, TwitchService.setState]
            using forall₂_eraseIdx hfits i
  | case6 => exact fun _ ↦ hfits

theorem act_fits (ev : Event) {t : Lifetimes}
    (hfits : List.Forall₂ Fits t.service.connects t.awaited)
    (hc' : (t.act ev).service.crashed = false) :
    List.Forall₂ Fits (t.act ev).service.connects (t.act ev).awaited := by
  cases ev with
  | service e =>
      cases e with
      | connectToChat =>
          change List.Forall₂ Fits t.connectToChat.service.connects t.connectToChat.awaited
          fun_cases connectToChat t with
          | case1 _ hst => simpa +zetaDelta [TwitchService.connectToChat, hst] using hfits
          | case2 _ hst =>
              have hst' : t.service.state = .loggedIn := not_not.mp hst
              have hnew : Fits .connect ⟨t.made + 1, true⟩ := rfl
              simpa +zetaDelta [TwitchService.connectToChat, hst', TwitchService.setState,
                TwitchService.setupChatServices] using List.rel_append hfits (.cons hnew .nil)
      | resumeConnect i r => exact resumeConnect_fits i r hfits hc'
      | startRead =>
          have hconnects : t.service.startRead.1.connects = _ :=
            (act_aside .startRead trivial).2
          change List.Forall₂ Fits t.startRead.service.connects t.startRead.awaited
          fun_cases startRead t <;> simpa +zetaDelta [hconnects] using hfits
      | disconnect => exact hfits
      | startLogin | resumeLogin | sendMessage | resumeSend =>
          change List.Forall₂ Fits (t.service.act _).1.connects t.awaited
          rw [(act_aside _ ?_).2]
          · exact hfits
          · trivial
  | goOn i =>
      change List.Forall₂ Fits (t.goOn i).service.connects (t.goOn i).awaited
      fun_cases goOn i t with
      | case1 => exact hfits
      | case2 k _ hpc =>
          have hset := forall₂_set hfits i (a := .requestSubscription) (b := ⟨k, false⟩) trivial
          obtain ⟨hi, hget⟩ := List.getElem?_eq_some_iff.mp hpc
          rw [← hget, List.set_getElem_self] at hset
          exact hset
      | case3 => exact hfits
  | arrive i =>
      change List.Forall₂ Fits (t.arrive i).service.connects (t.arrive i).awaited
      fun_cases arrive i t <;> exact hfits
  | resume i ok =>
      change List.Forall₂ Fits (t.resume i ok).service.connects (t.resume i ok).awaited
      fun_cases resume i ok t <;> exact hfits

theorem step_linked (t : Lifetimes) (ev : Event) (h : Linked t) : Linked (machine.step t ev).1 := by
  rcases stopped_or_running t with hstop | ⟨hc, hf⟩
  · rwa [step_of_stopped hstop]
  · rw [step_of_running hc hf]
    refine ⟨?_, act_fits ev (h.fits hc)⟩
    rcases act_service t ev with heq | ⟨e, -, heq⟩
    · rw [heq]
      exact h.wired
    · rw [heq, ← TwitchService.step_of_not_crashed hc]
      exact TwitchService.step_wired t.service e h.wired

end Lifetimes

end Seraphbot
