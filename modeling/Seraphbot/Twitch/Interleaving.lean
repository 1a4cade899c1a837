import Seraphbot.Twitch.Service

/-!
# Disconnecting while something is in flight

`disconnect` takes the services away and sets the state, but it does not stop the
coroutines that are suspended at that moment.  They go on as if nothing had
happened: they use the services through pointers that are null now, and they set
the state when they are done.  This file determines when that matters.

* The three services come and go together, and they are there whenever the chat
  is connected (`Wired`).  This holds in every run.
* No null pointer is used, in any state of a run and whichever step comes next
  (`Safe`), exactly when `disconnect` is only called while no coroutine is going
  to use a service (`visits_safe_iff`).
* The state stays `disconnected` after a call of `disconnect`, whatever happens
  short of a new login, exactly when no login and no chat connection was in
  flight (`staysDisconnected_iff`).
-/

namespace Seraphbot.TwitchService

open Twitch

/-! ## What a step can do

Of a step only this matters here: what it does to the services, whether it
connects the chat, and what becomes of the coroutines that are going to use a
service. -/

/-- A coroutine in flight is going to use a service: a call of `connectToChat`
that has passed its check, a read loop or a message that has not started. -/
def InFlight (s : TwitchService) : Prop :=
  s.connects ≠ [] ∨ 0 < s.reads ∨ ∃ message, .spawned message ∈ s.sends

/-- The services are the same, and no null pointer has been used in between. -/
structure Keeps (s s' : TwitchService) : Prop where
  eventsub : s'.eventsub = s.eventsub
  chatRead : s'.chatRead = s.chatRead
  chatSend : s'.chatSend = s.chatSend
  crashed : s'.crashed = s.crashed

/-- What a step can do to the services and to those who use them. -/
inductive Does (s : TwitchService) : Event → TwitchService → Prop where
  /-- It has nothing to do with them. -/
  | aside {ev : Event} {s' : TwitchService} (hev : ev ≠ .disconnect) (hk : Keeps s s')
      (hst : s'.state = .chatConnected → s.state = .chatConnected)
      (hf : InFlight s' → InFlight s) : Does s ev s'
  /-- It makes new services. -/
  | setup {ev : Event} {s' : TwitchService} (hev : ev ≠ .disconnect)
      (he : s'.eventsub.isSome = true) (hr : s'.chatRead.isSome = true)
      (hsd : s'.chatSend.isSome = true) (hcr : s'.crashed = s.crashed) : Does s ev s'
  /-- It goes on with the services there are, on behalf of a coroutine or of a
  connected chat. -/
  | goOn {ev : Event} {s' : TwitchService} (hev : ev ≠ .disconnect) (hk : Keeps s s')
      (hwho : InFlight s ∨ s.state = .chatConnected)
      (hst : s'.state = .chatConnected → s.state = .chatConnected ∨ s.eventsub.isSome = true) :
      Does s ev s'
  /-- A coroutine uses a null pointer. -/
  | crash {ev : Event} (hev : ev ≠ .disconnect) (hf : InFlight s)
      (hnull : s.eventsub = none ∨ s.chatRead = none ∨ s.chatSend = none) : Does s ev s.crash.1
  /-- The services are taken away. -/
  | disconnect : Does s .disconnect s.disconnect.1

section

variable {s : TwitchService}

theorem inFlight_of_connects {i : Nat} {pc : ConnectPc} (h : s.connects[i]? = some pc) :
    InFlight s :=
  .inl (List.ne_nil_of_mem (List.mem_of_getElem? h))

theorem inFlight_of_reads {n : Nat} (h : s.reads = n + 1) : InFlight s :=
  .inr (.inl (by omega))

theorem inFlight_of_sends {i : Nat} {message : Bytes} (h : s.sends[i]? = some (.spawned message)) :
    InFlight s :=
  .inr (.inr ⟨message, List.mem_of_getElem? h⟩)

/-- With one message fewer nothing new is in flight. -/
theorem inFlight_of_eraseIdx {i : Nat}
    (h : InFlight { s with sends := s.sends.eraseIdx i }) : InFlight s := by
  rcases h with hc | hr | ⟨message, hm⟩
  · exact .inl hc
  · exact .inr (.inl hr)
  · exact .inr (.inr ⟨message, List.mem_of_mem_eraseIdx hm⟩)

end

/-- Every step does one of these things. -/
theorem act_does (s : TwitchService) (ev : Event) : Does s ev (s.act ev).1 := by
  have hsame : Keeps s s := ⟨rfl, rfl, rfl, rfl⟩
  cases ev with
  | startLogin =>
      change Does s _ s.startLogin.1
      fun_cases startLogin s with
      | case1 => exact .aside nofun hsame id id
      | case2 => exact .aside nofun ⟨rfl, rfl, rfl, rfl⟩ nofun id
  | resumeLogin i r =>
      change Does s _ (s.resumeLogin i r).1
      fun_cases resumeLogin i r s with
      | case1 => exact .aside nofun hsame id id
      | case2 => exact .aside nofun ⟨rfl, rfl, rfl, rfl⟩ nofun id
      | case3 => exact .aside nofun ⟨rfl, rfl, rfl, rfl⟩ id id
      | case4 => exact .aside nofun ⟨rfl, rfl, rfl, rfl⟩ nofun id
  | connectToChat =>
      change Does s _ s.connectToChat.1
      fun_cases connectToChat s with
      | case1 => exact .aside nofun hsame id id
      | case2 => exact .setup nofun rfl rfl rfl rfl
  | resumeConnect i r =>
      change Does s _ (s.resumeConnect i r).1
      fun_cases resumeConnect i r s with
      | case1 => exact .aside nofun hsame id id
      | case2 _ _ hc =>
          exact .goOn nofun ⟨rfl, rfl, rfl, rfl⟩ (.inl (inFlight_of_connects hc)) nofun
      | case3 _ hc hnull => exact .crash nofun (inFlight_of_connects hc) (.inl hnull)
      | case4 _ hc => exact .goOn nofun ⟨rfl, rfl, rfl, rfl⟩ (.inl (inFlight_of_connects hc)) .inl
      | case5 _ hc hnull => exact .crash nofun (inFlight_of_connects hc) (.inr (.inl hnull))
      | case6 _ hc => exact .goOn nofun ⟨rfl, rfl, rfl, rfl⟩ (.inl (inFlight_of_connects hc)) .inl
      | case7 _ hc hnull => exact .crash nofun (inFlight_of_connects hc) (.inl hnull)
      | case8 _ hc eventsub he =>
          -- the chat is connected by a segment that has just used the subscription
          exact .goOn nofun ⟨rfl, rfl, rfl, rfl⟩ (.inl (inFlight_of_connects hc))
            fun _ ↦ .inr (congrArg Option.isSome he)
  | startRead =>
      change Does s _ s.startRead.1
      fun_cases startRead s with
      | case1 => exact .aside nofun hsame id id
      | case2 n hr hnull => exact .crash nofun (inFlight_of_reads hr) (.inl hnull)
      | case3 n hr => exact .goOn nofun ⟨rfl, rfl, rfl, rfl⟩ (.inl (inFlight_of_reads hr)) .inl
  | sendMessage message =>
      change Does s _ (s.sendMessage message).1
      fun_cases sendMessage message s with
      | case1 => exact .aside nofun hsame id id
      | case2 hst => exact .goOn nofun ⟨rfl, rfl, rfl, rfl⟩ (.inr (not_not.mp hst)) .inl
  | resumeSend i r =>
      change Does s _ (s.resumeSend i r).1
      fun_cases resumeSend i r s with
      | case1 => exact .aside nofun hsame id id
      | case2 _ _ hm hnull => exact .crash nofun (inFlight_of_sends hm) (.inr (.inr hnull))
      | case3 _ _ hm => exact .goOn nofun ⟨rfl, rfl, rfl, rfl⟩ (.inl (inFlight_of_sends hm)) .inl
      | case4 | case5 => exact .aside nofun ⟨rfl, rfl, rfl, rfl⟩ id inFlight_of_eraseIdx
  | disconnect => exact .disconnect

/-! ## The services -/

/-- The three services exist together, and they do when the chat is connected. -/
structure Wired (s : TwitchService) : Prop where
  chatRead : s.chatRead.isSome = s.eventsub.isSome
  chatSend : s.chatSend.isSome = s.eventsub.isSome
  connected : s.state = .chatConnected → s.eventsub.isSome = true

/-- The chat is connected only with all three services present. -/
def Served (s : TwitchService) : Prop :=
  s.state = .chatConnected →
    s.eventsub.isSome = true ∧ s.chatRead.isSome = true ∧ s.chatSend.isSome = true

theorem Wired.served {s : TwitchService} (hw : Wired s) : Served s := by
  intro hs
  have he := hw.connected hs
  exact ⟨he, hw.chatRead.trans he, hw.chatSend.trans he⟩

/-- With the subscription present no pointer is null. -/
theorem Wired.not_null {s : TwitchService} (hw : Wired s) (he : s.eventsub.isSome = true) :
    ¬ (s.eventsub = none ∨ s.chatRead = none ∨ s.chatSend = none) := by
  have hr := hw.chatRead.trans he
  have hsd := hw.chatSend.trans he
  rintro (hnull | hnull | hnull)
  · simp [hnull] at he
  · simp [hnull] at hr
  · simp [hnull] at hsd

/-- A step that keeps the services keeps them wired. -/
theorem Wired.keep {s s' : TwitchService} (hw : Wired s) (hk : Keeps s s')
    (hst : s'.state = .chatConnected → s.state = .chatConnected ∨ s.eventsub.isSome = true) :
    Wired s' where
  chatRead := by rw [hk.chatRead, hk.eventsub, hw.chatRead]
  chatSend := by rw [hk.chatSend, hk.eventsub, hw.chatSend]
  connected h := by
    rw [hk.eventsub]
    exact (hst h).elim hw.connected id

theorem step_wired (s : TwitchService) (ev : Event) (hw : Wired s) :
    Wired (machine.step s ev).1 := by
  by_cases hs : s.crashed = true
  · simpa [machine, hs] using hw
  · rw [step_of_not_crashed (by simpa using hs)]
    have hdoes := act_does s ev
    generalize (s.act ev).1 = s' at hdoes ⊢
    cases hdoes with
    | aside _ hk hst _ => exact hw.keep hk fun h ↦ .inl (hst h)
    | setup _ he hr hsd _ => exact ⟨hr.trans he.symm, hsd.trans he.symm, fun _ ↦ he⟩
    | goOn _ hk _ hst => exact hw.keep hk hst
    | crash => exact ⟨hw.chatRead, hw.chatSend, hw.connected⟩
    | disconnect =>
        refine ⟨rfl, rfl, fun h ↦ ?_⟩
        cases h

/-! ## Null pointers -/

/-- No null pointer has been used, and the next step, whichever it is, does not
use one. -/
def Safe (s : TwitchService) : Prop :=
  s.crashed = false ∧ ∀ ev, (machine.step s ev).1.crashed = false

/-- `disconnect` is called only while nothing is going to use a service. -/
def Calm (s : TwitchService) (ev : Event) : Prop :=
  match ev with
  | .disconnect => ¬ InFlight s
  | _ => True

theorem calm_of_ne {s : TwitchService} {ev : Event} (hev : ev ≠ .disconnect) : Calm s ev := by
  cases ev with
  | disconnect => exact absurd rfl hev
  | _ => trivial

section

variable {s : TwitchService}

/-- With the services in place no step crashes. -/
theorem act_not_crashed (hs : s.crashed = false) (hw : Wired s)
    (hf : InFlight s → s.eventsub.isSome = true) (ev : Event) : (s.act ev).1.crashed = false := by
  have hdoes := act_does s ev
  generalize (s.act ev).1 = s' at hdoes ⊢
  cases hdoes with
  | aside _ hk => exact hk.crashed.trans hs
  | setup _ _ _ _ hcr => exact hcr.trans hs
  | goOn _ hk => exact hk.crashed.trans hs
  | crash _ hin hnull => exact absurd hnull (hw.not_null (hf hin))
  | disconnect => exact hs

/-- With the services gone, some coroutine in flight crashes. -/
theorem exists_crash (hs : s.crashed = false) (hw : Wired s) (hf : InFlight s)
    (he : s.eventsub = none) : ∃ ev, (machine.step s ev).1.crashed = true := by
  have hr : s.chatRead = none := by simpa [he] using hw.chatRead
  have hsd : s.chatSend = none := by simpa [he] using hw.chatSend
  rcases hf with hc | hr' | ⟨message, hm⟩
  · obtain ⟨pc, pcs, hpc⟩ := List.exists_cons_of_ne_nil hc
    refine ⟨.resumeConnect 0 (.returned ()), ?_⟩
    rw [step_of_not_crashed hs]
    cases pc <;> simp [act, resumeConnect, hpc, he, hr, crash]
  · obtain ⟨n, hn⟩ := Nat.exists_eq_succ_of_ne_zero (Nat.pos_iff_ne_zero.mp hr')
    refine ⟨.startRead, ?_⟩
    rw [step_of_not_crashed hs]
    simp [act, startRead, hn, he, crash]
  · obtain ⟨i, hi⟩ := List.getElem?_of_mem hm
    refine ⟨.resumeSend i (.returned ()), ?_⟩
    rw [step_of_not_crashed hs]
    simp [act, resumeSend, hi, hsd, crash]

/-- A state is safe exactly when the coroutines in flight have their services. -/
theorem safe_iff (hw : Wired s) :
    Safe s ↔ s.crashed = false ∧ (InFlight s → s.eventsub.isSome = true) := by
  constructor
  · rintro ⟨hs, hnext⟩
    refine ⟨hs, fun hf ↦ ?_⟩
    cases he : s.eventsub with
    | some eventsub => rfl
    | none =>
        obtain ⟨ev, hev⟩ := exists_crash hs hw hf he
        rw [hnext ev] at hev
        cases hev
  · rintro ⟨hs, hf⟩
    refine ⟨hs, fun ev ↦ ?_⟩
    rw [step_of_not_crashed hs]
    exact act_not_crashed hs hw hf ev

/-- Only a call of `disconnect` can take the services away from a coroutine. -/
theorem act_inFlight_iff (hw : Wired s) (hf : InFlight s → s.eventsub.isSome = true)
    (ev : Event) : (InFlight (s.act ev).1 → (s.act ev).1.eventsub.isSome = true) ↔ Calm s ev := by
  have hdoes := act_does s ev
  generalize (s.act ev).1 = s' at hdoes ⊢
  cases hdoes with
  | aside hev hk _ hin =>
      refine iff_of_true ?_ (calm_of_ne hev)
      intro h
      rw [hk.eventsub, hf (hin h)]
  | setup hev he => exact iff_of_true (fun _ ↦ he) (calm_of_ne hev)
  | goOn hev hk hwho =>
      refine iff_of_true ?_ (calm_of_ne hev)
      intro _
      rw [hk.eventsub]
      exact hwho.elim hf hw.connected
  | crash hev hin => exact iff_of_true (fun _ ↦ hf hin) (calm_of_ne hev)
  | disconnect =>
      -- the coroutines are still there, the services are not
      constructor
      · intro h hin
        exact absurd (h hin) (by simp [TwitchService.disconnect])
      · intro hno hin
        exact absurd hin hno

end

theorem step_safe_iff (s : TwitchService) (ev : Event) (hw : Wired s) (hsafe : Safe s) :
    Safe (machine.step s ev).1 ↔ Calm s ev := by
  obtain ⟨hs, hf⟩ := (safe_iff hw).mp hsafe
  rw [safe_iff (step_wired s ev hw)]
  have hcrash := hsafe.2 ev
  rw [step_of_not_crashed hs] at hcrash ⊢
  rw [← act_inFlight_iff hw hf ev]
  exact and_iff_right hcrash

/-- **When the services are there whenever they are used.**  In every run of a
new service the chat is connected only with all three services present, no null
pointer is used, and none can be used next, whichever step that is, if and only
if the run calls `disconnect` only while nothing is going to use a service. -/
theorem visits_safe_iff (config : ClientConfig) (es : List Event) :
    machine.Visits (fun s ↦ Served s ∧ Safe s) { config } es ↔
      machine.Along Calm { config } es := by
  have hwired : Wired { config } := ⟨rfl, rfl, nofun⟩
  refine Machine.visits_iff_along (I := Wired) step_wired ?_ hwired ⟨hwired.served, ?_⟩
  · intro s ev hw hq
    rw [and_iff_right (step_wired s ev hw).served]
    exact step_safe_iff s ev hw hq.2
  · refine (safe_iff hwired).mpr ⟨rfl, ?_⟩
    rintro (hc | hr | ⟨message, hm⟩)
    · exact absurd rfl hc
    · exact absurd hr (Nat.lt_irrefl 0)
    · exact absurd hm List.not_mem_nil

/-- `disconnect` is called while `connectToChat` waits for the connection; when
the connection is there, the coroutine uses the subscription, which is gone. -/
theorem crashed_of_disconnect_connecting :
    (machine.run {} (loggedIn ++
      [.connectToChat, .disconnect, .resumeConnect 0 (.returned ())])).crashed = true := by
  decide

/-! ## Coming back from a disconnect -/

/-- After a call of `disconnect` the state stays `disconnected`, whatever happens
as long as no new login is started. -/
def StaysDisconnected (s : TwitchService) : Prop :=
  ∀ es, .startLogin ∉ es →
    machine.Visits (fun s ↦ s.state = .disconnected) (machine.step s .disconnect).1 es

/-- Disconnected, with nothing in flight that could change it. -/
structure Settled (s : TwitchService) : Prop where
  state : s.state = .disconnected
  logins : s.logins = []
  connects : s.connects = []

/-- Only a new login leaves a settled state. -/
theorem step_settled {s : TwitchService} {ev : Event} (hs : Settled s) (hev : ev ≠ .startLogin) :
    Settled (machine.step s ev).1 := by
  unfold machine
  dsimp only
  split_ifs
  · exact hs
  obtain ⟨hst, hl, hc⟩ := hs
  cases ev with
  | startLogin => exact absurd rfl hev
  | resumeLogin i r => simpa [act, resumeLogin, hl] using ⟨hst, hl, hc⟩
  | connectToChat => simpa [act, connectToChat, hst] using ⟨hst, hl, hc⟩
  | resumeConnect i r => simpa [act, resumeConnect, hc] using ⟨hst, hl, hc⟩
  | startRead =>
      change Settled s.startRead.1
      fun_cases startRead s <;> exact ⟨hst, hl, hc⟩
  | sendMessage message => simpa [act, sendMessage, hst] using ⟨hst, hl, hc⟩
  | resumeSend i r =>
      change Settled (s.resumeSend i r).1
      fun_cases resumeSend i r s <;> exact ⟨hst, hl, hc⟩
  | disconnect => exact ⟨rfl, hl, hc⟩

/-- **When a disconnect is final.**  For every state of the service: after a call
of `disconnect` in it the state stays `disconnected` in every run without a new
login, if and only if no login and no chat connection was in flight. -/
theorem staysDisconnected_iff {s : TwitchService} (hs : s.crashed = false) :
    StaysDisconnected s ↔ s.logins = [] ∧ s.connects = [] := by
  unfold StaysDisconnected
  rw [step_of_not_crashed hs]
  change (∀ es, _ → machine.Visits _ s.disconnect.1 es) ↔ _
  have hstep := step_of_not_crashed (s := s.disconnect.1) hs
  constructor
  · -- what is in flight can fail, and then reports the failure
    intro h
    constructor
    · by_contra hne
      obtain ⟨pc, pcs, hpc⟩ := List.exists_cons_of_ne_nil hne
      have herr := (h [.resumeLogin 0 (.threw [])] (by simp)).2
      rw [hstep] at herr
      simp [act, resumeLogin, disconnect, setState, hpc] at herr
    · by_contra hne
      obtain ⟨pc, pcs, hpc⟩ := List.exists_cons_of_ne_nil hne
      have herr := (h [.resumeConnect 0 (.threw [])] (by simp)).2
      rw [hstep] at herr
      simp [act, resumeConnect, disconnect, setState, hpc] at herr
  · rintro ⟨hl, hc⟩ es hes
    refine Machine.visits_of_invariant (I := Settled) (P := fun _ ev ↦ ev ≠ .startLogin)
      (fun s ev ↦ step_settled) (fun s ↦ Settled.state) ⟨rfl, hl, hc⟩ ?_
    exact Machine.along_of_forall _ fun ev hev he ↦ hes (he ▸ hev)

/-- Logging out is final when nothing else is going on. -/
theorem staysDisconnected_loggedIn : StaysDisconnected (machine.run {} loggedIn) :=
  (staysDisconnected_iff (by decide)).mpr ⟨by decide, by decide⟩

/-- `disconnect` is called while `connectToChat` waits for the connection; the
connection fails, and the service is in the state `error`. -/
theorem not_staysDisconnected_connecting :
    ¬ StaysDisconnected (machine.run {} (loggedIn ++ [.connectToChat])) := by
  intro h
  have herr := (h [.resumeConnect 0 (.threw (bytes "timed out"))] (by simp)).2
  rw [Machine.visits_nil] at herr
  revert herr
  decide

end Seraphbot.TwitchService
