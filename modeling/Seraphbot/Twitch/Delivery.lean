import Seraphbot.Data.Conservation
import Seraphbot.Twitch.Service

/-!
# What the service sends

Two things about the requests that a run of the service makes.

A message that `sendMessage` takes is handed to a coroutine of its own, and these
coroutines start in any order.  Whatever the order is, and whatever else happens in
between, no message is lost and none is sent twice: the messages that were posted
and those that wait are a rearrangement of those that were taken
(`posted_waiting_perm`).

A request carries the configuration that the services were made with.  A login has
written that configuration as a whole when it was completed, earlier in the run
(`requests_known`).  Whether all of it was received by this login is another matter,
which `SharedAuth.lean` is about.
-/

namespace Seraphbot.TwitchService

open Twitch

/-! ## Messages -/

/-- The message that a coroutine has not sent yet. -/
def unsent : SendPc → Option Bytes
  | .spawned message => some message
  | .awaiting => none

/-- The messages that have not been sent yet. -/
def waiting (s : TwitchService) : List Bytes := s.sends.filterMap unsent

/-- The text that an effect posts to the chat. -/
def postedText : Effect → Option Bytes
  | .message _ text _ => some text
  | _ => none

/-- The texts that a run posts to the chat. -/
def posted (effects : List (List Effect)) : List Bytes :=
  effects.flatMap fun e ↦ e.filterMap postedText

/-- The message that the service takes when an event happens. -/
def takes (s : TwitchService) : Event → List Bytes
  | .sendMessage message =>
      if s.crashed = false ∧ s.state = .chatConnected then [message] else []
  | _ => []

/-- The messages that the service takes in a run. -/
def taken (s : TwitchService) (es : List Event) : List Bytes := machine.gather takes s es

@[simp] theorem taken_singleton (s : TwitchService) (ev : Event) : s.taken [ev] = s.takes ev := by
  simp [taken]

theorem takes_sendMessage_sublist (s : TwitchService) (message : Bytes) :
    (s.takes (.sendMessage message)).Sublist [message] := by
  unfold takes
  split_ifs
  · exact List.Sublist.refl _
  · exact List.nil_sublist _

@[simp] theorem filterMap_postedText_setState (state : State) (status : Bytes)
    (s : TwitchService) : (setState state status s).2.filterMap postedText = [] := by
  unfold setState
  split_ifs <;> rfl

/-- Only two kinds of steps have to do with messages. -/
theorem act_aside {s : TwitchService} {ev : Event} (hsend : ∀ message, ev ≠ .sendMessage message)
    (hresume : ∀ i r, ev ≠ .resumeSend i r) :
    (s.act ev).1.sends = s.sends ∧ (s.act ev).2.filterMap postedText = [] := by
  cases ev with
  | sendMessage message => exact absurd rfl (hsend message)
  | resumeSend i r => exact absurd rfl (hresume i r)
  | startLogin =>
      simp only [act]
      fun_cases startLogin s <;> exact ⟨rfl, by simp⟩
  | resumeLogin i r =>
      simp only [act]
      fun_cases resumeLogin i r s <;> exact ⟨rfl, by simp⟩
  | connectToChat =>
      simp only [act]
      fun_cases connectToChat s <;> exact ⟨rfl, rfl⟩
  | resumeConnect i r =>
      simp only [act]
      fun_cases resumeConnect i r s <;> exact ⟨rfl, rfl⟩
  | startRead =>
      simp only [act]
      fun_cases startRead s <;> exact ⟨rfl, rfl⟩
  | disconnect => exact ⟨rfl, rfl⟩

/-- A message is sent with the copy of the configuration that was made for the
connection, and in the name of the user of the configuration as it is now. -/
theorem of_message_mem {s : TwitchService} {ev : Event} {cfg : ClientConfig} {text id : Bytes}
    (h : .message cfg text id ∈ (machine.step s ev).2) :
    ∃ send, s.chatSend = some send ∧ cfg = send.cfg ∧ id = s.config.broadcasterId := by
  cases hs : s.crashed with
  | true => simp [machine, hs] at h
  | false =>
      rw [step_of_not_crashed hs] at h
      have hposted : text ∈ (s.act ev).2.filterMap postedText :=
        List.mem_filterMap.mpr ⟨_, h, rfl⟩
      cases ev with
      | sendMessage message =>
          simp only [act] at h
          revert h
          fun_cases sendMessage message s <;> exact fun h ↦ absurd h List.not_mem_nil
      | resumeSend i r =>
          simp only [act] at h
          revert h
          fun_cases resumeSend i r s with
          | case3 _ _ _ send hsend =>
              intro h
              cases List.mem_singleton.mp h
              exact ⟨send, hsend, rfl, rfl⟩
          | case5 =>
              intro h
              cases List.mem_singleton.mp h
          | _ => exact fun h ↦ absurd h List.not_mem_nil
      | _ =>
          rw [(act_aside ?_ ?_).2] at hposted
          · exact absurd hposted List.not_mem_nil
          · rintro _ ⟨⟩
          · rintro _ _ ⟨⟩

theorem conserves_of_aside {s : TwitchService} {ev : Event}
    (h : (s.act ev).1.sends = s.sends ∧ (s.act ev).2.filterMap postedText = [])
    (htakes : s.takes ev = []) :
    ((s.act ev).2.filterMap postedText ++ (s.act ev).1.waiting).Perm (s.waiting ++ s.takes ev) := by
  rw [htakes, List.append_nil, h.2, waiting, h.1]
  rfl

/-- No step loses a message, or sends it twice. -/
theorem act_conserves {s : TwitchService} (hs : s.crashed = false) (ev : Event) :
    ((s.act ev).2.filterMap postedText ++ (s.act ev).1.waiting).Perm (s.waiting ++ s.takes ev) := by
  cases ev with
  | sendMessage message =>
      simp only [act]
      fun_cases sendMessage message s with
      | case1 hst => simp [takes, hst]
      | case2 hst => simp [takes, not_not.mp hst, hs, waiting, unsent]
  | resumeSend i r =>
      simp only [act, takes, List.append_nil]
      fun_cases resumeSend i r s with
      | case1 => rfl
      | case2 => rfl
      | case3 message _ hi => exact filterMap_set_perm unsent hi .awaiting
      | case4 _ hi => exact filterMap_eraseIdx_perm unsent hi
      | case5 _ hi => exact filterMap_eraseIdx_perm unsent hi
  | _ => exact conserves_of_aside (act_aside nofun nofun) rfl

theorem step_conserves (s : TwitchService) (ev : Event) :
    ((machine.step s ev).2.filterMap postedText ++ (machine.step s ev).1.waiting).Perm
      (s.waiting ++ s.takes ev) := by
  by_cases hs : s.crashed = true
  · cases ev <;> simp [machine, hs, takes]
  · have hs' : s.crashed = false := by simpa using hs
    rw [step_of_not_crashed hs']
    exact act_conserves hs' ev

/-- **No message is lost, and none is sent twice.**  In every run of a new service,
with whatever interleaving of logins, connections, read loops, messages and
disconnects: the messages that were posted to the chat together with those that
still wait for their coroutine are those that `sendMessage` took, each as often as
it was taken. -/
theorem posted_waiting_perm (config : ClientConfig) (es : List Event) :
    (posted (machine.trace { config } es) ++ (machine.run { config } es).waiting).Perm
      (taken { config } es) :=
  Machine.perm_of_step step_conserves { config } es

/-! ## Configurations -/

/-- The configuration that a login leaves behind. -/
def credentials (answer : LoginAnswer) : ClientConfig :=
  ⟨answer.accessToken, answer.id, answer.clientId⟩

/-- The answer that a login is completed with when an event happens. -/
def completes (s : TwitchService) : Event → List LoginAnswer
  | .resumeLogin i (.returned answer) =>
      if s.crashed = false ∧ s.logins[i]? = some .fetchUserInfoAsync then [answer] else []
  | _ => []

/-- The answers that logins are completed with in a run. -/
def completed (s : TwitchService) (es : List Event) : List LoginAnswer :=
  machine.gather completes s es

/-- Nothing but a login changes the configuration, a logout included. -/
theorem step_config (s : TwitchService) (ev : Event) :
    (machine.step s ev).1.config = ((s.completes ev).getLast?.map credentials).getD s.config := by
  by_cases hs : s.crashed = true
  · cases ev with
    | resumeLogin i r => cases r <;> simp [machine, completes, hs]
    | _ => simp [machine, completes, hs]
  · have hs' : s.crashed = false := by simpa using hs
    rw [step_of_not_crashed hs']
    cases ev with
    | resumeLogin i r =>
        simp only [act]
        fun_cases resumeLogin i r s with
        | case1 r hi => cases r <;> simp [completes, hi]
        | case2 => rfl
        | case3 _ hi => simp [completes, hi]
        | case4 answer hi => simp [completes, hs', hi, setState, credentials]
    | startLogin =>
        simp only [act]
        fun_cases startLogin s <;> rfl
    | connectToChat =>
        simp only [act]
        fun_cases connectToChat s <;> rfl
    | resumeConnect i r =>
        simp only [act]
        fun_cases resumeConnect i r s <;> rfl
    | startRead =>
        simp only [act]
        fun_cases startRead s <;> rfl
    | sendMessage message =>
        simp only [act]
        fun_cases sendMessage message s <;> rfl
    | resumeSend i r =>
        simp only [act]
        fun_cases resumeSend i r s <;> rfl
    | disconnect => rfl

/-- The configuration that a request is made with.  A message also names its sender,
which is read apart from it. -/
def requestConfig : Effect → Option ClientConfig
  | .status _ => none
  | .connect cfg => some cfg
  | .subscribe cfg _ _ => some cfg
  | .message cfg _ _ => some cfg

/-- What can be used comes from one of these logins: the configuration while logged
in, and the copies that the services hold. -/
structure Known (answers : List LoginAnswer) (s : TwitchService) : Prop where
  config : s.state = .loggedIn → s.config ∈ answers.map credentials
  eventsub : ∀ e, s.eventsub = some e → e.cfg ∈ answers.map credentials
  chatRead : ∀ r, s.chatRead = some r → r.eventsub.cfg ∈ answers.map credentials
  chatSend : ∀ c, s.chatSend = some c → c.cfg ∈ answers.map credentials

namespace Known

variable {s : TwitchService} {answers : List LoginAnswer}

/-- The services stay, and with them what they know. -/
theorem keep (h : Known answers s) {s' : TwitchService} (heventsub : s'.eventsub = s.eventsub)
    (hread : s'.chatRead = s.chatRead) (hsend : s'.chatSend = s.chatSend)
    (hconfig : s'.state = .loggedIn → s.state = .loggedIn ∧ s'.config = s.config) :
    Known answers s' := by
  refine ⟨fun hst ↦ ?_, ?_, ?_, ?_⟩
  · rw [(hconfig hst).2]
    exact h.config (hconfig hst).1
  · rw [heventsub]
    exact h.eventsub
  · rw [hread]
    exact h.chatRead
  · rw [hsend]
    exact h.chatSend

theorem mono (h : Known answers s) {more : List LoginAnswer} (hsub : answers ⊆ more) :
    Known more s := by
  have hmap : answers.map credentials ⊆ more.map credentials := List.map_subset _ hsub
  exact ⟨fun hst ↦ hmap (h.config hst), fun e he ↦ hmap (h.eventsub e he),
    fun r hr ↦ hmap (h.chatRead r hr), fun c hc ↦ hmap (h.chatSend c hc)⟩

end Known

theorem act_known {s : TwitchService} (hs : s.crashed = false) {answers : List LoginAnswer}
    (h : Known answers s) (ev : Event) : Known (answers ++ s.completes ev) (s.act ev).1 := by
  have hkeep := h.mono (List.subset_append_left answers (s.completes ev))
  cases ev with
  | startLogin =>
      simp only [act] at hkeep ⊢
      fun_cases startLogin s with
      | case1 => exact hkeep
      | case2 => exact hkeep.keep rfl rfl rfl nofun
  | resumeLogin i r =>
      simp only [act] at hkeep ⊢
      fun_cases resumeLogin i r s with
      | case1 => exact hkeep
      | case2 => exact hkeep.keep rfl rfl rfl nofun
      | case3 => exact hkeep.keep rfl rfl rfl fun hst ↦ ⟨hst, rfl⟩
      | case4 answer hi =>
          refine ⟨fun _ ↦ ?_, hkeep.eventsub, hkeep.chatRead, hkeep.chatSend⟩
          simp [completes, hs, hi, setState, credentials]
  | connectToChat =>
      simp only [act] at hkeep ⊢
      fun_cases connectToChat s with
      | case1 => exact hkeep
      | case2 hst =>
          have hcfg := hkeep.config (not_not.mp hst)
          refine ⟨nofun, ?_, ?_, ?_⟩ <;> rintro _ ⟨⟩ <;> exact hcfg
  | resumeConnect i r =>
      simp only [act] at hkeep ⊢
      fun_cases resumeConnect i r s with
      | case1 | case3 | case5 | case7 => exact hkeep.keep rfl rfl rfl fun hst ↦ ⟨hst, rfl⟩
      | case4 | case6 => exact hkeep.keep rfl rfl rfl fun hst ↦ ⟨hst, rfl⟩
      | case2 | case8 => exact hkeep.keep rfl rfl rfl nofun
  | startRead =>
      simp only [act] at hkeep ⊢
      fun_cases startRead s <;> exact hkeep.keep rfl rfl rfl fun hst ↦ ⟨hst, rfl⟩
  | sendMessage message =>
      simp only [act] at hkeep ⊢
      fun_cases sendMessage message s <;> exact hkeep.keep rfl rfl rfl fun hst ↦ ⟨hst, rfl⟩
  | resumeSend i r =>
      simp only [act] at hkeep ⊢
      fun_cases resumeSend i r s <;> exact hkeep.keep rfl rfl rfl fun hst ↦ ⟨hst, rfl⟩
  | disconnect => exact ⟨nofun, nofun, nofun, nofun⟩

theorem step_known (s : TwitchService) {answers : List LoginAnswer} (h : Known answers s)
    (ev : Event) : Known (answers ++ s.completes ev) (machine.step s ev).1 := by
  by_cases hs : s.crashed = true
  · simpa [machine, hs] using h.mono (List.subset_append_left answers (s.completes ev))
  · have hs' : s.crashed = false := by simpa using hs
    rw [step_of_not_crashed hs']
    exact act_known hs' h ev

theorem known_run (config : ClientConfig) (es : List Event) :
    Known (completed { config } es) (machine.run { config } es) := by
  induction es using List.reverseRecOn with
  | nil => exact ⟨nofun, nofun, nofun, nofun⟩
  | append_singleton es ev ih =>
      rw [completed, Machine.gather_concat, Machine.run_concat]
      exact step_known _ ih ev

/-- Every request of a step is made with a configuration that is known. -/
theorem act_requests {s : TwitchService} {answers : List LoginAnswer} (h : Known answers s)
    (ev : Event) : (s.act ev).2.filterMap requestConfig ⊆ answers.map credentials := by
  have hnil : [] ⊆ answers.map credentials := List.nil_subset _
  cases ev with
  | startLogin =>
      simp only [act]
      fun_cases startLogin s <;> exact hnil
  | resumeLogin i r =>
      simp only [act]
      fun_cases resumeLogin i r s <;> exact hnil
  | connectToChat =>
      simp only [act]
      fun_cases connectToChat s with
      | case1 => exact hnil
      | case2 hst =>
          change [s.config] ⊆ _
          exact List.cons_subset.mpr ⟨h.config (not_not.mp hst), hnil⟩
  | resumeConnect i r =>
      simp only [act]
      fun_cases resumeConnect i r s with
      | case6 _ _ read hread => exact List.cons_subset.mpr ⟨h.chatRead read hread, hnil⟩
      | case8 _ _ eventsub he =>
          -- seven subscriptions, all with the copy of the socket
          change List.replicate 7 eventsub.cfg ⊆ _
          intro cfg hcfg
          rw [List.eq_of_mem_replicate hcfg]
          exact h.eventsub eventsub he
      | _ => exact hnil
  | startRead =>
      simp only [act]
      fun_cases startRead s <;> exact hnil
  | sendMessage message =>
      simp only [act]
      fun_cases sendMessage message s <;> exact hnil
  | resumeSend i r =>
      simp only [act]
      fun_cases resumeSend i r s with
      | case3 _ _ _ send hsend => exact List.cons_subset.mpr ⟨h.chatSend send hsend, hnil⟩
      | _ => exact hnil
  | disconnect => exact hnil

theorem requests_known (config : ClientConfig) (es : List Event) (ev : Event) :
    (machine.step (machine.run { config } es) ev).2.filterMap requestConfig ⊆
      (completed { config } es).map credentials := by
  have hknown := known_run config es
  generalize machine.run { config } es = s at hknown
  by_cases hs : s.crashed = true
  · simp [machine, hs]
  · rw [step_of_not_crashed (by simpa using hs)]
    exact act_requests hknown ev

end Seraphbot.TwitchService
