import Seraphbot.Data.Handles
import Seraphbot.Discord.Notifications
import Seraphbot.Ui.Draw

/-!
# The Discord settings

The model of `manageDiscord` in `imgui_manager.cpp` and of the view model `DiscordVM`.
There are two input fields and two buttons: `Apply` stores the address of the webhook,
and `Test` spawns a coroutine that sends a notification.  The stored address is drawn as
a format without arguments, which ends the model if that is undefined.

The coroutine runs on the threads of the `io_context` and suspends at each of its
requests.  In the meantime the address of the webhook can be changed, a login can be
completed, and more notifications can be spawned.  `Notifications` holds a reference
to the configuration that the service works on, and reads it when the coroutine
begins; the address of the webhook is read when the notification is posted.
`test_atomic` says that this is all that others can do to a notification.
-/

namespace Seraphbot

open Twitch

namespace Notifications

/-- Where a coroutine of `sendMessage` is suspended. -/
inductive Pc where
  | spawned (message : Bytes)
  /-- Twitch was asked for the stream, with the address and the headers for this
  configuration. -/
  | stream (message : Bytes) (cfg : ClientConfig)
  /-- Twitch was asked for the game. -/
  | game (message : Bytes) (cfg : ClientConfig) (d : Draft)
  | post
  | finished

/-- The notification has been posted. -/
def Pc.Posted (pc : Pc) : Prop := pc = .post ∨ pc = .finished

variable (parse : Bytes → Option Json) (dump : Json → Bytes)

/-- The coroutine from one suspension to the next, and the request that it makes. -/
def segment (cfg : ClientConfig) (webhookUrl timestamp : Bytes) (response : Option Bytes) :
    Pc → Pc × Option Request
  | .spawned message => (.stream message cfg, some (streamsRequest cfg))
  | .stream message cfg =>
      match afterStream parse response (Draft.ask (streamsRequest cfg) {}) with
      | (d, none) => (.post, some (post cfg dump webhookUrl timestamp message d))
      | (d, some gameId) =>
          (.game message cfg (d.ask (gamesRequest cfg gameId)), some (gamesRequest cfg gameId))
  | .game message cfg d =>
      (.post, some (post cfg dump webhookUrl timestamp message (afterGame parse response d)))
  | .post | .finished => (.finished, none)

end Notifications

open Notifications

/-- The window `Discord Settings`, the notifier behind it and the service that shares its
configuration. -/
structure Panel where
  service : TwitchService
  /-- `DiscordVM::webhook_url`. -/
  webhookInput : Bytes := []
  /-- `DiscordVM::notification_text`. -/
  notificationText : Bytes := []
  /-- `Notifications::m_webhook_url`. -/
  webhookUrl : Bytes := []
  /-- The coroutines, in the order in which they were spawned. -/
  tests : List Pc := []
  /-- The address of the webhook was drawn, and is not a format. -/
  undefined : Bool := false

namespace Panel

/-- The size of the input fields. -/
def inputSize : Nat := 512

/-- What fits into an input field. -/
def Fits (text : Bytes) : Prop := text.length < inputSize ∧ 0 ∉ text

instance (text : Bytes) : Decidable (Fits text) := inferInstanceAs (Decidable (_ ∧ _))

/-- The end of the model. -/
def halted (p : Panel) : Bool := p.service.crashed || p.undefined

/-- The button `Apply`, up to where the address is drawn. -/
def apply (p : Panel) : Panel :=
  { p with
    webhookUrl := p.webhookInput
    undefined := !ImGuiManager.isPlainFormat (cString p.webhookInput) }

variable (parse : Bytes → Option Json) (dump : Json → Bytes)

/-- Begin or resume the `i`-th coroutine. -/
def resume (i : Nat) (response : Option Bytes) (timestamp : Bytes) (p : Panel) :
    Panel × List (Nat × Request) :=
  match p.tests[i]? with
  | none => (p, [])
  | some pc =>
      let (pc, r) := segment parse dump p.service.config p.webhookUrl timestamp response pc
      ({ p with tests := p.tests.set i pc }, r.toList.map (i, ·))

/-! ## Steps -/

inductive Event where
  | editUrl (text : Bytes)
  | editText (text : Bytes)
  | apply
  | test
  /-- A request has been answered, or has thrown, at this time. -/
  | resume (i : Nat) (response : Option Bytes) (timestamp : Bytes)
  /-- Something happens to the service. -/
  | service (ev : TwitchService.Event)

def act (p : Panel) : Event → Panel × List (Nat × Request)
  | .editUrl text => (if Fits text then { p with webhookInput := text } else p, [])
  | .editText text => (if Fits text then { p with notificationText := text } else p, [])
  | .apply => (p.apply, [])
  | .test => ({ p with tests := p.tests ++ [.spawned p.notificationText] }, [])
  | .resume i response timestamp => p.resume parse dump i response timestamp
  | .service ev => ({ p with service := (TwitchService.machine.step p.service ev).1 }, [])

/-- The panel as a machine.  It emits the requests of the coroutines, with the number of
the coroutine. -/
def machine : Machine Panel Event (List (Nat × Request)) where
  step p ev := if p.halted then (p, []) else p.act parse dump ev

/-- The panel at the start. -/
def start (config : ClientConfig) : Panel := { service := { config } }

/-- The text that a notification is spawned for. -/
def spawns (p : Panel) : Event → List Bytes
  | .test => if p.halted then [] else [p.notificationText]
  | _ => []

/-- The logins that a step completes. -/
def completes (p : Panel) : Event → List LoginAnswer
  | .service ev => if p.halted then [] else p.service.completes ev
  | _ => []

/-! ## Whole notifications -/

section

variable {parse dump}

theorem requests_readStream (data : Json) (d : Draft) :
    (readStream data d).1.requests = d.requests := by
  rw [readStream_eq]

theorem requests_afterStream (response : Option Bytes) (d : Draft) :
    (afterStream parse response d).1.requests = d.requests := by
  rw [afterStream_eq]
  cases (response.bind parse).bind datumIn with
  | none => rfl
  | some data => exact requests_readStream data d

theorem requests_afterGame (response : Option Bytes) (d : Draft) :
    (afterGame parse response d).requests = d.requests := by
  rw [afterGame_eq]

/-- Nothing is asked about a game. -/
theorem sendMessage_of_stream {response : Option Bytes} {cfg : ClientConfig} {d : Draft}
    (h : afterStream parse response (Draft.ask (streamsRequest cfg) {}) = (d, none))
    (webhookUrl timestamp message : Bytes) :
    sendMessage parse (fun _ ↦ response) cfg dump webhookUrl timestamp message =
      [streamsRequest cfg, post cfg dump webhookUrl timestamp message d] := by
  have hrequests := congrArg (·.1.requests) h
  rw [requests_afterStream] at hrequests
  unfold sendMessage askForStream
  rw [h]
  dsimp only at hrequests ⊢
  rw [← hrequests]
  rfl

theorem target_gamesRequest_ne (cfg : ClientConfig) (gameId : Bytes) :
    (gamesRequest cfg gameId).target ≠ (streamsRequest cfg).target := by
  intro h
  have htake := congrArg (List.take 8) h
  change bytes "/helix/g" = bytes "/helix/s" at htake
  exact absurd htake (by decide)

/-- What comes of the two questions. -/
def answers (cfg : ClientConfig) (stream game : Option Bytes) (r : Request) : Option Bytes :=
  if r.target = (streamsRequest cfg).target then stream else game

/-- Both questions are asked. -/
theorem sendMessage_of_game {response : Option Bytes} {cfg : ClientConfig} {d : Draft}
    {gameId : Bytes}
    (h : afterStream parse response (Draft.ask (streamsRequest cfg) {}) = (d, some gameId))
    (response' : Option Bytes) (webhookUrl timestamp message : Bytes) :
    sendMessage parse (answers cfg response response') cfg dump webhookUrl timestamp message =
      [streamsRequest cfg, gamesRequest cfg gameId,
        post cfg dump webhookUrl timestamp message
          (afterGame parse response' (d.ask (gamesRequest cfg gameId)))] := by
  have hrequests := congrArg (·.1.requests) h
  rw [requests_afterStream] at hrequests
  have hgame : answers cfg response response' (gamesRequest cfg gameId) = response' :=
    if_neg (target_gamesRequest_ne cfg gameId)
  have hstream : answers cfg response response' (streamsRequest cfg) = response := if_pos rfl
  unfold sendMessage askForStream
  rw [hstream, h]
  dsimp only at hrequests ⊢
  rw [hgame, requests_afterGame, Draft.ask, ← hrequests]
  rfl

end

/-! ## What a step does -/

/-- What a step can do: to the coroutines, to the network, and to the texts that
notifications were spawned for. -/
inductive Does (p : Panel) : Event → Panel → List (Nat × Request) → List Bytes → Prop where
  | other {ev : Event} {p' : Panel} (htests : p'.tests = p.tests) : Does p ev p' [] []
  | test : Does p .test { p with tests := p.tests ++ [.spawned p.notificationText] } []
      [p.notificationText]
  | resume {i : Nat} {response : Option Bytes} {timestamp : Bytes} {pc pc' : Pc}
      {r : Option Request} (hi : p.tests[i]? = some pc)
      (hsegment : segment parse dump p.service.config p.webhookUrl timestamp response pc =
        (pc', r)) :
      Does p (.resume i response timestamp) { p with tests := p.tests.set i pc' }
        (r.toList.map (i, ·)) []

variable {parse dump}

theorem act_does {p : Panel} (hp : p.halted = false) (ev : Event) :
    Does parse dump p ev (p.act parse dump ev).1 (p.act parse dump ev).2 (p.spawns ev) := by
  cases ev with
  | editUrl text | editText text =>
      refine .other ?_
      simp only [act]
      split_ifs <;> rfl
  | apply | service ev => exact .other rfl
  | test =>
      rw [spawns, hp]
      exact .test
  | resume i response timestamp =>
      simp only [act]
      fun_cases resume parse dump i response timestamp p with
      | case1 => exact .other rfl
      | case2 pc hi pc' r hsegment => exact .resume hi hsegment

variable (parse dump) in
theorem step_does (p : Panel) (ev : Event) :
    Does parse dump p ev ((machine parse dump).step p ev).1 ((machine parse dump).step p ev).2
      (p.spawns ev) := by
  cases hp : p.halted with
  | true =>
      have hspawns : p.spawns ev = [] := by cases ev <;> simp [spawns, hp]
      simp only [machine, hp, if_true, hspawns]
      exact .other rfl
  | false => simpa [machine, hp] using act_does hp ev

/-! ## The story of a coroutine -/

section

variable (parse dump) (p : Panel)

/-- There was a moment in the run with this configuration. -/
def Begun (es : List Event) (cfg : ClientConfig) : Prop :=
  ∃ before after, es = before ++ after ∧
    ((machine parse dump).run p before).service.config = cfg

/-- There was a moment in the run with this configuration, and from then on one with
this address. -/
def Ended (es : List Event) (cfg : ClientConfig) (webhookUrl : Bytes) : Prop :=
  ∃ before between after, es = before ++ between ++ after ∧
    ((machine parse dump).run p before).service.config = cfg ∧
    ((machine parse dump).run p (before ++ between)).webhookUrl = webhookUrl

/-- Where a coroutine is after a run, the text it was spawned for and the requests it has
made. -/
inductive Story (es : List Event) : Option Pc → Option Bytes → List Request → Prop where
  | absent : Story es none none []
  | spawned {message : Bytes} : Story es (some (.spawned message)) (some message) []
  | stream {message : Bytes} {cfg : ClientConfig} (h : Begun parse dump p es cfg) :
      Story es (some (.stream message cfg)) (some message) [streamsRequest cfg]
  | game {message : Bytes} {cfg : ClientConfig} {response : Option Bytes} {d : Draft}
      {gameId : Bytes} (h : Begun parse dump p es cfg)
      (hd : afterStream parse response (Draft.ask (streamsRequest cfg) {}) = (d, some gameId)) :
      Story es (some (.game message cfg (d.ask (gamesRequest cfg gameId)))) (some message)
        [streamsRequest cfg, gamesRequest cfg gameId]
  | posted {message webhookUrl timestamp : Bytes} {cfg : ClientConfig} {pc : Pc}
      {answer : Request → Option Bytes} {rs : List Request} (hpc : pc.Posted)
      (h : Ended parse dump p es cfg webhookUrl)
      (hrs : sendMessage parse answer cfg dump webhookUrl timestamp message = rs) :
      Story es (some pc) (some message) rs

end

section

variable {p : Panel} {es : List Event}

theorem Begun.later {cfg : ClientConfig} (h : Begun parse dump p es cfg) (fs : List Event) :
    Begun parse dump p (es ++ fs) cfg := by
  obtain ⟨before, after, rfl, hcfg⟩ := h
  exact ⟨before, after ++ fs, List.append_assoc .., hcfg⟩

/-- The address is read now. -/
theorem Begun.ended {cfg : ClientConfig} (h : Begun parse dump p es cfg) (fs : List Event) :
    Ended parse dump p (es ++ fs) cfg ((machine parse dump).run p es).webhookUrl := by
  obtain ⟨before, after, rfl, hcfg⟩ := h
  exact ⟨before, after, fs, rfl, hcfg, rfl⟩

theorem Ended.later {cfg : ClientConfig} {webhookUrl : Bytes}
    (h : Ended parse dump p es cfg webhookUrl) (fs : List Event) :
    Ended parse dump p (es ++ fs) cfg webhookUrl := by
  obtain ⟨before, between, after, rfl, hcfg, hurl⟩ := h
  exact ⟨before, between, after ++ fs, List.append_assoc .., hcfg, hurl⟩

theorem Story.later {pc : Option Pc} {message : Option Bytes} {rs : List Request}
    (h : Story parse dump p es pc message rs) (fs : List Event) :
    Story parse dump p (es ++ fs) pc message rs := by
  cases h with
  | absent => exact .absent
  | spawned => exact .spawned
  | stream h => exact .stream (h.later fs)
  | game h hd => exact .game (h.later fs) hd
  | posted hpc h hrs => exact .posted hpc (h.later fs) hrs

/-- The coroutine goes on. -/
theorem Story.segment {pc pc' : Pc} {message : Option Bytes} {rs : List Request}
    (h : Story parse dump p es (some pc) message rs) {response : Option Bytes} {timestamp : Bytes}
    {r : Option Request} (hsegment : segment parse dump
      ((machine parse dump).run p es).service.config ((machine parse dump).run p es).webhookUrl
      timestamp response pc = (pc', r)) (ev : Event) :
    Story parse dump p (es ++ [ev]) (some pc') message (rs ++ r.toList) := by
  cases h with
  | spawned =>
      cases hsegment
      exact .stream ⟨es, [ev], rfl, rfl⟩
  | stream h =>
      rw [Notifications.segment] at hsegment
      split at hsegment
      · rename_i d hd
        cases hsegment
        exact .posted (.inl rfl) (h.ended [ev]) (sendMessage_of_stream hd _ timestamp _)
      · rename_i d gameId hd
        cases hsegment
        exact .game (h.later [ev]) hd
  | game h hd =>
      cases hsegment
      exact .posted (.inl rfl) (h.ended [ev]) (sendMessage_of_game hd response _ timestamp _)
  | posted hpc h hrs =>
      have hfinished : (Pc.finished, none) = (pc', r) := by
        rcases hpc with rfl | rfl <;> exact hsegment
      cases hfinished
      rw [Option.toList_none, List.append_nil]
      exact .posted (.inr rfl) (h.later [ev]) hrs

/-- A coroutine that was not spawned has made no requests. -/
theorem Story.nil_of_absent {message : Option Bytes} {rs : List Request}
    (h : Story parse dump p es none message rs) : rs = [] := by
  cases h
  rfl

variable (parse dump p es) in
/-- The stories of all coroutines. -/
structure Told : Prop where
  length : ((machine parse dump).run p es).tests.length =
    ((machine parse dump).gather spawns p es).length
  story (i : Nat) : Story parse dump p es ((machine parse dump).run p es).tests[i]?
    ((machine parse dump).gather spawns p es)[i]?
    (doneTo i ((machine parse dump).trace p es).flatten)

theorem Told.length_step (h : Told parse dump p es) {ev : Event} {p' : Panel}
    {out : List (Nat × Request)} {texts : List Bytes}
    (hdoes : Does parse dump ((machine parse dump).run p es) ev p' out texts) :
    p'.tests.length = ((machine parse dump).gather spawns p es ++ texts).length := by
  rw [List.length_append, ← h.length]
  cases hdoes with
  | other htests => rw [htests, List.length_nil, Nat.add_zero]
  | test => simp
  | resume => simp

theorem Told.story_step (h : Told parse dump p es) {ev : Event} {p' : Panel}
    {out : List (Nat × Request)} {texts : List Bytes}
    (hdoes : Does parse dump ((machine parse dump).run p es) ev p' out texts) (i : Nat) :
    Story parse dump p (es ++ [ev]) p'.tests[i]?
      ((machine parse dump).gather spawns p es ++ texts)[i]?
      (doneTo i ((machine parse dump).trace p es).flatten ++ doneTo i out) := by
  have hlater := (h.story i).later [ev]
  cases hdoes with
  | other htests =>
      rw [htests, List.append_nil, doneTo_nil, List.append_nil]
      exact hlater
  | test =>
      rw [doneTo_nil, List.append_nil, List.getElem?_append, List.getElem?_append, ← h.length]
      split_ifs with hi
      · exact hlater
      · -- a coroutine that is new, or one that there is not
        have hstory := h.story i
        rw [List.getElem?_eq_none (not_lt.mp hi)] at hstory
        rw [hstory.nil_of_absent]
        cases i - ((machine parse dump).run p es).tests.length with
        | zero => exact .spawned
        | succ j => exact .absent
  | @resume j response timestamp pc pc' r hj hsegment =>
      rw [List.append_nil]
      by_cases hij : j = i
      · subst hij
        have hstory := h.story j
        rw [hj] at hstory
        have hlt : j < ((machine parse dump).run p es).tests.length :=
          (List.getElem?_eq_some_iff.mp hj).1
        rw [doneTo_map_self, List.getElem?_set_self hlt]
        exact hstory.segment hsegment _
      · rw [doneTo_map_of_ne hij, List.append_nil, List.getElem?_set_ne hij]
        exact hlater

variable (parse dump) in
theorem told_run (config : ClientConfig) (es : List Event) :
    Told parse dump (start config) es := by
  induction es using List.reverseRecOn with
  | nil => exact ⟨rfl, fun i ↦ .absent⟩
  | append_singleton es ev ih =>
      have hdoes := step_does parse dump ((machine parse dump).run (start config) es) ev
      refine ⟨?_, fun i ↦ ?_⟩ <;>
        simp only [Machine.run_concat, Machine.gather_concat, Machine.trace_concat,
          List.flatten_append, List.flatten_singleton, doneTo_append]
      · exact ih.length_step hdoes
      · exact ih.story_step hdoes i

end

variable (parse dump)

theorem step_config (p : Panel) (ev : Event) :
    ((machine parse dump).step p ev).1.service.config =
      ((p.completes ev).getLast?.map TwitchService.credentials).getD p.service.config := by
  cases hp : p.halted with
  | true => cases ev <;> simp [machine, completes, hp]
  | false =>
      simp only [machine, hp, Bool.false_eq_true, if_false]
      cases ev with
      | editUrl text | editText text =>
          simp only [act]
          split_ifs <;> rfl
      | apply | test => rfl
      | resume i response timestamp =>
          simp only [act]
          fun_cases resume parse dump i response timestamp p <;> rfl
      | service ev =>
          rw [completes, hp]
          exact TwitchService.step_config p.service ev

/-- The configuration is the one that the last login has left, also after a logout. -/
theorem run_config (config : ClientConfig) (es : List Event) :
    ((machine parse dump).run (start config) es).service.config =
      (((machine parse dump).gather completes (start config) es).getLast?.map
        TwitchService.credentials).getD config := by
  induction es using List.reverseRecOn with
  | nil => rfl
  | append_singleton es ev ih =>
      rw [Machine.run_concat, Machine.gather_concat, step_config, ih, List.getLast?_append]
      cases (completes ((machine parse dump).run (start config) es) ev).getLast? <;> rfl

/-- How often a coroutine is resumed at most before the notification is posted. -/
def left : Pc → Nat
  | .spawned _ => 3
  | .stream _ _ => 2
  | .game _ _ _ => 1
  | .post | .finished => 0

/-- Does the event resume the `i`-th coroutine? -/
def resumes (i : Nat) : Event → Bool
  | .resume j _ _ => j = i
  | _ => false

theorem posted_of_left {pc : Pc} (h : left pc = 0) : pc.Posted := by
  cases pc with
  | post => exact .inl rfl
  | finished => exact .inr rfl
  | _ => cases h

theorem left_le (pc : Pc) : left pc ≤ 3 := by
  cases pc <;> simp [left]

/-- No answer keeps a coroutine from going on. -/
theorem left_segment (cfg : ClientConfig) (webhookUrl timestamp : Bytes) (response : Option Bytes)
    (pc : Pc) :
    left (segment parse dump cfg webhookUrl timestamp response pc).1 ≤ left pc - 1 := by
  fun_cases segment parse dump cfg webhookUrl timestamp response pc <;> simp [left]

theorem run_of_halted {p : Panel} (hp : p.halted = true) (es : List Event) :
    (machine parse dump).run p es = p := by
  induction es with
  | nil => rfl
  | cons ev es ih => rwa [Machine.run_cons, show ((machine parse dump).step p ev).1 = p by
      simp [machine, hp]]

/-- A step takes a coroutine on if it is resumed, and leaves it alone otherwise. -/
theorem left_step {p : Panel} (hp : p.halted = false) {i : Nat} {pc : Pc}
    (hi : p.tests[i]? = some pc) (ev : Event) :
    ∃ pc', ((machine parse dump).step p ev).1.tests[i]? = some pc' ∧
      left pc' ≤ left pc - (if resumes i ev then 1 else 0) := by
  simp only [machine, hp, Bool.false_eq_true, if_false]
  cases ev with
  | editUrl text | editText text =>
      refine ⟨pc, ?_, le_rfl⟩
      simp only [act]
      split_ifs <;> exact hi
  | apply | service ev => exact ⟨pc, hi, le_rfl⟩
  | test =>
      have hlt := (List.getElem?_eq_some_iff.mp hi).1
      exact ⟨pc, (List.getElem?_append_left hlt).trans hi, le_rfl⟩
  | resume j response timestamp =>
      simp only [act]
      by_cases hij : j = i
      · subst hij
        have hlt := (List.getElem?_eq_some_iff.mp hi).1
        have hle := left_segment parse dump p.service.config p.webhookUrl timestamp response pc
        rw [resume, hi]
        exact ⟨_, List.getElem?_set_self hlt, by simpa [resumes] using hle⟩
      · refine ⟨pc, ?_, by simp [resumes, hij]⟩
        fun_cases resume parse dump j response timestamp p with
        | case1 => exact hi
        | case2 => rwa [List.getElem?_set_ne hij]

theorem left_run {p : Panel} {es : List Event}
    (hend : ((machine parse dump).run p es).halted = false) {i : Nat} {pc : Pc}
    (hi : p.tests[i]? = some pc) :
    ∃ pc', ((machine parse dump).run p es).tests[i]? = some pc' ∧
      left pc' ≤ left pc - es.countP (resumes i) := by
  induction es generalizing p pc with
  | nil => exact ⟨pc, hi, le_rfl⟩
  | cons ev es ih =>
      have hp : p.halted = false := by
        by_contra hp
        rw [run_of_halted parse dump (by simpa using hp)] at hend
        exact hp hend
      obtain ⟨pc₁, hi₁, hle₁⟩ := left_step parse dump hp hi ev
      obtain ⟨pc₂, hi₂, hle₂⟩ := ih hend hi₁
      refine ⟨pc₂, hi₂, ?_⟩
      rw [List.countP_cons]
      omega

end Panel

end Seraphbot
