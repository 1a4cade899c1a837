import Seraphbot.App.Bot
import Seraphbot.Lua.Gate

/-!
# The limits of a command

A command file limits the use of its command: so many uses per stream, so many
seconds between two uses, so many seconds between two uses by one viewer.  The
limits are meant for the command, whichever of its names it is called by, but the
tracker counts every name apart: `!flip` does not delay `!coin`.

`LimitsHold` states the limits for all the invocations of a script together.
They hold in every run in which the script is reached through one of its names
only, with its own metadata stored under that name (`ThroughOne`); the proof
feeds what the gate admits into the rules for gaps and quotas.
-/

namespace Seraphbot

open LuaCommandEngine CooldownTracker

/-! ## What the limits of a file demand of a history -/

/-- The test for an invocation of the script of a file. -/
def ofFile (path : Path) (i : Invocation) : Bool := i.execute.source = path

/-- The test for an invocation of the script of a file by a user. -/
def ofFileBy (path : Path) (user : Bytes) (i : Invocation) : Bool :=
  i.execute.source = path && i.user = user

/-- The invocations of the script of a file keep the limits of its metadata,
whatever the names they went through. -/
structure LimitsHold (path : Path) (m : CommandMetadata) (h : History Invocation) : Prop where
  /-- At most so many invocations between two resets. -/
  maxUsesPerStream : 0 < m.maxUsesPerStream → h.Capped (ofFile path) m.maxUsesPerStream
  /-- Any two invocations are so many seconds apart. -/
  commandCooldown : 0 < m.commandCooldown →
    h.Spaced (ofFile path) Invocation.called Invocation.recorded (m.commandCooldown * second)
  /-- Any two invocations by one user are so many seconds apart. -/
  userCooldown : 0 < m.userCooldown → ∀ user,
    h.Spaced (ofFileBy path user) Invocation.called Invocation.recorded (m.userCooldown * second)

/-- The invocations of the script of a file all went through the name `k`. -/
def OnlyUnder (path : Path) (k : Bytes) (h : History Invocation) : Prop :=
  ∀ i ∈ h.uses, i.execute.source = path → i.commandName = k

namespace LimitsHold

variable {path : Path} {m : CommandMetadata} {h : History Invocation} {k : Bytes}

theorem nil : LimitsHold path m [] where
  maxUsesPerStream hn := .nil hn.le
  commandCooldown _ := .nil
  userCooldown _ _ := .nil

theorem reset (hl : LimitsHold path m h) : LimitsHold path m (h ++ [.reset]) where
  maxUsesPerStream hn := (hl.maxUsesPerStream hn).reset hn.le
  commandCooldown hc := (hl.commandCooldown hc).reset
  userCooldown hu user := (hl.userCooldown hu user).reset

/-- Invocations of other scripts do not count. -/
theorem other (hl : LimitsHold path m h) {i : Invocation} (hi : i.execute.source ≠ path) :
    LimitsHold path m (h ++ [.use i]) where
  maxUsesPerStream hn := (hl.maxUsesPerStream hn).concat fun hp ↦ absurd hp (by simp [ofFile, hi])
  commandCooldown hc := (hl.commandCooldown hc).concat fun hp ↦ absurd hp (by simp [ofFile, hi])
  userCooldown hu user :=
    (hl.userCooldown hu user).concat fun hp ↦ absurd hp (by simp [ofFileBy, hi])

/-- What was quiet under the name is quiet for the file, when that is the only
name the file was reached through. -/
theorem quiet_of_onlyUnder (hk : OnlyUnder path k h) {gap t : Int}
    (hq : h.Quiet (under k) Invocation.recorded gap t) :
    h.Quiet (ofFile path) Invocation.recorded gap t := by
  intro i hi hp
  refine hq i hi ?_
  simpa [under] using hk i hi (by simpa [ofFile] using hp)

theorem quiet_by_of_onlyUnder (hk : OnlyUnder path k h) {user : Bytes} {gap t : Int}
    (hq : h.Quiet (underBy k user) Invocation.recorded gap t) :
    h.Quiet (ofFileBy path user) Invocation.recorded gap t := by
  intro i hi hp
  simp only [ofFileBy, Bool.and_eq_true, decide_eq_true_eq] at hp
  refine hq i hi ?_
  simp [underBy, hk i hi hp.1, hp.2]

/-- An invocation that the gate admits under `k` keeps the limits, when all the
earlier ones went through `k` as well. -/
theorem admitted (hl : LimitsHold path m h) (hk : OnlyUnder path k h) {ctx : CommandContext}
    {called : Int} (ha : Admits m ctx k called h) (execute : Closure) (recorded : Int) :
    LimitsHold path m (h ++ [.use ⟨k, ctx.message.user, execute, called, recorded⟩]) where
  maxUsesPerStream hn := by
    refine (hl.maxUsesPerStream hn).concat fun _ ↦ ?_
    have hroom := ha.maxUsesPerStream.resolve_left (by omega)
    have hle : h.sinceReset.countP (ofFile path) ≤ h.sinceReset.countP (under k) := by
      refine List.countP_mono_left fun i hi hp ↦ ?_
      simpa [under] using hk i (History.mem_uses_of_mem_sinceReset hi) (by simpa [ofFile] using hp)
    omega
  commandCooldown hc := by
    refine (hl.commandCooldown hc).concat fun _ ↦ ?_
    exact quiet_of_onlyUnder hk (ha.commandCooldown.resolve_left (by omega))
  userCooldown hu user := by
    refine (hl.userCooldown hu user).concat fun hp ↦ ?_
    simp only [ofFileBy, Bool.and_eq_true, decide_eq_true_eq] at hp
    rw [← hp.2]
    exact quiet_by_of_onlyUnder hk (ha.userCooldown.resolve_left (by omega))

end LimitsHold

section

variable {path : Path} {m : CommandMetadata} {h : History Invocation} {k : Bytes}

theorem OnlyUnder.concat (hk : OnlyUnder path k h) {i : Invocation}
    (hi : i.execute.source = path → i.commandName = k) : OnlyUnder path k (h ++ [.use i]) := by
  intro j hj
  rw [History.uses_append, History.uses_use, List.mem_append, List.mem_singleton] at hj
  rcases hj with hj | rfl
  · exact hk j hj
  · exact hi

/-- A handler invokes its own function under its own name, or nothing. -/
theorem callHandler_invoked (execute : Closure) (commandName : Bytes) (ctx : CommandContext)
    (called recorded : Int) (script : ScriptRun) (e : LuaCommandEngine) :
    (e.callHandler execute commandName ctx called recorded script).2.invoked = none ∨
    (e.callHandler execute commandName ctx called recorded script).2.invoked =
      some ⟨commandName, ctx.message.user, execute, called, recorded⟩ := by
  unfold callHandler
  split
  · exact .inl rfl
  · split_ifs
    all_goals first | exact .inl rfl | exact .inr rfl

/-- A call keeps the limits of a file, if it is a call of another script or goes
through `k` with the metadata of the file. -/
theorem LimitsHold.callHandler {e : LuaCommandEngine} {rs : List Int}
    (hc : Consistent e.cooldownTracker h rs) (hk : OnlyUnder path k h)
    (hl : LimitsHold path m h) {execute : Closure} {commandName : Bytes}
    (hname : execute.source = path →
      commandName = k ∧ e.commandMetadata.lookup k = some m)
    (ctx : CommandContext) (called recorded : Int) (script : ScriptRun) :
    let marks := ((e.callHandler execute commandName ctx called recorded script).2.invoked.map
      Mark.use).toList
    OnlyUnder path k (h ++ marks) ∧ LimitsHold path m (h ++ marks) := by
  intro marks
  by_cases hsource : execute.source = path
  · obtain ⟨rfl, hm⟩ := hname hsource
    obtain ⟨hyes, hno⟩ := callHandler_admits hc hm execute ctx called recorded script
    by_cases ha : Admits m ctx commandName called h
    · simp only [marks, hyes ha]
      exact ⟨hk.concat fun _ ↦ rfl, hl.admitted hk ha execute recorded⟩
    · simp only [marks, (hno ha).2]
      simpa using ⟨hk, hl⟩
  · rcases callHandler_invoked execute commandName ctx called recorded script e with hi | hi
    · simp only [marks, hi]
      simpa using ⟨hk, hl⟩
    · simp only [marks, hi]
      exact ⟨hk.concat fun h ↦ absurd h hsource, hl.other hsource⟩

end

/-! ## Runs of the bot -/

namespace Bot

variable (sol : Sol)

/-- The metadata of the file as it is on the disk is `m`. -/
def Fixed (path : Path) (m : CommandMetadata) (b : Bot) (_ : Event) : Prop :=
  metadataOf sol b.fs path = some m

/-- A message that is dispatched to the script of the file goes through the name
`k`, under which the metadata of the file is stored. -/
def ThroughOne (path : Path) (k : Bytes) (b : Bot) : Event → Prop
  | .chat message _ =>
      match b.dispatch message with
      | some (.lua execute commandName, _) => execute.source = path →
          commandName = k ∧ b.engine.commandMetadata.lookup k = metadataOf sol b.fs path
      | _ => True
  | _ => True

theorem boot_cooldownTracker (fs : FileSystem) (listing : Option (List DirectoryEntry))
    (t : Traversal Bytes Path) : (boot sol fs listing t).engine.cooldownTracker = {} := by
  rw [boot_engine, loadAll_cooldownTracker]
  rfl

/-- Along every run whose clock does not go back, the tracker stays consistent
with the history. -/
theorem consistent_tracker {b : Bot} (hb : b.engine.cooldownTracker = {}) {es : List Event}
    (hclock : (es.flatMap Event.readings).Pairwise (· ≤ ·)) :
    Consistent ((machine sol).run b es).engine.cooldownTracker (history sol b es)
      (es.flatMap Event.readings) := by
  induction es using List.reverseRecOn with
  | nil => simpa [hb, history] using Consistent.new
  | append_singleton es ev ih =>
      rw [List.flatMap_append, List.flatMap_singleton] at hclock ⊢
      have hc := ih (List.pairwise_append.mp hclock).1
      rw [Machine.run_concat, history_concat]
      have hdoes := step_does sol ((machine sol).run b es) ev
      generalize ((machine sol).step ((machine sol).run b es) ev).1 = b',
        ((machine sol).step ((machine sol).run b es) ev).2.mark = mark at hdoes ⊢
      cases hdoes with
      | @call message env execute commandName ctx _ =>
          exact hc.callHandler execute commandName ctx env.script hclock
      | @reload message env ctx _ =>
          simpa [Bot.reload, Event.readings] using hc.read [env.called, env.recorded]
      | @other message env _ =>
          simpa [Event.readings] using hc.read [env.called, env.recorded]
      | edit => simpa [Event.readings] using hc
      | resetStreamCounters =>
          simpa [Event.readings, LuaCommandEngine.resetStreamCounters] using hc.reset

/-- **The limits of a command reached through one name.**  Take any run of the
bot at readings of the clock that do not go back, with edits, reloads and resets
anywhere, in which the metadata of a command file stays `m`.  If every message
that reaches the script of the file does so through the name `k`, with the
metadata of the file stored under it, the invocations of the script keep the
limits of `m`. -/
theorem limitsHold_of_throughOne (fs : FileSystem) (listing : Option (List DirectoryEntry))
    (t : Traversal Bytes Path) {es : List Event}
    (hclock : (es.flatMap Event.readings).Pairwise (· ≤ ·)) {path : Path} {m : CommandMetadata}
    (hfixed : (machine sol).Along (Fixed sol path m) (boot sol fs listing t) es) {k : Bytes}
    (hone : (machine sol).Along (ThroughOne sol path k) (boot sol fs listing t) es) :
    LimitsHold path m (history sol (boot sol fs listing t) es) := by
  -- the invocations of the script so far all went through `k`
  suffices OnlyUnder path k (history sol (boot sol fs listing t) es) ∧
      LimitsHold path m (history sol (boot sol fs listing t) es) from this.2
  induction es using List.reverseRecOn with
  | nil => exact ⟨by simp [OnlyUnder, history], LimitsHold.nil⟩
  | append_singleton es ev ih =>
      rw [List.flatMap_append, List.pairwise_append] at hclock
      rw [Machine.along_concat] at hfixed hone
      obtain ⟨honly, hlim⟩ := ih hclock.1 hfixed.1 hone.1
      have hc := consistent_tracker sol (boot_cooldownTracker sol fs listing t) hclock.1
      rw [history_concat]
      have hdoes := step_does sol ((machine sol).run (boot sol fs listing t) es) ev
      generalize ((machine sol).step ((machine sol).run (boot sol fs listing t) es) ev).1 = b',
        ((machine sol).step ((machine sol).run (boot sol fs listing t) es) ev).2.mark = mark
        at hdoes ⊢
      cases hdoes with
      | @call message env execute commandName ctx hd =>
          refine LimitsHold.callHandler hc honly hlim ?_ ctx env.called env.recorded env.script
          have hthrough := hone.2
          simp only [ThroughOne, hd] at hthrough
          intro hsource
          obtain ⟨hname, hmeta⟩ := hthrough hsource
          exact ⟨hname, hmeta.trans hfixed.2⟩
      | resetStreamCounters => exact ⟨by simpa [OnlyUnder] using honly, hlim.reset⟩
      | reload | other | edit => simpa using ⟨honly, hlim⟩

/-- `flip.lua` allows a flip every five seconds.  It is called as `!flip` three
times, two seconds and then four seconds apart: the second call is refused. -/
def flips : List Event :=
  [.chat (aliceSays "!flip") ⟨10 * second, 10 * second, {}, .stored, .stored⟩,
   .chat (aliceSays "!flip") ⟨12 * second, 12 * second, {}, .stored, .stored⟩,
   .chat (aliceSays "!FLIP") ⟨16 * second, 16 * second, {}, .stored, .stored⟩]

/-- The limits of `flip.lua` hold when it is called by its name only. -/
theorem limitsHold_flips : ∃ m, m.commandCooldown = 5 ∧
    (history Sol.checked (bootOne flipLua) flips).length = 2 ∧
    LimitsHold (bytes "commands/a.lua") m (history Sol.checked (bootOne flipLua) flips) := by
  refine ⟨_, ?_, by decide, limitsHold_of_throughOne Sol.checked (oneFile flipLua) _ _ (by decide)
    (k := bytes "flip") ⟨rfl, rfl, rfl, trivial⟩ ⟨?_, ?_, ?_, trivial⟩⟩
  · rfl
  · exact fun _ ↦ ⟨rfl, rfl⟩
  · exact fun _ ↦ ⟨rfl, rfl⟩
  · exact fun _ ↦ ⟨rfl, rfl⟩

/-- Called as `!flip` and then as `!coin`, `flip.lua` runs twice at the same
time, although its metadata did not change and asks for five seconds. -/
theorem not_limitsHold_flip_coin :
    let es : List Event :=
      [.chat (aliceSays "!flip") ⟨10 * second, 10 * second, {}, .stored, .stored⟩,
       .chat (aliceSays "!coin") ⟨10 * second, 10 * second, {}, .stored, .stored⟩]
    ∃ m, (machine Sol.checked).Along (Fixed Sol.checked (bytes "commands/a.lua") m)
        (bootOne flipLua) es ∧
      ¬ LimitsHold (bytes "commands/a.lua") m (history Sol.checked (bootOne flipLua) es) := by
  refine ⟨_, ⟨rfl, rfl, trivial⟩, fun h ↦ ?_⟩
  have hspaced := h.commandCooldown (by decide)
  revert hspaced
  unfold History.Spaced
  decide

end Bot

end Seraphbot
