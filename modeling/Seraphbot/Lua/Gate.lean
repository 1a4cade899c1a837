import Mathlib.Data.List.ReduceOption
import Seraphbot.Data.Machine
import Seraphbot.Lua.Loading

/-!
# The gate in front of a Lua command

What the checks of a handler are for, stated without the tracker: `Admits` says
when a call is let through, in terms of the whole history of invocations.  The
tracker only holds a summary of that history, the distances it compares are
truncated, the metadata may be replaced between two calls and the counters
cleared at any time; nevertheless the handler lets a call through exactly when
`Admits` does.

The proof is a simulation.  `Consistent` relates the tracker to the history and
to the readings of the clock so far, every event keeps it, and in a consistent
state the checks of the handler compute `Admits`.
-/

namespace Seraphbot

open CooldownTracker

namespace LuaCommandEngine

/-! ## The specification -/

/-- When the last invocation of any Lua command was recorded; the epoch of the
clock if there was none. -/
def lastRecorded (h : History Invocation) : Int :=
  ((latest (fun _ ↦ true) h.uses).map Invocation.recorded).getD 0

/-- A call under `commandName` at time `t` is let through, given the metadata
and the history of invocations. -/
structure Admits (m : CommandMetadata) (ctx : CommandContext) (commandName : Bytes) (t : Int)
    (h : History Invocation) : Prop where
  enabled : m.enabled = true
  permitted : hasPermission ctx m = true
  /-- The global cooldown has run out since the last invocation of all. -/
  globalCooldown : m.globalCooldown ≤ 0 ∨ lastRecorded h + m.globalCooldown * second ≤ t
  /-- No invocation under the name was recorded within the command cooldown. -/
  commandCooldown : m.commandCooldown ≤ 0 ∨
    h.Quiet (under commandName) Invocation.recorded (m.commandCooldown * second) t
  /-- No invocation under the name by the user was recorded within the user
  cooldown. -/
  userCooldown : m.userCooldown ≤ 0 ∨
    h.Quiet (underBy commandName ctx.message.user) Invocation.recorded
      (m.userCooldown * second) t
  /-- There is room in the quota since the last reset. -/
  maxUsesPerStream : m.maxUsesPerStream ≤ 0 ∨
    (h.sinceReset.countP (under commandName) : Int) < m.maxUsesPerStream

/-! ## Trackers that are consistent with a history -/

/-- The tracker summarises the history, whose invocations were recorded in order
at readings of the clock. -/
structure Consistent (tr : CooldownTracker) (h : History Invocation) (readings : List Int) :
    Prop where
  tracks : Tracks tr h
  stamps : ∀ i ∈ h.uses, i.recorded ∈ readings
  ordered : h.uses.Pairwise fun i j ↦ i.recorded ≤ j.recorded

namespace Consistent

variable {tr : CooldownTracker} {h : History Invocation} {rs : List Int}

theorem new : Consistent {} [] [] := ⟨Tracks.new, by simp, by simp⟩

/-- Reading the clock changes nothing. -/
theorem read (hc : Consistent tr h rs) (rs' : List Int) : Consistent tr h (rs ++ rs') :=
  ⟨hc.tracks, fun i hi ↦ List.mem_append_left _ (hc.stamps i hi), hc.ordered⟩

theorem reset (hc : Consistent tr h rs) :
    Consistent tr.resetStreamCounters (h ++ [.reset]) rs where
  tracks := hc.tracks.resetStreamCounters
  stamps := by simpa using hc.stamps
  ordered := by simpa using hc.ordered

/-- An invocation is recorded at a reading that is not before any earlier one. -/
theorem record (hc : Consistent tr h rs) (i : Invocation)
    (hclock : (rs ++ [i.called, i.recorded]).Pairwise (· ≤ ·)) :
    Consistent (tr.recordUsage i.commandName i.user i.recorded) (h ++ [.use i])
      (rs ++ [i.called, i.recorded]) where
  tracks := hc.tracks.recordUsage i
  stamps j hj := by
    rw [History.uses_append, History.uses_use, List.mem_append, List.mem_singleton] at hj
    rcases hj with hj | rfl
    · exact List.mem_append_left _ (hc.stamps j hj)
    · simp
  ordered := by
    rw [History.uses_append, History.uses_use, List.pairwise_append]
    refine ⟨hc.ordered, List.pairwise_singleton _ _, ?_⟩
    intro j hj k hk
    rw [List.mem_singleton.mp hk]
    exact (List.pairwise_append.mp hclock).2.2 _ (hc.stamps j hj) _ (by simp)

end Consistent

/-! ## The checks compute the specification -/

section

variable {tr : CooldownTracker} {h : History Invocation} {rs : List Int}

/-- A cooldown that is compared with the latest matching invocation is over
exactly when no matching invocation is too recent. -/
theorem cooldown_over_iff {p : Invocation → Bool} {last : Option Int}
    (hlast : last = (latest p h.uses).map Invocation.recorded)
    (hord : h.uses.Pairwise fun i j ↦ i.recorded ≤ j.recorded) (c t : Int) :
    (decide (c > 0) && last.any fun r ↦ toSeconds (t - r) < c) = false ↔
      (c ≤ 0 ∨ h.Quiet p Invocation.recorded (c * second) t) := by
  by_cases hc : 0 < c
  · have hnc : ¬ c ≤ 0 := by omega
    simp only [gt_iff_lt, hc, decide_true, Bool.true_and, hnc, false_or]
    rw [History.quiet_iff_latest hord, hlast]
    cases latest p h.uses with
    | none => simp
    | some i =>
        simp only [Option.map_some, Option.any_some, decide_eq_false_iff_not,
          toSeconds_lt_iff hc, Option.some.injEq, forall_eq']
        omega
  · simp [hc, not_lt.mp hc]

/-- The global cooldown is compared with the last invocation of all, and with
the epoch before the first one. -/
theorem globalCooldown_over_iff (hc : Consistent tr h rs) (c t : Int) :
    (decide (c > 0) && decide (toSeconds (t - tr.lastGlobalCommand) < c)) = false ↔
      (c ≤ 0 ∨ lastRecorded h + c * second ≤ t) := by
  rw [hc.tracks.lastGlobalCommand]
  by_cases hg : 0 < c
  · have hng : ¬ c ≤ 0 := by omega
    simp only [gt_iff_lt, hg, decide_true, Bool.true_and, decide_eq_false_iff_not,
      toSeconds_lt_iff hg, hng, false_or]
    change ¬ t - lastRecorded h < c * second ↔ _
    omega
  · simp [hg, not_lt.mp hg]

/-- In a consistent state no cooldown is running exactly when the history is
quiet enough for all three. -/
theorem isOnCooldown_eq_false_iff (hc : Consistent tr h rs) (commandName user : Bytes)
    (m : CommandMetadata) (t : Int) :
    tr.isOnCooldown commandName user m t = false ↔
      (m.globalCooldown ≤ 0 ∨ lastRecorded h + m.globalCooldown * second ≤ t) ∧
      (m.commandCooldown ≤ 0 ∨
        h.Quiet (under commandName) Invocation.recorded (m.commandCooldown * second) t) ∧
      (m.userCooldown ≤ 0 ∨
        h.Quiet (underBy commandName user) Invocation.recorded (m.userCooldown * second) t) := by
  rw [← globalCooldown_over_iff hc,
    ← cooldown_over_iff (hc.tracks.lastCommandUse commandName) hc.ordered,
    ← cooldown_over_iff (hc.tracks.lastUserUse commandName user) hc.ordered]
  unfold isOnCooldown
  split_ifs <;> simp_all

/-- The chat gets at most the reason why a call is not let through. -/
def IsRefusal (replies : List Bytes) : Prop :=
  replies ∈ [[], [bytes "You don't have permission to use this command."],
    [bytes "Command is on cooldown."],
    [bytes "Command has reached its usage limit for this stream."]]

/-- **One call.**  In a consistent state the handler invokes the script exactly
when the history admits the call; a call that is not let through leaves the
engine as it is. -/
theorem callHandler_admits {e : LuaCommandEngine} (hc : Consistent e.cooldownTracker h rs)
    {commandName : Bytes} {m : CommandMetadata}
    (hm : e.commandMetadata.lookup commandName = some m) (execute : Closure)
    (ctx : CommandContext) (called recorded : Int) (script : ScriptRun) :
    (Admits m ctx commandName called h →
      e.callHandler execute commandName ctx called recorded script =
        ({ e with cooldownTracker :=
            e.cooldownTracker.recordUsage commandName ctx.message.user recorded },
          { replies := executeLuaCommand script
            invoked := some ⟨commandName, ctx.message.user, execute, called, recorded⟩ })) ∧
    (¬ Admits m ctx commandName called h →
      (e.callHandler execute commandName ctx called recorded script).1 = e ∧
      (e.callHandler execute commandName ctx called recorded script).2.invoked = none ∧
      IsRefusal (e.callHandler execute commandName ctx called recorded script).2.replies) := by
  have hcool := isOnCooldown_eq_false_iff hc commandName ctx.message.user m called
  have hquota : (decide (m.maxUsesPerStream > 0) &&
      decide (e.cooldownTracker.useCount commandName ≥ m.maxUsesPerStream)) = false ↔
      (m.maxUsesPerStream ≤ 0 ∨
        (h.sinceReset.countP (under commandName) : Int) < m.maxUsesPerStream) := by
    rw [hc.tracks.useCount]
    simp only [Bool.and_eq_false_iff, decide_eq_false_iff_not]
    omega
  unfold callHandler
  rw [hm]
  constructor
  · intro ha
    have h₁ := hcool.mpr ⟨ha.globalCooldown, ha.commandCooldown, ha.userCooldown⟩
    have h₂ := hquota.mpr ha.maxUsesPerStream
    simp [ha.enabled, ha.permitted, h₁, h₂]
  · intro hna
    -- the first check that fails returns; all of them passing would admit the call
    dsimp only
    split_ifs with h₁ h₂ h₃ h₄
    all_goals try exact ⟨rfl, rfl, by simp [IsRefusal]⟩
    have hgap := hcool.mp (by simpa using h₃)
    exact absurd ⟨by simpa using h₁, by simpa using h₂, hgap.1, hgap.2.1, hgap.2.2,
      hquota.mp (by simpa using h₄)⟩ hna

/-- A call keeps the tracker consistent, whether or not it is let through. -/
theorem Consistent.callHandler {e : LuaCommandEngine} (hc : Consistent e.cooldownTracker h rs)
    (execute : Closure) (commandName : Bytes) (ctx : CommandContext) {called recorded : Int}
    (script : ScriptRun) (hclock : (rs ++ [called, recorded]).Pairwise (· ≤ ·)) :
    Consistent (e.callHandler execute commandName ctx called recorded script).1.cooldownTracker
      (h ++ ((e.callHandler execute commandName ctx called recorded script).2.invoked.map
        Mark.use).toList) (rs ++ [called, recorded]) := by
  cases hm : e.commandMetadata.lookup commandName with
  | none => simpa [LuaCommandEngine.callHandler, hm] using hc.read [called, recorded]
  | some m =>
      have hcall := callHandler_admits hc hm execute ctx called recorded script
      by_cases ha : Admits m ctx commandName called h
      · rw [hcall.1 ha]
        exact hc.record ⟨commandName, ctx.message.user, execute, called, recorded⟩ hclock
      · rw [(hcall.2 ha).1, (hcall.2 ha).2.1]
        simpa using hc.read [called, recorded]

end

/-! ## Runs of the gate -/

/-- What can happen to the engine while commands are used. -/
inductive GateEvent where
  /-- The handler registered under `commandName` is called. -/
  | call (execute : Closure) (commandName : Bytes) (ctx : CommandContext)
      (called recorded : Int) (script : ScriptRun)
  /-- A file is loaded, which may replace metadata. -/
  | load (fs : FileSystem) (path : Path)
  /-- All files are reloaded, which may replace metadata. -/
  | reload (fs : FileSystem) (t : Traversal Bytes Path)
  | resetStreamCounters

/-- The readings of the clock an event makes. -/
def GateEvent.readings : GateEvent → List Int
  | .call _ _ _ called recorded _ => [called, recorded]
  | _ => []

variable (sol : Sol)

/-- The engine as a machine that emits its history. -/
def gate : Machine LuaCommandEngine GateEvent (Option (Mark Invocation)) where
  step e
    | .call execute commandName ctx called recorded script =>
        let (e', out) := e.callHandler execute commandName ctx called recorded script
        (e', out.invoked.map .use)
    | .load fs path => ((loadLuaCommand sol fs path e).2, none)
    | .reload fs t => (reloadAllCommands sol fs t e, none)
    | .resetStreamCounters => (e.resetStreamCounters, some .reset)

/-- The history of a run. -/
def gateHistory (e : LuaCommandEngine) (es : List GateEvent) : History Invocation :=
  ((gate sol).trace e es).reduceOption

theorem gateHistory_concat (e : LuaCommandEngine) (es : List GateEvent) (ev : GateEvent) :
    gateHistory sol e (es ++ [ev]) =
      gateHistory sol e es ++ ((gate sol).step ((gate sol).run e es) ev).2.toList := by
  rw [gateHistory, Machine.trace_concat, List.reduceOption_append, List.reduceOption_singleton]
  rfl

/-- Along every run whose clock does not go back, the tracker stays consistent
with the history. -/
theorem consistent_run {e : LuaCommandEngine} (he : e.cooldownTracker = {}) {es : List GateEvent}
    (hclock : (es.flatMap GateEvent.readings).Pairwise (· ≤ ·)) :
    Consistent ((gate sol).run e es).cooldownTracker (gateHistory sol e es)
      (es.flatMap GateEvent.readings) := by
  induction es using List.reverseRecOn with
  | nil => simpa [he, gateHistory] using Consistent.new
  | append_singleton es ev ih =>
      rw [List.flatMap_append, List.flatMap_singleton] at hclock ⊢
      have hc := ih (List.pairwise_append.mp hclock).1
      rw [Machine.run_concat, gateHistory_concat]
      cases ev with
      | call execute commandName ctx called recorded script =>
          exact hc.callHandler execute commandName ctx script hclock
      | load fs path => simpa [gate, GateEvent.readings] using hc
      | reload fs t => simpa [gate, GateEvent.readings] using hc
      | resetStreamCounters =>
          simpa [gate, GateEvent.readings, resetStreamCounters] using hc.reset

/-- **The gate refines its specification.**  In every run from an engine that
has not run a command yet, whatever the calls, loads and resets before it, a
call under `commandName` at time `called` with the metadata `m` stored for that
name invokes the script exactly when the history of the run admits it.

* When it does, the chat gets the replies of the script, and one more if the
  script ends with an error; the use is recorded once, under that name and user,
  and nothing else in the engine changes.
* Otherwise nothing in the engine changes, and the chat gets at most the reason. -/
theorem gate_refines_admits {e : LuaCommandEngine} (he : e.cooldownTracker = {})
    (es : List GateEvent) (execute : Closure) (commandName : Bytes) (ctx : CommandContext)
    (called recorded : Int) (script : ScriptRun)
    (hclock : ((es ++ [GateEvent.call execute commandName ctx called recorded script]).flatMap
      GateEvent.readings).Pairwise (· ≤ ·))
    {m : CommandMetadata}
    (hm : ((gate sol).run e es).commandMetadata.lookup commandName = some m) :
    let r := ((gate sol).run e es).callHandler execute commandName ctx called recorded script
    (r.2.invoked = some ⟨commandName, ctx.message.user, execute, called, recorded⟩ ↔
      Admits m ctx commandName called (gateHistory sol e es)) ∧
    (r.2.invoked = none ↔ ¬ Admits m ctx commandName called (gateHistory sol e es)) ∧
    (¬ Admits m ctx commandName called (gateHistory sol e es) →
      r.1 = (gate sol).run e es ∧ IsRefusal r.2.replies) ∧
    (Admits m ctx commandName called (gateHistory sol e es) →
      (script.ending = .valid → r.2.replies = script.replies) ∧
      (script.ending = .invalid →
        r.2.replies = script.replies ++ [bytes "Command error occured - check logs"]) ∧
      (script.ending = .exception →
        r.2.replies = script.replies ++ [bytes "Command execution failed"]) ∧
      r.1 = { (gate sol).run e es with
        cooldownTracker := ((gate sol).run e es).cooldownTracker.recordUsage commandName
          ctx.message.user recorded }) := by
  rw [List.flatMap_append, List.flatMap_singleton] at hclock
  have hc := consistent_run sol he (List.pairwise_append.mp hclock).1
  obtain ⟨hyes, hno⟩ := callHandler_admits hc hm execute ctx called recorded script
  by_cases ha : Admits m ctx commandName called (gateHistory sol e es)
  · simp +contextual [ha, hyes ha, executeLuaCommand]
  · obtain ⟨hsame, hinvoked, hreplies⟩ := hno ha
    simp only [ha, hsame, hinvoked, hreplies, reduceCtorEq, not_false_eq_true, and_self,
      false_implies, true_implies]

/-- The engine with `hello.lua` loaded. -/
def helloEngine : LuaCommandEngine :=
  (loadLuaCommand Sol.checked (fun _ ↦ some helloLua) (bytes "commands/hello.lua")
    (initializeEngine {})).2

/-- A call of `hello` without arguments. -/
def helloBy (user : Bytes) : CommandContext :=
  ⟨⟨user, bytes "!hello", [], []⟩, bytes "hello", []⟩

/-- `hello` has a cooldown of ten seconds for each user: five seconds after
alice has used it, bob is let through and alice is not. -/
theorem gate_refines_admits_hello :
    ∃ m, helloEngine.commandMetadata.lookup (bytes "hello") = some m ∧
      Admits m (helloBy (bytes "bob")) (bytes "hello") (25 * second)
        (gateHistory Sol.checked helloEngine
          [.call ⟨[], 0⟩ (bytes "hello") (helloBy (bytes "alice")) (20 * second) (20 * second) {}]) ∧
      ¬ Admits m (helloBy (bytes "alice")) (bytes "hello") (25 * second)
        (gateHistory Sol.checked helloEngine
          [.call ⟨[], 0⟩ (bytes "hello") (helloBy (bytes "alice")) (20 * second) (20 * second) {}]) := by
  refine ⟨_, rfl, ?_, ?_⟩
  · exact (gate_refines_admits Sol.checked rfl _ ⟨[], 0⟩ (bytes "hello") (helloBy (bytes "bob"))
      (25 * second) (25 * second) {} (by decide) rfl).1.mp (by decide)
  · exact (gate_refines_admits Sol.checked rfl _ ⟨[], 0⟩ (bytes "hello") (helloBy (bytes "alice"))
      (25 * second) (25 * second) {} (by decide) rfl).2.1.mp (by decide)

end LuaCommandEngine

end Seraphbot
