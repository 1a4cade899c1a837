import Seraphbot.Lua.Gate

/-!
# Refusals for cooldown

A chatter who is told that a command is on cooldown should be able to blame an
invocation that is not long past.  For two of the three cooldowns this is so: a
command, or a user, that has not been seen yet has no entry in the tracker, and
no cooldown is running.  The last use of all is a time point, however, and it is
default-constructed: before the first invocation it is the epoch of the clock.

So the first command of a run is refused if it has a global cooldown and the
clock has not come that far from its epoch.  `cooldown_refusal_justified_iff`
says that this is the only way to be refused without cause.
-/

namespace Seraphbot.LuaCommandEngine

open CooldownTracker

/-- What the handler answers while a cooldown is running. -/
def cooldownRefusal : Output := { replies := [bytes "Command is on cooldown."] }

/-- Some invocation has ended less than the longest of the three cooldowns ago. -/
def Justified (m : CommandMetadata) (t : Int) (h : History Invocation) : Prop :=
  ∃ i ∈ h.uses,
    t - i.recorded < max m.globalCooldown (max m.commandCooldown m.userCooldown) * second

/-- The handler refuses for cooldown after the checks that come before. -/
theorem callHandler_eq_cooldownRefusal_iff {e : LuaCommandEngine} {commandName : Bytes}
    {m : CommandMetadata} (hm : e.commandMetadata.lookup commandName = some m)
    (execute : Closure) (ctx : CommandContext) (called recorded : Int) (script : ScriptRun) :
    (e.callHandler execute commandName ctx called recorded script).2 = cooldownRefusal ↔
      m.enabled = true ∧ hasPermission ctx m = true ∧
        e.cooldownTracker.isOnCooldown commandName ctx.message.user m called = true := by
  have hpermission : bytes "You don't have permission to use this command." ≠
      bytes "Command is on cooldown." := by decide
  have hlimit : bytes "Command has reached its usage limit for this stream." ≠
      bytes "Command is on cooldown." := by decide
  unfold callHandler
  rw [hm]
  dsimp only
  split_ifs <;> simp_all [cooldownRefusal]

/-- A cooldown that finds a recent invocation justifies the refusal. -/
theorem Justified.of_not_quiet {m : CommandMetadata} {t : Int} {h : History Invocation}
    {p : Invocation → Bool} {c : Int}
    (hc : c ≤ max m.globalCooldown (max m.commandCooldown m.userCooldown))
    (hrunning : ¬ (c ≤ 0 ∨ h.Quiet p Invocation.recorded (c * second) t)) : Justified m t h := by
  rw [not_or] at hrunning
  obtain ⟨i, hi, hrecent⟩ : ∃ i ∈ h.uses, t < i.recorded + c * second := by
    by_contra hnone
    push Not at hnone
    exact hrunning.2 fun i hi _ ↦ hnone i hi
  refine ⟨i, hi, ?_⟩
  have hle := Int.mul_le_mul_of_nonneg_right hc (show 0 ≤ second by decide)
  omega

/-- Once a command has been invoked, the last use is one of the invocations. -/
theorem exists_lastRecorded {h : History Invocation} (hne : h.uses ≠ []) :
    ∃ i ∈ h.uses, lastRecorded h = i.recorded := by
  obtain ⟨a, ha⟩ := List.exists_mem_of_ne_nil _ hne
  obtain ⟨i, hi⟩ := exists_latest (p := fun _ ↦ true) ha rfl
  exact ⟨i, latest_mem hi, by simp [lastRecorded, hi]⟩

section

variable {tr : CooldownTracker} {h : History Invocation} {rs : List Int}
  (hc : Consistent tr h rs) (commandName user : Bytes) (m : CommandMetadata) (t : Int)
include hc

/-- Before the first invocation, only the global cooldown can be running, and it is
compared with the epoch. -/
theorem isOnCooldown_unused_iff (hnone : h.uses = []) :
    tr.isOnCooldown commandName user m t = true ↔
      0 < m.globalCooldown ∧ t < m.globalCooldown * second := by
  have hlast : lastRecorded h = 0 := by simp [lastRecorded, hnone]
  have hquiet : ∀ (p : Invocation → Bool) (gap : Int), h.Quiet p Invocation.recorded gap t := by
    intro p gap i hi
    rw [hnone] at hi
    exact absurd hi List.not_mem_nil
  rw [← Bool.not_eq_false, isOnCooldown_eq_false_iff hc, hlast]
  simp only [hquiet, or_true, and_true]
  omega

/-- Afterwards, a cooldown that is running justifies the refusal. -/
theorem Justified.of_isOnCooldown (hused : h.uses ≠ [])
    (hrunning : tr.isOnCooldown commandName user m t = true) : Justified m t h := by
  rw [← Bool.not_eq_false, isOnCooldown_eq_false_iff hc, not_and_or, not_and_or] at hrunning
  rcases hrunning with hglobal | hcommand | huser
  · -- the last use of all is one of the invocations
    rw [not_or] at hglobal
    obtain ⟨i, hi, hlast⟩ := exists_lastRecorded hused
    refine Justified.of_not_quiet (p := fun _ ↦ true) (le_max_left _ _) ?_
    rw [not_or]
    exact ⟨hglobal.1, fun hquiet ↦ hglobal.2 (hlast ▸ hquiet i hi rfl)⟩
  · exact Justified.of_not_quiet ((le_max_left _ _).trans (le_max_right _ _)) hcommand
  · exact Justified.of_not_quiet ((le_max_right _ _).trans (le_max_right _ _)) huser

end

variable (sol : Sol)

/-- **A refusal for cooldown has a cause, except before the first invocation.**
In every run from an engine that has not run a command yet, the refusal of a call
at time `called` under the metadata `m` is justified by an invocation of the run,
exactly when a command has been invoked before, or the call does not get to the
cooldowns, or there is no global cooldown, or the clock is that far from its
epoch. -/
theorem cooldown_refusal_justified_iff {e : LuaCommandEngine} (he : e.cooldownTracker = {})
    (es : List GateEvent) (execute : Closure) (commandName : Bytes) (ctx : CommandContext)
    (called recorded : Int) (script : ScriptRun)
    (hclock : ((es ++ [GateEvent.call execute commandName ctx called recorded script]).flatMap
      GateEvent.readings).Pairwise (· ≤ ·))
    {m : CommandMetadata}
    (hm : ((gate sol).run e es).commandMetadata.lookup commandName = some m) :
    ((((gate sol).run e es).callHandler execute commandName ctx called recorded script).2 =
        cooldownRefusal →
      Justified m called (gateHistory sol e es)) ↔
    ((gateHistory sol e es).uses ≠ [] ∨ m.enabled = false ∨ hasPermission ctx m = false ∨
      m.globalCooldown ≤ 0 ∨ m.globalCooldown * second ≤ called) := by
  rw [List.flatMap_append, List.flatMap_singleton] at hclock
  have hc := consistent_run sol he (List.pairwise_append.mp hclock).1
  rw [callHandler_eq_cooldownRefusal_iff hm]
  by_cases hused : (gateHistory sol e es).uses = []
  · have hunjustified : ¬ Justified m called (gateHistory sol e es) := by
      rintro ⟨i, hi, -⟩
      rw [hused] at hi
      exact absurd hi List.not_mem_nil
    rw [isOnCooldown_unused_iff hc _ _ _ _ hused, imp_iff_not hunjustified,
      or_iff_right (not_not.mpr hused), not_and_or, not_and_or, not_and_or, Bool.not_eq_true,
      Bool.not_eq_true, not_lt, not_lt]
  · refine iff_of_true ?_ (.inl hused)
    rintro ⟨-, -, hrunning⟩
    exact Justified.of_isOnCooldown hc _ _ _ _ hused hrunning

/-- A script like `hello.lua` with a global cooldown of ten seconds. -/
def slowLua : Script :=
  .returned (.table
    [(bytes "name", .string (bytes "slow")),
     (bytes "global_cooldown", .integer 10),
     (bytes "execute", .function 0)] [])

/-- The engine with this script loaded. -/
def slowEngine : LuaCommandEngine :=
  (loadLuaCommand Sol.checked (fun _ ↦ some slowLua) (bytes "commands/slow.lua")
    (initializeEngine {})).2

/-- A call of `slow` without arguments. -/
def slowBy (user : Bytes) : CommandContext :=
  ⟨⟨user, bytes "!slow", [], []⟩, bytes "slow", []⟩

/-- Twenty seconds after the epoch `slow` runs for alice, and five seconds later
the refusal of bob is justified. -/
theorem cooldown_refusal_justified_iff_slow :
    ∃ m, slowEngine.commandMetadata.lookup (bytes "slow") = some m ∧
      Justified m (25 * second) (gateHistory Sol.checked slowEngine
        [.call ⟨[], 0⟩ (bytes "slow") (slowBy (bytes "alice")) (20 * second) (20 * second) {}]) := by
  refine ⟨_, rfl, ?_⟩
  exact (cooldown_refusal_justified_iff Sol.checked rfl _ ⟨[], 0⟩ (bytes "slow")
    (slowBy (bytes "bob")) (25 * second) (25 * second) {} (by decide) rfl).mpr
      (.inl (by decide)) (by decide)

/-- Five seconds after the epoch `slow` is refused, though nothing was ever
invoked. -/
theorem first_command_refused :
    ∃ m, slowEngine.commandMetadata.lookup (bytes "slow") = some m ∧
      (((gate Sol.checked).run slowEngine []).callHandler ⟨[], 0⟩ (bytes "slow")
        (slowBy (bytes "alice")) (5 * second) (5 * second) {}).2 = cooldownRefusal ∧
      ¬ Justified m (5 * second) (gateHistory Sol.checked slowEngine []) := by
  refine ⟨_, rfl, by decide, ?_⟩
  rintro ⟨i, hi, -⟩
  exact absurd hi List.not_mem_nil

end Seraphbot.LuaCommandEngine
