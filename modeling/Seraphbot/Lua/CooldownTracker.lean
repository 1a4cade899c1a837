import Seraphbot.Data.History
import Seraphbot.Data.UnorderedMap
import Seraphbot.Lua.Metadata

/-!
# The cooldown tracker

The model of `CooldownTracker`, and what it remembers of the past.  The tracker
keeps four summaries of an unbounded history of invocations: the time of the
last one, the time of the last one under each name, the same for each user, and
a counter for each name.  `Tracks` relates them to the history they summarise,
and the two operations that change the tracker keep the relation.

Readings of the steady clock are nanoseconds since its epoch.  An invocation has
two of them, since the clock is read once to decide and once more, after the
script has run, to record.
-/

namespace Seraphbot

/-- A second, in nanoseconds. -/
def second : Int := 1000000000

/-- A Lua function: the file whose script made it, and its code there. -/
structure Closure where
  source : Path
  proto : Nat
deriving DecidableEq

/-- A call of the Lua function of a command by its handler. -/
structure Invocation where
  /-- The name the handler was registered under. -/
  commandName : Bytes
  user : Bytes
  execute : Closure
  /-- The reading that `isOnCooldown` decided on. -/
  called : Int
  /-- The reading that `recordUsage` stored. -/
  recorded : Int
deriving DecidableEq

/-- `sbot::core::CooldownTracker`. -/
structure CooldownTracker where
  /-- A default-constructed time point is the epoch. -/
  lastGlobalCommand : Int := 0
  lastCommandUse : UnorderedMap Bytes Int := ∅
  userCommandCooldowns : UnorderedMap Bytes (UnorderedMap Bytes Int) := ∅
  commandUseCount : UnorderedMap Bytes Int := ∅

namespace CooldownTracker

/-- `duration_cast<seconds>(d).count()`, which truncates. -/
def toSeconds (d : Int) : Int := d.tdiv second

/-- The time a user has last used a command. -/
def lastUserUse (tr : CooldownTracker) (command user : Bytes) : Option Int :=
  (tr.userCommandCooldowns.lookup command).bind fun users ↦ users.lookup user

/-- Is one of the three cooldowns running at `now`? -/
def isOnCooldown (tr : CooldownTracker) (command user : Bytes) (m : CommandMetadata)
    (now : Int) : Bool :=
  if m.globalCooldown > 0 && toSeconds (now - tr.lastGlobalCommand) < m.globalCooldown then true
  else if m.commandCooldown > 0 &&
      (tr.lastCommandUse.lookup command).any
        (fun last ↦ toSeconds (now - last) < m.commandCooldown) then true
  else if m.userCooldown > 0 &&
      (tr.lastUserUse command user).any
        (fun last ↦ toSeconds (now - last) < m.userCooldown) then true
  else false

/-- The counter of a command, which starts at zero. -/
def useCount (tr : CooldownTracker) (command : Bytes) : Int :=
  match tr.commandUseCount.lookup command with
  | some n => n
  | none => 0

/-- Note a use of a command by a user at `now`. -/
def recordUsage (tr : CooldownTracker) (command user : Bytes) (now : Int) : CooldownTracker where
  lastGlobalCommand := now
  lastCommandUse := AList.insert command now tr.lastCommandUse
  userCommandCooldowns :=
    AList.insert command
      (AList.insert user now ((tr.userCommandCooldowns.lookup command).getD ∅))
      tr.userCommandCooldowns
  commandUseCount := AList.insert command (tr.useCount command + 1) tr.commandUseCount

/-- A new stream starts: the counters are cleared, the cooldowns go on. -/
def resetStreamCounters (tr : CooldownTracker) : CooldownTracker :=
  { tr with commandUseCount := ∅ }

/-! ## Truncation

A cooldown of `c` whole seconds has run out exactly when the untruncated
distance is at least `c` seconds. -/

theorem toSeconds_lt_iff {d c : Int} (hc : 0 < c) : toSeconds d < c ↔ d < c * second := by
  have hs : (0 : Int) < second := by decide
  unfold toSeconds
  rcases le_or_gt 0 d with hd | hd
  · rw [Int.tdiv_eq_ediv_of_nonneg hd]
    exact Int.ediv_lt_iff_lt_mul hs
  · -- a clock that has gone back truncates to at most zero
    have hneg : 0 ≤ (-d).tdiv second := Int.tdiv_nonneg (by omega) hs.le
    rw [Int.neg_tdiv] at hneg
    have hpos : 0 < c * second := Int.mul_pos hc hs
    constructor <;> intro <;> omega

/-! ## What the tracker remembers -/

/-- The test for an invocation under a name. -/
def under (command : Bytes) (i : Invocation) : Bool := i.commandName = command

/-- The test for an invocation under a name by a user. -/
def underBy (command user : Bytes) (i : Invocation) : Bool :=
  i.commandName = command && i.user = user

/-- The tracker `tr` summarises the history `h`. -/
structure Tracks (tr : CooldownTracker) (h : History Invocation) : Prop where
  lastGlobalCommand : tr.lastGlobalCommand =
    ((latest (fun _ ↦ true) h.uses).map Invocation.recorded).getD 0
  lastCommandUse (command : Bytes) : tr.lastCommandUse.lookup command =
    (latest (under command) h.uses).map Invocation.recorded
  lastUserUse (command user : Bytes) : tr.lastUserUse command user =
    (latest (underBy command user) h.uses).map Invocation.recorded
  useCount (command : Bytes) : tr.useCount command = h.sinceReset.countP (under command)

/-- A tracker that was just constructed summarises the empty history. -/
theorem Tracks.new : Tracks {} [] where
  lastGlobalCommand := rfl
  lastCommandUse _ := rfl
  lastUserUse _ _ := rfl
  useCount _ := rfl

theorem lastUserUse_recordUsage (tr : CooldownTracker) (command user : Bytes) (now : Int)
    (c u : Bytes) : (tr.recordUsage command user now).lastUserUse c u =
      if command = c ∧ user = u then some now else tr.lastUserUse c u := by
  unfold lastUserUse recordUsage
  simp only [UnorderedMap.lookup_insert_eq]
  by_cases hc : command = c
  · subst hc
    simp only [if_true, Option.bind_some, UnorderedMap.lookup_insert_eq, true_and]
    cases tr.userCommandCooldowns.lookup command <;> simp
  · simp [hc]

theorem useCount_recordUsage (tr : CooldownTracker) (command user : Bytes) (now : Int)
    (c : Bytes) : (tr.recordUsage command user now).useCount c =
      if command = c then tr.useCount c + 1 else tr.useCount c := by
  unfold useCount recordUsage
  simp only [UnorderedMap.lookup_insert_eq]
  by_cases hc : command = c
  · subst hc; simp [useCount]
  · simp [hc]

/-- Recording an invocation extends the history by it. -/
theorem Tracks.recordUsage {tr : CooldownTracker} {h : History Invocation} (ht : Tracks tr h)
    (i : Invocation) :
    Tracks (tr.recordUsage i.commandName i.user i.recorded) (h ++ [.use i]) where
  lastGlobalCommand := by simp [CooldownTracker.recordUsage, latest_concat]
  lastCommandUse c := by
    simp only [CooldownTracker.recordUsage, UnorderedMap.lookup_insert_eq, ht.lastCommandUse c,
      History.uses_append, History.uses_use, latest_concat, under]
    by_cases hc : i.commandName = c <;> simp [hc]
  lastUserUse c u := by
    rw [lastUserUse_recordUsage, ht.lastUserUse c u, History.uses_append, History.uses_use,
      latest_concat]
    by_cases hc : i.commandName = c ∧ i.user = u <;> simp [underBy, hc]
  useCount c := by
    rw [useCount_recordUsage, ht.useCount c, History.sinceReset_use, List.countP_append,
      List.countP_singleton]
    by_cases hc : i.commandName = c <;> simp [under, hc]

/-- Clearing the counters is a reset in the history. -/
theorem Tracks.resetStreamCounters {tr : CooldownTracker} {h : History Invocation}
    (ht : Tracks tr h) : Tracks tr.resetStreamCounters (h ++ [.reset]) where
  lastGlobalCommand := by
    simpa [CooldownTracker.resetStreamCounters] using ht.lastGlobalCommand
  lastCommandUse c := by
    simpa [CooldownTracker.resetStreamCounters] using ht.lastCommandUse c
  lastUserUse c u := by
    rw [History.uses_append, History.uses_reset, List.append_nil]
    exact ht.lastUserUse c u
  useCount c := by simp [CooldownTracker.resetStreamCounters, CooldownTracker.useCount]

end CooldownTracker

end Seraphbot
