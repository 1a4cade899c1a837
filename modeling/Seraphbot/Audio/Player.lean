import Seraphbot.Audio.AudioSystem
import Seraphbot.Data.Handles
import Seraphbot.Data.Rounding

/-!
# The player

The model of `core/miniaudio_player.cpp`, and of the part of `AudioSystem` that is
about it.  The player owns an engine of the sound library, which it allocates with
`new`; volumes are integers between 0 and 100 outside of the player and `float`s
inside.

* Every engine lives one life: it is initialised once, used only in between, and
  deleted once (`engines_live_once`).
* The volume is never set above the master volume, nor above the volume that was asked
  for (`along_careful`).
* `getMasterVolume` returns what was set last, but for two volumes that it truncates
  to one less (`getMasterVolume_run`).

What the sound library and the disk answer is part of the events.  The library is only
known by what is called, on which engine.
-/

namespace Seraphbot.Miniaudio

open Rounding

/-! ## Volumes -/

/-- A volume as the player keeps it: a `float` between 0 and 1, one of those with 23
digits after the leading one. -/
structure Volume where
  value : ℚ
  nonneg : 0 ≤ value
  le_one : value ≤ 1
  round_value : round 23 value = value

namespace Volume

/-- The `float` for a number between 0 and 1. -/
def ofRat (x : ℚ) (h₀ : 0 ≤ x) (h₁ : x ≤ 1) : Volume where
  value := round 23 x
  nonneg := round_nonneg 23 h₀
  le_one := (round_mono 23 h₀ h₁).trans (round_one 23).le
  round_value := round_round 23 h₀

/-- The product of two `float`s. -/
def mul (v w : Volume) : Volume :=
  ofRat (v.value * w.value) (mul_nonneg v.nonneg w.nonneg)
    (mul_le_one₀ v.le_one w.nonneg w.le_one)

theorem mul_le_left (v w : Volume) : (v.mul w).value ≤ v.value :=
  calc (v.mul w).value ≤ round 23 v.value :=
        round_mono 23 (mul_nonneg v.nonneg w.nonneg) (mul_le_of_le_one_right v.nonneg w.le_one)
    _ = v.value := v.round_value

theorem mul_le_right (v w : Volume) : (v.mul w).value ≤ w.value :=
  calc (v.mul w).value ≤ round 23 w.value :=
        round_mono 23 (mul_nonneg v.nonneg w.nonneg) (mul_le_of_le_one_left w.nonneg v.le_one)
    _ = w.value := w.round_value

end Volume

/-- `std::clamp(volume, 0, 100)`. -/
def clamp (volume : ℤ) : ℤ := max 0 (min volume 100)

theorem clamp_nonneg (volume : ℤ) : 0 ≤ clamp volume := le_max_left _ _

theorem clamp_le (volume : ℤ) : clamp volume ≤ 100 :=
  max_le (by decide) (min_le_right _ _)

theorem clamp_clamp (volume : ℤ) : clamp (clamp volume) = clamp volume := by
  unfold clamp
  omega

def volumeToFloat (volume : ℤ) : Volume :=
  .ofRat (clamp volume / 100)
    (div_nonneg (by exact_mod_cast clamp_nonneg volume) (by norm_num))
    ((div_le_one (by norm_num)).mpr (by exact_mod_cast clamp_le volume))

theorem volumeToFloat_clamp (volume : ℤ) : volumeToFloat (clamp volume) = volumeToFloat volume := by
  unfold volumeToFloat
  simp only [clamp_clamp]

/-- The conversion to `int` drops what is behind the point. -/
def floatToVolume (volume : Volume) : ℤ :=
  ⌊round 23 (max 0 (min volume.value 1) * 100)⌋

/-- What `getMasterVolume` makes of a volume. -/
def shown (volume : ℤ) : ℤ := if volume = 53 ∨ volume = 59 then volume - 1 else volume

/-- The way through the `float`s loses one at two of the volumes. -/
theorem floatToVolume_volumeToFloat (volume : ℤ) :
    floatToVolume (volumeToFloat volume) = shown (clamp volume) := by
  have heval : ∀ n : Fin 101, floatToVolume (volumeToFloat (n : ℕ)) = shown (n : ℕ) := by
    decide +kernel
  obtain ⟨n, hn⟩ := Int.eq_ofNat_of_zero_le (clamp_nonneg volume)
  have hlt : n < 101 := by
    have hle := clamp_le volume
    omega
  rw [← volumeToFloat_clamp, hn]
  exact heval ⟨n, hlt⟩

/-! ## The player -/

/-- What is called on an engine. -/
inductive Op where
  | new
  | init (success : Bool)
  | playSound (filepath : Path)
  | setVolume (volume : Volume)
  | stop
  | uninit
  | delete

/-- `sbot::core::MiniaudioPlayer`. -/
structure Player where
  /-- The address that `m_engine` points to. -/
  engine : Option ℕ := none
  masterVolume : Volume := volumeToFloat 70
  initialized : Bool := false
  /-- How many engines have been allocated.  No address is used twice. -/
  allocated : ℕ := 0

namespace Player

/-- `initialize`.  The library says if it succeeds. -/
def initializePlayer (success : Bool) (p : Player) : Player × List (ℕ × Op) :=
  if p.initialized then (p, [])
  else
    let engine := p.allocated
    let p := { p with allocated := engine + 1 }
    if !success then
      ({ p with engine := none }, [(engine, .new), (engine, .init false), (engine, .delete)])
    else
      ({ p with engine := some engine, initialized := true },
        [(engine, .new), (engine, .init true)])

/-- `shutdown`, which is all that the destructor does. -/
def shutdown (p : Player) : Player × List (ℕ × Op) :=
  if !p.initialized then (p, [])
  else match p.engine with
    | some engine =>
        ({ p with engine := none, initialized := false }, [(engine, .uninit), (engine, .delete)])
    | none => ({ p with initialized := false }, [])

/-- `playSound`, with what it returns, `none` when it throws.  The library says if it
plays the file. -/
def playSound (disk : Storage) (plays : Bool) (filepath : Path) (volume : ℤ) (p : Player) :
    List (ℕ × Op) × Option Bool :=
  if !p.initialized then ([], some false)
  else match p.engine with
    | none => ([], some false)
    | some engine =>
        match disk.isThere filepath with
        | none => ([], none)
        | some false => ([], some false)
        | some true =>
            let volume := clamp volume
            let vol := (volumeToFloat volume).mul p.masterVolume
            if !plays then ([(engine, .playSound filepath)], some false)
            else ([(engine, .playSound filepath), (engine, .setVolume vol)], some true)

def setMasterVolume (volume : ℤ) (p : Player) : Player × List (ℕ × Op) :=
  let volume := clamp volume
  let p := { p with masterVolume := volumeToFloat volume }
  (p, p.engine.toList.map fun engine ↦ (engine, .setVolume p.masterVolume))

def getMasterVolume (p : Player) : ℤ := floatToVolume p.masterVolume

def stopAll (p : Player) : List (ℕ × Op) :=
  if !p.initialized then []
  else match p.engine with
    | none => []
    | some engine => [(engine, .stop)]

/-- The member functions that do something. -/
inductive Call where
  | initializePlayer (success : Bool)
  | shutdown
  | playSound (disk : Storage) (plays : Bool) (filepath : Path) (volume : ℤ)
  | setMasterVolume (volume : ℤ)
  | stopAll

/-- The player, and what it calls on its engines. -/
def machine : Machine Player Call (List (ℕ × Op)) where
  step p
    | .initializePlayer success => p.initializePlayer success
    | .shutdown => p.shutdown
    | .playSound disk plays filepath volume => (p, (p.playSound disk plays filepath volume).1)
    | .setMasterVolume volume => p.setMasterVolume volume
    | .stopAll => (p, p.stopAll)

/-- Nothing is thrown for a file that is there. -/
theorem playSound_returns {disk : Storage} {filepath : Path}
    (h : disk.isThere filepath = some true) (plays : Bool) (volume : ℤ) (p : Player) :
    ∃ ok, (p.playSound disk plays filepath volume).2 = some ok := by
  fun_cases playSound disk plays filepath volume p with
  | case3 _ _ _ hthrows => simp [h] at hthrows
  | _ => exact ⟨_, rfl⟩

/-! ## The lives of engines -/

/-- Where an engine is in its life. -/
inductive Phase where
  | unborn
  | allocated
  | running
  /-- It was shut down, or it could not be initialised. -/
  | dead
  | deleted
  /-- Something was done that must not be done. -/
  | broken

/-- What may be called on an engine, and when. -/
def life : DFA Op Phase where
  step
    | .unborn, .new => .allocated
    | .allocated, .init true => .running
    | .allocated, .init false => .dead
    | .running, .playSound _ | .running, .setVolume _ | .running, .stop => .running
    | .running, .uninit => .dead
    | .dead, .delete => .deleted
    | _, _ => .broken
  start := .unborn
  accept := {.unborn, .deleted}

/-- The engine of the player is one that it has allocated, and the two flags for it
agree. -/
structure Owns (p : Player) : Prop where
  initialized : p.initialized = p.engine.isSome
  lt : ∀ engine, p.engine = some engine → engine < p.allocated

/-- The phase that the player has an engine in. -/
def phase (engine : ℕ) (p : Player) : Phase :=
  if p.engine = some engine then .running
  else if engine < p.allocated then .deleted
  else .unborn

theorem Owns.engine_of_not_initialized {p : Player} (h : Owns p) (hp : ¬ p.initialized = true) :
    p.engine = none := by
  rw [h.initialized] at hp
  simpa using hp

theorem step_owns (p : Player) (call : Call) (h : Owns p) : Owns (machine.step p call).1 := by
  cases call with
  | initializePlayer success =>
      change Owns (p.initializePlayer success).1
      fun_cases initializePlayer success p with
      | case1 => exact h
      | case2 hp =>
          exact ⟨by simpa using hp, nofun⟩
      | case3 => exact ⟨rfl, by rintro _ ⟨⟩; exact Nat.lt_succ_self _⟩
  | shutdown =>
      change Owns p.shutdown.1
      fun_cases shutdown p with
      | case1 => exact h
      | case2 => exact ⟨rfl, nofun⟩
      | case3 _ hnone => exact ⟨by simp [hnone], by simp [hnone]⟩
  | playSound disk plays filepath volume => exact h
  | setMasterVolume volume => exact ⟨h.initialized, h.lt⟩
  | stopAll => exact h

theorem phase_of_engine {p : Player} {engine : ℕ} (h : p.engine = some engine) :
    phase engine p = .running := if_pos h

theorem phase_of_ne {p : Player} {engine h : ℕ} (hp : p.engine = some engine) (hne : engine ≠ h) :
    phase h p = if h < p.allocated then .deleted else .unborn := by
  unfold phase
  rw [if_neg (by simpa [hp] using hne)]

theorem phase_of_none {p : Player} (hp : p.engine = none) (h : ℕ) :
    phase h p = if h < p.allocated then .deleted else .unborn := by
  unfold phase
  rw [if_neg (by simp [hp])]

/-- Anything that an engine can do while it is running keeps it running. -/
theorem evalFrom_running {ops : List Op} (h : ∀ op ∈ ops, life.step .running op = .running) :
    life.evalFrom .running ops = .running := by
  induction ops with
  | nil => rfl
  | cons op ops ih =>
      rw [List.forall_mem_cons] at h
      rw [DFA.evalFrom_cons, h.1]
      exact ih h.2

/-- A step that only uses the engine of the player. -/
theorem evalFrom_use {p p' : Player} (hengine : p'.engine = p.engine)
    (hallocated : p'.allocated = p.allocated) {ops : List (ℕ × Op)}
    (huse : ∀ op ∈ ops, p.engine = some op.1 ∧ life.step .running op.2 = .running) (h : ℕ) :
    life.evalFrom (phase h p) (doneTo h ops) = phase h p' := by
  have hphase : phase h p' = phase h p := by rw [phase, phase, hengine, hallocated]
  rw [hphase]
  by_cases hp : p.engine = some h
  · rw [phase_of_engine hp]
    refine evalFrom_running fun op hop ↦ ?_
    obtain ⟨⟨engine, _⟩, hmem, hsome⟩ := List.mem_filterMap.mp hop
    obtain ⟨-, rfl⟩ : engine = h ∧ _ = op := by simpa using hsome
    exact (huse _ hmem).2
  · have hnil : doneTo h ops = [] := by
      refine List.filterMap_eq_nil_iff.mpr fun op hop ↦ if_neg fun heq ↦ hp ?_
      rw [← heq]
      exact (huse op hop).1
    rw [hnil]
    rfl

theorem playSound_uses (disk : Storage) (plays : Bool) (filepath : Path) (volume : ℤ)
    (p : Player) : ∀ op ∈ (p.playSound disk plays filepath volume).1,
      p.engine = some op.1 ∧ life.step .running op.2 = .running := by
  fun_cases playSound disk plays filepath volume p with
  | case5 | case6 => simp [*, life]
  | _ => exact nofun

theorem stopAll_uses (p : Player) : ∀ op ∈ p.stopAll,
    p.engine = some op.1 ∧ life.step .running op.2 = .running := by
  fun_cases stopAll p with
  | case3 => simp [*, life]
  | _ => exact nofun

theorem lt_succ_iff_of_ne {n h : ℕ} (hne : n ≠ h) : h < n ↔ h < n + 1 := by omega

/-- A step takes every engine from its phase before to its phase after it. -/
theorem step_phase (h : ℕ) (p : Player) (call : Call) (hp : Owns p) :
    life.evalFrom (phase h p) (doneTo h (machine.step p call).2) =
      phase h (machine.step p call).1 := by
  cases call with
  | initializePlayer success =>
      change life.evalFrom _ (doneTo h (p.initializePlayer success).2) =
        phase h (p.initializePlayer success).1
      fun_cases initializePlayer success p with
      | case1 => rfl
      | case2 hinit engine p' =>
          have hbefore := phase_of_none (hp.engine_of_not_initialized hinit) h
          have hafter := phase_of_none (p := { p' with engine := none }) rfl h
          rw [hbefore, hafter]
          by_cases heq : engine = h
          · subst heq
            rw [if_neg (lt_irrefl _), if_pos (Nat.lt_succ_self _)]
            simp [life]
          · rw [doneTo_of_ne heq, doneTo_of_ne heq, doneTo_of_ne heq]
            exact if_congr (lt_succ_iff_of_ne heq) rfl rfl
      | case3 hinit engine p' =>
          have hbefore := phase_of_none (hp.engine_of_not_initialized hinit) h
          rw [hbefore]
          by_cases heq : engine = h
          · subst heq
            rw [if_neg (lt_irrefl _), phase_of_engine rfl]
            simp [life]
          · have hafter := phase_of_ne
              (p := { p' with engine := some engine, initialized := true }) rfl heq
            rw [hafter, doneTo_of_ne heq, doneTo_of_ne heq]
            exact if_congr (lt_succ_iff_of_ne heq) rfl rfl
  | shutdown =>
      change life.evalFrom _ (doneTo h p.shutdown.2) = phase h p.shutdown.1
      fun_cases shutdown p with
      | case1 => rfl
      | case2 _ engine hengine =>
          have hafter :=
            phase_of_none (p := { p with engine := none, initialized := false }) rfl h
          rw [hafter]
          by_cases heq : engine = h
          · subst heq
            rw [phase_of_engine hengine, if_pos (hp.lt engine hengine)]
            simp [life]
          · rw [phase_of_ne hengine heq, doneTo_of_ne heq, doneTo_of_ne heq]
            rfl
      | case3 => rfl
  | playSound disk plays filepath volume =>
      exact evalFrom_use rfl rfl (playSound_uses disk plays filepath volume p) h
  | setMasterVolume volume =>
      refine evalFrom_use rfl rfl (fun op hop ↦ ?_) h
      obtain ⟨engine, hengine, rfl⟩ := List.mem_map.mp hop
      exact ⟨by simpa using hengine, rfl⟩
  | stopAll => exact evalFrom_use rfl rfl p.stopAll_uses h

theorem new_owns : Owns {} := ⟨rfl, nofun⟩

/-- **Every engine lives one life.**  Whatever member functions are called on a player,
in whatever order, and whatever the sound library answers: once the player is
destroyed, every engine that it has allocated was initialised once, was used only
after that had succeeded and before it was shut down, and was deleted once. -/
theorem engines_live_once (calls : List Call) (engine : ℕ) :
    doneTo engine (machine.trace {} (calls ++ [.shutdown])).flatten ∈ life.accepts := by
  have hlife := Machine.evalFrom_trace life step_owns (step_phase engine) new_owns
    (calls ++ [.shutdown])
  rw [DFA.mem_accepts]
  change life.evalFrom (phase engine {}) _ ∈ _
  rw [hlife, Machine.run_concat]
  have howns := Machine.run_preserves step_owns new_owns calls
  generalize machine.run {} calls = p at howns
  have hnone : p.shutdown.1.engine = none := by
    fun_cases shutdown p with
    | case1 hinit => exact howns.engine_of_not_initialized (by simpa using hinit)
    | case2 => rfl
    | case3 _ hnone => exact hnone
  change phase engine p.shutdown.1 ∈ _
  rw [phase_of_none hnone]
  split_ifs
  · exact .inr rfl
  · exact .inl rfl

end Player

/-! ## The audio system -/

/-- `sbot::core::AudioSystem`, with the player in it. -/
structure System where
  whitelist : DirectoryWhitelist
  player : Player

namespace System

/-- The constructor. -/
def new (disk : Storage) (success : Bool) : System where
  whitelist := .new disk
  player := (Player.machine.step {} (.initializePlayer success)).1

/-- `playSound`: what it calls on the player, and what it returns. -/
def playSound (disk : Storage) (plays : Bool) (filepath : Path) (volume : ℤ) (s : System) :
    List Player.Call × Option Bool :=
  match disk.isThere filepath with
  | none => ([], none)
  | some false => ([], some false)
  | some true =>
      if !s.whitelist.isPathAllowed disk (Path.parentPath filepath) then ([], some false)
      else
        let volume := clamp volume
        if !s.player.initialized then ([], some false)
        else
          ([.playSound disk plays filepath volume],
            (s.player.playSound disk plays filepath volume).2)

def setMasterVolume (volume : ℤ) (s : System) : List Player.Call :=
  if s.player.initialized then [.setMasterVolume volume] else []

def getMasterVolume (s : System) : ℤ :=
  if s.player.initialized then s.player.getMasterVolume else 70

def stopAllSounds (s : System) : List Player.Call :=
  if s.player.initialized then [.stopAll] else []

/-- The audio system as the scripts know it, which ask for the file before the player
does. -/
def view (disk : Storage) (plays : Bool) (s : System) : AudioSystem where
  whitelist := s.whitelist
  player :=
    { isInitialized := s.player.initialized
      playSound := fun filepath volume ↦
        (s.player.playSound disk plays filepath volume).2 = some true }

theorem playSound_view (disk : Storage) (plays : Bool) (filepath : Path) (volume : ℤ)
    (s : System) :
    (s.playSound disk plays filepath volume).2 =
      ((s.view disk plays).playSound disk filepath volume).result := by
  unfold playSound AudioSystem.playSound AudioSystem.isPathAllowed
  cases hthere : disk.isThere filepath with
  | none => rfl
  | some there =>
      cases there with
      | false => rfl
      | true =>
          obtain ⟨ok, hok⟩ := Player.playSound_returns hthere plays (clamp volume) s.player
          have hview : (s.view disk plays).player.playSound filepath (clamp volume) = ok := by
            simp [view, hok]
          simp only [hok]
          change _ = PlayEnd.result (if _ then _ else if _ then _ else
            .player ((s.view disk plays).player.playSound filepath (clamp volume)))
          rw [hview]
          split_ifs <;> simp_all [view, PlayEnd.result]

inductive Event where
  | addWhitelistedDirectory (disk : Storage) (directory : Path)
  | playSound (disk : Storage) (plays : Bool) (filepath : Path) (volume : ℤ)
  | setMasterVolume (volume : ℤ)
  | stopAllSounds

/-- What an event calls on the player. -/
def calls (s : System) : Event → List Player.Call
  | .addWhitelistedDirectory _ _ => []
  | .playSound disk plays filepath volume => (s.playSound disk plays filepath volume).1
  | .setMasterVolume volume => s.setMasterVolume volume
  | .stopAllSounds => s.stopAllSounds

/-- The whitelist after an event. -/
def listed (s : System) : Event → DirectoryWhitelist
  | .addWhitelistedDirectory disk directory =>
      s.whitelist.addWhitelistedDirectory disk directory
  | _ => s.whitelist

/-- The audio system, and what it calls on the engines. -/
def machine : Machine System Event (List (ℕ × Op)) where
  step s ev :=
    (⟨s.listed ev, Player.machine.run s.player (s.calls ev)⟩,
      (Player.machine.trace s.player (s.calls ev)).flatten)

/-! ## What is played, and how loud -/

/-- What an event may call on the engine: it plays no file but the one it is asked to,
which exists and lies in a whitelisted directory, and sets no volume above the master
volume or the volume it is asked for. -/
def Careful (s : System) : Event → Op → Prop
  | .playSound disk _ filepath _, .playSound path =>
      path = filepath ∧ disk.isThere path = some true ∧
        s.whitelist.isPathAllowed disk (Path.parentPath path) = true
  | .playSound _ _ _ volume, .setVolume v =>
      v.value ≤ s.player.masterVolume.value ∧ v.value ≤ (volumeToFloat volume).value
  | .setMasterVolume volume, .setVolume v => v = volumeToFloat volume
  | .stopAllSounds, .stop => True
  | _, _ => False

theorem playSound_careful (disk : Storage) (plays : Bool) (filepath : Path) (volume : ℤ)
    (s : System) :
    ∀ op ∈ (Player.machine.trace s.player (s.playSound disk plays filepath volume).1).flatten,
      s.Careful (.playSound disk plays filepath volume) op.2 := by
  fun_cases playSound disk plays filepath volume s with
  | case5 hfound hallowed volume' hinit =>
      simp only [Machine.trace_cons, Machine.trace_nil, List.flatten_cons, List.flatten_nil,
        List.append_nil, Player.machine]
      have hplays : s.Careful (.playSound disk plays filepath volume) (.playSound filepath) :=
        ⟨rfl, hfound, by simpa using hallowed⟩
      have hsets : s.Careful (.playSound disk plays filepath volume)
          (.setVolume ((volumeToFloat (clamp volume')).mul s.player.masterVolume)) := by
        refine ⟨Volume.mul_le_right _ _, ?_⟩
        rw [volumeToFloat_clamp, volumeToFloat_clamp]
        exact Volume.mul_le_left _ _
      fun_cases Player.playSound disk plays filepath volume' s.player with
      | case5 => simpa using hplays
      | case6 => simpa using ⟨hplays, hsets⟩
      | _ => exact nofun
  | _ => exact nofun

/-- **Only sounds are played, and none too loud.**  In every run of the audio system,
from any state: the library is only asked to play files that exist and lie in a
whitelisted directory, when the system is asked for them, and the volume that is set
is a `float` between 0 and the master volume, at most the volume asked for. -/
theorem along_careful (s : System) (es : List Event) :
    machine.Along (fun s ev ↦ ∀ op ∈ (machine.step s ev).2, s.Careful ev op.2) s es := by
  refine Machine.along_of_step (fun s ev ↦ ?_) s es
  cases ev with
  | addWhitelistedDirectory disk directory => exact nofun
  | playSound disk plays filepath volume => exact s.playSound_careful disk plays filepath volume
  | setMasterVolume volume =>
      change ∀ op ∈ (Player.machine.trace s.player (s.setMasterVolume volume)).flatten, _
      unfold setMasterVolume
      split_ifs
      · intro op hop
        obtain ⟨engine, -, rfl⟩ : ∃ engine ∈ s.player.engine.toList,
            (engine, Op.setVolume (volumeToFloat (clamp volume))) = op := by
          simpa [Player.machine, Player.setMasterVolume] using hop
        exact volumeToFloat_clamp volume
      · exact nofun
  | stopAllSounds =>
      change ∀ op ∈ (Player.machine.trace s.player s.stopAllSounds).flatten, _
      unfold stopAllSounds
      split_ifs
      · simp only [Machine.trace_cons, Machine.trace_nil, List.flatten_cons, List.flatten_nil,
          List.append_nil, Player.machine]
        fun_cases Player.stopAll s.player with
        | case3 => simp [Careful]
        | _ => exact nofun
      · exact nofun

/-! ## The master volume -/

/-- The volume that an event sets. -/
def volumeSet : Event → Option ℤ
  | .setMasterVolume volume => some volume
  | _ => none

/-- The volume that was set last, 70 at the start. -/
def lastVolume (es : List Event) : ℤ := (es.filterMap volumeSet).getLastD 70

/-- The player is initialised, and its volume is the one that was asked for. -/
structure Plays (volume : ℤ) (s : System) : Prop where
  initialized : s.player.initialized = true
  masterVolume : s.player.masterVolume = volumeToFloat volume

theorem step_plays {volume : ℤ} {s : System} (h : Plays volume s) (ev : Event) :
    Plays ((volumeSet ev).getD volume) (machine.step s ev).1 := by
  cases ev with
  | addWhitelistedDirectory disk directory => exact ⟨h.initialized, h.masterVolume⟩
  | playSound disk plays filepath volume' =>
      suffices hsame : (machine.step s (.playSound disk plays filepath volume')).1.player =
          s.player from ⟨hsame ▸ h.initialized, hsame ▸ h.masterVolume⟩
      change Player.machine.run s.player (s.playSound disk plays filepath volume').1 = _
      fun_cases playSound disk plays filepath volume' s <;> rfl
  | setMasterVolume volume' =>
      have hcalls : s.calls (.setMasterVolume volume') = [.setMasterVolume volume'] :=
        if_pos h.initialized
      simp only [machine, hcalls]
      exact ⟨h.initialized, volumeToFloat_clamp volume'⟩
  | stopAllSounds =>
      have hcalls : s.calls .stopAllSounds = [.stopAll] := if_pos h.initialized
      simp only [machine, hcalls]
      exact ⟨h.initialized, h.masterVolume⟩

theorem plays_run (disk : Storage) (es : List Event) :
    Plays (lastVolume es) (machine.run (new disk true) es) := by
  induction es using List.reverseRecOn with
  | nil => exact ⟨rfl, rfl⟩
  | append_singleton es ev ih =>
      rw [Machine.run_concat]
      have hlast : lastVolume (es ++ [ev]) = (volumeSet ev).getD (lastVolume es) := by
        unfold lastVolume
        cases hset : volumeSet ev <;> simp [hset]
      rw [hlast]
      exact step_plays ih ev

/-- A player that could not be initialised stays as it is. -/
theorem step_silent (s : System) (ev : Event) (h : s.player.initialized = false) :
    (machine.step s ev).1.player.initialized = false := by
  have hcalls : s.calls ev = [] := by
    cases ev with
    | addWhitelistedDirectory disk directory => rfl
    | playSound disk plays filepath volume =>
        change (s.playSound disk plays filepath volume).1 = []
        fun_cases playSound disk plays filepath volume s with
        | case5 _ _ _ hinit => simp [h] at hinit
        | _ => rfl
    | setMasterVolume volume => exact if_neg (by simp [h])
    | stopAllSounds => exact if_neg (by simp [h])
  simp only [machine, hcalls]
  exact h

/-- **The master volume is what was set last, almost.**  In every run of the audio
system: `getMasterVolume` returns the volume that was set last, between 0 and 100, or
70 if none was set, except that it returns 52 for 53 and 58 for 59.  If the player
could not be initialised it returns 70 all the time. -/
theorem getMasterVolume_run (disk : Storage) (success : Bool) (es : List Event) :
    (machine.run (new disk success) es).getMasterVolume =
      if success then shown (clamp (lastVolume es)) else 70 := by
  cases success with
  | false =>
      have hsilent : (machine.run (new disk false) es).player.initialized = false :=
        Machine.run_preserves (I := fun s : System ↦ s.player.initialized = false) step_silent
          rfl es
      simp [getMasterVolume, hsilent]
  | true =>
      have hplays := plays_run disk es
      unfold getMasterVolume
      rw [if_pos hplays.initialized, if_pos rfl, Player.getMasterVolume, hplays.masterVolume,
        floatToVolume_volumeToFloat]

end System

end Seraphbot.Miniaudio
