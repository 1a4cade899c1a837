import Seraphbot.App.Bot

/-!
# What a reload does to the parser

`!reload` rebuilds the table of files, but the parser has a table of its own,
which is written by registrations only: no entry is ever taken out of it, and
the entries of the native commands are entries like any other.  Two properties
one would expect of a reload therefore hold under conditions, which this file
determines exactly.

* After a reload the parser dispatches exactly the Lua commands that are loaded
  (`Agrees`) when no name of the parser has gone stale, and every name that is
  loaded has a function to register.
* The native commands survive a run (`Intact`) when no reload of the run finds
  their names taken by a script.

Both rest on `find_reload`: a reload changes what a chat name is dispatched to
exactly when it `Registers` a Lua handler for it.
-/

namespace Seraphbot.Bot

open LuaCommandEngine

variable (sol : Sol)

/-- The chat name `c` is dispatched to the handler of a Lua command. -/
def DispatchesLua (p : CommandParser Handler) (c : Bytes) : Prop :=
  ∃ execute commandName, p.find c = some (.lua execute commandName)

/-- The files that own a key ask for a non-empty key equal to `c` up to case. -/
def AskedFor (b : Bot) (c : Bytes) : Prop :=
  ∃ k path, k ≠ [] ∧ lower k = lower c ∧ b.engine.commandFiles.Owns path ∧
    k ∈ namesOf sol b.fs path

/-- A reload registers a Lua handler for `c`: among the keys equal to `c` up to
case there is one whose last visited claimant has a function to register. -/
def Registers (env : ChatEnv) (b : Bot) (c : Bytes) : Prop :=
  ∃ k path, k ≠ [] ∧ lower k = lower c ∧
    ownerIn sol b.fs (visited env.reloadOrder b.engine) k = some path ∧
    (executeOf sol b.fs path).isSome = true

variable {sol}

/-- What a reload registers is something that was asked for. -/
theorem Registers.askedFor {env : ChatEnv} {b : Bot} {c : Bytes} (h : Registers sol env b c) :
    AskedFor sol b c := by
  obtain ⟨k, path, hk, hc, hown, -⟩ := h
  exact ⟨k, path, hk, hc, mem_visited.mp (latest_mem hown), by simpa using latest_sat hown⟩

/-- After a reload, the keys equal to `c` up to case are those asked for. -/
theorem exists_key_reload_iff {env : ChatEnv} {b : Bot} (hb : b.engine.initialized = true)
    {c : Bytes} :
    (∃ k ∈ (b.reload sol env).1.engine.commandFiles, k ≠ [] ∧ lower k = lower c) ↔
      AskedFor sol b c := by
  constructor
  · rintro ⟨k, hmem, hk, hc⟩
    obtain ⟨path, hown, hn⟩ := (mem_commandFiles_reload sol b.fs hb env.reloadOrder k).mp hmem
    exact ⟨k, path, hk, hc, hown, hn⟩
  · rintro ⟨k, path, hk, hc, hown, hn⟩
    exact ⟨k, (mem_commandFiles_reload sol b.fs hb env.reloadOrder k).mpr ⟨path, hown, hn⟩, hk, hc⟩

/-- A reload gives `c` a Lua handler if it registers one, and otherwise leaves
`c` to whatever it was dispatched to. -/
theorem find_reload (env : ChatEnv) {b : Bot} (hb : b.engine.initialized = true) (c : Bytes) :
    (Registers sol env b c → DispatchesLua (b.reload sol env).1.parser c) ∧
    (¬ Registers sol env b c → (b.reload sol env).1.parser.find c = b.parser.find c) := by
  have hfind := parser_find_reload sol env hb c
  -- the entries of the rebuilt table, read off the state before the reload
  have hentry : ∀ entry : Sigma fun _ : Bytes ↦ Path,
      entry ∈ env.registerOrder.order
          (b.reload sol env).1.engine.commandFiles ↔
        ownerIn sol b.fs (visited env.reloadOrder b.engine) entry.1 = some entry.2 := by
    intro entry
    rw [← lookup_commandFiles_reload sol b.fs hb]
    exact env.registerOrder.mem_order_iff
  constructor
  · rintro ⟨k, path, hk, hc, hown, hx⟩
    obtain ⟨entry, hlast⟩ := exists_latest (p := registers sol b.fs c)
      ((hentry ⟨k, path⟩).mpr hown) (by simp [registers, hk, hc, hx])
    have hsat := latest_sat hlast
    simp only [registers, Bool.and_eq_true] at hsat
    obtain ⟨proto, hproto⟩ := Option.isSome_iff_exists.mp hsat.2
    refine ⟨⟨entry.2, proto⟩, entry.1, ?_⟩
    rw [hfind, hlast]
    simp [handlerOf, hproto]
  · intro hno
    have hnone : latest (registers sol b.fs c) (env.registerOrder.order
        (b.reload sol env).1.engine.commandFiles) = none := by
      cases hlast : latest (registers sol b.fs c) (env.registerOrder.order
          (b.reload sol env).1.engine.commandFiles) with
      | none => rfl
      | some entry =>
          have hsat := latest_sat hlast
          simp only [registers, Bool.and_eq_true, decide_eq_true_eq] at hsat
          exact absurd ⟨entry.1, entry.2, hsat.1.1, hsat.1.2,
            (hentry entry).mp (latest_mem hlast), hsat.2⟩ hno
    rw [hfind, hnone]
    rfl

/-- After a reload `c` is dispatched to a Lua handler exactly when the reload
registers one or there was one before. -/
theorem dispatchesLua_reload_iff {env : ChatEnv} {b : Bot} (hb : b.engine.initialized = true)
    (c : Bytes) : DispatchesLua (b.reload sol env).1.parser c ↔
      Registers sol env b c ∨ DispatchesLua b.parser c := by
  by_cases hr : Registers sol env b c
  · exact ⟨fun _ ↦ .inl hr, fun _ ↦ (find_reload env hb c).1 hr⟩
  · unfold DispatchesLua
    rw [(find_reload env hb c).2 hr]
    simp [hr]

/-! ## The parser and the table of files -/

/-- The parser dispatches exactly the loaded Lua commands: a name that is not
native has a Lua handler exactly when it equals a non-empty key up to case. -/
def Agrees (b : Bot) : Prop :=
  ∀ c, isNative c = false →
    (DispatchesLua b.parser c ↔ ∃ k ∈ b.engine.commandFiles, k ≠ [] ∧ lower k = lower c)

variable (sol)

/-- Before a reload: every Lua name of the parser is still asked for, and every
name that is asked for either has a Lua handler already or gets one. -/
structure Current (env : ChatEnv) (b : Bot) : Prop where
  notStale : ∀ c, isNative c = false → DispatchesLua b.parser c → AskedFor sol b c
  callable : ∀ c, isNative c = false → AskedFor sol b c →
    Registers sol env b c ∨ DispatchesLua b.parser c

/-- **When a reload leaves the parser in agreement with the table.**  In every
state that any messages and edits lead to, the native reload handler makes the
parser dispatch exactly the loaded commands if and only if the names of the
parser were `Current`. -/
theorem agrees_reload_iff (fs : FileSystem) (listing : Option (List DirectoryEntry))
    (t : Traversal Bytes Path) (es : List Event) (env : ChatEnv) :
    Agrees (((machine sol).run (boot sol fs listing t) es).reload sol env).1 ↔
      Current sol env ((machine sol).run (boot sol fs listing t) es) := by
  have hb := run_initialized sol (boot_initialized sol fs listing t) es
  unfold Agrees
  simp only [exists_key_reload_iff hb, dispatchesLua_reload_iff hb]
  constructor
  · intro h
    exact ⟨fun c hc hd ↦ (h c hc).mp (.inr hd), fun c hc ha ↦ (h c hc).mpr ha⟩
  · intro h c hc
    constructor
    · rintro (hr | hd)
      · exact hr.askedFor
      · exact h.notStale c hc hd
    · exact h.callable c hc

/-- `hello.lua` is deleted and the commands are reloaded: nothing is loaded any
more, but `hello` is still dispatched to its script. -/
theorem not_agrees_deleted :
    ¬ Agrees (((machine Sol.checked).run (bootOne helloLua) [.edit fun _ ↦ none]).reload
      Sol.checked ⟨0, 0, {}, .stored, .stored⟩).1 := by
  intro h
  obtain ⟨k, hk, -⟩ := (h (bytes "hello") (by decide)).mp ⟨⟨bytes "commands/a.lua", 0⟩, bytes "hello",
    by decide⟩
  revert hk
  change ¬ k ∈ (∅ : UnorderedMap Bytes Path)
  exact AList.notMem_empty k

/-! ## The native commands -/

/-- The two native names are dispatched to the native handlers. -/
def Intact (b : Bot) : Prop :=
  ∀ c, (lower c = bytes "reload" → b.parser.find c = some .reload) ∧
    (lower c = bytes "commands" → b.parser.find c = some .commands)

/-- An event that leaves the native commands alone: it is not a reload that
registers a script under one of their names. -/
def SparesNatives (b : Bot) : Event → Prop
  | .chat message env =>
      ∀ ctx, b.dispatch message = some (.reload, ctx) →
        ∀ c, isNative c = true → ¬ Registers sol env b c
  | _ => True

theorem intact_boot (fs : FileSystem) (listing : Option (List DirectoryEntry))
    (t : Traversal Bytes Path) : Intact (boot sol fs listing t) := by
  have hne : bytes "reload" ≠ bytes "commands" := by decide
  intro c
  constructor
  · intro hc
    rw [find_boot, hc, if_neg hne, if_pos rfl]
  · intro hc
    rw [find_boot, hc, if_pos rfl]

/-- A reload keeps the native commands exactly when it registers no script under
their names. -/
theorem intact_reload_iff (env : ChatEnv) {b : Bot} (hb : b.engine.initialized = true)
    (hi : Intact b) : Intact (b.reload sol env).1 ↔
      ∀ c, isNative c = true → ¬ Registers sol env b c := by
  constructor
  · intro h c hc hr
    obtain ⟨execute, commandName, hf⟩ := (find_reload env hb c).1 hr
    simp only [isNative, Bool.or_eq_true, decide_eq_true_eq] at hc
    rcases hc with hc | hc
    · rw [(h c).1 hc] at hf
      cases hf
    · rw [(h c).2 hc] at hf
      cases hf
  · intro h c
    constructor
    · intro hc
      rw [(find_reload env hb c).2 (h c (by simp [isNative, hc]))]
      exact (hi c).1 hc
    · intro hc
      rw [(find_reload env hb c).2 (h c (by simp [isNative, hc]))]
      exact (hi c).2 hc

/-- One event keeps the native commands exactly when it spares them. -/
theorem step_intact_iff (b : Bot) (ev : Event) (hb : b.engine.initialized = true)
    (hi : Intact b) : Intact ((machine sol).step b ev).1 ↔ SparesNatives sol b ev := by
  have hdoes := step_does sol b ev
  generalize ((machine sol).step b ev).1 = b', ((machine sol).step b ev).2.mark = mark at hdoes ⊢
  cases hdoes with
  | call hd => exact iff_of_true hi (by simp [SparesNatives, hd])
  | @reload message env ctx hd =>
      refine (intact_reload_iff sol env hb hi).trans ⟨fun h _ _ ↦ h, fun h ↦ h ctx hd⟩
  | other hd => exact iff_of_true hi fun ctx h ↦ absurd h (hd ctx)
  | edit | resetStreamCounters => exact iff_of_true hi trivial

/-- **When the native commands cannot be displaced.**  Whatever the command
files, the native commands are dispatched natively in every state of a run if
and only if every event of the run spares them. -/
theorem visits_intact_iff (fs : FileSystem) (listing : Option (List DirectoryEntry))
    (t : Traversal Bytes Path) (es : List Event) :
    (machine sol).Visits Intact (boot sol fs listing t) es ↔
      (machine sol).Along (SparesNatives sol) (boot sol fs listing t) es :=
  Machine.visits_iff_along (step_initialized sol) (step_intact_iff sol)
    (boot_initialized sol fs listing t) (intact_boot sol fs listing t)

/-- A script that calls its command `commands`. -/
def commandsLua : Script :=
  .returned (.table
    [(bytes "name", .string (bytes "commands")), (bytes "execute", .function 0)] [])

/-- The script is loaded at the start, where the native command wins; one
`!reload` later the script has taken the name. -/
theorem not_intact_commandsLua :
    ¬ (machine Sol.checked).Visits Intact (bootOne commandsLua)
      [.chat (aliceSays "!reload") ⟨0, 0, {}, .stored, .stored⟩] := by
  rintro ⟨-, h⟩
  have hfind := (h (bytes "commands")).2 (by decide)
  revert hfind
  decide

end Seraphbot.Bot
