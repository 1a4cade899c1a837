import Seraphbot.Core.Text
import Seraphbot.Data.Latest
import Seraphbot.Data.Machine

/-!
# Log contexts

The model of the contexts in `core/logging.cpp`: one stack of names for the whole
program, onto which a `LogContext` pushes its name when it is constructed, and
from which it pops when it is destroyed.

Threads and coroutines share the stack, and a scope of a coroutine stays open
while the coroutine is suspended.  Each of them, a *task*, closes its own scopes
in the opposite order of opening them, but the scopes of two tasks may overlap in
any way.  A pop takes what is on top, so it takes the entry of another scope
whenever the scopes do not nest: `ownEntries_iff_lifo`.

The stack of the source holds strings.  Here it is polymorphic in its entries, so
that an entry can remember the scope it belongs to; `log` is about strings, and
`names_step` says that nothing but the names matters to the logger.
-/

universe u v

namespace Seraphbot

/-! ## The logger -/

/-- `sbot::core::LogLevel`, in the order of severity. -/
inductive LogLevel where
  | trace
  | debug
  | info
  | warn
  | error
  | critical
  | off
deriving DecidableEq

def LogLevel.toNat : LogLevel → Nat
  | .trace => 0
  | .debug => 1
  | .info => 2
  | .warn => 3
  | .error => 4
  | .critical => 5
  | .off => 6

/-- `sbot::core::Logger`, with entries `α` on its stack, the top at the end. -/
structure Logger (α : Type u) where
  contextStack : List α := []
  currentLevel : LogLevel := .info
  /-- Has `setupSinks` been called? -/
  hasLogger : Bool := false

namespace Logger

variable {α : Type u}

def pushContext (context : α) (l : Logger α) : Logger α :=
  { l with contextStack := l.contextStack ++ [context] }

def popContext (l : Logger α) : Logger α :=
  if l.contextStack ≠ [] then { l with contextStack := l.contextStack.dropLast } else l

/-- The logger with other entries in place of its own. -/
def map {β : Type v} (f : α → β) (l : Logger α) : Logger β :=
  { l with contextStack := l.contextStack.map f }

theorem map_pushContext {β : Type v} (f : α → β) (context : α) (l : Logger α) :
    (l.pushContext context).map f = (l.map f).pushContext (f context) := by
  simp [map, pushContext]

theorem map_popContext {β : Type v} (f : α → β) (l : Logger α) :
    l.popContext.map f = (l.map f).popContext := by
  by_cases h : l.contextStack = [] <;> simp [map, popContext, h]

/-- The text that is handed to the sinks, if there is one: the contexts, and the
message. -/
def log (level : LogLevel) (message : Bytes) (l : Logger Bytes) : Option Bytes :=
  if !l.hasLogger || level.toNat < l.currentLevel.toNat then none
  else if l.contextStack ≠ [] then
    some (bytes "[" ++ (bytes "::").intercalate l.contextStack ++ bytes "] " ++ message)
  else some message

end Logger

/-! ## Scopes of several tasks -/

/-- A `LogContext` that is alive.  The number tells it from all others. -/
structure Scope (T : Type u) where
  id : Nat
  task : T
  name : Bytes
deriving DecidableEq

/-- The logger and the scopes that are open, in the order of opening. -/
structure Scopes (T : Type u) where
  logger : Logger (Scope T) := {}
  live : List (Scope T) := []
  next : Nat := 0

/-- A task opens a scope, or closes the innermost one it has. -/
inductive ScopeEvent (T : Type u) where
  | enter (task : T) (name : Bytes)
  | leave (task : T)

/-- The scope that was closed by a step, and the entry that was taken from the
stack. -/
structure Closed (T : Type u) where
  scope : Option (Scope T) := none
  entry : Option (Scope T) := none
deriving DecidableEq

namespace Scopes

variable {T : Type u}

/-- The names on the stack are the names of the open scopes. -/
def NamesAgree (s : Scopes T) : Prop :=
  (s.logger.contextStack.map Scope.name).Perm (s.live.map Scope.name)

/-- The stack consists of the entries of the open scopes, in the order of
opening. -/
def Aligned (s : Scopes T) : Prop := s.logger.contextStack = s.live

theorem Aligned.namesAgree {s : Scopes T} (h : s.Aligned) : s.NamesAgree := by
  unfold NamesAgree
  rw [h]

variable [DecidableEq T]

/-- The innermost open scope of a task. -/
def innermost (t : T) (s : Scopes T) : Option (Scope T) := latest (fun c ↦ c.task = t) s.live

/-- `LogContext::LogContext`. -/
def enter (t : T) (name : Bytes) (s : Scopes T) : Scopes T :=
  { logger := s.logger.pushContext ⟨s.next, t, name⟩
    live := s.live ++ [⟨s.next, t, name⟩]
    next := s.next + 1 }

/-- `LogContext::~LogContext`, of the innermost scope of a task. -/
def leave (t : T) (s : Scopes T) : Scopes T × Closed T :=
  match s.innermost t with
  | none => (s, {})
  | some scope =>
      ({ s with
          logger := s.logger.popContext
          live := (s.live.reverse.eraseP fun c ↦ c.task = t).reverse },
        ⟨some scope, s.logger.contextStack.getLast?⟩)

/-- The scopes of all tasks, in any interleaving. -/
def machine (T : Type u) [DecidableEq T] : Machine (Scopes T) (ScopeEvent T) (Closed T) where
  step s
    | .enter t name => (s.enter t name, {})
    | .leave t => s.leave t

/-- A scope is only closed when it is the most recently opened of all open
scopes. -/
def Lifo (s : Scopes T) : ScopeEvent T → Prop
  | .enter _ _ => True
  | .leave t => ∀ c, s.innermost t = some c → s.live.getLast? = some c

/-! ## One step -/

/-- To the logger of the source, which knows names only, a step is a push, a pop,
or nothing. -/
theorem names_step (s : Scopes T) (ev : ScopeEvent T) :
    ((machine T).step s ev).1.logger.map Scope.name =
      match ev with
      | .enter _ name => (s.logger.map Scope.name).pushContext name
      | .leave t =>
          if (s.innermost t).isSome then (s.logger.map Scope.name).popContext
          else s.logger.map Scope.name := by
  cases ev with
  | enter t name => exact Logger.map_pushContext _ _ _
  | leave t =>
      change (s.leave t).1.logger.map Scope.name = _
      cases hc : s.innermost t with
      | none => simp [leave, hc]
      | some c => simpa [leave, hc] using Logger.map_popContext _ _

/-- The entry that a step takes away is that of the scope it closes exactly if
the scope was opened last. -/
theorem Aligned.own_iff {s : Scopes T} (h : s.Aligned) (ev : ScopeEvent T) :
    ((machine T).step s ev).2.entry = ((machine T).step s ev).2.scope ↔ Lifo s ev := by
  cases ev with
  | enter t name => simp [machine, Lifo]
  | leave t =>
      change (s.leave t).2.entry = (s.leave t).2.scope ↔ _
      cases hc : s.innermost t with
      | none => simp [leave, Lifo, hc]
      | some c =>
          have hstack : s.logger.contextStack = s.live := h
          simp [leave, Lifo, hc, hstack]

theorem Aligned.step {s : Scopes T} (h : s.Aligned) {ev : ScopeEvent T} (hlifo : Lifo s ev) :
    ((machine T).step s ev).1.Aligned := by
  have hstack : s.logger.contextStack = s.live := h
  cases ev with
  | enter t name =>
      change s.logger.contextStack ++ _ = s.live ++ _
      rw [hstack]
  | leave t =>
      change (s.leave t).1.Aligned
      cases hc : s.innermost t with
      | none => simpa [leave, hc] using h
      | some c =>
          obtain ⟨rest, hlive⟩ := List.getLast?_eq_some_iff.mp (hlifo c hc)
          have hsat : decide (c.task = t) = true :=
            latest_sat (p := fun c : Scope T ↦ decide (c.task = t)) hc
          have htask : c.task = t := by simpa using hsat
          simp [leave, hc, Aligned, Logger.popContext, hstack, hlive, htask]

/-! ## Runs -/

theorem Aligned.run_iff {s : Scopes T} (h : s.Aligned) (es : List (ScopeEvent T)) :
    ((machine T).Visits NamesAgree s es ∧
        ∀ out ∈ (machine T).trace s es, out.entry = out.scope) ↔
      (machine T).Along Lifo s es := by
  induction es generalizing s with
  | nil => simpa using h.namesAgree
  | cons ev es ih =>
      rw [Machine.visits_cons, Machine.trace_cons, List.forall_mem_cons, Machine.along_cons,
        h.own_iff ev]
      constructor
      · rintro ⟨⟨-, hvisits⟩, hlifo, hown⟩
        exact ⟨hlifo, (ih (h.step hlifo)).mp ⟨hvisits, hown⟩⟩
      · rintro ⟨hlifo, halong⟩
        obtain ⟨hvisits, hown⟩ := (ih (h.step hlifo)).mpr halong
        exact ⟨⟨h.namesAgree, hvisits⟩, hlifo, hown⟩

/-- **Whose entries are on the stack.**  For any interleaving of tasks that open
and close scopes: the names on the stack are those of the open scopes in every
state, and every scope that is closed takes its own entry away, if and only if
every scope is closed while it is the most recently opened one of all tasks. -/
theorem ownEntries_iff_lifo (es : List (ScopeEvent T)) :
    ((machine T).Visits NamesAgree {} es ∧
        ∀ out ∈ (machine T).trace {} es, out.entry = out.scope) ↔
      (machine T).Along Lifo {} es :=
  Aligned.run_iff (show Aligned {} from rfl) es

/-- A login that is suspended while the user interface opens a scope. -/
def overlapping : List (ScopeEvent Bool) :=
  [.enter true (bytes "Twitch Auth"), .enter false (bytes "ImGuiManager"), .leave true]

/-- The login closes its scope and takes the entry of the user interface away, so
that its own name stays behind: what the user interface logs next is said to come
from the login. -/
theorem not_ownEntries_overlapping :
    ¬ ((machine Bool).Visits NamesAgree {} overlapping ∧
        ∀ out ∈ (machine Bool).trace {} overlapping, out.entry = out.scope) ∧
    ((machine Bool).run {} overlapping).live.map Scope.name = [bytes "ImGuiManager"] ∧
    Logger.log .info (bytes "Initialized")
        { contextStack :=
            ((machine Bool).run {} overlapping).logger.contextStack.map Scope.name
          hasLogger := true } =
      some (bytes "[Twitch Auth] Initialized") := by
  refine ⟨?_, by decide, by decide⟩
  rintro ⟨-, hown⟩
  exact absurd (hown ⟨some ⟨0, true, bytes "Twitch Auth"⟩, some ⟨1, false, bytes "ImGuiManager"⟩⟩
    (by decide)) (by decide)

end Scopes

end Seraphbot
