import Seraphbot.Core.CommandParser

/-!
# Dispatch is exact

Registration and lookup lower their names in two separate places, and the table
in between forgets every registration but the latest.  This file says what the
two paths amount to together: `target regs message` is the handler and the
context that the history `regs` of registrations assigns to a message, and
`parseAndExecute` calls that and nothing else.

Calls are observed by `logging`, which writes down every call of a handler
before it is made, and the state the handlers act on is arbitrary, so a change
to it can only come from the one handler that is called.
-/

universe u v

namespace Seraphbot.CommandParser

variable {H : Type u} {σ : Type v}

/-! ## The history of registrations -/

/-- Is this a registration that is not refused, under a name that equals
`command` up to case? -/
def accepts (command : Bytes) (r : Bytes × Option H) : Bool :=
  r.1 ≠ [] && r.2.isSome && lower r.1 = lower command

/-- The table remembers the latest accepted registration of each name. -/
theorem find_registerAll (regs : List (Bytes × Option H)) (command : Bytes) :
    (registerAll regs).find command = (latest (accepts command) regs).bind Prod.snd := by
  induction regs using List.reverseRecOn with
  | nil => rfl
  | append_singleton regs r ih =>
      obtain ⟨name, handler⟩ := r
      rw [latest_concat]
      simp only [registerAll, List.foldl_append, List.foldl_cons, List.foldl_nil]
      rw [find_registerCommand]
      change (if _ then handler.or ((registerAll regs).find command)
        else (registerAll regs).find command) = _
      rw [ih]
      cases handler with
      | none => simp [accepts]
      | some h =>
          by_cases hn : name = []
          · simp [accepts, hn]
          · by_cases hc : lower name = lower command <;> simp [accepts, hn, hc]

@[simp] theorem registerAll_mPrefix (regs : List (Bytes × Option H)) :
    (registerAll regs).mPrefix = bytes "!" := by
  induction regs using List.reverseRecOn with
  | nil => rfl
  | append_singleton regs r ih =>
      simpa [registerAll, List.foldl_append] using ih

/-! ## The call a message asks for -/

/-- The handler that the registrations `regs` assign to a message, with the
context it is called with: the text starts with `!`, the rest has a first
token, and the latest accepted registration under that token, up to case, has
the handler. -/
def target (regs : List (Bytes × Option H)) (message : ChatMessage) :
    Option (H × CommandContext) :=
  match message.text with
  | [] => none
  | c :: rest =>
      if c = byte '!' then
        match tokenize rest with
        | [] => none
        | command :: args =>
            ((latest (accepts command) regs).bind Prod.snd).map
              fun h ↦ (h, ⟨message, command, args⟩)
      else none

/-- Call a handler, and write the call down first. -/
def logging (invoke : H → CommandContext → σ → Outcome × σ) (h : H) (ctx : CommandContext)
    (s : List (H × CommandContext) × σ) : Outcome × List (H × CommandContext) × σ :=
  ((invoke h ctx s.2).1, s.1 ++ [(h, ctx)], (invoke h ctx s.2).2)

/-- One call at most: either nothing is dispatched, or the handler found under
the first token is called with the message, that token and the other ones. -/
theorem parseAndExecute_eq (parser : σ → CommandParser H)
    (invoke : H → CommandContext → σ → Outcome × σ) (message : ChatMessage) (s : σ) :
    parseAndExecute parser invoke message s =
      match (parser s).parseCommand message.text with
      | (command, args) =>
          match if command = [] then none else (parser s).find command with
          | none => (some false, s)
          | some h =>
              (Outcome.result (invoke h ⟨message, command, args⟩ s).1,
                (invoke h ⟨message, command, args⟩ s).2) := by
  unfold parseAndExecute find
  by_cases hcmd : (parser s).isCommand message.text
  · simp only [hcmd, if_true]
    obtain ⟨command, args⟩ := (parser s).parseCommand message.text
    by_cases hnil : command = []
    · simp [hnil]
    · simp only [hnil, if_false]
      cases (parser s).commands.lookup (lower command) with
      | none => rfl
      | some h =>
          cases hi : invoke h ⟨message, command, args⟩ s with
          | mk o s' => cases o <;> simp [hi, Outcome.result]
  · simp [parseCommand, hcmd]

/-- Parsing a text with the prefix `!`, by cases on its first character. -/
theorem parseCommand_cons (p : CommandParser H) (hp : p.mPrefix = bytes "!") (c : UInt8)
    (rest : Bytes) : p.parseCommand (c :: rest) =
      if c = byte '!' then
        match tokenize rest with
        | [] => ([], [])
        | command :: args => (command, args)
      else ([], []) := by
  have hbang : bytes "!" = [byte '!'] := rfl
  by_cases hc : c = byte '!'
  · simp only [parseCommand, isCommand, hp, hbang, hc]
    cases htok : tokenize rest <;> simp [htok]
  · simp [parseCommand, isCommand, hp, hbang, hc, Ne.symm hc]

/-- **Dispatch is exact.**  After any sequence of registrations, a message makes
exactly the call that `target` names, once, and returns how it ended; a message
without a target makes no call, changes nothing and returns `false`.  The state
`(parser, t)` is handed to the handler as it is, so the registered commands are
never changed by the parser itself. -/
theorem parseAndExecute_registerAll {τ : Type v} (regs : List (Bytes × Option H))
    (invoke : H → CommandContext → CommandParser H × τ → Outcome × CommandParser H × τ)
    (message : ChatMessage) (t : τ) :
    parseAndExecute (fun s ↦ s.2.1) (logging invoke) message ([], registerAll regs, t) =
      match target regs message with
      | some (h, ctx) =>
          (Outcome.result (invoke h ctx (registerAll regs, t)).1, [(h, ctx)],
            (invoke h ctx (registerAll regs, t)).2)
      | none => (some false, [], registerAll regs, t) := by
  rw [parseAndExecute_eq]
  unfold target
  cases htext : message.text with
  | nil => simp [parseCommand, isCommand]
  | cons c rest =>
      dsimp only
      rw [parseCommand_cons _ (registerAll_mPrefix regs)]
      by_cases hc : c = byte '!'
      · rw [if_pos hc, if_pos hc]
        cases htok : tokenize rest with
        | nil => simp
        | cons command args =>
            dsimp only
            rw [find_registerAll]
            by_cases hnil : command = []
            · -- an empty token matches no accepted registration
              have hnone : latest (accepts command) regs = none := by
                rw [latest_eq_none]
                intro r _
                by_cases hr : r.1 = [] <;> simp [accepts, hnil, hr]
              simp [hnil, hnil ▸ hnone]
            · rw [if_neg hnil]
              cases (latest (accepts command) regs).bind Prod.snd with
              | none => rfl
              | some h => simp [logging]
      · simp [hc]

end Seraphbot.CommandParser
