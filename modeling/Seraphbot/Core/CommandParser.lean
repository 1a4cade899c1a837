import Seraphbot.Core.Text
import Seraphbot.Data.UnorderedMap

/-!
# The command parser

The model of `core/command_parser.cpp`: registration of handlers under lowered
names, the quoting tokenizer, and the dispatch of a chat message to at most one
handler.

The parser is generic in its handlers.  What calling a handler does is a
parameter `invoke` of `parseAndExecute`, acting on a state `σ` of which the
parser is a part: a handler may well register commands itself.
-/

universe u v

namespace Seraphbot

/-- `sbot::core::ChatMessage`. -/
structure ChatMessage where
  user : Bytes
  text : Bytes
  color : Bytes
  badges : List Bytes
deriving DecidableEq

/-- `sbot::core::CommandContext`, without the reply function, which every caller
passes through unchanged: what a handler replies is part of its effect. -/
structure CommandContext where
  message : ChatMessage
  command : Bytes
  args : List Bytes
deriving DecidableEq

/-- How a call of a handler ends. -/
inductive Outcome where
  | returned
  /-- It throws something derived from `std::exception`. -/
  | stdException
  /-- It throws anything else. -/
  | otherException
deriving DecidableEq

/-- What a caller of `parseAndExecute` gets to see of that. -/
def Outcome.result : Outcome → Option Bool
  | .returned => some true
  | .stdException => some false
  | .otherException => none

/-- `sbot::core::CommandParser` over handlers `H`. -/
structure CommandParser (H : Type u) where
  mPrefix : Bytes
  commands : UnorderedMap Bytes H

namespace CommandParser

/-! ## The tokenizer -/

/-- The variables of the loop of `tokenize`. -/
structure Scan where
  tokens : List Bytes := []
  currentToken : Bytes := []
  inQuotes : Bool := false
  escapeNext : Bool := false
deriving DecidableEq

/-- One round of the loop of `tokenize`. -/
def Scan.feed (s : Scan) (c : UInt8) : Scan :=
  if s.escapeNext then
    { s with currentToken := s.currentToken ++ [c], escapeNext := false }
  else if c = byte '\\' then
    { s with escapeNext := true }
  else if c = byte '"' then
    { s with inQuotes := !s.inQuotes }
  else if isspace c && !s.inQuotes then
    if s.currentToken ≠ [] then
      { s with tokens := s.tokens ++ [s.currentToken], currentToken := [] }
    else s
  else
    { s with currentToken := s.currentToken ++ [c] }

/-- What `tokenize` returns when its loop has ended: a token still being read
is kept, an unterminated quote or escape is not noticed. -/
def Scan.finish (s : Scan) : List Bytes :=
  if s.currentToken ≠ [] then s.tokens ++ [s.currentToken] else s.tokens

/-- Split a text at blanks, respecting quotes and escapes. -/
def tokenize (text : Bytes) : List Bytes := (text.foldl Scan.feed {}).finish

/-! ## Registration -/

variable {H : Type u}

/-- A parser as it is constructed.  The prefix is never changed: `setPrefix` is
declared but has no definition. -/
def new : CommandParser H := ⟨bytes "!", ∅⟩

/-- Bind a handler to the lowered name.  An empty name and a null handler are
refused. -/
def registerCommand (p : CommandParser H) (name : Bytes) (handler : Option H) :
    CommandParser H :=
  if name = [] then p
  else match handler with
    | none => p
    | some h => { p with commands := AList.insert (lower name) h p.commands }

/-- The registrations `regs`, in order, on a freshly constructed parser. -/
def registerAll (regs : List (Bytes × Option H)) : CommandParser H :=
  regs.foldl (fun p r ↦ p.registerCommand r.1 r.2) new

/-- The handler a chat name is dispatched to. -/
def find (p : CommandParser H) (name : Bytes) : Option H := p.commands.lookup (lower name)

@[simp] theorem registerCommand_mPrefix (p : CommandParser H) (name : Bytes)
    (handler : Option H) : (p.registerCommand name handler).mPrefix = p.mPrefix := by
  unfold registerCommand
  split
  · rfl
  · split <;> rfl

/-- What one registration does to the table, for every chat name. -/
theorem find_registerCommand (p : CommandParser H) (name : Bytes) (handler : Option H)
    (c : Bytes) : (p.registerCommand name handler).find c =
      if name ≠ [] ∧ lower name = lower c then handler.or (p.find c) else p.find c := by
  unfold registerCommand find
  by_cases hn : name = []
  · simp [hn]
  · cases handler with
    | none => simp [hn]
    | some h =>
        simp only [hn, if_false, UnorderedMap.lookup_insert_eq]
        by_cases hc : lower name = lower c <;> simp [hc, hn]

/-- A handler found after a registration was found before or is the one that was
registered. -/
theorem lookup_registerCommand {p : CommandParser H} {name key : Bytes} {handler : Option H}
    {h : H} (hfind : (p.registerCommand name handler).commands.lookup key = some h) :
    p.commands.lookup key = some h ∨ handler = some h := by
  unfold registerCommand at hfind
  split at hfind
  · exact .inl hfind
  · cases handler with
    | none => exact .inl hfind
    | some h' =>
        dsimp only at hfind
        rw [UnorderedMap.lookup_insert_eq] at hfind
        split at hfind
        · exact .inr hfind
        · exact .inl hfind

/-! ## Dispatch -/

/-- Does the text start with the prefix? -/
def isCommand (p : CommandParser H) (text : Bytes) : Bool :=
  text ≠ [] && p.mPrefix.isPrefixOf text

/-- The first token after the prefix, and the remaining ones. -/
def parseCommand (p : CommandParser H) (text : Bytes) : Bytes × List Bytes :=
  if p.isCommand text then
    match tokenize (text.drop p.mPrefix.length) with
    | [] => ([], [])
    | command :: args => (command, args)
  else ([], [])

variable {σ : Type v}

/-- Find the command of a message and call its handler.  The result is `none`
when the handler throws something that is not a `std::exception`, which is the
only thing that leaves the function other than by a return. -/
def parseAndExecute (parser : σ → CommandParser H)
    (invoke : H → CommandContext → σ → Outcome × σ) (message : ChatMessage) (s : σ) :
    Option Bool × σ :=
  if (parser s).isCommand message.text then
    let (command, args) := (parser s).parseCommand message.text
    if command = [] then (some false, s)
    else match (parser s).commands.lookup (lower command) with
      | none => (some false, s)
      | some h =>
          match invoke h ⟨message, command, args⟩ s with
          | (.returned, s') => (some true, s')
          | (.stdException, s') => (some false, s')
          | (.otherException, s') => (none, s')
  else (some false, s)

end CommandParser

end Seraphbot
