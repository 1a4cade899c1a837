import Mathlib.Data.Set.Basic
import Seraphbot.Core.Dispatch

/-!
# The quoting grammar of the tokenizer

`tokenize` reads a text in one loop with four variables.  Here it is compared
with a reference in two phases, neither of which has a loop state to speak of:

* `lexemes` reads the text from left to right and yields literals and
  separators.  Quotes and backslashes are gone after this phase;
* `groups` splits at the separators and drops what is empty.

`tokenize_grammar` says that the two agree on every text, and
`argument_lists_arrive` is about what comes out: exactly the lists without an
empty token, since every such list has an encoding, `encode`, that the tokenizer
reads back.
-/

universe u v

namespace Seraphbot.CommandParser

/-! ## The reference -/

/-- What the first phase makes of a text. -/
inductive Lexeme where
  | literal (c : UInt8)
  | separator
deriving DecidableEq

namespace Lexeme

def isSeparator : Lexeme → Bool
  | literal _ => false
  | separator => true

def byte? : Lexeme → Option UInt8
  | literal c => some c
  | separator => none

end Lexeme

/-- The first phase.  A backslash makes a literal of whatever follows it, quotes
only switch whether whitespace separates, and a backslash at the end is
nothing. -/
def lexemes : Bool → Bytes → List Lexeme
  | _, [] => []
  | quoted, c :: rest =>
      if c = byte '\\' then
        match rest with
        | [] => []
        | d :: rest => .literal d :: lexemes quoted rest
      else if c = byte '"' then lexemes (!quoted) rest
      else if isspace c && !quoted then .separator :: lexemes quoted rest
      else .literal c :: lexemes quoted rest

/-- The second phase: split at the separators, and drop the empty groups. -/
def groups (l : List Lexeme) : List Bytes :=
  ((l.splitOnP Lexeme.isSeparator).map (List.filterMap Lexeme.byte?)).filter (· ≠ [])

@[simp] theorem lexemes_nil (q : Bool) : lexemes q [] = [] := rfl

@[simp] theorem lexemes_backslash (q : Bool) : lexemes q [byte '\\'] = [] := rfl

@[simp] theorem lexemes_escape (q : Bool) (c : UInt8) (text : Bytes) :
    lexemes q (byte '\\' :: c :: text) = .literal c :: lexemes q text := rfl

@[simp] theorem lexemes_quote (q : Bool) (text : Bytes) :
    lexemes q (byte '"' :: text) = lexemes (!q) text := by
  cases text <;> rfl

/-- Any other character is a separator or stands for itself. -/
theorem lexemes_cons {c : UInt8} (hslash : c ≠ byte '\\') (hquote : c ≠ byte '"') (q : Bool)
    (text : Bytes) :
    lexemes q (c :: text) =
      (if isspace c && !q then .separator else .literal c) :: lexemes q text := by
  rw [lexemes.eq_def]
  dsimp only
  rw [if_neg hslash, if_neg hquote]
  split <;> rfl

/-! ## The second phase, group by group -/

/-- A word as the only group, or none if it is empty. -/
def word (w : Bytes) : List Bytes := if w = [] then [] else [w]

theorem isSeparator_of_mem_map {w : Bytes} : ∀ x ∈ w.map Lexeme.literal, x.isSeparator = false := by
  intro x hx
  obtain ⟨c, -, rfl⟩ := List.mem_map.mp hx
  rfl

theorem filterMap_byte_map (w : Bytes) :
    (w.map Lexeme.literal).filterMap Lexeme.byte? = w := by
  induction w with
  | nil => rfl
  | cons c w ih => simpa [Lexeme.byte?] using ih

theorem groups_word (w : Bytes) : groups (w.map .literal) = word w := by
  unfold groups word
  rw [List.splitOnP_eq_singleton isSeparator_of_mem_map, List.map_singleton, filterMap_byte_map]
  by_cases hw : w = [] <;> simp [hw]

theorem groups_word_separator (w : Bytes) (l : List Lexeme) :
    groups (w.map .literal ++ .separator :: l) = word w ++ groups l := by
  unfold groups word
  rw [List.splitOnP_append_cons_of_forall_mem isSeparator_of_mem_map _ rfl, List.map_cons,
    filterMap_byte_map]
  by_cases hw : w = [] <;> simp [hw]

theorem groups_separator (l : List Lexeme) : groups (.separator :: l) = groups l :=
  groups_word_separator [] l

/-! ## The loop against the reference -/

namespace Scan

/-- The lexemes that are still to be grouped: the token being read, and those of
the rest of the text. -/
def ahead (s : Scan) (text : Bytes) : List Lexeme :=
  s.currentToken.map .literal ++
    if s.escapeNext then lexemes s.inQuotes (byte '\\' :: text) else lexemes s.inQuotes text

theorem finish_eq (s : Scan) : s.finish = s.tokens ++ word s.currentToken := by
  unfold finish word
  by_cases h : s.currentToken = [] <;> simp [h]

/-- One round of the loop moves the boundary between what is grouped and what is
ahead. -/
theorem feed_ahead (s : Scan) (c : UInt8) (text : Bytes) :
    (s.feed c).tokens ++ groups ((s.feed c).ahead text) =
      s.tokens ++ groups (s.ahead (c :: text)) := by
  fun_cases Scan.feed s c with
  | case1 hesc => simp [ahead, hesc]
  | case2 hesc hslash => simp [ahead, hesc, hslash]
  | case3 hesc hslash hquote => simp [ahead, hesc, hquote]
  | case4 hesc hslash hquote hspace hcur =>
      have hahead : s.ahead (c :: text) =
          s.currentToken.map .literal ++ .separator :: lexemes s.inQuotes text := by
        rw [ahead, if_neg hesc, lexemes_cons hslash hquote, if_pos hspace]
      rw [hahead, groups_word_separator, word, if_neg hcur]
      simp [ahead, hesc]
  | case5 hesc hslash hquote hspace hcur =>
      rw [not_not] at hcur
      simp [ahead, hesc, lexemes_cons hslash hquote, hspace, hcur, groups_separator]
  | case6 hesc hslash hquote hspace =>
      simp [ahead, hesc, lexemes_cons hslash hquote, hspace]

theorem finish_foldl_feed (s : Scan) (text : Bytes) :
    (text.foldl feed s).finish = s.tokens ++ groups (s.ahead text) := by
  induction text generalizing s with
  | nil =>
      -- a pending escape yields nothing at the end of the text
      have hahead : s.ahead [] = s.currentToken.map .literal := by
        cases h : s.escapeNext <;> simp [ahead, lexemes, h]
      rw [List.foldl_nil, finish_eq, hahead, groups_word]
  | cons c text ih => rw [List.foldl_cons, ih, feed_ahead]

end Scan

/-- The loop of `tokenize` computes the two phases. -/
theorem tokenize_eq (text : Bytes) : tokenize text = groups (lexemes false text) := by
  rw [tokenize, Scan.finish_foldl_feed]
  rfl

/-! ## Texts without quotes and backslashes -/

/-- A text in which nothing is quoted or escaped. -/
def Plain (text : Bytes) : Prop := ∀ c ∈ text, c ≠ byte '\\' ∧ c ≠ byte '"'

/-- A text without whitespace. -/
def Spaceless (text : Bytes) : Prop := ∀ c ∈ text, isspace c = false

instance (text : Bytes) : Decidable (Plain text) :=
  List.decidableBAll (fun c ↦ c ≠ byte '\\' ∧ c ≠ byte '"') text

instance (text : Bytes) : Decidable (Spaceless text) :=
  List.decidableBAll (fun c ↦ isspace c = false) text

/-- The maximal runs of characters that are not whitespace. -/
def runs (text : Bytes) : List Bytes := (text.splitOnP isspace).filter (· ≠ [])

/-- A plain piece of a text is read character by character. -/
theorem lexemes_plain {w : Bytes} (hw : Plain w) (q : Bool) (text : Bytes) :
    lexemes q (w ++ text) =
      w.map (fun c ↦ if isspace c && !q then .separator else .literal c) ++ lexemes q text := by
  induction w with
  | nil => rfl
  | cons c w ih =>
      obtain ⟨hslash, hquote⟩ := hw c List.mem_cons_self
      rw [List.cons_append, lexemes_cons hslash hquote,
        ih fun d hd ↦ hw d (List.mem_cons_of_mem c hd), List.map_cons, List.cons_append]

/-- Within quotes a plain piece is taken as it is. -/
theorem lexemes_quoted {w : Bytes} (hw : Plain w) (text : Bytes) :
    lexemes true (w ++ text) = w.map .literal ++ lexemes true text := by
  simp [lexemes_plain hw]

/-- Outside of quotes the same holds if there is no whitespace. -/
theorem lexemes_spaceless {w : Bytes} (hw : Plain w) (hs : Spaceless w) (q : Bool)
    (text : Bytes) : lexemes q (w ++ text) = w.map .literal ++ lexemes q text := by
  rw [lexemes_plain hw]
  congr 1
  apply List.map_congr_left
  intro c hc
  simp [hs c hc]

/-- Splitting the lexemes of a plain text is splitting the text. -/
theorem splitOnP_lexemes_plain {text : Bytes} (h : Plain text) :
    ((lexemes false text).splitOnP Lexeme.isSeparator).map (List.filterMap Lexeme.byte?) =
      text.splitOnP isspace := by
  induction text with
  | nil => rfl
  | cons c text ih =>
      obtain ⟨hslash, hquote⟩ := h c List.mem_cons_self
      have ih := ih fun d hd ↦ h d (List.mem_cons_of_mem c hd)
      rw [lexemes_cons hslash hquote, List.splitOnP_cons_eq_if_modifyHead,
        List.splitOnP_cons_eq_if_modifyHead, ← ih]
      cases hc : isspace c with
      | true => simp [Lexeme.isSeparator]
      | false =>
          cases (lexemes false text).splitOnP Lexeme.isSeparator <;>
            simp [Lexeme.isSeparator, Lexeme.byte?]

/-- On a plain text the tokens are the runs of other characters than
whitespace. -/
theorem tokenize_plain {text : Bytes} (h : Plain text) : tokenize text = runs text := by
  rw [tokenize_eq, groups, splitOnP_lexemes_plain h, runs]

/-- **The tokenizer implements its grammar**, on every text.  In particular,
quoted and unquoted pieces that touch are one token, a quote that is not closed
reaches to the end of the text, and a plain text is split into the runs between
its whitespace. -/
theorem tokenize_grammar :
    (∀ text, tokenize text = groups (lexemes false text)) ∧
    (∀ a b c, Plain a → Spaceless a → Plain b → Plain c → Spaceless c →
      tokenize (a ++ byte '"' :: (b ++ byte '"' :: c)) = word (a ++ b ++ c)) ∧
    (∀ a b, Plain a → Spaceless a → Plain b →
      tokenize (a ++ byte '"' :: b) = word (a ++ b)) ∧
    ∀ text, Plain text → tokenize text = runs text := by
  refine ⟨tokenize_eq, ?_, ?_, fun text ↦ tokenize_plain⟩
  · intro a b c ha hsa hb hc hsc
    have hlast := lexemes_spaceless hc hsc false []
    rw [List.append_nil] at hlast
    rw [tokenize_eq, lexemes_spaceless ha hsa, lexemes_quote, Bool.not_false, lexemes_quoted hb,
      lexemes_quote, Bool.not_true, hlast, ← groups_word]
    simp
  · intro a b ha hsa hb
    have hlast := lexemes_quoted hb []
    rw [List.append_nil] at hlast
    rw [tokenize_eq, lexemes_spaceless ha hsa, lexemes_quote, Bool.not_false, hlast,
      ← groups_word]
    simp

/-! ## Writing a list of tokens down -/

/-- A character between double quotes. -/
def escape (c : UInt8) : Bytes :=
  if c = byte '"' ∨ c = byte '\\' then [byte '\\', c] else [c]

/-- A token between double quotes. -/
def quote (token : Bytes) : Bytes := byte '"' :: (token.flatMap escape ++ [byte '"'])

/-- The tokens between double quotes, joined by single spaces. -/
def encode (tokens : List Bytes) : Bytes := [byte ' '].intercalate (tokens.map quote)

theorem lexemes_escaped (token text : Bytes) :
    lexemes true (token.flatMap escape ++ text) = token.map .literal ++ lexemes true text := by
  induction token with
  | nil => rfl
  | cons c token ih =>
      rw [List.flatMap_cons, List.append_assoc, List.map_cons, List.cons_append, ← ih]
      unfold escape
      split
      · rw [List.cons_append, List.singleton_append, lexemes_escape]
      · rename_i h
        rw [not_or] at h
        rw [List.singleton_append, lexemes_cons h.2 h.1]
        simp

theorem lexemes_quote_append (token text : Bytes) :
    lexemes false (quote token ++ text) = token.map .literal ++ lexemes false text := by
  rw [quote, List.cons_append, lexemes_quote, Bool.not_false, List.append_assoc,
    lexemes_escaped, List.singleton_append, lexemes_quote, Bool.not_true]

/-- A word and, after a space, a token between quotes. -/
theorem tokenize_word_quote {w : Bytes} (hw : Plain w) (hs : Spaceless w) (token : Bytes) :
    tokenize (w ++ byte ' ' :: quote token) = word w ++ word token := by
  have hquote := lexemes_quote_append token []
  rw [List.append_nil, lexemes_nil, List.append_nil] at hquote
  rw [tokenize_eq, lexemes_spaceless hw hs, lexemes_cons (by decide) (by decide), hquote,
    if_pos (by decide), groups_word_separator, groups_word]

/-- Pieces that are read as one token each, joined by single spaces, are read as
these tokens.  How a token becomes a piece, `write`, is open: between quotes, or
as it is. -/
theorem tokenize_intercalate (write : Bytes → Bytes) {tokens : List Bytes}
    (h : ∀ token ∈ tokens, ∀ text,
      lexemes false (write token ++ text) = token.map .literal ++ lexemes false text) :
    tokenize ([byte ' '].intercalate (tokens.map write)) = tokens.flatMap word := by
  rw [tokenize_eq]
  induction tokens with
  | nil => rfl
  | cons token tokens ih =>
      rw [List.forall_mem_cons] at h
      cases tokens with
      | nil =>
          have hlast := h.1 []
          simp only [List.append_nil, lexemes_nil] at hlast
          simp [hlast, groups_word]
      | cons next tokens =>
          rw [List.map_cons, List.map_cons, List.intercalate_cons_cons, ← List.map_cons,
            List.append_assoc, h.1, List.singleton_append,
            lexemes_cons (by decide) (by decide), if_pos (by decide), groups_word_separator,
            ih h.2, ← List.flatMap_cons]

/-- What is written down is read back, except for empty tokens. -/
theorem tokenize_encode (tokens : List Bytes) :
    tokenize (encode tokens) = tokens.flatMap word :=
  tokenize_intercalate quote fun token _ ↦ lexemes_quote_append token

theorem flatMap_word {tokens : List Bytes} (h : [] ∉ tokens) : tokens.flatMap word = tokens := by
  induction tokens with
  | nil => rfl
  | cons token tokens ih =>
      rw [List.mem_cons, not_or] at h
      rw [List.flatMap_cons, ih h.2, word, if_neg (Ne.symm h.1), List.singleton_append]

theorem nil_notMem_tokenize (text : Bytes) : [] ∉ tokenize text := by
  rw [tokenize_eq, groups]
  simp

/-! ## Sending a command -/

variable {H : Type u}

/-- A registered name has a handler: that of its latest accepted registration. -/
theorem exists_latest_accepts {regs : List (Bytes × Option H)} {n : Bytes} {h₀ : H} (hn : n ≠ [])
    (hreg : (n, some h₀) ∈ regs) : ∃ name h, latest (accepts n) regs = some (name, some h) := by
  obtain ⟨⟨name, handler⟩, hr⟩ := exists_latest hreg (p := accepts n) (by simp [accepts, hn])
  have hacc := latest_sat hr
  cases handler with
  | none => simp [accepts] at hacc
  | some h => exact ⟨name, h, hr⟩

/-- **Every argument list can be sent, and only non-empty arguments arrive.**  The
lists that `tokenize` returns are exactly those without an empty token, and the
encoding of such a list is read back as the list.  So a message that encodes a
registered name and its arguments calls the handler of the name, once, with
exactly these arguments. -/
theorem argument_lists_arrive {τ : Type v} :
    Set.range tokenize = {tokens | [] ∉ tokens} ∧
    (∀ tokens, [] ∉ tokens → tokenize (encode tokens) = tokens) ∧
    ∀ (regs : List (Bytes × Option H)) (n : Bytes) (h₀ : H) (args : List Bytes)
      (invoke : H → CommandContext → CommandParser H × τ → Outcome × CommandParser H × τ)
      (message : ChatMessage) (t : τ),
      n ≠ [] → (n, some h₀) ∈ regs → [] ∉ args →
      message.text = byte '!' :: encode (n :: args) →
      ∃ name h, latest (accepts n) regs = some (name, some h) ∧
        parseAndExecute (fun s ↦ s.2.1) (logging invoke) message ([], registerAll regs, t) =
          (Outcome.result (invoke h ⟨message, n, args⟩ (registerAll regs, t)).1,
            [(h, ⟨message, n, args⟩)],
            (invoke h ⟨message, n, args⟩ (registerAll regs, t)).2) := by
  have hback : ∀ tokens, [] ∉ tokens → tokenize (encode tokens) = tokens := by
    intro tokens h
    rw [tokenize_encode, flatMap_word h]
  refine ⟨?_, hback, ?_⟩
  · ext tokens
    constructor
    · rintro ⟨text, rfl⟩
      exact nil_notMem_tokenize text
    · intro h
      exact ⟨encode tokens, hback tokens h⟩
  · intro regs n h₀ args invoke message t hn hreg hargs htext
    obtain ⟨name, h, hlatest⟩ := exists_latest_accepts hn hreg
    refine ⟨name, h, hlatest, ?_⟩
    have htok : tokenize (encode (n :: args)) = n :: args :=
      hback _ (by simpa [Ne.symm hn] using hargs)
    rw [parseAndExecute_eq, htext, parseCommand_cons _ (registerAll_mPrefix regs), if_pos rfl,
      htok]
    simp [hn, find_registerAll, hlatest, logging]

end Seraphbot.CommandParser
