import Mathlib.Algebra.Ring.Nat
import Seraphbot.Core.Tokenize
import Seraphbot.Data.Words

/-!
# Joining the arguments of a command

`joinArgs` puts the arguments of a command back into one text, which scripts use
to treat everything after a subcommand as one value.  It forgets how the chatter
separated the arguments, but not where: the arguments of a text without quotes
and backslashes are free of whitespace, so that `tokenize` finds them again.
-/

universe u

namespace Seraphbot

/-! ## The two functions -/

namespace CommandContext

/-- The arguments from `startIndex` on, with a space before all but the first of
them. -/
def joinArgs (ctx : CommandContext) (startIndex : Nat) : Bytes :=
  (List.range' startIndex (ctx.args.length - startIndex)).foldl
    (fun result i ↦
      (if i > startIndex then result ++ bytes " " else result) ++ ctx.args.getD i []) []

/-- `LuaCommandContext::joinArgs`, which takes an optional index and treats a
negative one as zero. -/
def luaJoinArgs (ctx : CommandContext) (startIndex : Option Int) : Bytes :=
  ctx.joinArgs (max 0 (startIndex.getD 0)).toNat

/-- The rounds after the first put a space before each argument. -/
theorem foldl_joinArgs (args : List Bytes) {startIndex i : Nat} (hi : startIndex < i)
    (result : Bytes) :
    (List.range' i (args.length - i)).foldl
        (fun result i ↦
          (if i > startIndex then result ++ bytes " " else result) ++ args.getD i []) result =
      result ++ (args.drop i).flatMap (bytes " " ++ ·) := by
  -- the induction is on the number of rounds that are left
  induction hn : args.length - i generalizing i result with
  | zero => simp [List.drop_eq_nil_of_le (Nat.sub_eq_zero_iff_le.mp hn)]
  | succ n ih =>
      have hlt : i < args.length := by omega
      rw [List.range'_succ, List.foldl_cons, if_pos hi,
        ih (Nat.lt_succ_of_lt hi) _ (by omega), List.drop_eq_getElem_cons hlt,
        List.flatMap_cons]
      simp [hlt]

/-- The loop joins what is left of the arguments. -/
theorem joinArgs_eq (ctx : CommandContext) (k : Nat) :
    ctx.joinArgs k = [byte ' '].intercalate (ctx.args.drop k) := by
  unfold joinArgs
  by_cases hk : k < ctx.args.length
  · obtain ⟨n, hn⟩ : ∃ n, ctx.args.length - k = n + 1 := ⟨ctx.args.length - k - 1, by omega⟩
    have hrest : n = ctx.args.length - (k + 1) := by omega
    rw [hn, List.range'_succ, List.foldl_cons, if_neg (Nat.lt_irrefl k), hrest,
      foldl_joinArgs ctx.args (Nat.lt_succ_self k), List.drop_eq_getElem_cons hk,
      intercalate_cons_eq_flatMap]
    have hspace : bytes " " = [byte ' '] := rfl
    simp [hk, hspace]
  · rw [Nat.sub_eq_zero_of_le (not_lt.mp hk), List.drop_eq_nil_of_le (not_lt.mp hk)]
    rfl

theorem length_intercalate (c : UInt8) (l : List Bytes) :
    ([c].intercalate l).length = (l.map List.length).sum + (l.length - 1) := by
  cases l with
  | nil => rfl
  | cons w l =>
      rw [intercalate_cons_eq_flatMap]
      induction l with
      | nil => simp
      | cons v l ih => simp at ih ⊢; omega

end CommandContext

/-! ## The arguments of a plain text -/

namespace CommandParser

variable {H : Type u}

theorem Plain.drop {text : Bytes} (h : Plain text) (n : Nat) : Plain (text.drop n) :=
  fun c hc ↦ h c (List.mem_of_mem_drop hc)

/-- A run is a word that is read as it is. -/
theorem of_mem_runs {text w : Bytes} (h : Plain text) (hw : w ∈ runs text) :
    Plain w ∧ Spaceless w ∧ w ≠ [] := by
  rw [runs, List.mem_filter] at hw
  have hpiece := of_mem_splitOnP hw.1
  exact ⟨fun c hc ↦ h c (hpiece c hc).1, fun c hc ↦ (hpiece c hc).2, by simpa using hw.2⟩

/-- The arguments of a command are tokens of its text. -/
theorem mem_args {p : CommandParser H} {text w : Bytes} (hw : w ∈ (p.parseCommand text).2) :
    w ∈ tokenize (text.drop p.mPrefix.length) := by
  unfold parseCommand at hw
  split at hw
  · cases htok : tokenize (text.drop p.mPrefix.length) with
    | nil => simp [htok] at hw
    | cons command args =>
        rw [htok] at hw
        exact List.mem_cons_of_mem command hw
  · simp at hw

/-- Words that are read as they are, joined by single spaces, are read back. -/
theorem tokenize_intercalate_plain {tokens : List Bytes}
    (h : ∀ w ∈ tokens, Plain w ∧ Spaceless w ∧ w ≠ []) :
    tokenize ([byte ' '].intercalate tokens) = tokens := by
  have hread := tokenize_intercalate id fun w hw ↦ lexemes_spaceless (h w hw).1 (h w hw).2.1 false
  rw [List.map_id] at hread
  rw [hread, flatMap_word fun hnil ↦ (h [] hnil).2.2 rfl]

/-- **Joining and splitting are inverse on plain text.**  The arguments of a text
without quotes and backslashes are found again in what `joinArgs` makes of them,
from every index on, be it within the list or past its end.  And of whatever
arguments, the joined text has their lengths and one separator between each two
of them. -/
theorem tokenize_joinArgs :
    (∀ (p : CommandParser H) (text : Bytes) (message : ChatMessage) (command : Bytes) (k : Nat),
      Plain text →
      tokenize ((⟨message, command, (p.parseCommand text).2⟩ : CommandContext).joinArgs k) =
        (p.parseCommand text).2.drop k) ∧
    (∀ (p : CommandParser H) (text : Bytes) (message : ChatMessage) (command : Bytes)
      (start : Option Int), Plain text →
      tokenize ((⟨message, command, (p.parseCommand text).2⟩ : CommandContext).luaJoinArgs start) =
        (p.parseCommand text).2.drop (start.getD 0).toNat) ∧
    ∀ (ctx : CommandContext) (k : Nat),
      (ctx.joinArgs k).length =
        ((ctx.args.drop k).map List.length).sum + ((ctx.args.drop k).length - 1) := by
  have hback : ∀ (p : CommandParser H) (text : Bytes) (message : ChatMessage) (command : Bytes)
      (k : Nat), Plain text →
      tokenize ((⟨message, command, (p.parseCommand text).2⟩ : CommandContext).joinArgs k) =
        (p.parseCommand text).2.drop k := by
    intro p text message command k h
    rw [CommandContext.joinArgs_eq]
    apply tokenize_intercalate_plain
    intro w hw
    have hmem := mem_args (List.mem_of_mem_drop hw)
    rw [tokenize_plain (h.drop _)] at hmem
    exact of_mem_runs (h.drop _) hmem
  refine ⟨hback, ?_, ?_⟩
  · intro p text message command start h
    rw [CommandContext.luaJoinArgs, hback p text message command _ h]
    congr 1
    omega
  · intro ctx k
    rw [CommandContext.joinArgs_eq, CommandContext.length_intercalate]

end CommandParser

end Seraphbot
