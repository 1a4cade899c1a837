import Seraphbot.Audio.Sfx
import Seraphbot.Lua.Engine

/-!
# The scripts that come with the bot

The `execute` functions of the files in `commands/`, each as a function of the
context it is called with.  What a script gets from elsewhere is in `Surroundings`:
the reading of the random generator, how Lua reads a numeral, and the audio system.

All of these scripts answer with one message, apart from two ways to fail: `dice.lua`
raises an error for a number of sides that is no whole number (`dice_answers_iff`),
and `sfx.lua` for a page that starts before the first sound.
-/

namespace Seraphbot

namespace Scripts

/-! ## Numbers and random numbers -/

/-- A number of Lua: an integer, a float that is a fraction, or a float that is
infinite. -/
inductive Number where
  | integer (n : Int)
  | float (num : Int) (den : Nat) (hden : 0 < den)
  | infinite (negative : Bool)

/-- `math.random(m)`; `draw` is the reading of the generator. -/
def random (m draw : Nat) : Nat := draw % m + 1

theorem random_mem {m : Nat} (hm : 0 < m) (draw : Nat) : 1 ≤ random m draw ∧ random m draw ≤ m := by
  have hlt := Nat.mod_lt draw hm
  unfold random
  omega

/-! ## The scripts without a parameter of their own -/

/-- `hello.lua`. -/
def hello (ctx : CommandContext) : ScriptRun :=
  match ctx.args with
  | arg :: _ => { replies := [bytes "Hello " ++ arg ++ bytes "!"] }
  | [] => { replies := [bytes "Hello " ++ ctx.message.user ++ bytes "!"] }

/-- `flip.lua`.  The four bytes are a coin. -/
def flip (draw : Nat) : ScriptRun :=
  let result := if random 2 draw = 1 then bytes "Heads" else bytes "Tails"
  { replies := [[0xF0, 0x9F, 0xAA, 0x99] ++ bytes " " ++ result ++ bytes "!"] }

/-- `modcmd.lua`. -/
def modcmd (ctx : CommandContext) : ScriptRun :=
  { replies :=
      [bytes "This is a moderator-only command executed by " ++ ctx.message.user] }

/-- `limited.lua`.  The four bytes are a party popper. -/
def special (ctx : CommandContext) : ScriptRun :=
  { replies := [[0xF0, 0x9F, 0x8E, 0x89] ++
      bytes " Special subscriber command activated by " ++ ctx.message.user ++ bytes "!"] }

/-- The jokes of `vip_joke.lua`. -/
def jokes : List Bytes :=
  [bytes "Why do VIPs never get lost? Because they always have priority directions!",
   bytes "What did the VIP say to the regular viewer? 'Thanks for the support!'",
   bytes "Why are VIPs like good code? They're both well-structured and valuable!"]

/-- `vip_joke.lua`, where concatenating `nil` would raise an error.  The four bytes
are a star. -/
def vipjoke (draw : Nat) : ScriptRun :=
  match jokes[random jokes.length draw - 1]? with
  | none => { ending := .invalid }
  | some joke => { replies := [[0xF0, 0x9F, 0x8C, 0x9F] ++ bytes " " ++ joke] }

/-! ## The dice -/

/-- `input > 1 and input <= 100`. -/
def Number.inRange : Number → Bool
  | .integer n => 1 < n && n ≤ 100
  | .float num den _ => den < num && num ≤ 100 * den
  | .infinite _ => false

/-- The sides of the dice that the arguments ask for. -/
def sides (tonumber : Bytes → Option Number) (args : List Bytes) : Number :=
  match args with
  | [] => .integer 6
  | arg :: _ =>
      match tonumber arg with
      | none => .integer 6
      | some input => if input.inRange then input else .integer 6

/-- What `math.random` makes of its argument, `none` if that is no whole number. -/
def Number.whole : Number → Option Nat
  | .integer n => some n.toNat
  | .float num den _ => if num % den = 0 then some (num / den).toNat else none
  | .infinite _ => none

/-- A number in a text.  Of the floats only whole ones get there. -/
def Number.text : Number → Bytes
  | .integer n => bytes (toString n)
  | .float num den _ => bytes (toString (num / den)) ++ bytes ".0"
  | .infinite negative => if negative then bytes "-inf" else bytes "inf"

/-- The answer of `dice.lua`.  The four bytes are a die. -/
def rolled (user : Bytes) (result : Nat) (sides : Number) : Bytes :=
  [0xF0, 0x9F, 0x8E, 0xB2] ++ bytes " " ++ user ++ bytes " rolled a " ++
    bytes (toString result) ++ bytes " (1-" ++ sides.text ++ bytes ")"

/-- `dice.lua`. -/
def dice (tonumber : Bytes → Option Number) (draw : Nat) (ctx : CommandContext) : ScriptRun :=
  let sides := sides tonumber ctx.args
  match sides.whole with
  | none => { ending := .invalid }
  | some m => { replies := [rolled ctx.message.user (random m draw) sides] }

theorem whole_of_inRange {input : Number} (hin : input.inRange = true) {m : Nat}
    (h : input.whole = some m) : 2 ≤ m ∧ m ≤ 100 := by
  cases input with
  | infinite negative => cases hin
  | integer n =>
      simp only [Number.inRange, Bool.and_eq_true, decide_eq_true_eq] at hin
      simp only [Number.whole, Option.some.injEq] at h
      omega
  | float num den hden =>
      simp only [Number.inRange, Bool.and_eq_true, decide_eq_true_eq] at hin
      simp only [Number.whole] at h
      split_ifs at h with hdvd
      have hpos : (0 : Int) < den := by omega
      obtain ⟨q, rfl⟩ := Int.dvd_of_emod_eq_zero hdvd
      rw [Int.mul_ediv_cancel_left q hpos.ne'] at h
      have hlow : 1 < q := Int.lt_of_mul_lt_mul_left (by omega) hpos.le
      have hhigh : q ≤ 100 := Int.le_of_mul_le_mul_left (a := den) (by omega) hpos
      have hq := Option.some.inj h
      omega

/-- The dice are asked to have this number of sides, which is in the range. -/
def AsksFor (tonumber : Bytes → Option Number) (args : List Bytes) (input : Number) : Prop :=
  ∃ arg rest, args = arg :: rest ∧ tonumber arg = some input ∧ input.inRange = true

/-- The number of sides is what was asked for, if that is in the range, and six
otherwise. -/
theorem sides_cases (tonumber : Bytes → Option Number) (args : List Bytes) :
    AsksFor tonumber args (sides tonumber args) ∨
      sides tonumber args = .integer 6 ∧ ∀ input, ¬ AsksFor tonumber args input := by
  fun_cases sides tonumber args with
  | case1 => exact .inr ⟨rfl, by rintro _ ⟨_, _, ⟨⟩, -⟩⟩
  | case2 arg rest hnone =>
      refine .inr ⟨rfl, ?_⟩
      rintro input ⟨_, _, ⟨⟩, hinput, -⟩
      exact absurd (hnone.symm.trans hinput) nofun
  | case3 arg rest input hinput hin => exact .inl ⟨arg, rest, rfl, hinput, hin⟩
  | case4 arg rest input hinput hout =>
      refine .inr ⟨rfl, ?_⟩
      rintro input' ⟨_, _, ⟨⟩, hinput', hin⟩
      cases hinput.symm.trans hinput'
      exact hout hin

/-- There are at least two sides and at most a hundred. -/
theorem whole_sides {tonumber : Bytes → Option Number} {args : List Bytes} {m : Nat}
    (h : (sides tonumber args).whole = some m) : 2 ≤ m ∧ m ≤ 100 := by
  rcases sides_cases tonumber args with ⟨-, -, -, -, hin⟩ | ⟨hsix, -⟩
  · exact whole_of_inRange hin h
  · rw [hsix] at h
    obtain rfl : 6 = m := Option.some.inj h
    decide

/-- The dice are asked to have a number of sides between 1 and 100 that is no whole
number. -/
def AsksForFraction (tonumber : Bytes → Option Number) (args : List Bytes) : Prop :=
  ∃ arg rest num den hden, args = arg :: rest ∧ tonumber arg = some (.float num den hden) ∧
    den < num ∧ num ≤ 100 * den ∧ num % den ≠ 0

theorem whole_sides_eq_none_iff {tonumber : Bytes → Option Number} {args : List Bytes} :
    (sides tonumber args).whole = none ↔ AsksForFraction tonumber args := by
  constructor
  · intro h
    rcases sides_cases tonumber args with ⟨arg, rest, hargs, hinput, hin⟩ | ⟨hsix, -⟩
    · generalize sides tonumber args = input at h hinput hin
      cases input with
      | integer n => cases h
      | infinite negative => cases hin
      | float num den hden =>
          simp only [Number.inRange, Bool.and_eq_true, decide_eq_true_eq] at hin
          refine ⟨arg, rest, num, den, hden, hargs, hinput, hin.1, hin.2, fun hdvd ↦ ?_⟩
          simp [Number.whole, hdvd] at h
    · rw [hsix] at h
      cases h
  · rintro ⟨arg, rest, num, den, hden, rfl, hinput, hlow, hhigh, hdvd⟩
    have hin : (Number.float num den hden).inRange = true := by simp [Number.inRange, hlow, hhigh]
    simp [sides, hinput, hin, Number.whole, hdvd]

/-- **The dice answer with a roll.**  For every argument list, every way to read
numerals and every reading of the random generator: `dice.lua` raises an error, and
says nothing, exactly if its first argument is read as a number between 1 and 100 that
is not whole.  Otherwise it sends one message, with a result between 1 and the number
of sides.  That is at least 2 and at most 100: it is the number that the argument is
read as, if this is in the range, and six if it is not. -/
theorem dice_answers_iff (tonumber : Bytes → Option Number) (draw : Nat) (ctx : CommandContext) :
    (dice tonumber draw ctx = { ending := .invalid } ↔ AsksForFraction tonumber ctx.args) ∧
    (¬ AsksForFraction tonumber ctx.args → ∃ result m sides,
      dice tonumber draw ctx = { replies := [rolled ctx.message.user result sides] } ∧
        sides.whole = some m ∧ 1 ≤ result ∧ result ≤ m ∧ 2 ≤ m ∧ m ≤ 100 ∧
        (AsksFor tonumber ctx.args sides ∨
          sides = .integer 6 ∧ ∀ input, ¬ AsksFor tonumber ctx.args input)) := by
  rw [← whole_sides_eq_none_iff]
  unfold dice
  dsimp only
  cases hwhole : (sides tonumber ctx.args).whole with
  | none => simp
  | some m =>
      have hm := whole_sides hwhole
      have hrandom := random_mem (Nat.lt_of_lt_of_le Nat.two_pos hm.1) draw
      refine ⟨iff_of_false (by simp) nofun, fun _ ↦ ?_⟩
      exact ⟨_, m, _, rfl, hwhole, hrandom.1, hrandom.2, hm.1, hm.2,
        sides_cases tonumber ctx.args⟩

end Scripts

end Seraphbot
