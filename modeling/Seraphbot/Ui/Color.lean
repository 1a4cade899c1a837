import Mathlib.Algebra.Ring.Nat
import Seraphbot.Core.CommandParser

/-!
# Colors of chat messages

The model of `ImGuiManager::hexToImVec4`, which turns the color of a message, as
it came from the network, into what the window draws with.  It looks at the size
of the string and at its first character, and leaves the rest to `std::stoul`.
That function reads more than hexadecimal digits, blanks and signs among them,
reads less where something else follows, and throws where there is no digit.

Nothing above catches what it throws: the loop that draws the chat log does not,
and `main` only catches `std::runtime_error`.
-/

namespace Seraphbot.ImGuiManager

/-! ## Reading numbers -/

/-- The exceptions of `std::stoul`, both of which are `std::logic_error`s. -/
inductive StoulError where
  | invalidArgument
  | outOfRange
deriving DecidableEq

/-- The width of `unsigned long`, which differs between platforms. -/
structure UnsignedLong where
  bits : Nat
  /-- By the standard. -/
  width : 32 ≤ bits

/-- The value of a hexadecimal digit. -/
def hexDigit (c : UInt8) : Option Nat :=
  if byte '0' ≤ c ∧ c ≤ byte '9' then some (c.toNat - 48)
  else if byte 'a' ≤ c ∧ c ≤ byte 'f' then some (c.toNat - 87)
  else if byte 'A' ≤ c ∧ c ≤ byte 'F' then some (c.toNat - 55)
  else none

/-- The digits up to the first character that is none. -/
def digits : Bytes → List Nat
  | [] => []
  | c :: s =>
      match hexDigit c with
      | some d => d :: digits s
      | none => []

/-- The number with these digits. -/
def value (ds : List Nat) : Nat := ds.foldl (fun v d ↦ 16 * v + d) 0

/-- Leave out a sign, and say whether it was a minus. -/
def skipSign : Bytes → Bool × Bytes
  | [] => (false, [])
  | c :: s =>
      if c = byte '-' then (true, s)
      else if c = byte '+' then (false, s)
      else (false, c :: s)

/-- Leave out `0x`, if digits follow. -/
def skipBase : Bytes → Bytes
  | z :: x :: d :: s =>
      if z = byte '0' ∧ (x = byte 'x' ∨ x = byte 'X') ∧ (hexDigit d).isSome then d :: s
      else z :: x :: d :: s
  | s => s

variable (ulong : UnsignedLong)

/-- `std::stoul(s, nullptr, 16)`.  A number with a minus is negated in the type. -/
def stoul (s : Bytes) : Except StoulError Nat :=
  let signed := skipSign (s.dropWhile isspace)
  match digits (skipBase signed.2) with
  | [] => .error .invalidArgument
  | d :: ds =>
      let v := value (d :: ds)
      if Nat.pow 2 ulong.bits ≤ v then .error .outOfRange
      else .ok (if signed.1 then (Nat.pow 2 ulong.bits - v) % Nat.pow 2 ulong.bits else v)

/-! ## Colors -/

/-- What `hexToImVec4` returns.  The channels of a computed color are the integers
that it divides by 255; without `alpha`, that channel is one. -/
inductive Color where
  /-- `{0.0F, 0.0F, 0.0F, 1.0F}`. -/
  | fallback
  | computed (red green blue : Nat) (alpha : Option Nat)
deriving DecidableEq

/-- `ImGuiManager::hexToImVec4`. -/
def hexToImVec4 (hex : Bytes) : Except StoulError Color :=
  if hex.length < 7 ∨ hex.head? ≠ some (byte '#') then .ok .fallback
  else do
    let value ← stoul ulong ((hex.drop 1).take 6)
    let red := (value >>> 16) &&& 0xFF
    let green := (value >>> 8) &&& 0xFF
    let blue := value &&& 0xFF
    if 9 ≤ hex.length then
      let alpha ← stoul ulong ((hex.drop 7).take 2)
      return .computed red green blue (some alpha)
    else return .computed red green blue none

/-! ## Digits -/

/-- The value of two digits. -/
def pair (c d : UInt8) : Option Nat := do return 16 * (← hexDigit c) + (← hexDigit d)

/-- The bounds on digits, and on the characters that they are written with. -/
theorem hexDigit_bounds {c : UInt8} {d : Nat} (h : hexDigit c = some d) :
    d < 16 ∧ 48 ≤ c.toNat := by
  have h0 : (byte '0').toNat = 48 := rfl
  have h9 : (byte '9').toNat = 57 := rfl
  have ha : (byte 'a').toNat = 97 := rfl
  have hf : (byte 'f').toNat = 102 := rfl
  have hA : (byte 'A').toNat = 65 := rfl
  have hF : (byte 'F').toNat = 70 := rfl
  unfold hexDigit at h
  simp only [UInt8.le_iff_toNat_le] at h
  split_ifs at h <;> (rw [Option.some.injEq] at h; omega)

theorem ne_of_hexDigit {c x : UInt8} {d : Nat} (h : hexDigit c = some d)
    (hx : hexDigit x = none) : c ≠ x := by
  rintro rfl
  simp [hx] at h

theorem isspace_of_hexDigit {c : UInt8} {d : Nat} (h : hexDigit c = some d) :
    isspace c = false := by
  have hbound := (hexDigit_bounds h).2
  by_contra hspace
  rw [Bool.not_eq_false, isspace, Bool.or_eq_true, Bool.and_eq_true, decide_eq_true_eq,
    decide_eq_true_eq, decide_eq_true_eq, UInt8.le_iff_toNat_le, UInt8.le_iff_toNat_le] at hspace
  rcases hspace with rfl | ⟨-, hle⟩
  · exact absurd hbound (by decide)
  · have h13 : (13 : UInt8).toNat = 13 := rfl
    omega

theorem value_concat (ds : List Nat) (d : Nat) : value (ds ++ [d]) = 16 * value ds + d := by
  simp [value]

theorem value_lt {ds : List Nat} (h : ∀ d ∈ ds, d < 16) : value ds < 16 ^ ds.length := by
  induction ds using List.reverseRecOn with
  | nil => simp [value]
  | append_singleton ds d ih =>
      have hds := ih fun x hx ↦ h x (List.mem_append_left _ hx)
      have hd := h d (by simp)
      rw [value_concat, List.length_append, List.length_singleton, Nat.pow_succ]
      omega

/-! ## Reading digits -/

/-- The characters `s` are the digits `ds`. -/
def Spells (s : Bytes) (ds : List Nat) : Prop := s.map hexDigit = ds.map some

theorem Spells.cons {c : UInt8} {d : Nat} {s : Bytes} {ds : List Nat} (hc : hexDigit c = some d)
    (h : Spells s ds) : Spells (c :: s) (d :: ds) := by
  rw [Spells, List.map_cons, List.map_cons, hc, h]

/-- The rest of the text after a first digit. -/
theorem Spells.exists_cons {s : Bytes} {d : Nat} {ds : List Nat} (h : Spells s (d :: ds)) :
    ∃ c t, s = c :: t ∧ hexDigit c = some d ∧ Spells t ds := by
  cases s with
  | nil => simp [Spells] at h
  | cons c t =>
      rw [Spells, List.map_cons, List.map_cons, List.cons.injEq] at h
      exact ⟨c, t, rfl, h.1, h.2⟩

theorem Spells.digits_eq {s : Bytes} {ds : List Nat} (h : Spells s ds) : digits s = ds := by
  induction ds generalizing s with
  | nil =>
      obtain rfl : s = [] := by simpa [Spells] using h
      rfl
  | cons d ds ih =>
      obtain ⟨c, t, rfl, hc, ht⟩ := h.exists_cons
      rw [digits, hc, ih ht]

theorem Spells.lt {s : Bytes} {ds : List Nat} (h : Spells s ds) : ∀ d ∈ ds, d < 16 := by
  induction ds generalizing s with
  | nil => simp
  | cons d ds ih =>
      obtain ⟨c, t, rfl, hc, ht⟩ := h.exists_cons
      exact List.forall_mem_cons.mpr ⟨(hexDigit_bounds hc).1, ih ht⟩

/-- In front of a digit, `0x` would need an `x` among the digits. -/
theorem Spells.skipBase_eq {s : Bytes} {ds : List Nat} (h : Spells s ds) : skipBase s = s := by
  unfold skipBase
  split
  · rename_i z x d t
    split_ifs with hbase
    · obtain ⟨-, hx, -⟩ := hbase
      have hdigit : (hexDigit x).isSome := by
        obtain ⟨v, -, hv⟩ := List.mem_map.mp (h ▸ List.mem_map_of_mem (f := hexDigit)
          (by simp : x ∈ z :: x :: d :: t))
        simp [← hv]
      rcases hx with rfl | rfl <;> exact absurd hdigit (by decide)
    · rfl
  · rfl

/-- A text of up to eight digits is read as the number it is. -/
theorem stoul_eq {s : Bytes} {ds : List Nat} (h : Spells s ds) (hne : ds ≠ [])
    (hlen : ds.length ≤ 8) : stoul ulong s = .ok (value ds) := by
  cases ds with
  | nil => exact absurd rfl hne
  | cons d ds =>
      obtain ⟨c, t, rfl, hc, -⟩ := id h.exists_cons
      have hspace : (c :: t).dropWhile isspace = c :: t := by
        rw [List.dropWhile_cons, isspace_of_hexDigit hc]
        rfl
      have hsign : skipSign (c :: t) = (false, c :: t) := by
        rw [skipSign, if_neg (ne_of_hexDigit hc (by decide)),
          if_neg (ne_of_hexDigit hc (by decide))]
      have hlt : value (d :: ds) < Nat.pow 2 ulong.bits :=
        calc value (d :: ds) < 16 ^ (d :: ds).length := value_lt h.lt
          _ ≤ 16 ^ 8 := Nat.pow_le_pow_right (by decide) hlen
          _ = 2 ^ 32 := by decide
          _ ≤ Nat.pow 2 ulong.bits := Nat.pow_le_pow_right (by decide) ulong.width
      simp only [stoul, hspace, hsign, h.skipBase_eq, h.digits_eq]
      rw [if_neg (Nat.not_le.mpr hlt)]
      rfl

/-! ## Colors and digits -/

/-- The string is a `#` and six digits, whose pairs are the channels, and the two
characters after that, if there are two, are digits of the alpha channel. -/
def Denotes (hex : Bytes) (red green blue : Nat) (alpha : Option Nat) : Prop :=
  ∃ c₁ c₂ c₃ c₄ c₅ c₆ rest,
    hex = byte '#' :: c₁ :: c₂ :: c₃ :: c₄ :: c₅ :: c₆ :: rest ∧
    pair c₁ c₂ = some red ∧ pair c₃ c₄ = some green ∧ pair c₅ c₆ = some blue ∧
    match rest with
    | a₁ :: a₂ :: _ => alpha.isSome ∧ pair a₁ a₂ = alpha
    | _ => alpha = none

theorem pair_eq_some_iff {c d : UInt8} {n : Nat} :
    pair c d = some n ↔ ∃ x y, hexDigit c = some x ∧ hexDigit d = some y ∧ n = 16 * x + y := by
  cases hc : hexDigit c with
  | none => simp [pair, hc]
  | some x =>
      cases hd : hexDigit d with
      | none => simp [pair, hc, hd]
      | some y => simp [pair, hc, hd, eq_comm]

theorem pair_isSome_iff {c d : UInt8} :
    (pair c d).isSome ↔ (hexDigit c).isSome ∧ (hexDigit d).isSome := by
  cases hc : hexDigit c <;> cases hd : hexDigit d <;> simp [pair, hc, hd]

/-- Two digits are read as a pair. -/
theorem stoul_pair {c d : UInt8} {n : Nat} (h : pair c d = some n) :
    stoul ulong [c, d] = .ok n := by
  obtain ⟨x, y, hx, hy, rfl⟩ := pair_eq_some_iff.mp h
  have hspells : Spells [c, d] [x, y] := .cons hx (.cons hy rfl)
  rw [stoul_eq ulong hspells (by simp) (by simp)]
  simp [value]

/-- Six digits are read as a number that the three channels can be cut out of. -/
theorem stoul_six {c₁ c₂ c₃ c₄ c₅ c₆ : UInt8} {red green blue : Nat}
    (hred : pair c₁ c₂ = some red) (hgreen : pair c₃ c₄ = some green)
    (hblue : pair c₅ c₆ = some blue) :
    ∃ v, stoul ulong [c₁, c₂, c₃, c₄, c₅, c₆] = .ok v ∧ (v >>> 16) &&& 0xFF = red ∧
      (v >>> 8) &&& 0xFF = green ∧ v &&& 0xFF = blue := by
  obtain ⟨d₁, d₂, h₁, h₂, rfl⟩ := pair_eq_some_iff.mp hred
  obtain ⟨d₃, d₄, h₃, h₄, rfl⟩ := pair_eq_some_iff.mp hgreen
  obtain ⟨d₅, d₆, h₅, h₆, rfl⟩ := pair_eq_some_iff.mp hblue
  have hspells : Spells [c₁, c₂, c₃, c₄, c₅, c₆] [d₁, d₂, d₃, d₄, d₅, d₆] :=
    .cons h₁ (.cons h₂ (.cons h₃ (.cons h₄ (.cons h₅ (.cons h₆ rfl)))))
  have hlt := hspells.lt
  have hmask : ∀ v : Nat, v &&& 0xFF = v % 256 := fun v ↦ Nat.and_two_pow_sub_one_eq_mod v 8
  refine ⟨_, stoul_eq ulong hspells (by simp) (by simp), ?_⟩
  simp only [List.mem_cons, List.not_mem_nil, or_false, forall_eq_or_imp, forall_eq] at hlt
  simp only [hmask, Nat.shiftRight_eq_div_pow, value, List.foldl_cons, List.foldl_nil]
  omega

/-- A string that passes the guard has a `#` and six more characters. -/
theorem exists_six {hex : Bytes} (hlen : ¬ hex.length < 7) (hhash : hex.head? = some (byte '#')) :
    ∃ c₁ c₂ c₃ c₄ c₅ c₆ rest, hex = byte '#' :: c₁ :: c₂ :: c₃ :: c₄ :: c₅ :: c₆ :: rest := by
  rcases hex with _ | ⟨c₀, _ | ⟨c₁, _ | ⟨c₂, _ | ⟨c₃, _ | ⟨c₄, _ | ⟨c₅, _ | ⟨c₆, rest⟩⟩⟩⟩⟩⟩⟩
  all_goals simp only [List.length_cons, List.length_nil] at hlen
  all_goals try omega
  obtain rfl : c₀ = byte '#' := by simpa using hhash
  exact ⟨c₁, c₂, c₃, c₄, c₅, c₆, rest, rfl⟩

/-- What is computed behind the guard. -/
theorem hexToImVec4_cons (c₁ c₂ c₃ c₄ c₅ c₆ : UInt8) (rest : Bytes) :
    hexToImVec4 ulong (byte '#' :: c₁ :: c₂ :: c₃ :: c₄ :: c₅ :: c₆ :: rest) = do
      let v ← stoul ulong [c₁, c₂, c₃, c₄, c₅, c₆]
      match rest with
      | a₁ :: a₂ :: _ =>
          let alpha ← stoul ulong [a₁, a₂]
          return .computed ((v >>> 16) &&& 0xFF) ((v >>> 8) &&& 0xFF) (v &&& 0xFF) (some alpha)
      | _ =>
          return .computed ((v >>> 16) &&& 0xFF) ((v >>> 8) &&& 0xFF) (v &&& 0xFF) none := by
  rw [hexToImVec4, if_neg (by simp)]
  rcases rest with _ | ⟨a₁, _ | ⟨a₂, rest⟩⟩ <;> simp

theorem hexToImVec4_cons_ne_fallback (c₁ c₂ c₃ c₄ c₅ c₆ : UInt8) (rest : Bytes) :
    hexToImVec4 ulong (byte '#' :: c₁ :: c₂ :: c₃ :: c₄ :: c₅ :: c₆ :: rest) ≠ .ok .fallback := by
  rw [hexToImVec4_cons]
  cases stoul ulong [c₁, c₂, c₃, c₄, c₅, c₆] with
  | error err => simp [bind, Except.bind]
  | ok v =>
      rcases rest with _ | ⟨a₁, _ | ⟨a₂, rest⟩⟩
      · simp [bind, Except.bind, pure, Except.pure]
      · simp [bind, Except.bind, pure, Except.pure]
      · cases hstoul : stoul ulong [a₁, a₂] <;>
          simp [hstoul, bind, Except.bind, pure, Except.pure]

/-- Strings of digits are read as what they denote. -/
theorem hexToImVec4_of_denotes {hex : Bytes} {red green blue : Nat} {alpha : Option Nat}
    (h : Denotes hex red green blue alpha) :
    hexToImVec4 ulong hex = .ok (.computed red green blue alpha) := by
  obtain ⟨c₁, c₂, c₃, c₄, c₅, c₆, rest, rfl, hred, hgreen, hblue, halpha⟩ := h
  obtain ⟨v, hv, rfl, rfl, rfl⟩ := stoul_six ulong hred hgreen hblue
  rw [hexToImVec4_cons, hv]
  rcases rest with _ | ⟨a₁, _ | ⟨a₂, rest⟩⟩
  · simp [halpha, bind, Except.bind, pure, Except.pure]
  · simp [halpha, bind, Except.bind, pure, Except.pure]
  · obtain ⟨hsome, hpair⟩ := halpha
    obtain ⟨a, rfl⟩ := Option.isSome_iff_exists.mp hsome
    simp [stoul_pair ulong hpair, bind, Except.bind, pure, Except.pure]

/-- Such a string denotes a color if there are digits wherever it is read. -/
theorem exists_denotes_iff (c₁ c₂ c₃ c₄ c₅ c₆ : UInt8) (rest : Bytes) :
    (∃ red green blue alpha,
      Denotes (byte '#' :: c₁ :: c₂ :: c₃ :: c₄ :: c₅ :: c₆ :: rest) red green blue alpha) ↔
    (∀ c ∈ [c₁, c₂, c₃, c₄, c₅, c₆], (hexDigit c).isSome) ∧
      (2 ≤ rest.length → ∀ c ∈ rest.take 2, (hexDigit c).isSome) := by
  constructor
  · rintro ⟨red, green, blue, alpha, _, _, _, _, _, _, _, hcons, hred, hgreen, hblue, halpha⟩
    simp only [List.cons.injEq, true_and] at hcons
    obtain ⟨rfl, rfl, rfl, rfl, rfl, rfl, rfl⟩ := hcons
    have h₁ := pair_isSome_iff.mp (Option.isSome_of_mem hred)
    have h₂ := pair_isSome_iff.mp (Option.isSome_of_mem hgreen)
    have h₃ := pair_isSome_iff.mp (Option.isSome_of_mem hblue)
    refine ⟨by simp [h₁, h₂, h₃], ?_⟩
    rcases rest with _ | ⟨a₁, _ | ⟨a₂, rest⟩⟩
    · simp
    · simp
    · have h₄ := pair_isSome_iff.mp (halpha.2 ▸ halpha.1)
      simp [h₄]
  · rintro ⟨hsix, htwo⟩
    simp only [List.mem_cons, List.not_mem_nil, or_false, forall_eq_or_imp, forall_eq] at hsix
    obtain ⟨h₁, h₂, h₃, h₄, h₅, h₆⟩ := hsix
    obtain ⟨red, hred⟩ := Option.isSome_iff_exists.mp (pair_isSome_iff.mpr ⟨h₁, h₂⟩)
    obtain ⟨green, hgreen⟩ := Option.isSome_iff_exists.mp (pair_isSome_iff.mpr ⟨h₃, h₄⟩)
    obtain ⟨blue, hblue⟩ := Option.isSome_iff_exists.mp (pair_isSome_iff.mpr ⟨h₅, h₆⟩)
    rcases rest with _ | ⟨a₁, _ | ⟨a₂, rest⟩⟩
    · exact ⟨red, green, blue, none, _, _, _, _, _, _, _, rfl, hred, hgreen, hblue, rfl⟩
    · exact ⟨red, green, blue, none, _, _, _, _, _, _, _, rfl, hred, hgreen, hblue, rfl⟩
    · have htwo : (hexDigit a₁).isSome ∧ (hexDigit a₂).isSome := by simpa using htwo
      exact ⟨red, green, blue, pair a₁ a₂, _, _, _, _, _, _, _, rfl, hred, hgreen, hblue,
        pair_isSome_iff.mpr htwo, rfl⟩

/-- **Which colors the window survives.**  `hexToImVec4` returns, and computes
nothing but what the digits say, exactly if the string is too short or does not
start with `#`, or else is followed by digits wherever it is read. -/
theorem hexToImVec4_safe_iff (hex : Bytes) :
    (∃ color, hexToImVec4 ulong hex = .ok color ∧
      ∀ red green blue alpha, color = .computed red green blue alpha →
        Denotes hex red green blue alpha) ↔
    (hex.length < 7 ∨ hex.head? ≠ some (byte '#') ∨
      (∀ c ∈ (hex.drop 1).take 6, (hexDigit c).isSome) ∧
        (9 ≤ hex.length → ∀ c ∈ (hex.drop 7).take 2, (hexDigit c).isSome)) := by
  by_cases hlen : hex.length < 7
  · simp [hexToImVec4, hlen]
  by_cases hhash : hex.head? = some (byte '#')
  swap
  · simp [hexToImVec4, hhash]
  obtain ⟨c₁, c₂, c₃, c₄, c₅, c₆, rest, rfl⟩ := exists_six hlen hhash
  have hdigits := exists_denotes_iff c₁ c₂ c₃ c₄ c₅ c₆ rest
  have hlength : 9 ≤ (byte '#' :: c₁ :: c₂ :: c₃ :: c₄ :: c₅ :: c₆ :: rest).length ↔
      2 ≤ rest.length := by simp
  rw [hlength, or_iff_right hlen, or_iff_right (not_not.mpr hhash)]
  refine Iff.trans ?_ hdigits
  constructor
  · rintro ⟨color, hcolor, hdenotes⟩
    cases color with
    | fallback => exact absurd hcolor (hexToImVec4_cons_ne_fallback ulong c₁ c₂ c₃ c₄ c₅ c₆ rest)
    | computed red green blue alpha =>
        exact ⟨red, green, blue, alpha, hdenotes red green blue alpha rfl⟩
  · rintro ⟨red, green, blue, alpha, h⟩
    refine ⟨_, hexToImVec4_of_denotes ulong h, ?_⟩
    rintro _ _ _ _ ⟨⟩
    exact h

/-- `unsigned long` of 64 bits. -/
def ulong64 : UnsignedLong := ⟨64, by decide⟩

/-- Six other characters than digits after the `#` throw. -/
theorem no_digits_throw :
    hexToImVec4 ulong64 (bytes "#zzzzzz") = .error .invalidArgument := by
  decide

end Seraphbot.ImGuiManager
