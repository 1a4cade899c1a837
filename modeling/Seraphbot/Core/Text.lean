import Mathlib.Data.List.TakeWhile

/-!
# Byte strings

`std::string` is a sequence of bytes, and every text operation of the bot works
on bytes: `tolower` and `isspace` are the C-locale functions, which only know
ASCII.  A chat message in UTF-8 is therefore lowered and split byte by byte.
-/

namespace Seraphbot

/-- A `std::string`. -/
abbrev Bytes := List UInt8

/-- A text literal of the source.  All the literals that are modelled are ASCII,
where a character is a byte. -/
def bytes (s : String) : Bytes := s.toList.map fun c ↦ UInt8.ofNat c.toNat

/-- The byte of an ASCII character literal. -/
def byte (c : Char) : UInt8 := UInt8.ofNat c.toNat

/-- The C-locale `tolower`. -/
def tolower (c : UInt8) : UInt8 :=
  if byte 'A' ≤ c ∧ c ≤ byte 'Z' then c + 32 else c

/-- The C-locale `isspace`: blank, `\t`, `\n`, `\v`, `\f` and `\r`. -/
def isspace (c : UInt8) : Bool := c = 32 || (9 ≤ c && c ≤ 13)

/-- `std::transform` with `tolower` over a whole string. -/
def lower (s : Bytes) : Bytes := s.map tolower

@[simp] theorem lower_nil : lower [] = [] := rfl

@[simp] theorem lower_eq_nil {s : Bytes} : lower s = [] ↔ s = [] := List.map_eq_nil_iff

/-- Lowering makes letters of letters only. -/
theorem tolower_eq_of_lt {c d : UInt8} (hd : d.toNat < 97) (h : tolower c = d) : c = d := by
  unfold tolower at h
  split at h
  · rename_i hc
    have hlow : 65 ≤ c.toNat := UInt8.le_iff_toNat_le.mp hc.1
    have hhigh : c.toNat ≤ 90 := UInt8.le_iff_toNat_le.mp hc.2
    have hsum : (c.toNat + 32) % 256 = d.toNat := (UInt8.toNat_add c 32).symm.trans (congrArg _ h)
    omega
  · exact h

theorem mem_of_mem_lower {s : Bytes} {d : UInt8} (hd : d.toNat < 97) (h : d ∈ lower s) :
    d ∈ s := by
  obtain ⟨c, hc, hlower⟩ := List.mem_map.mp h
  rwa [← tolower_eq_of_lt hd hlower]

/-! ## C strings -/

/-- A `std::string` that is passed on as a `const char *` ends with its first null
character. -/
def cString (s : Bytes) : Bytes := s.takeWhile (· ≠ 0)

theorem nul_notMem_cString (s : Bytes) : 0 ∉ cString s := by
  intro h
  simpa using List.mem_takeWhile_imp h

theorem cString_eq_self_iff {s : Bytes} : cString s = s ↔ 0 ∉ s := by
  simp only [cString, List.takeWhile_eq_self_iff, decide_eq_true_eq]
  exact ⟨fun h hmem ↦ h 0 hmem rfl, fun h c hc hzero ↦ h (hzero ▸ hc)⟩

@[simp] theorem cString_cString (s : Bytes) : cString (cString s) = cString s :=
  cString_eq_self_iff.mpr (nul_notMem_cString s)

/-- Only what follows a string without null characters is cut off. -/
theorem cString_append_of_notMem {s : Bytes} (h : 0 ∉ s) (t : Bytes) :
    cString (s ++ t) = s ++ cString t :=
  List.takeWhile_append_of_pos fun c hc ↦ by
    simpa using fun hzero : c = 0 ↦ h (hzero ▸ hc)

/-- What follows a null character is cut off. -/
theorem cString_append_of_mem {s : Bytes} (h : 0 ∈ s) (t : Bytes) :
    cString (s ++ t) = cString s := by
  obtain ⟨u, v, rfl, hu⟩ := List.eq_append_cons_of_mem h
  rw [List.append_assoc, cString_append_of_notMem hu, cString_append_of_notMem hu]
  simp [cString]

end Seraphbot
