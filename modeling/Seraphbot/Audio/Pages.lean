import Mathlib.Data.Nat.Digits.Defs
import Seraphbot.Audio.Sfx
import Seraphbot.Data.Pagination

/-!
# The pages of `!sfx list`

The script starts a page at an estimate, fifteen sounds for each page before it,
fills it as long as the reply stays short enough, and announces the number of pages
that there would be if all of them had as many sounds as this one.

`fill` is its loop over what is left of the list: it takes the longest prefix that
fits into the reply.  With that, `list_answers_iff` says which page numbers
make the script raise an error, and that every other reply is short enough, and
`pages_partition_iff` says for which lists the three computations agree.
-/

namespace Seraphbot.Sfx

/-- What `listAudioFiles` returns: a `std::vector` of strings, which the address
space limits. -/
structure SoundList where
  names : List Bytes
  size_lt : names.length < Nat.pow 2 59

/-! ## Filling a page -/

/-- A listing, without the number of the page. -/
def listing (names : List Bytes) : Bytes :=
  bytes "Available sounds: " ++ (bytes ", ").intercalate names

/-- The listing leaves room for the number of the page. -/
def Fits (names : List Bytes) : Prop := (listing names).length ≤ 450

instance (names : List Bytes) : Decidable (Fits names) := Nat.decLe _ _

/-- What a name adds to the listing. -/
def Page.addition (page : Page) (soundName : Bytes) : Bytes :=
  if page.soundsAdded > 0 then bytes ", " ++ soundName else soundName

/-- The page with one more sound. -/
def Page.add (page : Page) (soundName : Bytes) : Page where
  pageSounds := page.pageSounds ++ [soundName]
  currentLength := page.currentLength + (page.addition soundName).length
  soundsAdded := page.soundsAdded + 1

/-- The loop, over the rest of the list. -/
def fill : Page → List Bytes → Page
  | page, [] => page
  | page, soundName :: rest =>
      if page.currentLength + (page.addition soundName).length > 450 then page
      else fill (page.add soundName) rest

/-- From a valid index on, the loop goes through the rest of the list. -/
theorem fillPage_eq_fill (sounds : List Bytes) (k : Nat) (page : Page) :
    fillPage sounds (sounds.length - k) (k + 1) page = some (fill page (sounds.drop k)) := by
  induction hn : sounds.length - k generalizing k page with
  | zero => rw [List.drop_eq_nil_of_le (Nat.sub_eq_zero_iff_le.mp hn), fillPage, fill]
  | succ n ih =>
      have hlt : k < sounds.length := by omega
      have hat : soundAt sounds (k + 1) = some sounds[k] := by
        have hindex : ((k : Int) + 1 - 1).toNat = k := by omega
        rw [soundAt, if_neg (by omega), hindex, List.getElem?_eq_getElem hlt]
      rw [fillPage, hat, List.drop_eq_getElem_cons hlt, fill]
      change (if page.currentLength + (page.addition sounds[k]).length > 450 then some page
        else fillPage sounds n (k + 1 + 1) (page.add sounds[k])) = _
      split
      · rfl
      · exact ih (k + 1) (page.add sounds[k]) (by omega)

/-- At an index below the list, the loop asks for the length of `nil`. -/
theorem fillPage_of_nonpos (sounds : List Bytes) (n : Nat) {i : Int} (hi : i ≤ 0) (page : Page) :
    fillPage sounds (n + 1) i page = none := by
  rw [fillPage, soundAt, if_pos (by omega)]

theorem length_listing_concat (names : List Bytes) (soundName : Bytes) :
    (listing (names ++ [soundName])).length =
      (listing names).length +
        (if names.length > 0 then bytes ", " ++ soundName else soundName).length := by
  unfold listing
  cases names with
  | nil => simp
  | cons name names =>
      rw [intercalate_concat _ _ (List.cons_ne_nil name names), if_pos (by simp),
        ← List.append_assoc, List.length_append]

/-- What fits also does without its last names. -/
theorem Fits.of_append (names names' : List Bytes) (h : Fits (names ++ names')) : Fits names := by
  induction names' using List.reverseRecOn with
  | nil => rwa [List.append_nil] at h
  | append_singleton names' soundName ih =>
      apply ih
      rw [Fits, ← List.append_assoc, length_listing_concat] at h
      exact (Nat.le_add_right _ _).trans h

/-- The counters of a page are right, and it is not too long. -/
structure Page.Counted (page : Page) : Prop where
  soundsAdded : page.soundsAdded = page.pageSounds.length
  currentLength : page.currentLength = (listing page.pageSounds).length
  fits : Fits page.pageSounds

theorem Page.Counted.new : Page.Counted {} := ⟨rfl, rfl, by decide⟩

namespace Page.Counted

variable {page : Page}

theorem length_add (h : page.Counted) (soundName : Bytes) :
    page.currentLength + (page.addition soundName).length =
      (listing (page.pageSounds ++ [soundName])).length := by
  rw [length_listing_concat, h.currentLength, Page.addition, h.soundsAdded]

theorem add (h : page.Counted) {soundName : Bytes}
    (hfits : Fits (page.pageSounds ++ [soundName])) : (page.add soundName).Counted where
  soundsAdded := by simp [Page.add, h.soundsAdded]
  currentLength := h.length_add soundName
  fits := hfits

/-- The loop keeps the counters right, and stops at the first name that does not
fit. -/
theorem fill (h : page.Counted) (rest : List Bytes) :
    (fill page rest).Counted ∧
      ∃ k ≤ rest.length, (Sfx.fill page rest).pageSounds = page.pageSounds ++ rest.take k ∧
        (k < rest.length → ¬ Fits (page.pageSounds ++ rest.take (k + 1))) := by
  induction rest generalizing page with
  | nil => exact ⟨h, 0, le_rfl, by simp [Sfx.fill], by simp⟩
  | cons soundName rest ih =>
      rw [Sfx.fill, h.length_add]
      split
      · rename_i hlong
        refine ⟨h, 0, Nat.zero_le _, by simp, fun _ hfits ↦ ?_⟩
        exact absurd hfits (not_le.mpr (by simpa using hlong))
      · rename_i hshort
        obtain ⟨hcounted, k, hk, hsounds, hstuck⟩ := ih (h.add (not_lt.mp hshort))
        have hstep : (page.add soundName).pageSounds = page.pageSounds ++ [soundName] := rfl
        rw [hstep] at hsounds hstuck
        refine ⟨hcounted, k + 1, Nat.succ_le_succ hk, by simpa using hsounds, fun hlt ↦ ?_⟩
        simpa using hstuck (Nat.lt_of_succ_lt_succ hlt)

end Page.Counted

/-- How many of the names a page takes. -/
def taken (names : List Bytes) : Nat := (fill {} names).soundsAdded

/-- A page takes the longest prefix that fits. -/
theorem fill_spec (names : List Bytes) :
    (fill {} names).pageSounds = names.take (taken names) ∧
      Longest Fits names (taken names) := by
  obtain ⟨hcounted, k, hk, hsounds, hstuck⟩ := Page.Counted.new.fill names
  have htaken : taken names = k := by
    rw [taken, hcounted.soundsAdded, hsounds]
    simpa using hk
  rw [htaken]
  refine ⟨by simpa using hsounds, hk, ?_, by simpa using hstuck⟩
  have hfits := hcounted.fits
  rw [hsounds] at hfits
  simpa using hfits

/-! ## Where a page starts -/

section

variable {sounds : List Bytes} {page : Int}

theorem filledPage_of_pos (hint : IsInteger page) (hpos : 0 < startIndex page) :
    filledPage sounds page = some (fill {} (sounds.drop (startIndex page - 1).toNat)) := by
  obtain ⟨k, hk⟩ : ∃ k : Nat, startIndex page = k + 1 :=
    ⟨(startIndex page - 1).toNat, by omega⟩
  have hrounds : (sounds.length - ((k : Int) + 1) + 1).toNat = sounds.length - k := by omega
  have hdrop : ((k : Int) + 1 - 1).toNat = k := by omega
  rw [filledPage, if_pos hint, hk, hrounds, hdrop, fillPage_eq_fill]

theorem filledPage_of_nonpos (hne : sounds ≠ []) (hint : IsInteger page)
    (hpos : startIndex page ≤ 0) : filledPage sounds page = none := by
  have hlen : 0 < sounds.length := List.length_pos_iff.mpr hne
  obtain ⟨n, hn⟩ : ∃ n : Nat, (sounds.length - startIndex page + 1).toNat = n + 1 :=
    ⟨(sounds.length - startIndex page).toNat, by omega⟩
  rw [filledPage, if_pos hint, hn, fillPage_of_nonpos sounds n hpos]

end

/-! ## The replies -/

/-- The number of pages that the reply to a page announces. -/
def announced (sounds : List Bytes) (page : Int) : Option Nat :=
  match filledPage sounds page with
  | none => none
  | some filled =>
      if filled.pageSounds = [] then none
      else
        let totalPages := (sounds.length + filled.soundsAdded - 1) / filled.soundsAdded
        if totalPages > 1 then some totalPages else none

/-- The end of a listing. -/
def pageInfo (page : Int) : Option Nat → Bytes
  | none => []
  | some totalPages =>
      bytes " (Page " ++ numberText page ++ bytes "/" ++ decimal totalPages ++ bytes ")"

section

variable {sounds : List Bytes} {page : Int} (hne : sounds ≠ [])
include hne

theorem listSounds_of_none (h : filledPage sounds page = none) :
    listSounds sounds page = ⟨[], true⟩ := by
  rw [listSounds, if_neg hne, h]

theorem listSounds_of_empty {filled : Page} (h : filledPage sounds page = some filled)
    (hnil : filled.pageSounds = []) :
    listSounds sounds page =
      ⟨[.reply (bytes "Page " ++ numberText page ++
        bytes " is empty. Try a lower page number.")], false⟩ := by
  rw [listSounds, if_neg hne, h]
  exact if_pos hnil

theorem listSounds_of_filled {filled : Page} (h : filledPage sounds page = some filled)
    (hnil : filled.pageSounds ≠ []) :
    listSounds sounds page =
      ⟨[.reply (listing filled.pageSounds ++ pageInfo page (announced sounds page))], false⟩ := by
  rw [listSounds, if_neg hne, announced, h]
  dsimp only
  rw [if_neg hnil, if_neg hnil]
  split
  · rw [pageInfo, listing]
    simp
  · rw [pageInfo, listing]
    simp

end

/-! ## The length of a reply -/

theorem length_bytes (s : String) : (bytes s).length = s.length := by
  rw [bytes, List.length_map, String.length_toList]

/-- An integer of Lua has at most twenty characters. -/
theorem length_decimal_le {n : Int} (h : IsInteger n) : (decimal n).length ≤ 20 := by
  have hpow : Nat.pow 2 63 = 9223372036854775808 := by decide
  obtain ⟨hlow, hhigh⟩ := h
  rw [decimal, length_bytes]
  cases n with
  | ofNat m =>
      rw [Int.ofNat_eq_natCast] at hhigh
      have hm := Nat.repr_length m 19 (by decide) (by omega)
      exact hm.trans (by decide)
  | negSucc m =>
      have hm := Nat.repr_length (m + 1) 19 (by decide) (by omega)
      change ("-" ++ Nat.repr (m + 1)).length ≤ 20
      rw [String.length_append]
      exact Nat.add_le_add (by decide : "-".length ≤ 1) hm

/-- No page announces more pages than there are sounds. -/
theorem announced_le {sounds : List Bytes} {page : Int} {totalPages : Nat}
    (h : announced sounds page = some totalPages) : totalPages ≤ sounds.length := by
  unfold announced at h
  split at h
  · simp at h
  · rename_i filled hfilled
    dsimp only at h
    split_ifs at h with hnil hmany
    obtain rfl := Option.some.inj h
    rcases Nat.eq_zero_or_pos filled.soundsAdded with hzero | hpos
    · simp [hzero]
    · have hle := (pagesFor_le_iff (N := sounds.length) (T := sounds.length) hpos).mpr
        (Nat.le_mul_of_pos_left _ hpos)
      rwa [pagesFor, if_neg hpos.ne'] at hle

theorem isInteger_of_le {n : Nat} (h : n ≤ Nat.pow 2 59) : IsInteger n := by
  have h59 : Nat.pow 2 59 = 576460752303423488 := by decide
  have h63 : Nat.pow 2 63 = 9223372036854775808 := by decide
  constructor <;> omega

/-- The end of a listing fits into what the names have left. -/
theorem length_pageInfo_le (sounds : SoundList) {page : Int} (hint : IsInteger page) :
    (pageInfo page (announced sounds.names page)).length ≤ 50 := by
  cases h : announced sounds.names page with
  | none => simp [pageInfo]
  | some totalPages =>
      have htotal : IsInteger totalPages :=
        isInteger_of_le ((announced_le h).trans sounds.size_lt.le)
      have hpage : (numberText page).length ≤ 20 := by
        rw [numberText, if_pos hint]
        exact length_decimal_le hint
      have hopen : (bytes " (Page ").length = 7 := rfl
      have hslash : (bytes "/").length = 1 := rfl
      have hclose : (bytes ")").length = 1 := rfl
      have htext := length_decimal_le htotal
      simp only [pageInfo, List.length_append, hopen, hslash, hclose]
      omega

/-! ## Which pages are answered -/

/-- The page that the second argument asks for, the first if there is none. -/
def pageOf (tonumber : Bytes → Option Int) (rest : List Bytes) : Int :=
  match rest with
  | [] => 1
  | arg :: _ => (tonumber arg).getD 1

/-- The script has answered: with one reply and without an error, and if that is a
listing, it is within the limit of the chat. -/
def Answers (run : Run) : Prop :=
  run.failed = false ∧ ∃ text, run.effects = [.reply text] ∧
    (bytes "Available sounds: " <+: text → text.length ≤ 500)

theorem Answers.of_length {text : Bytes} (h : text.length ≤ 500) :
    Answers ⟨[.reply text], false⟩ := ⟨rfl, text, rfl, fun _ ↦ h⟩

theorem Answers.of_head {text : Bytes} {c : UInt8} (hhead : text.head? = some c)
    (hc : c ≠ byte 'A') : Answers ⟨[.reply text], false⟩ := by
  refine ⟨rfl, text, rfl, ?_⟩
  rintro ⟨rest, rfl⟩
  exact absurd (Option.some.inj hhead).symm hc

theorem not_answers_of_failed : ¬ Answers ⟨[], true⟩ := fun h ↦ absurd h.1 (by decide)

/-- A page that the loop gets through is answered. -/
theorem answers_of_filled {sounds : SoundList} {page : Int} (hne : sounds.names ≠ [])
    (hint : IsInteger page) (hpos : 0 < startIndex page) :
    Answers (listSounds sounds.names page) := by
  have hfilled : filledPage sounds.names page = _ := filledPage_of_pos hint hpos
  generalize sounds.names.drop (startIndex page - 1).toNat = rest at hfilled
  by_cases hnil : (fill {} rest).pageSounds = []
  · rw [listSounds_of_empty hne hfilled hnil]
    exact Answers.of_head (c := byte 'P') rfl (by decide)
  · rw [listSounds_of_filled hne hfilled hnil]
    apply Answers.of_length
    have hlisting : (listing (fill {} rest).pageSounds).length ≤ 450 :=
      (Page.Counted.new.fill rest).1.fits
    have hinfo := length_pageInfo_le sounds hint
    rw [List.length_append]
    omega

/-- A first argument that lowers to `list` makes the script list what there is. -/
theorem execute_list (tonumber : Bytes → Option Int) {disk : Storage} {a : AudioSystem}
    {sounds : List Bytes} (hsounds : a.listAudioFiles disk soundDir = some sounds) (draw : Nat)
    {first : Bytes} (hfirst : lower first = bytes "list") (rest : List Bytes) :
    execute tonumber disk a draw (first :: rest) = listSounds sounds (pageOf tonumber rest) := by
  unfold execute
  dsimp only
  rw [if_pos hfirst, hsounds]
  rfl

/-- The number of a page that is no integer of Lua is not zero. -/
theorem pos_of_not_isInteger {page : Int} (hint : ¬ IsInteger page) (hneg : ¬ page < 0) :
    0 < page := by
  rcases eq_or_lt_of_le (not_lt.mp hneg) with rfl | hpos
  · exact absurd (by decide) hint
  · exact hpos

/-- **Which pages are answered.**  Whatever the disk, the audio system and the draw,
`list` with these arguments and these sounds is answered by one reply, which is within
the limit of the chat if it is a listing, exactly if there is nothing to list or the
page starts at a positive index.  For a page number of 64 bits that index wraps
around; any other number is a float. -/
theorem list_answers_iff (sounds : SoundList) (tonumber : Bytes → Option Int)
    (rest : List Bytes) :
    (∀ (disk : Storage) (a : AudioSystem) (draw : Nat) (first : Bytes),
      lower first = bytes "list" → a.listAudioFiles disk soundDir = some sounds.names →
      execute tonumber disk a draw (first :: rest) =
        listSounds sounds.names (pageOf tonumber rest)) ∧
    (Answers (listSounds sounds.names (pageOf tonumber rest)) ↔
      sounds.names = [] ∨
        if IsInteger (pageOf tonumber rest) then
          0 < Int.bmod ((pageOf tonumber rest - 1) * 15 + 1) (Nat.pow 2 64)
        else 0 < pageOf tonumber rest) := by
  refine ⟨?_, ?_⟩
  · intro disk a draw first hfirst hsounds
    exact execute_list tonumber hsounds draw hfirst rest
  · generalize pageOf tonumber rest = page
    by_cases hnil : sounds.names = []
    · rw [listSounds, if_pos hnil]
      exact iff_of_true (Answers.of_length (by decide)) (.inl hnil)
    rw [or_iff_right hnil]
    by_cases hint : IsInteger page
    · rw [if_pos hint]
      constructor
      · intro h
        by_contra hpos
        rw [listSounds_of_none hnil (filledPage_of_nonpos hnil hint (not_lt.mp hpos))] at h
        exact not_answers_of_failed h
      · exact answers_of_filled hnil hint
    · rw [if_neg hint]
      by_cases hneg : page < 0
      · rw [listSounds_of_none hnil (by rw [filledPage, if_neg hint, if_pos hneg])]
        exact iff_of_false not_answers_of_failed (by omega)
      · rw [listSounds_of_empty hnil (by rw [filledPage, if_neg hint, if_neg hneg]) rfl]
        exact iff_of_true (Answers.of_head (c := byte 'P') rfl (by decide))
          (pos_of_not_isInteger hint hneg)

/-- A list of one sound, and page 0 of it. -/
theorem page_zero_fails :
    execute (fun _ ↦ some 0) (AudioSystem.oneSound (bytes "boom.mp3"))
      (AudioSystem.fresh (AudioSystem.oneSound (bytes "boom.mp3"))) 0
      [bytes "list", bytes "0"] = ⟨[], true⟩ := by
  decide

/-! ## Which lists are partitioned -/

/-- The positions in the list of the sounds that a page shows. -/
def entries (sounds : List Bytes) (page : Int) : List Nat :=
  match filledPage sounds page with
  | none => []
  | some filled => List.range' (startIndex page - 1).toNat filled.soundsAdded

/-- The reply to a page that shows these entries and announces this number of pages. -/
def pageReply (sounds : List Bytes) (page : Int) (shown : List Nat) (total : Option Nat) : Bytes :=
  if sounds = [] then bytes "No sounds found in directory: " ++ soundDir
  else if shown = [] then
    bytes "Page " ++ numberText page ++ bytes " is empty. Try a lower page number."
  else listing (shown.map fun i ↦ sounds.getD i []) ++ pageInfo page total

theorem taken_le (names : List Bytes) : taken names ≤ names.length := (fill_spec names).2.le

/-- The items at a range of positions. -/
theorem map_getD_range' {l : List Bytes} {a n : Nat} (h : n ≤ (l.drop a).length) :
    (List.range' a n).map (fun i ↦ l.getD i []) = (l.drop a).take n := by
  rw [List.length_drop] at h
  refine List.ext_getElem (by simpa using h) fun i hi _ ↦ ?_
  have hlt : a + i < l.length := by
    rw [List.length_map, List.length_range'] at hi
    omega
  simp [hlt]

section

variable {p : Nat} (hp : p < Nat.pow 2 59)
include hp

theorem startIndex_succ : startIndex (p + 1) = 15 * p + 1 := by
  have h59 : Nat.pow 2 59 = 576460752303423488 := by decide
  have h64 : Nat.pow 2 64 = 18446744073709551616 := by decide
  have hsimp : ((p : Int) + 1 - 1) * 15 + 1 = 15 * p + 1 := by omega
  rw [startIndex, hsimp, Int.bmod_eq_of_le_mul_two] <;> omega

theorem filledPage_succ (sounds : List Bytes) :
    filledPage sounds (p + 1) = some (fill {} (sounds.drop (15 * p))) := by
  have hstart := startIndex_succ hp
  have hint : IsInteger (p + 1) := isInteger_of_le (n := p + 1) hp
  have hdrop : ((15 * p : Int) + 1 - 1).toNat = 15 * p := by omega
  rw [filledPage_of_pos hint (by omega), hstart, hdrop]

theorem entries_succ (sounds : List Bytes) :
    entries sounds (p + 1) = List.range' (15 * p) (taken (sounds.drop (15 * p))) := by
  have hdrop : ((15 * p : Int) + 1 - 1).toNat = 15 * p := by omega
  rw [entries, filledPage_succ hp, startIndex_succ hp, hdrop]
  rfl

theorem announced_succ (sounds : List Bytes) :
    (announced sounds (p + 1)).getD 1 =
      pagesFor sounds.length (taken (sounds.drop (15 * p))) := by
  have hle : (fill {} (sounds.drop (15 * p))).soundsAdded ≤ sounds.length :=
    (taken_le (sounds.drop (15 * p))).trans (by simp)
  have hcount := (Page.Counted.new.fill (sounds.drop (15 * p))).1.soundsAdded
  rw [announced, filledPage_succ hp, taken]
  generalize fill {} (sounds.drop (15 * p)) = filled at hle hcount
  dsimp only
  by_cases hnil : filled.pageSounds = []
  · rw [if_pos hnil, hcount, hnil]
    rfl
  · have hpages := pagesFor_pos hle
    have hne : filled.soundsAdded ≠ 0 := by
      rw [hcount]
      exact List.length_eq_zero_iff.not.mpr hnil
    rw [pagesFor, if_neg hne] at hpages ⊢
    rw [if_neg hnil]
    split
    · rfl
    · rw [Option.getD_none]
      omega

/-- The reply to a page lists its entries. -/
theorem listSounds_succ (sounds : List Bytes) :
    listSounds sounds (p + 1) =
      ⟨[.reply (pageReply sounds (p + 1) (entries sounds (p + 1))
        (announced sounds (p + 1)))], false⟩ := by
  have hnames : (entries sounds (p + 1)).map (fun i ↦ sounds.getD i []) =
      (fill {} (sounds.drop (15 * p))).pageSounds := by
    rw [entries_succ hp, map_getD_range' (taken_le _), (fill_spec _).1]
  have hempty : entries sounds (p + 1) = [] ↔
      (fill {} (sounds.drop (15 * p))).pageSounds = [] := by
    rw [← hnames, List.map_eq_nil_iff]
  unfold pageReply
  by_cases hnil : sounds = []
  · rw [listSounds, if_pos hnil, if_pos hnil]
  rw [if_neg hnil]
  split_ifs with hshown
  · exact listSounds_of_empty hnil (filledPage_succ hp sounds) (hempty.mp hshown)
  · rw [hnames, listSounds_of_filled hnil (filledPage_succ hp sounds) (hempty.not.mp hshown)]

end

/-- There are no more pages than sounds, so their indices do not wrap around. -/
theorem lt_of_lt_announced (sounds : SoundList) {p : Nat}
    (hp : p < (announced sounds.names 1).getD 1) : p < Nat.pow 2 59 := by
  cases h : announced sounds.names 1 with
  | none =>
      rw [h, Option.getD_none] at hp
      exact hp.trans (by decide)
  | some totalPages =>
      rw [h, Option.getD_some] at hp
      exact (hp.trans_le (announced_le h)).trans sounds.size_lt

/-- A page takes all of the names if they fit. -/
theorem taken_eq_length_iff (names : List Bytes) : taken names = names.length ↔ Fits names := by
  rw [(fill_spec names).2.eq_iff Fits.of_append]
  constructor
  · intro h
    simpa using h.enough
  · intro h
    exact ⟨le_rfl, by simpa using h, fun hlt ↦ absurd hlt (lt_irrefl _)⟩

/-- **Which lists are partitioned by their pages.**  Let `T` be the number of pages
that the first page announces.  The replies to the pages from 1 to `T` list the entries
of these pages, and announce what is announced.  They show every sound once, in the
order of the list, and all announce `T`, exactly if everything fits on one page, or
there are `15 * T` sounds of which every page holds 15, no more and no less. -/
theorem pages_partition_iff (sounds : SoundList) :
    (∀ p : Nat, p < (announced sounds.names 1).getD 1 →
      listSounds sounds.names (p + 1) =
        ⟨[.reply (pageReply sounds.names (p + 1) (entries sounds.names (p + 1))
          (announced sounds.names (p + 1)))], false⟩) ∧
    (((List.range ((announced sounds.names 1).getD 1)).flatMap
          (fun p : Nat ↦ entries sounds.names (p + 1)) = List.range sounds.names.length ∧
      ∀ p < (announced sounds.names 1).getD 1,
        (announced sounds.names (p + 1)).getD 1 = (announced sounds.names 1).getD 1) ↔
      (Fits sounds.names ∨
        ∃ T, 2 ≤ T ∧ sounds.names.length = 15 * T ∧
          ∀ p < T, Fits ((sounds.names.drop (15 * p)).take 15) ∧
            (p + 1 < T → ¬ Fits ((sounds.names.drop (15 * p)).take 16)))) := by
  refine ⟨fun p hp ↦ listSounds_succ (lt_of_lt_announced sounds hp) sounds.names, ?_⟩
  obtain ⟨names, hsize⟩ := sounds
  dsimp only
  have hfirst : taken (names.drop (15 * 0)) ≤ names.length := by simpa using taken_le names
  have hT : (announced names 1).getD 1 = pagesFor names.length (taken (names.drop (15 * 0))) :=
    announced_succ (p := 0) (by decide) names
  have hsmall : ∀ p < (announced names 1).getD 1, p < Nat.pow 2 59 := fun p hp ↦
    lt_of_lt_announced ⟨names, hsize⟩ hp
  have hentries : (List.range ((announced names 1).getD 1)).flatMap
        (fun p : Nat ↦ entries names (p + 1)) =
      (List.range ((announced names 1).getD 1)).flatMap
        (fun p ↦ List.range' (15 * p) (taken (names.drop (15 * p)))) :=
    List.flatMap_congr fun p hp ↦ entries_succ (hsmall p (List.mem_range.mp hp)) names
  have htotal : (∀ p < (announced names 1).getD 1,
        (announced names (p + 1)).getD 1 = (announced names 1).getD 1) ↔
      ∀ p < (announced names 1).getD 1,
        pagesFor names.length (taken (names.drop (15 * p))) = (announced names 1).getD 1 :=
    forall₂_congr fun p hp ↦ by rw [announced_succ (hsmall p hp)]
  rw [hentries, htotal, hT, tiles_iff (by decide) hfirst, Nat.mul_zero, List.drop_zero,
    taken_eq_length_iff]
  refine or_congr_right (exists_congr fun T ↦ and_congr_right fun _ ↦ and_congr_right fun hN ↦ ?_)
  refine forall₂_congr fun p hp ↦ ?_
  have hrest : (names.drop (15 * p)).length = 15 * (T - p) := by
    rw [List.length_drop, hN, Nat.mul_sub]
  rw [(fill_spec _).2.eq_iff Fits.of_append]
  constructor
  · intro h
    exact ⟨h.enough, fun hlt ↦ h.stuck (by omega)⟩
  · rintro ⟨henough, hstuck⟩
    exact ⟨by omega, henough, fun hlt ↦ hstuck (by omega)⟩

/-- Twenty names of 25 letters. -/
def twentyNames : List Bytes :=
  (List.range 20).map fun i ↦ List.replicate 24 (byte 'a') ++ [byte 'a' + UInt8.ofNat i]

/-- Page 1 of these shows the first sixteen, and announces two pages.  Page 2 shows
the sixteenth sound again, and announces four. -/
theorem twentyNames_overlap :
    entries twentyNames 1 = List.range 16 ∧ announced twentyNames 1 = some 2 ∧
      entries twentyNames 2 = List.range' 15 5 ∧ announced twentyNames 2 = some 4 ∧
      (List.range 2).flatMap (fun p : Nat ↦ entries twentyNames (p + 1)) ≠
        List.range twentyNames.length := by
  decide

end Seraphbot.Sfx
