import Seraphbot.Audio.Lookup
import Seraphbot.Core.Tokenize

/-!
# The script `sfx.lua`

The model of the `execute` function of `commands/sfx.lua`, and what becomes of a
chat message that asks for a sound by its name.

Reading a numeral is left to Lua: `tonumber` is a parameter, of which only
integers are represented.  Lua's own integers have 64 bits and wrap around; an
integer numeral that does not fit is a float.  Indexing the list of sounds outside
of its bounds gives `nil`, on which the script raises an error.

A request goes a long way: the name that was listed is quoted and sent, taken
apart by the tokenizer, put into lower case by the script, and looked for with
the supported extensions.  `requested_iff` says for which names the right file is
played in the end.
-/

namespace Seraphbot.Sfx

/-! ## The script -/

/-- What the script does through its context. -/
inductive Effect where
  | reply (text : Bytes)
  | playSound (filepath : Path) (volume : Int)
deriving DecidableEq

/-- A call of the script. -/
structure Run where
  effects : List Effect
  /-- The script raised an error. -/
  failed : Bool := false
deriving DecidableEq

def soundDir : Path := bytes "sounds"

/-- A number in a text. -/
def decimal (n : Int) : Bytes := bytes (toString n)

/-- Is the number an integer of Lua? -/
def IsInteger (n : Int) : Prop := -(Nat.pow 2 63 : Nat) ≤ n ∧ n < (Nat.pow 2 63 : Nat)

instance (n : Int) : Decidable (IsInteger n) := inferInstanceAs (Decidable (_ ∧ _))

/-- How often `unit` goes into `n`, to the nearest integer, and to the even one
between two. -/
def nearest (n unit : Nat) : Nat :=
  if 2 * (n % unit) < unit ∨ 2 * (n % unit) = unit ∧ n / unit % 2 = 0 then n / unit
  else n / unit + 1

/-- The float that a numeral too large for an integer stands for: the nearest
number with a mantissa of 53 bits. -/
def toFloat (n : Nat) : Nat :=
  nearest n (Nat.pow 2 (Nat.log2 n - 52)) * Nat.pow 2 (Nat.log2 n - 52)

/-- A large float in a text, as `%.14g` prints it. -/
def floatText (x : Nat) : Bytes :=
  if Nat.pow 2 1024 ≤ x then bytes "inf"
  else
    let exponent := (Nat.repr x).length - 1
    let rounded := nearest x (Nat.pow 10 (exponent - 13))
    -- rounding up 99…9 gives one digit more
    let carry := if rounded = Nat.pow 10 14 then 1 else 0
    let digits := ((Nat.repr rounded).toList.reverse.dropWhile (· = '0')).reverse
    bytes (String.ofList (digits.take 1)) ++
      (if digits.length > 1 then bytes "." ++ bytes (String.ofList (digits.drop 1)) else []) ++
      bytes "e+" ++ decimal (exponent + carry : Nat)

/-- A number in a text, be it an integer or not. -/
def numberText (n : Int) : Bytes :=
  if IsInteger n then decimal n
  else (if n < 0 then bytes "-" else []) ++ floatText (toFloat n.natAbs)

/-- The variables of the loop that fills a page. -/
structure Page where
  pageSounds : List Bytes := []
  currentLength : Nat := (bytes "Available sounds: ").length
  soundsAdded : Nat := 0
deriving DecidableEq

/-- `sounds[i]`, where counting starts at 1 and `none` is `nil`. -/
def soundAt (sounds : List Bytes) (i : Int) : Option Bytes :=
  if i < 1 then none else sounds[(i - 1).toNat]?

/-- The loop `for i = i, #sounds`, with `n` rounds to go: add sounds as long as
the reply stays short enough.  The result is `none` when the length of `nil` is
asked for. -/
def fillPage (sounds : List Bytes) : Nat → Int → Page → Option Page
  | 0, _, page => some page
  | n + 1, i, page =>
      match soundAt sounds i with
      | none => none
      | some soundName =>
          let testAddition :=
            if page.soundsAdded > 0 then bytes ", " ++ soundName else soundName
          if page.currentLength + testAddition.length > 450 then some page
          else fillPage sounds n (i + 1)
            { pageSounds := page.pageSounds ++ [soundName]
              currentLength := page.currentLength + testAddition.length
              soundsAdded := page.soundsAdded + 1 }

/-- Where a page starts, in 64-bit arithmetic. -/
def startIndex (page : Int) : Int := Int.bmod ((page - 1) * 15 + 1) (Nat.pow 2 64)

/-- The loop with the number of a page.  If that is a float, so is the index: it is
below every index of the list, or beyond its end. -/
def filledPage (sounds : List Bytes) (page : Int) : Option Page :=
  if IsInteger page then
    fillPage sounds (sounds.length - startIndex page + 1).toNat (startIndex page) {}
  else if page < 0 then none
  else some {}

/-- The reply to `!sfx list` with the number of a page. -/
def listSounds (sounds : List Bytes) (page : Int) : Run :=
  if sounds = [] then ⟨[.reply (bytes "No sounds found in directory: " ++ soundDir)], false⟩
  else
    match filledPage sounds page with
    | none => ⟨[], true⟩
    | some filled =>
        if filled.pageSounds = [] then
          ⟨[.reply (bytes "Page " ++ numberText page ++
            bytes " is empty. Try a lower page number.")], false⟩
        else
          let response := bytes "Available sounds: " ++
            (bytes ", ").intercalate filled.pageSounds
          let totalPages := (sounds.length + filled.soundsAdded - 1) / filled.soundsAdded
          ⟨[.reply (if totalPages > 1 then
            response ++ bytes " (Page " ++ numberText page ++ bytes "/" ++ decimal totalPages ++
              bytes ")"
            else response)], false⟩

variable (tonumber : Bytes → Option Int)

/-- The volume that the second argument asks for, 70 if there is none. -/
def volumeOf (rest : List Bytes) : Int :=
  match rest with
  | [] => 70
  | arg :: _ =>
      match tonumber arg with
      | none => 70
      | some n => max 0 (min 100 n)

variable (disk : Storage) (a : AudioSystem)

/-- A call in which the audio system throws.  The exception becomes an error of the
script. -/
def thrown : Run := ⟨[], true⟩

/-- Play a file, and say in the chat whether it plays. -/
def playAndReply (filepath : Path) (volume : Int) (ok failed : Bytes) : Run :=
  match (a.playSound disk filepath volume).result with
  | none => ⟨[.playSound filepath volume], true⟩
  | some plays =>
      ⟨[.playSound filepath volume, .reply (if plays then ok else failed)], false⟩

/-- The sound that `math.random` draws from a list that is not empty; `draw` is
the reading of the generator. -/
def drawn (sounds : List Bytes) (draw : Nat) : Bytes :=
  (sounds[draw % sounds.length]?).getD []

/-- `!sfx random`. -/
def playRandom (draw : Nat) (rest : List Bytes) : Run :=
  match a.listAudioFiles disk soundDir with
  | none => thrown
  | some sounds =>
      if sounds = [] then ⟨[.reply (bytes "No sounds available for random selection")], false⟩
      else
        let randomSound := drawn sounds draw
        match a.findAudioFile disk randomSound soundDir with
        | none => thrown
        | some filepath =>
            if filepath ≠ [] then
              playAndReply disk a filepath (volumeOf tonumber rest)
                (bytes "Random sound: " ++ randomSound)
                (bytes "Failed to play random sound: " ++ randomSound)
            else ⟨[.reply (bytes "Could not find random sound file")], false⟩

/-- Play the sound with the given name. -/
def playNamed (soundName : Bytes) (rest : List Bytes) : Run :=
  match a.findAudioFile disk soundName soundDir with
  | none => thrown
  | some filepath =>
      if filepath = [] then
        ⟨[.reply (bytes "Sound '" ++ soundName ++ bytes "' not found. Try !sfx list")], false⟩
      else
        playAndReply disk a filepath (volumeOf tonumber rest) soundName
          (bytes "Failed to play sound: " ++ soundName)

/-- The `execute` function. -/
def execute (draw : Nat) (args : List Bytes) : Run :=
  match args with
  | [] => ⟨[.reply (bytes "Usage: !sfx <sound> | !sfx list | !sfx random")], false⟩
  | first :: rest =>
      let command := lower first
      if command = bytes "list" then
        let page := match rest with
          | [] => 1
          | arg :: _ => (tonumber arg).getD 1
        match a.listAudioFiles disk soundDir with
        | none => thrown
        | some sounds => listSounds sounds page
      else if command = bytes "random" then playRandom tonumber disk a draw rest
      else playNamed tonumber disk a command rest

/-! ## Asking for a sound by name -/

open CommandParser

/-- What a chat message makes the scripts do that the parser knows, when their
handlers admit the call. -/
def onMessage (parser : CommandParser (List Bytes → Run)) (message : ChatMessage) : List Effect :=
  (parseAndExecute (fun s ↦ s.1)
    (fun script ctx s ↦ (.returned, s.1, s.2 ++ (script ctx.args).effects)) message
    (parser, ([] : List Effect))).2.2

/-- `!sfx`, and a name between double quotes. -/
def request (name : Bytes) : Bytes := bytes "!sfx " ++ quote name

/-- The message makes the script play a file of the directory of sounds with the
given stem. -/
def Plays (disk : Storage) (parser : CommandParser (List Bytes → Run)) (message : ChatMessage)
    (name : Bytes) : Prop :=
  ∃ p volume, Effect.playSound p volume ∈ onMessage parser message ∧
    AudioSystem.IsSoundFile disk soundDir name p

variable {tonumber disk a}

/-- The script is called with the name as its only argument. -/
theorem onMessage_request {parser : CommandParser (List Bytes → Run)} {script : List Bytes → Run}
    (hmark : parser.mPrefix = bytes "!") (hsfx : parser.find (bytes "sfx") = some script)
    {message : ChatMessage} {name : Bytes} (hname : name ≠ [])
    (htext : message.text = request name) : onMessage parser message = (script [name]).effects := by
  have htok : tokenize (bytes "sfx " ++ quote name) = [bytes "sfx", name] := by
    have h := tokenize_word_quote (w := bytes "sfx") (by decide) (by decide) name
    rwa [word, if_neg (by decide), word, if_neg hname] at h
  have hcmd : parser.parseCommand message.text = (bytes "sfx", [name]) := by
    have hbang : request name = byte '!' :: (bytes "sfx " ++ quote name) := rfl
    rw [htext, hbang, parseCommand_cons parser hmark, if_pos rfl, htok]
  have hne : bytes "sfx" ≠ [] := by decide
  unfold onMessage
  rw [parseAndExecute_eq, hcmd]
  simp [hne, hsfx]

/-- The player is asked once for what is found, whether or not it plays. -/
theorem mem_playFound {found : Option Bytes} {p : Path} {volume volume' : Int}
    {missing ok failed : Bytes} :
    Effect.playSound p volume ∈ (match found with
      | none => thrown
      | some filepath =>
          if filepath = [] then ⟨[.reply missing], false⟩
          else playAndReply disk a filepath volume' ok failed : Run).effects ↔
      found = some p ∧ p ≠ [] ∧ volume = volume' := by
  cases found with
  | none => simp [thrown]
  | some filepath =>
      by_cases h : filepath = []
      · subst h
        refine iff_of_false (by simp) ?_
        rintro ⟨⟨⟩, hp, -⟩
        exact hp rfl
      · have hplay : Effect.playSound p volume ∈
            (playAndReply disk a filepath volume' ok failed).effects ↔
              p = filepath ∧ volume = volume' := by
          unfold playAndReply
          split <;> simp
        simp only [h, if_false, hplay, Option.some.injEq]
        constructor
        · rintro ⟨rfl, hvolume⟩
          exact ⟨rfl, h, hvolume⟩
        · rintro ⟨rfl, -, hvolume⟩
          exact ⟨rfl, hvolume⟩

/-- The script plays what is found under a name. -/
theorem mem_playNamed {soundName : Bytes} {rest : List Bytes} {p : Path} {volume : Int} :
    Effect.playSound p volume ∈ (playNamed tonumber disk a soundName rest).effects ↔
      a.findAudioFile disk soundName soundDir = some p ∧ p ≠ [] ∧
        volume = volumeOf tonumber rest :=
  mem_playFound

/-- The script plays what is found under the name that is drawn. -/
theorem mem_playRandom {sounds : List Bytes}
    (hsounds : a.listAudioFiles disk soundDir = some sounds) (hne : sounds ≠ []) {draw : Nat}
    {rest : List Bytes} {p : Path} {volume : Int} :
    Effect.playSound p volume ∈ (playRandom tonumber disk a draw rest).effects ↔
      a.findAudioFile disk (drawn sounds draw) soundDir = some p ∧ p ≠ [] ∧
        volume = volumeOf tonumber rest := by
  unfold playRandom
  simp only [hsounds, hne, if_false, ne_eq, ite_not]
  exact mem_playFound

/-- Listing the sounds plays none. -/
theorem notMem_listSounds {sounds : List Bytes} {page : Int} {p : Path} {volume : Int} :
    Effect.playSound p volume ∉ (listSounds sounds page).effects := by
  fun_cases listSounds sounds page <;> simp

theorem drawn_mem {sounds : List Bytes} (h : sounds ≠ []) (draw : Nat) :
    drawn sounds draw ∈ sounds := by
  have hlt : draw % sounds.length < sounds.length :=
    Nat.mod_lt _ (List.length_pos_iff.mpr h)
  rw [drawn, List.getElem?_eq_getElem hlt, Option.getD_some]
  exact List.getElem_mem hlt

/-- The sound that is found under a name has it as its stem, and no other. -/
theorem exists_find_isSoundFile_iff {soundName name : Bytes} (hne : soundName ≠ [])
    (hsep : byte '/' ∉ soundName) (hnul : 0 ∉ soundName) :
    (∃ p, (a.findAudioFile disk soundName soundDir = some p ∧ p ≠ []) ∧
        AudioSystem.IsSoundFile disk soundDir name p) ↔
      AudioSystem.Finds disk a soundDir name ∧ soundName = name := by
  constructor
  · rintro ⟨p, ⟨hfind, hp⟩, hfile⟩
    have hself := AudioSystem.isSoundFile_of_find hne hsep hnul hfind hp
    obtain rfl : soundName = name := hself.2.1.symm.trans hfile.2.1
    exact ⟨⟨p, hfind, hp⟩, rfl⟩
  · rintro ⟨⟨p, hfind, hp⟩, rfl⟩
    exact ⟨p, ⟨hfind, hp⟩, AudioSystem.isSoundFile_of_find hne hsep hnul hfind hp⟩

/-- What is played when a sound is asked for by name. -/
theorem exists_mem_playNamed_iff {soundName name : Bytes} (hne : soundName ≠ [])
    (hsep : byte '/' ∉ soundName) (hnul : 0 ∉ soundName) {rest : List Bytes} :
    (∃ p volume, Effect.playSound p volume ∈ (playNamed tonumber disk a soundName rest).effects ∧
        AudioSystem.IsSoundFile disk soundDir name p) ↔
      AudioSystem.Finds disk a soundDir name ∧ soundName = name := by
  rw [← exists_find_isSoundFile_iff hne hsep hnul]
  refine exists_congr fun p ↦ ?_
  simp only [mem_playNamed, ← and_assoc]
  simp

/-- What is played when a sound is drawn. -/
theorem exists_mem_playRandom_iff {sounds : List Bytes}
    (hsounds : a.listAudioFiles disk soundDir = some sounds) (hnil : sounds ≠ []) {draw : Nat}
    {name : Bytes} {rest : List Bytes} :
    (∃ p volume, Effect.playSound p volume ∈ (playRandom tonumber disk a draw rest).effects ∧
        AudioSystem.IsSoundFile disk soundDir name p) ↔
      AudioSystem.Finds disk a soundDir name ∧ drawn sounds draw = name := by
  obtain ⟨hne, hsep, hnul⟩ :=
    AudioSystem.name_of_lists ⟨sounds, hsounds, drawn_mem hnil draw⟩
  rw [← exists_find_isSoundFile_iff hne hsep hnul]
  refine exists_congr fun p ↦ ?_
  simp only [mem_playRandom hsounds hnil, ← and_assoc]
  simp

/-- **Which sounds can be requested.**  Let a name be listed for the directory of
sounds that is neither `list` nor `random`.  Asking for it plays a file of the
directory with exactly this stem if and only if there is one with a supported
extension in lower case, looking for the others does not throw, and the name is in
lower case itself; the only other way is a name that lowers to `random`, when the sound
that is drawn happens to be the one that was asked for. -/
theorem requested_iff {parser : CommandParser (List Bytes → Run)} {draw : Nat}
    (hmark : parser.mPrefix = bytes "!")
    (hsfx : parser.find (bytes "sfx") = some (execute tonumber disk a draw))
    {message : ChatMessage} {name : Bytes} (htext : message.text = request name)
    {sounds : List Bytes} (hsounds : a.listAudioFiles disk soundDir = some sounds)
    (hmem : name ∈ sounds) (hlist : name ≠ bytes "list") (hrandom : name ≠ bytes "random") :
    Plays disk parser message name ↔
      (∃ ext ∈ AudioSystem.getSupportedExtensions,
        disk.status (Path.join soundDir (name ++ ext)) = some .regular) ∧
      (∀ ext ∈ AudioSystem.getSupportedExtensions,
        disk.status (Path.join soundDir (name ++ ext)) ≠ none) ∧
      (lower name = name ∨ lower name = bytes "random" ∧ drawn sounds draw = name) := by
  obtain ⟨hallowed, hdir, -⟩ := AudioSystem.mem_listAudioFiles.mp ⟨sounds, hsounds, hmem⟩
  obtain ⟨hne, hsep, hnul⟩ := AudioSystem.name_of_lists ⟨sounds, hsounds, hmem⟩
  have hthere : disk.isThere soundDir = some true := by simp [Storage.isThere, hdir]
  have hfind : AudioSystem.Finds disk a soundDir name ↔
      (∃ ext ∈ AudioSystem.getSupportedExtensions,
        disk.status (Path.join soundDir (name ++ ext)) = some .regular) ∧
      ∀ ext ∈ AudioSystem.getSupportedExtensions,
        disk.status (Path.join soundDir (name ++ ext)) ≠ none := by
    rw [AudioSystem.Finds, AudioSystem.exists_findAudioFile_iff]
    exact ⟨fun h ↦ ⟨h.2.regular, h.2.asks⟩, fun h ↦ ⟨hallowed, hthere, h.2, h.1⟩⟩
  rw [← and_assoc, ← hfind, Plays, onMessage_request hmark hsfx hne htext]
  unfold execute
  dsimp only
  by_cases hl : lower name = bytes "list"
  · -- only `list` itself is its own lower case
    have hself : lower name ≠ name := fun h ↦ hlist (h.symm.trans hl)
    have hother : lower name ≠ bytes "random" := by
      rw [hl]
      decide
    rw [if_pos hl, hsounds]
    constructor
    · rintro ⟨p, volume, hplay, -⟩
      exact absurd hplay notMem_listSounds
    · rintro ⟨-, hlow | ⟨hran, -⟩⟩
      · exact absurd hlow hself
      · exact absurd hran hother
  rw [if_neg hl]
  by_cases hr : lower name = bytes "random"
  · rw [if_pos hr, exists_mem_playRandom_iff hsounds (List.ne_nil_of_mem hmem)]
    simp [hr, hrandom.symm]
  · have hne' : lower name ≠ [] := fun h ↦ hne (lower_eq_nil.mp h)
    have hsep' : byte '/' ∉ lower name := fun h ↦ hsep (mem_of_mem_lower (by decide) h)
    have hnul' : 0 ∉ lower name := fun h ↦ hnul (mem_of_mem_lower (by decide) h)
    rw [if_neg hr, exists_mem_playNamed_iff hne' hsep' hnul']
    simp [hr]

/-- A parser that knows the script, which finds one sound. -/
def sfxParser (file : Bytes) : CommandParser (List Bytes → Run) :=
  CommandParser.new.registerCommand (bytes "sfx")
    (some (execute (fun _ ↦ none) (AudioSystem.oneSound file)
      (AudioSystem.fresh (AudioSystem.oneSound file)) 0))

/-- A message of somebody who asks for a sound. -/
def asksFor (name : Bytes) : ChatMessage := ⟨bytes "alice", request name, bytes "#FFFFFF", []⟩

/-- A sound with a name in lower case is played. -/
theorem plays_boom :
    Plays (AudioSystem.oneSound (bytes "boom.mp3")) (sfxParser (bytes "boom.mp3"))
      (asksFor (bytes "boom")) (bytes "boom") :=
  have hsounds : (AudioSystem.fresh (AudioSystem.oneSound (bytes "boom.mp3"))).listAudioFiles
      (AudioSystem.oneSound (bytes "boom.mp3")) soundDir = some [bytes "boom"] := by decide
  (requested_iff rfl rfl rfl hsounds (by decide) (by decide) (by decide)).mpr
    ⟨⟨bytes ".mp3", by decide, by decide⟩, by decide, .inl (by decide)⟩

/-- A sound with a name in upper and lower case is listed, and cannot be
requested. -/
theorem not_plays_airhorn :
    (AudioSystem.fresh (AudioSystem.oneSound (bytes "Airhorn.mp3"))).listAudioFiles
      (AudioSystem.oneSound (bytes "Airhorn.mp3")) soundDir = some [bytes "Airhorn"] ∧
    ¬ Plays (AudioSystem.oneSound (bytes "Airhorn.mp3")) (sfxParser (bytes "Airhorn.mp3"))
      (asksFor (bytes "Airhorn")) (bytes "Airhorn") := by
  refine ⟨by decide, ?_⟩
  rintro ⟨p, volume, hplay, -⟩
  have hreply : onMessage (sfxParser (bytes "Airhorn.mp3")) (asksFor (bytes "Airhorn")) =
      [.reply (bytes "Sound 'airhorn' not found. Try !sfx list")] := by decide
  rw [hreply] at hplay
  simp at hplay

end Seraphbot.Sfx
