import Seraphbot.App.Bot

/-!
# Reloading files that have not changed

The table of files belongs, key by key, to the latest file that asked for the
key.  The scan of the directory and a reload visit the files in different orders,
and a reload visits a file once for each key it owns, so a reload of unchanged
files can hand a contested key to another file.

Whether it can is a matter of the files alone.  If those that own a key are
`Separate`, the order of the visits does not matter and a reload changes nothing;
if they are not, two orders of the same table can be chosen under which the
contested name ends up with different files.  `unchanged_iff_separate` states
both directions.
-/

namespace Seraphbot

/-- The file whose function a handler calls. -/
def Handler.source : Handler → Option Path
  | .lua execute _ => some execute.source
  | .reload | .commands => none

namespace Bot

open LuaCommandEngine

variable (sol : Sol) (fs : FileSystem)

/-- The file whose function a chat name is dispatched to. -/
def luaFile (p : CommandParser Handler) (c : Bytes) : Option Path := (p.find c).bind Handler.source

/-- Both tables of the engine, and the file behind every name that is not
native, are the same in `b'` as in `b`. -/
structure Unchanged (b b' : Bot) : Prop where
  commandFiles : ∀ k, b'.engine.commandFiles.lookup k = b.engine.commandFiles.lookup k
  commandMetadata : ∀ k,
    b'.engine.commandMetadata.lookup k = b.engine.commandMetadata.lookup k
  dispatch : ∀ c, isNative c = false → luaFile b'.parser c = luaFile b.parser c

/-- Two different files that own a key ask for different keys.  When both have a
function to register, their keys also differ by more than letter case, except
where a key is never dispatched to a script: the empty one and the native
names. -/
def Separate (e : LuaCommandEngine) : Prop :=
  ∀ f g, e.commandFiles.Owns f → e.commandFiles.Owns g → f ≠ g →
    ∀ k ∈ namesOf sol fs f, ∀ k' ∈ namesOf sol fs g, k ≠ k' ∧
      (k ≠ [] → isNative k = false → (executeOf sol fs f).isSome = true →
        (executeOf sol fs g).isSome = true → lower k ≠ lower k')

theorem isNative_congr {c c' : Bytes} (h : lower c = lower c') : isNative c = isNative c' := by
  simp only [isNative, h]

/-! ## The tables after the start -/

section

variable (listing : Option (List DirectoryEntry)) (t : Traversal Bytes Path)

@[simp] theorem boot_fs : (boot sol fs listing t).fs = fs := rfl

theorem lookup_commandFiles_boot (k : Bytes) :
    (boot sol fs listing t).engine.commandFiles.lookup k =
      ownerIn sol fs (bootFiles listing) k := by
  rw [boot_engine, lookup_commandFiles_loadAll sol fs rfl]
  exact Option.or_none

theorem lookup_commandMetadata_boot (k : Bytes) :
    (boot sol fs listing t).engine.commandMetadata.lookup k =
      (ownerIn sol fs (bootFiles listing) k).bind (metadataOf sol fs) := by
  rw [boot_engine, lookup_commandMetadata_loadAll sol fs rfl]
  exact Option.or_none

variable {sol fs listing t}

/-- A key belongs to a file that asks for it. -/
theorem mem_namesOf_of_lookup_boot {k : Bytes} {path : Path}
    (h : (boot sol fs listing t).engine.commandFiles.lookup k = some path) :
    k ∈ namesOf sol fs path := by
  rw [lookup_commandFiles_boot] at h
  simpa using latest_sat h

/-- A key that a file with a key asks for belongs to some file. -/
theorem exists_lookup_boot {k : Bytes} {path : Path}
    (hown : (boot sol fs listing t).engine.commandFiles.Owns path)
    (hk : k ∈ namesOf sol fs path) :
    ∃ other, (boot sol fs listing t).engine.commandFiles.lookup k = some other := by
  obtain ⟨k', hk'⟩ := hown
  rw [lookup_commandFiles_boot] at hk' ⊢
  exact exists_latest (latest_mem hk') (by simpa using hk)

end

/-! ## The file behind a name -/

/-- The handler of an entry that is registered calls the function of its file. -/
theorem source_latest_registers (c : Bytes) (l : List (Sigma fun _ : Bytes ↦ Path)) :
    ((latest (registers sol fs c) l).bind (handlerOf sol fs)).bind Handler.source =
      (latest (registers sol fs c) l).map Sigma.snd := by
  cases h : latest (registers sol fs c) l with
  | none => rfl
  | some entry =>
      have hsat := latest_sat h
      simp only [registers, Bool.and_eq_true] at hsat
      obtain ⟨proto, hproto⟩ := Option.isSome_iff_exists.mp hsat.2
      simp [handlerOf, hproto, Handler.source]

/-- Among the names that are not native, the start leaves what the registration
of the Lua commands has put there. -/
theorem luaFile_boot (listing : Option (List DirectoryEntry)) (t : Traversal Bytes Path)
    {c : Bytes} (hc : isNative c = false) :
    luaFile (boot sol fs listing t).parser c =
      (latest (registers sol fs c)
        (t.order (boot sol fs listing t).engine.commandFiles)).map Sigma.snd := by
  simp only [isNative, Bool.or_eq_false_iff, decide_eq_false_iff_not] at hc
  rw [luaFile, find_boot, if_neg hc.2, if_neg hc.1, source_latest_registers]

/-- A reload changes the file behind a name exactly when it registers one. -/
theorem luaFile_reload (env : ChatEnv) {b : Bot} (hb : b.engine.initialized = true) (c : Bytes) :
    luaFile (b.reload sol env).1.parser c =
      ((latest (registers sol b.fs c) (env.registerOrder.order
        (b.reload sol env).1.engine.commandFiles)).map Sigma.snd).or (luaFile b.parser c) := by
  rw [← source_latest_registers, luaFile, parser_find_reload sol env hb]
  cases h : latest (registers sol b.fs c) (env.registerOrder.order
      (b.reload sol env).1.engine.commandFiles) with
  | none => rfl
  | some entry =>
      have hsource := source_latest_registers sol b.fs c (env.registerOrder.order
        (b.reload sol env).1.engine.commandFiles)
      rw [h] at hsource
      cases hh : handlerOf sol b.fs entry with
      | none => simp [hh] at hsource
      | some handler =>
          simp only [Option.bind_some, hh, Option.map_some] at hsource
          simp [hh, hsource]

/-! ## Separate files -/

section

variable {sol fs} {listing : Option (List DirectoryEntry)} {t : Traversal Bytes Path}

/-- With separate files a reload binds every key to the file it belonged to. -/
theorem lookup_reload_of_separate (hsep : Separate sol fs (boot sol fs listing t).engine)
    (env : ChatEnv) (k : Bytes) :
    ((boot sol fs listing t).reload sol env).1.engine.commandFiles.lookup k =
      (boot sol fs listing t).engine.commandFiles.lookup k := by
  refine (lookup_commandFiles_reload sol fs (boot_initialized sol fs listing t)
    env.reloadOrder k).trans ?_
  cases hk : (boot sol fs listing t).engine.commandFiles.lookup k with
  | some f =>
      have hkf := mem_namesOf_of_lookup_boot hk
      refine latest_eq_some_of_forall (mem_visited.mpr ⟨k, hk⟩) (by simpa using hkf) ?_
      intro g hg hkg
      by_contra hne
      exact (hsep f g ⟨k, hk⟩ (mem_visited.mp hg) (Ne.symm hne) k hkf k (by simpa using hkg)).1 rfl
  | none =>
      refine latest_eq_none.mpr ?_
      intro g hg
      by_contra hkg
      obtain ⟨other, hother⟩ := exists_lookup_boot (mem_visited.mp hg) (k := k) (by simpa using hkg)
      rw [hk] at hother
      cases hother

/-- With separate files the entries that can be registered for a name are all of
one file. -/
theorem eq_of_registers (hsep : Separate sol fs (boot sol fs listing t).engine) {c : Bytes}
    (hc : isNative c = false) {entry entry' : Sigma fun _ : Bytes ↦ Path}
    (h : (boot sol fs listing t).engine.commandFiles.lookup entry.1 = some entry.2)
    (h' : (boot sol fs listing t).engine.commandFiles.lookup entry'.1 = some entry'.2)
    (hr : registers sol fs c entry = true) (hr' : registers sol fs c entry' = true) :
    entry'.2 = entry.2 := by
  simp only [registers, Bool.and_eq_true, decide_eq_true_eq] at hr hr'
  by_contra hne
  refine (hsep entry.2 entry'.2 ⟨_, h⟩ ⟨_, h'⟩ (Ne.symm hne) _ (mem_namesOf_of_lookup_boot h) _
    (mem_namesOf_of_lookup_boot h')).2 hr.1.1 ?_ hr.2 hr'.2 (hr.1.2.trans hr'.1.2.symm)
  rw [isNative_congr hr.1.2, hc]

/-- With separate files a reload changes nothing. -/
theorem unchanged_of_separate (hsep : Separate sol fs (boot sol fs listing t).engine)
    (env : ChatEnv) :
    Unchanged (boot sol fs listing t) ((boot sol fs listing t).reload sol env).1 where
  commandFiles := lookup_reload_of_separate hsep env
  commandMetadata k := by
    have hinit := boot_initialized sol fs listing t
    have howner : ownerIn sol fs (visited env.reloadOrder (boot sol fs listing t).engine) k =
        ownerIn sol fs (bootFiles listing) k := by
      rw [← lookup_commandFiles_reload sol fs hinit, ← lookup_commandFiles_boot sol fs listing t]
      exact lookup_reload_of_separate hsep env k
    refine (lookup_commandMetadata_reload sol fs hinit env.reloadOrder k).trans ?_
    rw [howner, lookup_commandMetadata_boot, Option.or_self]
  dispatch c hc := by
    rw [luaFile_reload sol env (boot_initialized sol fs listing t), boot_fs]
    cases h' : latest (registers sol fs c) (env.registerOrder.order
        ((boot sol fs listing t).reload sol env).1.engine.commandFiles) with
    | none => rfl
    | some entry' =>
        -- the entry is in the old table too, where some entry was registered for `c`
        have hmem' := env.registerOrder.mem_order_iff.mp (latest_mem h')
        rw [lookup_reload_of_separate hsep env] at hmem'
        obtain ⟨entry, h⟩ := exists_latest (t.mem_order_iff.mpr hmem') (latest_sat h')
        have hmem := t.mem_order_iff.mp (latest_mem h)
        have hfile := eq_of_registers hsep hc hmem hmem' (latest_sat h) (latest_sat h')
        rw [luaFile_boot sol fs listing t hc, h]
        exact congrArg some hfile

end

/-! ## Files that are not separate -/

section

variable {sol fs} {listing : Option (List DirectoryEntry)}

/-- A reload that visits a file last binds all its keys to it. -/
theorem lookup_reload_last {b : Bot} (hb : b.engine.initialized = true) {env : ChatEnv}
    (entry : Sigma fun _ : Bytes ↦ Path)
    (hentry : b.engine.commandFiles.lookup entry.1 = some entry.2)
    (henv : env.reloadOrder = .last entry) {k : Bytes} (hk : k ∈ namesOf sol b.fs entry.2) :
    (b.reload sol env).1.engine.commandFiles.lookup k = some entry.2 := by
  refine (lookup_commandFiles_reload sol b.fs hb env.reloadOrder k).trans ?_
  rw [ownerIn, visited, latest_map, henv, Traversal.latest_last hentry (by simpa using hk)]
  rfl

/-- A reload that registers an entry last gives its file all the names the entry
can be registered for. -/
theorem luaFile_reload_last {b : Bot} (hb : b.engine.initialized = true) {env : ChatEnv}
    (entry : Sigma fun _ : Bytes ↦ Path)
    (hentry : (b.reload sol env).1.engine.commandFiles.lookup entry.1 = some entry.2)
    (henv : env.registerOrder = .last entry) {c : Bytes} (hr : registers sol b.fs c entry = true) :
    luaFile (b.reload sol env).1.parser c = some entry.2 := by
  rw [luaFile_reload sol env hb, henv, Traversal.latest_last hentry hr]
  rfl

/-- If no reload changes anything, every file that owns a key owns all the keys
it asks for. -/
theorem lookup_boot_of_unchanged {t : Traversal Bytes Path}
    (h : ∀ env, Unchanged (boot sol fs listing t) ((boot sol fs listing t).reload sol env).1)
    {path : Path} (hown : (boot sol fs listing t).engine.commandFiles.Owns path) {k : Bytes}
    (hk : k ∈ namesOf sol fs path) :
    (boot sol fs listing t).engine.commandFiles.lookup k = some path := by
  obtain ⟨k₀, hk₀⟩ := hown
  rw [← (h ⟨0, 0, {}, .last ⟨k₀, path⟩, .stored⟩).commandFiles k]
  exact lookup_reload_last (boot_initialized sol fs listing t) ⟨k₀, path⟩ hk₀ rfl hk

/-- If no reload changes anything, whatever the orders, the files are
separate. -/
theorem separate_of_unchanged
    (h : ∀ t env, Unchanged (boot sol fs listing t) ((boot sol fs listing t).reload sol env).1)
    (t : Traversal Bytes Path) : Separate sol fs (boot sol fs listing t).engine := by
  intro f g hf hg hne k hk k' hk'
  have hkf := lookup_boot_of_unchanged (h t) hf hk
  have hkg := lookup_boot_of_unchanged (h t) hg hk'
  constructor
  · rintro rfl
    exact hne (Option.some.inj (hkf.symm.trans hkg))
  · -- `f` is registered last at the start, and `g` at the reload
    intro hnil hnat hxf hxg heq
    have hrf : registers sol fs k ⟨k, f⟩ = true := by simp [registers, hnil, hxf]
    have hnil' : k' ≠ [] := by
      rintro rfl
      exact hnil (lower_eq_nil.mp heq)
    have hrg : registers sol fs k ⟨k', g⟩ = true := by simp [registers, hnil', heq, hxg]
    have hun := h (.last ⟨k, f⟩) ⟨0, 0, {}, .stored, .last ⟨k', g⟩⟩
    have hkf' : (boot sol fs listing (.last ⟨k, f⟩)).engine.commandFiles.lookup k = some f := hkf
    have hfirst := luaFile_boot sol fs listing (.last ⟨k, f⟩) hnat
    rw [Traversal.latest_last hkf' hrf] at hfirst
    have hsecond := luaFile_reload_last (boot_initialized sol fs listing _) ⟨k', g⟩
      ((hun.commandFiles k').trans hkg) rfl hrg
    rw [hun.dispatch k hnat, hfirst] at hsecond
    exact hne (Option.some.inj hsecond)

end

/-- **When reloading unchanged files changes nothing.**  For every directory, in
whatever order it was listed: a reload right after the start leaves the two
tables and the file behind every Lua name as they were, for every order in which
the table of files can be walked over, if and only if the files that own a key
are separate. -/
theorem unchanged_iff_separate (listing : Option (List DirectoryEntry)) :
    (∀ t env, Unchanged (boot sol fs listing t) ((boot sol fs listing t).reload sol env).1) ↔
      Separate sol fs (loadCommandsFromDirectory sol fs listing (initializeEngine {})).2 := by
  constructor
  · exact fun h ↦ separate_of_unchanged h .stored
  · exact fun hsep t env ↦ unchanged_of_separate (t := t) hsep env

/-- A script with a name and one alias. -/
def aliasLua (commandName other : String) : Script :=
  .returned (.table
    [(bytes "name", .string (bytes commandName)), (bytes "execute", .function 0),
      (bytes "aliases", .table [] [.string (bytes other)])] [])

/-- Two files that share the alias `hey`. -/
def sharedAlias : FileSystem := fun path ↦
  if path = bytes "commands/a.lua" then some (aliasLua "hello" "hey")
  else if path = bytes "commands/b.lua" then some (aliasLua "howdy" "hey")
  else none

/-- The directory lists `b.lua` last, so `hey` is its alias; the reload walks
over the table in the order in which the entries are stored, visits `a.lua` last
and hands it the alias. -/
theorem not_unchanged_sharedAlias :
    ¬ ∀ t env, Unchanged
      (boot Sol.checked sharedAlias
        (some [⟨bytes "commands/a.lua", true⟩, ⟨bytes "commands/b.lua", true⟩]) t)
      ((boot Sol.checked sharedAlias
        (some [⟨bytes "commands/a.lua", true⟩, ⟨bytes "commands/b.lua", true⟩]) t).reload
          Sol.checked env).1 := by
  intro h
  have hhey := (h .stored ⟨0, 0, {}, .stored, .stored⟩).commandFiles (bytes "hey")
  revert hhey
  decide

end Bot

end Seraphbot
