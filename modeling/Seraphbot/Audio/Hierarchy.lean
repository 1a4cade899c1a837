import Mathlib.Data.List.Dedup
import Seraphbot.Audio.Storage

/-!
# Hierarchies of directories

File systems as they are: directories and files that are known by the names that lead
to them from the root, and links in the directories.  `Hierarchy.view` is what
`std::filesystem` shows of them.

A path is followed name by name.  An empty component or a dot leads nowhere, two dots
lead to the parent of the directory they are reached from, through whatever links, and
any other name is looked up.  `tree` is the view of a hierarchy without links.
-/

namespace Seraphbot

/-- A directory or a file, by the names that lead to it from the root without links. -/
abbrev Node := List Bytes

/-- What following a path comes to. -/
inductive Target where
  /-- An error other than that nothing is there. -/
  | fails
  | missing
  | node (n : Node)
deriving DecidableEq

/-- A file system at one moment. -/
structure Hierarchy where
  /-- The current working directory. -/
  cwd : Node
  /-- The directories.  Those above them are there too. -/
  directories : List Node
  /-- The regular files. -/
  files : List Node
  /-- Sockets, devices and the like. -/
  others : List Node := []
  /-- The links in a directory, with what they lead to in the end. -/
  links : Node → List (Bytes × Node) := fun _ ↦ []
  /-- Is it an error to look a name up in a directory?  It is if the name is too long,
  for a start. -/
  fails : Node → Bytes → Bool := fun _ name ↦ name.length > 255

namespace Hierarchy

variable (h : Hierarchy)

def type (n : Node) : FileType :=
  if h.directories.any (n.isPrefixOf ·) then .directory
  else if h.files.contains n then .regular
  else if h.others.contains n then .other
  else .notFound

/-! ## Following a path -/

/-- Look a name up in a directory, and follow it if it is a link. -/
def lookup (n : Node) (name : Bytes) : Target :=
  if h.fails n name then .fails
  else if h.type (n ++ [name]) ≠ .notFound then .node (n ++ [name])
  else match (h.links n).lookup name with
    | none => .missing
    | some target => if h.type target = .notFound then .missing else .node target

/-- One name of a path further.  Nothing is found below a file. -/
def step (n : Node) (name : Bytes) : Target :=
  if h.type n ≠ .directory then .missing
  else if name = bytes ".." then .node n.dropLast
  else h.lookup n name

def walk : Node → List Bytes → Target
  | n, [] => .node n
  | n, name :: names =>
      match h.step n name with
      | .node next => walk next names
      | target => target

/-- Where a path starts. -/
def origin (p : Path) : Node := if Path.isAbsolute p then [] else h.cwd

/-- What a path leads to.  If it ends with a separator or a dot, this must be a
directory. -/
def resolve (p : Path) : Target :=
  let p := cString p
  if p = [] then .missing
  else match h.walk (h.origin p) (Path.names p) with
    | .node n =>
        if (Path.filename p = [] ∨ Path.filename p = bytes ".") ∧ h.type n ≠ .directory then
          .missing
        else .node n
    | target => target

def statusOf : Target → Option FileType
  | .fails => none
  | .missing => some .notFound
  | .node n => some (h.type n)

/-! ## Listing a directory -/

/-- The names in a directory. -/
def children (n : Node) : List Bytes :=
  ((h.directories ++ h.files ++ h.others).filterMap (fun m ↦
      if n.isPrefixOf m then m[n.length]? else none) ++
    (h.links n).map Prod.fst).dedup

/-- An entry of a directory.  The iterator knows the types of all entries but the links,
which are followed. -/
def entry (n : Node) (name : Bytes) : Option (Bytes × FileType) :=
  if h.type (n ++ [name]) ≠ .notFound then some (name, h.type (n ++ [name]))
  else if h.fails n name then none
  else some (name, (((h.links n).lookup name).map h.type).getD .notFound)

/-- The rounds of a loop over a directory, which throws at once if there is none. -/
def entriesOf : Target → List (Option (Bytes × FileType))
  | .node n =>
      if h.type n = .directory then ((h.children n).filter IsName).map (h.entry n) else [none]
  | _ => [none]

/-! ## Canonical paths -/

/-- One name further, where nothing is there. -/
def descend (n : Node) (name : Bytes) : Node :=
  if name = bytes ".." then n.dropLast else n ++ [name]

/-- Follow a path as far as there is something, and write down the rest. -/
def approach : Node → List Bytes → Option Node
  | n, [] => some n
  | n, name :: names =>
      match h.step n name with
      | .node next => approach next names
      | .missing => some ((name :: names).foldl descend n)
      | .fails => none

/-- The path of a node. -/
def render (n : Node) : Path := byte '/' :: [byte '/'].intercalate n

variable {h}

theorem approach_of_walk {n m : Node} {names : List Bytes} (hw : h.walk n names = .node m) :
    h.approach n names = some m := by
  induction names generalizing n with
  | nil =>
      cases hw
      rfl
  | cons name names ih =>
      unfold walk at hw
      unfold approach
      cases hs : h.step n name with
      | node next =>
          rw [hs] at hw
          exact ih hw
      | fails | missing => simp [hs] at hw

theorem walk_append (n : Node) (names names' : List Bytes) :
    h.walk n (names ++ names') =
      match h.walk n names with
      | .node m => h.walk m names'
      | target => target := by
  induction names generalizing n with
  | nil => rfl
  | cons name names ih =>
      rw [List.cons_append, walk, walk]
      cases h.step n name with
      | node next => exact ih next
      | fails | missing => rfl

theorem step_of_isName {n : Node} (hn : h.type n = .directory) {name : Bytes} (hname : IsName name) :
    h.step n name = h.lookup n name := by
  simp [step, hn, hname.2.2.2.2]

/-- Above a directory there is a directory. -/
theorem type_dropLast {n : Node} (hn : h.type n = .directory) :
    h.type n.dropLast = .directory := by
  have hany : h.directories.any (n.isPrefixOf ·) = true := by
    by_contra hno
    unfold type at hn
    rw [if_neg hno] at hn
    split_ifs at hn
  have habove : h.directories.any (n.dropLast.isPrefixOf ·) = true := by
    simp only [List.any_eq_true, List.isPrefixOf_iff_prefix] at hany ⊢
    obtain ⟨d, hd, hpre⟩ := hany
    exact ⟨d, hd, (List.dropLast_prefix n).trans hpre⟩
  rw [type, if_pos habove]

/-- Two dots lead to a directory. -/
theorem type_of_walk_dots {n m : Node} {names : List Bytes}
    (hw : h.walk n (names ++ [bytes ".."]) = .node m) : h.type m = .directory := by
  rw [walk_append] at hw
  cases hk : h.walk n names with
  | fails | missing => simp [hk] at hw
  | node k =>
      rw [hk] at hw
      by_cases hdir : h.type k = .directory
      · simp only [walk, step, hdir, ne_eq, not_true_eq_false, if_false, if_true,
          Target.node.injEq] at hw
        exact hw ▸ type_dropLast hdir
      · simp [walk, step, hdir] at hw

theorem resolve_cString (p : Path) : h.resolve (cString p) = h.resolve p := by
  simp [resolve]

/-- A path whose last component is a name. -/
theorem resolve_of_isName {p : Path} (hp : IsName (Path.filename (cString p))) :
    h.resolve p = h.walk (h.origin (cString p)) (Path.names (cString p)) := by
  have hne : cString p ≠ [] := by
    intro hnil
    rw [hnil] at hp
    exact hp.1 rfl
  unfold resolve
  simp only [hne, if_false, hp.1, hp.2.2.2.1, or_self, false_and]
  cases h.walk (h.origin (cString p)) (Path.names (cString p)) <;> rfl

theorem origin_join (d : Path) {name : Bytes} (hname : byte '/' ∉ name) (hd : d ≠ []) :
    h.origin (Path.join d name) = h.origin d := by
  unfold origin
  rw [Path.isAbsolute_join hd (Path.isAbsolute_eq_false hname)]

/-- A name below a directory is looked up there. -/
theorem resolve_join {d : Path} {n : Node} {name : Bytes} (hd : 0 ∉ d)
    (hres : h.resolve d = .node n) (hn : h.type n = .directory) (hname : IsName name) :
    h.resolve (Path.join d name) = h.lookup n name := by
  have hcut : cString d = d := cString_eq_self_iff.mpr hd
  have hne : d ≠ [] := by
    rintro rfl
    cases hres
  have hfree : 0 ∉ Path.join d name := by
    intro h0
    rcases Path.mem_join h0 with h0 | h0 | h0
    · exact hd h0
    · exact absurd h0 (by decide)
    · exact hname.2.2.1 h0
  have hcut' : cString (Path.join d name) = Path.join d name := cString_eq_self_iff.mpr hfree
  have hfile : Path.filename (Path.join d name) = name := Path.filename_join d hname.2.1
  have hwalk : h.walk (h.origin d) (Path.names d) = .node n := by
    unfold resolve at hres
    rw [hcut] at hres
    simp only [hne, if_false] at hres
    split at hres
    · rename_i m hm
      split at hres
      · cases hres
      · rw [hm, hres]
    · rename_i hno
      exact absurd hres (hno n)
  rw [resolve_of_isName (by rwa [hcut', hfile]), hcut', origin_join d hname.2.1 hne,
    Path.names_join d (Path.isAbsolute_eq_false hname.2.1), Path.names_of_name hname.2.1,
    if_neg (by simp [hname.1, hname.2.2.2.1]), walk_append, hwalk]
  dsimp only
  rw [walk, step_of_isName hn hname]
  cases h.lookup n name with
  | node next => rfl
  | fails | missing => rfl

/-- What is found by a name is in the directory. -/
theorem mem_children {n m : Node} {name : Bytes} (hl : h.lookup n name = .node m) :
    name ∈ h.children n := by
  unfold children
  rw [List.mem_dedup, List.mem_append]
  unfold lookup at hl
  split_ifs at hl with hf hreal
  · -- the name leads on to something real
    refine .inl (List.mem_filterMap.mpr ?_)
    have hbelow : ∃ k ∈ h.directories ++ h.files ++ h.others, n ++ [name] <+: k := by
      unfold type at hreal
      split_ifs at hreal with hd hfile hother
      · obtain ⟨d, hd, hpre⟩ := List.any_eq_true.mp hd
        exact ⟨d, by simp [hd], List.isPrefixOf_iff_prefix.mp hpre⟩
      · exact ⟨n ++ [name], by simp [List.contains_iff_mem.mp hfile], List.prefix_rfl⟩
      · exact ⟨n ++ [name], by simp [List.contains_iff_mem.mp hother], List.prefix_rfl⟩
      · exact absurd rfl hreal
    obtain ⟨k, hk, rest, rfl⟩ := hbelow
    refine ⟨_, hk, ?_⟩
    rw [if_pos (List.isPrefixOf_iff_prefix.mpr ⟨[name] ++ rest, by simp⟩)]
    simp
  · cases hlink : (h.links n).lookup name with
    | none => simp [hlink] at hl
    | some target =>
        obtain ⟨before, after, hlinks, -⟩ := List.lookup_eq_some_iff.mp hlink
        exact .inr (List.mem_map.mpr ⟨(name, target), by simp [hlinks], rfl⟩)

/-- The iterator and a lookup tell the same type, unless the lookup fails. -/
theorem entry_eq {n : Node} {name : Bytes} {t : FileType}
    (hl : h.statusOf (h.lookup n name) = some t) : h.entry n name = some (name, t) := by
  unfold lookup at hl
  unfold entry
  split_ifs at hl with hf hreal
  · cases hl
  · cases hl
    rw [if_pos hreal]
  · rw [if_neg hreal, if_neg hf]
    cases hlink : (h.links n).lookup name with
    | none =>
        rw [hlink] at hl
        cases hl
        rfl
    | some target =>
        rw [hlink] at hl
        dsimp only at hl
        split_ifs at hl with hmissing
        · cases hl
          simp [hmissing]
        · cases hl
          rfl

theorem entriesOf_spec {d : Path} {x : Bytes × FileType}
    (hx : some x ∈ h.entriesOf (h.resolve d)) :
    ∃ n, h.resolve d = .node n ∧ h.type n = .directory ∧ IsName x.1 ∧
      h.entry n x.1 = some x := by
  unfold entriesOf at hx
  split at hx
  · rename_i n hn
    split_ifs at hx with hdir
    · obtain ⟨name, hname, hentry⟩ := List.mem_map.mp hx
      have hfst : x.1 = name := by
        unfold entry at hentry
        split_ifs at hentry <;> cases hentry <;> rfl
      subst hfst
      exact ⟨n, hn, hdir, by simpa using (List.mem_filter.mp hname).2, hentry⟩
    · simp at hx
  · simp at hx

variable (h)

/-- What `std::filesystem` shows of a file system.  Of a path to nothing, the part
that is there is made canonical. -/
def view : Storage where
  status p := h.statusOf (h.resolve p)
  entries d := h.entriesOf (h.resolve d)
  weaklyCanonical p :=
    (h.approach (h.origin (cString p)) (Path.names (cString p))).map render
  status_cString p := by rw [resolve_cString]
  isName_of_mem hx := by
    obtain ⟨n, -, -, hname, -⟩ := entriesOf_spec hx
    exact hname
  mem_of_regular {d name} hdir _ hname hreg := by
    cases hres : h.resolve d with
    | fails | missing => simp [hres, statusOf] at hdir
    | node n =>
        have hn : h.type n = .directory := by simpa [hres, statusOf] using hdir
        have hd : 0 ∉ d := by
          intro h0
          have hcut : cString (Path.join d name) = cString d :=
            Path.cString_join h0 (Path.isAbsolute_eq_false hname.2.1)
          rw [← resolve_cString, hcut, resolve_cString, hdir] at hreg
          cases hreg
        rw [resolve_join hd hres hn hname] at hreg
        have hmem : name ∈ h.children n := by
          cases hl : h.lookup n name with
          | fails | missing => simp [hl, statusOf] at hreg
          | node m => exact mem_children hl
        simp only [entriesOf, hn, if_true]
        exact List.mem_map.mpr ⟨name, List.mem_filter.mpr ⟨hmem, by simpa using hname⟩,
          entry_eq hreg⟩
  type_of_mem {d name t t'} hd hx hstatus := by
    obtain ⟨n, hres, hn, hname, hentry⟩ := entriesOf_spec hx
    rw [resolve_join hd hres hn hname] at hstatus
    rw [entry_eq hstatus] at hentry
    simpa using hentry
  absolute {p q} hq := by
    obtain ⟨n, -, rfl⟩ := Option.map_eq_some_iff.mp hq
    rfl

end Hierarchy

/-- The view of a file system without links, given by its directories and its
regular files. -/
def tree (cwd : Node) (directories files : List Node) : Storage :=
  Hierarchy.view { cwd, directories, files }

end Seraphbot
