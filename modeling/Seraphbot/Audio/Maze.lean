import Seraphbot.Audio.Whitelist

/-!
# A file system in which every name leads away

In the maze, each of the known names is a link in each of the directories, and leads to
the next directory.  The directories lie so deep that two dots do not lead out of them,
and none of them lies below another.  After a number of links there is a file.

So a path that looks up a name, or goes up by two dots, does not end below the directory
where it starts (`walk_start`).
-/

namespace Seraphbot.Maze

/-! ## The maze -/

variable (known : List Bytes) (depth last : ℕ)

/-- More than the length of any of the names. -/
def width : ℕ := known.flatten.length + 1

/-- The `k`-th directory of the maze lies `m` steps below a directory of its own. -/
def place (k m : ℕ) : Node :=
  List.replicate (width known + k) (byte 'a') ::
    List.replicate m (List.replicate (width known) (byte 'o'))

/-- The number of the directory that the links in a directory lead to. -/
def next : Node → ℕ
  | [] => 2
  | top :: _ => top.length - width known + 1

/-- In the maze, the known names are links from one directory to the next, and from the
root to the second.  The last of them leads to a file. -/
def maze : Hierarchy where
  cwd := place known 0 depth
  directories := (place known last depth).dropLast :: (List.range last).map (place known · depth)
  files := [place known last depth]
  links n := known.map fun name ↦ (name, place known (next known n) depth)
  fails _ _ := false

variable {known depth last}

@[simp] theorem next_place (k m : ℕ) : next known (place known k m) = k + 1 := by
  simp [next, place]

theorem length_lt_width {name : Bytes} (h : name ∈ known) : name.length < width known :=
  Nat.lt_succ_of_le (List.sublist_flatten_of_mem h).length_le

theorem width_le_of_mem_place {k m : ℕ} {c : Bytes} (h : c ∈ place known k m) :
    width known ≤ c.length := by
  rcases List.mem_cons.mp h with rfl | h
  · simp
  · rw [List.eq_of_mem_replicate h]
    simp

theorem place_prefix_place {k k' m m' : ℕ} :
    place known k m <+: place known k' m' ↔ k = k' ∧ m ≤ m' := by
  unfold place
  rw [List.cons_prefix_cons, List.replicate_left_inj, List.prefix_replicate_iff,
    List.length_replicate, Nat.add_left_cancel_iff]
  simp

theorem dropLast_place (k m : ℕ) : (place known k (m + 1)).dropLast = place known k m := by
  simp [place, List.dropLast_cons_of_ne_nil, List.replicate_succ]

theorem type_place {k m : ℕ} (hk : k < last) (hm : m ≤ depth) :
    (maze known depth last).type (place known k m) = .directory := by
  have hany : (maze known depth last).directories.any ((place known k m).isPrefixOf ·) = true := by
    refine List.any_eq_true.mpr ⟨place known k depth, ?_, ?_⟩
    · exact List.mem_cons_of_mem _ (List.mem_map.mpr ⟨k, List.mem_range.mpr hk, rfl⟩)
    · exact List.isPrefixOf_iff_prefix.mpr (place_prefix_place.mpr ⟨rfl, hm⟩)
  rw [Hierarchy.type, if_pos hany]

theorem type_root : (maze known depth last).type [] = .directory := rfl

theorem type_last : (maze known depth last).type (place known last depth) = .regular := by
  have hnone : ¬ (maze known depth last).directories.any
      ((place known last depth).isPrefixOf ·) = true := by
    rw [List.any_eq_true]
    rintro ⟨d, hd, hpre⟩
    rw [List.isPrefixOf_iff_prefix] at hpre
    rcases List.mem_cons.mp hd with rfl | hd
    · have hlen := hpre.length_le
      rw [List.length_dropLast] at hlen
      have hpos : 0 < (place known last depth).length := by simp [place]
      omega
    · obtain ⟨k, hk, rfl⟩ := List.mem_map.mp hd
      have hlt := List.mem_range.mp hk
      have heq := (place_prefix_place.mp hpre).1
      omega
  rw [Hierarchy.type, if_neg hnone]
  simp [maze]

/-- A name as short as the known ones is not that of a directory or a file. -/
theorem type_of_mem {n : Node} {name : Bytes} (hname : name ∈ known) (hn : name ∈ n) :
    (maze known depth last).type n = .notFound := by
  have hno : ∀ {k : ℕ}, ¬ n <+: place known k depth := fun hpre ↦
    absurd (width_le_of_mem_place (hpre.subset hn)) (length_lt_width hname).not_ge
  have hnone : ¬ (maze known depth last).directories.any (n.isPrefixOf ·) = true := by
    rw [List.any_eq_true]
    rintro ⟨d, hd, hpre⟩
    rw [List.isPrefixOf_iff_prefix] at hpre
    rcases List.mem_cons.mp hd with rfl | hd
    · exact hno (hpre.trans (List.dropLast_prefix _))
    · obtain ⟨k, -, rfl⟩ := List.mem_map.mp hd
      exact hno hpre
  have hfile : n ≠ place known last depth := by
    rintro rfl
    exact hno List.prefix_rfl
  rw [Hierarchy.type, if_neg hnone]
  simp [maze, hfile]

theorem type_place_ne_notFound {k : ℕ} (hk : k ≤ last) :
    (maze known depth last).type (place known k depth) ≠ .notFound := by
  rcases hk.lt_or_eq with hlt | rfl
  · simp [type_place hlt le_rfl]
  · simp [type_last]

theorem lookup_map_pair {name : Bytes} (hname : name ∈ known) (target : Node) :
    (known.map fun c ↦ (c, target)).lookup name = some target := by
  obtain ⟨before, after, rfl, hfirst⟩ := List.eq_append_cons_of_mem hname
  refine List.lookup_eq_some_iff.mpr ⟨before.map fun c ↦ (c, target),
    after.map fun c ↦ (c, target), by simp, fun e he ↦ ?_⟩
  obtain ⟨c, hc, rfl⟩ := List.mem_map.mp he
  simpa using fun heq : name = c ↦ hfirst (heq ▸ hc)

/-- A known name leads from a directory to the next. -/
theorem step_known {n : Node} (hdir : (maze known depth last).type n = .directory)
    (hn : next known n ≤ last) {name : Bytes} (hname : name ∈ known) (hdots : name ≠ bytes "..") :
    (maze known depth last).step n name = .node (place known (next known n) depth) := by
  have hreal : (maze known depth last).type (n ++ [name]) = .notFound :=
    type_of_mem hname (by simp)
  have hlink : ((maze known depth last).links n).lookup name =
      some (place known (next known n) depth) := by
    change (known.map fun c ↦ (c, place known (next known n) depth)).lookup name = _
    generalize place known (next known n) depth = target
    exact lookup_map_pair hname target
  have hfails : (maze known depth last).fails n name = false := rfl
  simp [Hierarchy.step, hdir, hdots, Hierarchy.lookup, hfails, hreal, hlink,
    type_place_ne_notFound hn]

/-- Two dots or known names. -/
def IsWay (known names : List Bytes) : Prop := ∀ c ∈ names, c = bytes ".." ∨ c ∈ known

/-- How many of the names are looked up. -/
def lookups (names : List Bytes) : ℕ := names.countP (· ≠ bytes "..")

/-- From a place deep enough, a way leads on by as many directories as names are looked
up; and if none is, up by as many as there are dots. -/
theorem walk_place {names : List Bytes} (hway : IsWay known names) {k m : ℕ} (hm : m ≤ depth)
    (hlen : names.length ≤ m) (hk : k + lookups names < last) :
    ∃ m' ≤ depth, (maze known depth last).walk (place known k m) names =
        .node (place known (k + lookups names) m') ∧
      (lookups names = 0 → m' + names.length = m) := by
  induction names generalizing k m with
  | nil => exact ⟨m, hm, rfl, fun _ ↦ rfl⟩
  | cons c names ih =>
      rw [IsWay, List.forall_mem_cons] at hway
      rw [List.length_cons] at hlen
      have hdir : (maze known depth last).type (place known k m) = .directory :=
        type_place (by omega) hm
      by_cases hc : c = bytes ".."
      · have hcount : lookups (c :: names) = lookups names := by simp [lookups, hc]
        obtain ⟨m, rfl⟩ := Nat.exists_eq_add_one_of_ne_zero (n := m) (by omega)
        have hstep : (maze known depth last).step (place known k (m + 1)) c =
            .node (place known k m) := by
          simp [Hierarchy.step, hdir, hc, dropLast_place]
        rw [hcount] at hk ⊢
        obtain ⟨m', hm', hwalk, hup⟩ := ih hway.2 (m := m) (by omega) (by omega) hk
        refine ⟨m', hm', ?_, fun h ↦ ?_⟩
        · rw [Hierarchy.walk, hstep]
          exact hwalk
        · rw [List.length_cons, ← Nat.add_assoc, hup h]
      · have hcount : lookups (c :: names) = lookups names + 1 := by simp [lookups, hc]
        rw [hcount] at hk ⊢
        have hstep := step_known hdir (by rw [next_place]; omega) (hway.1.resolve_left hc) hc
        rw [next_place] at hstep
        obtain ⟨m', hm', hwalk, -⟩ := ih hway.2 (k := k + 1) le_rfl (by omega) (by omega)
        refine ⟨m', hm', ?_, by omega⟩
        rw [Hierarchy.walk, hstep]
        dsimp only
        rw [hwalk, show k + 1 + lookups names = k + (lookups names + 1) by omega]

/-- The same from the root, above which there is nothing. -/
theorem walk_root {names : List Bytes} (hway : IsWay known names) (hlen : names.length ≤ depth)
    (hk : 1 + lookups names < last) :
    (lookups names = 0 ∧ (maze known depth last).walk [] names = .node []) ∨
      (0 < lookups names ∧ ∃ m' ≤ depth, (maze known depth last).walk [] names =
        .node (place known (1 + lookups names) m')) := by
  induction names with
  | nil => exact .inl ⟨rfl, rfl⟩
  | cons c names ih =>
      rw [IsWay, List.forall_mem_cons] at hway
      rw [List.length_cons] at hlen
      by_cases hc : c = bytes ".."
      · have hcount : lookups (c :: names) = lookups names := by simp [lookups, hc]
        have hstep : (maze known depth last).step [] c = .node [] := by
          simp [Hierarchy.step, type_root, hc]
        rw [hcount] at hk ⊢
        rw [Hierarchy.walk, hstep]
        exact ih hway.2 (by omega) hk
      · have hcount : lookups (c :: names) = lookups names + 1 := by simp [lookups, hc]
        rw [hcount] at hk ⊢
        have hstep : (maze known depth last).step [] c = .node (place known 2 depth) :=
          step_known type_root (by change 2 ≤ last; omega) (hway.1.resolve_left hc) hc
        obtain ⟨m', hm', hwalk, -⟩ := walk_place hway.2 (k := 2) (m := depth) le_rfl (by omega)
          (show 2 + lookups names < last by omega)
        refine .inr ⟨by omega, m', hm', ?_⟩
        rw [Hierarchy.walk, hstep]
        dsimp only
        rw [hwalk, show 2 + lookups names = 1 + (lookups names + 1) by omega]


/-! ## Comparing the paths of nodes -/

/-- A name in which `normalizePath` changes nothing. -/
def IsPlain (c : Bytes) : Prop := c ≠ [] ∧ ∀ x ∈ c, DirectoryWhitelist.isSeparator x = false

theorem isPlain_of_mem_place {k m : ℕ} {c : Bytes} (h : c ∈ place known k m) : IsPlain c := by
  refine ⟨List.length_pos_iff.mp ((Nat.succ_pos _).trans_le (width_le_of_mem_place h)), ?_⟩
  intro x hx
  rcases List.mem_cons.mp h with rfl | h
  · rw [List.eq_of_mem_replicate hx]
    decide
  · rw [List.eq_of_mem_replicate h] at hx
    rw [List.eq_of_mem_replicate hx]
    decide

open DirectoryWhitelist in
theorem normalizePath_render {n : Node} (hn : ∀ c ∈ n, IsPlain c) :
    normalizePath (Hierarchy.render n) = byte '/' :: terminate (byte '/') n := by
  cases n using List.reverseRecOn with
  | nil => rfl
  | append_singleton n c =>
      have hc := hn c (by simp)
      have hterm : Hierarchy.render (n ++ [c]) ++ [byte '/'] =
          byte '/' :: terminate (byte '/') (n ++ [c]) := by
        rw [Hierarchy.render, List.cons_append, intercalate_append_separator (by simp)]
      have hplain : ∀ x ∈ Hierarchy.render (n ++ [c]), x ≠ byte '\\' := by
        rintro x hx rfl
        have hmem : byte '\\' ∈ byte '/' :: terminate (byte '/') (n ++ [c]) := by
          rw [← hterm]
          exact List.mem_append_left _ hx
        rcases List.mem_cons.mp hmem with h | h
        · exact absurd h (by decide)
        · obtain ⟨w, hw, hx⟩ := List.mem_flatMap.mp h
          rcases List.mem_append.mp hx with hx | hx
          · exact absurd ((hn w hw).2 _ hx) (by decide)
          · exact absurd (List.mem_singleton.mp hx) (by decide)
      have hend : EndsInName (Hierarchy.render (n ++ [c])) := by
        refine ⟨c.getLast hc.1, ?_, hc.2 _ (List.getLast_mem hc.1)⟩
        have hlast := congrArg List.dropLast hterm
        rw [List.dropLast_concat, terminate_concat, ← List.cons_append,
          List.dropLast_concat] at hlast
        rw [hlast, ← List.cons_append, List.getLast?_append_of_ne_nil _ hc.1,
          List.getLast?_eq_getLast_of_ne_nil hc.1]
      have hmap : (Hierarchy.render (n ++ [c])).map
          (fun x ↦ if x = byte '\\' then byte '/' else x) = Hierarchy.render (n ++ [c]) := by
        conv_rhs => rw [← List.map_id (Hierarchy.render (n ++ [c]))]
        exact List.map_congr_left fun x hx ↦ if_neg (hplain x hx)
      rw [normalizePath_of_endsInName hend, hmap, hterm]

/-- The paths of nodes with plain names compare as the nodes do. -/
theorem prefix_of_render {n m : Node} (hn : ∀ c ∈ n, IsPlain c) (hm : ∀ c ∈ m, IsPlain c)
    (h : DirectoryWhitelist.components (Hierarchy.render n) <+:
      DirectoryWhitelist.components (Hierarchy.render m)) : n <+: m := by
  have hfree : ∀ {k : Node}, (∀ c ∈ k, IsPlain c) → ∀ c ∈ k, byte '/' ∉ c := fun hk c hc hsep ↦
    absurd ((hk c hc).2 _ hsep) (by decide)
  rw [← DirectoryWhitelist.isPrefixOf_normalizePath, List.isPrefixOf_iff_prefix,
    normalizePath_render hn, normalizePath_render hm, List.cons_prefix_cons] at h
  exact (terminate_prefix_iff (hfree hn) (hfree hm)).mp h.2

/-! ## Paths below the first directory -/

theorem status_maze_ne_none (p : Path) : (maze known depth last).view.status p ≠ none := by
  have hstep : ∀ n name, (maze known depth last).step n name ≠ .fails := by
    intro n name
    have hfails : (maze known depth last).fails n name = false := rfl
    unfold Hierarchy.step Hierarchy.lookup
    rw [hfails, if_neg Bool.false_ne_true]
    split_ifs
    · simp
    · simp
    · simp
    · split
      · simp
      · split_ifs <;> simp
  have hwalk : ∀ names n, (maze known depth last).walk n names ≠ .fails := by
    intro names
    induction names with
    | nil => simp [Hierarchy.walk]
    | cons name names ih =>
        intro n
        rw [Hierarchy.walk]
        split
        · exact ih _
        · exact hstep n name
  have hres : (maze known depth last).resolve p ≠ .fails := by
    unfold Hierarchy.resolve
    dsimp only
    split_ifs
    · simp
    · split
      · split_ifs <;> simp
      · exact hwalk _ _
  change (maze known depth last).statusOf _ ≠ none
  cases h : (maze known depth last).resolve p with
  | fails => exact absurd h hres
  | missing | node => simp [Hierarchy.statusOf]

/-- Where a path below the first directory starts, seen from behind its name. -/
def start (known : List Bytes) (depth : ℕ) (q : Path) : Node :=
  if Path.isAbsolute q then [] else place known 1 depth

/-- Following a way from there ends outside of the first directory, or the way is empty. -/
theorem walk_start {names : List Bytes} (hway : IsWay known names) (hlen : names.length ≤ depth)
    (hlast : 2 + lookups names ≤ last) (q : Path) :
    ∃ n, (maze known depth last).walk (start known depth q) names = .node n ∧
      (maze known depth last).type n = .directory ∧ next known n = 2 + lookups names ∧
      (∀ c ∈ n, IsPlain c) ∧
      (place known 1 depth <+: n → Path.isAbsolute q = false ∧ names = []) := by
  unfold start
  cases hq : Path.isAbsolute q with
  | true =>
      simp only [if_true, Bool.true_eq_false, false_and]
      rcases walk_root hway hlen (show 1 + lookups names < last by omega) with
        ⟨hzero, hwalk⟩ | ⟨hpos, m, hm, hwalk⟩
      · refine ⟨[], hwalk, type_root, by rw [hzero]; rfl, by simp, fun h ↦ ?_⟩
        simp [place] at h
      · refine ⟨_, hwalk, type_place (by omega) hm, by rw [next_place]; omega,
          fun c hc ↦ isPlain_of_mem_place hc, fun h ↦ ?_⟩
        have heq := (place_prefix_place.mp h).1
        omega
  | false =>
      simp only [Bool.false_eq_true, if_false, true_and]
      obtain ⟨m, hm, hwalk, hup⟩ := walk_place hway (k := 1) (m := depth) le_rfl hlen
        (show 1 + lookups names < last by omega)
      refine ⟨_, hwalk, type_place (by omega) hm, by rw [next_place]; omega,
        fun c hc ↦ isPlain_of_mem_place hc, fun h ↦ ?_⟩
      obtain ⟨heq, hle⟩ := place_prefix_place.mp h
      have hzero := hup (by omega)
      exact List.length_eq_zero_iff.mp (by omega)

/-- The first directory is called `s`. -/
theorem walk_first (hs : bytes "s" ∈ known) (hlast : 1 < last) :
    (maze known depth last).walk (place known 0 depth) [bytes "s"] =
      .node (place known 1 depth) := by
  have hstep := step_known (type_place (m := depth) (show 0 < last by omega) le_rfl)
    (by rw [next_place]; omega) hs (by decide)
  rw [next_place] at hstep
  rw [Hierarchy.walk, hstep]
  rfl

theorem walk_join (hs : bytes "s" ∈ known) (hlast : 1 < last) (q : Path) :
    (maze known depth last).walk ((maze known depth last).origin (Path.join (bytes "s") q))
        (Path.names (Path.join (bytes "s") q)) =
      (maze known depth last).walk (start known depth q) (Path.names q) := by
  unfold start
  cases hq : Path.isAbsolute q with
  | true => simp [Path.join, hq, Hierarchy.origin]
  | false =>
      have hrel : Path.isAbsolute (Path.join (bytes "s") q) = false :=
        (Path.isAbsolute_join (by decide) hq).trans (by decide)
      have hnames : Path.names (bytes "s") = [bytes "s"] := by decide
      rw [Path.names_join _ hq, hnames, Hierarchy.walk_append, Hierarchy.origin, hrel]
      have hcwd : (maze known depth last).cwd = place known 0 depth := rfl
      simp only [Bool.false_eq_true, if_false, hcwd, walk_first hs hlast]

end Seraphbot.Maze
