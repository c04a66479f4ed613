import SourceWeave.Proofs.Closure
import SourceWeave.Proofs.Seeding
import SourceWeave.Proofs.NormalForm
import Mathlib.Data.Set.List

/-!
# How a directory is spelled

A directory can be written in many ways, with dots, with `..` and with doubled slashes. A reference
is seen from the place to which its directory leads, so a built-in scheme resolves it alike however
the directory is spelled: `Scheme.resolve_ignores_spelling`. Files held in memory are listed by the
components of the directory instead. As long as none of these is a `..` they are the components of
its normal form, `components_normalize_of_noParent`, and the files at this place and below it are
found. A directory with a `..` lists nothing. `MemoryFiles.list_spelled` says which files are listed
and for which directories these are the files below.
-/

namespace SourceWeave

namespace Path

/-! ## Directories that lead to the same place -/

/-- The normal form of an absolute path leads where the path leads, from everywhere. -/
theorem follow_normalize {path : Path} (h : path.isAbsolute = true) (cwd : Path) (start : Folded) :
    (path.normalize cwd).follow start = path.follow start := by
  have hrooted : (path.follow (cwd.follow .empty)).rooted = true := by
    rw [follow_eq, if_pos h]
    exact Folded.rooted_foldl_follow rfl _
  have habsolute : (path.normalize cwd).isAbsolute = true := by
    rw [normalize_eq_follow, isAbsolute, Folded.toList_text, hrooted]
    rfl
  calc (path.normalize cwd).follow start
    _ = (path.normalize cwd).follow .empty := follow_absolute habsolute _ _
    _ = foldComponents (path.absoluteFrom cwd).components := by
        rw [follow, components_normalize]
        exact Folded.foldComponents_components _
    _ = path.follow start := by
        rw [foldComponents_absoluteFrom]
        exact follow_absolute h _ _

/-- What is seen from a directory is seen alike from the normal form of the directory. -/
theorem normalize_join {directory : Path} (h : directory.isAbsolute = true) (cwd reference : Path) :
    ((directory.normalize cwd).join reference).normalize cwd =
      (directory.join reference).normalize cwd := by
  rw [normalize_eq_iff, follow_join, follow_join, follow_normalize h]

end Path

namespace Scheme

/-- A built-in scheme sees a directory only through its normal form. -/
theorem Builtin.resolve_congr {cwd : Path} {scheme : Scheme} (hscheme : Builtin cwd scheme)
    {directory other : Path} (h : directory.normalize cwd = other.normalize cwd)
    (tokens : List String) : scheme.resolve tokens directory = scheme.resolve tokens other := by
  have hjoin : ∀ reference : Path,
      (directory.join reference).normalize cwd = (other.join reference).normalize cwd := by
    intro reference
    rw [Path.normalize_eq_iff, Path.follow_join, Path.follow_join, Path.normalize_eq_iff.mp h]
  have hbase : resolvePathKey cwd tokens directory = resolvePathKey cwd tokens other := by
    simp only [resolvePathKey, hjoin]
  cases hscheme with
  | pathKey => exact hbase
  | parameterized =>
      show resolveParameterized cwd tokens directory = resolveParameterized cwd tokens other
      rw [resolveParameterized, hbase]
      rfl

/-- Both built-in schemes resolve all references alike from two directories exactly if the
directories have the same normal form, and to see a reference from a directory or from its normal
form leads to the same path. -/
theorem resolve_ignores_spelling (cwd : Path) :
    (∀ (scheme : Scheme) (directory other : Path), Builtin cwd scheme →
      (directory.normalize cwd = other.normalize cwd ↔
        ∀ tokens, scheme.resolve tokens directory = scheme.resolve tokens other)) ∧
    ∀ directory reference : Path, directory.isAbsolute = true →
      (directory.join reference).normalize cwd =
        ((directory.normalize cwd).join reference).normalize cwd := by
  refine ⟨fun scheme directory other hscheme => ⟨hscheme.resolve_congr, fun h => ?_⟩,
    fun directory reference h => (Path.normalize_join h cwd reference).symm⟩
  -- a dot leads to the directory itself
  have hdot : ∀ path : Path, (path.join ⟨"."⟩).normalize cwd = path.normalize cwd := by
    intro path
    rw [Path.normalize_eq_iff, Path.follow_join]
    rfl
  have hpaths := congrArg Resolution.path? (h ["."])
  have hunquote : Text.unquote? "." = some "." := by decide
  rw [hscheme.resolve_eq hunquote, hscheme.resolve_eq hunquote, Resolution.path?_resolved,
    Resolution.path?_resolved, hdot, hdot] at hpaths
  exact Option.some.inj hpaths

/-- A directory that goes astray and comes back, and references that climb out of it. -/
theorem resolve_ignores_spelling_winding :
    (Scheme.parameterized ⟨"/"⟩).resolve ["../../../t.cl", "A"] ⟨"/a/../b/.//c/"⟩ =
        (Scheme.parameterized ⟨"/"⟩).resolve ["../../../t.cl", "A"] ⟨"/b/c"⟩ ∧
      (∃ tokens, (Scheme.pathKey ⟨"/"⟩).resolve tokens ⟨"/b/c"⟩ ≠
        (Scheme.pathKey ⟨"/"⟩).resolve tokens ⟨"/a/../b"⟩) ∧
      ((Path.mk "/a/../b/.//c/").join ⟨"../d"⟩).normalize ⟨"/"⟩ =
        (((Path.mk "/a/../b/.//c/").normalize ⟨"/"⟩).join ⟨"../d"⟩).normalize ⟨"/"⟩ := by
  obtain ⟨hresolve, hjoin⟩ := resolve_ignores_spelling ⟨"/"⟩
  refine ⟨(hresolve _ _ _ .parameterized).mp (by decide +kernel) _, ?_, hjoin _ _ (by decide)⟩
  rw [← not_forall, ← hresolve _ _ _ .pathKey]
  decide +kernel

end Scheme

/-! ## Directories whose files are listed -/

namespace Path

variable {path directory cwd : Path}

/-- The path leads on from the directory, by its components. -/
def Below (path directory : Path) : Prop :=
  directory.components <+: path.components ∧ path.components ≠ directory.components

instance (path directory : Path) : Decidable (path.Below directory) :=
  inferInstanceAs (Decidable (_ ∧ _))

/-- A normal path has no component that leads upwards. -/
theorem parent_notMem_components_normalize (path cwd : Path) :
    .parent ∉ (path.normalize cwd).components := by
  rw [components_normalize, Folded.components]
  split <;> simp

/-- Behind the root, an absolute path without `..` has names only. -/
theorem exists_names (h : path.isAbsolute = true) (hparent : .parent ∉ path.components) :
    ∃ names : List String, path.components = .root :: names.map .name := by
  obtain ⟨rest, htext⟩ : ∃ rest, path.text.toList = '/' :: rest := by
    have hhead : path.text.toList.head? = some '/' := by simpa [isAbsolute] using h
    exact ⟨_, List.eq_cons_of_mem_head? hhead⟩
  have hcomponents : path.components = .root :: (pieces rest).filterMap Component.ofPiece? := by
    rw [components, shape, htext]
    rfl
  rw [hcomponents] at hparent ⊢
  have hnames : ∀ component ∈ (pieces rest).filterMap Component.ofPiece?,
      ∃ name, Component.name name = component := by
    intro component hcomponent
    obtain ⟨piece, -, hpiece⟩ := List.mem_filterMap.mp hcomponent
    unfold Component.ofPiece? at hpiece
    split at hpiece
    · cases hpiece
    · cases hpiece
    · cases hpiece
      exact absurd (List.mem_cons_of_mem _ hcomponent) hparent
    · exact ⟨_, Option.some.inj hpiece⟩
  obtain ⟨names, heq⟩ : _ ∈ Set.range (List.map Component.name) := by
    rw [Set.range_list_map]
    exact hnames
  exact ⟨names, by rw [heq]⟩

/-- An absolute path without `..` has the components of its normal form. -/
theorem components_normalize_of_noParent (h : path.isAbsolute = true)
    (hparent : .parent ∉ path.components) (cwd : Path) :
    (path.normalize cwd).components = path.components := by
  obtain ⟨names, hnames⟩ := exists_names h hparent
  have hfolded : path.components = Folded.components ⟨true, names.reverse⟩ := by
    rw [hnames, Folded.components, List.reverse_reverse]
    rfl
  rw [components_normalize, absoluteFrom, if_pos h, hfolded, Folded.foldComponents_components]

/-- A normal path has the components of a directory in front exactly if the directory has no `..`
and the path is the normal form of the directory or lies below it. -/
theorem startsWith_iff (hpath : path.normalize cwd = path) (h : directory.isAbsolute = true) :
    path.startsWith directory = true ↔ .parent ∉ directory.components ∧
      (path = directory.normalize cwd ∨ path.Below (directory.normalize cwd)) := by
  rw [startsWith, List.isPrefixOf_iff_prefix]
  by_cases hparent : .parent ∈ directory.components
  · simp only [hparent, not_true, false_and, iff_false]
    intro hbegins
    rw [← hpath] at hbegins
    exact parent_notMem_components_normalize path cwd (hbegins.mem hparent)
  · have hspell : path.components = (directory.normalize cwd).components →
        path = directory.normalize cwd := by
      intro heq
      rw [← hpath] at heq
      rw [← hpath, normalize_eq_spell path, heq, ← normalize_eq_spell]
    simp only [hparent, not_false_eq_true, true_and]
    rw [← components_normalize_of_noParent h hparent cwd]
    constructor
    · intro hbegins
      by_cases heq : path.components = (directory.normalize cwd).components
      · exact .inl (hspell heq)
      · exact .inr ⟨hbegins, heq⟩
    · rintro (heq | hbelow)
      · rw [← heq]
      · exact hbelow.1

/-- A place does not lie below itself. -/
theorem Below.ne (h : path.Below directory) : path ≠ directory := by
  rintro rfl
  exact h.2 rfl

end Path

namespace MemoryFiles

variable {files : List (Path × String)} {cwd : Path}

/-- A file that is put in is found under its path, and all others where they were. -/
theorem isSome_get?_insert (store : MemoryFiles) (path : Path) (content : String) (other : Path) :
    ((store.insert path content).get? other).isSome =
      (decide (path.components = other.components) || (store.get? other).isSome) := by
  simp only [get?, MemoryFiles.insert]
  rw [Std.TreeMap.getElem?_insert]
  simp only [Std.compare_eq_iff_eq]
  by_cases h : path.components = other.components <;> simp [h]

/-- A file is found under every path under which one was put in. -/
theorem isSome_get?_ofList {path : Path} (h : path ∈ files.map Prod.fst) :
    ((ofList files).get? path).isSome = true := by
  have hfold : ∀ (files : List (Path × String)) (store : MemoryFiles),
      (store.get? path).isSome = true ∨ path ∈ files.map Prod.fst →
        ((files.foldl (fun store file => store.insert file.1 file.2) store).get? path).isSome =
          true := by
    intro files
    induction files with
    | nil => exact fun store h => h.resolve_right (by simp)
    | cons new rest ih =>
        intro store h
        rw [List.map_cons, List.mem_cons] at h
        refine ih _ ?_
        rw [isSome_get?_insert, Bool.or_eq_true, decide_eq_true_iff]
        rcases h with hheld | rfl | hrest
        · exact .inl (.inr hheld)
        · exact .inl (.inl rfl)
        · exact .inr hrest
  exact hfold files empty (.inr h)

/-- Files that are put in under normal paths are held under these paths. -/
theorem mem_paths_ofList (h : ∀ file ∈ files, file.1.normalize cwd = file.1) {path : Path} :
    path ∈ (ofList files).toList.map (·.path) ↔ path ∈ files.map Prod.fst := by
  constructor
  · intro hmem
    obtain ⟨file, hfile, rfl⟩ := List.mem_map.mp hmem
    obtain ⟨components, hheld⟩ := mem_toList.mp hfile
    exact (held_ofList (p := (· ∈ files.map Prod.fst))
      (fun file hfile => List.mem_map_of_mem hfile) hheld).2
  · intro hmem
    obtain ⟨file, hget⟩ := Option.isSome_iff_exists.mp (isSome_get?_ofList hmem)
    obtain ⟨hcomponents, hnormal⟩ := held_ofList (p := fun path => path.normalize cwd = path) h hget
    obtain ⟨own, hown, rfl⟩ := List.mem_map.mp hmem
    have heq : file.path = own.1 := by
      rw [← hnormal, ← h own hown, Path.normalize_eq_spell, Path.normalize_eq_spell own.1, hnormal,
        h own hown, hcomponents]
    exact List.mem_map.mpr ⟨file, mem_toList.mpr ⟨_, hget⟩, heq⟩

/-- The files come in the order of their paths. -/
theorem ordered_paths_ofList (files : List (Path × String)) :
    ((ofList files).toList.map (·.path)).Pairwise (compare · · = .lt) := by
  rw [toList, List.map_map, List.pairwise_map]
  have hcomponents : ∀ entry ∈ (ofList files).files.toList, entry.2.path.components = entry.1 := by
    intro entry hentry
    rw [Std.TreeMap.mem_toList_iff_getElem?_eq_some] at hentry
    exact (held_ofList (p := fun _ => True) (fun _ _ => trivial) hentry).1
  refine List.Pairwise.imp_of_mem (fun {entry other} hentry hother hlt => ?_)
    Std.TreeMap.ordered_keys_toList
  show compare entry.2.path.components other.2.path.components = .lt
  rw [hcomponents entry hentry, hcomponents other hother]
  exact hlt

/-- Of files under normal paths, an absolute directory lists those with a matching name that lie at
or below its normal form if it is spelled without `..`, and none otherwise, in strictly ascending
order. These are the files below the directory exactly if no matching file is left out by a `..` or
lies at the directory itself. -/
theorem list_spelled (hfiles : ∀ file ∈ files, file.1.normalize cwd = file.1) {directory : Path}
    (hdirectory : directory.isAbsolute = true) {pattern : String} {glob : List Glob.Token}
    (hpattern : readPattern pattern = .ok glob) :
    ∃ paths, (ofList files).list directory pattern = .ok paths ∧
      paths.Pairwise (compare · · = .lt) ∧
      (∀ path, path ∈ paths ↔ path ∈ files.map Prod.fst ∧ path.nameMatches glob = true ∧
        .parent ∉ directory.components ∧
          (path = directory.normalize cwd ∨ path.Below (directory.normalize cwd))) ∧
      ((∀ path, path ∈ paths ↔ path ∈ files.map Prod.fst ∧ path.nameMatches glob = true ∧
          path.Below (directory.normalize cwd)) ↔
        ∀ path ∈ files.map Prod.fst, path.nameMatches glob = true →
          if .parent ∈ directory.components then ¬ path.Below (directory.normalize cwd)
          else path ≠ directory.normalize cwd) := by
  have hlist : (ofList files).list directory pattern =
      .ok (((ofList files).toList.map (·.path)).filter fun path =>
        path.startsWith directory && path.nameMatches glob) := by
    rw [list, hpattern]
  have hmem : ∀ path,
      path ∈ (((ofList files).toList.map (·.path)).filter fun path =>
        path.startsWith directory && path.nameMatches glob) ↔
      path ∈ files.map Prod.fst ∧ path.nameMatches glob = true ∧ .parent ∉ directory.components ∧
        (path = directory.normalize cwd ∨ path.Below (directory.normalize cwd)) := by
    intro path
    rw [List.mem_filter, mem_paths_ofList hfiles, Bool.and_eq_true]
    refine and_congr_right fun hpath => ?_
    obtain ⟨file, hfile, rfl⟩ := List.mem_map.mp hpath
    rw [Path.startsWith_iff (hfiles file hfile) hdirectory, and_comm]
  refine ⟨_, hlist, (ordered_paths_ofList files).filter _, hmem, ?_⟩
  simp only [hmem]
  constructor
  · intro h path hpath hname
    have hiff := h path
    simp only [hpath, hname, true_and] at hiff
    split
    · next hparent => exact fun hbelow => (hiff.mpr hbelow).1 hparent
    · next hparent => exact fun heq => (hiff.mp ⟨hparent, .inl heq⟩).ne heq
  · intro h path
    refine and_congr_right fun hpath => and_congr_right fun hname => ?_
    have hown := h path hpath hname
    split at hown
    · next hparent => exact ⟨fun hin => absurd hparent hin.1, fun hbelow => absurd hbelow hown⟩
    · next hparent =>
      exact ⟨fun hin => hin.2.resolve_left hown, fun hbelow => ⟨hparent, .inr hbelow⟩⟩

/-- Files in a library, in a directory within it, and in one whose name only begins alike. -/
def libraryFiles : List (Path × String) :=
  [(⟨"/p/lib/util.cl"⟩, "util\n"), (⟨"/p/lib/sub/deep.cl"⟩, "deep\n"),
    (⟨"/p/lib/notes.md"⟩, "notes\n"), (⟨"/p/library/x.cl"⟩, "x\n"),
    (⟨"/p/src/main.cl"⟩, "#include ../lib/*.cl\n")]

theorem list_spelled_library :
    ∃ glob, readPattern "*.cl" = .ok glob ∧
      ∃ paths, (ofList libraryFiles).list ⟨"/p/.//lib/"⟩ "*.cl" = .ok paths ∧
        paths.Pairwise (compare · · = .lt) ∧
        (∀ path, path ∈ paths ↔ path ∈ libraryFiles.map Prod.fst ∧ path.nameMatches glob = true ∧
          path.Below ((Path.mk "/p/.//lib/").normalize ⟨"/"⟩)) ∧
        paths = [⟨"/p/lib/sub/deep.cl"⟩, ⟨"/p/lib/util.cl"⟩] := by
  obtain ⟨glob, hglob⟩ : ∃ glob, readPattern "*.cl" = .ok glob := ⟨_, rfl⟩
  have hlist : (ofList libraryFiles).list ⟨"/p/.//lib/"⟩ "*.cl" =
      .ok [⟨"/p/lib/sub/deep.cl"⟩, ⟨"/p/lib/util.cl"⟩] := by decide +kernel
  have hfiles : ∀ file ∈ libraryFiles, file.1.normalize ⟨"/"⟩ = file.1 := by decide +kernel
  have hapart : ∀ path ∈ libraryFiles.map Prod.fst,
      path ≠ (Path.mk "/p/.//lib/").normalize ⟨"/"⟩ := by decide +kernel
  obtain ⟨paths, hpaths, hordered, -, hiff⟩ :=
    @list_spelled _ _ hfiles ⟨"/p/.//lib/"⟩ (by decide) _ _ hglob
  refine ⟨glob, hglob, paths, hpaths, hordered, hiff.mpr fun path hpath _ => ?_, ?_⟩
  · rw [if_neg (by decide +kernel)]
    exact hapart path hpath
  · exact Except.ok.inj (hpaths.symm.trans hlist)

/-- A `..` in the spelling of a directory hides the files below it, and a file lists itself. -/
theorem list_misses_below :
    (ofList libraryFiles).list ⟨"/p/src/../lib"⟩ "*.cl" = .ok [] ∧
      Path.Below ⟨"/p/lib/util.cl"⟩ ((Path.mk "/p/src/../lib").normalize ⟨"/"⟩) ∧
      (ofList libraryFiles).list ⟨"/p/lib/util.cl"⟩ "*.cl" = .ok [⟨"/p/lib/util.cl"⟩] ∧
      ¬ Path.Below ⟨"/p/lib/util.cl"⟩ ((Path.mk "/p/lib/util.cl").normalize ⟨"/"⟩) := by
  decide +kernel

end MemoryFiles

end SourceWeave
