import SourceWeave.Proofs.Directories
import SourceWeave.Proofs.EmissionOrder
import SourceWeave.Proofs.Encounters
import SourceWeave.Proofs.Keys
import SourceWeave.Proofs.Reordering

/-!
# What patterns include

A directive with a pattern leads to the files that the pattern lists, each resolved from its path as
if it had been written in a directive, except to what has the key of the script it is written in. It
leaves this script where it is: `Sources.pair_sublist_takeAll` says what stands behind a key once
resolutions with other keys have been followed. `pattern_spares_own_script` is the statement about
runs. A listed path stands for itself unless it ends in a blank, so the file is tracked under its
own path or another is that has the same key: `pattern_includes_listed`.
-/

namespace SourceWeave

open Run

/-! ## Keys behind a key -/

namespace Sources

variable {files : FileView} {separator : String} {sources : Sources} {resolution : Resolution}
  {own key : String}

/-- Following the resolution takes the key to the end: the key is tracked, or it leads to a file and
scripts can be made. -/
def Touches (sources : Sources) (files : FileView) (resolution : Resolution) (key : String) :
    Prop :=
  resolution.key? = some key ∧
    (key ∈ sources.keys ∨ sources.locked = false ∧ resolution.leadsToFile files = true)

/-- A resolution takes one key to the end or does nothing, whether scripts can be made or not. -/
theorem takeIn_touches (hfiles : files.Readable) (separator : String) (sources : Sources)
    (resolution : Resolution) :
    (∃ key, sources.Touches files resolution key ∧
      (sources.takeIn files separator resolution).keys = sources.keys.filter (· != key) ++ [key]) ∨
    (∀ key, ¬ sources.Touches files resolution key) ∧
      sources.takeIn files separator resolution = sources := by
  by_cases htouches : ∃ key, sources.Touches files resolution key
  · obtain ⟨key, hkey, htaken⟩ := htouches
    refine .inl ⟨key, ⟨hkey, htaken⟩, ?_⟩
    by_cases hmem : key ∈ sources.keys
    · rw [takeIn_of_mem hkey hmem, keys_moveToEnd hmem, sources.keys_nodup.erase_eq_filter]
    · obtain ⟨hlock, hleads⟩ := htaken.resolve_left hmem
      rw [keys_takeIn hfiles hlock, takenKey?, hkey, Option.filter_some_pos (by simp [hleads])]
  · have hnone : ∀ key, ¬ sources.Touches files resolution key := not_exists.mp htouches
    refine .inr ⟨hnone, ?_⟩
    rcases takeIn_cases files separator sources resolution with
      heq | ⟨key, hmem, hkey, -⟩ | ⟨script, hloaded, hlock, -⟩
    · exact heq
    · exact absurd ⟨hkey, .inl hmem⟩ (hnone key)
    · exact absurd ⟨hloaded.key, .inr ⟨hlock, hloaded.leadsToFile⟩⟩ (hnone script.key)

/-- Behind a resolution the keys are those that were tracked, and the one that it takes to the
end. -/
theorem mem_keys_takeIn_iff (hfiles : files.Readable) :
    key ∈ (sources.takeIn files separator resolution).keys ↔
      key ∈ sources.keys ∨ sources.Touches files resolution key := by
  rcases takeIn_touches hfiles separator sources resolution with
    ⟨touched, htouches, hkeys⟩ | ⟨hnone, heq⟩
  · have hkey : sources.Touches files resolution key → key = touched := fun h =>
      Option.some.inj (h.1.symm.trans htouches.1)
    rw [hkeys]
    by_cases htouched : key = touched
    · simp [htouched, htouches]
    · simp [htouched, mt hkey htouched]
  · rw [heq]
    simp [hnone]

/-- What stands behind a key when a resolution with another key has been followed: what stood behind
it, and what the resolution takes to the end. -/
theorem pair_sublist_takeIn (hfiles : files.Readable) (hown : own ∈ sources.keys)
    (hother : resolution.key? ≠ some own) :
    [own, key].Sublist (sources.takeIn files separator resolution).keys ↔
      [own, key].Sublist sources.keys ∨ sources.Touches files resolution key := by
  rcases takeIn_touches hfiles separator sources resolution with
    ⟨touched, htouches, hkeys⟩ | ⟨hnone, heq⟩
  · have hne : own ≠ touched := by
      rintro rfl
      exact hother htouches.1
    rw [hkeys, pair_sublist_touch (.inl hown)]
    constructor
    · rintro ⟨-, rfl | hpair⟩
      · exact .inr htouches
      · exact .inl hpair
    · rintro (hpair | hkey)
      · exact ⟨hne, .inr hpair⟩
      · exact ⟨hne, .inl (Option.some.inj (hkey.1.symm.trans htouches.1))⟩
  · rw [heq]
    simp [hnone]

/-- What stands behind a key when resolutions with other keys have been followed. -/
theorem pair_sublist_takeAll (hfiles : files.Readable) (hown : own ∈ sources.keys)
    {resolutions : List Resolution} (hothers : ∀ resolution ∈ resolutions,
      resolution.key? ≠ some own) :
    [own, key].Sublist (takeAll files separator resolutions sources).keys ↔
      [own, key].Sublist sources.keys ∨
        ∃ resolution ∈ resolutions, sources.Touches files resolution key := by
  induction resolutions generalizing sources with
  | nil => simp [takeAll]
  | cons first rest ih =>
      have hlocked : (sources.takeIn files separator first).locked = sources.locked :=
        takeIn_keeps.locked
      have hstep := @ih (sources.takeIn files separator first)
        (takeIn_keeps.mem_keys_of_mem hown) fun other hother => hothers other (by simp [hother])
      rw [pair_sublist_takeIn hfiles hown (hothers first (by simp))] at hstep
      refine hstep.trans ?_
      simp only [Touches, mem_keys_takeIn_iff hfiles, hlocked, List.exists_mem_cons_iff]
      -- a key that the first resolution takes in is tracked for the rest
      constructor
      · rintro ((hpair | hfirst) | ⟨other, hmem, hkey, (htracked | hfirst) | hleads⟩)
        · exact .inl hpair
        · exact .inr (.inl hfirst)
        · exact .inr (.inr ⟨other, hmem, hkey, .inl htracked⟩)
        · exact .inr (.inl hfirst)
        · exact .inr (.inr ⟨other, hmem, hkey, .inr hleads⟩)
      · rintro (hpair | hfirst | ⟨other, hmem, hkey, htracked | hleads⟩)
        · exact .inl (.inl hpair)
        · exact .inl (.inr hfirst)
        · exact .inr ⟨other, hmem, hkey, .inl (.inl htracked)⟩
        · exact .inr ⟨other, hmem, hkey, .inr hleads⟩

end Sources

/-! ## Patterns -/

namespace Includer

/-- Following a directive with a pattern does not fail. Behind the script of the directive it puts
what the other listed files resolve to, and it adds only scripts that are read from there. -/
theorem follow_pattern {plugin : Includer} {context : Context} (hfiles : context.files.Readable)
    {reference first : String} {others : List String}
    (htokens : Reference.tokens reference = first :: others) (hpattern : '*' ∈ first.toList)
    {session : Session} (hown : context.script.key ∈ session.sources.keys) :
    ∃ after, plugin.follow context reference session = .ok () after ∧
      (∀ key, [context.script.key, key].Sublist after.sources.keys ↔
        [context.script.key, key].Sublist session.sources.keys ∨ key ≠ context.script.key ∧
          ∃ path ∈ listed context.files context.script.directory first,
            session.sources.Touches context.files
              (session.sources.scheme.resolve (path.text :: others) context.script.directory) key) ∧
      session.sources.Grows (fun added => added.key ≠ context.script.key ∧
        ∃ path ∈ listed context.files context.script.directory first,
          added.LoadedFrom context.files plugin.separator
            (session.sources.scheme.resolve (path.text :: others) context.script.directory))
        after.sources := by
  obtain ⟨after, hfollow, hafter⟩ := @follow_eq plugin context hfiles reference session
  have hstar : first.toList.contains '*' = true := by simpa using hpattern
  simp only [referred, htokens, hstar, if_true] at hafter
  refine ⟨after, hfollow, fun key => ?_, ?_⟩
  · rw [hafter, Sources.pair_sublist_takeAll hfiles hown fun resolution hresolution =>
      of_decide_eq_true (List.mem_filter.mp hresolution).2]
    refine or_congr_right ?_
    simp only [List.mem_filter, List.mem_map, decide_eq_true_eq]
    constructor
    · rintro ⟨resolution, ⟨⟨path, hpath, rfl⟩, hother⟩, htouches⟩
      refine ⟨?_, path, hpath, htouches⟩
      rintro rfl
      exact hother htouches.1
    · rintro ⟨hne, path, hpath, htouches⟩
      refine ⟨_, ⟨⟨path, hpath, rfl⟩, ?_⟩, htouches⟩
      rw [htouches.1]
      exact fun heq => hne (Option.some.inj heq)
  · rw [hafter]
    refine Sources.takeAll_grows fun resolution hresolution target hloaded => ?_
    obtain ⟨hmem, hother⟩ := List.mem_filter.mp hresolution
    obtain ⟨path, hpath, rfl⟩ := List.mem_map.mp hmem
    refine ⟨fun heq => of_decide_eq_true hother ?_, path, hpath, hloaded⟩
    rw [hloaded.key, heq]

/-- What a listed file resolves to is tracked behind the directive if it was tracked or can be taken
in. -/
theorem mem_keys_of_follow_pattern {plugin : Includer} {context : Context}
    (hfiles : context.files.Readable) {reference first : String} {others : List String}
    (htokens : Reference.tokens reference = first :: others) (hpattern : '*' ∈ first.toList)
    {session after : Session} (hown : context.script.key ∈ session.sources.keys)
    (hfollow : plugin.follow context reference session = .ok () after) {path : Path}
    (hpath : path ∈ listed context.files context.script.directory first) {key : String}
    (htouches : session.sources.Touches context.files
      (session.sources.scheme.resolve (path.text :: others) context.script.directory) key) :
    key ∈ after.sources.keys := by
  obtain ⟨other, hother, horder, hgrows⟩ :=
    @follow_pattern plugin context hfiles reference first others htokens hpattern session hown
  rw [hfollow] at hother
  cases hother
  by_cases hsame : key = context.script.key
  · rw [hsame]
    exact hgrows.mem_keys_of_mem hown
  · exact ((horder key).mpr (.inr ⟨hsame, path, hpath, htouches⟩)).subset (by simp)

end Includer

/-- Under a built-in scheme, scripts with the same path and different keys have parameters, and not
the same ones. -/
theorem Scheme.Builtin.parameters_ne {cwd : Path} {scheme : Scheme} (h : Scheme.Builtin cwd scheme)
    {files : FileView} {separator separator' : String} {tokens tokens' : List String}
    {directory directory' : Path} {script other : Script}
    (hscript : script.LoadedFrom files separator (scheme.resolve tokens directory))
    (hother : other.LoadedFrom files separator' (scheme.resolve tokens' directory'))
    (hpath : other.path = script.path) (hkey : other.key ≠ script.key) :
    scheme = .parameterized cwd ∧ ∃ own parameters, parameters? tokens.tail = some own ∧
      parameters? tokens'.tail = some parameters ∧ parameters ≠ own := by
  cases h with
  | pathKey =>
      have hown := (key?_pathKey hscript.path).symm.trans hscript.key
      have hkey' := (key?_pathKey hother.path).symm.trans hother.key
      rw [hpath, hown] at hkey'
      exact absurd (Option.some.inj hkey').symm hkey
  | parameterized =>
      obtain ⟨own, hown, hkeyOwn⟩ := resolveParameterized_eq hscript.key hscript.path
      obtain ⟨parameters, hparameters, hkeyOther⟩ := resolveParameterized_eq hother.key hother.path
      refine ⟨rfl, own, parameters, hown, hparameters, ?_⟩
      rintro rfl
      exact hkey (by rw [hkeyOwn, hkeyOther, hpath])

/-! ## The script of the pattern -/

/-- Whenever an includer comes to a directive with a pattern in a run under a built-in scheme, it
does not fail, and behind the script of the directive stands what stood there before, together with
what the other listed files resolve to, as far as it is tracked or can be taken in. What is taken in
has another key than the script, and if it has the same path it has other parameters. -/
theorem pattern_spares_own_script {store : MemoryFiles} {job : Job} {cwd : Path}
    (hscheme : ∀ scheme, job.scheme? = some scheme → Scheme.Builtin cwd scheme)
    {plugins : List Builtin} {limit : Nat} {phase : Phase} {script : Script} {includer : Includer}
    {reference first : String} {others : List String} {session : Session}
    (hmeets : Meets store.view job plugins limit (Session.start cwd) phase script includer reference
      session)
    (htokens : Reference.tokens reference = first :: others) (hpattern : '*' ∈ first.toList) :
    script ∈ session.sources.scripts ∧
    ∃ after, includer.follow ⟨script, store.view, job.definitions⟩ reference session =
        .ok () after ∧
      (∀ key, [script.key, key].Sublist after.sources.keys ↔
        [script.key, key].Sublist session.sources.keys ∨ key ≠ script.key ∧
          ∃ path ∈ Includer.listed store.view script.directory first,
            session.sources.Touches store.view
              ((job.schemeFrom cwd).resolve (path.text :: others) script.directory) key) ∧
      ∀ added ∈ after.sources.scripts, added ∉ session.sources.scripts →
        phase = .onLoad ∧ added.key ≠ script.key ∧
          (added.path = script.path → job.schemeFrom cwd = .parameterized cwd ∧
            ∃ tokens directory own parameters,
              script.resolution = (job.schemeFrom cwd).resolve tokens directory ∧
              Scheme.parameters? tokens.tail = some own ∧
              Scheme.parameters? others = some parameters ∧ parameters ≠ own) := by
  have hknown := (Builtin.loaded_invariant store.view_readable job cwd).meets hmeets
  have htracked := hmeets.mem_scripts
  obtain ⟨after, hfollow, horder, hgrows⟩ := @Includer.follow_pattern includer
    ⟨script, store.view, job.definitions⟩ store.view_readable reference first others htokens
    hpattern session (Sources.mem_keys_of_mem_scripts htracked)
  rw [hknown.scheme_eq] at horder hgrows
  refine ⟨htracked, after, hfollow, horder, fun added hadded hnew => ?_⟩
  obtain ⟨entry, hentry, rfl⟩ := List.mem_map.mp hadded
  obtain ⟨-, ⟨hkey, path, -, hloaded⟩, -⟩ :=
    (hgrows.mem_cases hentry).resolve_left fun hold => hnew (List.mem_map_of_mem hold)
  refine ⟨?_, hkey, fun hpath => ?_⟩
  · cases phase with
    | onLoad => rfl
    | onFinishUp =>
        -- under the lock nothing is added
        have hperm := hgrows.perm_of_locked hknown.locked_eq
        exact absurd (List.mem_map_of_mem (hperm.mem_iff.mp hentry)) hnew
  · obtain ⟨separator, tokens, directory, hscript⟩ := hknown.known script htracked
    obtain ⟨hparameterized, own, parameters, htokens, hparameters, hne⟩ :=
      (job.builtin_schemeFrom hscheme).parameters_ne hscript hloaded hpath hkey
    exact ⟨hparameterized, tokens, directory, own, parameters, hscript.resolution_eq, htokens,
      hparameters, hne⟩

/-- A file that refers to all files beside it, with a parameter. -/
def ownPatternFiles : MemoryFiles :=
  .ofList [(⟨"/m"⟩, "#include * D\nmain\n"), (⟨"/t"⟩, "t\n")]

def ownPatternJob : Job :=
  { inputs := ["/m"], scheme? := some (.parameterized ⟨"/"⟩) }

def ownPatternOutput : Output :=
  ⟨[⟨"/m", ⟨"/m"⟩, ["main"]⟩, ⟨"/m?D", ⟨"/m"⟩, ["main"]⟩, ⟨"/t?D", ⟨"/t"⟩, ["t"]⟩]⟩

set_option maxRecDepth 10000 in
theorem exists_ownPatternOutput :
    ∃ final, ownPatternJob.run ownPatternFiles.view [(.inl {} : Builtin)] 9 (Session.start ⟨"/"⟩) =
      .ok (some ownPatternOutput) final :=
  exists_final (by decide +kernel)

set_option maxRecDepth 10000 in
theorem pattern_spares_own_script_parameter :
    ∃ script session after, script.key = "/m" ∧ script.path = ⟨"/m"⟩ ∧
      Meets ownPatternFiles.view ownPatternJob [.inl {}] 9 (Session.start ⟨"/"⟩) .onLoad script {}
        "* D" session ∧
      Includer.follow {} ⟨script, ownPatternFiles.view, ownPatternJob.definitions⟩ "* D" session =
        .ok () after ∧
      ["/m", "/t?D"].Sublist after.sources.keys ∧
      ∀ added ∈ after.sources.scripts, added ∉ session.sources.scripts → added.key ≠ "/m" := by
  obtain ⟨final, hrun⟩ := exists_ownPatternOutput
  have hraw : ownPatternFiles.view.readLines ⟨"/m"⟩ = .ok ["#include * D", "main"] := by
    decide +kernel
  obtain ⟨script, session, hkey, hpath, hmeets⟩ :=
    exists_meets hrun ownPatternFiles.view_readable rfl (Builtin.active_onLoad_eq rfl (by simp))
      (show ⟨"/m", ⟨"/m"⟩, ["main"]⟩ ∈ ownPatternOutput.scripts by decide) hraw
      List.mem_cons_self (show Includer.directive? {} _ = some "* D" by decide +kernel)
  have hdirectory : script.directory = ⟨"/"⟩ := by
    rw [Script.directory, hpath]
    decide +kernel
  have hknown := (Builtin.loaded_invariant ownPatternFiles.view_readable ownPatternJob ⟨"/"⟩).meets
    hmeets
  obtain ⟨-, after, hfollow, horder, hadded⟩ := pattern_spares_own_script
    (fun _ hscheme => Option.some.inj hscheme ▸ .parameterized) hmeets
    (show _ = "*" :: ["D"] by decide +kernel) (by decide)
  rw [hkey] at horder hadded
  rw [hdirectory] at horder
  refine ⟨script, session, after, hkey, hpath, hmeets, hfollow, (horder _).mpr (.inr ?_),
    fun added hmem hnew => (hadded added hmem hnew).2.1⟩
  refine ⟨by decide, ⟨"/t"⟩, by decide +kernel, by decide +kernel, .inr ⟨hknown.locked_eq, ?_⟩⟩
  decide +kernel

/-- The files of a pattern with parameters are taken in with them, and the file of the directive is
among them: it is there once more under another key. -/
theorem pattern_repeats_own_file :
    ⟨"/m"⟩ ∈ Includer.listed ownPatternFiles.view ⟨"/"⟩ "*" ∧
    ∃ final, ownPatternJob.run ownPatternFiles.view [(.inl {} : Builtin)] 9 (Session.start ⟨"/"⟩) =
        .ok (some ownPatternOutput) final ∧
      ∃ emitted ∈ ownPatternOutput.scripts, emitted.key ≠ "/m" ∧ emitted.path = ⟨"/m"⟩ := by
  obtain ⟨final, hrun⟩ := exists_ownPatternOutput
  exact ⟨by decide +kernel, final, hrun, by decide⟩

/-! ## The files of the pattern -/

section

variable {files : List (Path × String)} {cwd : Path}
  (hfiles : ∀ file ∈ files, file.1.normalize cwd = file.1)

include hfiles in
/-- What is listed of files that were put in under normal paths are such paths, with a file. -/
theorem MemoryFiles.of_list {folder path : Path} {pattern : String} {paths : List Path}
    (hlist : (ofList files).list folder pattern = .ok paths) (hpath : path ∈ paths) :
    path.normalize cwd = path ∧ (ofList files).view.isFile path = true := by
  have hmem := (mem_paths_ofList hfiles).mp (mem_paths_of_list hlist hpath)
  obtain ⟨file, hfile, rfl⟩ := List.mem_map.mp hmem
  exact ⟨hfiles file hfile, isSome_get?_ofList hmem⟩

include hfiles in
/-- The record of a file has the path of one that was put in. -/
theorem Script.RecordsFile.mem_paths {script : Script} {scheme : Scheme}
    (h : script.RecordsFile (.ofList files) cwd scheme) : script.path ∈ files.map Prod.fst := by
  obtain ⟨file, hget, hpath, -⟩ := h.file
  rw [← MemoryFiles.mem_paths_ofList hfiles, ← hpath]
  exact List.mem_map_of_mem (MemoryFiles.mem_toList.mpr ⟨_, hget⟩)

include hfiles in
/-- Where keys are made of paths and records are held, a path whose key is tracked is that of a
tracked file, or one whose path is alike is tracked. -/
theorem Sources.AllKnown.exists_alike {scheme : Scheme} {locked : Bool} {sources : Sources}
    (h : sources.AllKnown (·.RecordsFile (.ofList files) cwd (.pathKey cwd)) scheme locked)
    {path : Path} (hkey : path.key ∈ sources.keys) :
    (∃ tracked ∈ sources.scripts, tracked.path = path ∧
      ∃ file, (MemoryFiles.ofList files).get? path = some file ∧ file.path = path ∧
        tracked.rawLines = Text.splitLines file.content) ∨
    ∃ tracked ∈ sources.scripts, tracked.path ∈ files.map Prod.fst ∧ tracked.path ≠ path ∧
      tracked.path.SlashAlike path := by
  rw [keys_eq_map_scripts] at hkey
  obtain ⟨tracked, htracked, hsame⟩ := List.mem_map.mp hkey
  have hrecord := h.known tracked htracked
  by_cases hpath : tracked.path = path
  · subst hpath
    exact .inl ⟨tracked, htracked, rfl, hrecord.file⟩
  · refine .inr ⟨tracked, htracked, hrecord.mem_paths hfiles, hpath, ?_⟩
    rw [← Path.key_eq_iff, ← hrecord.key_of_pathKey rfl]
    exact hsame

end

/-- A path that is listed from files under normal paths is resolved to itself unless it ends in a
blank. So whenever an includer comes to a directive with a pattern in the first phase of a run in
which keys are made of paths, each listed file of this kind is tracked afterwards with its own path
and lines, unless one is tracked in its place whose path differs in slashes and backslashes only. -/
theorem pattern_includes_listed {files : List (Path × String)} {cwd : Path}
    (hfiles : ∀ file ∈ files, file.1.normalize cwd = file.1) (hcwd : cwd.isAbsolute = true) :
    (∀ (folder directory path : Path) (pattern : String) (paths : List Path),
      (MemoryFiles.ofList files).list folder pattern = .ok paths → path ∈ paths →
      Text.endsPlain path.text = true →
        (Scheme.pathKey cwd).resolve [path.text] directory = .resolved path.key path) ∧
    ∀ (job : Job) (plugins : List Builtin) (limit : Nat) (script : Script) (includer : Includer)
      (reference first : String) (others : List String) (session : Session),
      job.schemeFrom cwd = .pathKey cwd →
      Meets (MemoryFiles.ofList files).view job plugins limit (Session.start cwd) .onLoad script
        includer reference session →
      Reference.tokens reference = first :: others → '*' ∈ first.toList →
        ∃ after, includer.follow ⟨script, (MemoryFiles.ofList files).view, job.definitions⟩
            reference session = .ok () after ∧
          ∀ path ∈ Includer.listed (MemoryFiles.ofList files).view script.directory first,
            Text.endsPlain path.text = true →
              (∃ tracked ∈ after.sources.scripts, tracked.path = path ∧
                ∃ file, (MemoryFiles.ofList files).get? path = some file ∧ file.path = path ∧
                  tracked.rawLines = Text.splitLines file.content) ∨
              ∃ tracked ∈ after.sources.scripts, tracked.path ∈ files.map Prod.fst ∧
                tracked.path ≠ path ∧ tracked.path.SlashAlike path := by
  refine ⟨fun folder directory path pattern paths hlist hpath hends => ?_, ?_⟩
  · exact Path.resolve_text hcwd (MemoryFiles.of_list hfiles hlist hpath).1 hends directory
  intro job plugins limit script includer reference first others session hscheme hmeets htokens
    hpattern
  have hreadable := (MemoryFiles.ofList files).view_readable
  have hrecords : ∀ separator tokens directory script,
      Script.LoadedFrom (MemoryFiles.ofList files).view separator
        ((job.schemeFrom cwd).resolve tokens directory) script →
      script.RecordsFile (.ofList files) cwd (.pathKey cwd) := by
    rw [hscheme]
    exact fun _ _ _ _ hloaded => .of_loaded hfiles hcwd .pathKey hloaded
  have hknown := (Builtin.allKnown_invariant hreadable hrecords).meets hmeets
  have hown := Sources.mem_keys_of_mem_scripts hmeets.mem_scripts
  obtain ⟨after, hfollow, -, hgrows⟩ := @Includer.follow_pattern includer
    ⟨script, (MemoryFiles.ofList files).view, job.definitions⟩ hreadable reference first others
    htokens hpattern session hown
  have hafter := hknown.grows hgrows fun added hadded => by
    obtain ⟨-, _, -, hloaded⟩ := hadded
    rw [hknown.scheme_eq] at hloaded
    exact hrecords _ _ _ _ hloaded
  refine ⟨after, hfollow, fun path hpath hends => hafter.exists_alike hfiles ?_⟩
  obtain ⟨folder, name, paths, hlist, hlisted⟩ := Includer.exists_list hpath
  obtain ⟨hnormal, hisFile⟩ := MemoryFiles.of_list hfiles hlist hlisted
  have hresolve : session.sources.scheme.resolve (path.text :: others) script.directory =
      .resolved path.key path := by
    rw [hknown.scheme_eq, hscheme]
    exact Path.resolve_text hcwd hnormal hends script.directory
  have hleads : Resolution.leadsToFile (MemoryFiles.ofList files).view (.resolved path.key path) =
      true := by
    rw [Resolution.leadsToFile, Resolution.path?_resolved, Option.any_some, hisFile]
  refine Includer.mem_keys_of_follow_pattern hreadable htokens hpattern hown hfollow hpath ?_
  rw [hresolve]
  exact ⟨Resolution.key?_resolved _ _, .inr ⟨hknown.locked_eq, hleads⟩⟩

/-- Files beside one that refers to all of them: one with a blank and quotes in its name, and two
that a slash and a backslash tell apart. -/
def untidyFiles : List (Path × String) :=
  [(⟨"/m"⟩, "#include *\nmain\n"), (⟨"/'t u'"⟩, "t\n"), (⟨"/a\\b"⟩, "backslash\n"),
    (⟨"/a/b"⟩, "slash\n")]

def untidyJob : Job :=
  { inputs := ["/m"] }

def untidyOutput : Output :=
  ⟨[⟨"/m", ⟨"/m"⟩, ["main"]⟩, ⟨"/'t u'", ⟨"/'t u'"⟩, ["t"]⟩, ⟨"/a/b", ⟨"/a/b"⟩, ["slash"]⟩]⟩

set_option maxRecDepth 10000 in
theorem exists_untidyOutput :
    ∃ final, untidyJob.run (MemoryFiles.ofList untidyFiles).view [(.inl {} : Builtin)] 9
      (Session.start ⟨"/"⟩) = .ok (some untidyOutput) final :=
  exists_final (by decide +kernel)

theorem list_untidyFiles :
    (MemoryFiles.ofList untidyFiles).list ⟨"/"⟩ "*" =
      .ok [⟨"/'t u'"⟩, ⟨"/a/b"⟩, ⟨"/a\\b"⟩, ⟨"/m"⟩] := by
  decide +kernel

set_option maxRecDepth 10000 in
theorem pattern_includes_listed_untidy :
    (Scheme.pathKey ⟨"/"⟩).resolve ["/'t u'"] ⟨"/x/y"⟩ = .resolved "/'t u'" ⟨"/'t u'"⟩ ∧
      ∃ script session after,
        Meets (MemoryFiles.ofList untidyFiles).view untidyJob [.inl {}] 9
          (Session.start ⟨"/"⟩) .onLoad script {} "*" session ∧
        Includer.follow {} ⟨script, (MemoryFiles.ofList untidyFiles).view, untidyJob.definitions⟩
          "*" session = .ok () after ∧
        ∃ tracked ∈ after.sources.scripts, tracked.path = ⟨"/'t u'"⟩ ∧
          tracked.rawLines = ["t"] := by
  obtain ⟨hresolve, hfollow⟩ := @pattern_includes_listed untidyFiles ⟨"/"⟩ (by decide +kernel) rfl
  obtain ⟨final, hrun⟩ := exists_untidyOutput
  have hraw : (MemoryFiles.ofList untidyFiles).view.readLines ⟨"/m"⟩ =
      .ok ["#include *", "main"] := by
    decide +kernel
  obtain ⟨script, session, -, hpath, hmeets⟩ :=
    exists_meets hrun (MemoryFiles.ofList untidyFiles).view_readable rfl
      (Builtin.active_onLoad_eq rfl (by simp))
      (show ⟨"/m", ⟨"/m"⟩, ["main"]⟩ ∈ untidyOutput.scripts by decide) hraw
      List.mem_cons_self (show Includer.directive? {} _ = some "*" by decide +kernel)
  have hdirectory : script.directory = ⟨"/"⟩ := by
    rw [Script.directory, hpath]
    decide +kernel
  obtain ⟨after, hafter, hlisted⟩ := hfollow _ _ _ _ _ _ _ _ _ rfl hmeets
    (show _ = "*" :: [] by decide +kernel) (by decide)
  rw [hdirectory] at hlisted
  have hkey : Path.key ⟨"/'t u'"⟩ = "/'t u'" := by decide +kernel
  have hself := hresolve _ ⟨"/x/y"⟩ ⟨"/'t u'"⟩ _ _ list_untidyFiles (by decide) (by decide)
  rw [hkey] at hself
  refine ⟨hself, script, session, after, hmeets, hafter, ?_⟩
  rcases hlisted ⟨"/'t u'"⟩ (by decide +kernel) (by decide) with
    ⟨tracked, hmem, htracked, file, hget, -, hlines⟩ | ⟨tracked, -, hmem, hne, halike⟩
  · have hfile : (MemoryFiles.ofList untidyFiles).get? ⟨"/'t u'"⟩ = some ⟨⟨"/'t u'"⟩, "t\n"⟩ := by
      decide +kernel
    rw [hfile, Option.some.injEq] at hget
    subst hget
    exact ⟨tracked, hmem, htracked, hlines.trans (by decide +kernel)⟩
  · have halone : ∀ path ∈ untidyFiles.map Prod.fst, path.key = Path.key ⟨"/'t u'"⟩ →
        path = ⟨"/'t u'"⟩ := by
      decide +kernel
    exact absurd (halone _ hmem (Path.key_eq_iff.mpr halike)) hne

/-- Of two listed files that a slash and a backslash tell apart one is left out, and a blank at the
end of a listed path is not part of what its text resolves to. -/
theorem listed_file_left_out :
    (MemoryFiles.ofList untidyFiles).list ⟨"/"⟩ "*" =
        .ok [⟨"/'t u'"⟩, ⟨"/a/b"⟩, ⟨"/a\\b"⟩, ⟨"/m"⟩] ∧
      (∃ final, untidyJob.run (MemoryFiles.ofList untidyFiles).view [(.inl {} : Builtin)] 9
        (Session.start ⟨"/"⟩) = .ok (some untidyOutput) final) ∧
      (∀ emitted ∈ untidyOutput.scripts, emitted.path ≠ ⟨"/a\\b"⟩) ∧
      (MemoryFiles.ofList [(⟨"/a "⟩, "a\n")]).list ⟨"/"⟩ "*" = .ok [⟨"/a "⟩] ∧
      ((Scheme.pathKey ⟨"/"⟩).resolve ["/a "] ⟨"/"⟩).path? = some ⟨"/a"⟩ :=
  ⟨list_untidyFiles, exists_untidyOutput, by decide, by decide +kernel, by decide +kernel⟩

end SourceWeave
