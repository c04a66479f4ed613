import SourceWeave.Proofs.Directives
import SourceWeave.Proofs.NormalForm
import SourceWeave.Proofs.Seeding
import Mathlib.Order.Bounds.Basic

/-!
# The scripts that a run reaches

With the includer alone in the first phase, the scripts of a run are found by following directives
from the inputs. Files whose paths are normal and free of backslashes are told apart by their keys,
and `Includer.Refers` says on keys what a directive refers to: what its reference resolves to, if
that is a file, or what the files resolve to that its pattern lists. A path loses the blanks at its
end when it is resolved, and then what is resolved may not be a file: `Includer.Includes` leaves
this out, and `Course.isLeast_order` says that the keys that are put out are the least set that
holds the keys of the inputs and is closed under it. The main statement, `run_reaches_closure`, says
the same of `Includer.Refers`, for runs in which no listed path ends in a blank.
-/

namespace SourceWeave

open Run

/-! ## Plain paths -/

/-- The path is normal and has no backslash. -/
structure Path.IsPlain (path cwd : Path) : Prop where
  normal : path.normalize cwd = path
  no_backslash : '\\' ∉ path.text.toList

namespace Path.IsPlain

variable {cwd path other : Path}

theorem eq_spell (h : path.IsPlain cwd) : path = Path.spell path.components := by
  have hspell := path.normalize_eq_spell cwd
  rwa [h.normal] at hspell

theorem key_eq (h : path.IsPlain cwd) : path.key = path.text := by
  rw [Path.key, ← String.toList_inj, String.toList_map]
  refine (List.map_congr_left fun c hc => ?_).trans (List.map_id _)
  rw [if_neg]
  · rfl
  · rintro rfl
    exact h.no_backslash hc

/-- Plain paths are told apart by their keys. -/
theorem eq_of_key_eq (h : path.IsPlain cwd) (hother : other.IsPlain cwd)
    (hkey : path.key = other.key) : path = other := by
  rw [h.key_eq, hother.key_eq] at hkey
  cases path
  cases other
  exact congrArg Path.mk hkey

end Path.IsPlain

/-- A normal path that does not end in a blank is what its text resolves to, from everywhere. -/
theorem Path.resolve_text {cwd path : Path} (hcwd : cwd.isAbsolute = true)
    (hpath : path.normalize cwd = path) (hends : Text.endsPlain path.text = true)
    (directory : Path) :
    (Scheme.pathKey cwd).resolve [path.text] directory = .resolved path.key path := by
  have habsolute : path.isAbsolute = true := by
    rw [← hpath]
    exact isAbsolute_normalize hcwd path
  have hne : path.text.toList ≠ [] := by
    intro hnil
    rw [isAbsolute, hnil] at habsolute
    cases habsolute
  have hunquote := Text.IsPlain.unquote?_eq ⟨hne, startsPlain_of_isAbsolute habsolute, hends⟩
  rw [Scheme.Builtin.pathKey.resolve_eq hunquote, join_absolute habsolute, hpath]

namespace MemoryFiles

/-- Each file is held under the components of its path, and the path is plain. -/
def Plain (store : MemoryFiles) (cwd : Path) : Prop :=
  ∀ (components : List Path.Component) (file : MemoryFile), store.files[components]? = some file →
    file.path.components = components ∧ file.path.IsPlain cwd

variable {cwd : Path} {store : MemoryFiles}

/-- Files that are put in under plain paths are held under plain paths. -/
theorem plain_ofList {files : List (Path × String)} (h : ∀ file ∈ files, file.1.IsPlain cwd) :
    (ofList files).Plain cwd :=
  fun _ _ hfile => held_ofList (p := (Path.IsPlain · cwd)) h hfile

theorem mem_toList {file : MemoryFile} :
    file ∈ store.toList ↔
      ∃ components : List Path.Component, store.files[components]? = some file := by
  simp only [toList, List.mem_map, Prod.exists, Std.TreeMap.mem_toList_iff_getElem?_eq_some]
  constructor
  · rintro ⟨components, other, hother, rfl⟩
    exact ⟨components, hother⟩
  · rintro ⟨components, hfile⟩
    exact ⟨components, file, hfile, rfl⟩

/-- A held file has a plain path and is found under it. -/
theorem Plain.get?_path (h : store.Plain cwd) {file : MemoryFile} (hfile : file ∈ store.toList) :
    file.path.IsPlain cwd ∧ store.get? file.path = some file := by
  obtain ⟨components, hheld⟩ := mem_toList.mp hfile
  obtain ⟨rfl, hplain⟩ := h components file hheld
  exact ⟨hplain, hheld⟩

/-- Held files are told apart by the keys of their paths. -/
theorem Plain.eq_of_key_eq (h : store.Plain cwd) {file other : MemoryFile}
    (hfile : file ∈ store.toList) (hother : other ∈ store.toList)
    (hkey : file.path.key = other.path.key) : file = other := by
  obtain ⟨hplain, hget⟩ := h.get?_path hfile
  obtain ⟨hplain', hget'⟩ := h.get?_path hother
  rw [hplain.eq_of_key_eq hplain' hkey] at hget
  exact Option.some.inj (hget.symm.trans hget')

/-- The file under a normal path has this path. -/
theorem Plain.path_eq (h : store.Plain cwd) {path reference : Path} {file : MemoryFile}
    (hpath : path = reference.normalize cwd) (hget : store.get? path = some file) :
    file ∈ store.toList ∧ file.path = path := by
  obtain ⟨hcomponents, hplain⟩ := h path.components file hget
  refine ⟨mem_toList.mpr ⟨_, hget⟩, ?_⟩
  have hspell := reference.normalize_eq_spell cwd
  rw [← hpath] at hspell
  rw [hplain.eq_spell, hcomponents, ← hspell]

/-- Only files that are held are listed. -/
theorem mem_paths_of_list {folder path : Path} {pattern : String}
    {paths : List Path} (hlist : store.list folder pattern = .ok paths) (hpath : path ∈ paths) :
    path ∈ store.toList.map (·.path) := by
  unfold list at hlist
  split at hlist
  · cases hlist
  · cases hlist
    exact List.mem_of_mem_filter hpath

end MemoryFiles

/-- The script is a held file under the key of its path. -/
structure Script.StoredAs (script : Script) (store : MemoryFiles) (file : MemoryFile) : Prop where
  mem : file ∈ store.toList
  path : script.path = file.path
  key : script.key = file.path.key
  lines : script.rawLines = Text.splitLines file.content

/-- What a reference leads to by its path is a held file. -/
theorem Script.LoadedFrom.exists_stored {store : MemoryFiles} {cwd directory : Path}
    {separator : String} {tokens : List String} {script : Script} (hplain : store.Plain cwd)
    (h : script.LoadedFrom store.view separator ((Scheme.pathKey cwd).resolve tokens directory)) :
    ∃ file, script.StoredAs store file := by
  have hkey := h.key
  have hpath := h.path
  obtain ⟨file, hget, hlines⟩ := MemoryFiles.readLines_view.mp h.lines
  rcases Scheme.resolvePathKey_cases cwd tokens directory with hfailed | ⟨reference, hresolved⟩
  · rw [show (Scheme.pathKey cwd).resolve tokens directory = .failed from hfailed] at hkey
    cases hkey
  · rw [show (Scheme.pathKey cwd).resolve tokens directory = _ from hresolved] at hkey hpath
    rw [Resolution.key?_resolved] at hkey
    rw [Resolution.path?_resolved] at hpath
    have hnormal := (Option.some.inj hpath).symm
    obtain ⟨hmem, heq⟩ := hplain.path_eq hnormal hget
    refine ⟨file, hmem, heq.symm, ?_, hlines⟩
    rw [heq, hnormal]
    exact (Option.some.inj hkey).symm

/-! ## Following directives -/

/-- A resolution leads to a key if there is a file under its path. -/
def Resolution.LeadsTo (resolution : Resolution) (store : MemoryFiles) (key : String) : Prop :=
  resolution.key? = some key ∧
    ∃ path file, resolution.path? = some path ∧ store.get? path = some file

/-- What leads to a key can be loaded under it. -/
theorem Resolution.LeadsTo.exists_loaded {resolution : Resolution} {store : MemoryFiles}
    {key : String} (h : resolution.LeadsTo store key) (separator : String) :
    ∃ script : Script, script.key = key ∧ script.LoadedFrom store.view separator resolution := by
  obtain ⟨hkey, path, file, hpath, hget⟩ := h
  exact ⟨⟨key, path, Text.splitLines file.content, resolution, separator⟩, rfl, hkey, hpath,
    MemoryFiles.isFile_view.mpr ⟨file, hget⟩, MemoryFiles.readLines_view.mpr ⟨file, hget, rfl⟩, rfl,
    rfl⟩

/-- What can be loaded leads to its key. -/
theorem Script.LoadedFrom.leadsTo {script : Script} {store : MemoryFiles} {separator : String}
    {resolution : Resolution} (h : script.LoadedFrom store.view separator resolution) :
    resolution.LeadsTo store script.key := by
  obtain ⟨file, hget, -⟩ := MemoryFiles.readLines_view.mp h.lines
  exact ⟨h.key, script.path, file, h.path, hget⟩

namespace Includer

/-- What a pattern lists is what the files list for some directory and some glob. -/
theorem exists_list {files : FileView} {directory path : Path} {first : String}
    (h : path ∈ listed files directory first) :
    ∃ folder name paths, files.list folder name = .ok paths ∧ path ∈ paths := by
  unfold listed at h
  split at h
  · cases h
  · dsimp only at h
    split at h
    · split at h
      · cases h
      · next paths hlist => exact ⟨_, _, paths, hlist, h⟩
    · cases h

/-- The candidates of a line, for a pattern and for any other reference. -/
theorem mem_candidates_iff {plugin : Includer} {files : FileView} {scheme : Scheme}
    {directory : Path} {line : String} {resolution : Resolution} :
    resolution ∈ plugin.candidates files scheme directory line ↔
      ∃ reference first others, plugin.directive? line = some reference ∧
        Reference.tokens reference = first :: others ∧
          (('*' ∈ first.toList ∧ ∃ path ∈ listed files directory first,
              scheme.resolve (path.text :: others) directory = resolution) ∨
            '*' ∉ first.toList ∧ scheme.resolve (first :: others) directory = resolution) := by
  unfold candidates
  cases plugin.directive? line with
  | none => simp
  | some reference =>
      cases htokens : Reference.tokens reference with
      | nil => simp [htokens]
      | cons first others =>
          by_cases hstar : '*' ∈ first.toList
          · simp [htokens, hstar]
          · simp [htokens, hstar, eq_comm]

variable (includer : Includer) (store : MemoryFiles)

/-- A held file with this key has a directive of these tokens, and lies in this folder. -/
def Directs (source : String) (folder : Path) (tokens : List String) : Prop :=
  ∃ file ∈ store.toList, file.path.key = source ∧ file.path.folder = folder ∧
    ∃ line ∈ Text.splitLines file.content, ∃ reference, includer.directive? line = some reference ∧
      Reference.tokens reference = tokens

/-- A pattern in the held file with this key lists the path. -/
def Lists (source : String) (path : Path) : Prop :=
  ∃ folder first others, includer.Directs store source folder (first :: others) ∧
    '*' ∈ first.toList ∧ path ∈ listed store.view folder first

/-- A directive in a held file refers from the key of the file to another key. -/
inductive Refers (cwd : Path) (source target : String) : Prop where
  /-- The reference resolves to the key, and there is a file. -/
  | file {folder : Path} {first : String} {others : List String}
      (hdirects : includer.Directs store source folder (first :: others))
      (hstar : '*' ∉ first.toList)
      (hleads : ((Scheme.pathKey cwd).resolve (first :: others) folder).LeadsTo store target)
  /-- A file that the pattern lists resolves to the key. -/
  | listed {folder path : Path} {first : String} {others : List String}
      (hdirects : includer.Directs store source folder (first :: others))
      (hstar : '*' ∈ first.toList) (hpath : path ∈ listed store.view folder first)
      (hkey : ((Scheme.pathKey cwd).resolve (path.text :: others) folder).key? = some target)

/-- A directive in a held file leads from the key of the file to the key of another: to what its
reference resolves to, or to what a file that its pattern lists resolves to, if that is a file. -/
def Includes (cwd : Path) (source target : String) : Prop :=
  ∃ file ∈ store.toList, file.path.key = source ∧ ∃ line ∈ Text.splitLines file.content,
    ∃ resolution ∈ includer.candidates store.view (.pathKey cwd) file.path.folder line,
      resolution.LeadsTo store target

variable {includer store} {cwd : Path} {source : String}

/-- Only files that are held are listed. -/
theorem Lists.mem_paths {path : Path} (h : includer.Lists store source path) :
    path ∈ store.toList.map (·.path) := by
  obtain ⟨folder, first, others, -, -, hpath⟩ := h
  obtain ⟨_, _, paths, hlist, hmem⟩ := exists_list hpath
  exact MemoryFiles.mem_paths_of_list hlist hmem

/-- A listed path that does not end in a blank is resolved to itself, and there is a file. -/
theorem Lists.resolve_text (hcwd : cwd.isAbsolute = true) (hplain : store.Plain cwd) {path : Path}
    (h : includer.Lists store source path) (hends : Text.endsPlain path.text = true)
    (others : List String) (directory : Path) :
    (Scheme.pathKey cwd).resolve (path.text :: others) directory = .resolved path.key path ∧
      ∃ file, store.get? path = some file := by
  obtain ⟨file, hfile, rfl⟩ := List.mem_map.mp h.mem_paths
  obtain ⟨hpath, hget⟩ := hplain.get?_path hfile
  exact ⟨Path.resolve_text hcwd hpath.normal hends directory, file, hget⟩

/-- Where no listed path ends in a blank, directives lead to all that they refer to. -/
theorem refers_iff_includes (hcwd : cwd.isAbsolute = true) (hplain : store.Plain cwd)
    (hends : ∀ path, includer.Lists store source path → Text.endsPlain path.text = true)
    (target : String) :
    includer.Refers store cwd source target ↔ includer.Includes store cwd source target := by
  constructor
  · intro hrefers
    cases hrefers with
    | file hdirects hstar hleads =>
        obtain ⟨file, hfile, rfl, rfl, line, hline, reference, hdirective, htokens⟩ := hdirects
        exact ⟨file, hfile, rfl, line, hline, _, mem_candidates_iff.mpr
          ⟨reference, _, _, hdirective, htokens, .inr ⟨hstar, rfl⟩⟩, hleads⟩
    | @listed folder path first others hdirects hstar hpath hkey =>
        have hlists : includer.Lists store source path :=
          ⟨folder, first, others, hdirects, hstar, hpath⟩
        obtain ⟨hresolve, other, hget⟩ :=
          hlists.resolve_text hcwd hplain (hends path hlists) others folder
        have hleads : ((Scheme.pathKey cwd).resolve (path.text :: others) folder).LeadsTo store
            target :=
          ⟨hkey, path, other, by rw [hresolve, Resolution.path?_resolved], hget⟩
        obtain ⟨file, hfile, rfl, rfl, line, hline, reference, hdirective, htokens⟩ := hdirects
        exact ⟨file, hfile, rfl, line, hline, _, mem_candidates_iff.mpr
          ⟨reference, _, _, hdirective, htokens, .inl ⟨hstar, path, hpath, rfl⟩⟩, hleads⟩
  · rintro ⟨file, hfile, rfl, line, hline, resolution, hresolution, hleads⟩
    obtain ⟨reference, first, others, hdirective, htokens, hcases⟩ :=
      mem_candidates_iff.mp hresolution
    have hdirects : includer.Directs store file.path.key file.path.folder (first :: others) :=
      ⟨file, hfile, rfl, rfl, line, hline, reference, hdirective, htokens⟩
    rcases hcases with ⟨hstar, path, hpath, rfl⟩ | ⟨hstar, rfl⟩
    · exact .listed hdirects hstar hpath hleads.1
    · exact .file hdirects hstar hleads

end Includer

/-- The keys that the inputs of a run resolve to. -/
def Job.inputKeys (job : Job) (cwd : Path) : Set String :=
  {key | ∃ input ∈ job.inputs,
    ((Scheme.pathKey cwd).resolve [input] job.baseDirectory).key? = some key}

/-- The sets that hold the given keys and are closed under a relation. -/
def closedSets (start : Set String) (leads : String → String → Prop) : Set (Set String) :=
  {reached | start ⊆ reached ∧ ∀ source ∈ reached, ∀ target, leads source target → target ∈ reached}

/-- The least such set stays the least one when the relation is changed outside of it. -/
theorem isLeast_closedSets_congr {start reached : Set String}
    {leads leads' : String → String → Prop} (h : IsLeast (closedSets start leads) reached)
    (hiff : ∀ source ∈ reached, ∀ target, leads' source target ↔ leads source target) :
    IsLeast (closedSets start leads') reached := by
  obtain ⟨⟨hstart, hclosed⟩, hleast⟩ := h
  refine ⟨⟨hstart, fun source hsource target hleads => ?_⟩, fun other hother => ?_⟩
  · exact hclosed source hsource target ((hiff source hsource target).mp hleads)
  · -- what another set shares with the least one is closed under the old relation
    have hshared : reached ∩ other ∈ closedSets start leads := by
      refine ⟨Set.subset_inter hstart hother.1, fun source hsource target hleads => ⟨?_, ?_⟩⟩
      · exact hclosed source hsource.1 target hleads
      · exact hother.2 source hsource.2 target ((hiff source hsource.1 target).mpr hleads)
    exact (hleast hshared).trans Set.inter_subset_right

namespace Builtin

/-- With all other plugins in the second phase, the includer is alone in the first. -/
theorem active_onLoad_eq {includer : Includer} {others : List Builtin}
    (hincluder : includer.phase = .onLoad)
    (hothers : ∀ plugin ∈ others, (Plugin.descriptor plugin).phase = .onFinishUp) :
    active (.inl includer :: others) .onLoad = [.inl includer] := by
  have hsteps : (Chain.buildSteps (.inl includer :: others : List Builtin)).Perm
      (⟨.onLoad, .fullScript, 0⟩ ::
        (others.zipIdx 1).flatMap fun (plugin, position) => Chain.stepsOf position plugin) := by
    refine (List.mergeSort_perm _ _).trans (.of_eq ?_)
    rw [List.zipIdx_cons, List.flatMap_cons, ← hincluder]
    rfl
  have hlate : ((others.zipIdx 1).flatMap fun (plugin, position) =>
      Chain.stepsOf position plugin).filter (·.phase == .onLoad) = [] := by
    rw [List.filter_eq_nil_iff]
    intro step hstep
    obtain ⟨⟨plugin, position⟩, hplugin, hmem⟩ := List.mem_flatMap.mp hstep
    obtain ⟨slot, -, heq⟩ := stepsOf_eq position plugin
    obtain rfl : step = ⟨(Plugin.descriptor plugin).phase, slot, position⟩ := by
      simpa [heq] using hmem
    simp [hothers plugin (List.fst_mem_of_mem_zipIdx hplugin)]
  have hfilter := (hsteps.filter (·.phase == .onLoad)).filterMap
    ((.inl includer :: others : List Builtin)[·.plugin]?)
  rw [List.filter_cons_of_pos rfl, hlate] at hfilter
  exact List.perm_singleton.mp hfilter

variable {plugins : List Builtin} {files : FileView} {includer : Includer}

/-- The includer alone follows the directives in the lines of a script. -/
theorem phaseSources_eq (h : active plugins .onLoad = [.inl includer]) (script : Script)
    (lines : List String) (sources : Sources) :
    phaseSources plugins files .onLoad script lines sources =
      Sources.takeAll files includer.separator
        (includer.allTargets files sources.scheme script lines) sources := by
  rw [phaseSources, h]
  rfl

end Builtin

namespace Run.Course

open Builtin

variable {store : MemoryFiles} {job : Job} {plugins others : List Builtin} {includer : Includer}
  {cwd : Path} {output : Output} {final : Session}
  (course : Course store.view job plugins (Session.start cwd) output final)
  (hplain : store.Plain cwd) (hscheme : job.schemeFrom cwd = .pathKey cwd)
  (hconfigured : plugins.mapM (setUp job.settings) = .ok (.inl includer :: others))
  (hactive : active (.inl includer :: others) .onLoad = [.inl includer])

include hplain hscheme hconfigured hactive in
/-- Each tracked script is a held file, and its key lies in every set that is closed under
inclusion. -/
theorem reached :
    ∀ entry ∈ course.ingested.session.sources.entries,
      (∃ file, entry.script.StoredAs store file) ∧
        ∀ closed ∈ closedSets (job.inputKeys cwd) (includer.Includes store cwd),
          entry.script.key ∈ closed := by
  have hgrows := seed_grows course.seed_eq course.opened_eq
  refine (course.ingested_induction hconfigured store.view_readable (motive := fun _ sources _ =>
    sources.scheme = .pathKey cwd ∧ ∀ entry ∈ sources.entries,
      (∃ file, entry.script.StoredAs store file) ∧
        ∀ closed ∈ closedSets (job.inputKeys cwd) (includer.Includes store cwd),
          entry.script.key ∈ closed) ⟨hgrows.scheme.trans hscheme, ?_⟩ ?_).2
  · intro entry hentry
    obtain ⟨-, input, hinput, hloaded⟩ := mem_seeded course.seed_eq course.opened_eq hentry
    rw [hscheme] at hloaded
    refine ⟨hloaded.exists_stored hplain, fun closed hclosed => ?_⟩
    exact hclosed.1 ⟨input, hinput, hloaded.key⟩
  · rintro past sources loaded script ⟨hsources, hreached⟩ hnext
    refine ⟨by rw [scheme_turnSources, hsources], ?_⟩
    obtain ⟨⟨file, hfile⟩, hclosed⟩ := hreached _ (Sources.nextReady?_eq_some hnext)
    refine forall_turnSources (fun script => (∃ file, script.StoredAs store file) ∧
      ∀ closed ∈ closedSets (job.inputKeys cwd) (includer.Includes store cwd),
        script.key ∈ closed) ?_ hreached
    -- a script that is taken in stems from a line of a held file
    rw [phaseSources_eq hactive, hsources]
    refine Sources.takeAll_grows fun resolution hresolution target hloaded => ?_
    obtain ⟨line, hline, htarget⟩ := List.mem_flatMap.mp hresolution
    have hcandidate := Includer.mem_candidates htarget
    rw [script.directory_eq, hfile.path] at hcandidate
    refine ⟨?_, fun closed hmem => ?_⟩
    · obtain ⟨tokens, rfl⟩ := Includer.exists_tokens hcandidate
      exact hloaded.exists_stored hplain
    · refine hmem.2 script.key (hclosed closed hmem) target.key ?_
      exact ⟨file, hfile.mem, hfile.key.symm, line, hfile.lines ▸ hline, resolution, hcandidate,
        hloaded.leadsTo⟩

include course hplain hscheme hconfigured hactive in
/-- The keys that are put out are the least set that holds the keys of the inputs and is closed
under inclusion. -/
theorem isLeast_order :
    IsLeast (closedSets (job.inputKeys cwd) (includer.Includes store cwd))
      {key | key ∈ output.order} := by
  have hfollowed : Followed includer store.view (job.schemeFrom cwd) course.handed
      course.ingested.session.sources :=
    course.followed hconfigured store.view_readable (by simp [hactive]) (by simp [hactive])
  rw [hscheme] at hfollowed
  have hreached := course.reached hplain hscheme hconfigured hactive
  have hentries := course.perm_final hconfigured store.view_readable
  have hscripts := course.handed_perm hconfigured store.view_readable
  have horder : ∀ key, key ∈ output.order ↔ key ∈ course.ingested.session.sources.keys := by
    intro key
    rw [course.order_eq]
    exact (hentries.map Tracked.key).mem_iff
  constructor
  · constructor
    · rintro key ⟨input, hinput, hkey⟩
      rw [← hscheme] at hkey
      exact (horder key).mpr
        (course.mem_keys_of_input hconfigured store.view_readable hinput hkey)
    · rintro source hsource target ⟨file, hfile, rfl, line, hline, resolution, hresolution, hleads⟩
      obtain ⟨entry, hentry, hkey⟩ := Sources.mem_keys.mp ((horder _).mp hsource)
      obtain ⟨⟨other, hother⟩, -⟩ := hreached entry hentry
      -- the key tells the files apart, so the lines that were followed are those of this file
      obtain rfl : other = file :=
        hplain.eq_of_key_eq hother.mem hfile (hother.key.symm.trans hkey)
      obtain ⟨script, rfl, hloaded⟩ := hleads.exists_loaded includer.separator
      refine (horder _).mpr (hfollowed.tracked entry.script ?_ line ?_ resolution ?_ script hloaded)
      · exact hscripts.mem_iff.mpr (List.mem_map.mpr ⟨entry, hentries.mem_iff.mpr hentry, rfl⟩)
      · rw [hother.lines]
        exact hline
      · rw [entry.script.directory_eq, hother.path]
        exact hresolution
  · intro closed hclosed key hkey
    obtain ⟨entry, hentry, rfl⟩ := Sources.mem_keys.mp ((horder key).mp hkey)
    exact (hreached entry hentry).2 closed hclosed

end Run.Course

/-- A chain of the includer, or of the includer and the remover, is configured to an includer and
perhaps a remover behind it. -/
theorem Builtin.exists_configured {settings : Settings} {handles : List String}
    {plugins configured : List Builtin} (hhandles : handles = ["inc"] ∨ handles = ["inc", "blr"])
    (hchain : chain handles = .ok plugins)
    (hconfigured : plugins.mapM (setUp settings) = .ok configured) :
    ∃ includer others, configured = .inl includer :: others ∧
      ∀ plugin ∈ others, ∃ remover, plugin = .inr remover := by
  have hplugins : plugins = [.inl {}] ∨ plugins = [.inl {}, .inr {}] := by
    rcases hhandles with rfl | rfl
    · exact .inl (Except.ok.inj hchain).symm
    · exact .inr (Except.ok.inj hchain).symm
  have hall := mapM_eq_ok_iff.mp hconfigured
  obtain ⟨rest, rfl⟩ : ∃ rest, plugins = .inl {} :: rest := by
    rcases hplugins with rfl | rfl
    · exact ⟨_, rfl⟩
    · exact ⟨_, rfl⟩
  obtain ⟨first, others, hfirst, hothers, rfl⟩ := List.forall₂_cons_left_iff.mp hall
  obtain ⟨includer, -, rfl⟩ := setUp_includer_eq_ok hfirst
  refine ⟨includer, others, rfl, fun plugin hplugin => ?_⟩
  obtain ⟨old, hold, hsetUp⟩ := exists_of_mem_right hothers hplugin
  obtain rfl : old = .inr {} := by
    rcases hplugins with heq | heq
    · rw [List.cons.injEq] at heq
      rw [heq.2] at hold
      cases hold
    · rw [List.cons.injEq] at heq
      rw [heq.2] at hold
      exact List.mem_singleton.mp hold
  obtain ⟨remover, -, rfl⟩ := setUp_remover_eq_ok hsetUp
  exact ⟨remover, rfl⟩

/-- A run of the includer in the first phase, with or without the remover in the second, over files
under plain paths, in which the patterns of the scripts that are put out list no path that ends in a
blank: the keys that are put out are the least set that holds the keys of the inputs and is closed
under what directives refer to, and every file that a pattern lists is among them. -/
theorem run_reaches_closure {files : List (Path × String)} {job : Job} {cwd : Path}
    {handles : List String} {plugins configured : List Builtin} {includer : Includer} {limit : Nat}
    {output : Output} {final : Session} (hcwd : cwd.isAbsolute = true)
    (hplain : ∀ file ∈ files, file.1.IsPlain cwd) (hscheme : job.schemeFrom cwd = .pathKey cwd)
    (hhandles : handles = ["inc"] ∨ handles = ["inc", "blr"])
    (hchain : Builtin.chain handles = .ok plugins)
    (hconfigured : plugins.mapM (Builtin.setUp job.settings) = .ok configured)
    (hincluder : .inl includer ∈ configured) (hfirst : includer.phase = .onLoad)
    (hsecond : ∀ remover, .inr remover ∈ configured → remover.phase = .onFinishUp)
    (hrun : job.run (MemoryFiles.ofList files).view plugins limit (Session.start cwd) =
      .ok (some output) final)
    (hends : ∀ source ∈ output.order, ∀ path, includer.Lists (.ofList files) source path →
      Text.endsPlain path.text = true) :
    IsLeast (closedSets (job.inputKeys cwd) (includer.Refers (.ofList files) cwd))
        {key | key ∈ output.order} ∧
      ∀ source ∈ output.order, ∀ path, includer.Lists (.ofList files) source path →
        path.key ∈ output.order := by
  obtain ⟨other, others, rfl, hothers⟩ := Builtin.exists_configured hhandles hchain hconfigured
  obtain rfl : includer = other := by
    rcases List.mem_cons.mp hincluder with heq | hmem
    · exact Sum.inl.inj heq
    · obtain ⟨remover, heq⟩ := hothers _ hmem
      cases heq
  have hactive : Builtin.active (.inl includer :: others) .onLoad = [.inl includer] := by
    refine Builtin.active_onLoad_eq hfirst fun plugin hplugin => ?_
    obtain ⟨remover, rfl⟩ := hothers plugin hplugin
    exact hsecond remover (List.mem_cons_of_mem _ hplugin)
  obtain ⟨course, -⟩ := Course.of_run hrun
  have hstore := MemoryFiles.plain_ofList hplain
  have hleast := isLeast_closedSets_congr
    (course.isLeast_order hstore hscheme hconfigured hactive) fun source hsource target =>
      Includer.refers_iff_includes hcwd hstore (hends source hsource) target
  refine ⟨hleast, fun source hsource path hlists => ?_⟩
  obtain ⟨folder, first, rest, hdirects, hstar, hpath⟩ := id hlists
  refine hleast.1.2 source hsource path.key (.listed hdirects hstar hpath ?_)
  rw [(hlists.resolve_text hcwd hstore (hends source hsource path hlists) rest folder).1,
    Resolution.key?_resolved]

/-- A file with a pattern for a folder, in which a file refers to one that lies outside of it, and a
file that nothing refers to. -/
def patternFiles : List (Path × String) :=
  [(⟨"/m"⟩, "#include lib/*\n#include /x\nmain\n"), (⟨"/lib/a b"⟩, "a\n\n#include ../c\n"),
    (⟨"/c"⟩, "c\n"), (⟨"/d"⟩, "d\n")]

def patternOutput : Output :=
  ⟨[⟨"/m", ⟨"/m"⟩, ["main"]⟩, ⟨"/lib/a b", ⟨"/lib/a b"⟩, ["a"]⟩, ⟨"/c", ⟨"/c"⟩, ["c"]⟩]⟩

set_option maxRecDepth 10000 in
theorem run_reaches_closure_pattern :
    (∀ file ∈ patternFiles, file.1.IsPlain ⟨"/"⟩) ∧
      Includer.Lists {} (.ofList patternFiles) "/m" ⟨"/lib/a b"⟩ ∧
      ∃ final, Job.run { inputs := ["/m"] } (MemoryFiles.ofList patternFiles).view
          [(.inl {} : Builtin), .inr {}] 9 (Session.start ⟨"/"⟩) =
            .ok (some patternOutput) final ∧
        IsLeast (closedSets (Job.inputKeys { inputs := ["/m"] } ⟨"/"⟩)
            (Includer.Refers {} (.ofList patternFiles) ⟨"/"⟩))
          {key | key ∈ ["/m", "/lib/a b", "/c"]} := by
  have hplain : ∀ file ∈ patternFiles, file.1.IsPlain ⟨"/"⟩ := by
    intro file hfile
    simp only [patternFiles, List.mem_cons, List.not_mem_nil, or_false] at hfile
    rcases hfile with rfl | rfl | rfl | rfl <;> exact ⟨by decide +kernel, by decide⟩
  have hlists : Includer.Lists {} (.ofList patternFiles) "/m" ⟨"/lib/a b"⟩ :=
    ⟨⟨"/"⟩, "lib/*", [], ⟨⟨⟨"/m"⟩, "#include lib/*\n#include /x\nmain\n"⟩, by decide +kernel,
      by decide +kernel, by decide +kernel, "#include lib/*", by decide +kernel, "lib/*",
      by decide +kernel, by decide +kernel⟩, by decide, by decide +kernel⟩
  obtain ⟨final, hrun⟩ : ∃ final, Job.run { inputs := ["/m"] }
      (MemoryFiles.ofList patternFiles).view [(.inl {} : Builtin), .inr {}] 9
        (Session.start ⟨"/"⟩) = .ok (some patternOutput) final :=
    exists_final_of_steps rfl Builtin.buildSteps_default (by decide +kernel)
  have hchain : Builtin.chain ["inc", "blr"] = .ok [.inl {}, .inr {}] := rfl
  have hends : ∀ path ∈ (MemoryFiles.ofList patternFiles).toList.map (·.path),
      Text.endsPlain path.text = true := by decide +kernel
  refine ⟨hplain, hlists, final, hrun, ?_⟩
  exact (run_reaches_closure rfl hplain rfl (.inr rfl) hchain rfl (by simp) rfl (by simp) hrun
    fun source _ path hpath => hends path hpath.mem_paths).1

/-- A file whose name ends in a blank, which its path loses when it is resolved. -/
def blankFiles : List (Path × String) :=
  [(⟨"/m"⟩, "#include *\nmain\n"), (⟨"/a "⟩, "a\n")]

set_option maxRecDepth 10000 in
/-- A file that a pattern lists is left out if its path ends in a blank: neither its key is reached
nor the key that it resolves to. -/
theorem listed_key_not_reached :
    (∀ file ∈ blankFiles, file.1.IsPlain ⟨"/"⟩) ∧
      Includer.Lists {} (.ofList blankFiles) "/m" ⟨"/a "⟩ ∧
      ∃ final, Job.run { inputs := ["/m"] } (MemoryFiles.ofList blankFiles).view
          [(.inl {} : Builtin)] 9 (Session.start ⟨"/"⟩) =
            .ok (some ⟨[⟨"/m", ⟨"/m"⟩, ["main"]⟩]⟩) final ∧
        (Path.mk "/a ").key ∉ ["/m"] ∧
        ¬ IsLeast (closedSets (Job.inputKeys { inputs := ["/m"] } ⟨"/"⟩)
            (Includer.Refers {} (.ofList blankFiles) ⟨"/"⟩))
          {key | key ∈ ["/m"]} := by
  have hdirects : Includer.Directs {} (.ofList blankFiles) "/m" ⟨"/"⟩ ["*"] :=
    ⟨⟨⟨"/m"⟩, "#include *\nmain\n"⟩, by decide +kernel, by decide +kernel, by decide +kernel,
      "#include *", by decide +kernel, "*", by decide +kernel, by decide +kernel⟩
  have hlisted : ⟨"/a "⟩ ∈ Includer.listed (MemoryFiles.ofList blankFiles).view ⟨"/"⟩ "*" := by
    decide +kernel
  refine ⟨?_, ⟨_, _, _, hdirects, by decide, hlisted⟩, ?_⟩
  · intro file hfile
    simp only [blankFiles, List.mem_cons, List.not_mem_nil, or_false] at hfile
    rcases hfile with rfl | rfl <;> exact ⟨by decide +kernel, by decide⟩
  · obtain ⟨final, hrun⟩ := exists_final
      (show output? (Job.run { inputs := ["/m"] } (MemoryFiles.ofList blankFiles).view
        [(.inl {} : Builtin)] 9 (Session.start ⟨"/"⟩)) = some ⟨[⟨"/m", ⟨"/m"⟩, ["main"]⟩]⟩ by
          decide +kernel)
    refine ⟨final, hrun, by decide +kernel, fun hleast => ?_⟩
    have hrefers : Includer.Refers {} (.ofList blankFiles) ⟨"/"⟩ "/m" "/a" :=
      .listed hdirects (by decide) hlisted (by decide +kernel)
    have hmem := hleast.1.2 "/m" (by simp) "/a" hrefers
    simp at hmem

end SourceWeave
