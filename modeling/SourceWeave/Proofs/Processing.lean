import SourceWeave.Command.Execute
import SourceWeave.Proofs.Passes
import SourceWeave.Proofs.Turns
import Mathlib.Algebra.Ring.Nat

/-!
# Every script is processed once

A run of built-in plugins over files held in memory comes to an end, although the scripts it is
handed may take in further scripts, also under keys that are no paths. Only the scripts of the
inputs and what the lines of files and the removal keywords lead to can be taken in, and these are
finitely many: `length_possibleKeys_lt`. That a script is processed once is said of its passes
through the two phases, `Run.Course.OncePerKey`. The main statement is `run_processes_once`.
-/

namespace SourceWeave

open Run

/-- Parts that are bounded by their weights are together bounded by the weights together. -/
theorem length_flatMap_le {α β : Type} (parts : α → List β) (weight : α → Nat) {bound : Nat}
    (as : List α) (h : ∀ a ∈ as, (parts a).length ≤ weight a * bound) :
    (as.flatMap parts).length ≤ (as.map weight).sum * bound := by
  induction as with
  | nil => simp
  | cons a rest ih =>
      have hfirst := h a (by simp)
      have hrest := ih fun other hother => h other (by simp [hother])
      rw [List.flatMap_cons, List.length_append, List.map_cons, List.sum_cons, Nat.add_mul]
      omega

/-- How many lines the files of a store have in all. -/
def MemoryFiles.lineCount (store : MemoryFiles) : Nat :=
  (store.toList.map fun file => (Text.splitLines file.content).length).sum

namespace Includer

variable (plugin : Includer) (store : MemoryFiles) (scheme : Scheme) (directory : Path)

/-- A pattern lists no more files than there are. -/
theorem length_listed_le (first : String) :
    (listed store.view directory first).length ≤ store.toList.length := by
  unfold listed
  split
  · simp
  · simp only
    split
    · next folder name _ _ =>
      simp only [MemoryFiles.view, MemoryFiles.list]
      cases readPattern name with
      | error e => simp
      | ok glob =>
          simp only
          exact Nat.le_trans (List.length_filter_le _ _) (Nat.le_of_eq (List.length_map _))
    · simp

/-- A line leads to no more than all files, or to one reference. -/
theorem length_candidates_le (line : String) :
    (plugin.candidates store.view scheme directory line).length ≤ store.toList.length + 1 := by
  unfold candidates
  split
  · simp
  · split
    · simp
    · next first others _ =>
      split
      · rw [List.length_map]
        exact Nat.le_succ_of_le (length_listed_le store directory first)
      · simp

/-- The keys that the lines of a file lead to, where these lines are joined by some keywords. -/
def keysFrom (keywords : List String) (held : List Path.Component × MemoryFile) : List String :=
  (Text.splitLines held.2.content ++ keywords).flatMap fun line =>
    (plugin.candidates store.view scheme (Path.spell held.1).folder line).filterMap (·.key?)

theorem length_keysFrom_le {keywords : List String} (hkeywords : keywords.length ≤ 2)
    (held : List Path.Component × MemoryFile) :
    (plugin.keysFrom store scheme keywords held).length ≤
      ((Text.splitLines held.2.content).length + 2) * (store.toList.length + 1) := by
  have hline : ∀ line ∈ Text.splitLines held.2.content ++ keywords,
      ((plugin.candidates store.view scheme (Path.spell held.1).folder line).filterMap
        (·.key?)).length ≤ 1 * (store.toList.length + 1) := by
    intro line _
    rw [Nat.one_mul]
    exact Nat.le_trans (List.length_filterMap_le _ _)
      (plugin.length_candidates_le store scheme _ line)
  have hall := length_flatMap_le _ (fun _ => 1) _ hline
  refine Nat.le_trans hall (Nat.mul_le_mul_right _ ?_)
  simpa using hkeywords

/-- The keys that a run can take in: those of its inputs, and those that files lead to. -/
def possibleKeys (keywords : List String) (inputs : List Resolution) : List String :=
  inputs.filterMap (·.key?) ++ store.files.toList.flatMap (plugin.keysFrom store scheme keywords)

/-- There are at most as many keys as inputs, and for each line of a file and each of the two
keywords as many as there are files, and one more. -/
theorem length_possibleKeys_lt {keywords : List String} (hkeywords : keywords.length ≤ 2)
    (inputs : List Resolution) :
    (plugin.possibleKeys store scheme keywords inputs).length <
      Command.processingBound inputs.length store.toList.length store.lineCount := by
  have hinputs : (inputs.filterMap (·.key?)).length ≤ inputs.length :=
    List.length_filterMap_le _ _
  have hfiles := length_flatMap_le (plugin.keysFrom store scheme keywords)
    (fun held => (Text.splitLines held.2.content).length + 2) store.files.toList
    fun held _ => plugin.length_keysFrom_le store scheme hkeywords held
  have hsum : (store.files.toList.map fun held => (Text.splitLines held.2.content).length + 2).sum =
      store.lineCount + 2 * store.toList.length := by
    simp only [MemoryFiles.lineCount, MemoryFiles.toList, List.map_map, List.length_map]
    induction store.files.toList with
    | nil => rfl
    | cons held rest ih =>
        simp only [List.map_cons, List.sum_cons, List.length_cons, ih, Function.comp_apply]
        omega
  rw [hsum] at hfiles
  rw [possibleKeys, List.length_append, Command.processingBound]
  omega

end Includer

/-- A run that is told to use a built-in scheme, or none, uses a built-in scheme. -/
theorem Job.builtin_schemeFrom (job : Job) {cwd : Path}
    (h : ∀ scheme, job.scheme? = some scheme → Scheme.Builtin cwd scheme) :
    Scheme.Builtin cwd (job.schemeFrom cwd) := by
  unfold Job.schemeFrom
  cases hscheme : job.scheme? with
  | none => exact .pathKey
  | some scheme => exact h scheme hscheme

namespace Builtin

variable {store : MemoryFiles} {scheme : Scheme} {cwd : Path} {keywords : List String}
  {inputs : List Resolution} {plugins : List Builtin}

/-- The script is a file of the store, under the spelling of its components and under one of the
keys that a run can take in. -/
structure Known (includer : Includer) (store : MemoryFiles) (scheme : Scheme)
    (keywords : List String) (inputs : List Resolution) (script : Script) : Prop where
  key : script.key ∈ includer.possibleKeys store scheme keywords inputs
  spelled : script.path = Path.spell script.path.components
  file : ∃ file, store.get? script.path = some file ∧
    script.rawLines = Text.splitLines file.content

/-- What a built-in scheme leads to is known as soon as its key is possible. -/
theorem Known.of_loaded {includer : Includer} (hscheme : Scheme.Builtin cwd scheme)
    {separator : String} {tokens : List String} {directory : Path} {script : Script}
    (hloaded : script.LoadedFrom store.view separator (scheme.resolve tokens directory))
    (hkey : script.key ∈ includer.possibleKeys store scheme keywords inputs) :
    Known includer store scheme keywords inputs script :=
  ⟨hkey, hscheme.path_eq_spell hloaded.key hloaded.path,
    MemoryFiles.readLines_view.mp hloaded.lines⟩

/-- A known script leads to known scripts. -/
theorem Known.grows {includer : Includer} (hscheme : Scheme.Builtin cwd scheme)
    (hincluder : ∀ other, .inl other ∈ plugins → other = includer)
    (hkeywords : ∀ plugin ∈ plugins, plugin.removalKeyword ∈ keywords)
    {script : Script} (hscript : Known includer store scheme keywords inputs script)
    {sources : Sources} (hsources : sources.scheme = scheme) :
    sources.Grows (Known includer store scheme keywords inputs)
      (phaseSources plugins store.view .onLoad script script.rawLines sources) := by
  obtain ⟨file, hfile, hlines⟩ := hscript.file
  have hheld : (script.path.components, file) ∈ store.files.toList :=
    Std.TreeMap.mem_toList_iff_getElem?_eq_some.mpr hfile
  refine phaseSources_grows fun other hother line hline resolution hresolution target hloaded => ?_
  obtain rfl := hincluder other hother
  rw [hsources, script.directory_eq] at hresolution
  have hcandidate := Includer.mem_candidates hresolution
  obtain ⟨tokens, rfl⟩ := Includer.exists_tokens hcandidate
  refine Known.of_loaded hscheme hloaded (List.mem_append_right _ ?_)
  refine List.mem_flatMap.mpr ⟨_, hheld, List.mem_flatMap.mpr ⟨line, ?_, ?_⟩⟩
  · rcases hline with hraw | ⟨plugin, hplugin, rfl⟩
    · exact List.mem_append_left _ (hlines ▸ hraw)
    · exact List.mem_append_right _ (hkeywords plugin hplugin)
  · rw [← hscript.spelled]
    exact List.mem_filterMap.mpr ⟨_, hcandidate, hloaded.key⟩

/-- A chain that handles name has at most one kind of includer and two removal keywords. -/
theorem Configured.exists_common {settings : Settings} (h : Configured settings plugins) :
    ∃ (includer : Includer) (keywords : List String), keywords.length ≤ 2 ∧
      (∀ other, .inl other ∈ plugins → other = includer) ∧
        ∀ plugin ∈ plugins, plugin.removalKeyword ∈ keywords := by
  obtain ⟨includer, hincluder⟩ : ∃ includer, ∀ other, .inl other ∈ plugins → other = includer := by
    by_cases hsome : ∃ includer, .inl includer ∈ plugins
    · obtain ⟨includer, hmem⟩ := hsome
      exact ⟨includer, fun other hother => h.includer_unique hother hmem⟩
    · exact ⟨{}, fun other hother => absurd ⟨other, hother⟩ hsome⟩
  obtain ⟨remover, hremover⟩ : ∃ remover, ∀ other, .inr other ∈ plugins → other = remover := by
    by_cases hsome : ∃ remover, .inr remover ∈ plugins
    · obtain ⟨remover, hmem⟩ := hsome
      exact ⟨remover, fun other hother => h.remover_unique hother hmem⟩
    · exact ⟨{}, fun other hother => absurd ⟨other, hother⟩ hsome⟩
  refine ⟨includer, [includer.removalKeyword, remover.removalKeyword], by simp, hincluder, ?_⟩
  intro plugin hplugin
  cases plugin with
  | inl other => simp [removalKeyword, hincluder other hplugin]
  | inr other => simp [removalKeyword, hremover other hplugin]

/-- No more scripts have been handed out than keys are possible. -/
theorem Progress.length_le {past : List Script} {sources : Sources} {loaded : LinesByKey}
    {possible : List String} (h : Progress plugins past sources loaded)
    (hpossible : ∀ entry ∈ sources.entries, entry.key ∈ possible) :
    past.length ≤ possible.length := by
  have hsubset : past.map Script.key ⊆ possible := by
    intro key hkey
    obtain ⟨script, hscript, rfl⟩ := List.mem_map.mp hkey
    exact hpossible _ (h.tracked script hscript)
  have hlength := (List.subperm_of_subset h.nodup hsubset).length_le
  rwa [List.length_map] at hlength

/-- A first phase that is handed only known scripts comes to its end, if their keys are among
finitely many. -/
theorem exists_drains {files : FileView} (job : Job) (hfiles : files.Readable)
    {known : Script → Prop} {possible : List String}
    (hpossible : ∀ script, known script → script.key ∈ possible)
    (hgrows : ∀ (script : Script) (sources : Sources), known script → sources.scheme = scheme →
      sources.Grows known (phaseSources plugins files .onLoad script script.rawLines sources))
    {session : Session} (hscheme : session.sources.scheme = scheme)
    (hknown : ∀ entry ∈ session.sources.entries, known entry.script) {past : List Script}
    {loaded : LinesByKey} (hprogress : Progress plugins past session.sources loaded) :
    ∃ handed last result,
      Drains files job ⟨.ofConfigured plugins, session⟩ loaded handed last result ∧
        past.length + handed.length ≤ possible.length := by
  have hlength := hprogress.length_le fun entry hentry => hpossible _ (hknown entry hentry)
  -- with each turn the keys that have not been handed out become fewer
  induction hleft : possible.length - past.length using Nat.strongRecOn
    generalizing session past loaded with
  | ind left ih =>
      cases hnext : session.sources.nextReady? with
      | none => exact ⟨[], _, _, .done hnext, hlength⟩
      | some script =>
          obtain ⟨after, hprocess, hafter⟩ := processScript_eq plugins job hfiles script session
          have hscript := hknown _ (Sources.nextReady?_eq_some hnext)
          have hknown' := forall_turnSources known (hgrows script _ hscript hscheme) hknown
          have hprogress' := hprogress.turn files hnext
          rw [← hafter] at hknown' hprogress'
          have hlength' := hprogress'.length_le fun entry hentry =>
            hpossible _ (hknown' entry hentry)
          rw [List.length_append, List.length_singleton] at hlength'
          obtain ⟨handed, last, result, hdrains, hbound⟩ := ih (possible.length - (past.length + 1))
            (by omega) (by rw [hafter, scheme_turnSources, hscheme]) hknown' hprogress'
            (by simpa using hlength') (by simp)
          refine ⟨script :: handed, last, result, .turn hnext hprocess hdrains, ?_⟩
          rw [List.length_append, List.length_singleton] at hbound
          rw [List.length_cons]
          omega

/-- Built-in plugins that can be configured, and inputs that can be loaded, lead to an output, and
the scripts that are handed out are fewer than the bound. -/
theorem exists_course {job : Job} {handles : List String} {configured : List Builtin}
    (hchain : chain handles = .ok plugins) (hscheme : Scheme.Builtin cwd (job.schemeFrom cwd))
    (hconfigured : plugins.mapM (setUp job.settings) = .ok configured) {opened seeded : Session}
    (hconfigure : Chain.configure job.settings job.definitions plugins
      ((Session.start cwd).setScheme job.scheme?) = .ok (.ofConfigured configured) opened)
    (hseed : seed store.view job job.inputs (opened.setLock false) = .ok () seeded) :
    ∃ output final, ∃ course : Course store.view job plugins (Session.start cwd) output final,
      course.handed.length <
        Command.processingBound job.inputs.length store.toList.length store.lineCount := by
  have hopened : (opened.setLock false).sources = job.opened cwd := by
    rw [Session.sources_setLock, sources_configure hconfigure]
    rfl
  obtain ⟨includer, keywords, htwo, hincluder, hkeywords⟩ :=
    (Configured.of_chain hchain hconfigured).exists_common
  have hlength := includer.length_possibleKeys_lt store (job.schemeFrom cwd) htwo
    (job.inputs.map fun input => (job.schemeFrom cwd).resolve [input] job.baseDirectory)
  rw [List.length_map] at hlength
  -- the bound depends on the number of the inputs only
  generalize hinputs : job.inputs.map (fun input =>
    (job.schemeFrom cwd).resolve [input] job.baseDirectory) = inputs at hlength
  have hknown : ∀ entry ∈ seeded.sources.entries,
      Known includer store (job.schemeFrom cwd) keywords inputs entry.script := by
    intro entry hentry
    obtain ⟨-, input, hinput, hloaded⟩ := mem_seeded hseed hopened hentry
    refine Known.of_loaded hscheme hloaded (List.mem_append_left _ ?_)
    rw [← hinputs]
    exact List.mem_filterMap.mpr ⟨_, List.mem_map_of_mem hinput, hloaded.key⟩
  obtain ⟨handed, last, loaded, hdrains, hbound⟩ :=
    exists_drains job store.view_readable (fun script => Known.key)
      (fun script sources hscript hsources =>
        hscript.grows hscheme hincluder hkeywords hsources)
      (seed_grows hseed hopened).scheme hknown (progress_seeded hseed hopened)
  -- the turns leave the chain as it was configured, so the second phase cannot fail either
  have hlast := (drains_induction (motive := fun _ _ _ => True) store.view_readable
    (fun _ _ _ _ _ _ => trivial) [] hdrains trivial).1
  obtain ⟨after, hfinish, -⟩ := finish_eq configured job store.view_readable loaded
    last.session.sources.nodup_map_scripts {} (last.session.setLock opened.sources.locked)
  rw [← hlast] at hfinish
  refine ⟨_, _, ⟨_, opened, seeded, handed, last, loaded, _, _, hconfigure, hseed, hdrains, hfinish,
    rfl, rfl⟩, ?_⟩
  rw [List.length_nil, Nat.zero_add] at hbound
  exact Nat.lt_of_le_of_lt hbound hlength

end Builtin

namespace Run.Course

open Builtin

/-- Each tracked key has one pass through the first phase and one through the second, and both
record its lines. -/
structure OncePerKey {files : FileView} {job : Job} {plugins : List Builtin} {start final : Session}
    {output : Output} (course : Course files job plugins start output final)
    (loads finishes : List Pass) : Prop extends course.OwnLines loads finishes where
  /-- In the end nothing waits. -/
  all_done : ∀ entry ∈ final.sources.entries, entry.stage = .done
  /-- Each key has one pass through the first phase, so none that is done is handed out again. -/
  loads_once : ∀ key, (loads.map (·.script.key)).count key = if key ∈ output.order then 1 else 0
  /-- The first phase has as many passes as scripts are put out. -/
  length_loads : loads.length = output.scripts.length
  /-- Each key has one pass through the second phase. -/
  finishes_once : ∀ key, (finishes.map (·.script.key)).count key =
    if key ∈ output.order then 1 else 0
  /-- It begins with the lines that came out of the pass of the same script through the first. -/
  begins_with : ∀ second ∈ finishes, ∃ first ∈ loads, first.script = second.script ∧
    latest loads second.script.key = first.lines
  /-- The second phase finds lines for each key. -/
  mem_loaded : ∀ key ∈ output.order, key ∈ course.loaded
  /-- The output finds lines for each key. -/
  mem_finished : ∀ key ∈ output.order, key ∈ course.finished

/-- Passes of the scripts of the output, in whichever order, are one for each key. -/
theorem count_passes {files : FileView} {job : Job} {plugins : List Builtin} {start final : Session}
    {output : Output} (course : Course files job plugins start output final) {passes : List Pass}
    (hpasses : (passes.map (·.script)).Perm final.sources.scripts) (key : String) :
    (passes.map (·.script.key)).count key = if key ∈ output.order then 1 else 0 := by
  have hkeys : (passes.map (·.script.key)).Perm final.sources.keys := by
    have hmap := hpasses.map Script.key
    rwa [List.map_map, ← Sources.keys_eq_map_scripts] at hmap
  rw [course.order_eq, hkeys.count_eq]
  exact final.sources.keys_nodup.count

/-- In a run of built-in plugins each tracked key has one pass through each phase. -/
theorem exists_oncePerKey {files : FileView} (hfiles : files.Readable) {job : Job}
    {plugins : List Builtin} {cwd : Path} {output : Output} {final : Session}
    (course : Course files job plugins (Session.start cwd) output final) :
    ∃ loads finishes, course.OncePerKey loads finishes := by
  obtain ⟨configured, hconfigured⟩ := course.exists_setUp
  have hprogress := course.progress hconfigured hfiles
  obtain ⟨hfinished, -⟩ := course.finished_eq hconfigured hfiles
  have hentries := course.perm_final hconfigured hfiles
  have hnone := course.drains.nextReady?_eq_none
  obtain ⟨loads, finishes, hown⟩ := course.exists_ownLines
  -- both phases go over the scripts of the output, though not in their order
  have hloads : (loads.map (·.script)).Perm final.sources.scripts := by
    rw [hown.handed_eq]
    exact course.handed_perm hconfigured hfiles
  have hfinishes : (finishes.map (·.script)).Perm final.sources.scripts := by
    rw [hown.snapshot_eq]
    exact (hentries.map _).symm
  have hnodup : (loads.map (·.script.key)).Nodup :=
    List.nodup_iff_count_le_one.mpr fun key => by
      rw [course.count_passes hloads]
      split <;> omega
  have hmem : ∀ key ∈ output.order, ∃ script ∈ final.sources.scripts, script.key = key := by
    intro key hkey
    rw [course.order_eq, Sources.keys_eq_map_scripts] at hkey
    exact List.mem_map.mp hkey
  refine ⟨loads, finishes, hown, ?_, course.count_passes hloads, ?_, course.count_passes hfinishes,
    ?_, ?_, ?_⟩
  · intro entry hentry
    exact Sources.nextReady?_eq_none_iff.mp hnone entry (hentries.mem_iff.mp hentry)
  · rw [← List.length_map, hloads.length_eq, course.output_scripts, List.length_map]
  · intro second hsecond
    have hscript := (hloads.trans hfinishes.symm).mem_iff.mpr (List.mem_map_of_mem hsecond)
    obtain ⟨first, hfirst, heq⟩ := List.mem_map.mp hscript
    refine ⟨first, hfirst, heq, ?_⟩
    rw [← heq, latest, latest?_of_mem hnodup hfirst, Option.getD_some]
  · intro key hkey
    obtain ⟨script, hscript, rfl⟩ := hmem key hkey
    have hhanded := (course.handed_perm hconfigured hfiles).mem_iff.mpr hscript
    rw [Std.TreeMap.mem_iff_isSome_getElem?, hprogress.loaded_eq script hhanded]
    rfl
  · intro key hkey
    obtain ⟨script, hscript, rfl⟩ := hmem key hkey
    have hingested : script ∈ course.ingested.session.sources.scripts :=
      (hentries.map _).mem_iff.mp hscript
    rw [Std.TreeMap.mem_iff_isSome_getElem?, hfinished, getElem?_finishLines,
      if_pos (List.mem_map_of_mem hingested)]
    rfl

end Run.Course

/-- A run of built-in plugins over files held in memory comes to an end: from some limit on it does
not depend on the limit, and it never meets it. If the run puts something out, each tracked key has
had one pass through the first phase and one through the second, which begins with the lines that
came out of the first. -/
theorem run_processes_once {store : MemoryFiles} {job : Job} {cwd : Path} {handles : List String}
    {plugins : List Builtin} (hchain : Builtin.chain handles = .ok plugins)
    (hscheme : ∀ scheme, job.scheme? = some scheme → Scheme.Builtin cwd scheme) :
    (∃ result : EStateM.Result Error Session (Option Output), (∀ final, result ≠ .ok none final) ∧
      ∀ limit,
        Command.processingBound job.inputs.length store.toList.length store.lineCount ≤ limit →
          job.run store.view plugins limit (Session.start cwd) = result) ∧
    ∀ limit output final,
      job.run store.view plugins limit (Session.start cwd) = .ok (some output) final →
        Nonempty (Course store.view job plugins (Session.start cwd) output final) ∧
          ∀ course : Course store.view job plugins (Session.start cwd) output final,
            ∃ loads finishes, course.OncePerKey loads finishes := by
  constructor
  · cases hconfigure : Chain.configure job.settings job.definitions plugins
        ((Session.start cwd).setScheme job.scheme?) with
    | error e failed =>
        refine ⟨.error e failed, by simp, fun limit _ => ?_⟩
        exact run_of_configure_error hconfigure limit
    | ok chain opened =>
        obtain ⟨configured, hconfigured, rfl, -⟩ := Builtin.configure_eq_ok hconfigure
        cases hseed : seed store.view job job.inputs (opened.setLock false) with
        | error e failed =>
            refine ⟨.error e (failed.setLock opened.sources.locked), by simp, fun limit _ => ?_⟩
            rw [run_of_configure hconfigure, process_eq, hseed]
        | ok _ seeded =>
            obtain ⟨output, final, course, hlength⟩ :=
              Builtin.exists_course hchain (job.builtin_schemeFrom hscheme) hconfigured hconfigure
                hseed
            refine ⟨.ok (some output) final, by simp, fun limit hlimit => ?_⟩
            exact course.run_eq (Nat.lt_of_lt_of_le hlength hlimit)
  · intro limit output final hrun
    obtain ⟨course, -⟩ := Course.of_run hrun
    exact ⟨⟨course⟩, fun course => course.exists_oncePerKey store.view_readable⟩

/-- Two files that include each other, and a line that only the second phase takes out. -/
def cyclicFiles : MemoryFiles :=
  .ofList [(⟨"/a"⟩, "#include /b x\na\n"), (⟨"/b"⟩, "b\n \t\n#include /a\n")]

/-- A run from one of them, in which the other is known by a parameter. -/
def cyclicJob : Job :=
  { inputs := ["/a"], scheme? := some (.parameterized ⟨"/"⟩) }

def cyclicOutput : Output :=
  ⟨[⟨"/b?x", ⟨"/b"⟩, ["b"]⟩, ⟨"/a", ⟨"/a"⟩, ["a"]⟩]⟩

set_option maxRecDepth 10000 in
theorem run_processes_once_cycle :
    Builtin.chain ["inc", "blr"] = .ok [.inl {}, .inr {}] ∧
      BlankLineRemover.phase {} = .onFinishUp ∧
      ∃ final, cyclicJob.run cyclicFiles.view [(.inl {} : Builtin), .inr {}] 100
          (Session.start ⟨"/"⟩) = .ok (some cyclicOutput) final ∧
        ∀ course : Course cyclicFiles.view cyclicJob [(.inl {} : Builtin), .inr {}]
          (Session.start ⟨"/"⟩) cyclicOutput final,
          ∃ loads finishes, course.OncePerKey loads finishes := by
  have hchain : Builtin.chain ["inc", "blr"] = .ok [.inl {}, .inr {}] := rfl
  have hscheme : ∀ scheme, cyclicJob.scheme? = some scheme → Scheme.Builtin ⟨"/"⟩ scheme := by
    rintro scheme ⟨rfl⟩
    exact .parameterized
  obtain ⟨final, hrun⟩ : ∃ final, cyclicJob.run cyclicFiles.view [(.inl {} : Builtin), .inr {}] 100
      (Session.start ⟨"/"⟩) = .ok (some cyclicOutput) final :=
    exists_final_of_steps rfl Builtin.buildSteps_default (by decide +kernel)
  exact ⟨hchain, rfl, final, hrun, ((run_processes_once hchain hscheme).2 100 _ final hrun).2⟩

end SourceWeave
