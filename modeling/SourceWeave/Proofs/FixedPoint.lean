import SourceWeave.Proofs.Insertion
import SourceWeave.Proofs.KeptLines
import SourceWeave.Proofs.NormalForm
import SourceWeave.Proofs.Rendering
import SourceWeave.Proofs.Seeding

/-!
# Weaving a rendered text once more

No line that a run puts out is one that its plugins drop, so none of them is a directive, and none
is replaced by a removal keyword that could be one. A file of such lines takes in no other script
and keeps all its lines: `run_of_undropped`. The text of an output is such a file, which gives the
main statement, `rendered_text_fixed`.
-/

namespace SourceWeave

open Run

/-- A single file is held under its path. -/
theorem MemoryFiles.get?_ofList_singleton (path : Path) (content : String) :
    (ofList [(path, content)]).get? path = some ⟨path, content⟩ := by
  have hnone : empty.get? path = none := by simp [get?, empty]
  show (empty.insert path content).get? path = _
  rw [insert, hnone]
  simp [get?]

namespace Builtin

variable {plugins : List Builtin} {files : FileView}

/-- What no plugin drops none of them marks. -/
theorem marks_eq_false {line : String} (h : plugins.any (·.drops line) = false)
    {plugin : Builtin} (hplugin : plugin ∈ plugins) : plugin.marks line = false := by
  have hdrops := List.any_eq_false.mp h plugin hplugin
  simp only [drops, Bool.or_eq_true, not_or, Bool.not_eq_true] at hdrops
  exact hdrops.2

/-- A plugin leaves lines alone that it does not mark. -/
theorem map_rewrite_eq_self {plugin : Builtin} {lines : List String}
    (h : ∀ line ∈ lines, plugin.marks line = false) : lines.map plugin.rewrite = lines := by
  refine (List.map_congr_left fun line hline => ?_).trans (List.map_id lines)
  rw [rewrite_eq, h line hline]
  rfl

/-- Lines that a plugin does not mark lead nowhere. -/
theorem advance_eq_self {plugin : Builtin} {lines : List String}
    (h : ∀ line ∈ lines, plugin.marks line = false) (script : Script) (sources : Sources) :
    plugin.advance files script lines sources = sources := by
  cases plugin with
  | inl includer =>
      have hnone : includer.allTargets files sources.scheme script lines = [] := by
        refine List.flatMap_eq_nil_iff.mpr fun line hline => ?_
        have hdirective : includer.directive? line = none := by
          simpa [marks] using h line hline
        rw [Includer.targets, hdirective]
      rw [advance, hnone]
      rfl
  | inr remover => rfl

/-- Lines that none of the plugins marks leave the sources alone. -/
theorem sweepSources_eq_self {running : List Builtin} {lines : List String}
    (h : ∀ plugin ∈ running, ∀ line ∈ lines, plugin.marks line = false) (script : Script)
    (sources : Sources) : sweepSources files script running lines sources = sources := by
  induction running with
  | nil => rfl
  | cons plugin rest ih =>
      have hplugin := h plugin (by simp)
      rw [sweepSources, map_rewrite_eq_self hplugin, advance_eq_self hplugin]
      exact ih fun other hother => h other (by simp [hother])

/-- A turn over lines that no plugin marks takes no script in and moves none. -/
theorem scripts_turnSources {script : Script}
    (h : ∀ plugin ∈ plugins, ∀ line ∈ script.rawLines, plugin.marks line = false)
    (sources : Sources) : (turnSources plugins files script sources).scripts = sources.scripts := by
  have hphase : phaseSources plugins files .onLoad script script.rawLines sources = sources :=
    sweepSources_eq_self (fun plugin hplugin => h plugin (mem_active.mp hplugin).1) script sources
  rw [turnSources, hphase, Sources.scripts_setStage]

end Builtin

/-- The script that a run makes of the lines of an input file. -/
def Job.fileScript (job : Job) (path : Path) (lines : List String) : Script :=
  ⟨path.key, path, lines, .resolved path.key path, job.separator⟩

/-- An input that stands for a canonical path is the file under this path. -/
theorem Run.seed_eq_enqueue {files : FileView} {job : Job} {cwd path : Path} {session : Session}
    (hscheme : Scheme.Builtin cwd session.sources.scheme) (hlock : session.sources.locked = false)
    (hpath : path.IsCanonical) (hplain : Text.IsPlain path.text) {lines : List String}
    (hfile : files.isFile path = true) (hlines : files.readLines path = .ok lines) :
    seed files job [path.text] session =
      .ok () (session.enqueue (job.fileScript path lines)) := by
  have hload : loadInput files job path.text session =
      .ok (job.fileScript path lines) session := by
    rw [loadInput_eq hscheme hlock hplain.unquote?_eq, Path.join_absolute hpath.isAbsolute,
      hpath.normalize_eq, readScript, if_pos hfile, hlines]
    rfl
  rw [seed, bind_of_ok hload]
  rfl

namespace Run.Course

open Builtin

variable {files : FileView} {job : Job} {plugins configured : List Builtin} {cwd : Path}
  {output : Output} {final : Session}
  (course : Course files job plugins (Session.start cwd) output final)
  (hconfigured : plugins.mapM (setUp job.settings) = .ok configured) (hfiles : files.Readable)

include hconfigured hfiles in
/-- A run from one script with lines that no plugin marks ends with this script alone. -/
theorem scripts_final {script : Script} (hseeded : course.seeded.sources.scripts = [script])
    (hmarks : ∀ plugin ∈ configured, ∀ line ∈ script.rawLines, plugin.marks line = false) :
    final.sources.scripts = [script] := by
  have hingested : course.ingested.session.sources.scripts = [script] := by
    refine course.ingested_induction hconfigured hfiles
      (motive := fun _ sources _ => sources.scripts = [script]) hseeded ?_
    intro past sources loaded next hscripts hnext
    have hmem : next ∈ sources.scripts := List.mem_map_of_mem (Sources.nextReady?_eq_some hnext)
    obtain rfl : next = script := by simpa [hscripts] using hmem
    rw [scripts_turnSources hmarks, hscripts]
  refine List.perm_singleton.mp ?_
  rw [← hingested]
  exact (course.perm_final hconfigured hfiles).map _

include course hconfigured hfiles in
/-- A run that ends with one script, with lines that no plugin drops, puts out these lines. -/
theorem output_eq_singleton {script : Script} (hfinal : final.sources.scripts = [script])
    (hlines : files.readLines script.path = .ok script.rawLines)
    (hkept : ∀ line ∈ script.rawLines, configured.any (·.drops line) = false) :
    output = ⟨[⟨script.key, script.path, script.rawLines⟩]⟩ := by
  have hscripts := course.output_scripts
  rw [hfinal, List.map_singleton] at hscripts
  obtain ⟨raw, hraw, hemitted⟩ := course.lines_eq hconfigured hfiles
    (hscripts ▸ List.mem_singleton_self _)
  obtain rfl : script.rawLines = raw := Except.ok.inj (hlines.symm.trans hraw)
  have hall : script.rawLines.filter (fun line => !configured.any (·.drops line)) =
      script.rawLines :=
    List.filter_eq_self.mpr fun line hline => by rw [hkept line hline]; rfl
  simp only [hall] at hemitted
  rw [hemitted] at hscripts
  exact congrArg Output.mk hscripts

end Run.Course

/-- A run over one file, with lines that no plugin of the chain drops, puts this file out with all
its lines. -/
theorem Run.run_of_undropped {job : Job} {cwd path : Path} {handles : List String}
    {plugins configured : List Builtin} {content : String}
    (hchain : Builtin.chain handles = .ok plugins)
    (hscheme : ∀ scheme, job.scheme? = some scheme → Scheme.Builtin cwd scheme)
    (hconfigured : plugins.mapM (Builtin.setUp job.settings) = .ok configured)
    (hpath : path.IsCanonical) (hplain : Text.IsPlain path.text)
    (hinputs : job.inputs = [path.text])
    (hkept : ∀ line ∈ Text.splitLines content, configured.any (·.drops line) = false)
    {limit : Nat} (hlimit : 1 < limit) :
    ∃ final, job.run (MemoryFiles.ofList [(path, content)]).view plugins limit
      (Session.start cwd) =
        .ok (some ⟨[⟨path.key, path, Text.splitLines content⟩]⟩) final := by
  have hget := MemoryFiles.get?_ofList_singleton path content
  generalize MemoryFiles.ofList [(path, content)] = store at hget ⊢
  have hfile : store.view.isFile path = true := MemoryFiles.isFile_view.mpr ⟨_, hget⟩
  have hlines : store.view.readLines path = .ok (Text.splitLines content) :=
    MemoryFiles.readLines_view.mpr ⟨_, hget, rfl⟩
  have hbuiltin := job.builtin_schemeFrom hscheme
  have hseed : ∀ session : Session, session.sources = job.opened cwd →
      seed store.view job job.inputs session =
        .ok () (session.enqueue (job.fileScript path (Text.splitLines content))) := by
    intro session hsession
    have hactive : Scheme.Builtin cwd session.sources.scheme := by
      rw [hsession]
      exact hbuiltin
    rw [hinputs]
    exact seed_eq_enqueue hactive (congrArg Sources.locked hsession) hpath hplain hfile hlines
  obtain ⟨opened, hopened, -⟩ := Builtin.exists_configure hconfigured job.definitions
    ((Session.start cwd).setScheme job.scheme?)
  have hsources : (opened.setLock false).sources = job.opened cwd := by
    rw [Session.sources_setLock, Builtin.sources_configure hopened]
    rfl
  obtain ⟨output, final, course, -⟩ :=
    Builtin.exists_course hchain hbuiltin hconfigured hopened (hseed _ hsources)
  have hseeded : course.seeded.sources.scripts =
      [job.fileScript path (Text.splitLines content)] := by
    have heq := course.seed_eq
    rw [hseed _ course.opened_eq] at heq
    injection heq with _ hsession
    rw [← hsession, Session.sources_enqueue, course.opened_eq, Sources.scripts,
      Sources.entries_enqueue (by simp [Sources.keys, Job.opened])]
    rfl
  have hfinal := course.scripts_final hconfigured store.view_readable hseeded
    fun plugin hplugin line hline => Builtin.marks_eq_false (hkept line hline) hplugin
  obtain rfl := course.output_eq_singleton hconfigured store.view_readable hfinal hlines hkept
  refine ⟨final, course.run_eq ?_⟩
  rw [(course.handed_perm hconfigured store.view_readable).length_eq, hfinal]
  exact hlimit

/-- What is read back from a text renders as this text. -/
theorem Command.renderOutput_of_lines {output other : Output}
    (h : ∀ line ∈ output.lines, Text.IsLine line)
    (hlines : other.lines = Text.splitLines (renderOutput output .text)) :
    renderOutput other .text = renderOutput output .text := by
  rw [splitLines_renderOutput h] at hlines
  rw [renderOutput_text, renderOutput_text, hlines]
  by_cases hblank : output.lines = [""]
  · rw [if_pos hblank, if_pos hblank]
    rfl
  · rw [if_neg hblank, if_neg hblank]

/-- The text of an output is a fixed point: the same chain with the same settings and scheme, run
over one file with this text, puts this one script out, and its text is the same again. -/
theorem rendered_text_fixed {store : MemoryFiles} {job again : Job} {cwd path : Path}
    {handles : List String} {plugins : List Builtin} {limit limit' : Nat} {output : Output}
    {final : Session} (hchain : Builtin.chain handles = .ok plugins)
    (hscheme : ∀ scheme, job.scheme? = some scheme → Scheme.Builtin cwd scheme)
    (hrun : job.run store.view plugins limit (Session.start cwd) = .ok (some output) final)
    (hpath : path.IsCanonical) (hplain : Text.IsPlain path.text)
    (hinputs : again.inputs = [path.text]) (hsettings : again.settings = job.settings)
    (hsame : again.scheme? = job.scheme?) (hlimit : 1 < limit') :
    ∃ output' final',
      again.run (MemoryFiles.ofList [(path, Command.renderOutput output .text)]).view plugins limit'
          (Session.start cwd) = .ok (some output') final' ∧
        output'.scripts =
          [⟨path.key, path, Text.splitLines (Command.renderOutput output .text)⟩] ∧
        Command.renderOutput output' .text = Command.renderOutput output .text := by
  obtain ⟨configured, hconfigured, hemitted⟩ := exists_kept hrun
  have hkept : ∀ line ∈ output.lines,
      Text.IsLine line ∧ configured.any (·.drops line) = false := by
    intro line hline
    obtain ⟨emitted, hscript, hline⟩ := List.mem_flatMap.mp hline
    obtain ⟨file, -, heq⟩ := hemitted emitted hscript
    rw [heq] at hline
    obtain ⟨hraw, hdrops⟩ := List.mem_filter.mp hline
    exact ⟨Text.isLine_of_mem_splitLines hraw, by simpa using hdrops⟩
  have hlines : ∀ line ∈ output.lines, Text.IsLine line := fun line hline => (hkept line hline).1
  -- what is read back are lines of the output, if not all of them
  have hread : ∀ line ∈ Text.splitLines (Command.renderOutput output .text),
      configured.any (·.drops line) = false := by
    intro line hline
    rw [Command.splitLines_renderOutput hlines] at hline
    split at hline
    · cases hline
    · exact (hkept line hline).2
  obtain ⟨final', hagain⟩ := run_of_undropped hchain (hsame ▸ hscheme) (hsettings ▸ hconfigured)
    hpath hplain hinputs hread hlimit
  refine ⟨_, final', hagain, rfl, Command.renderOutput_of_lines hlines ?_⟩
  simp [Output.lines]

/-- A file that begins and ends with an empty line, and includes another. -/
def paddedFiles : MemoryFiles :=
  .ofList [(⟨"/a"⟩, "\n#include /b\nx\n\n"), (⟨"/b"⟩, "y")]

/-- The settings under which a directive is replaced by a directive. -/
def selfMarkingSettings : Settings :=
  Settings.empty.set "inc" "set-removekeyword" "#include /c"

/-- What is put out for the two files. -/
def paddedOutput : Output :=
  ⟨[⟨"/a", ⟨"/a"⟩, ["", "x", ""]⟩, ⟨"/b", ⟨"/b"⟩, ["y"]⟩]⟩

set_option maxRecDepth 10000 in
theorem rendered_text_fixed_padded :
    ∃ final output' final',
      Job.run { inputs := ["/a"], settings := selfMarkingSettings } paddedFiles.view
          [(.inl {} : Builtin)] 9 (Session.start ⟨"/"⟩) = .ok (some paddedOutput) final ∧
        Command.renderOutput paddedOutput .text = "\nx\n\ny\n" ∧
        Job.run { inputs := ["/out"], settings := selfMarkingSettings }
          (MemoryFiles.ofList [(⟨"/out"⟩, Command.renderOutput paddedOutput .text)]).view
          [(.inl {} : Builtin)] 2 (Session.start ⟨"/"⟩) = .ok (some output') final' ∧
        output'.scripts = [⟨"/out", ⟨"/out"⟩, ["", "x", "", "y"]⟩] ∧
        Command.renderOutput output' .text = Command.renderOutput paddedOutput .text := by
  obtain ⟨final, hrun⟩ := exists_final
    (show output? (Job.run { inputs := ["/a"], settings := selfMarkingSettings } paddedFiles.view
      [(.inl {} : Builtin)] 9 (Session.start ⟨"/"⟩)) = some paddedOutput by decide +kernel)
  have hchain : Builtin.chain ["inc"] = .ok [.inl {}] := rfl
  have hpath : Path.IsCanonical ⟨"/out"⟩ := ⟨by decide, by decide, by decide, by decide⟩
  obtain ⟨output', final', hagain, hscripts, htext⟩ :=
    rendered_text_fixed hchain (by simp) hrun hpath ⟨by decide, by decide, by decide⟩
      (show Job.inputs { inputs := ["/out"], settings := selfMarkingSettings } = ["/out"] from rfl)
      rfl rfl (show 1 < 2 by decide)
  refine ⟨final, output', final', hrun, by decide, hagain, hscripts.trans ?_, htext⟩
  decide +kernel

end SourceWeave
