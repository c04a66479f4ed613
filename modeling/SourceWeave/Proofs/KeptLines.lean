import SourceWeave.Proofs.Composition
import SourceWeave.Proofs.Timing
import SourceWeave.Proofs.Turns

/-!
# Which lines a run keeps

Whatever the order of the chain, the slots and the phases are, a line on its way through the chain
is the line of the file or a clean-up token: `pass_eq_self`, `isToken_pass`. So a run alters no
line. It drops the lines that `Builtin.drops` names and keeps all others in their order:
`run_keeps_lines`.
-/

namespace SourceWeave

open Run

namespace Builtin

/-- Tells whether a plugin puts its removal keyword in the place of a line: the includer for a
directive, the remover for a blank line. -/
def marks : Builtin → String → Bool
  | .inl includer, line => (includer.directive? line).isSome
  | .inr _, line => BlankLineRemover.isBlankLine line

/-- Tells whether a plugin in the chain is a reason to drop a line: the line is one of its clean-up
tokens, or the plugin marks it. -/
def drops (plugin : Builtin) (line : String) : Bool :=
  (Plugin.descriptor plugin).cleanupTokens.contains line || plugin.marks line

/-- Tells whether the clean-up of a chain drops a line. -/
def isToken (plugins : List Builtin) (line : String) : Bool :=
  (collectTokens (plugins.map Plugin.descriptor)).contains line

variable {plugins : List Builtin}

theorem isToken_eq (plugins : List Builtin) (line : String) :
    isToken plugins line = plugins.any fun plugin =>
      (Plugin.descriptor plugin).cleanupTokens.contains line :=
  contains_collectTokens plugins line

theorem rewrite_eq (plugin : Builtin) (line : String) :
    plugin.rewrite line = if plugin.marks line then plugin.removalKeyword else line := by
  cases plugin <;> rfl

/-- The keyword that a plugin of the chain leaves is a token of the chain. -/
theorem isToken_removalKeyword {plugin : Builtin} (h : plugin ∈ plugins) :
    isToken plugins plugin.removalKeyword = true := by
  rw [isToken_eq, List.any_eq_true]
  refine ⟨plugin, h, ?_⟩
  have htokens : (Plugin.descriptor plugin).cleanupTokens =
      removalTokens plugin.removalKeyword := by
    cases plugin <;> rfl
  rw [htokens, Std.TreeSet.contains_iff_mem, removalTokens, Std.TreeSet.mem_insert,
    Std.TreeSet.mem_insert]
  exact .inr (.inl Std.ReflCmp.compare_self)

/-- What becomes of a line behind plugins, one after another. -/
def pass (running : List Builtin) (line : String) : String :=
  running.foldl (fun line plugin => plugin.rewrite line) line

theorem pass_cons (plugin : Builtin) (rest : List Builtin) (line : String) :
    pass (plugin :: rest) line = pass rest (plugin.rewrite line) := rfl

theorem sweepLines_eq_map (running : List Builtin) (lines : List String) :
    sweepLines running lines = lines.map (pass running) := by
  induction running generalizing lines with
  | nil => exact (List.map_id lines).symm
  | cons plugin rest ih =>
      rw [sweepLines, ih, List.map_map]
      rfl

/-- Once a line is a token it stays one. -/
theorem isToken_pass {running : List Builtin} (hrunning : ∀ plugin ∈ running, plugin ∈ plugins)
    {line : String} (h : isToken plugins line = true) :
    isToken plugins (pass running line) = true := by
  induction running generalizing line with
  | nil => exact h
  | cons plugin rest ih =>
      rw [pass_cons]
      refine ih (fun other hother => hrunning other (by simp [hother])) ?_
      rcases plugin.rewrite_cases line with heq | heq
      · rw [heq]
        exact h
      · rw [heq]
        exact isToken_removalKeyword (hrunning plugin (by simp))

/-- A line that one of the plugins marks becomes a token. -/
theorem isToken_pass_of_marks {running : List Builtin}
    (hrunning : ∀ plugin ∈ running, plugin ∈ plugins) {line : String}
    (h : running.any (·.marks line) = true) : isToken plugins (pass running line) = true := by
  induction running with
  | nil => cases h
  | cons plugin rest ih =>
      have hrest : ∀ other ∈ rest, other ∈ plugins := fun other hother =>
        hrunning other (by simp [hother])
      rw [pass_cons, rewrite_eq]
      split
      · exact isToken_pass hrest (isToken_removalKeyword (hrunning plugin (by simp)))
      · next hmarks =>
        refine ih hrest ?_
        simpa [hmarks] using h

/-- A line that none of the plugins marks comes through as it is. -/
theorem pass_eq_self {running : List Builtin} {line : String}
    (h : running.any (·.marks line) = false) : pass running line = line := by
  induction running with
  | nil => rfl
  | cons plugin rest ih =>
      simp only [List.any_cons, Bool.or_eq_false_iff] at h
      rw [pass_cons, rewrite_eq, h.1]
      exact ih h.2

/-- A phase keeps the lines that are no tokens and that no plugin of the phase marks. -/
theorem phaseLines_eq (plugins : List Builtin) (phase : Phase) (lines : List String) :
    phaseLines plugins phase lines = lines.filter fun line =>
      !isToken plugins line && !(active plugins phase).any (·.marks line) := by
  have hactive : ∀ plugin ∈ active plugins phase, plugin ∈ plugins := fun plugin hplugin =>
    (mem_active.mp hplugin).1
  rw [phaseLines, sweepLines_eq_map]
  show (lines.map (pass (active plugins phase))).filter (fun line => !isToken plugins line) = _
  induction lines with
  | nil => rfl
  | cons line rest ih =>
      rw [List.map_cons, List.filter_cons, List.filter_cons, ih]
      cases hmarks : (active plugins phase).any (·.marks line) with
      | true => simp [isToken_pass_of_marks hactive hmarks]
      | false =>
          rw [pass_eq_self hmarks]
          simp

/-- The two phases together keep the lines that no plugin of the chain drops. -/
theorem phaseLines_phaseLines (plugins : List Builtin) (lines : List String) :
    phaseLines plugins .onFinishUp (phaseLines plugins .onLoad lines) =
      lines.filter fun line => !plugins.any (·.drops line) := by
  rw [phaseLines_eq, phaseLines_eq, List.filter_filter]
  refine List.filter_congr fun line _ => ?_
  -- each plugin runs in one of the two phases
  have hmarks : plugins.any (·.marks line) =
      ((active plugins .onLoad).any (·.marks line) ||
        (active plugins .onFinishUp).any (·.marks line)) := by
    rw [Bool.eq_iff_iff, Bool.or_eq_true, List.any_eq_true, List.any_eq_true, List.any_eq_true]
    simp only [mem_active]
    constructor
    · rintro ⟨plugin, hplugin, hline⟩
      cases hphase : (Plugin.descriptor plugin).phase with
      | onLoad => exact .inl ⟨plugin, ⟨hplugin, hphase⟩, hline⟩
      | onFinishUp => exact .inr ⟨plugin, ⟨hplugin, hphase⟩, hline⟩
    · rintro (⟨plugin, ⟨hplugin, -⟩, hline⟩ | ⟨plugin, ⟨hplugin, -⟩, hline⟩)
      · exact ⟨plugin, hplugin, hline⟩
      · exact ⟨plugin, hplugin, hline⟩
  have hdrops : plugins.any (·.drops line) =
      (isToken plugins line || plugins.any (·.marks line)) := by
    rw [isToken_eq, Bool.eq_iff_iff]
    simp only [drops, Bool.or_eq_true, List.any_eq_true, and_or_left, exists_or]
  rw [hdrops, hmarks]
  cases isToken plugins line <;> cases (active plugins .onLoad).any (·.marks line) <;>
    cases (active plugins .onFinishUp).any (·.marks line) <;> rfl

end Builtin

namespace Run.Course

open Builtin

variable {files : FileView} {job : Job} {plugins configured : List Builtin} {cwd : Path}
  {output : Output} {final : Session}

/-- The lines that are put out for a script are those of its file that no plugin drops. -/
theorem lines_eq (course : Course files job plugins (Session.start cwd) output final)
    (hconfigured : plugins.mapM (setUp job.settings) = .ok configured) (hfiles : files.Readable)
    {emitted : EmittedScript} (hemitted : emitted ∈ output.scripts) :
    ∃ raw, files.readLines emitted.path = .ok raw ∧
      emitted.lines = raw.filter fun line => !configured.any (·.drops line) := by
  obtain ⟨hfinished, -⟩ := course.finished_eq hconfigured hfiles
  rw [course.output_scripts] at hemitted
  obtain ⟨script, hscript, rfl⟩ := List.mem_map.mp hemitted
  have hingested : script ∈ course.ingested.session.sources.scripts :=
    ((course.perm_final hconfigured hfiles).map _).mem_iff.mp hscript
  have hhanded : script ∈ course.handed :=
    (course.handed_perm hconfigured hfiles).mem_iff.mpr hscript
  refine ⟨script.rawLines, course.readLines_eq hconfigured hfiles script hhanded, ?_⟩
  show course.finished.getD script.key [] = _
  rw [Std.TreeMap.getD_eq_getD_getElem?, hfinished, getElem?_finishLines,
    if_pos (List.mem_map_of_mem hingested), Option.getD_some, Std.TreeMap.getD_eq_getD_getElem?,
    (course.progress hconfigured hfiles).loaded_eq _ hhanded, Option.getD_some,
    phaseLines_phaseLines]

end Run.Course

namespace Builtin

/-- A plugin drops the same lines under settings that differ only in the timing. -/
theorem drops_same {settings other : Settings} (hsame : settings.SameButTiming other)
    {plugin ready ready' : Builtin} (hplugin : plugin = .inl {} ∨ plugin = .inr {})
    (h : setUp settings plugin = .ok ready) (h' : setUp other plugin = .ok ready') (line : String) :
    ready.drops line = ready'.drops line := by
  rcases hplugin with rfl | rfl
  · obtain ⟨includer, hincluder, rfl⟩ := setUp_includer_eq_ok h
    obtain ⟨includer', hincluder', rfl⟩ := setUp_includer_eq_ok h'
    obtain ⟨hkeyword, hremoval⟩ := Includer.keywords_same hsame hincluder hincluder'
    show ((removalTokens includer.removalKeyword).contains line ||
        (includer.directive? line).isSome) =
      ((removalTokens includer'.removalKeyword).contains line || (includer'.directive? line).isSome)
    rw [hremoval, Includer.directive?, Includer.directive?, hkeyword]
  · obtain ⟨remover, hremover, rfl⟩ := setUp_remover_eq_ok h
    obtain ⟨remover', hremover', rfl⟩ := setUp_remover_eq_ok h'
    show ((removalTokens remover.removalKeyword).contains line ||
        BlankLineRemover.isBlankLine line) =
      ((removalTokens remover'.removalKeyword).contains line || BlankLineRemover.isBlankLine line)
    rw [BlankLineRemover.keyword_same hsame hremover hremover']

/-- Chains with the same plugins, in any order and however often, drop the same lines under settings
that differ only in the timing. -/
theorem any_drops_same {settings other : Settings} (hsame : settings.SameButTiming other)
    {plugins plugins' configured configured' : List Builtin}
    (hdefault : ∀ plugin ∈ plugins, plugin = .inl {} ∨ plugin = .inr {})
    (hplugins : ∀ plugin, plugin ∈ plugins ↔ plugin ∈ plugins')
    (h : plugins.mapM (setUp settings) = .ok configured)
    (h' : plugins'.mapM (setUp other) = .ok configured') (line : String) :
    configured.any (·.drops line) = configured'.any (·.drops line) := by
  rw [Bool.eq_iff_iff, List.any_eq_true, List.any_eq_true]
  constructor
  · rintro ⟨ready, hready, hdrops⟩
    obtain ⟨plugin, hplugin, hsetUp⟩ := exists_of_mem_right (mapM_eq_ok_iff.mp h) hready
    obtain ⟨ready', hready', hsetUp'⟩ :=
      exists_of_mem_left (mapM_eq_ok_iff.mp h') ((hplugins plugin).mp hplugin)
    refine ⟨ready', hready', ?_⟩
    rw [← drops_same hsame (hdefault plugin hplugin) hsetUp hsetUp', hdrops]
  · rintro ⟨ready', hready', hdrops⟩
    obtain ⟨plugin, hplugin', hsetUp'⟩ := exists_of_mem_right (mapM_eq_ok_iff.mp h') hready'
    have hplugin := (hplugins plugin).mpr hplugin'
    obtain ⟨ready, hready, hsetUp⟩ := exists_of_mem_left (mapM_eq_ok_iff.mp h) hplugin
    refine ⟨ready, hready, ?_⟩
    rw [drops_same hsame (hdefault plugin hplugin) hsetUp hsetUp', hdrops]

end Builtin

/-- A run that puts something out has set its plugins up, and has kept the lines that none of them
drops. -/
theorem Run.exists_kept {store : MemoryFiles} {job : Job} {cwd : Path} {plugins : List Builtin}
    {limit : Nat} {output : Output} {final : Session}
    (hrun : job.run store.view plugins limit (Session.start cwd) = .ok (some output) final) :
    ∃ configured, plugins.mapM (Builtin.setUp job.settings) = .ok configured ∧
      ∀ emitted ∈ output.scripts, ∃ file, store.get? emitted.path = some file ∧
        emitted.lines = (Text.splitLines file.content).filter fun line =>
          !configured.any (·.drops line) := by
  obtain ⟨course, -⟩ := Course.of_run hrun
  obtain ⟨configured, hconfigured⟩ := course.exists_setUp
  refine ⟨configured, hconfigured, fun emitted hemitted => ?_⟩
  obtain ⟨raw, hraw, heq⟩ := course.lines_eq hconfigured store.view_readable hemitted
  obtain ⟨file, hfile, rfl⟩ := MemoryFiles.readLines_view.mp hraw
  exact ⟨file, hfile, heq⟩

/-- A run that puts something out keeps, for each script, the lines of its file that no plugin of
the chain drops, in their order and unaltered. Another run over the same files, with the same
plugins in any order and settings that differ only in the timing, keeps the same lines of the same
file. -/
theorem run_keeps_lines {store : MemoryFiles} {job : Job} {cwd : Path} {handles : List String}
    {plugins : List Builtin} {limit : Nat} {output : Output} {final : Session}
    (hchain : Builtin.chain handles = .ok plugins)
    (hrun : job.run store.view plugins limit (Session.start cwd) = .ok (some output) final) :
    (∃ configured, plugins.mapM (Builtin.setUp job.settings) = .ok configured ∧
      ∀ emitted ∈ output.scripts, ∃ file, store.get? emitted.path = some file ∧
        emitted.lines = (Text.splitLines file.content).filter fun line =>
          !configured.any (·.drops line)) ∧
    ∀ (other : Job) (cwd' : Path) (plugins' : List Builtin) (limit' : Nat) (output' : Output)
      (final' : Session), (∀ plugin, plugin ∈ plugins ↔ plugin ∈ plugins') →
        job.settings.SameButTiming other.settings →
        other.run store.view plugins' limit' (Session.start cwd') = .ok (some output') final' →
          ∀ emitted ∈ output.scripts, ∀ emitted' ∈ output'.scripts,
            store.get? emitted.path = store.get? emitted'.path →
              emitted.lines = emitted'.lines := by
  obtain ⟨configured, hconfigured, hkept⟩ := exists_kept hrun
  refine ⟨⟨configured, hconfigured, hkept⟩, ?_⟩
  intro other cwd' plugins' limit' output' final' hplugins hsame hrun' emitted hemitted emitted'
    hemitted' hfiles
  obtain ⟨configured', hconfigured', hkept'⟩ := exists_kept hrun'
  obtain ⟨file, hfile, heq⟩ := hkept emitted hemitted
  obtain ⟨file', hfile', heq'⟩ := hkept' emitted' hemitted'
  obtain rfl : file = file' := by simpa [hfiles, hfile'] using hfile.symm
  rw [heq, heq']
  refine List.filter_congr fun line _ => ?_
  rw [Builtin.any_drops_same hsame (fun plugin => Builtin.eq_default_of_mem_chain hchain) hplugins
    hconfigured hconfigured']

/-- A file with a directive, a line that is a clean-up token, and a line of blanks. -/
def markedFiles : MemoryFiles :=
  .ofList [(⟨"/a"⟩, "x\n#include /a\n###remove###\n \t\n y\n")]

def markedOutput : Output :=
  ⟨[⟨"/a", ⟨"/a"⟩, ["x", " y"]⟩]⟩

/-- The settings that move the includer into the second phase. -/
def lateSettings : Settings :=
  Settings.empty.set "inc" "set-stage" "onfinishup"

set_option maxRecDepth 10000 in
theorem run_keeps_lines_late :
    ∃ final final',
      Job.run { inputs := ["/a"] } markedFiles.view [(.inl {} : Builtin), .inr {}] 9
          (Session.start ⟨"/"⟩) = .ok (some markedOutput) final ∧
        Job.run { inputs := ["/a"], settings := lateSettings } markedFiles.view
          [(.inl {} : Builtin), .inr {}] 9 (Session.start ⟨"/"⟩) =
            .ok (some markedOutput) final' ∧
        Settings.empty.SameButTiming lateSettings ∧
        (∃ configured, [(.inl {} : Builtin), .inr {}].mapM (Builtin.setUp .empty) = .ok configured ∧
          ∀ emitted ∈ markedOutput.scripts,
            ∃ file, markedFiles.get? emitted.path = some file ∧
              emitted.lines = (Text.splitLines file.content).filter fun line =>
                !configured.any (·.drops line)) ∧
        ∀ emitted ∈ markedOutput.scripts, ∀ emitted' ∈ markedOutput.scripts,
          markedFiles.get? emitted.path = markedFiles.get? emitted'.path →
            emitted.lines = emitted'.lines := by
  obtain ⟨final, hrun⟩ : ∃ final, Job.run { inputs := ["/a"] } markedFiles.view
      [(.inl {} : Builtin), .inr {}] 9 (Session.start ⟨"/"⟩) = .ok (some markedOutput) final :=
    exists_final_of_steps rfl Builtin.buildSteps_default (by decide +kernel)
  have hlate : Chain.buildSteps [(.inl { phase := .onFinishUp } : Builtin), .inr {}] =
      [⟨.onFinishUp, .fullScript, 0⟩, ⟨.onFinishUp, .lineAfter, 1⟩] :=
    List.mergeSort_of_pairwise (by decide)
  obtain ⟨final', hrun'⟩ : ∃ final, Job.run { inputs := ["/a"], settings := lateSettings }
      markedFiles.view [(.inl {} : Builtin), .inr {}] 9 (Session.start ⟨"/"⟩) =
        .ok (some markedOutput) final :=
    exists_final_of_steps rfl hlate (by decide +kernel)
  have hchain : Builtin.chain ["inc", "blr"] = .ok [.inl {}, .inr {}] := rfl
  have hsame : Settings.empty.SameButTiming lateSettings := .set _ _ _ (by decide)
  obtain ⟨hkept, hothers⟩ := run_keeps_lines hchain hrun
  exact ⟨final, final', hrun, hrun', hsame, hkept,
    hothers _ _ _ _ _ final' (fun _ => Iff.rfl) hsame hrun'⟩

end SourceWeave
