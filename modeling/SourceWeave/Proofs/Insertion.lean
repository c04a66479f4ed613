import SourceWeave.Proofs.Directives
import SourceWeave.Proofs.KeptLines
import SourceWeave.Proofs.Trimming

/-!
# A blank line remover among includers

A remover puts its keyword in the place of blank lines and adds its clean-up tokens to those of the
chain, wherever in the chain it stands. None of these lines leads anywhere, if the tokens are no
directives, so the includers follow the same directives with it and without it. `Builtin.Shadows`
says of two chains what a phase of one does beside the same phase of the other, and `Shadows.run_eq`
that a whole run of one then goes along with a run of the other. The main statement is
`remover_does_not_interfere`.
-/

namespace SourceWeave

open Run

/-! ## Lines that lead somewhere -/

namespace Includer

variable {plugin : Includer} {line : String}

/-- Tells whether a line is a directive that may lead somewhere. For the empty keyword only blank
lines are directives, and these lead nowhere. -/
def leads (plugin : Includer) (line : String) : Bool :=
  plugin.keyword ≠ "" && (plugin.directive? line).isSome

theorem leads_eq_false_iff :
    plugin.leads line = false ↔ plugin.keyword = "" ∨ plugin.directive? line = none := by
  rw [leads, Bool.and_eq_false_iff, Option.isSome_eq_false_iff, Option.isNone_iff_eq_none]
  simp

/-- For the empty keyword the directives are the blank lines, and they refer to nothing. -/
theorem directive?_of_keyword_empty (hkeyword : plugin.keyword = "") (line : String) :
    plugin.directive? line = if BlankLineRemover.isBlankLine line then some "" else none := by
  split
  · next hblank => rw [plugin.directive?_of_isBlankLine hblank, if_pos hkeyword]
  · next hvisible =>
    obtain ⟨c, rest, htrimmed⟩ := List.exists_cons_of_ne_nil (mt List.isEmpty_iff.mpr hvisible)
    have hc := Text.isBlank_of_trimChars_eq_cons htrimmed
    simp [directive?, directiveChars?, hkeyword, behind?, htrimmed, hc]

/-- What does not lead anywhere has no targets. -/
theorem targets_of_leads_eq_false (h : plugin.leads line = false) (files : FileView)
    (scheme : Scheme) (directory : Path) (own : String) :
    plugin.targets files scheme directory own line = [] := by
  rcases leads_eq_false_iff.mp h with hkeyword | hnone
  · rw [targets, directive?_of_keyword_empty hkeyword]
    cases BlankLineRemover.isBlankLine line <;> rfl
  · rw [targets, hnone]

/-- What the includer leaves in the place of a line that leads nowhere leads nowhere. -/
theorem leads_mark (h : plugin.leads line = false) : plugin.leads (plugin.mark line) = false := by
  rcases leads_eq_false_iff.mp h with hkeyword | hnone
  · exact leads_eq_false_iff.mpr (.inl hkeyword)
  · rw [mark, hnone]
    exact h

theorem leads_of_isBlankLine (h : BlankLineRemover.isBlankLine line = true) :
    plugin.leads line = false := by
  rw [leads_eq_false_iff, plugin.directive?_of_isBlankLine h]
  by_cases hkeyword : plugin.keyword = ""
  · exact .inl hkeyword
  · exact .inr (if_neg hkeyword)

/-- Only the lines that lead somewhere matter for the targets. -/
theorem allTargets_filter (plugin : Includer) (files : FileView) (scheme : Scheme) (script : Script)
    (lines : List String) :
    plugin.allTargets files scheme script (lines.filter plugin.leads) =
      plugin.allTargets files scheme script lines := by
  induction lines with
  | nil => rfl
  | cons line rest ih =>
      simp only [allTargets] at ih ⊢
      cases hleads : plugin.leads line with
      | true => rw [List.filter_cons_of_pos hleads, List.flatMap_cons, List.flatMap_cons, ih]
      | false =>
          rw [List.filter_cons_of_neg (by simp [hleads]), ih, List.flatMap_cons,
            targets_of_leads_eq_false hleads, List.nil_append]

/-- Of the lines behind the includer, those that lead somewhere come from such lines. -/
theorem filter_map_mark (plugin : Includer) (lines : List String) :
    (lines.map plugin.mark).filter plugin.leads =
      ((lines.filter plugin.leads).map plugin.mark).filter plugin.leads := by
  induction lines with
  | nil => rfl
  | cons line rest ih =>
      cases hleads : plugin.leads line with
      | true =>
          rw [List.filter_cons_of_pos hleads, List.map_cons, List.map_cons, List.filter_cons,
            List.filter_cons, ih]
      | false =>
          rw [List.filter_cons_of_neg (by simp [hleads]), List.map_cons,
            List.filter_cons_of_neg (by simp [leads_mark hleads]), ih]

end Includer

namespace Builtin

variable {includer : Includer} {remover : BlankLineRemover}

/-- The remover leaves the lines that lead somewhere alone, and makes no others. -/
theorem filter_map_rewrite_remover (hkeyword : includer.leads remover.removalKeyword = false)
    (lines : List String) :
    (lines.map (rewrite (.inr remover))).filter includer.leads = lines.filter includer.leads := by
  induction lines with
  | nil => rfl
  | cons line rest ih =>
      rw [List.map_cons, List.filter_cons, List.filter_cons, ih]
      cases hblank : BlankLineRemover.isBlankLine line with
      | true => simp [rewrite, hblank, hkeyword, Includer.leads_of_isBlankLine hblank]
      | false => simp [rewrite, hblank]

/-- The includers among some plugins do what they do without the others. -/
theorem sweepSources_includers (files : FileView) (script : Script) {running : List Builtin}
    (hsame : ∀ other, .inl other ∈ running → other = includer)
    (hkeywords : ∀ remover, .inr remover ∈ running →
      includer.leads remover.removalKeyword = false)
    {lines lines' : List String}
    (hlines : lines.filter includer.leads = lines'.filter includer.leads) (sources : Sources) :
    sweepSources files script running lines sources =
      sweepSources files script (running.filter Sum.isLeft) lines' sources := by
  induction running generalizing lines lines' sources with
  | nil => rfl
  | cons plugin rest ih =>
      have hrest : ∀ other, .inl other ∈ rest → other = includer := fun other hother =>
        hsame other (by simp [hother])
      have hrest' : ∀ remover, .inr remover ∈ rest →
          includer.leads remover.removalKeyword = false := fun remover hremover =>
        hkeywords remover (by simp [hremover])
      cases plugin with
      | inl other =>
          obtain rfl := hsame other (by simp)
          have hadvance : advance files script (.inl other) lines sources =
              advance files script (.inl other) lines' sources := by
            simp only [advance]
            rw [← other.allTargets_filter, hlines, other.allTargets_filter]
          rw [List.filter_cons_of_pos rfl, sweepSources, sweepSources, hadvance]
          refine ih hrest hrest' ?_ _
          show (lines.map other.mark).filter other.leads =
            (lines'.map other.mark).filter other.leads
          rw [other.filter_map_mark, hlines, ← other.filter_map_mark]
      | inr remover =>
          rw [List.filter_cons_of_neg (by simp), sweepSources]
          refine ih hrest hrest' ?_ _
          rw [filter_map_rewrite_remover (hkeywords remover (by simp)), hlines]

/-! ## Which plugins run -/

/-- The plugins with steps in a slot are those that work there. -/
theorem filterMap_slotSteps (phase : Phase) (slot : Slot) (front plugins : List Builtin) :
    (Chain.slotSteps phase slot plugins front.length).filterMap ((front ++ plugins)[·.plugin]?) =
      plugins.filter (Plugin.worksIn phase slot) := by
  induction plugins generalizing front with
  | nil => rfl
  | cons plugin rest ih =>
      have hrest := ih (front ++ [plugin])
      rw [List.length_append, List.length_singleton, List.append_assoc,
        List.singleton_append] at hrest
      rw [Chain.slotSteps_cons, List.filterMap_append, hrest, List.filter_cons]
      split
      · simp
      · rfl

/-- The includers that run in a phase, in the order of the chain. -/
theorem filter_isLeft_active (plugins : List Builtin) (phase : Phase) :
    (active plugins phase).filter Sum.isLeft =
      plugins.filter (Plugin.worksIn phase .fullScript) := by
  have hslot : ∀ slot, (Chain.slotSteps phase slot plugins 0).filterMap (plugins[·.plugin]?) =
      plugins.filter (Plugin.worksIn phase slot) := fun slot =>
    filterMap_slotSteps phase slot [] plugins
  rw [active, Chain.filter_buildSteps, List.filterMap_append, List.filterMap_append, hslot, hslot,
    hslot, List.filter_append, List.filter_append, List.filter_filter, List.filter_filter,
    List.filter_filter]
  -- an includer works on whole scripts only, and a remover on lines only
  have hnone : ∀ slot, slot ≠ .fullScript →
      plugins.filter (fun plugin => plugin.isLeft && Plugin.worksIn phase slot plugin) = [] := by
    intro slot hslot
    rw [List.filter_eq_nil_iff]
    rintro (includer | remover) -
    · cases slot with
      | fullScript => exact absurd rfl hslot
      | lineBefore | lineAfter => simp [Plugin.worksIn, Plugin.kind, TransformKind.hasLine]
    · simp
  rw [hnone .lineBefore (by decide), hnone .lineAfter (by decide), List.nil_append, List.append_nil]
  refine List.filter_congr ?_
  rintro (includer | remover) -
  · rfl
  · simp [Plugin.worksIn, Plugin.kind, TransformKind.hasFullScript]

/-! ## Two chains side by side -/

/-- What a phase of the second chain does beside the same phase of the first: it does the same to
the sources, and leaves the lines that pass `early` behind the first phase and those that pass
`late` behind the second. -/
structure Shadows (files : FileView) (plugins extended : List Builtin)
    (early late : String → Bool) : Prop where
  turnSources_eq : ∀ script sources,
    turnSources extended files script sources = turnSources plugins files script sources
  loadLines_eq : ∀ lines,
    phaseLines extended .onLoad lines = (phaseLines plugins .onLoad lines).filter early
  finishSources_eq : ∀ script lines sources,
    phaseSources extended files .onFinishUp script (lines.filter early) sources =
      phaseSources plugins files .onFinishUp script lines sources
  finishLines_eq : ∀ lines,
    phaseLines extended .onFinishUp (lines.filter early) =
      (phaseLines plugins .onFinishUp lines).filter late

/-- The second record holds, for each key, the lines of the first that pass. -/
def Thinned (keep : String → Bool) (recorded thinned : LinesByKey) : Prop :=
  ∀ key, thinned.getD key [] = (recorded.getD key []).filter keep

theorem Thinned.insert {keep : String → Bool} {recorded thinned : LinesByKey}
    (h : Thinned keep recorded thinned) (key : String) (lines : List String) :
    Thinned keep (recorded.insert key lines) (thinned.insert key (lines.filter keep)) := by
  intro other
  rw [Std.TreeMap.getD_insert, Std.TreeMap.getD_insert, h other]
  split <;> rfl

namespace Shadows

variable {files : FileView} {plugins extended : List Builtin} {early late : String → Bool}
  (h : Shadows files plugins extended early late) (hfiles : files.Readable)

include h hfiles in
/-- The two first phases are handed the same scripts, and come to an end together. -/
theorem drain_eq (job : Job) (limit : Nat) {session session' : Session}
    (hsources : session'.sources = session.sources) {loaded loaded' : LinesByKey}
    (hloaded : Thinned early loaded loaded') :
    ∃ result? result'? after after',
      drain files job limit loaded ⟨.ofConfigured plugins, session⟩ =
          .ok result? ⟨.ofConfigured plugins, after⟩ ∧
        drain files job limit loaded' ⟨.ofConfigured extended, session'⟩ =
          .ok result'? ⟨.ofConfigured extended, after'⟩ ∧
        after'.sources = after.sources ∧ Option.Rel (Thinned early) result? result'? := by
  induction limit generalizing session session' loaded loaded' with
  | zero => exact ⟨none, none, session, session', rfl, rfl, hsources, .none⟩
  | succ limit ih =>
      rw [drain_succ, drain_succ]
      simp only [hsources]
      cases hnext : session.sources.nextReady? with
      | none =>
          exact ⟨some loaded, some loaded', session, session', rfl, rfl, hsources, .some hloaded⟩
      | some script =>
          obtain ⟨after, hprocess, hafter⟩ := processScript_eq plugins job hfiles script session
          obtain ⟨after', hprocess', hafter'⟩ :=
            processScript_eq extended job hfiles script session'
          simp only [hprocess, hprocess']
          refine ih ?_ ?_
          · rw [hafter', hafter, hsources, h.turnSources_eq]
          · rw [h.loadLines_eq]
            exact hloaded.insert _ _

include h in
/-- The second phases do the same to the sources. -/
theorem finishSources_foldl {loaded loaded' : LinesByKey} (hloaded : Thinned early loaded loaded')
    (scripts : List Script) (sources : Sources) :
    finishSources extended files loaded' scripts sources =
      finishSources plugins files loaded scripts sources := by
  simp only [finishSources, hloaded _, h.finishSources_eq]

include h in
/-- The second phase leaves the lines that pass. -/
theorem thinned_finishLines {loaded loaded' : LinesByKey} (hloaded : Thinned early loaded loaded')
    (scripts : List Script) :
    Thinned late (finishLines plugins loaded scripts {})
      (finishLines extended loaded' scripts {}) := by
  intro key
  rw [Std.TreeMap.getD_eq_getD_getElem?, Std.TreeMap.getD_eq_getD_getElem?, getElem?_finishLines,
    getElem?_finishLines, hloaded key, h.finishLines_eq]
  split
  · rfl
  · simp

end Shadows

end Builtin

/-- The output with only the lines that pass. -/
def Output.keepLines (keep : String → Bool) (output : Output) : Output :=
  ⟨output.scripts.map fun emitted => { emitted with lines := emitted.lines.filter keep }⟩

namespace Run

/-- The output that is made from the lines that pass is the one with only these lines. -/
theorem emit_of_thinned {keep : String → Bool} {recorded thinned : LinesByKey}
    (h : Builtin.Thinned keep recorded thinned) (sources : Sources) :
    emit sources thinned = (emit sources recorded).keepLines keep := by
  have hscripts : (emit sources thinned).scripts =
      ((emit sources recorded).keepLines keep).scripts := by
    rw [Output.keepLines, scripts_emit, scripts_emit, List.map_map]
    simp only [h _]
    rfl
  exact congrArg Output.mk hscripts

/-- Both computations give the same value and leave the same sources, or both fail with one error.
-/
inductive EndAlike {α : Type} :
    EStateM.Result Error Session α → EStateM.Result Error Session α → Prop where
  | ok {after after' : Session} (value : α) (hsources : after'.sources = after.sources) :
      EndAlike (.ok value after) (.ok value after')
  | error {failed failed' : Session} (e : Error) : EndAlike (.error e failed) (.error e failed')

variable {session session' : Session}

/-- How an input is loaded does not depend on the journal. -/
theorem loadInput_alike (files : FileView) (job : Job)
    (hsources : session'.sources = session.sources) (input : String) :
    EndAlike (loadInput files job input session) (loadInput files job input session') := by
  simp only [loadInput, hsources]
  generalize session.sources.resolve [input] job.baseDirectory = resolution
  cases resolution.path? with
  | none => exact .error _
  | some path =>
      simp only
      split
      · exact .error _
      · cases files.readLines path with
        | error e => exact .error e
        | ok lines =>
            obtain ⟨after, hcreate, hafter⟩ := session.tryCreate?_eq job.separator lines resolution
            obtain ⟨after', hcreate', hafter'⟩ :=
              session'.tryCreate?_eq job.separator lines resolution
            rw [hsources] at hcreate' hafter'
            simp only [hcreate, hcreate']
            cases session.sources.tryCreate? job.separator lines resolution with
            | none => exact .error _
            | some script => exact .ok script (hafter'.trans hafter.symm)

/-- Nor does it for all inputs together. -/
theorem seed_alike (files : FileView) (job : Job) (hsources : session'.sources = session.sources)
    (inputs : List String) :
    EndAlike (seed files job inputs session) (seed files job inputs session') := by
  induction inputs generalizing session session' with
  | nil => exact .ok () hsources
  | cons input rest ih =>
      have hload := loadInput_alike files job hsources input
      simp only [seed, bind, EStateM.bind]
      generalize loadInput files job input session = result at hload ⊢
      generalize loadInput files job input session' = result' at hload ⊢
      cases hload with
      | error e => exact .error e
      | ok script hafter =>
          refine ih ?_
          rw [Session.sources_enqueue, Session.sources_enqueue, hafter]

end Run

/-- Plugins that can be set up make a chain, and the sources are left alone. -/
theorem Builtin.exists_configure {settings : Settings} {plugins configured : List Builtin}
    (h : plugins.mapM (setUp settings) = .ok configured) (definitions : Definitions)
    (session : Session) :
    ∃ opened, Chain.configure settings definitions plugins session =
        .ok (.ofConfigured configured) opened ∧ opened.sources = session.sources := by
  obtain ⟨opened, hopened, hsources⟩ := configurePlugins_of_ok h definitions session
  exact ⟨opened, bind_of_ok hopened, hsources⟩

/-- If one chain shadows another, their runs fail with the same error, stop at the same limit, or
put out the same scripts, with the lines that pass. -/
theorem Builtin.Shadows.run_eq {files : FileView} {job : Job} {cwd : Path}
    {plugins plugins' configured configured' : List Builtin} {early late : String → Bool}
    (h : Shadows files configured configured' early late) (hfiles : files.Readable)
    (hconfigured : plugins.mapM (setUp job.settings) = .ok configured)
    (hconfigured' : plugins'.mapM (setUp job.settings) = .ok configured') (limit : Nat) :
    (split (job.run files plugins' limit (Session.start cwd))).1 =
      (split (job.run files plugins limit (Session.start cwd))).1.map
        (Option.map (Output.keepLines late)) := by
  obtain ⟨opened, hopened, hsources⟩ := exists_configure hconfigured job.definitions
    ((Session.start cwd).setScheme job.scheme?)
  obtain ⟨opened', hopened', hsources'⟩ := exists_configure hconfigured' job.definitions
    ((Session.start cwd).setScheme job.scheme?)
  rw [run_of_configure hopened, run_of_configure hopened', process_eq, process_eq]
  have hsame : opened'.sources = opened.sources := hsources'.trans hsources.symm
  have hunlocked : (opened'.setLock false).sources = (opened.setLock false).sources := by
    rw [Session.sources_setLock, Session.sources_setLock, hsame]
  have hseed := seed_alike files job hunlocked job.inputs
  generalize seed files job job.inputs (opened.setLock false) = result at hseed ⊢
  generalize seed files job job.inputs (opened'.setLock false) = result' at hseed ⊢
  cases hseed with
  | error e => rfl
  | ok _ hseeded =>
      obtain ⟨result?, result'?, after, after', hdrain, hdrain', hafter, hresult⟩ :=
        h.drain_eq hfiles job limit hseeded (fun key => by simp : Thinned early {} {})
      simp only [hdrain, hdrain']
      cases hresult with
      | none => rfl
      | @some loaded loaded' hloaded =>
          obtain ⟨last, hfinish, hlast⟩ := finish_eq configured job hfiles loaded
            after.sources.nodup_map_scripts {} (after.setLock opened.sources.locked)
          obtain ⟨last', hfinish', hlast'⟩ := finish_eq configured' job hfiles loaded'
            after'.sources.nodup_map_scripts {} (after'.setLock opened'.sources.locked)
          have hfinal : last'.sources = last.sources := by
            rw [hlast', hlast, Session.sources_setLock, Session.sources_setLock, hafter, hsame,
              h.finishSources_foldl hloaded]
          have houtput := emit_of_thinned (h.thinned_finishLines hloaded after.sources.scripts)
            last.sources
          simp only [hfinish, hfinish']
          simp only [split, Except.map, Option.map_some, hafter, hfinal, houtput]

/-! ## The remover -/

namespace BlankLineRemover

/-- Tells whether a line is one of the clean-up tokens of the remover. -/
def isOwnToken (remover : BlankLineRemover) (line : String) : Bool :=
  (removalTokens remover.removalKeyword).contains line

/-- Tells whether a line is neither blank nor a clean-up token of the remover. -/
def keeps (remover : BlankLineRemover) (line : String) : Bool :=
  !isBlankLine line && !remover.isOwnToken line

/-- Tells whether a line outlasts a phase that has the remover in its chain. -/
def keepsIn (remover : BlankLineRemover) (phase : Phase) (line : String) : Bool :=
  !remover.isOwnToken line && !(remover.phase == phase && isBlankLine line)

theorem isOwnToken_iff {remover : BlankLineRemover} {line : String} :
    remover.isOwnToken line = true ↔
      line = remover.removalKeyword ∨ line = Text.lowercase remover.removalKeyword := by
  rw [isOwnToken, Std.TreeSet.contains_iff_mem, removalTokens, Std.TreeSet.mem_insert,
    Std.TreeSet.mem_insert]
  simp [@eq_comm _ line, or_comm]

end BlankLineRemover

namespace Builtin

variable {includer : Includer} {remover : BlankLineRemover} {front back : List Builtin}

/-- Beside the lines that a phase drops without the remover, it drops those of the remover. -/
theorem phaseLines_insert (remover : BlankLineRemover) (front back : List Builtin) (phase : Phase)
    (lines : List String) :
    phaseLines (front ++ .inr remover :: back) phase lines =
      (phaseLines (front ++ back) phase lines).filter (remover.keepsIn phase) := by
  rw [phaseLines_eq, phaseLines_eq, List.filter_filter]
  refine List.filter_congr fun line _ => ?_
  have htoken : isToken (front ++ .inr remover :: back) line =
      (remover.isOwnToken line || isToken (front ++ back) line) := by
    simp only [isToken_eq, List.any_append, List.any_cons]
    exact Bool.or_left_comm _ _ _
  have hmarks : (active (front ++ .inr remover :: back) phase).any (·.marks line) =
      ((remover.phase == phase && BlankLineRemover.isBlankLine line) ||
        (active (front ++ back) phase).any (·.marks line)) := by
    rw [Bool.eq_iff_iff, Bool.or_eq_true, Bool.and_eq_true, beq_iff_eq, List.any_eq_true,
      List.any_eq_true]
    simp only [mem_active, List.mem_append, List.mem_cons]
    constructor
    · rintro ⟨plugin, ⟨hfront | rfl | hback, hphase⟩, hline⟩
      · exact .inr ⟨plugin, ⟨.inl hfront, hphase⟩, hline⟩
      · exact .inl ⟨hphase, hline⟩
      · exact .inr ⟨plugin, ⟨.inr hback, hphase⟩, hline⟩
    · rintro (⟨hphase, hline⟩ | ⟨plugin, ⟨hfront | hback, hphase⟩, hline⟩)
      · exact ⟨.inr remover, ⟨.inr (.inl rfl), hphase⟩, hline⟩
      · exact ⟨plugin, ⟨.inl hfront, hphase⟩, hline⟩
      · exact ⟨plugin, ⟨.inr (.inr hback), hphase⟩, hline⟩
  rw [htoken, hmarks, BlankLineRemover.keepsIn, Bool.not_or, Bool.not_or]
  simp only [Bool.and_assoc, Bool.and_comm, Bool.and_left_comm]

/-- The includers follow the same directives with the remover and without it. -/
theorem phaseSources_insert (hincluders : ∀ plugin ∈ front ++ back, plugin = .inl includer)
    (hkeyword : includer.leads remover.removalKeyword = false) (files : FileView) (phase : Phase)
    (script : Script) {lines lines' : List String}
    (hlines : lines'.filter includer.leads = lines.filter includer.leads) (sources : Sources) :
    phaseSources (front ++ .inr remover :: back) files phase script lines' sources =
      phaseSources (front ++ back) files phase script lines sources := by
  have hworks : (front ++ .inr remover :: back).filter (Plugin.worksIn phase .fullScript) =
      (front ++ back).filter (Plugin.worksIn phase .fullScript) := by
    rw [List.filter_append, List.filter_append, List.filter_cons_of_neg]
    simp [Plugin.worksIn, Plugin.kind, TransformKind.hasFullScript]
  have hextended : ∀ plugin ∈ active (front ++ .inr remover :: back) phase,
      plugin = .inl includer ∨ plugin = .inr remover := by
    intro plugin hplugin
    have hmem := (mem_active.mp hplugin).1
    simp only [List.mem_append, List.mem_cons] at hmem hincluders
    rcases hmem with hfront | rfl | hback
    · exact .inl (hincluders plugin (.inl hfront))
    · exact .inr rfl
    · exact .inl (hincluders plugin (.inr hback))
  have hplain : (active (front ++ back) phase).filter Sum.isLeft =
      active (front ++ back) phase := by
    refine List.filter_eq_self.mpr fun plugin hplugin => ?_
    rw [hincluders plugin (mem_active.mp hplugin).1]
    rfl
  calc phaseSources (front ++ .inr remover :: back) files phase script lines' sources
      = sweepSources files script
          ((active (front ++ .inr remover :: back) phase).filter Sum.isLeft) lines sources := by
        refine sweepSources_includers files script (fun other hother => ?_)
          (fun other hother => ?_) hlines sources
        · simpa using hextended _ hother
        · obtain rfl : other = remover := by simpa using hextended _ hother
          exact hkeyword
    _ = phaseSources (front ++ back) files phase script lines sources := by
        rw [filter_isLeft_active, hworks, ← filter_isLeft_active, hplain, phaseSources]

/-- A chain of includers is shadowed by the chain with a remover among them. -/
theorem shadows_insert (hincluders : ∀ plugin ∈ front ++ back, plugin = .inl includer)
    (htokens : ∀ line, remover.isOwnToken line = true → includer.leads line = false)
    (files : FileView) :
    Shadows files (front ++ back) (front ++ .inr remover :: back) (remover.keepsIn .onLoad)
      remover.keeps := by
  have hkeyword : includer.leads remover.removalKeyword = false :=
    htokens _ (BlankLineRemover.isOwnToken_iff.mpr (.inl rfl))
  have hleads : ∀ line, includer.leads line = true → remover.keepsIn .onLoad line = true := by
    intro line hline
    have htoken : remover.isOwnToken line = false := by
      rw [← Bool.not_eq_true]
      exact fun htoken => by simp [htokens line htoken] at hline
    have hblank : BlankLineRemover.isBlankLine line = false := by
      rw [← Bool.not_eq_true]
      exact fun hblank => by simp [Includer.leads_of_isBlankLine hblank] at hline
    simp [BlankLineRemover.keepsIn, htoken, hblank]
  constructor
  · intro script sources
    rw [turnSources, turnSources, phaseSources_insert hincluders hkeyword _ _ _ rfl]
  · exact phaseLines_insert remover front back .onLoad
  · intro script lines sources
    refine phaseSources_insert hincluders hkeyword _ _ _ ?_ sources
    rw [List.filter_filter]
    refine List.filter_congr fun line _ => ?_
    cases hline : includer.leads line with
    | true => rw [hleads line hline]; rfl
    | false => rfl
  · intro lines
    rw [phaseLines_insert, phaseLines_eq, phaseLines_eq, List.filter_filter, List.filter_filter,
      List.filter_filter]
    refine List.filter_congr fun line _ => ?_
    -- the remover runs in one of the two phases
    have hkeeps : remover.keeps line =
        (remover.keepsIn .onFinishUp line && remover.keepsIn .onLoad line) := by
      simp only [BlankLineRemover.keeps, BlankLineRemover.keepsIn]
      cases remover.phase <;> cases remover.isOwnToken line <;>
        cases BlankLineRemover.isBlankLine line <;> rfl
    rw [hkeeps]
    simp only [Bool.and_assoc, Bool.and_comm, Bool.and_left_comm]

/-- The includers of a chain without removers are all the same once they are configured. -/
theorem exists_includer {settings : Settings} {handles : List String}
    {plugins configured : List Builtin} (hchain : chain handles = .ok plugins)
    (hincluders : ∀ plugin ∈ plugins, plugin.isLeft = true)
    (hconfigured : plugins.mapM (setUp settings) = .ok configured) :
    ∃ includer, (∀ plugin ∈ configured, plugin = .inl includer) ∧
      (includer.keyword = "" ∨ .inl includer ∈ configured) := by
  have hleft : ∀ ready ∈ configured, ∃ includer, ready = .inl includer := by
    intro ready hready
    obtain ⟨plugin, hplugin, hsetUp⟩ := exists_of_mem_right (mapM_eq_ok_iff.mp hconfigured) hready
    obtain ⟨includer, rfl⟩ := Sum.isLeft_iff.mp (hincluders plugin hplugin)
    obtain ⟨other, -, rfl⟩ := setUp_includer_eq_ok hsetUp
    exact ⟨other, rfl⟩
  cases hlist : configured with
  | nil => exact ⟨{ keyword := "" }, by simp, .inl rfl⟩
  | cons first rest =>
      obtain ⟨includer, rfl⟩ := hleft first (by simp [hlist])
      refine ⟨includer, fun plugin hplugin => ?_, .inr (by simp)⟩
      rw [← hlist] at hplugin
      obtain ⟨other, rfl⟩ := hleft plugin hplugin
      have hfirst : .inl includer ∈ configured := by simp [hlist]
      rw [(Configured.of_chain hchain hconfigured).includer_unique hplugin hfirst]

end Builtin

/-- A list is gone through without failure exactly if its two parts are. -/
theorem mapM_append_eq_ok_iff {α β : Type} {work : α → Except Error β} {as as' : List α}
    {bs : List β} :
    (as ++ as').mapM work = .ok bs ↔
      ∃ front back, as.mapM work = .ok front ∧ as'.mapM work = .ok back ∧ bs = front ++ back := by
  rw [List.mapM_append]
  cases as.mapM work with
  | error e => simp [bind, Except.bind]
  | ok front =>
      cases as'.mapM work with
      | error e => simp [bind, Except.bind]
      | ok back => simp [bind, Except.bind, pure, Except.pure, eq_comm]

/-- A remover that is put into a chain of includers, at any place, and whose removal keyword and its
lower-case form are no directives for them: the run fails with the same error as without it, or puts
out the same scripts under the same keys and paths and in the same order, each with the lines that
it has without the remover, but for those that are blank or a clean-up token of the remover. -/
theorem remover_does_not_interfere {store : MemoryFiles} {job : Job} {cwd : Path}
    {handles : List String} {front back configured : List Builtin} {remover : BlankLineRemover}
    (hchain : Builtin.chain handles = .ok (front ++ back))
    (hincluders : ∀ plugin ∈ front ++ back, plugin.isLeft = true)
    (hconfigured : (front ++ .inr {} :: back).mapM (Builtin.setUp job.settings) = .ok configured)
    (hremover : .inr remover ∈ configured)
    (hkeywords : ∀ includer, .inl includer ∈ configured →
      includer.directive? remover.removalKeyword = none ∧
        includer.directive? (Text.lowercase remover.removalKeyword) = none) (limit : Nat) :
    (split (job.run store.view (front ++ .inr {} :: back) limit (Session.start cwd))).1 =
      (split (job.run store.view (front ++ back) limit (Session.start cwd))).1.map
        (Option.map (Output.keepLines remover.keeps)) := by
  obtain ⟨front', rest', hfront, hrest, rfl⟩ := mapM_append_eq_ok_iff.mp hconfigured
  obtain ⟨ready, back', hready, hback, rfl⟩ :=
    List.forall₂_cons_left_iff.mp (mapM_eq_ok_iff.mp hrest)
  obtain ⟨other, -, rfl⟩ := Builtin.setUp_remover_eq_ok hready
  have hplain : (front ++ back).mapM (Builtin.setUp job.settings) = .ok (front' ++ back') :=
    mapM_append_eq_ok_iff.mpr ⟨front', back', hfront, mapM_eq_ok_iff.mpr hback, rfl⟩
  obtain ⟨includer, hall, hknown⟩ := Builtin.exists_includer hchain hincluders hplain
  simp only [List.mem_append, List.mem_cons] at hremover hkeywords hall hknown
  -- all other plugins are includers, so the remover is the one that was put in
  obtain rfl : remover = other := by
    rcases hremover with hmem | heq | hmem
    · cases hall _ (.inl hmem)
    · exact Sum.inr.inj heq
    · cases hall _ (.inr hmem)
  have htokens : ∀ line, remover.isOwnToken line = true → includer.leads line = false := by
    intro line hline
    rw [Includer.leads_eq_false_iff]
    refine hknown.imp_right fun hmem => ?_
    obtain ⟨hkeyword, hlower⟩ := hkeywords includer (hmem.imp_right .inr)
    rcases BlankLineRemover.isOwnToken_iff.mp hline with rfl | rfl
    · exact hkeyword
    · exact hlower
  have hshadows := Builtin.shadows_insert
    (fun plugin hplugin => hall plugin (List.mem_append.mp hplugin)) htokens store.view
  exact hshadows.run_eq store.view_readable hplain hconfigured limit

/-- Two files with blank lines and with lines that the remover of `earlySettings` takes for its
own. -/
def mixedFiles : MemoryFiles :=
  .ofList [(⟨"/m"⟩, "#include /t\n \nmain\n#drop\n"), (⟨"/t"⟩, "t\n\n#DROP\n")]

/-- The settings that move the remover to the front of the first phase, with another keyword. -/
def earlySettings : Settings :=
  ((Settings.empty.set "blr" "set-stage" "onload").set "blr" "set-order" "before").set "blr"
    "set-removekeyword" "#DROP"

def mixedOutput : Output :=
  ⟨[⟨"/m", ⟨"/m"⟩, [" ", "main", "#drop"]⟩, ⟨"/t", ⟨"/t"⟩, ["t", "", "#DROP"]⟩]⟩

set_option maxRecDepth 10000 in
theorem remover_does_not_interfere_early :
    ∃ final final',
      Job.run { inputs := ["/m"], settings := earlySettings } mixedFiles.view
          [(.inl {} : Builtin)] 9 (Session.start ⟨"/"⟩) = .ok (some mixedOutput) final ∧
        Job.run { inputs := ["/m"], settings := earlySettings } mixedFiles.view
          [(.inr {} : Builtin), .inl {}] 9 (Session.start ⟨"/"⟩) =
            .ok (some ⟨[⟨"/m", ⟨"/m"⟩, ["main"]⟩, ⟨"/t", ⟨"/t"⟩, ["t"]⟩]⟩) final' := by
  obtain ⟨final, hrun⟩ := exists_final
    (show output? (Job.run { inputs := ["/m"], settings := earlySettings } mixedFiles.view
      [(.inl {} : Builtin)] 9 (Session.start ⟨"/"⟩)) = some mixedOutput by decide +kernel)
  have hchain : Builtin.chain ["inc"] = .ok ([] ++ [.inl {}]) := rfl
  have hconfigured : ([] ++ .inr {} :: [.inl {}] : List Builtin).mapM
      (Builtin.setUp earlySettings) = .ok [.inr ⟨"#DROP", .before, .onLoad⟩, .inl {}] := rfl
  have hkeywords : ∀ includer : Includer,
      .inl includer ∈ [(.inr ⟨"#DROP", .before, .onLoad⟩ : Builtin), .inl {}] →
        includer.directive? "#DROP" = none ∧
          includer.directive? (Text.lowercase "#DROP") = none := by
    intro includer hincluder
    obtain rfl : includer = {} := by simpa using hincluder
    decide +kernel
  have heq := @remover_does_not_interfere mixedFiles
    { inputs := ["/m"], settings := earlySettings } ⟨"/"⟩ _ _ _ _ ⟨"#DROP", .before, .onLoad⟩ hchain
    (by simp) hconfigured (by simp) hkeywords 9
  have hkept : mixedOutput.keepLines (BlankLineRemover.keeps ⟨"#DROP", .before, .onLoad⟩) =
      ⟨[⟨"/m", ⟨"/m"⟩, ["main"]⟩, ⟨"/t", ⟨"/t"⟩, ["t"]⟩]⟩ := by decide +kernel
  simp only [List.nil_append, hrun, split, Except.map, Option.map_some, hkept] at heq
  cases hrun' : Job.run { inputs := ["/m"], settings := earlySettings } mixedFiles.view
      [(.inr {} : Builtin), .inl {}] 9 (Session.start ⟨"/"⟩) with
  | error e final' =>
      rw [hrun'] at heq
      cases heq
  | ok result final' =>
      rw [hrun'] at heq
      cases heq
      exact ⟨final, final', hrun, rfl⟩

end SourceWeave
