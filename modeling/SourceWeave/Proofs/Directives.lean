import SourceWeave.Proofs.Turns

/-!
# Directives that a run follows

An includer in the first phase gets to see the directives of every script that is handed out,
whatever else is in the chain: a remover in front of it touches blank lines only, and these lead
nowhere. So all that the inputs lead to is put out, and all that the directives in scripts that are
put out lead to: `Run.Course.exists_emitted_of_input` and `Run.Course.exists_emitted_of_directive`.
Nothing else is, for each script that is put out is what some reference leads to:
`Run.Course.exists_reference`. This holds of any scheme.
-/

namespace SourceWeave

open Run

namespace Includer

/-- A blank line is a directive for the empty keyword only, and then it refers to nothing. -/
theorem directive?_of_isBlankLine (plugin : Includer) {line : String}
    (h : BlankLineRemover.isBlankLine line = true) :
    plugin.directive? line = if plugin.keyword = "" then some "" else none := by
  have htrimmed : Text.trimChars line.toList = [] := List.isEmpty_iff.mp h
  rw [directive?, directiveChars?, htrimmed]
  cases hkeyword : plugin.keyword.toList with
  | nil =>
      rw [if_pos (String.toList_eq_nil_iff.mp hkeyword)]
      rfl
  | cons first rest =>
      have hne : plugin.keyword ≠ "" := by
        intro heq
        rw [heq] at hkeyword
        cases hkeyword
      rw [if_neg hne]
      rfl

/-- A blank line leads nowhere. -/
theorem targets_of_isBlankLine (plugin : Includer) (files : FileView) (scheme : Scheme)
    (directory : Path) (own : String) {line : String}
    (h : BlankLineRemover.isBlankLine line = true) :
    plugin.targets files scheme directory own line = [] := by
  rw [targets, plugin.directive?_of_isBlankLine h]
  split
  · rfl
  · next reference hreference =>
    split at hreference
    · obtain rfl := Option.some.inj hreference
      rfl
    · cases hreference

end Includer

namespace Sources

variable {files : FileView} {separator : String}

/-- Without the lock, what a resolution leads to is tracked once the resolution is followed. -/
theorem mem_keys_takeIn {sources : Sources} (hlock : sources.locked = false)
    {resolution : Resolution} {script : Script}
    (hloaded : script.LoadedFrom files separator resolution) :
    script.key ∈ (sources.takeIn files separator resolution).keys := by
  by_cases hkey : script.key ∈ sources.keys
  · rw [takeIn_of_mem hloaded.key hkey, keys_moveToEnd hkey]
    simp
  · rw [takeIn_of_loaded hloaded hlock hkey, keys_enqueue hkey]
    simp

theorem mem_keys_takeAll {sources : Sources} (hlock : sources.locked = false)
    {resolutions : List Resolution} {resolution : Resolution} (hmem : resolution ∈ resolutions)
    {script : Script} (hloaded : script.LoadedFrom files separator resolution) :
    script.key ∈ (takeAll files separator resolutions sources).keys := by
  induction resolutions generalizing sources with
  | nil => cases hmem
  | cons first rest ih =>
      rcases List.mem_cons.mp hmem with rfl | hmem
      · exact (takeAll_keeps rest).mem_keys_of_mem (mem_keys_takeIn hlock hloaded)
      · exact ih (takeIn_keeps.locked.trans hlock) hmem

/-- Scripts that are put in are tracked. -/
theorem mem_keys_foldl_enqueue {sources : Sources} (hlock : sources.locked = false)
    {scripts : List Script} {script : Script} (hmem : script ∈ scripts) :
    script.key ∈ (scripts.foldl enqueue sources).keys := by
  induction scripts generalizing sources with
  | nil => cases hmem
  | cons first rest ih =>
      have hlock' : (sources.enqueue first).locked = false := by
        rw [locked_enqueue]
        exact hlock
      rcases List.mem_cons.mp hmem with rfl | hmem
      · have hfirst : script.key ∈ (sources.enqueue script).keys := by
          by_cases hkey : script.key ∈ sources.keys
          · rwa [enqueue_eq_self hkey]
          · rw [keys_enqueue hkey]
            simp
        have hrest : Grows (fun _ => True) (sources.enqueue script)
            (rest.foldl enqueue (sources.enqueue script)) :=
          foldl_enqueue_grows hlock' fun _ _ => trivial
        exact hrest.mem_keys_of_mem hfirst
      · exact ih hlock' hmem

end Sources

namespace Builtin

variable {plugins running : List Builtin} {files : FileView} {includer : Includer} {script : Script}

/-- Plugins one after another keep what is tracked. -/
theorem sweepSources_keeps (running : List Builtin) (lines : List String) (sources : Sources) :
    sources.Grows (fun _ => True) (sweepSources files script running lines sources) := by
  have hlines : ∀ line ∈ lines, Seen running lines line := fun _ hline => .inl hline
  exact sweepSources_grows running (fun _ hplugin => hplugin) lines hlines sources
    fun _ _ _ _ _ _ _ _ => trivial

/-- If all includers among the plugins are the same, the first of them follows each line. -/
theorem mem_keys_sweepSources (hmem : .inl includer ∈ running)
    (hsame : ∀ other, .inl other ∈ running → other = includer) {sources : Sources}
    (hlock : sources.locked = false) {line : String} {lines : List String} (hline : line ∈ lines)
    {resolution : Resolution} (hresolution : resolution ∈
      includer.targets files sources.scheme script.directory script.key line)
    {target : Script} (hloaded : target.LoadedFrom files includer.separator resolution) :
    target.key ∈ (sweepSources files script running lines sources).keys := by
  induction running generalizing lines with
  | nil => cases hmem
  | cons plugin rest ih =>
      cases plugin with
      | inl other =>
          obtain rfl := hsame other (by simp)
          refine (sweepSources_keeps rest _ _).mem_keys_of_mem ?_
          exact Sources.mem_keys_takeAll hlock (List.mem_flatMap.mpr ⟨line, hline, hresolution⟩)
            hloaded
      | inr remover =>
          -- a line that leads somewhere is not blank, so the remover leaves it alone
          have hrewrite : rewrite (.inr remover) line = line := by
            refine if_neg fun hblank => ?_
            rw [includer.targets_of_isBlankLine files _ _ _ hblank] at hresolution
            cases hresolution
          refine ih (by simpa using hmem) (fun other hother => hsame other (by simp [hother])) ?_
          exact hrewrite ▸ List.mem_map_of_mem hline

/-- What was tracked before a turn is tracked behind it. -/
theorem mem_keys_turnSources {sources : Sources} {key : String}
    (h : key ∈ sources.keys) : key ∈ (turnSources plugins files script sources).keys := by
  rw [turnSources, Sources.keys_setStage]
  exact (phaseSources_keeps plugins files _ _ _ _).mem_keys_of_mem h

/-- What the lines of the scripts handed out lead to is tracked. -/
structure Followed (includer : Includer) (files : FileView) (scheme : Scheme) (past : List Script)
    (sources : Sources) : Prop where
  scheme_eq : sources.scheme = scheme
  unlocked : sources.locked = false
  tracked : ∀ script ∈ past, ∀ line ∈ script.rawLines,
    ∀ resolution ∈ includer.candidates files scheme script.directory line, ∀ target : Script,
      target.LoadedFrom files includer.separator resolution → target.key ∈ sources.keys

/-- A turn follows the lines of one more script. -/
theorem Followed.turn {scheme : Scheme} {past : List Script} {sources : Sources}
    (h : Followed includer files scheme past sources)
    (hactive : .inl includer ∈ active plugins .onLoad)
    (hsame : ∀ other, .inl other ∈ active plugins .onLoad → other = includer)
    (hnext : sources.nextReady? = some script) :
    Followed includer files scheme (past ++ [script])
      (turnSources plugins files script sources) := by
  refine ⟨by rw [scheme_turnSources, h.scheme_eq], by rw [locked_turnSources, h.unlocked], ?_⟩
  intro other hother line hline resolution hresolution target hloaded
  rcases List.mem_append.mp hother with hother | hother
  · exact mem_keys_turnSources
      (h.tracked other hother line hline resolution hresolution target hloaded)
  · obtain rfl : other = script := by simpa using hother
    by_cases hown : resolution.key? = some other.key
    · -- a pattern passes the script itself over, but the script is tracked
      have hself : target.key = other.key := Option.some.inj (hloaded.key.symm.trans hown)
      rw [hself]
      exact mem_keys_turnSources (Sources.mem_keys.mpr ⟨_, Sources.nextReady?_eq_some hnext, rfl⟩)
    · rw [turnSources, Sources.keys_setStage]
      refine mem_keys_sweepSources hactive hsame h.unlocked hline ?_ hloaded
      rw [h.scheme_eq]
      exact Includer.mem_targets hresolution hown

end Builtin

namespace Run.Course

open Builtin

variable {files : FileView} {job : Job} {plugins configured : List Builtin} {includer : Includer}
  {cwd : Path} {output : Output} {final : Session}
  (course : Course files job plugins (Session.start cwd) output final)
  (hconfigured : plugins.mapM (setUp job.settings) = .ok configured) (hfiles : files.Readable)

include hconfigured hfiles in
/-- Behind the first phase, what the lines of the scripts lead to is tracked. -/
theorem followed (hactive : .inl includer ∈ active configured .onLoad)
    (hsame : ∀ other, .inl other ∈ active configured .onLoad → other = includer) :
    Followed includer files (job.schemeFrom cwd) course.handed
      course.ingested.session.sources := by
  have hgrows := seed_grows course.seed_eq course.opened_eq
  refine course.ingested_induction hconfigured hfiles (motive := fun past sources _ =>
    Followed includer files (job.schemeFrom cwd) past sources)
    ⟨hgrows.scheme, hgrows.locked, by simp⟩ ?_
  intro past sources loaded script hfollowed hnext
  exact hfollowed.turn hactive hsame hnext

include hconfigured hfiles in
/-- Behind the first phase, what the inputs resolve to is tracked. -/
theorem mem_keys_of_input {input key : String} (hinput : input ∈ job.inputs)
    (hkey : ((job.schemeFrom cwd).resolve [input] job.baseDirectory).key? = some key) :
    key ∈ course.ingested.session.sources.keys := by
  refine course.ingested_induction hconfigured hfiles (motive := fun _ sources _ =>
    key ∈ sources.keys) ?_ fun _ _ _ _ hmem _ => mem_keys_turnSources hmem
  obtain ⟨scripts, hscripts, hseeded⟩ := seed_eq_ok course.seed_eq
  rw [course.opened_eq] at hscripts hseeded
  obtain ⟨script, hscript, hloaded⟩ := exists_of_mem_left hscripts hinput
  obtain rfl : script.key = key := Option.some.inj (hloaded.key.symm.trans hkey)
  rw [hseeded]
  exact Sources.mem_keys_foldl_enqueue rfl hscript

include hconfigured hfiles in
/-- What is tracked behind the first phase is put out. -/
theorem exists_emitted {key : String} (hkey : key ∈ course.ingested.session.sources.keys) :
    ∃ emitted ∈ output.scripts, emitted.key = key := by
  have hentries := course.perm_final hconfigured hfiles
  have hfinal : key ∈ output.order := by
    rw [course.order_eq]
    exact (hentries.map Tracked.key).mem_iff.mpr hkey
  exact List.mem_map.mp hfinal

include course hconfigured hfiles in
/-- What an input resolves to is put out. -/
theorem exists_emitted_of_input {input key : String} (hinput : input ∈ job.inputs)
    (hkey : ((job.schemeFrom cwd).resolve [input] job.baseDirectory).key? = some key) :
    ∃ emitted ∈ output.scripts, emitted.key = key :=
  course.exists_emitted hconfigured hfiles
    (course.mem_keys_of_input hconfigured hfiles hinput hkey)

include course hconfigured hfiles in
/-- What a directive in a script that is put out leads to is put out. -/
theorem exists_emitted_of_directive (hactive : .inl includer ∈ active configured .onLoad)
    (hsame : ∀ other, .inl other ∈ active configured .onLoad → other = includer)
    {emitted : EmittedScript} (hemitted : emitted ∈ output.scripts) {raw : List String}
    (hraw : files.readLines emitted.path = .ok raw) {line : String} (hline : line ∈ raw)
    {resolution : Resolution} (hresolution : resolution ∈
      includer.candidates files (job.schemeFrom cwd) emitted.path.folder line)
    {key : String} {path : Path} (hkey : resolution.key? = some key)
    (hpath : resolution.path? = some path) (hfile : files.isFile path = true) :
    ∃ other ∈ output.scripts, other.key = key := by
  have hfollowed := course.followed hconfigured hfiles hactive hsame
  rw [course.output_scripts] at hemitted
  obtain ⟨script, hscript, rfl⟩ := List.mem_map.mp hemitted
  have hhanded : script ∈ course.handed :=
    (course.handed_perm hconfigured hfiles).mem_iff.mpr hscript
  obtain rfl : script.rawLines = raw :=
    Except.ok.inj ((course.readLines_eq hconfigured hfiles script hhanded).symm.trans hraw)
  obtain ⟨lines, hlines⟩ := hfiles path hfile
  have htarget : Script.LoadedFrom files includer.separator resolution
      ⟨key, path, lines, resolution, includer.separator⟩ :=
    ⟨hkey, hpath, hfile, hlines, rfl, rfl⟩
  exact course.exists_emitted hconfigured hfiles
    (hfollowed.tracked script hhanded line hline resolution hresolution _ htarget)

include course hconfigured hfiles in
/-- Each script that is put out is what some reference leads to. -/
theorem exists_reference {emitted : EmittedScript} (hemitted : emitted ∈ output.scripts) :
    ∃ tokens directory,
      ((job.schemeFrom cwd).resolve tokens directory).key? = some emitted.key ∧
        ((job.schemeFrom cwd).resolve tokens directory).path? = some emitted.path ∧
          files.isFile emitted.path = true := by
  have hgrows := seed_grows course.seed_eq course.opened_eq
  have hentries := (course.ingested_induction hconfigured hfiles (motive := fun _ sources _ =>
    sources.scheme = job.schemeFrom cwd ∧ ∀ entry ∈ sources.entries,
      ∃ separator tokens directory, entry.script.LoadedFrom files separator
        ((job.schemeFrom cwd).resolve tokens directory)) ⟨hgrows.scheme, ?_⟩ ?_).2
  · rw [course.output_scripts] at hemitted
    obtain ⟨script, hscript, rfl⟩ := List.mem_map.mp hemitted
    obtain ⟨entry, hentry, rfl⟩ := List.mem_map.mp hscript
    obtain ⟨separator, tokens, directory, hloaded⟩ :=
      hentries entry ((course.perm_final hconfigured hfiles).mem_iff.mp hentry)
    exact ⟨tokens, directory, hloaded.key, hloaded.path, hloaded.isFile⟩
  · intro entry hentry
    obtain ⟨-, input, -, hloaded⟩ := mem_seeded course.seed_eq course.opened_eq hentry
    exact ⟨_, _, _, hloaded⟩
  · rintro past sources loaded script ⟨hscheme, hloaded⟩ -
    refine ⟨by rw [scheme_turnSources, hscheme], ?_⟩
    refine forall_turnSources (fun script => ∃ separator tokens directory,
      script.LoadedFrom files separator ((job.schemeFrom cwd).resolve tokens directory)) ?_ hloaded
    refine phaseSources_grows fun other _ line _ resolution hresolution target htarget => ?_
    rw [hscheme] at hresolution
    obtain ⟨tokens, rfl⟩ := Includer.exists_tokens (Includer.mem_candidates hresolution)
    exact ⟨_, _, _, htarget⟩

end Run.Course

end SourceWeave
