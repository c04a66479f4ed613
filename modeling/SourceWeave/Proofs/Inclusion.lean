import SourceWeave.Plugin.Includer
import SourceWeave.Proofs.Resolving
import SourceWeave.Proofs.Tracking

/-!
# What the includer does to the sources

`Includer.targets` lists what the directives in a line refer to: one resolution for an ordinary
reference, and one for each file that a pattern matches. It does not depend on the scripts that are
tracked. `Sources.takeIn` follows one of them. The main statement, `transform_eq`, says that where
every file can be read the includer never fails, writes the removal keyword in place of each
directive, and takes in, one after another, the targets of all lines.
-/

namespace SourceWeave

/-- A computation that succeeds hands its value and its state on. -/
theorem bind_of_ok {σ α β : Type} {work : EStateM Error σ α} {next : α → EStateM Error σ β}
    {state after : σ} {value : α} (h : work state = .ok value after) :
    (work >>= next) state = next value after := by
  simp only [bind, EStateM.bind, h]

/-- The directory in which the references of a file are written. -/
def Path.folder (path : Path) : Path :=
  path.parent?.getD ⟨""⟩

theorem Script.directory_eq (script : Script) : script.directory = script.path.folder := rfl

/-- The script is what the files hold under the path of a resolution. -/
structure Script.LoadedFrom (files : FileView) (separator : String) (resolution : Resolution)
    (script : Script) : Prop where
  key : resolution.key? = some script.key
  path : resolution.path? = some script.path
  isFile : files.isFile script.path = true
  lines : files.readLines script.path = .ok script.rawLines
  separator_eq : script.separator = separator
  resolution_eq : script.resolution = resolution

namespace Sources

/-- Takes in the script that a resolution leads to, or moves it to the end if it is there. -/
def takeIn (files : FileView) (separator : String) (sources : Sources) (resolution : Resolution) :
    Sources :=
  match resolution.key? with
  | none => sources
  | some key =>
    if sources.containsKey key then sources.moveToEnd key
    else
      match resolution.path? with
      | none => sources
      | some path =>
        if !files.isFile path then sources
        else
          match files.readLines path with
          | .error _ => sources
          | .ok lines =>
            match sources.tryCreate? separator lines resolution with
            | some created => sources.enqueue created
            | none => sources

/-- All that can happen when a resolution is followed. -/
theorem takeIn_cases (files : FileView) (separator : String) (sources : Sources)
    (resolution : Resolution) :
    sources.takeIn files separator resolution = sources ∨
      (∃ key ∈ sources.keys, resolution.key? = some key ∧
        sources.takeIn files separator resolution = sources.moveToEnd key) ∨
      ∃ script : Script, script.LoadedFrom files separator resolution ∧ sources.locked = false ∧
        script.key ∉ sources.keys ∧
          sources.takeIn files separator resolution = sources.enqueue script := by
  unfold takeIn
  split
  · exact .inl rfl
  · next key hkey =>
    split
    · next htracked =>
      exact .inr (.inl ⟨key, containsKey_eq_true.mp htracked, hkey, rfl⟩)
    · next hnew =>
      split
      · exact .inl rfl
      · next path hpath =>
        split
        · exact .inl rfl
        · next hfile =>
          split
          · exact .inl rfl
          · next lines hlines =>
            split
            · next created hcreated =>
              unfold tryCreate? at hcreated
              split at hcreated
              · exact absurd hcreated (by simp)
              · next hlock =>
                obtain ⟨hkey', hpath', hraw, hres, hsep⟩ :=
                  Script.ofResolution?_eq_some_iff.mp hcreated
                obtain rfl := Option.some.inj (hkey.symm.trans hkey')
                obtain rfl := Option.some.inj (hpath.symm.trans hpath')
                refine .inr (.inr ⟨created, ⟨hkey, hpath, by simpa using hfile, ?_, hsep, hres⟩,
                  by simpa using hlock, fun hmem => hnew (containsKey_eq_true.mpr hmem), rfl⟩)
                rw [hlines, hraw]
            · exact .inl rfl

variable {files : FileView} {separator : String} {sources : Sources} {resolution : Resolution}

/-- A tracked key is moved to the end. -/
theorem takeIn_of_mem {key : String} (hkey : resolution.key? = some key)
    (hmem : key ∈ sources.keys) :
    sources.takeIn files separator resolution = sources.moveToEnd key := by
  unfold takeIn
  rw [hkey]
  simp only [containsKey_eq_true.mpr hmem, if_true]

/-- Without the lock, an untracked key that leads to a file is taken in. -/
theorem takeIn_of_loaded {script : Script} (hloaded : script.LoadedFrom files separator resolution)
    (hlock : sources.locked = false) (hnew : script.key ∉ sources.keys) :
    sources.takeIn files separator resolution = sources.enqueue script := by
  have hcreated : sources.tryCreate? separator script.rawLines resolution = some script := by
    rw [tryCreate?, if_neg (by simp [hlock])]
    exact Script.ofResolution?_eq_some_iff.mpr
      ⟨hloaded.key, hloaded.path, rfl, hloaded.resolution_eq, hloaded.separator_eq⟩
  have hcontains : sources.containsKey script.key = false := by
    rw [← Bool.not_eq_true, containsKey_eq_true]
    exact hnew
  unfold takeIn
  simp only [hloaded.key, hcontains, hloaded.path, hloaded.isFile, hloaded.lines, hcreated]
  simp

/-- Following a resolution lets the sources grow by what it leads to. -/
theorem takeIn_grows {eligible : Script → Prop}
    (h : ∀ script : Script, script.LoadedFrom files separator resolution → eligible script) :
    Grows eligible sources (sources.takeIn files separator resolution) := by
  rcases takeIn_cases files separator sources resolution with
    heq | ⟨key, -, -, heq⟩ | ⟨script, hloaded, hlock, -, heq⟩
  · rw [heq]
    exact .refl sources
  · rw [heq]
    exact .moveToEnd sources key
  · rw [heq]
    exact .enqueue hlock (h script hloaded)

/-- Takes in what several resolutions lead to, one after another. -/
def takeAll (files : FileView) (separator : String) (resolutions : List Resolution)
    (sources : Sources) : Sources :=
  resolutions.foldl (takeIn files separator) sources

theorem takeAll_append (first second : List Resolution) :
    takeAll files separator (first ++ second) sources =
      takeAll files separator second (takeAll files separator first sources) :=
  List.foldl_append

/-- Following resolutions lets the sources grow by what they lead to. -/
theorem takeAll_grows {eligible : Script → Prop} {resolutions : List Resolution}
    (h : ∀ resolution ∈ resolutions, ∀ script : Script,
      script.LoadedFrom files separator resolution → eligible script) :
    Grows eligible sources (takeAll files separator resolutions sources) := by
  induction resolutions generalizing sources with
  | nil => exact .refl sources
  | cons resolution rest ih =>
      refine (takeIn_grows (h resolution (by simp))).trans (ih fun other hother => ?_)
      exact h other (by simp [hother])

/-- Following a resolution keeps what is tracked. -/
theorem takeIn_keeps :
    Grows (fun _ => True) sources (sources.takeIn files separator resolution) :=
  takeIn_grows fun _ _ => trivial

/-- Following resolutions keeps what is tracked. -/
theorem takeAll_keeps (resolutions : List Resolution) :
    Grows (fun _ => True) sources (takeAll files separator resolutions sources) :=
  takeAll_grows fun _ _ _ _ => trivial

@[simp]
theorem scheme_takeIn : (sources.takeIn files separator resolution).scheme = sources.scheme :=
  takeIn_keeps.scheme

@[simp]
theorem scheme_takeAll (resolutions : List Resolution) :
    (takeAll files separator resolutions sources).scheme = sources.scheme :=
  (takeAll_keeps resolutions).scheme

end Sources

namespace Includer

/-- The files that the pattern in the first token of a reference lists. -/
def listed (files : FileView) (directory : Path) (first : String) : List Path :=
  match Text.unquote? first with
  | none => []
  | some pattern =>
    let path := directory.join ⟨pattern⟩
    match path.parent?, path.fileName? with
    | some folder, some name =>
      match files.list folder name with
      | .error _ => []
      | .ok paths => paths
    | _, _ => []

/-- What a reference leads to, when it is written in `directory` by the script with the key `own`. A
pattern leads to the files it lists, but not to the script it is written in. -/
def referred (files : FileView) (scheme : Scheme) (directory : Path) (own reference : String) :
    List Resolution :=
  match Reference.tokens reference with
  | [] => []
  | first :: others =>
    if first.toList.contains '*' then
      ((listed files directory first).map fun path =>
        scheme.resolve (path.text :: others) directory).filter (·.key? ≠ some own)
    else [scheme.resolve (first :: others) directory]

/-- What the directive in a line leads to, if the line is one. -/
def targets (plugin : Includer) (files : FileView) (scheme : Scheme) (directory : Path)
    (own line : String) : List Resolution :=
  match plugin.directive? line with
  | none => []
  | some reference => referred files scheme directory own reference

/-- All that the directive in a line can lead to, whichever script it is written in. -/
def candidates (plugin : Includer) (files : FileView) (scheme : Scheme) (directory : Path)
    (line : String) : List Resolution :=
  match plugin.directive? line with
  | none => []
  | some reference =>
    match Reference.tokens reference with
    | [] => []
    | first :: others =>
      if first.toList.contains '*' then
        (listed files directory first).map fun path =>
          scheme.resolve (path.text :: others) directory
      else [scheme.resolve (first :: others) directory]

/-- A line leads a script to the candidates, except that a pattern does not lead to the script. -/
theorem targets_eq (plugin : Includer) (files : FileView) (scheme : Scheme) (directory : Path)
    (own line : String) :
    plugin.targets files scheme directory own line = plugin.candidates files scheme directory line ∨
      plugin.targets files scheme directory own line =
        (plugin.candidates files scheme directory line).filter (·.key? ≠ some own) := by
  unfold targets candidates referred
  cases plugin.directive? line with
  | none => exact .inl rfl
  | some reference =>
      simp only
      cases Reference.tokens reference with
      | nil => exact .inl rfl
      | cons first others =>
          simp only
          split
          · exact .inr rfl
          · exact .inl rfl

/-- What a line leads a script to is a candidate. -/
theorem mem_candidates {plugin : Includer} {files : FileView} {scheme : Scheme} {directory : Path}
    {own line : String} {resolution : Resolution}
    (h : resolution ∈ plugin.targets files scheme directory own line) :
    resolution ∈ plugin.candidates files scheme directory line := by
  rcases plugin.targets_eq files scheme directory own line with heq | heq
  · exact heq ▸ h
  · rw [heq] at h
    exact List.mem_of_mem_filter h

/-- A line leads a script to each candidate that is not the script. -/
theorem mem_targets {plugin : Includer} {files : FileView} {scheme : Scheme} {directory : Path}
    {own line : String} {resolution : Resolution}
    (h : resolution ∈ plugin.candidates files scheme directory line)
    (hown : resolution.key? ≠ some own) :
    resolution ∈ plugin.targets files scheme directory own line := by
  rcases plugin.targets_eq files scheme directory own line with heq | heq
  · exact heq ▸ h
  · rw [heq]
    exact List.mem_filter.mpr ⟨h, decide_eq_true hown⟩

/-- A candidate is what some tokens resolve to in the directory of the line. -/
theorem exists_tokens {plugin : Includer} {files : FileView} {scheme : Scheme} {directory : Path}
    {line : String} {resolution : Resolution}
    (h : resolution ∈ plugin.candidates files scheme directory line) :
    ∃ tokens, resolution = scheme.resolve tokens directory := by
  unfold candidates at h
  split at h
  · cases h
  · split at h
    · cases h
    · next first others _ =>
      split at h
      · obtain ⟨path, -, rfl⟩ := List.mem_map.mp h
        exact ⟨_, rfl⟩
      · exact ⟨_, List.mem_singleton.mp h⟩

/-- The line that the includer leaves in place of a line. -/
def mark (plugin : Includer) (line : String) : String :=
  if (plugin.directive? line).isSome then plugin.removalKeyword else line

/-- What the directives in the lines of a script lead to, from the first line to the last. -/
def allTargets (plugin : Includer) (files : FileView) (scheme : Scheme) (script : Script)
    (lines : List String) : List Resolution :=
  lines.flatMap (plugin.targets files scheme script.directory script.key)

variable {plugin : Includer} {context : Context}

/-- Following the tokens of a reference takes in what they resolve to. -/
theorem includeTokens_eq (hfiles : context.files.Readable) (tokens : List String)
    (session : Session) :
    ∃ after, plugin.includeTokens context tokens session = .ok () after ∧
      after.sources = session.sources.takeIn context.files plugin.separator
        (session.sources.resolve tokens context.script.directory) := by
  simp only [includeTokens, Sources.takeIn]
  generalize session.sources.resolve tokens context.script.directory = resolution
  cases hkey : resolution.key? with
  | none => exact ⟨_, rfl, rfl⟩
  | some key =>
      simp only
      split
      · exact ⟨_, rfl, Session.sources_moveToEnd session key⟩
      · cases hpath : resolution.path? with
        | none => exact ⟨_, rfl, rfl⟩
        | some path =>
            simp only
            split
            · exact ⟨_, rfl, rfl⟩
            · next hfile =>
              obtain ⟨lines, hlines⟩ := hfiles path (by simpa using hfile)
              obtain ⟨after, hcreate, hafter⟩ :=
                session.tryCreate?_eq plugin.separator lines resolution
              simp only [hlines, hcreate]
              cases session.sources.tryCreate? plugin.separator lines resolution with
              | none => exact ⟨_, rfl, hafter⟩
              | some created => exact ⟨_, rfl, by rw [Session.sources_enqueue, hafter]⟩

/-- Following the matches of a pattern takes in what they resolve to, but not the script itself. -/
theorem forM_includeMatch_eq (hfiles : context.files.Readable) (others : List String)
    (paths : List Path) (session : Session) :
    ∃ after, paths.forM (plugin.includeMatch context others) session = .ok () after ∧
      after.sources = Sources.takeAll context.files plugin.separator
        ((paths.map fun path =>
          session.sources.scheme.resolve (path.text :: others) context.script.directory).filter
            (·.key? ≠ some context.script.key)) session.sources := by
  induction paths generalizing session with
  | nil => exact ⟨session, rfl, rfl⟩
  | cons path rest ih =>
      have hunfold : (path :: rest).forM (plugin.includeMatch context others) =
          (plugin.includeMatch context others path >>= fun _ =>
            rest.forM (plugin.includeMatch context others)) := List.forM_cons
      rw [hunfold, List.map_cons]
      by_cases hown :
          (session.sources.resolve (path.text :: others) context.script.directory).key? =
            some context.script.key
      · have hskip : plugin.includeMatch context others path session = .ok () session := by
          simp only [includeMatch, hown, if_true]
        obtain ⟨after, hrun, hafter⟩ := ih session
        refine ⟨after, (bind_of_ok hskip).trans hrun, hafter.trans ?_⟩
        rw [List.filter_cons_of_neg]
        simpa [Sources.resolve] using hown
      · obtain ⟨middle, htake, hmiddle⟩ := includeTokens_eq hfiles (path.text :: others) session
        have hfirst : plugin.includeMatch context others path session = .ok () middle := by
          simp only [includeMatch, hown, if_false]
          exact htake
        obtain ⟨after, hrun, hafter⟩ := ih middle
        refine ⟨after, (bind_of_ok hfirst).trans hrun, hafter.trans ?_⟩
        rw [List.filter_cons_of_pos (by simpa [Sources.resolve] using hown), hmiddle,
          Sources.scheme_takeIn]
        rfl

/-- Following a pattern takes in what it refers to. -/
theorem includePattern_eq (hfiles : context.files.Readable) (reference first : String)
    (others : List String) (session : Session) :
    ∃ after, plugin.includePattern context reference first others session = .ok () after ∧
      after.sources = Sources.takeAll context.files plugin.separator
        (((listed context.files context.script.directory first).map fun path =>
          session.sources.scheme.resolve (path.text :: others) context.script.directory).filter
            (·.key? ≠ some context.script.key)) session.sources := by
  unfold includePattern listed
  cases Text.unquote? first with
  | none => exact ⟨_, rfl, rfl⟩
  | some pattern =>
      dsimp only
      cases (context.script.directory.join ⟨pattern⟩).parent? with
      | none => exact ⟨_, rfl, rfl⟩
      | some folder =>
          cases (context.script.directory.join ⟨pattern⟩).fileName? with
          | none => exact ⟨_, rfl, rfl⟩
          | some name =>
              dsimp only
              cases context.files.list folder name with
              | error e => exact ⟨_, rfl, rfl⟩
              | ok paths =>
                  dsimp only
                  split
                  · next hempty =>
                    rw [List.isEmpty_iff.mp hempty]
                    exact ⟨_, rfl, rfl⟩
                  · exact forM_includeMatch_eq hfiles others paths _

/-- Following a directive takes in what it refers to. -/
theorem follow_eq (hfiles : context.files.Readable) (reference : String) (session : Session) :
    ∃ after, plugin.follow context reference session = .ok () after ∧
      after.sources = Sources.takeAll context.files plugin.separator
        (referred context.files session.sources.scheme context.script.directory
          context.script.key reference) session.sources := by
  unfold follow referred
  cases Reference.tokens reference with
  | nil => exact ⟨_, rfl, rfl⟩
  | cons first others =>
      simp only
      split
      · exact includePattern_eq hfiles reference first others session
      · exact includeTokens_eq hfiles (first :: others) session

/-- The includer never fails where every file can be read. It marks the directives and takes in what
they lead to. -/
theorem transform_eq (hfiles : context.files.Readable) (lines : List String) (session : Session) :
    ∃ after, plugin.transform context lines session = .ok (lines.map plugin.mark) after ∧
      after.sources = Sources.takeAll context.files plugin.separator
        (plugin.allTargets context.files session.sources.scheme context.script lines)
          session.sources := by
  induction lines generalizing session with
  | nil => exact ⟨session, rfl, rfl⟩
  | cons line rest ih =>
      rw [transform, allTargets, List.flatMap_cons]
      cases hdirective : plugin.directive? line with
      | none =>
          obtain ⟨after, hrun, hafter⟩ := ih session
          refine ⟨after, (bind_of_ok hrun).trans ?_, hafter.trans ?_⟩
          · rw [List.map_cons, mark, hdirective]
            rfl
          · rw [targets, hdirective]
            rfl
      | some reference =>
          obtain ⟨middle, hfollow, hmiddle⟩ := follow_eq hfiles reference session
          obtain ⟨after, hrun, hafter⟩ := ih middle
          refine ⟨after, (bind_of_ok hfollow).trans ((bind_of_ok hrun).trans ?_), hafter.trans ?_⟩
          · rw [List.map_cons, mark, hdirective]
            rfl
          · rw [Sources.takeAll_append, targets, hdirective, hmiddle, Sources.scheme_takeAll]
            rfl

end Includer

end SourceWeave
