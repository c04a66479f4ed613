import SourceWeave.Proofs.FileRecords

/-!
# What keys tell apart

The key of a path is its text with slashes in place of backslashes, so paths have one key exactly if
they are the same but for these: `Path.key_eq_iff`. The parameters of a reference are put behind the
key of its path without any escapes, so a key can also be read in two ways where a path holds a
question mark or a parameter a comma: `Scheme.Clash`. The main statements are
`pathKey_tells_files_apart` and `parameterized_tells_instances_apart`: nothing else makes two
references share a key. Each of them is followed by the references for which it cannot be had
without these exceptions.
-/

namespace SourceWeave

open Run

/-! ## Keys of paths -/

namespace Path

/-- The paths are the same, but for slashes of one where the other has backslashes. -/
def SlashAlike (path other : Path) : Prop :=
  List.Forall₂ (fun c d => c = d ∨ c = '/' ∧ d = '\\' ∨ c = '\\' ∧ d = '/')
    path.text.toList other.text.toList

/-- A key does not tell slashes from backslashes, but everything else. -/
theorem key_eq_iff {path other : Path} : path.key = other.key ↔ path.SlashAlike other := by
  have hchars : ∀ c d : Char,
      ((if c = '\\' then '/' else c) = if d = '\\' then '/' else d) ↔
        c = d ∨ c = '/' ∧ d = '\\' ∨ c = '\\' ∧ d = '/' := by
    intro c d
    by_cases hc : c = '\\' <;> by_cases hd : d = '\\'
    · simp [hc, hd]
    · have hd' : ¬ '\\' = d := fun heq => hd heq.symm
      simp [hc, hd, hd', eq_comm]
    · simp [hc, hd]
    · simp [hc, hd]
  rw [key, key, ← String.toList_inj, String.toList_map, String.toList_map, ← List.forall₂_eq_eq_eq,
    List.forall₂_map_left_iff, List.forall₂_map_right_iff, SlashAlike]
  simp only [hchars]

/-- Paths without backslashes are told apart by their keys. -/
theorem SlashAlike.eq_of_no_backslash {path other : Path} (h : path.SlashAlike other)
    (hpath : '\\' ∉ path.text.toList) (hother : '\\' ∉ other.text.toList) : path = other := by
  have hsame : ∀ {cs ds : List Char}, List.Forall₂ (fun c d =>
      c = d ∨ c = '/' ∧ d = '\\' ∨ c = '\\' ∧ d = '/') cs ds → '\\' ∉ cs → '\\' ∉ ds → cs = ds := by
    intro cs ds hall
    induction hall with
    | nil => exact fun _ _ => rfl
    | cons hchars _ ih =>
        intro hcs hds
        simp only [List.mem_cons, not_or] at hcs hds
        rcases hchars with rfl | ⟨-, rfl⟩ | ⟨rfl, -⟩
        · rw [ih hcs.2 hds.2]
        · exact absurd rfl hds.1
        · exact absurd rfl hcs.1
  cases path
  cases other
  exact congrArg Path.mk (String.toList_inj.mp (hsame h hpath hother))

/-- A key has no question mark that its path does not have. -/
theorem mark_notMem_key {path : Path} (h : '?' ∉ path.text.toList) : '?' ∉ path.key.toList := by
  intro hmem
  rw [key, String.toList_map, List.mem_map] at hmem
  obtain ⟨c, hc, heq⟩ := hmem
  split at heq
  · cases heq
  · subst heq
    exact h hc

end Path

/-- A reference that is resolved by its path has the key of the path. -/
theorem Scheme.key?_pathKey {cwd directory path : Path} {tokens : List String}
    (h : ((pathKey cwd).resolve tokens directory).path? = some path) :
    ((pathKey cwd).resolve tokens directory).key? = some path.key := by
  rcases resolvePathKey_cases cwd tokens directory with hfail | ⟨reference, hresolved⟩
  · simp [pathKey, hfail] at h
  · simp only [pathKey, hresolved, Resolution.path?_resolved, Option.some.injEq] at h
    simp only [pathKey, hresolved, Resolution.key?_resolved, h]

/-- An input of a run resolves to the path, or a directive in a script that is put out does. -/
inductive Output.RefersTo (output : Output) (job : Job) (includer : Includer) (files : FileView)
    (cwd path : Path) : Prop where
  | input (input : String) (hinput : input ∈ job.inputs)
      (hpath : ((Scheme.pathKey cwd).resolve [input] job.baseDirectory).path? = some path)
  | directive (emitted : EmittedScript) (hemitted : emitted ∈ output.scripts) (raw : List String)
      (hraw : files.readLines emitted.path = .ok raw) (line : String) (hline : line ∈ raw)
      (resolution : Resolution)
      (hresolution : resolution ∈
        includer.candidates files (.pathKey cwd) emitted.path.folder line)
      (hpath : resolution.path? = some path)

/-- A file that is referred to is put out, or a file with the same key is. -/
theorem Run.Course.exists_slashAlike {files : FileView} {job : Job} {cwd path : Path}
    {plugins configured : List Builtin} {includer : Includer} {output : Output} {final : Session}
    (course : Course files job plugins (Session.start cwd) output final)
    (hfiles : files.Readable) (hscheme : job.schemeFrom cwd = .pathKey cwd)
    (hconfigured : plugins.mapM (Builtin.setUp job.settings) = .ok configured)
    (hactive : .inl includer ∈ Builtin.active configured .onLoad)
    (hsame : ∀ other, .inl other ∈ Builtin.active configured .onLoad → other = includer)
    (hrefers : output.RefersTo job includer files cwd path) (hfile : files.isFile path = true) :
    ∃ emitted ∈ output.scripts, emitted.path.SlashAlike path := by
  obtain ⟨emitted, hemitted, hkey⟩ : ∃ emitted ∈ output.scripts, emitted.key = path.key := by
    cases hrefers with
    | input input hinput hpath =>
        have hkey := Scheme.key?_pathKey hpath
        rw [← hscheme] at hkey
        exact course.exists_emitted_of_input hconfigured hfiles hinput hkey
    | directive emitted hemitted raw hraw line hline resolution hresolution hpath =>
        obtain ⟨tokens, rfl⟩ := Includer.exists_tokens hresolution
        have hkey := Scheme.key?_pathKey hpath
        rw [← hscheme] at hresolution hpath hkey
        exact course.exists_emitted_of_directive hconfigured hfiles hactive hsame hemitted hraw
          hline hresolution hkey hpath hfile
  obtain ⟨tokens, directory, hkey', hpath', -⟩ :=
    course.exists_reference hconfigured hfiles hemitted
  rw [hscheme] at hkey' hpath'
  have hown : emitted.key = emitted.path.key :=
    Option.some.inj (hkey'.symm.trans (Scheme.key?_pathKey hpath'))
  exact ⟨emitted, hemitted, Path.key_eq_iff.mp (hown.symm.trans hkey)⟩

/-- All includers of a chain that handles name are the same, in whichever phase. -/
theorem Builtin.includer_of_active {handles : List String} {plugins configured : List Builtin}
    {settings : Settings} (hchain : chain handles = .ok plugins)
    (hconfigured : plugins.mapM (setUp settings) = .ok configured) {includer : Includer}
    (hincluder : .inl includer ∈ configured) {phase : Phase} {other : Includer}
    (hother : .inl other ∈ active configured phase) : other = includer :=
  (Configured.of_chain hchain hconfigured).includer_unique (mem_active.mp hother).1 hincluder

/-- References that are resolved by their paths have the same key exactly if their paths are the
same but for slashes and backslashes, so where there are no backslashes they have the same path. In
a run over files that can all be read, with an includer in the first phase, every file that is
referred to is put out, unless one is that differs from it in this way. -/
theorem pathKey_tells_files_apart {cwd : Path} :
    (∀ (tokens tokens' : List String) (directory directory' path path' : Path),
      ((Scheme.pathKey cwd).resolve tokens directory).path? = some path →
      ((Scheme.pathKey cwd).resolve tokens' directory').path? = some path' →
        (((Scheme.pathKey cwd).resolve tokens directory).key? =
            ((Scheme.pathKey cwd).resolve tokens' directory').key? ↔ path.SlashAlike path') ∧
          ('\\' ∉ path.text.toList → '\\' ∉ path'.text.toList →
            ((Scheme.pathKey cwd).resolve tokens directory).key? =
              ((Scheme.pathKey cwd).resolve tokens' directory').key? → path = path')) ∧
    ∀ (files : FileView) (job : Job) (handles : List String) (plugins configured : List Builtin)
      (includer : Includer) (limit : Nat) (output : Output) (final : Session),
      files.Readable → job.schemeFrom cwd = .pathKey cwd → Builtin.chain handles = .ok plugins →
      plugins.mapM (Builtin.setUp job.settings) = .ok configured →
      .inl includer ∈ configured → includer.phase = .onLoad →
      job.run files plugins limit (Session.start cwd) = .ok (some output) final →
        ∀ path, output.RefersTo job includer files cwd path → files.isFile path = true →
          ∃ emitted ∈ output.scripts, emitted.path.SlashAlike path ∧
            ('\\' ∉ emitted.path.text.toList → '\\' ∉ path.text.toList →
              emitted.path = path) := by
  constructor
  · intro tokens tokens' directory directory' path path' hpath hpath'
    rw [Scheme.key?_pathKey hpath, Scheme.key?_pathKey hpath', Option.some.injEq, Path.key_eq_iff]
    exact ⟨Iff.rfl, fun hplain hplain' halike => halike.eq_of_no_backslash hplain hplain'⟩
  · intro files job handles plugins configured includer limit output final hfiles hscheme hchain
      hconfigured hincluder hphase hrun path hrefers hfile
    obtain ⟨course, -⟩ := Course.of_run hrun
    obtain ⟨emitted, hemitted, halike⟩ := course.exists_slashAlike hfiles hscheme hconfigured
      (Builtin.mem_active.mpr ⟨hincluder, hphase⟩)
      (fun _ hother => Builtin.includer_of_active hchain hconfigured hincluder hother) hrefers hfile
    exact ⟨emitted, hemitted, halike, halike.eq_of_no_backslash⟩

/-- Two files whose paths differ in a slash and a backslash, and one that refers to both. -/
def slashFiles : MemoryFiles :=
  .ofList [(⟨"/m"⟩, "#include a\\b\n#include a/b\nmain\n"), (⟨"/a\\b"⟩, "backslash\n"),
    (⟨"/a/b"⟩, "slash\n")]

def slashOutput : Output :=
  ⟨[⟨"/m", ⟨"/m"⟩, ["main"]⟩, ⟨"/a/b", ⟨"/a\\b"⟩, ["backslash"]⟩]⟩

theorem slashOutput_refersTo :
    slashOutput.RefersTo { inputs := ["/m"] } {} slashFiles.view ⟨"/"⟩ ⟨"/a/b"⟩ := by
  have hraw : slashFiles.view.readLines ⟨"/m"⟩ = .ok ["#include a\\b", "#include a/b", "main"] :=
    MemoryFiles.readLines_view.mpr ⟨⟨⟨"/m"⟩, "#include a\\b\n#include a/b\nmain\n"⟩,
      by decide +kernel, by decide +kernel⟩
  exact .directive ⟨"/m", ⟨"/m"⟩, ["main"]⟩ (by decide) _ hraw "#include a/b" (by simp)
    ((Scheme.pathKey ⟨"/"⟩).resolve ["a/b"] ⟨"/"⟩) (List.mem_singleton_self _) (by decide +kernel)

set_option maxRecDepth 10000 in
theorem exists_slashOutput :
    ∃ final, Job.run { inputs := ["/m"] } slashFiles.view [(.inl {} : Builtin)] 9
      (Session.start ⟨"/"⟩) = .ok (some slashOutput) final :=
  exists_final (by decide +kernel)

theorem pathKey_tells_files_apart_slash :
    (((Scheme.pathKey ⟨"/"⟩).resolve ["a\\b"] ⟨"/"⟩).key? =
        ((Scheme.pathKey ⟨"/"⟩).resolve ["x/../a/b"] ⟨"/"⟩).key? ↔
      Path.SlashAlike ⟨"/a\\b"⟩ ⟨"/a/b"⟩) ∧
    ∃ final, Job.run { inputs := ["/m"] } slashFiles.view [(.inl {} : Builtin)] 9
        (Session.start ⟨"/"⟩) = .ok (some slashOutput) final ∧
      ∃ emitted ∈ slashOutput.scripts, emitted.path.SlashAlike ⟨"/a/b"⟩ := by
  obtain ⟨hkeys, hruns⟩ := @pathKey_tells_files_apart ⟨"/"⟩
  refine ⟨(hkeys _ _ _ _ _ _ (by decide +kernel) (by decide +kernel)).1, ?_⟩
  obtain ⟨final, hrun⟩ := exists_slashOutput
  have hchain : Builtin.chain ["inc"] = .ok [.inl {}] := rfl
  obtain ⟨emitted, hemitted, halike, -⟩ := hruns _ _ _ _ _ {} _ _ _ slashFiles.view_readable rfl
    hchain rfl (by simp) rfl hrun ⟨"/a/b"⟩ slashOutput_refersTo (by decide +kernel)
  exact ⟨final, hrun, emitted, hemitted, halike⟩

/-- A slash and a backslash make one key, so one of two files is taken for the other and is left
out. -/
theorem slash_and_backslash_share_key :
    ((Scheme.pathKey ⟨"/"⟩).resolve ["a\\b"] ⟨"/"⟩).path? = some ⟨"/a\\b"⟩ ∧
      ((Scheme.pathKey ⟨"/"⟩).resolve ["a/b"] ⟨"/"⟩).path? = some ⟨"/a/b"⟩ ∧
      ((Scheme.pathKey ⟨"/"⟩).resolve ["a\\b"] ⟨"/"⟩).key? = some "/a/b" ∧
      ((Scheme.pathKey ⟨"/"⟩).resolve ["a/b"] ⟨"/"⟩).key? = some "/a/b" ∧
      slashOutput.RefersTo { inputs := ["/m"] } {} slashFiles.view ⟨"/"⟩ ⟨"/a/b"⟩ ∧
      slashFiles.view.isFile ⟨"/a/b"⟩ = true ∧
      (∃ final, Job.run { inputs := ["/m"] } slashFiles.view [(.inl {} : Builtin)] 9
        (Session.start ⟨"/"⟩) = .ok (some slashOutput) final) ∧
      ∀ emitted ∈ slashOutput.scripts, emitted.path ≠ ⟨"/a/b"⟩ :=
  ⟨by decide +kernel, by decide +kernel, by decide +kernel, by decide +kernel, slashOutput_refersTo,
    by decide +kernel, exists_slashOutput, by decide⟩

/-! ## Keys with parameters -/

/-- Fields without the mark are known from the text that is put together from them. -/
theorem Text.joinFields_inj {mark : Char} {parts parts' : List (List Char)} (hne : parts ≠ [])
    (hne' : parts' ≠ []) (h : ∀ part ∈ parts ++ parts', mark ∉ part)
    (heq : joinFields mark parts = joinFields mark parts') : parts = parts' := by
  have hparts : ∀ part ∈ parts, mark ∉ part := fun part hpart => h part (by simp [hpart])
  have hparts' : ∀ part ∈ parts', mark ∉ part := fun part hpart => h part (by simp [hpart])
  rw [← fields_joinFields hne hparts, heq, fields_joinFields hne' hparts']

namespace Scheme

/-- What stands behind the key of the path in the key of a script with parameters. -/
def keyTail (parameters : List String) : List Char :=
  if parameters = [] then [] else '?' :: Text.joinFields ',' (parameters.map String.toList)

/-- The key of what is resolved with parameters is the key of its path, with the parameters
behind it. -/
theorem toList_key {cwd directory path : Path} {tokens parameters : List String} {key : String}
    (hkey : ((parameterized cwd).resolve tokens directory).key? = some key)
    (hpath : ((parameterized cwd).resolve tokens directory).path? = some path)
    (hparameters : parameters? tokens.tail = some parameters) :
    key.toList = path.key.toList ++ keyTail parameters := by
  obtain ⟨others, hothers, rfl⟩ := resolveParameterized_eq hkey hpath
  obtain rfl : others = parameters := Option.some.inj (hothers.symm.trans hparameters)
  rw [keyTail]
  split
  · rw [List.append_nil]
  · rw [parameterizedKey, String.toList_append, String.toList_append, String.toList_intercalate,
      Text.joinFields_eq_intercalate, List.append_assoc]
    rfl

/-- A resolution with parameters that has a path has a key. -/
theorem exists_key {cwd directory path : Path} {tokens : List String}
    (hpath : ((parameterized cwd).resolve tokens directory).path? = some path) :
    ∃ key, ((parameterized cwd).resolve tokens directory).key? = some key := by
  show ∃ key, (resolveParameterized cwd tokens directory).key? = some key
  have hbase : (resolveParameterized cwd tokens directory).path? = some path := hpath
  unfold resolveParameterized at hbase ⊢
  rcases resolvePathKey_cases cwd tokens directory with hfail | ⟨reference, hresolved⟩
  · simp [hfail] at hbase
  · simp only [hresolved, Resolution.key?_resolved] at hbase ⊢
    cases hparameters : parameters? tokens.tail with
    | none => simp [hparameters] at hbase
    | some parameters =>
        cases parameters with
        | nil => exact ⟨_, Resolution.key?_resolved _ _⟩
        | cons first others => exact ⟨_, Resolution.key?_setValue_key _ _ _⟩

/-- Where two texts with parameters behind them are the same, so are the texts and what is behind
them, or one of the texts goes on with a question mark where the other ends. -/
theorem append_keyTail_cases {base base' : List Char} {parameters parameters' : List String}
    (h : base ++ keyTail parameters = base' ++ keyTail parameters') :
    (base = base' ∧ keyTail parameters = keyTail parameters') ∨
      ∃ rest, base = base' ++ '?' :: rest ∨ base' = base ++ '?' :: rest := by
  have hmark : ∀ {parameters : List String} {c : Char} {front back : List Char},
      keyTail parameters = c :: front ++ back → c = '?' := by
    intro parameters c front back heq
    unfold keyTail at heq
    split at heq
    · cases heq
    · exact (List.cons.inj heq).1.symm
  rcases List.append_eq_append_iff.mp h with ⟨inner, rfl, htail⟩ | ⟨inner, rfl, htail⟩
  · cases inner with
    | nil => exact .inl ⟨by simp, htail⟩
    | cons c rest =>
        obtain rfl := hmark htail
        exact .inr ⟨rest, .inr rfl⟩
  · cases inner with
    | nil => exact .inl ⟨by simp, htail.symm⟩
    | cons c rest =>
        obtain rfl := hmark htail
        exact .inr ⟨rest, .inl rfl⟩

/-- Parameters without commas are known from what they put behind a key. -/
theorem keyTail_inj {parameters parameters' : List String}
    (h : ∀ parameter ∈ parameters ++ parameters', ',' ∉ parameter.toList)
    (heq : keyTail parameters = keyTail parameters') : parameters = parameters' := by
  unfold keyTail at heq
  split at heq
  · next hnil =>
    split at heq
    · next hnil' => rw [hnil, hnil']
    · cases heq
  · next hne =>
    split at heq
    · cases heq
    · next hne' =>
      have hparts : ∀ part ∈ parameters.map String.toList ++ parameters'.map String.toList,
          ',' ∉ part := by
        intro part hpart
        rw [← List.map_append] at hpart
        obtain ⟨parameter, hparameter, rfl⟩ := List.mem_map.mp hpart
        exact h parameter hparameter
      have hjoined := Text.joinFields_inj (by simpa using hne) (by simpa using hne') hparts
        (List.cons.inj heq).2
      exact List.map_injective_iff.mpr (fun _ _ => String.toList_inj.mp) hjoined

/-- How two scripts that differ in their path or their parameters can come to share a key: one path
has parameters that are told apart only by a comma inside of one of them, the paths differ in
slashes and backslashes only, or the key of one path goes on with a question mark where the other
ends. -/
inductive Clash (path path' : Path) (parameters parameters' : List String) : Prop where
  | comma (hpath : path = path')
      (hcomma : ∃ parameter ∈ parameters ++ parameters', ',' ∈ parameter.toList)
  | slash (hpath : path ≠ path') (halike : path.SlashAlike path')
  | mark (rest : String)
      (hmark : path.key = path'.key ++ "?" ++ rest ∨ path'.key = path.key ++ "?" ++ rest)

/-- Without backslashes, without question marks in the paths and without commas in the parameters
there is no clash. -/
theorem not_clash {path path' : Path} {parameters parameters' : List String}
    (hbackslash : ∀ other ∈ [path, path'], '\\' ∉ other.text.toList)
    (hmark : ∀ other ∈ [path, path'], '?' ∉ other.text.toList)
    (hcomma : ∀ parameter ∈ parameters ++ parameters', ',' ∉ parameter.toList) :
    ¬ Clash path path' parameters parameters' := by
  have hkey : ∀ other ∈ [path, path'], '?' ∉ other.key.toList := fun other hother =>
    Path.mark_notMem_key (hmark other hother)
  rintro (⟨-, parameter, hparameter, hmem⟩ | ⟨hne, halike⟩ | ⟨rest, heq | heq⟩)
  · exact hcomma parameter hparameter hmem
  · exact hne (halike.eq_of_no_backslash (hbackslash path (by simp)) (hbackslash path' (by simp)))
  · exact hkey path (by simp) (by simp [heq])
  · exact hkey path' (by simp) (by simp [heq])

end Scheme

/-- References that are resolved with parameters have the same key only if they have the same path
and the same parameters, or if there is a clash. There is none, and the key tells them apart, if
there are no backslashes and no question marks in the paths and no commas in the parameters. -/
theorem parameterized_tells_instances_apart {cwd directory directory' path path' : Path}
    {tokens tokens' parameters parameters' : List String}
    (hpath : ((Scheme.parameterized cwd).resolve tokens directory).path? = some path)
    (hpath' : ((Scheme.parameterized cwd).resolve tokens' directory').path? = some path')
    (hparameters : Scheme.parameters? tokens.tail = some parameters)
    (hparameters' : Scheme.parameters? tokens'.tail = some parameters') :
    (((Scheme.parameterized cwd).resolve tokens directory).key? =
        ((Scheme.parameterized cwd).resolve tokens' directory').key? →
      path = path' ∧ parameters = parameters' ∨
        Scheme.Clash path path' parameters parameters') ∧
    ((∀ other ∈ [path, path'], '\\' ∉ other.text.toList) →
      (∀ other ∈ [path, path'], '?' ∉ other.text.toList) →
      (∀ parameter ∈ parameters ++ parameters', ',' ∉ parameter.toList) →
        (((Scheme.parameterized cwd).resolve tokens directory).key? =
            ((Scheme.parameterized cwd).resolve tokens' directory').key? ↔
          path = path' ∧ parameters = parameters')) := by
  obtain ⟨key, hkey⟩ := Scheme.exists_key hpath
  obtain ⟨key', hkey'⟩ := Scheme.exists_key hpath'
  have hlist := Scheme.toList_key hkey hpath hparameters
  have hlist' := Scheme.toList_key hkey' hpath' hparameters'
  rw [hkey, hkey', Option.some.injEq]
  have hcases : key = key' → path = path' ∧ parameters = parameters' ∨
      Scheme.Clash path path' parameters parameters' := by
    rintro rfl
    rcases Scheme.append_keyTail_cases (hlist.symm.trans hlist') with ⟨hbase, htail⟩ | ⟨rest, hrest⟩
    · have halike := Path.key_eq_iff.mp (String.toList_inj.mp hbase)
      by_cases hsame : path = path'
      · by_cases hcomma : ∃ parameter ∈ parameters ++ parameters', ',' ∈ parameter.toList
        · exact .inr (.comma hsame hcomma)
        · refine .inl ⟨hsame, Scheme.keyTail_inj (fun parameter hmem hheld => ?_) htail⟩
          exact hcomma ⟨parameter, hmem, hheld⟩
      · exact .inr (.slash hsame halike)
    · refine .inr (.mark (String.ofList rest) ?_)
      have hmark : "?".toList = ['?'] := rfl
      simpa only [← String.toList_inj, String.toList_append, String.toList_ofList, hmark,
        List.append_assoc, List.singleton_append] using hrest
  refine ⟨hcases, fun hbackslash hmark hcomma => ⟨fun heq => ?_, ?_⟩⟩
  · exact (hcases heq).resolve_right (Scheme.not_clash hbackslash hmark hcomma)
  · rintro ⟨rfl, rfl⟩
    exact String.toList_inj.mp (hlist.trans hlist'.symm)

theorem parameterized_tells_instances_apart_variants :
    (((Scheme.parameterized ⟨"/"⟩).resolve ["t", "A", "\"B C\""] ⟨"/d"⟩).key? =
        ((Scheme.parameterized ⟨"/"⟩).resolve ["../d/t", "A", "B"] ⟨"/e"⟩).key? ↔
      (⟨"/d/t"⟩ : Path) = ⟨"/d/t"⟩ ∧ ["A", "B C"] = ["A", "B"]) ∧
    Scheme.Clash ⟨"/d/t"⟩ ⟨"/d/t"⟩ ["A,B"] ["A", "B"] := by
  constructor
  · exact (parameterized_tells_instances_apart (by decide +kernel) (by decide +kernel)
      (by decide +kernel) (by decide +kernel)).2 (by decide) (by decide) (by decide)
  · have hkey : ((Scheme.parameterized ⟨"/"⟩).resolve ["t", "\"A,B\""] ⟨"/d"⟩).key? =
        some "/d/t?A,B" := by decide +kernel
    have hkey' : ((Scheme.parameterized ⟨"/"⟩).resolve ["t", "A", "B"] ⟨"/d"⟩).key? =
        some "/d/t?A,B" := by decide +kernel
    have hcases := (parameterized_tells_instances_apart
      (show ((Scheme.parameterized ⟨"/"⟩).resolve ["t", "\"A,B\""] ⟨"/d"⟩).path? = some ⟨"/d/t"⟩
        by decide +kernel)
      (show ((Scheme.parameterized ⟨"/"⟩).resolve ["t", "A", "B"] ⟨"/d"⟩).path? = some ⟨"/d/t"⟩
        by decide +kernel)
      (show _ = some ["A,B"] by decide +kernel)
      (show _ = some ["A", "B"] by decide +kernel)).1 (hkey.trans hkey'.symm)
    exact hcases.resolve_left (by decide)

/-- A comma in a parameter, a question mark in a reference or a backslash in a directory is enough
for scripts with other parameters or another path to share a key. -/
theorem instances_share_key :
    (((Scheme.parameterized ⟨"/"⟩).resolve ["t", "\"A,B\""] ⟨"/"⟩).key? = some "/t?A,B" ∧
      ((Scheme.parameterized ⟨"/"⟩).resolve ["t", "A", "B"] ⟨"/"⟩).key? = some "/t?A,B" ∧
      Scheme.parameters? ["\"A,B\""] = some ["A,B"] ∧
      Scheme.parameters? ["A", "B"] = some ["A", "B"]) ∧
    (((Scheme.parameterized ⟨"/"⟩).resolve ["t?A"] ⟨"/"⟩).key? = some "/t?A" ∧
      ((Scheme.parameterized ⟨"/"⟩).resolve ["t", "A"] ⟨"/"⟩).key? = some "/t?A" ∧
      ((Scheme.parameterized ⟨"/"⟩).resolve ["t?A"] ⟨"/"⟩).path? = some ⟨"/t?A"⟩ ∧
      ((Scheme.parameterized ⟨"/"⟩).resolve ["t", "A"] ⟨"/"⟩).path? = some ⟨"/t"⟩) ∧
    (((Scheme.parameterized ⟨"/"⟩).resolve ["x"] ⟨"/a\\b"⟩).key? = some "/a/b/x" ∧
      ((Scheme.parameterized ⟨"/"⟩).resolve ["/a/b/x"] ⟨"/a\\b"⟩).key? = some "/a/b/x" ∧
      ((Scheme.parameterized ⟨"/"⟩).resolve ["x"] ⟨"/a\\b"⟩).path? = some ⟨"/a\\b/x"⟩ ∧
      ((Scheme.parameterized ⟨"/"⟩).resolve ["/a/b/x"] ⟨"/a\\b"⟩).path? = some ⟨"/a/b/x"⟩) := by
  decide +kernel

end SourceWeave
