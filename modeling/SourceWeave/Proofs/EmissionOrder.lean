import SourceWeave.Proofs.Closure

/-!
# The order of the output

A reference to a script puts it at the end of the order, whether it is new or not, and the scripts
that it includes stay where they are unless they are referred to again. So a script stands in front
of one that it includes exactly if each reference to the first is followed by one to the second:
`Run.Course.sublist_order_iff`. `run_topological_iff` says when the whole output is in the order of
inclusion, and `acyclic_not_topological` that inclusion without cycles is not enough for this.
-/

namespace SourceWeave

open Run

/-- In the list, `target` stands behind every `source`. -/
def Follows (references : List String) (source target : String) : Prop :=
  ∀ front back, references = front ++ source :: back → target ∈ back

/-- One more reference to `key` follows everything but `key`. -/
theorem follows_append {references : List String} {key source target : String} :
    Follows (references ++ [key]) source target ↔
      source ≠ key ∧ (target = key ∨ Follows references source target) := by
  constructor
  · intro h
    refine ⟨?_, ?_⟩
    · rintro rfl
      exact List.not_mem_nil (h references [] rfl)
    · by_cases htarget : target = key
      · exact .inl htarget
      · refine .inr fun front back heq => ?_
        have hmem := h front (back ++ [key]) (by rw [heq]; simp)
        simpa [htarget] using hmem
  · rintro ⟨hsource, hfollows⟩ front back heq
    rcases List.eq_nil_or_concat back with rfl | ⟨inner, last, rfl⟩
    · have hlast := (List.append_inj' heq rfl).2
      exact absurd (List.singleton_inj.mp hlast).symm hsource
    · have hsplit : references ++ [key] = (front ++ source :: inner) ++ [last] := by
        rw [heq]
        simp
      obtain ⟨hreferences, hlast⟩ := List.append_inj' hsplit rfl
      obtain rfl := List.singleton_inj.mp hlast
      rcases hfollows with rfl | hfollows
      · simp
      · simp [hfollows front inner hreferences]

/-- With a key taken to the end, a pair is in order if its first is not the key, and its second is
the key or the pair was in order before. -/
theorem pair_sublist_touch {keys : List String} {key source target : String}
    (hsource : source ∈ keys ∨ source = key) :
    [source, target].Sublist (keys.filter (· != key) ++ [key]) ↔
      source ≠ key ∧ (target = key ∨ [source, target].Sublist keys) := by
  constructor
  · intro h
    obtain ⟨left, right, heq, hleft, hright⟩ := List.sublist_append_iff.mp h
    cases left with
    | nil =>
        have hlength := hright.length_le
        rw [← List.nil_append right, ← heq] at hlength
        simp at hlength
    | cons first rest =>
        rw [List.cons_append, List.cons.injEq] at heq
        obtain ⟨rfl, hrest⟩ := heq
        have hne : source ≠ key := by
          simpa using (List.mem_filter.mp (hleft.subset List.mem_cons_self)).2
        refine ⟨hne, ?_⟩
        cases rest with
        | nil =>
            obtain rfl : right = [target] := hrest.symm
            exact .inl (by simpa using hright)
        | cons second others =>
            rw [List.cons_append, List.cons.injEq] at hrest
            obtain ⟨rfl, hnil⟩ := hrest
            obtain rfl : others = [] := (List.append_eq_nil_iff.mp hnil.symm).1
            exact .inr (hleft.trans List.filter_sublist)
  · rintro ⟨hne, htarget⟩
    have hkeys : source ∈ keys := hsource.resolve_right hne
    by_cases hkey : target = key
    · subst hkey
      have hfirst : [source].Sublist (keys.filter (· != target)) :=
        List.singleton_sublist.mpr (List.mem_filter.mpr ⟨hkeys, by simpa using hne⟩)
      exact hfirst.append (.refl [target])
    · have hpair := (htarget.resolve_left hkey).filter (· != key)
      rw [List.filter_cons_of_pos (by simpa using hne),
        List.filter_cons_of_pos (by simpa using hkey), List.filter_nil] at hpair
      exact hpair.trans (List.sublist_append_left _ _)

/-- The keys stand in the order of the last references to them, as far as there are references. -/
def Ordered (references keys : List String) : Prop :=
  ∀ source ∈ keys, ∀ target ∈ keys, target ∈ references →
    ([source, target].Sublist keys ↔ Follows references source target)

namespace Ordered

variable {references keys : List String} {key : String}

/-- A reference that takes its key to the end keeps the order. -/
theorem touch (h : Ordered references keys) :
    Ordered (references ++ [key]) (keys.filter (· != key) ++ [key]) := by
  have hkeys : ∀ other ∈ keys.filter (· != key) ++ [key], other ∈ keys ∨ other = key := by
    intro other hother
    rcases List.mem_append.mp hother with hother | hother
    · exact .inl (List.mem_of_mem_filter hother)
    · exact .inr (List.mem_singleton.mp hother)
  intro source hsource target htarget hreferred
  rw [pair_sublist_touch (hkeys source hsource), follows_append]
  refine and_congr_right fun hne => ?_
  by_cases heq : target = key
  · simp [heq]
  · have hold : target ∈ references := by simpa [heq] using hreferred
    rw [h source ((hkeys source hsource).resolve_right hne) target
      ((hkeys target htarget).resolve_right heq) hold]

/-- A reference to a key that is not tracked keeps the order. -/
theorem miss (h : Ordered references keys) (hkey : key ∉ keys) :
    Ordered (references ++ [key]) keys := by
  intro source hsource target htarget hreferred
  have hne : source ≠ key := by
    rintro rfl
    exact hkey hsource
  have hne' : target ≠ key := by
    rintro rfl
    exact hkey htarget
  have hold : target ∈ references := by simpa [hne'] using hreferred
  rw [follows_append, h source hsource target htarget hold]
  simp [hne, hne']

/-- Following a resolution keeps the order. -/
theorem takeIn {files : FileView} {separator : String} {sources : Sources} {resolution : Resolution}
    (h : Ordered references sources.keys) :
    Ordered (references ++ resolution.key?.toList)
      (sources.takeIn files separator resolution).keys := by
  have hcases := Sources.takeIn_cases files separator sources resolution
  cases hkey : resolution.key? with
  | none =>
      rw [Option.toList_none, List.append_nil]
      rcases hcases with heq | ⟨key, -, hkey', -⟩ | ⟨script, hloaded, -⟩
      · rwa [heq]
      · cases hkey.symm.trans hkey'
      · cases hkey.symm.trans hloaded.key
  | some key =>
      rw [Option.toList_some]
      by_cases htracked : key ∈ sources.keys
      · rw [Sources.takeIn_of_mem hkey htracked, Sources.keys_moveToEnd htracked,
          sources.keys_nodup.erase_eq_filter]
        exact h.touch
      · -- a new key is put at the end, or there is nothing to be loaded under it
        rcases hcases with heq | ⟨other, hother, hkey', -⟩ | ⟨script, hloaded, -, hnew, heq⟩
        · rw [heq]
          exact h.miss htracked
        · obtain rfl : key = other := Option.some.inj (hkey.symm.trans hkey')
          exact absurd hother htracked
        · obtain rfl : key = script.key := Option.some.inj (hkey.symm.trans hloaded.key)
          have hself : sources.keys.filter (· != script.key) = sources.keys :=
            List.filter_eq_self.mpr fun other hother =>
              bne_iff_ne.mpr (ne_of_mem_of_not_mem hother hnew)
          rw [heq, Sources.keys_enqueue hnew, ← hself]
          exact h.touch

/-- Following resolutions keeps the order. -/
theorem takeAll {files : FileView} {separator : String} {sources : Sources}
    (h : Ordered references sources.keys) (resolutions : List Resolution) :
    Ordered (references ++ resolutions.filterMap (·.key?))
      (Sources.takeAll files separator resolutions sources).keys := by
  induction resolutions generalizing references sources with
  | nil =>
      rw [List.filterMap_nil, List.append_nil]
      exact h
  | cons resolution rest ih =>
      have hsplit : (resolution :: rest).filterMap (·.key?) =
          resolution.key?.toList ++ rest.filterMap (·.key?) := by
        cases hkey : resolution.key? <;> simp [hkey]
      rw [hsplit, ← List.append_assoc]
      exact ih h.takeIn

end Ordered

/-! ## References during a run -/

/-- The keys that the directives in the file under a path resolve to, in the order of the
directives. A pattern passes the own key over. -/
def Includer.includedKeys (includer : Includer) (store : MemoryFiles) (cwd path : Path)
    (own : String) : List String :=
  match store.get? path with
  | none => []
  | some file =>
    ((Text.splitLines file.content).flatMap
      (includer.targets store.view (.pathKey cwd) path.folder own)).filterMap (·.key?)

/-- The keys of what a script includes are those of what its lines are made to follow. -/
theorem Includer.includedKeys_eq {includer : Includer} {store : MemoryFiles} {cwd : Path}
    {script : Script} (h : store.view.readLines script.path = .ok script.rawLines) :
    includer.includedKeys store cwd script.path script.key =
      (includer.allTargets store.view (.pathKey cwd) script script.rawLines).filterMap
        (·.key?) := by
  obtain ⟨file, hget, hlines⟩ := MemoryFiles.readLines_view.mp h
  rw [includedKeys, hget, allTargets, hlines, script.directory_eq]

/-- A script that is put out has a directive that resolves to another one. -/
def Output.Includes (output : Output) (includer : Includer) (store : MemoryFiles) (cwd : Path)
    (source target : String) : Prop :=
  target ∈ output.order ∧ ∃ emitted ∈ output.scripts, emitted.key = source ∧
    target ∈ includer.includedKeys store cwd emitted.path emitted.key

/-- Each script stands behind the scripts that include it. -/
def Output.Topological (output : Output) (includer : Includer) (store : MemoryFiles) (cwd : Path) :
    Prop :=
  ∀ source target, output.Includes includer store cwd source target →
    [source, target].Sublist output.order

/-- A phase without plugins leaves the sources alone. -/
theorem Builtin.finishSources_eq_self {plugins : List Builtin} {files : FileView}
    (h : active plugins .onFinishUp = []) (loaded : LinesByKey) (scripts : List Script)
    (sources : Sources) : finishSources plugins files loaded scripts sources = sources := by
  induction scripts with
  | nil => rfl
  | cons script rest ih =>
      rw [finishSources, List.foldl_cons, phaseSources, h]
      exact ih

namespace Run.Course

open Builtin

variable {store : MemoryFiles} {job : Job} {plugins : List Builtin} {includer : Includer}
  {cwd : Path} {output : Output} {final : Session}
  (course : Course store.view job plugins (Session.start cwd) output final)

/-- The keys that are referred to during a run, from the first to the last. -/
def references (includer : Includer) : List String :=
  course.handed.flatMap fun script => includer.includedKeys store cwd script.path script.key

/-- No script is referred to once it has been handed to the first phase. -/
def NoneRepeated (includer : Includer) : Prop :=
  ∀ front script back, course.handed = front ++ script :: back →
    ∀ later ∈ script :: back, script.key ∉ includer.includedKeys store cwd later.path later.key

variable (hscheme : job.schemeFrom cwd = .pathKey cwd)
  (hconfigured : plugins.mapM (setUp job.settings) = .ok [.inl includer])
  (hphase : includer.phase = .onLoad)

include hconfigured hphase in
/-- The includer alone in the first phase leaves the second one nothing to reorder. -/
theorem keys_final : final.sources.keys = course.ingested.session.sources.keys := by
  obtain ⟨-, hfinal⟩ := course.finished_eq hconfigured store.view_readable
  have hactive : active [.inl includer] .onFinishUp = [] := by
    rw [List.eq_nil_iff_forall_not_mem]
    intro plugin hplugin
    obtain ⟨hmem, hlate⟩ := mem_active.mp hplugin
    obtain rfl := List.mem_singleton.mp hmem
    exact absurd (hphase.symm.trans hlate) (by decide)
  rw [hfinal, finishSources_eq_self hactive]
  rfl

include hscheme hconfigured hphase in
/-- The output is in the order of the last references. -/
theorem ordered : Ordered (course.references includer) output.order := by
  have hactive : active [.inl includer] .onLoad = [.inl includer] :=
    active_onLoad_eq hphase (by simp)
  have hgrows := seed_grows course.seed_eq course.opened_eq
  have hreferences : course.references includer = course.handed.flatMap fun script =>
      (includer.allTargets store.view (.pathKey cwd) script script.rawLines).filterMap
        (·.key?) := by
    refine List.flatMap_congr fun script hscript => Includer.includedKeys_eq ?_
    exact course.readLines_eq hconfigured store.view_readable script hscript
  rw [course.order_eq, course.keys_final hconfigured hphase, hreferences]
  refine (course.ingested_induction hconfigured store.view_readable (motive := fun past sources _ =>
    sources.scheme = .pathKey cwd ∧ Ordered (past.flatMap fun script =>
      (includer.allTargets store.view (.pathKey cwd) script script.rawLines).filterMap (·.key?))
        sources.keys) ⟨hgrows.scheme.trans hscheme, ?_⟩ ?_).2
  · intro source _ target _ hreferred
    simp at hreferred
  · rintro past sources loaded script ⟨hsources, hordered⟩ -
    refine ⟨by rw [scheme_turnSources, hsources], ?_⟩
    rw [turnSources, Sources.keys_setStage, phaseSources_eq hactive, hsources, List.flatMap_append,
      List.flatMap_singleton]
    exact hordered.takeAll _

include hconfigured in
/-- What a script that is put out includes is referred to when the script is handed out. -/
theorem exists_handed {source target : String}
    (h : output.Includes includer store cwd source target) :
    ∃ script ∈ course.handed, script.key = source ∧
      target ∈ includer.includedKeys store cwd script.path script.key := by
  obtain ⟨-, emitted, hemitted, rfl, htarget⟩ := h
  rw [course.output_scripts] at hemitted
  obtain ⟨script, hscript, rfl⟩ := List.mem_map.mp hemitted
  have hhanded := (course.handed_perm hconfigured store.view_readable).mem_iff.mpr hscript
  exact ⟨script, hhanded, rfl, htarget⟩

include hscheme hconfigured hphase in
/-- A script stands in front of one that it includes exactly if each reference to the first is
followed by one to the second. -/
theorem sublist_order_iff {source target : String}
    (h : output.Includes includer store cwd source target) :
    [source, target].Sublist output.order ↔ Follows (course.references includer) source target := by
  obtain ⟨script, hscript, -, hreferred⟩ := course.exists_handed hconfigured h
  obtain ⟨htarget, emitted, hemitted, rfl, -⟩ := h
  have hsource : emitted.key ∈ output.order := List.mem_map_of_mem hemitted
  exact course.ordered hscheme hconfigured hphase _ hsource _ htarget
    (List.mem_flatMap.mpr ⟨script, hscript, hreferred⟩)

include hconfigured in
/-- If no script is referred to once it has been handed out, what it includes is referred to behind
it. -/
theorem NoneRepeated.follows
    {course : Course store.view job plugins (Session.start cwd) output final}
    (hnone : course.NoneRepeated includer) {source target : String}
    (h : output.Includes includer store cwd source target) :
    Follows (course.references includer) source target := by
  obtain ⟨script, hscript, rfl, htarget⟩ := course.exists_handed hconfigured h
  obtain ⟨past, rest, hhanded⟩ := List.append_of_mem hscript
  intro front back hsplit
  rw [references, hhanded, List.flatMap_append] at hsplit
  have hlater : script.key ∉ (script :: rest).flatMap fun later =>
      includer.includedKeys store cwd later.path later.key := by
    intro hmem
    obtain ⟨later, hlater, hkey⟩ := List.mem_flatMap.mp hmem
    exact hnone past script rest hhanded later hlater hkey
  -- a reference to the script lies in front of the references that the script makes
  rcases List.append_eq_append_iff.mp hsplit with ⟨inner, -, heq⟩ | ⟨inner, -, heq⟩
  · rw [heq] at hlater
    exact absurd (by simp) hlater
  · cases inner with
    | nil =>
        rw [List.nil_append] at heq
        rw [← heq] at hlater
        exact absurd List.mem_cons_self hlater
    | cons first others =>
        rw [List.cons_append, List.cons.injEq] at heq
        rw [heq.2, List.flatMap_cons]
        simp [htarget]

end Run.Course

/-- A run of the includer in the first phase puts each script behind the scripts that include it
exactly if each reference to a script is followed by references to what it includes. This is so if
no script is referred to once it has been handed out. -/
theorem run_topological_iff {store : MemoryFiles} {job : Job} {cwd : Path} {plugins : List Builtin}
    {includer : Includer} {limit : Nat} {output : Output} {final : Session}
    (hscheme : job.schemeFrom cwd = .pathKey cwd)
    (hconfigured : plugins.mapM (Builtin.setUp job.settings) = .ok [.inl includer])
    (hphase : includer.phase = .onLoad)
    (hrun : job.run store.view plugins limit (Session.start cwd) = .ok (some output) final) :
    Nonempty (Course store.view job plugins (Session.start cwd) output final) ∧
      ∀ course : Course store.view job plugins (Session.start cwd) output final,
        (output.Topological includer store cwd ↔
          ∀ source target, output.Includes includer store cwd source target →
            Follows (course.references includer) source target) ∧
        (course.NoneRepeated includer → output.Topological includer store cwd) := by
  obtain ⟨course, -⟩ := Course.of_run hrun
  refine ⟨⟨course⟩, fun course => ?_⟩
  have hiff : output.Topological includer store cwd ↔
      ∀ source target, output.Includes includer store cwd source target →
        Follows (course.references includer) source target :=
    forall₃_congr fun source target hincludes =>
      course.sublist_order_iff hscheme hconfigured hphase hincludes
  refine ⟨hiff, fun hnone => hiff.mpr fun source target hincludes => ?_⟩
  exact hnone.follows hconfigured hincludes

/-- Three files, of which the first includes the second and the second the third. -/
def chainedFiles : MemoryFiles :=
  .ofList [(⟨"/m"⟩, "#include /a\n"), (⟨"/a"⟩, "#include /c\n"), (⟨"/c"⟩, "")]

def chainedOutput : Output :=
  ⟨[⟨"/m", ⟨"/m"⟩, []⟩, ⟨"/a", ⟨"/a"⟩, []⟩, ⟨"/c", ⟨"/c"⟩, []⟩]⟩

set_option maxRecDepth 10000 in
/-- The third file is an input too, so it has been handed out when it is included. -/
theorem run_topological_iff_chained :
    ∃ final, ∃ course : Course chainedFiles.view { inputs := ["/m", "/c"] } [(.inl {} : Builtin)]
        (Session.start ⟨"/"⟩) chainedOutput final,
      Follows (course.references {}) "/a" "/c" := by
  obtain ⟨final, hrun⟩ := exists_final
    (show output? (Job.run { inputs := ["/m", "/c"] } chainedFiles.view [(.inl {} : Builtin)] 9
      (Session.start ⟨"/"⟩)) = some chainedOutput by decide +kernel)
  obtain ⟨⟨course⟩, hall⟩ := run_topological_iff rfl rfl rfl hrun
  have hincluded : ∀ emitted ∈ chainedOutput.scripts,
      ∀ target ∈ Includer.includedKeys {} chainedFiles ⟨"/"⟩ emitted.path emitted.key,
        [emitted.key, target].Sublist chainedOutput.order := by decide +kernel
  have htopological : chainedOutput.Topological {} chainedFiles ⟨"/"⟩ := by
    rintro source target ⟨-, emitted, hemitted, rfl, htarget⟩
    exact hincluded emitted hemitted target htarget
  have hincludes : chainedOutput.Includes {} chainedFiles ⟨"/"⟩ "/a" "/c" :=
    ⟨by decide, ⟨"/a", ⟨"/a"⟩, []⟩, by decide, rfl, by decide +kernel⟩
  exact ⟨final, course, (hall course).1.mp htopological "/a" "/c" hincludes⟩

/-- A file that is an input and is included by another input, when what it includes has been taken
in. -/
def crossFiles : MemoryFiles :=
  .ofList [(⟨"/a"⟩, "#include /c\na\n"), (⟨"/b"⟩, "#include /a\nb\n"), (⟨"/c"⟩, "c\n")]

def crossOutput : Output :=
  ⟨[⟨"/b", ⟨"/b"⟩, ["b"]⟩, ⟨"/c", ⟨"/c"⟩, ["c"]⟩, ⟨"/a", ⟨"/a"⟩, ["a"]⟩]⟩

set_option maxRecDepth 10000 in
/-- Inclusion without cycles is not enough: a script that is included again is put behind what it
includes. -/
theorem acyclic_not_topological :
    (∃ final, Job.run { inputs := ["/a", "/b"] } crossFiles.view [(.inl {} : Builtin)] 9
        (Session.start ⟨"/"⟩) = .ok (some crossOutput) final) ∧
      (∀ key, ¬ Relation.TransGen (crossOutput.Includes {} crossFiles ⟨"/"⟩) key key) ∧
      ¬ crossOutput.Topological {} crossFiles ⟨"/"⟩ := by
  refine ⟨exists_final (by decide +kernel), fun key hcycle => ?_, fun htopological => ?_⟩
  · have hincluded : ∀ emitted ∈ crossOutput.scripts,
        ∀ target ∈ Includer.includedKeys {} crossFiles ⟨"/"⟩ emitted.path emitted.key,
          ["/b", "/a", "/c"].idxOf emitted.key < ["/b", "/a", "/c"].idxOf target := by
      decide +kernel
    -- along inclusion the place in the list grows, so no key leads back to itself
    have hgrows : ∀ target,
        Relation.TransGen (crossOutput.Includes {} crossFiles ⟨"/"⟩) key target →
          ["/b", "/a", "/c"].idxOf key < ["/b", "/a", "/c"].idxOf target := by
      intro target hreaches
      induction hreaches with
      | single h =>
          obtain ⟨-, emitted, hemitted, rfl, htarget⟩ := h
          exact hincluded emitted hemitted _ htarget
      | tail _ h ih =>
          obtain ⟨-, emitted, hemitted, rfl, htarget⟩ := h
          exact ih.trans (hincluded emitted hemitted _ htarget)
    exact lt_irrefl _ (hgrows key hcycle)
  · have hincludes : crossOutput.Includes {} crossFiles ⟨"/"⟩ "/a" "/c" :=
      ⟨by decide, ⟨"/a", ⟨"/a"⟩, ["a"]⟩, by decide, rfl, by decide +kernel⟩
    exact absurd (htopological "/a" "/c" hincludes) (by decide)

end SourceWeave
