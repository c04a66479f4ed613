import SourceWeave.Files.Memory
import SourceWeave.Proofs.Course

/-!
# What each script of the output carries

While a run goes on, plugins may do to the sources what they like: put scripts in, move them, and
have them processed again or not at all. `Run.Loads` and `Run.Finishes` list the passes of scripts
through the two phases, with the lines that came out of each. The main statement is
`run_emits_own_lines`: the second phase goes once over the scripts that the first one left, each
with the lines of its latest pass through the first, and each script of the output carries what came
out of its own pass. It holds of any plugins.
-/

namespace SourceWeave

namespace Run

/-- A pass of a script through a phase, with the lines that came out. -/
structure Pass where
  /-- The script. -/
  script : Script
  /-- The lines that came out. -/
  lines : List String

/-- The lines that came out of the latest pass of a key, if there was one. -/
def latest? (passes : List Pass) (key : String) : Option (List String) :=
  (passes.reverse.find? (·.script.key == key)).map (·.lines)

/-- The lines that came out of the latest pass of a key, and none if there was no pass. -/
def latest (passes : List Pass) (key : String) : List String :=
  (latest? passes key).getD []

variable {π : Type} [Plugin π] {files : FileView} {job : Job}

/-- The passes through the first phase, one after another: each is that of the script which comes
next, and behind the last of them none waits. -/
inductive Loads (files : FileView) (job : Job) : Engine π → List Pass → Engine π → Prop where
  | done {engine : Engine π} (hnone : engine.session.sources.nextReady? = none) :
      Loads files job engine [] engine
  | turn {engine after last : Engine π} {pass : Pass} {rest : List Pass}
      (hnext : engine.session.sources.nextReady? = some pass.script)
      (hprocess : processScript files job pass.script engine = .ok pass.lines after)
      (hrest : Loads files job after rest last) : Loads files job engine (pass :: rest) last

/-- The passes through the second phase, one after another: each begins with the lines that are
stored for its key. -/
inductive Finishes (files : FileView) (job : Job) (stored : String → List String) :
    Engine π → List Pass → Engine π → Prop where
  | done {engine : Engine π} : Finishes files job stored engine [] engine
  | turn {engine after last : Engine π} {pass : Pass} {rest : List Pass}
      (hphase : Chain.runPhase .onFinishUp ⟨pass.script, files, job.definitions⟩
        (stored pass.script.key) engine = .ok pass.lines after)
      (hrest : Finishes files job stored after rest last) :
      Finishes files job stored engine (pass :: rest) last

/-! ## The latest pass -/

theorem latest?_cons (pass : Pass) (rest : List Pass) (key : String) :
    latest? (pass :: rest) key =
      (latest? rest key).or (if pass.script.key = key then some pass.lines else none) := by
  simp only [latest?, List.reverse_cons, List.find?_append, Option.map_or]
  congr 1
  split
  · next heq => simp [heq]
  · next hne => simp [hne]

/-- There is a latest pass exactly for the keys of the passes. -/
theorem latest?_eq_none_iff {passes : List Pass} {key : String} :
    latest? passes key = none ↔ key ∉ passes.map (·.script.key) := by
  simp [latest?, List.find?_eq_none]

/-- The only pass of a key is the latest one. -/
theorem latest?_of_mem {passes : List Pass} (hnodup : (passes.map (·.script.key)).Nodup)
    {pass : Pass} (hpass : pass ∈ passes) : latest? passes pass.script.key = some pass.lines := by
  induction passes with
  | nil => simp at hpass
  | cons first rest ih =>
      rw [List.map_cons, List.nodup_cons] at hnodup
      rw [latest?_cons]
      rcases List.mem_cons.mp hpass with rfl | hrest
      · rw [latest?_eq_none_iff.mpr hnodup.1, if_pos rfl, Option.none_or]
      · rw [ih hnodup.2 hrest, Option.some_or]

/-- What is recorded behind a pass counts until there is a later pass of the key. -/
theorem latest?_cons_or (pass : Pass) (rest : List Pass) (recorded : LinesByKey) (key : String) :
    (latest? (pass :: rest) key).or recorded[key]? =
      (latest? rest key).or (recorded.insert pass.script.key pass.lines)[key]? := by
  rw [latest?_cons, Option.or_assoc, Std.TreeMap.getElem?_insert]
  congr 1
  simp only [Std.compare_eq_iff_eq]
  split <;> simp

/-! ## The two loops -/

/-- Each script that the first phase is handed has a pass, and for each key it is recorded what came
out of the latest one. -/
theorem Drains.exists_loads {engine last : Engine π} {loaded result : LinesByKey}
    {handed : List Script} (h : Drains files job engine loaded handed last result) :
    ∃ passes, Loads files job engine passes last ∧ passes.map (·.script) = handed ∧
      ∀ key : String, result[key]? = (latest? passes key).or loaded[key]? := by
  induction h with
  | done hnone => exact ⟨[], .done hnone, rfl, fun key => rfl⟩
  | @turn engine after last loaded result script lines handed hnext hprocess _ ih =>
      obtain ⟨rest, hrest, hscripts, hresult⟩ := ih
      refine ⟨⟨script, lines⟩ :: rest, .turn hnext hprocess hrest, by simp [hscripts],
        fun key => ?_⟩
      rw [hresult, latest?_cons_or]

/-- Only what is stored for the keys of the passes matters. -/
theorem Finishes.congr {stored stored' : String → List String} {engine last : Engine π}
    {passes : List Pass} (h : Finishes files job stored engine passes last)
    (hstored : ∀ pass ∈ passes, stored pass.script.key = stored' pass.script.key) :
    Finishes files job stored' engine passes last := by
  induction h with
  | done => exact .done
  | turn hphase _ ih =>
      rw [hstored _ List.mem_cons_self] at hphase
      exact .turn hphase (ih fun pass hpass => hstored pass (List.mem_cons_of_mem _ hpass))

/-- The second phase goes over the scripts it is given, whatever becomes of the sources meanwhile,
and records for each what came out of its pass. As their keys are distinct, no pass takes out the
lines of another. -/
theorem exists_finishes {loaded finished result : LinesByKey} {scripts : List Script}
    {engine last : Engine π} (hnodup : (scripts.map Script.key).Nodup)
    (h : finish files job loaded scripts finished engine = .ok result last) :
    ∃ passes, Finishes files job (fun key => loaded.getD key []) engine passes last ∧
      passes.map (·.script) = scripts ∧
        ∀ key : String, result[key]? = (latest? passes key).or finished[key]? := by
  induction scripts generalizing loaded finished engine with
  | nil =>
      cases h
      exact ⟨[], .done, rfl, fun key => rfl⟩
  | cons script rest ih =>
      rw [List.map_cons, List.nodup_cons] at hnodup
      cases hphase : Chain.runPhase .onFinishUp ⟨script, files, job.definitions⟩
          (loaded.getD script.key []) engine with
      | error e failed =>
          simp only [finish, bind, EStateM.bind, hphase] at h
          cases h
      | ok lines after =>
          rw [finish, bind_of_ok hphase] at h
          obtain ⟨passes, hpasses, rfl, hresult⟩ := ih hnodup.2 h
          have hothers : ∀ pass ∈ passes, (loaded.erase script.key).getD pass.script.key [] =
              loaded.getD pass.script.key [] := by
            intro pass hpass
            refine getD_erase_of_ne loaded fun heq => hnodup.1 ?_
            rw [heq, List.map_map]
            exact List.mem_map_of_mem hpass
          refine ⟨⟨script, lines⟩ :: passes, .turn hphase (hpasses.congr hothers), rfl,
            fun key => ?_⟩
          rw [hresult, latest?_cons_or]

namespace Course

variable {plugins : List π} {start final : Session} {output : Output}

/-- Each script of the output carries what came out of its own passes. -/
structure OwnLines (course : Course files job plugins start output final)
    (loads finishes : List Pass) : Prop where
  /-- These are the passes through the first phase, one for each script that it is handed. -/
  loads_run : Loads files job ⟨course.chain, course.seeded⟩ loads course.ingested
  handed_eq : loads.map (·.script) = course.handed
  /-- The second phase goes once over each script that is tracked behind the first, in their order
  at that moment. -/
  snapshot_eq : finishes.map (·.script) = course.ingested.session.sources.scripts
  /-- It begins with the lines of the latest pass of the key through the first phase. -/
  finishes_run : Finishes files job (latest loads)
    ⟨course.ingested.chain, course.ingested.session.setLock course.configured.sources.locked⟩
    finishes course.last
  /-- The run ends with the sources that the second phase leaves, and the output lists them. -/
  final_eq : final = course.last.session
  order_eq : output.order = final.sources.keys
  order_nodup : output.order.Nodup
  scripts_eq : output.scripts = final.sources.scripts.map fun script =>
    ⟨script.key, script.path, latest finishes script.key⟩
  /-- A script that the second phase went over carries what came out. -/
  lines_eq : ∀ emitted ∈ output.scripts, ∀ pass ∈ finishes, pass.script.key = emitted.key →
    emitted.lines = pass.lines
  /-- A script that was put in during the second phase carries no lines. -/
  lines_of_new : ∀ emitted ∈ output.scripts,
    emitted.key ∉ course.ingested.session.sources.keys → emitted.lines = []

/-- The lines of a run go the way of their keys. -/
theorem exists_ownLines (course : Course files job plugins start output final) :
    ∃ loads finishes, course.OwnLines loads finishes := by
  obtain ⟨loads, hloads, hhanded, hloaded⟩ := course.drains.exists_loads
  obtain ⟨finishes, hfinishes, hsnapshot, hfinished⟩ := exists_finishes
    (Sources.nodup_map_scripts _) course.finish_eq
  have hstored : (fun key => course.loaded.getD key []) = latest loads := by
    funext key
    rw [latest, Std.TreeMap.getD_eq_getD_getElem?, hloaded]
    simp
  have hlines : ∀ key, course.finished.getD key [] = latest finishes key := by
    intro key
    rw [latest, Std.TreeMap.getD_eq_getD_getElem?, hfinished]
    simp
  rw [hstored] at hfinishes
  have hkeys : finishes.map (·.script.key) = course.ingested.session.sources.keys := by
    rw [Sources.keys_eq_map_scripts, ← hsnapshot, List.map_map]
    rfl
  have hscripts : output.scripts = final.sources.scripts.map fun script =>
      ⟨script.key, script.path, latest finishes script.key⟩ := by
    rw [course.output_scripts]
    simp only [hlines]
  have hemitted : ∀ emitted ∈ output.scripts, emitted.lines = latest finishes emitted.key := by
    intro emitted hmem
    rw [hscripts] at hmem
    obtain ⟨script, -, rfl⟩ := List.mem_map.mp hmem
    rfl
  refine ⟨loads, finishes, hloads, hhanded, hsnapshot, hfinishes, course.final_eq, course.order_eq,
    ?_, hscripts, ?_, ?_⟩
  · rw [course.order_eq]
    exact Sources.keys_nodup _
  · intro emitted hmem pass hpass hkey
    have hnodup : (finishes.map (·.script.key)).Nodup := by
      rw [hkeys]
      exact Sources.keys_nodup _
    rw [hemitted emitted hmem, ← hkey, latest, latest?_of_mem hnodup hpass, Option.getD_some]
  · intro emitted hmem hnew
    rw [← hkeys] at hnew
    rw [hemitted emitted hmem, latest, latest?_eq_none_iff.mpr hnew, Option.getD_none]

end Course

end Run

open Run

/-- In a run that puts something out, the second phase goes once over the scripts that the first one
left, in their order at that moment and with the lines of their latest pass, and each script of the
output carries what came out of its own pass, whatever the plugins do to the sources. -/
theorem run_emits_own_lines {π : Type} [Plugin π] {files : FileView} {job : Job} {plugins : List π}
    {limit : Nat} {start final : Session} {output : Output}
    (hrun : job.run files plugins limit start = .ok (some output) final) :
    Nonempty (Course files job plugins start output final) ∧
      ∀ course : Course files job plugins start output final,
        ∃ loads finishes, course.OwnLines loads finishes := by
  obtain ⟨course, -⟩ := Course.of_run hrun
  exact ⟨⟨course⟩, fun course => course.exists_ownLines⟩

/-- A plugin that works against the order of a run, and counts its calls. In the first phase it
marks `/b` as done before its turn and has `/a` processed again; in the second it moves `/a` to the
end, puts `/d` in and has `/c` wait. -/
structure Meddler where
  /-- The phase in which it runs. -/
  phase : Phase
  /-- How often it has been called. -/
  count : Nat := 0

namespace Meddler

/-- What it does to the session when it is called for a script. -/
def meddle (plugin : Meddler) (script : Script) (session : Session) : Session :=
  match plugin.phase, plugin.count with
  | .onLoad, 0 => session.setStage "/b" .done
  | .onLoad, 1 => session.setStage "/a" .queued
  | .onFinishUp, 0 =>
    ((session.moveToEnd "/a").enqueue { script with key := "/d" }).setStage "/c" .queued
  | _, _ => session

instance : Plugin Meddler where
  name _ := "Meddler"
  kind _ := .fullScript
  descriptor plugin := ⟨["meddler"], .after, plugin.phase, ∅⟩
  options _ := []
  configure _ _ plugin := pure plugin
  transformLine line plugin := (line, plugin, [])
  transformScript context lines := fun (plugin, session) =>
    .ok (lines ++ [toString plugin.count])
      ({ plugin with count := plugin.count + 1 }, plugin.meddle context.script session)

end Meddler

/-- Two of them, one for each phase. -/
def meddlers : List Meddler := [⟨.onLoad, 0⟩, ⟨.onFinishUp, 0⟩]

/-- The first of them runs in the first phase and the other in the second. -/
theorem buildSteps_meddlers :
    Chain.buildSteps meddlers = [⟨.onLoad, .fullScript, 0⟩, ⟨.onFinishUp, .fullScript, 1⟩] :=
  List.mergeSort_of_pairwise (by decide)

/-- Three files, none of which includes another. -/
def threeFiles : MemoryFiles :=
  .ofList [(⟨"/a"⟩, "a"), (⟨"/b"⟩, "b"), (⟨"/c"⟩, "c")]

def threeInputs : Job := { inputs := ["/a", "/b", "/c"] }

def meddledOutput : Output :=
  ⟨[⟨"/b", ⟨"/b"⟩, ["1"]⟩, ⟨"/c", ⟨"/c"⟩, ["c", "1", "2"]⟩, ⟨"/a", ⟨"/a"⟩, ["a", "2", "0"]⟩,
    ⟨"/d", ⟨"/a"⟩, []⟩]⟩

set_option maxRecDepth 10000 in
theorem run_emits_own_lines_meddled :
    ∃ final, threeInputs.run threeFiles.view meddlers 9 (Session.start ⟨"/"⟩) =
        .ok (some meddledOutput) final ∧
      ∃ course : Course threeFiles.view threeInputs meddlers (Session.start ⟨"/"⟩) meddledOutput
          final, ∃ loads finishes, course.OwnLines loads finishes := by
  obtain ⟨final, hrun⟩ : ∃ final, threeInputs.run threeFiles.view meddlers 9 (Session.start ⟨"/"⟩) =
      .ok (some meddledOutput) final :=
    exists_final_of_steps rfl buildSteps_meddlers (by decide +kernel)
  obtain ⟨⟨course⟩, hall⟩ := run_emits_own_lines hrun
  exact ⟨final, hrun, course, hall course⟩

end SourceWeave
