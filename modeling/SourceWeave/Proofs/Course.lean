import SourceWeave.Run
import SourceWeave.Proofs.Inclusion

/-!
# The course of a run

`Run.Drains` lists the scripts that the first phase is handed, one after another, until none waits.
It does not mention the limit: `drains_of_drain` and `drain_of_drains` say that a run whose limit is
larger than the number of scripts handed out gives the result, and that no other run gives one. A
`Course` is everything that happens between the start and the output of a run, and `Course.of_run`
and `Course.run_eq` tie it to `Job.run`. All of this holds of any plugins.
-/

namespace SourceWeave

namespace Run

variable {π : Type} [Plugin π] {files : FileView} {job : Job}

/-- What one turn of the first phase does. -/
theorem drain_succ (limit : Nat) (loaded : LinesByKey) (engine : Engine π) :
    drain files job (limit + 1) loaded engine =
      match engine.session.sources.nextReady? with
      | none => .ok (some loaded) engine
      | some script =>
        match processScript files job script engine with
        | .ok lines after => drain files job limit (loaded.insert script.key lines) after
        | .error e after => .error e after := by
  simp only [drain]
  show (match engine.session.sources.nextReady? with
    | none => pure (some loaded)
    | some script =>
      processScript files job script >>= fun lines =>
        drain files job limit (loaded.insert script.key lines) : EStateM _ _ _) engine = _
  cases engine.session.sources.nextReady? with
  | none => rfl
  | some script =>
      simp only [bind, EStateM.bind]
      cases processScript files job script engine <;> rfl

/-- The first phase is handed these scripts, one after another, until none waits. -/
inductive Drains (files : FileView) (job : Job) :
    Engine π → LinesByKey → List Script → Engine π → LinesByKey → Prop where
  | done {engine : Engine π} {loaded : LinesByKey}
      (hnone : engine.session.sources.nextReady? = none) :
      Drains files job engine loaded [] engine loaded
  | turn {engine after last : Engine π} {loaded result : LinesByKey} {script : Script}
      {lines : List String} {handed : List Script}
      (hnext : engine.session.sources.nextReady? = some script)
      (hprocess : processScript files job script engine = .ok lines after)
      (hrest : Drains files job after (loaded.insert script.key lines) handed last result) :
      Drains files job engine loaded (script :: handed) last result

/-- A first phase that comes to an end within its limit is handed fewer scripts than that. -/
theorem drains_of_drain {limit : Nat} {engine last : Engine π} {loaded result : LinesByKey}
    (h : drain files job limit loaded engine = .ok (some result) last) :
    ∃ handed, handed.length < limit ∧ Drains files job engine loaded handed last result := by
  induction limit generalizing engine loaded with
  | zero => exact absurd h (by simp [drain, pure, EStateM.pure])
  | succ limit ih =>
      rw [drain_succ] at h
      split at h
      · next hnone =>
        cases h
        exact ⟨[], Nat.succ_pos limit, .done hnone⟩
      · next script hnext =>
        split at h
        · next lines after hprocess =>
          obtain ⟨handed, hlength, hdrains⟩ := ih h
          exact ⟨script :: handed, Nat.succ_lt_succ hlength, .turn hnext hprocess hdrains⟩
        · cases h

/-- The first phase comes to its end within every limit that is larger than the number of scripts it
is handed. -/
theorem drain_of_drains {engine last : Engine π} {loaded result : LinesByKey}
    {handed : List Script} (h : Drains files job engine loaded handed last result) {limit : Nat}
    (hlimit : handed.length < limit) :
    drain files job limit loaded engine = .ok (some result) last := by
  induction h generalizing limit with
  | done hnone =>
      obtain ⟨limit, rfl⟩ : ∃ less, limit = less + 1 := ⟨limit - 1, by simp at hlimit; omega⟩
      rw [drain_succ, hnone]
  | turn hnext hprocess _ ih =>
      obtain ⟨limit, rfl⟩ : ∃ less, limit = less + 1 :=
        ⟨limit - 1, by rw [List.length_cons] at hlimit; omega⟩
      rw [drain_succ, hnext]
      simp only [hprocess]
      exact ih (Nat.lt_of_succ_lt_succ hlimit)

/-- Behind the first phase no script waits. -/
theorem Drains.nextReady?_eq_none {engine last : Engine π} {loaded result : LinesByKey}
    {handed : List Script} (h : Drains files job engine loaded handed last result) :
    last.session.sources.nextReady? = none := by
  induction h with
  | done hnone => exact hnone
  | turn _ _ _ ih => exact ih

/-- An input that is loaded is what the files hold for it, and the sources are left alone. -/
theorem loadInput_eq_ok {input : String} {session after : Session} {script : Script}
    (h : loadInput files job input session = .ok script after) :
    script.LoadedFrom files job.separator
        (session.sources.scheme.resolve [input] job.baseDirectory) ∧
      after.sources = session.sources := by
  unfold loadInput Sources.resolve at h
  generalize session.sources.scheme.resolve [input] job.baseDirectory = resolution at h ⊢
  simp only at h
  split at h
  · cases h
  · next path hpath =>
    split at h
    · cases h
    · next hfile =>
      split at h
      · cases h
      · next lines hlines =>
        obtain ⟨created, hcreate, hcreated⟩ := session.tryCreate?_eq job.separator lines resolution
        rw [hcreate] at h
        cases hscript : session.sources.tryCreate? job.separator lines resolution with
        | none =>
            rw [hscript] at h
            cases h
        | some other =>
            rw [hscript] at h
            cases h
            refine ⟨?_, hcreated⟩
            unfold Sources.tryCreate? at hscript
            split at hscript
            · cases hscript
            · obtain ⟨hkey, hpath', hraw, hres, hsep⟩ :=
                Script.ofResolution?_eq_some_iff.mp hscript
              obtain rfl := Option.some.inj (hpath.symm.trans hpath')
              exact ⟨hkey, hpath', by simpa using hfile, hraw ▸ hlines, hsep, hres⟩

/-- The inputs are loaded one after another and put behind each other. -/
theorem seed_eq_ok {inputs : List String} {session after : Session}
    (h : seed files job inputs session = .ok () after) :
    ∃ scripts : List Script,
      List.Forall₂ (fun input script => Script.LoadedFrom files job.separator
        (session.sources.scheme.resolve [input] job.baseDirectory) script) inputs scripts ∧
      after.sources = scripts.foldl Sources.enqueue session.sources := by
  induction inputs generalizing session with
  | nil =>
      cases h
      exact ⟨[], .nil, rfl⟩
  | cons input rest ih =>
      cases hload : loadInput files job input session with
      | error e failed =>
          simp only [seed, bind, EStateM.bind, hload] at h
          cases h
      | ok script middle =>
          obtain ⟨hscript, hmiddle⟩ := loadInput_eq_ok hload
          rw [seed, bind_of_ok hload] at h
          have hrest : seed files job rest (middle.enqueue script) = .ok () after := h
          obtain ⟨scripts, hscripts, hafter⟩ := ih hrest
          rw [Session.sources_enqueue, hmiddle, Sources.scheme_enqueue] at hscripts
          refine ⟨script :: scripts, .cons hscript hscripts, ?_⟩
          rw [hafter, Session.sources_enqueue, hmiddle, List.foldl_cons]

/-- A run whose plugins cannot be configured fails. -/
theorem run_of_configure_error {plugins : List π} {start failed : Session} {e : Error}
    (h : Chain.configure job.settings job.definitions plugins (start.setScheme job.scheme?) =
      .error e failed) (limit : Nat) :
    job.run files plugins limit start = .error e failed := by
  refine (bind_of_ok rfl).trans ?_
  simp only [bind, EStateM.bind, h]

/-- A run is what the configured chain makes of the inputs. -/
theorem run_of_configure {plugins : List π} {chain : Chain π} {start configured : Session}
    (h : Chain.configure job.settings job.definitions plugins (start.setScheme job.scheme?) =
      .ok chain configured) (limit : Nat) :
    job.run files plugins limit start = process files job limit chain configured :=
  (bind_of_ok rfl).trans (bind_of_ok h)

/-- The inputs, the first phase and the second phase follow each other. -/
theorem process_eq (limit : Nat) (chain : Chain π) (configured : Session) :
    process files job limit chain configured =
      match seed files job job.inputs (configured.setLock false) with
      | .error e failed => .error e (failed.setLock configured.sources.locked)
      | .ok _ seeded =>
        match drain files job limit {} ⟨chain, seeded⟩ with
        | .error e failed => .error e (failed.session.setLock configured.sources.locked)
        | .ok none stopped => .ok none (stopped.session.setLock configured.sources.locked)
        | .ok (some loaded) ingested =>
          match finish files job loaded ingested.session.sources.scripts {}
            ⟨ingested.chain, ingested.session.setLock configured.sources.locked⟩ with
          | .error e failed => .error e failed.session
          | .ok finished last =>
            .ok (some (emit last.session.sources finished)) last.session := by
  simp only [process, Session.whileIngesting, ingest]
  cases seed files job job.inputs (configured.setLock false) with
  | error e failed => rfl
  | ok _ seeded =>
      simp only
      cases drain files job limit {} ⟨chain, seeded⟩ with
      | error e failed => rfl
      | ok result ingested => cases result <;> rfl

/-- To take out the lines of a key leaves those of another. -/
theorem getD_erase_of_ne (lines : LinesByKey) {key other : String} (h : key ≠ other) :
    (lines.erase key).getD other [] = lines.getD other [] := by
  rw [Std.TreeMap.getD_erase, if_neg (by rwa [Std.compare_eq_iff_eq])]

/-- No lines are asked for twice, so each script of the output has the lines that are recorded for
it. -/
theorem scripts_emit (sources : Sources) (finished : LinesByKey) :
    (emit sources finished).scripts = sources.scripts.map fun script =>
      ⟨script.key, script.path, finished.getD script.key []⟩ := by
  have hnodup := sources.nodup_map_scripts
  unfold emit
  generalize sources.scripts = scripts at hnodup
  show emitScripts finished scripts = _
  induction scripts generalizing finished with
  | nil => rfl
  | cons script rest ih =>
      rw [List.map_cons, List.nodup_cons] at hnodup
      rw [emitScripts, List.map_cons, ih _ hnodup.2]
      congr 1
      refine List.map_congr_left fun other hother => ?_
      rw [getD_erase_of_ne]
      exact fun heq => hnodup.1 (heq ▸ List.mem_map_of_mem hother)

/-- All that happens in a run that puts something out. -/
structure Course (files : FileView) (job : Job) (plugins : List π) (start : Session)
    (output : Output) (final : Session) where
  /-- The configured chain. -/
  chain : Chain π
  /-- The session behind the configuration. -/
  configured : Session
  /-- The session behind the inputs. -/
  seeded : Session
  /-- The scripts that the first phase is handed, from the first to the last. -/
  handed : List Script
  /-- The engine behind the first phase. -/
  ingested : Engine π
  /-- The lines behind the first phase. -/
  loaded : LinesByKey
  /-- The engine behind the second phase. -/
  last : Engine π
  /-- The lines behind the second phase. -/
  finished : LinesByKey
  configure_eq : Chain.configure job.settings job.definitions plugins
    (start.setScheme job.scheme?) = .ok chain configured
  seed_eq : seed files job job.inputs (configured.setLock false) = .ok () seeded
  drains : Drains files job ⟨chain, seeded⟩ {} handed ingested loaded
  finish_eq : finish files job loaded ingested.session.sources.scripts {}
    ⟨ingested.chain, ingested.session.setLock configured.sources.locked⟩ = .ok finished last
  output_eq : output = emit last.session.sources finished
  final_eq : final = last.session

namespace Course

variable {plugins : List π} {start final : Session} {output : Output}

/-- A run that puts something out has a course. -/
theorem of_run {limit : Nat} (h : job.run files plugins limit start = .ok (some output) final) :
    ∃ course : Course files job plugins start output final, course.handed.length < limit := by
  cases hconfigure : Chain.configure job.settings job.definitions plugins
      (start.setScheme job.scheme?) with
  | error e failed =>
      rw [run_of_configure_error hconfigure] at h
      cases h
  | ok chain configured =>
      rw [run_of_configure hconfigure, process_eq] at h
      split at h
      · cases h
      · next seeded hseed =>
        split at h
        · cases h
        · cases h
        · next loaded ingested hdrain =>
          obtain ⟨handed, hlength, hdrains⟩ := drains_of_drain hdrain
          split at h
          · cases h
          · next finished last hfinish =>
            cases h
            exact ⟨⟨chain, configured, seeded, handed, ingested, loaded, last, finished, hconfigure,
              hseed, hdrains, hfinish, rfl, rfl⟩, hlength⟩

/-- A run with a course puts its output out, whatever its limit is, unless the limit is too low for
the scripts it is handed. -/
theorem run_eq (course : Course files job plugins start output final) {limit : Nat}
    (hlimit : course.handed.length < limit) :
    job.run files plugins limit start = .ok (some output) final := by
  rw [run_of_configure course.configure_eq, process_eq, course.seed_eq]
  simp only [drain_of_drains course.drains hlimit, course.finish_eq, course.output_eq,
    course.final_eq]

/-- The output holds the tracked scripts with the lines that are recorded for them. -/
theorem output_scripts (course : Course files job plugins start output final) :
    output.scripts = final.sources.scripts.map fun script =>
      ⟨script.key, script.path, course.finished.getD script.key []⟩ := by
  have houtput := course.output_eq
  rw [← course.final_eq] at houtput
  exact (congrArg Output.scripts houtput).trans (scripts_emit _ _)

/-- The output is in the order of the tracked keys. -/
theorem order_eq (course : Course files job plugins start output final) :
    output.order = final.sources.keys := by
  rw [Output.order, course.output_scripts, List.map_map, Sources.keys_eq_map_scripts]
  rfl

end Course

/-- What a run puts out. -/
def output? : EStateM.Result Error Session (Option Output) → Option Output
  | .ok output? _ => output?
  | .error _ _ => none

theorem exists_final {result : EStateM.Result Error Session (Option Output)} {output : Output}
    (h : output? result = some output) : ∃ final, result = .ok (some output) final := by
  cases result with
  | ok value final =>
      obtain rfl : value = some output := h
      exact ⟨final, rfl⟩
  | error e final => cases h

/-- What a run puts out is found by following a chain whose steps are given. -/
theorem exists_final_of_steps {plugins configured : List π} {steps : List ChainStep}
    {start opened : Session} {limit : Nat} {output : Output}
    (hconfigure : Chain.configure job.settings job.definitions plugins
      (start.setScheme job.scheme?) = .ok (.ofConfigured configured) opened)
    (hsteps : Chain.buildSteps configured = steps)
    (houtput : output? (process files job limit
      { Chain.ofConfigured configured with steps := steps } opened) = some output) :
    ∃ final, job.run files plugins limit start = .ok (some output) final := by
  subst hsteps
  rw [run_of_configure hconfigure]
  exact exists_final houtput

end Run

end SourceWeave
