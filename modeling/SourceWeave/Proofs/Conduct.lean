import SourceWeave.Plugin.Builtin
import SourceWeave.Proofs.Composition

/-!
# Plugins that keep to certain calls

A plugin works on the session by calls: it may look at the sources, make a script, put in a script
that it has made, move scripts, change how far they have come, take another scheme into use, and
take notes. `Call.Explains` says that such calls lead from one session to another, and a plugin
`KeepsToCalls` if calls explain whatever it does. No call turns the lock, and under the lock calls
only put the scripts into another order: `Call.locked_of_mem_sessions` and
`Call.Explains.perm_of_locked`. The built-in plugins keep to calls, `Builtin.keepsToCalls`.
-/

namespace SourceWeave

theorem Sources.scripts_moveToEnd_perm (sources : Sources) (key : String) :
    (sources.moveToEnd key).scripts.Perm sources.scripts :=
  (sources.entries_moveToEnd_perm key).map _

theorem Sources.mem_scripts_enqueue {sources : Sources} {script other : Script}
    (h : script ∈ sources.scripts) : script ∈ (sources.enqueue other).scripts := by
  by_cases hkey : other.key ∈ sources.keys
  · rw [enqueue_eq_self hkey]
    exact h
  · rw [scripts, entries_enqueue hkey, List.map_append]
    exact List.mem_append_left _ h

/-! ## Calls -/

/-- A call of a plugin to the session in which it works. -/
inductive Call where
  /-- To resolve a reference. -/
  | resolve (tokens : List String) (directory : Path)
  /-- To ask whether a key is tracked. -/
  | containsKey (key : String)
  /-- To ask how far the script with a key has come. -/
  | stageOf (key : String)
  /-- To make a script. -/
  | tryCreate (separator : String) (rawLines : List String) (resolution : Resolution)
  /-- To put a script behind the others. -/
  | enqueue (script : Script)
  /-- To move a script to the end. -/
  | moveToEnd (key : String)
  /-- To change how far a script has come. -/
  | setStage (key : String) (stage : Stage)
  /-- To take another scheme into use. -/
  | setScheme (scheme : Scheme)
  /-- To take notes. -/
  | addNotes (notes : List Note)

namespace Call

/-- The session behind a call. -/
def perform : Call → Session → Session
  | resolve _ _, session | containsKey _, session | stageOf _, session => session
  | tryCreate separator rawLines resolution, session =>
    (session.tryCreate? separator rawLines resolution).2
  | enqueue script, session => session.enqueue script
  | moveToEnd key, session => session.moveToEnd key
  | setStage key stage, session => session.setStage key stage
  | setScheme scheme, session => session.setScheme (some scheme)
  | addNotes notes, session => session.addNotes notes

/-- The script that a call makes, if it makes one. -/
def made : Call → Session → List Script
  | tryCreate separator rawLines resolution, session =>
    (session.tryCreate? separator rawLines resolution).1.toList
  | _, _ => []

/-- Only a script that was made before may be put in. -/
def Allowed (before : List Script) : Call → Prop
  | enqueue script => script ∈ before
  | _ => True

/-- The session behind calls, one after another. -/
def performAll : List Call → Session → Session
  | [], session => session
  | call :: rest, session => performAll rest (call.perform session)

/-- The sessions from that before the first call to that behind the last. -/
def sessions : List Call → Session → List Session
  | [], session => [session]
  | call :: rest, session => session :: sessions rest (call.perform session)

/-- Each call is allowed, where `before` and what the calls in front of it have made may be put
in. -/
def AllAllowed (before : List Script) : List Call → Session → Prop
  | [], _ => True
  | call :: rest, session =>
    call.Allowed before ∧ AllAllowed (before ++ call.made session) rest (call.perform session)

/-- The calls lead from a session to another, and put in no script but those that they make. -/
structure Explains (calls : List Call) (start finish : Session) : Prop where
  allowed : AllAllowed [] calls start
  performAll_eq : performAll calls start = finish

/-- Some calls lead from a session to another. -/
def Explained (start finish : Session) : Prop :=
  ∃ calls, Explains calls start finish

/-! ## What calls leave alone -/

@[simp]
theorem locked_perform (call : Call) (session : Session) :
    (call.perform session).sources.locked = session.sources.locked := by
  cases call with
  | tryCreate separator rawLines resolution =>
      obtain ⟨after, heq, hafter⟩ := session.tryCreate?_eq separator rawLines resolution
      rw [perform, heq, hafter]
  | setScheme scheme => rfl
  | _ => simp [perform]

/-- No call turns the lock. -/
theorem locked_of_mem_sessions {calls : List Call} {start session : Session}
    (h : session ∈ sessions calls start) : session.sources.locked = start.sources.locked := by
  induction calls generalizing start with
  | nil => rw [List.mem_singleton.mp h]
  | cons call rest ih =>
      rcases List.mem_cons.mp h with rfl | h
      · rfl
      · rw [ih h, locked_perform]

/-- Under the lock no script is made. -/
theorem made_of_locked {session : Session} (hlocked : session.sources.locked = true) (call : Call) :
    call.made session = [] := by
  cases call with
  | tryCreate separator rawLines resolution =>
      simp [made, Session.tryCreate?, Sources.tryCreate?, hlocked]
  | _ => rfl

/-- A call that puts nothing in leaves the scripts, up to their order. -/
theorem perm_perform {call : Call} (h : call.Allowed []) (session : Session) :
    (call.perform session).sources.scripts.Perm session.sources.scripts := by
  cases call with
  | tryCreate separator rawLines resolution =>
      obtain ⟨after, heq, hafter⟩ := session.tryCreate?_eq separator rawLines resolution
      rw [perform, heq, hafter]
  | enqueue script => exact absurd h (by simp [Allowed])
  | moveToEnd key =>
      rw [perform, Session.sources_moveToEnd]
      exact session.sources.scripts_moveToEnd_perm key
  | setStage key stage => rw [perform, Session.sources_setStage, Sources.scripts_setStage]
  | _ => exact .refl _

/-- Under the lock allowed calls leave the scripts, up to their order. -/
theorem perm_of_mem_sessions {calls : List Call} {start session : Session}
    (hallowed : AllAllowed [] calls start) (hlocked : start.sources.locked = true)
    (h : session ∈ sessions calls start) :
    session.sources.scripts.Perm start.sources.scripts := by
  induction calls generalizing start with
  | nil => rw [List.mem_singleton.mp h]
  | cons call rest ih =>
      rcases List.mem_cons.mp h with rfl | h
      · exact .refl _
      · -- nothing was made that could be put in later
        obtain ⟨hcall, hrest⟩ := hallowed
        rw [made_of_locked hlocked, List.append_nil] at hrest
        exact (ih hrest (by rw [locked_perform, hlocked]) h).trans (perm_perform hcall start)

/-- No call drops a script. -/
theorem mem_scripts_perform (call : Call) {session : Session} {script : Script}
    (h : script ∈ session.sources.scripts) : script ∈ (call.perform session).sources.scripts := by
  by_cases hcall : call.Allowed []
  · exact (perm_perform hcall session).mem_iff.mpr h
  · cases call with
    | enqueue other =>
        rw [perform, Session.sources_enqueue]
        exact Sources.mem_scripts_enqueue h
    | _ => exact absurd trivial hcall

/-- What is tracked at some time during calls is tracked behind them. -/
theorem mem_scripts_performAll {calls : List Call} {start session : Session} {script : Script}
    (h : session ∈ sessions calls start) (hscript : script ∈ session.sources.scripts) :
    script ∈ (performAll calls start).sources.scripts := by
  have hkept : ∀ (calls : List Call) (start : Session), script ∈ start.sources.scripts →
      script ∈ (performAll calls start).sources.scripts := by
    intro calls
    induction calls with
    | nil => exact fun start hstart => hstart
    | cons call rest ih => exact fun start hstart => ih _ (mem_scripts_perform call hstart)
  induction calls generalizing start with
  | nil =>
      rw [List.mem_singleton.mp h] at hscript
      exact hscript
  | cons call rest ih =>
      rcases List.mem_cons.mp h with rfl | h
      · exact hkept (call :: rest) session hscript
      · exact ih h

theorem mem_sessions_self (calls : List Call) (start : Session) : start ∈ sessions calls start := by
  cases calls <;> exact List.mem_cons_self

theorem performAll_mem_sessions (calls : List Call) (start : Session) :
    performAll calls start ∈ sessions calls start := by
  induction calls generalizing start with
  | nil => exact List.mem_singleton.mpr rfl
  | cons call rest ih => exact List.mem_cons_of_mem _ (ih _)

/-! ## Calls one after another -/

theorem performAll_append (first second : List Call) (start : Session) :
    performAll (first ++ second) start = performAll second (performAll first start) := by
  induction first generalizing start with
  | nil => rfl
  | cons call rest ih => exact ih _

theorem Allowed.mono {call : Call} {before more : List Script} (h : call.Allowed before)
    (hsub : before ⊆ more) : call.Allowed more := by
  cases call with
  | enqueue script => exact hsub h
  | _ => trivial

/-- Calls stay allowed if more was made before them. -/
theorem AllAllowed.mono {calls : List Call} {before more : List Script} {start : Session}
    (h : AllAllowed before calls start) (hsub : before ⊆ more) : AllAllowed more calls start := by
  induction calls generalizing before more start with
  | nil => trivial
  | cons call rest ih =>
      refine ⟨h.1.mono hsub, ih h.2 ?_⟩
      intro script hscript
      rcases List.mem_append.mp hscript with hscript | hscript
      · exact List.mem_append_left _ (hsub hscript)
      · exact List.mem_append_right _ hscript

theorem AllAllowed.append {first second : List Call} {before : List Script} {start : Session}
    (hfirst : AllAllowed before first start)
    (hsecond : AllAllowed before second (performAll first start)) :
    AllAllowed before (first ++ second) start := by
  induction first generalizing before start with
  | nil => exact hsecond
  | cons call rest ih =>
      exact ⟨hfirst.1, ih hfirst.2 (hsecond.mono (List.subset_append_left _ _))⟩

namespace Explained

variable {start middle finish : Session}

protected theorem refl (session : Session) : Explained session session :=
  ⟨[], trivial, rfl⟩

protected theorem trans (h : Explained start middle) (h' : Explained middle finish) :
    Explained start finish := by
  obtain ⟨first, hfirst, rfl⟩ := h
  obtain ⟨second, hsecond, rfl⟩ := h'
  exact ⟨first ++ second, hfirst.append hsecond, performAll_append first second start⟩

theorem perform (call : Call) (h : call.Allowed []) (session : Session) :
    Explained session (call.perform session) :=
  ⟨[call], ⟨h, trivial⟩, rfl⟩

theorem note (session : Session) (level : Level) (message : String)
    (fields : List (String × NoteValue)) : Explained session (session.note level message fields) :=
  perform (.addNotes [⟨level, message, fields⟩]) trivial session

theorem locked (h : Explained start finish) : finish.sources.locked = start.sources.locked := by
  obtain ⟨calls, -, rfl⟩ := h
  exact locked_of_mem_sessions (performAll_mem_sessions calls start)

theorem perm_of_locked (h : Explained start finish) (hlocked : start.sources.locked = true) :
    finish.sources.scripts.Perm start.sources.scripts := by
  obtain ⟨calls, hallowed, rfl⟩ := h
  exact perm_of_mem_sessions hallowed hlocked (performAll_mem_sessions calls start)

/-- Two computations one after the other are explained if each of them is. -/
theorem bind {α β : Type} {work : EStateM Error Session α} {next : α → EStateM Error Session β}
    (hwork : ∀ session, Explained session (stateOf (work session)))
    (hnext : ∀ a session, Explained session (stateOf (next a session))) (session : Session) :
    Explained session (stateOf ((work >>= next) session)) :=
  stateOf_bind (hwork session) fun a after hafter => hafter.trans (hnext a after)

end Explained

end Call

open Call

/-- Calls explain whatever the plugins of a type do to the session. -/
structure Plugin.KeepsToCalls (π : Type) [Plugin π] : Prop where
  configure : ∀ (settings : Settings) (definitions : Definitions) (plugin : π) (session : Session),
    Explained session (stateOf (Plugin.configure settings definitions plugin session))
  transformScript : ∀ (context : Context) (lines : List String) (plugin : π) (session : Session),
    Explained session (stateOf (Plugin.transformScript context lines (plugin, session))).2

/-- A step of a chain takes notes, or does to the session what a plugin does. -/
theorem Chain.session_runStep {π : Type} [Plugin π] (step : ChainStep) (context : Context)
    (lines : List String) (engine : Engine π) :
    (∃ notes, (stateOf (runStep step context lines engine)).session =
      engine.session.addNotes notes) ∨
    ∃ plugin : π, (stateOf (runStep step context lines engine)).session =
      (stateOf (Plugin.transformScript context lines (plugin, engine.session))).2 := by
  unfold runStep
  split
  · exact .inl ⟨[], rfl⟩
  · next plugin _ =>
    cases step.slot with
    | lineBefore => exact .inl ⟨_, rfl⟩
    | lineAfter => exact .inl ⟨_, rfl⟩
    | fullScript =>
        refine .inr ⟨plugin, ?_⟩
        simp only [runPlugin]
        cases Plugin.transformScript context lines (plugin, engine.session) <;> rfl

/-- A step of a chain is explained. -/
theorem Plugin.KeepsToCalls.runStep {π : Type} [Plugin π] (h : Plugin.KeepsToCalls π)
    (step : ChainStep) (context : Context) (lines : List String) (engine : Engine π) :
    Explained engine.session (stateOf (Chain.runStep step context lines engine)).session := by
  rcases Chain.session_runStep step context lines engine with ⟨notes, heq⟩ | ⟨plugin, heq⟩
  · rw [heq]
    exact .perform (.addNotes notes) trivial engine.session
  · rw [heq]
    exact h.transformScript context lines plugin engine.session

/-! ## Built-in plugins -/

theorem Plugin.stateOf_onPart {α β τ : Type} (wrap : α → β) (plugin : α) (session : Session)
    (work : EStateM Error (α × Session) τ) :
    (stateOf (Plugin.onPart wrap plugin session work)).2 =
      (stateOf (work (plugin, session))).2 := by
  unfold Plugin.onPart
  cases work (plugin, session) <;> rfl

/-- Plugins of either of two kinds keep to calls if both kinds do. -/
theorem Plugin.KeepsToCalls.sum {α β : Type} [Plugin α] [Plugin β] (hα : Plugin.KeepsToCalls α)
    (hβ : Plugin.KeepsToCalls β) : Plugin.KeepsToCalls (α ⊕ β) where
  configure settings definitions plugin session := by
    cases plugin with
    | inl plugin =>
        exact stateOf_bind (hα.configure settings definitions plugin session) fun _ _ h => h
    | inr plugin =>
        exact stateOf_bind (hβ.configure settings definitions plugin session) fun _ _ h => h
  transformScript context lines plugin session := by
    cases plugin with
    | inl plugin =>
        show Explained session
          (stateOf (Plugin.onPart Sum.inl plugin session (Plugin.transformScript context lines))).2
        rw [Plugin.stateOf_onPart]
        exact hα.transformScript context lines plugin session
    | inr plugin =>
        show Explained session
          (stateOf (Plugin.onPart Sum.inr plugin session (Plugin.transformScript context lines))).2
        rw [Plugin.stateOf_onPart]
        exact hβ.transformScript context lines plugin session

namespace Includer

variable (plugin : Includer) (context : Context)

theorem explained_includeTokens (tokens : List String) (session : Session) :
    Explained session (stateOf (plugin.includeTokens context tokens session)) := by
  unfold includeTokens
  dsimp only
  generalize session.sources.resolve tokens context.script.directory = resolution
  split
  · exact .note _ _ _ _
  · next key _ =>
    split
    · exact .perform (.moveToEnd key) trivial session
    · split
      · exact .refl session
      · split
        · exact .note _ _ _ _
        · split
          · exact .refl session
          · next lines _ =>
            split
            · next created after hcreate =>
              -- what is put in was just made
              refine ⟨[.tryCreate plugin.separator lines resolution, .enqueue created],
                ⟨trivial, ?_, trivial⟩, ?_⟩
              · simp [Call.made, hcreate, Call.Allowed]
              · simp [Call.performAll, Call.perform, hcreate, stateOf]
            · next after hcreate =>
              refine ⟨[.tryCreate plugin.separator lines resolution], ⟨trivial, trivial⟩, ?_⟩
              simp [Call.performAll, Call.perform, hcreate, stateOf]

theorem explained_includeMatch (others : List String) (path : Path) (session : Session) :
    Explained session (stateOf (plugin.includeMatch context others path session)) := by
  unfold includeMatch
  dsimp only
  split
  · exact .refl session
  · exact plugin.explained_includeTokens context _ session

theorem explained_includePattern (reference first : String) (others : List String)
    (session : Session) :
    Explained session (stateOf (plugin.includePattern context reference first others session)) := by
  have hmatches : ∀ (paths : List Path) (session : Session), Explained session
      (stateOf (paths.forM (plugin.includeMatch context others) session)) := by
    intro paths
    induction paths with
    | nil => exact .refl
    | cons path rest ih =>
        rw [show (path :: rest).forM (plugin.includeMatch context others) =
          (plugin.includeMatch context others path >>= fun _ =>
            rest.forM (plugin.includeMatch context others)) from List.forM_cons]
        exact .bind (plugin.explained_includeMatch context others path) fun _ => ih
  unfold includePattern
  split
  · exact .refl session
  · dsimp only
    split
    · split
      · exact .note _ _ _ _
      · next directory _ _ _ _ paths _ =>
        refine Explained.trans
          (.perform (.addNotes (context.files.listNotes directory)) trivial session) ?_
        split
        · exact .note _ _ _ _
        · exact hmatches paths _
    · exact .note _ _ _ _

theorem explained_follow (reference : String) (session : Session) :
    Explained session (stateOf (plugin.follow context reference session)) := by
  unfold follow
  split
  · exact .note _ _ _ _
  · split
    · exact plugin.explained_includePattern context reference _ _ session
    · exact plugin.explained_includeTokens context _ session

theorem explained_transform (lines : List String) (session : Session) :
    Explained session (stateOf (plugin.transform context lines session)) := by
  induction lines generalizing session with
  | nil => exact .refl session
  | cons line rest ih =>
      rw [transform]
      cases plugin.directive? line with
      | none =>
          refine Explained.bind ih (fun others session => ?_) session
          exact .refl session
      | some reference =>
          refine Explained.bind (plugin.explained_follow context reference) (fun _ => ?_) session
          refine Explained.bind ih fun others session => ?_
          exact .refl session

theorem keepsToCalls : Plugin.KeepsToCalls Includer where
  configure settings definitions plugin session := by
    simp only [Plugin.configure]
    split <;> exact .refl session
  transformScript context lines plugin session := by
    have h := plugin.explained_transform context lines session
    simp only [Plugin.transformScript]
    cases hrun : plugin.transform context lines session <;> rw [hrun] at h <;> exact h

end Includer

theorem BlankLineRemover.keepsToCalls : Plugin.KeepsToCalls BlankLineRemover where
  configure settings definitions plugin session := by
    simp only [Plugin.configure]
    split <;> exact .refl session
  transformScript context lines plugin session := .refl session

/-- The built-in plugins keep to calls. -/
theorem Builtin.keepsToCalls : Plugin.KeepsToCalls Builtin :=
  Includer.keepsToCalls.sum BlankLineRemover.keepsToCalls

end SourceWeave
