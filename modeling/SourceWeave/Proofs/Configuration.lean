import SourceWeave.Chain
import SourceWeave.Plugin.Builtin
import SourceWeave.Proofs.Inclusion
import Mathlib.Data.List.Forall2

/-!
# Configured chains of built-in plugins

A built-in plugin is configured from the settings alone, `Builtin.setUp`, and so is a chain of them:
`configurePlugins_of_ok` and `configurePlugins_of_error`. All plugins of a chain start from the
defaults, so all its includers are the same includer once they are configured, and all its removers
the same remover: `Builtin.Configured`.
-/

namespace SourceWeave

/-- A list is gone through without failure exactly if no member fails. -/
theorem mapM_eq_ok_iff {α β : Type} {work : α → Except Error β} {as : List α} {bs : List β} :
    as.mapM work = .ok bs ↔ List.Forall₂ (fun a b => work a = .ok b) as bs := by
  induction as generalizing bs with
  | nil =>
      rw [List.mapM_nil, List.forall₂_nil_left_iff]
      exact ⟨fun h => (Except.ok.inj h).symm, fun h => h ▸ rfl⟩
  | cons a rest ih =>
      rw [List.mapM_cons, List.forall₂_cons_left_iff]
      cases hwork : work a with
      | error e =>
          constructor
          · intro h
            exact absurd h (by simp [bind, Except.bind])
          · rintro ⟨b, others, hb, -⟩
            exact absurd hb (by simp)
      | ok b =>
          cases hrest : rest.mapM work with
          | error e =>
              constructor
              · intro h
                exact absurd h (by simp [bind, Except.bind])
              · rintro ⟨first, others, -, hothers, -⟩
                rw [ih.mpr hothers] at hrest
                exact absurd hrest (by simp)
          | ok others =>
              simp only [bind, Except.bind, pure, Except.pure]
              constructor
              · intro h
                exact ⟨b, others, rfl, ih.mp hrest, (Except.ok.inj h).symm⟩
              · rintro ⟨first, more, hfirst, hmore, rfl⟩
                rw [Except.ok.inj hfirst, Except.ok.inj (hrest.symm.trans (ih.mpr hmore))]

/-- In related lists, each member of the second is related to a member of the first. -/
theorem exists_of_mem_right {α β : Type} {rel : α → β → Prop} {as : List α} {bs : List β}
    (h : List.Forall₂ rel as bs) {b : β} (hb : b ∈ bs) : ∃ a ∈ as, rel a b := by
  induction h with
  | nil => simp at hb
  | @cons a first rest others ha _ ih =>
      rcases List.mem_cons.mp hb with rfl | hb
      · exact ⟨a, by simp, ha⟩
      · obtain ⟨other, hother, hrel⟩ := ih hb
        exact ⟨other, by simp [hother], hrel⟩

/-- In related lists, each member of the first is related to a member of the second. -/
theorem exists_of_mem_left {α β : Type} {rel : α → β → Prop} {as : List α} {bs : List β}
    (h : List.Forall₂ rel as bs) {a : α} (ha : a ∈ as) : ∃ b ∈ bs, rel a b :=
  exists_of_mem_right h.flip ha

namespace Builtin

/-- The plugin with the settings applied to it. -/
def setUp (settings : Settings) : Builtin → Except Error Builtin
  | .inl includer => (Includer.optionTable.configure settings Includer.handles includer).map .inl
  | .inr remover =>
    (BlankLineRemover.optionTable.configure settings BlankLineRemover.handles remover).map .inr

/-- An includer that is set up is an includer with the settings applied. -/
theorem setUp_includer_eq_ok {settings : Settings} {includer : Includer} {ready : Builtin}
    (h : setUp settings (.inl includer) = .ok ready) :
    ∃ other, Includer.optionTable.configure settings Includer.handles includer = .ok other ∧
      ready = .inl other := by
  simp only [setUp] at h
  cases hconf : Includer.optionTable.configure settings Includer.handles includer with
  | error e => simp [hconf, Except.map] at h
  | ok other => exact ⟨other, rfl, by simpa [hconf, Except.map] using h.symm⟩

/-- A remover that is set up is a remover with the settings applied. -/
theorem setUp_remover_eq_ok {settings : Settings} {remover : BlankLineRemover} {ready : Builtin}
    (h : setUp settings (.inr remover) = .ok ready) :
    ∃ other, BlankLineRemover.optionTable.configure settings BlankLineRemover.handles remover =
        .ok other ∧ ready = .inr other := by
  simp only [setUp] at h
  cases hconf :
    BlankLineRemover.optionTable.configure settings BlankLineRemover.handles remover with
  | error e => simp [hconf, Except.map] at h
  | ok other => exact ⟨other, rfl, by simpa [hconf, Except.map] using h.symm⟩

/-- To configure a built-in plugin is to set it up; the session is left alone. -/
theorem configure_eq (settings : Settings) (definitions : Definitions) (plugin : Builtin)
    (session : Session) :
    Plugin.configure settings definitions plugin session =
      match setUp settings plugin with
      | .ok plugin => .ok plugin session
      | .error e => .error e session := by
  cases plugin with
  | inl includer =>
      simp only [Plugin.configure, setUp, Functor.map, EStateM.map]
      cases Includer.optionTable.configure settings Includer.handles includer <;> rfl
  | inr remover =>
      simp only [Plugin.configure, setUp, Functor.map, EStateM.map]
      cases BlankLineRemover.optionTable.configure settings BlankLineRemover.handles remover <;> rfl

/-- Plugins that can all be set up are configured, and the sources are left alone. -/
theorem configurePlugins_of_ok {settings : Settings} {plugins configured : List Builtin}
    (h : plugins.mapM (setUp settings) = .ok configured) (definitions : Definitions)
    (session : Session) :
    ∃ after, Chain.configurePlugins settings definitions plugins session = .ok configured after ∧
      after.sources = session.sources := by
  have hall := mapM_eq_ok_iff.mp h
  clear h
  induction hall generalizing session with
  | nil => exact ⟨session, rfl, rfl⟩
  | @cons plugin ready rest others hplugin _ ih =>
      have hfirst : Plugin.configure settings definitions plugin session = .ok ready session := by
        rw [configure_eq, hplugin]
      obtain ⟨after, hrest, hafter⟩ :=
        ih (session.note .debug "initialized plugin" [("plugin", .quoted (Plugin.name ready))])
      refine ⟨after, ?_, hafter⟩
      rw [Chain.configurePlugins, bind_of_ok hfirst]
      exact (bind_of_ok rfl).trans ((bind_of_ok hrest).trans rfl)

/-- If a plugin cannot be set up, the chain is not configured. -/
theorem configurePlugins_of_error {settings : Settings} {plugins : List Builtin} {e : Error}
    (h : plugins.mapM (setUp settings) = .error e) (definitions : Definitions) (session : Session) :
    ∃ after, Chain.configurePlugins settings definitions plugins session = .error e after := by
  induction plugins generalizing session with
  | nil => exact absurd h (by simp [pure, Except.pure])
  | cons plugin rest ih =>
      rw [List.mapM_cons] at h
      have hfirst := configure_eq settings definitions plugin session
      cases hplugin : setUp settings plugin with
      | error e' =>
          rw [hplugin] at h hfirst
          obtain rfl : e' = e := by simpa [bind, Except.bind] using h
          refine ⟨session, ?_⟩
          simp only [Chain.configurePlugins, bind, EStateM.bind, hfirst]
      | ok ready =>
          rw [hplugin] at h hfirst
          have hrest : rest.mapM (setUp settings) = .error e := by
            cases hmap : rest.mapM (setUp settings) with
            | error e' => simpa [hmap, bind, Except.bind] using h
            | ok others => simp [hmap, bind, Except.bind, pure, Except.pure] at h
          obtain ⟨after, hafter⟩ := ih hrest
            (session.note .debug "initialized plugin" [("plugin", .quoted (Plugin.name ready))])
          refine ⟨after, ?_⟩
          rw [Chain.configurePlugins, bind_of_ok hfirst]
          refine (bind_of_ok rfl).trans ?_
          simp only [bind, EStateM.bind, hafter]

/-- A chain that was configured consists of plugins that were set up. -/
theorem configure_eq_ok {settings : Settings} {definitions : Definitions} {plugins : List Builtin}
    {session after : Session} {chain : Chain Builtin}
    (h : Chain.configure settings definitions plugins session = .ok chain after) :
    ∃ configured, plugins.mapM (setUp settings) = .ok configured ∧
      chain = .ofConfigured configured ∧ after.sources = session.sources := by
  cases hmap : plugins.mapM (setUp settings) with
  | error e =>
      obtain ⟨failed, hfailed⟩ := configurePlugins_of_error hmap definitions session
      simp only [Chain.configure, bind, EStateM.bind, hfailed] at h
      exact absurd h (by simp)
  | ok configured =>
      obtain ⟨done, hdone, hsources⟩ := configurePlugins_of_ok hmap definitions session
      rw [Chain.configure, bind_of_ok hdone] at h
      cases h
      exact ⟨configured, rfl, rfl, hsources⟩

/-! ## Chains named by handles -/

/-- A plugin that a handle names has not been configured. -/
theorem eq_default_of_get {handle : String} {plugin : Builtin} (h : get handle = .ok plugin) :
    plugin = .inl {} ∨ plugin = .inr {} := by
  unfold get at h
  split at h
  · next found hfind =>
    obtain rfl := Except.ok.inj h
    simpa [all] using List.mem_of_find?_eq_some hfind
  · exact absurd h (by simp)

/-- The plugins of a chain that handles name have not been configured. -/
theorem eq_default_of_mem_chain {handles : List String} {plugins : List Builtin}
    (h : chain handles = .ok plugins) {plugin : Builtin} (hplugin : plugin ∈ plugins) :
    plugin = .inl {} ∨ plugin = .inr {} := by
  obtain ⟨handle, -, hget⟩ := exists_of_mem_right (mapM_eq_ok_iff.mp h) hplugin
  exact eq_default_of_get hget

/-- The plugins of a configured chain: every includer is the default one with the settings applied,
and so is every remover. -/
structure Configured (settings : Settings) (configured : List Builtin) : Prop where
  setUp_includer : ∀ includer, .inl includer ∈ configured →
    setUp settings (.inl {}) = .ok (.inl includer)
  setUp_remover : ∀ remover, .inr remover ∈ configured →
    setUp settings (.inr {}) = .ok (.inr remover)

namespace Configured

/-- A chain that handles name is configured to default plugins with the settings applied. -/
theorem of_chain {handles : List String} {plugins configured : List Builtin} {settings : Settings}
    (hchain : chain handles = .ok plugins) (h : plugins.mapM (setUp settings) = .ok configured) :
    Configured settings configured := by
  constructor
  · intro includer hincluder
    obtain ⟨plugin, hplugin, hready⟩ := exists_of_mem_right (mapM_eq_ok_iff.mp h) hincluder
    rcases eq_default_of_mem_chain hchain hplugin with rfl | rfl
    · exact hready
    · obtain ⟨other, -, heq⟩ := setUp_remover_eq_ok hready
      cases heq
  · intro remover hremover
    obtain ⟨plugin, hplugin, hready⟩ := exists_of_mem_right (mapM_eq_ok_iff.mp h) hremover
    rcases eq_default_of_mem_chain hchain hplugin with rfl | rfl
    · obtain ⟨other, -, heq⟩ := setUp_includer_eq_ok hready
      cases heq
    · exact hready

variable {settings : Settings} {configured : List Builtin}

/-- All includers of a configured chain are the same. -/
theorem includer_unique (h : Configured settings configured) {includer other : Includer}
    (hmem : .inl includer ∈ configured) (hother : .inl other ∈ configured) : includer = other := by
  have heq := (h.setUp_includer includer hmem).symm.trans (h.setUp_includer other hother)
  simpa using heq

/-- All removers of a configured chain are the same. -/
theorem remover_unique (h : Configured settings configured) {remover other : BlankLineRemover}
    (hmem : .inr remover ∈ configured) (hother : .inr other ∈ configured) : remover = other := by
  have heq := (h.setUp_remover remover hmem).symm.trans (h.setUp_remover other hother)
  simpa using heq

end Configured

end Builtin

end SourceWeave
