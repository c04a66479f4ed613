import SourceWeave.Chain
import SourceWeave.Proofs.Inclusion
import Mathlib.Data.List.Basic
import Mathlib.Tactic.Tauto

/-!
# A phase as a composition of transforms

A chain keeps its transforms in one list, which is sorted by phase and slot when the chain is
configured. `Chain.composition` says what a phase comes to without this list: three times the
plugins are gone through in the order of the chain, first for the line transforms that stand in
front, then for the transforms of the whole script, then for the other line transforms, and then the
clean-up tokens of all plugins are dropped. The main statement is `runPhase_eq_composition`. It
holds of any plugins; what they offer is fixed when they are configured, while their states go on
changing.
-/

namespace SourceWeave

/-! ## Sorting -/

/-- Sorting keeps the order of members that are as good as each other. -/
theorem filter_mergeSort {α : Type} {le : α → α → Bool}
    (htrans : ∀ a b c, le a b = true → le b c = true → le a c = true)
    (htotal : ∀ a b, (le a b || le b a) = true) {p : α → Bool}
    (hp : ∀ a b, p a = true → p b = true → le a b = true) (as : List α) :
    (as.mergeSort le).filter p = as.filter p := by
  have hpairwise : (as.filter p).Pairwise fun a b => le a b = true :=
    List.pairwise_iff_forall_sublist.mpr fun {a b} hsub =>
      hp a b (List.mem_filter.mp (hsub.subset (by simp))).2
        (List.mem_filter.mp (hsub.subset (by simp))).2
  have hsublist : (as.filter p).Sublist ((as.mergeSort le).filter p) := by
    have h := (List.sublist_mergeSort htrans htotal hpairwise List.filter_sublist).filter p
    simpa only [List.filter_filter, Bool.and_self] using h
  have hlength := ((List.mergeSort_perm as le).filter p).length_eq
  exact (hsublist.eq_of_length hlength.symm).symm

/-- A list that is sorted by a rank below three consists of three parts. -/
theorem eq_filter_rank {α : Type} {rank : α → Nat} {as : List α}
    (hsorted : as.Pairwise fun a b => rank a ≤ rank b) (hrank : ∀ a ∈ as, rank a < 3) :
    as = as.filter (rank · == 0) ++ (as.filter (rank · == 1) ++ as.filter (rank · == 2)) := by
  induction as with
  | nil => rfl
  | cons a rest ih =>
      obtain ⟨hfirst, hrest⟩ := List.pairwise_cons.mp hsorted
      have hparts := ih hrest fun b hb => hrank b (by simp [hb])
      have hlt := hrank a (by simp)
      -- what is behind `a` has no part in front of that of `a`
      have hnone : ∀ n, n < rank a → rest.filter (rank · == n) = [] := by
        intro n hn
        rw [List.filter_eq_nil_iff]
        intro b hb heq
        have hle := hfirst b hb
        have hrankb : rank b = n := by simpa using heq
        omega
      obtain h | h | h : rank a = 0 ∨ rank a = 1 ∨ rank a = 2 := by omega
      · simpa [List.filter_cons, h] using hparts
      · rw [hnone 0 (by omega)] at hparts
        simpa [List.filter_cons, h, hnone 0 (by omega)] using hparts
      · rw [hnone 0 (by omega), hnone 1 (by omega)] at hparts
        simpa [List.filter_cons, h, hnone 0 (by omega), hnone 1 (by omega)] using hparts

namespace ChainStep

theorem precedes_iff {a b : ChainStep} :
    a.precedes b = true ↔
      a.phase.rank < b.phase.rank ∨ a.phase.rank = b.phase.rank ∧ a.slot.rank ≤ b.slot.rank := by
  simp [precedes]

theorem precedes_trans (a b c : ChainStep) (hab : a.precedes b = true) (hbc : b.precedes c = true) :
    a.precedes c = true := by
  rw [precedes_iff] at *
  omega

theorem precedes_total (a b : ChainStep) : (a.precedes b || b.precedes a) = true := by
  rw [Bool.or_eq_true, precedes_iff, precedes_iff]
  omega

end ChainStep

theorem Slot.rank_lt (slot : Slot) : slot.rank < 3 := by
  cases slot <;> decide

theorem Slot.rank_beq (slot other : Slot) : (slot.rank == other.rank) = (slot == other) := by
  cases slot <;> cases other <;> rfl

/-! ## Tokens -/

/-- A token is collected exactly if a descriptor has it. -/
theorem mem_collectTokens {descriptors : List Descriptor} {token : String} :
    token ∈ collectTokens descriptors ↔
      ∃ descriptor ∈ descriptors, token ∈ descriptor.cleanupTokens := by
  have hinner : ∀ (new : List String) (tokens : Std.TreeSet String),
      token ∈ new.foldl (·.insert ·) tokens ↔ token ∈ tokens ∨ token ∈ new := by
    intro new
    induction new with
    | nil => simp
    | cons first rest ih =>
        intro tokens
        rw [List.foldl_cons, ih, Std.TreeSet.mem_insert, Std.compare_eq_iff_eq, List.mem_cons,
          eq_comm]
        tauto
  have houter : ∀ tokens : Std.TreeSet String,
      token ∈ descriptors.foldl (fun tokens descriptor =>
        descriptor.cleanupTokens.toList.foldl (·.insert ·) tokens) tokens ↔
          token ∈ tokens ∨ ∃ descriptor ∈ descriptors, token ∈ descriptor.cleanupTokens := by
    induction descriptors with
    | nil => simp
    | cons first rest ih =>
        intro tokens
        rw [List.foldl_cons, ih, hinner, Std.TreeSet.mem_toList]
        simp only [List.mem_cons, exists_eq_or_imp]
        tauto
  rw [collectTokens, houter]
  simp

/-- The tokens of a chain are those of its plugins. -/
theorem contains_collectTokens {π : Type} [Plugin π] (plugins : List π) (line : String) :
    (collectTokens (plugins.map Plugin.descriptor)).contains line =
      plugins.any fun plugin => (Plugin.descriptor plugin).cleanupTokens.contains line := by
  rw [Bool.eq_iff_iff, Std.TreeSet.contains_iff_mem, mem_collectTokens, List.any_eq_true]
  constructor
  · rintro ⟨descriptor, hdescriptor, htoken⟩
    obtain ⟨plugin, hplugin, rfl⟩ := List.mem_map.mp hdescriptor
    exact ⟨plugin, hplugin, Std.TreeSet.contains_iff_mem.mpr htoken⟩
  · rintro ⟨plugin, hplugin, htoken⟩
    exact ⟨_, List.mem_map_of_mem hplugin, Std.TreeSet.contains_iff_mem.mp htoken⟩

/-! ## What computations leave -/

/-- The state that a computation leaves, seen in another way. -/
def mapState {σ τ α : Type} (see : σ → τ) : EStateM.Result Error σ α → EStateM.Result Error τ α
  | .ok a state => .ok a (see state)
  | .error e state => .error e (see state)

/-- The state that a computation leaves. -/
def stateOf {σ α : Type} : EStateM.Result Error σ α → σ
  | .ok _ state | .error _ state => state

@[simp]
theorem mapState_mapState {ρ σ τ α : Type} (see : σ → τ) (first : ρ → σ)
    (result : EStateM.Result Error ρ α) :
    mapState see (mapState first result) = mapState (fun state => see (first state)) result := by
  cases result <;> rfl

@[simp]
theorem stateOf_mapState {σ τ α : Type} (see : σ → τ) (result : EStateM.Result Error σ α) :
    stateOf (mapState see result) = see (stateOf result) := by
  cases result <;> rfl

theorem mapState_congr {σ τ α : Type} {see see' : σ → τ} {result : EStateM.Result Error σ α}
    (h : see (stateOf result) = see' (stateOf result)) :
    mapState see result = mapState see' result := by
  cases result with
  | ok a state => exact congrArg _ h
  | error e state => exact congrArg _ h

/-- Two computations that agree, one seen as the other, agree with what follows them. -/
theorem bind_mapState {σ τ α β : Type} {see : σ → τ} {work : EStateM Error σ α}
    {work' : EStateM Error τ α} {next : α → EStateM Error σ β} {next' : α → EStateM Error τ β}
    {state : σ} (hwork : work' (see state) = mapState see (work state))
    (hnext : ∀ a after, work state = .ok a after →
      next' a (see after) = mapState see (next a after)) :
    (work' >>= next') (see state) = mapState see ((work >>= next) state) := by
  cases hrun : work state with
  | ok a after =>
      rw [hrun] at hwork
      rw [bind_of_ok hwork, bind_of_ok hrun]
      exact hnext a after hrun
  | error e after =>
      rw [hrun] at hwork
      simp only [bind, EStateM.bind, hwork, hrun, mapState]

/-- A property that a computation establishes and what follows keeps holds behind both. -/
theorem stateOf_bind {σ α β : Type} {P : σ → Prop} {work : EStateM Error σ α}
    {next : α → EStateM Error σ β} {state : σ} (hwork : P (stateOf (work state)))
    (hnext : ∀ a after, P after → P (stateOf (next a after))) :
    P (stateOf ((work >>= next) state)) := by
  cases hrun : work state with
  | ok a after =>
      rw [hrun] at hwork
      rw [bind_of_ok hrun]
      exact hnext a after hwork
  | error e after =>
      rw [hrun] at hwork
      simp only [bind, EStateM.bind, hrun]
      exact hwork

/-! ## The composition -/

/-- A plugin of a chain at work: as it was when the chain was configured, and as it is now. -/
structure Member (π : Type) where
  /-- The plugin as it was configured. -/
  configured : π
  /-- The plugin as it is now. -/
  current : π

/-- A plugin that has not been at work. -/
def Member.fresh {π : Type} (plugin : π) : Member π := ⟨plugin, plugin⟩

/-- The members of a chain, and the session in which they work. -/
abbrev Crew (π : Type) := List (Member π) × Session

/-- Puts a member in front of a crew. -/
def Member.join {π : Type} (member : Member π) (crew : Crew π) : Crew π :=
  (member :: crew.1, crew.2)

section

variable {π : Type} [Plugin π]

/-- Tells whether a plugin has a transform in a slot of a phase. -/
def Plugin.worksIn (phase : Phase) (slot : Slot) (plugin : π) : Bool :=
  (Plugin.descriptor plugin).phase == phase &&
    match slot with
    | .lineBefore => (Plugin.kind plugin).hasLine && (Plugin.descriptor plugin).order == .before
    | .fullScript => (Plugin.kind plugin).hasFullScript
    | .lineAfter => (Plugin.kind plugin).hasLine && (Plugin.descriptor plugin).order == .after

/-- The line transform of a plugin, applied to every line. -/
def Plugin.transformEachLine (lines : List String) : EStateM Error (π × Session) (List String) :=
  fun (plugin, session) =>
    let (lines, plugin, notes) := Plugin.transformLines plugin lines
    .ok lines (plugin, session.addNotes notes)

namespace Chain

/-- Lets the members that take part transform the lines, one after another. If one of them fails,
those behind it do nothing. -/
def inTurn (takesPart : π → Bool)
    (transform : List String → EStateM Error (π × Session) (List String)) :
    List (Member π) → List String → Session → EStateM.Result Error (Crew π) (List String)
  | [], lines, session => .ok lines ([], session)
  | member :: rest, lines, session =>
    if takesPart member.configured then
      match transform lines (member.current, session) with
      | .error e (plugin, session) => .error e (⟨member.configured, plugin⟩ :: rest, session)
      | .ok lines (plugin, session) =>
        mapState (Member.join ⟨member.configured, plugin⟩)
          (inTurn takesPart transform rest lines session)
    else mapState member.join (inTurn takesPart transform rest lines session)

/-- The transforms of a group of plugins, in the order of the chain. -/
def group (takesPart : π → Bool)
    (transform : List String → EStateM Error (π × Session) (List String)) (lines : List String) :
    EStateM Error (Crew π) (List String) := fun (members, session) =>
  inTurn takesPart transform members lines session

/-- What a phase comes to: the line transforms in front, the transforms of the whole script, the
line transforms behind, and then no line that is a clean-up token of a plugin. -/
def composition (phase : Phase) (context : Context) (lines : List String) :
    EStateM Error (Crew π) (List String) := do
  let lines ← group (Plugin.worksIn phase .lineBefore) Plugin.transformEachLine lines
  let lines ← group (Plugin.worksIn phase .fullScript) (Plugin.transformScript context) lines
  let lines ← group (Plugin.worksIn phase .lineAfter) Plugin.transformEachLine lines
  let (members, _) ← get
  return lines.filter fun line => !members.any fun member =>
    (Plugin.descriptor member.configured).cleanupTokens.contains line

/-- The chain of some members. What it runs is fixed by the plugins as they were configured. -/
def ofMembers (members : List (Member π)) : Chain π :=
  { ofConfigured (members.map (·.configured)) with plugins := members.map (·.current) }

/-- A crew as a chain at work. -/
def ofCrew (crew : Crew π) : Engine π := ⟨ofMembers crew.1, crew.2⟩

/-! ## The steps of a phase -/

/-- The steps of plugins in one slot of a phase, where the first plugin has this position. -/
def slotSteps (phase : Phase) (slot : Slot) (plugins : List π) (position : Nat) : List ChainStep :=
  (plugins.zipIdx position).flatMap fun (plugin, position) =>
    if Plugin.worksIn phase slot plugin then [⟨phase, slot, position⟩] else []

/-- A plugin has a step in a slot of a phase exactly if it works there. -/
theorem filter_stepsOf (phase : Phase) (slot : Slot) (position : Nat) (plugin : π) :
    (stepsOf position plugin).filter (fun step => step.slot == slot && step.phase == phase) =
      if Plugin.worksIn phase slot plugin then [⟨phase, slot, position⟩] else [] := by
  unfold stepsOf Plugin.worksIn
  generalize Plugin.kind plugin = kind
  generalize Plugin.descriptor plugin = descriptor
  by_cases hphase : descriptor.phase = phase
  · subst hphase
    cases kind <;> cases horder : descriptor.order <;> cases slot <;>
      simp [horder, TransformKind.hasLine, TransformKind.hasFullScript, Slot.ofOrder]
  · cases kind <;> simp [hphase, TransformKind.hasLine, TransformKind.hasFullScript]

/-- The steps of a phase are those of its three slots, one slot after the other. -/
theorem filter_buildSteps (plugins : List π) (phase : Phase) :
    (buildSteps plugins).filter (·.phase == phase) =
      slotSteps phase .lineBefore plugins 0 ++
        (slotSteps phase .fullScript plugins 0 ++ slotSteps phase .lineAfter plugins 0) := by
  have hsorted := List.pairwise_mergeSort ChainStep.precedes_trans ChainStep.precedes_total
    (plugins.zipIdx.flatMap fun (plugin, position) => stepsOf position plugin)
  -- within a phase the steps are sorted by their slots
  have hslots : ((buildSteps plugins).filter (·.phase == phase)).Pairwise fun a b =>
      a.slot.rank ≤ b.slot.rank := by
    refine (hsorted.filter _).imp_of_mem fun {a b} ha hb hprecedes => ?_
    have hphase : a.phase = b.phase :=
      (of_decide_eq_true (List.mem_filter.mp ha).2).trans
        (of_decide_eq_true (List.mem_filter.mp hb).2).symm
    rw [ChainStep.precedes_iff, hphase] at hprecedes
    omega
  have hslot : ∀ slot : Slot, ((buildSteps plugins).filter (·.phase == phase)).filter
      (·.slot.rank == slot.rank) = slotSteps phase slot plugins 0 := by
    intro slot
    simp only [List.filter_filter, Slot.rank_beq]
    rw [buildSteps, filter_mergeSort ChainStep.precedes_trans ChainStep.precedes_total,
      List.filter_flatMap]
    · simp only [filter_stepsOf]
      rfl
    · intro a b ha hb
      simp only [Bool.and_eq_true, beq_iff_eq] at ha hb
      rw [ChainStep.precedes_iff, ha.1, ha.2, hb.1, hb.2]
      exact .inr ⟨rfl, Nat.le_refl _⟩
  rw [← hslot, ← hslot, ← hslot]
  exact eq_filter_rank hslots fun step _ => step.slot.rank_lt

/-! ## Steps and groups -/

/-- Two runs of steps, one behind the other. -/
theorem runSteps_append (context : Context) (first second : List ChainStep) (lines : List String) :
    (runSteps context (first ++ second) lines : EStateM Error (Engine π) (List String)) =
      runSteps context first lines >>= runSteps context second := by
  induction first generalizing lines with
  | nil => rfl
  | cons step rest ih =>
      rw [List.cons_append, runSteps, runSteps, bind_assoc]
      exact bind_congr ih

theorem slotSteps_cons (phase : Phase) (slot : Slot) (plugin : π) (rest : List π) (position : Nat) :
    slotSteps phase slot (plugin :: rest) position =
      (if Plugin.worksIn phase slot plugin then [⟨phase, slot, position⟩] else []) ++
        slotSteps phase slot rest (position + 1) := rfl

/-- A step lets its plugin work and puts it back into its place. -/
theorem runStep_append (phase : Phase) (slot : Slot) (context : Context) (lines : List String)
    (fixed : Chain π) (front : List π) (plugin : π) (behind : List π) (session : Session) :
    runStep ⟨phase, slot, front.length⟩ context lines
        ⟨{ fixed with plugins := front ++ plugin :: behind }, session⟩ =
      mapState (fun state => ⟨{ fixed with plugins := front ++ state.1 :: behind }, state.2⟩)
        (runPlugin slot context lines (plugin, session)) := by
  have hplugin : (front ++ plugin :: behind)[front.length]? = some plugin := by simp
  simp only [runStep, hplugin]
  cases runPlugin slot context lines (plugin, session) with
  | error e state => simp [putBack, mapState]
  | ok lines' state => simp [putBack, mapState]

/-- The steps of a slot are the transforms of the plugins that work in it, in turn. The plugins in
`front` have had their turn, and `fixed` has the parts of the chain that no step changes. -/
theorem runSteps_slotSteps (phase : Phase) (slot : Slot) (context : Context) (fixed : Chain π)
    (front : List π) (members : List (Member π)) (lines : List String) (session : Session) :
    runSteps context (slotSteps phase slot (members.map (·.configured)) front.length) lines
        ⟨{ fixed with plugins := front ++ members.map (·.current) }, session⟩ =
      mapState (fun crew => ⟨{ fixed with plugins := front ++ crew.1.map (·.current) }, crew.2⟩)
        (inTurn (Plugin.worksIn phase slot) (runPlugin slot context) members lines session) := by
  induction members generalizing front lines session with
  | nil => rfl
  | cons member rest ih =>
      -- the member in front joins those that have had their turn
      have hnext : ∀ (plugin : π) (lines : List String) (session : Session),
          runSteps context (slotSteps phase slot (rest.map (·.configured)) (front.length + 1)) lines
              ⟨{ fixed with plugins := front ++ plugin :: rest.map (·.current) }, session⟩ =
            mapState
              (fun crew => ⟨{ fixed with plugins := front ++ crew.1.map (·.current) }, crew.2⟩)
              (mapState (Member.join ⟨member.configured, plugin⟩)
                (inTurn (Plugin.worksIn phase slot) (runPlugin slot context) rest lines
                  session)) := by
        intro plugin lines session
        have hrest := ih (front ++ [plugin]) lines session
        simp only [List.length_append, List.length_singleton, List.append_assoc,
          List.singleton_append] at hrest
        rw [hrest, mapState_mapState]
        rfl
      rw [List.map_cons, List.map_cons, slotSteps_cons, inTurn]
      by_cases hworks : Plugin.worksIn phase slot member.configured = true
      · rw [if_pos hworks, if_pos hworks, List.singleton_append, runSteps]
        have hstep := runStep_append phase slot context lines fixed front member.current
          (rest.map (·.current)) session
        cases hrun : runPlugin slot context lines (member.current, session) with
        | error e state =>
            rw [hrun] at hstep
            simp only [bind, EStateM.bind, hstep, mapState]
            rfl
        | ok lines' state =>
            rw [hrun] at hstep
            rw [bind_of_ok hstep]
            exact hnext state.1 lines' state.2
      · rw [if_neg hworks, if_neg hworks, List.nil_append]
        exact hnext member.current lines session

omit [Plugin π] in
/-- What the plugins were when they were configured does not change while they work. -/
theorem configured_inTurn (takesPart : π → Bool)
    (transform : List String → EStateM Error (π × Session) (List String))
    (members : List (Member π)) (lines : List String) (session : Session) :
    (stateOf (inTurn takesPart transform members lines session)).1.map (·.configured) =
      members.map (·.configured) := by
  induction members generalizing lines session with
  | nil => rfl
  | cons member rest ih =>
      rw [inTurn]
      split
      · cases transform lines (member.current, session) with
        | error e state => rfl
        | ok lines' state =>
            simp only [stateOf_mapState, Member.join, List.map_cons, ih]
      · simp only [stateOf_mapState, Member.join, List.map_cons, ih]

/-- The steps of a slot are its group. -/
theorem runSteps_eq_group (phase : Phase) (slot : Slot) (context : Context) (crew : Crew π)
    (lines : List String) :
    runSteps context (slotSteps phase slot (crew.1.map (·.configured)) 0) lines (ofCrew crew) =
      mapState ofCrew (group (Plugin.worksIn phase slot) (runPlugin slot context) lines crew) := by
  have hsteps := runSteps_slotSteps phase slot context
    (ofConfigured (crew.1.map (·.configured))) [] crew.1 lines crew.2
  refine hsteps.trans (mapState_congr ?_)
  show Engine.mk { ofConfigured (crew.1.map (·.configured)) with plugins := _ } _ = ofCrew _
  rw [ofCrew, ofMembers, configured_inTurn]
  rfl

omit [Plugin π] in
theorem configured_group {takesPart : π → Bool}
    {transform : List String → EStateM Error (π × Session) (List String)} {lines out : List String}
    {crew after : Crew π} (h : group takesPart transform lines crew = .ok out after) :
    after.1.map (·.configured) = crew.1.map (·.configured) := by
  have hkept := configured_inTurn takesPart transform crew.1 lines crew.2
  rw [show inTurn takesPart transform crew.1 lines crew.2 = .ok out after from h] at hkept
  exact hkept

/-- A phase of a chain at work is its composition. -/
theorem runPhase_ofCrew (phase : Phase) (context : Context) (lines : List String) (crew : Crew π) :
    runPhase phase context lines (ofCrew crew) =
      mapState ofCrew (composition phase context lines crew) := by
  show (runSteps context ((buildSteps (crew.1.map (·.configured))).filter (·.phase == phase)) lines
    >>= fun lines => pure (dropTokens
      (collectTokens ((crew.1.map (·.configured)).map Plugin.descriptor)) lines)) (ofCrew crew) = _
  rw [filter_buildSteps, runSteps_append, bind_assoc]
  -- the groups follow one another, and each leaves what was configured as it was
  refine bind_mapState (runSteps_eq_group phase .lineBefore context crew lines)
    fun lines₁ crew₁ h₁ => ?_
  rw [runSteps_append, bind_assoc, ← configured_group h₁]
  refine bind_mapState (runSteps_eq_group phase .fullScript context crew₁ lines₁)
    fun lines₂ crew₂ h₂ => ?_
  rw [← configured_group h₂]
  refine bind_mapState (runSteps_eq_group phase .lineAfter context crew₂ lines₂)
    fun lines₃ crew₃ h₃ => ?_
  rw [← configured_group h₃]
  show EStateM.Result.ok (lines₃.filter _) (ofCrew crew₃) = .ok (lines₃.filter _) (ofCrew crew₃)
  congr 2
  funext line
  rw [contains_collectTokens, List.any_map]
  rfl

omit [Plugin π] in
theorem map_configured_fresh (plugins : List π) :
    (plugins.map Member.fresh).map (·.configured) = plugins := by
  rw [List.map_map]
  exact List.map_id plugins

/-- The composition leaves what the plugins were when they were configured. -/
theorem configured_composition (phase : Phase) (context : Context) (lines : List String)
    (crew : Crew π) :
    (stateOf (composition phase context lines crew)).1.map (·.configured) =
      crew.1.map (·.configured) := by
  let Kept : Crew π → Prop := fun after => after.1.map (·.configured) = crew.1.map (·.configured)
  have hgroup : ∀ (takesPart : π → Bool)
      (transform : List String → EStateM Error (π × Session) (List String)) (lines : List String)
      (after : Crew π), Kept after → Kept (stateOf (group takesPart transform lines after)) := by
    intro takesPart transform lines after hafter
    exact (configured_inTurn takesPart transform after.1 lines after.2).trans hafter
  refine stateOf_bind (P := Kept) (hgroup _ _ _ _ rfl) fun lines₁ crew₁ h₁ => ?_
  refine stateOf_bind (P := Kept) (hgroup _ _ _ _ h₁) fun lines₂ crew₂ h₂ => ?_
  exact stateOf_bind (P := Kept) (hgroup _ _ _ _ h₂) fun lines₃ crew₃ h₃ => h₃

end Chain

open Chain

/-- A phase of a chain that has been configured, however its plugins have worked since then, is the
composition of the transforms of that phase. -/
theorem runPhase_eq_composition {settings : Settings} {definitions : Definitions} {plugins : List π}
    {start ready : Session} {chain : Chain π}
    (hconfigure : Chain.configure settings definitions plugins start = .ok chain ready) :
    chain = ofMembers (chain.plugins.map .fresh) ∧
      ∀ members : List (Member π), members.map (·.configured) = chain.plugins →
        ∀ (phase : Phase) (context : Context) (lines : List String) (session : Session),
          runPhase phase context lines ⟨ofMembers members, session⟩ =
              mapState (fun crew => ⟨ofMembers crew.1, crew.2⟩)
                (composition phase context lines (members, session)) ∧
            (stateOf (composition phase context lines (members, session))).1.map (·.configured) =
              chain.plugins := by
  obtain ⟨configured, rfl⟩ : ∃ configured, chain = ofConfigured configured := by
    cases hplugins : configurePlugins settings definitions plugins start with
    | error e failed =>
        simp only [Chain.configure, bind, EStateM.bind, hplugins] at hconfigure
        cases hconfigure
    | ok configured after =>
        rw [Chain.configure, bind_of_ok hplugins] at hconfigure
        cases hconfigure
        exact ⟨configured, rfl⟩
  constructor
  · rw [ofMembers, map_configured_fresh]
    simp [ofConfigured, Member.fresh, Function.comp_def]
  · intro members hmembers phase context lines session
    refine ⟨runPhase_ofCrew phase context lines (members, session), ?_⟩
    rw [configured_composition, hmembers]

end

/-- A plugin that stamps its tag on every line and then adds a line with its tag and the number of
lines that it has stamped. One without a tag refuses whole scripts. -/
structure Stamper where
  /-- What it stamps on lines. -/
  tag : String
  /-- The transforms that it offers. -/
  kind : TransformKind
  /-- Where its line transform stands. -/
  order : LineOrder
  /-- The phase in which it runs. -/
  phase : Phase := .onLoad
  /-- The line that it leaves for the clean-up. -/
  token : String := ""
  /-- How many lines it has stamped. -/
  count : Nat := 0

instance : Plugin Stamper where
  name plugin := plugin.tag
  kind plugin := plugin.kind
  descriptor plugin := ⟨[plugin.tag], plugin.order, plugin.phase, {plugin.token}⟩
  options _ := []
  configure _ _ plugin := pure plugin
  transformLine line plugin := (line ++ plugin.tag, { plugin with count := plugin.count + 1 }, [])
  transformScript _ lines := fun (plugin, session) =>
    if plugin.tag = "" then .error (.unresolvedInput "") (plugin, session)
    else .ok (lines ++ [plugin.tag ++ toString plugin.count]) (plugin, session.moveToEnd plugin.tag)

/-- A plugin of both kinds that is there twice, one between them whose lines come last, two that have
a line transform only, in front and behind, and one that only leaves a line for the clean-up. -/
def stampers : List Stamper :=
  [⟨"a", .both, .before, .onLoad, "", 0⟩, ⟨"m", .line, .after, .onLoad, "", 0⟩,
    ⟨"b", .both, .after, .onLoad, "", 0⟩, ⟨"l", .line, .before, .onLoad, "", 0⟩,
    ⟨"a", .both, .before, .onLoad, "", 0⟩, ⟨"c", .both, .after, .onFinishUp, "b0mb", 0⟩]

/-- A script that no plugin looks at. -/
def stampedContext : Context where
  script := ⟨"", ⟨""⟩, [], .failed, ""⟩
  files := { isFile := fun _ => false, readLines := fun _ => .ok [], list := fun _ _ => .ok [] }
  definitions := .empty

/-- The middle one of them refuses whole scripts. -/
def refusingStampers : List Stamper :=
  [⟨"a", .both, .before, .onLoad, "", 0⟩, ⟨"", .fullScript, .before, .onLoad, "", 0⟩,
    ⟨"b", .both, .after, .onLoad, "", 0⟩]

theorem runPhase_eq_composition_stampers :
    (∃ engine, Chain.runPhase .onLoad stampedContext ["x", "y"]
        ⟨.ofConfigured stampers, Session.start ⟨"/"⟩⟩ =
      .ok ["xalamb", "yalamb", "a2mb", "a2mb"] engine) ∧
    ∃ engine, Chain.runPhase .onLoad stampedContext ["x", "y"]
        ⟨.ofConfigured refusingStampers, Session.start ⟨"/"⟩⟩ =
      .error (.unresolvedInput "") engine ∧ engine.chain.plugins.map (·.count) = [2, 0, 0] := by
  have hconfigure : ∀ plugins ∈ [stampers, refusingStampers], ∃ ready,
      Chain.configure .empty .empty plugins (Session.start ⟨"/"⟩) =
        .ok (.ofConfigured plugins) ready := by
    intro plugins hplugins
    rcases List.mem_pair.mp hplugins with rfl | rfl <;> exact ⟨_, rfl⟩
  constructor
  · obtain ⟨ready, hready⟩ := hconfigure stampers (by simp)
    obtain ⟨hfresh, hall⟩ := runPhase_eq_composition hready
    rw [hfresh, (hall _ (Chain.map_configured_fresh _) .onLoad stampedContext _ _).1]
    exact ⟨_, rfl⟩
  · obtain ⟨ready, hready⟩ := hconfigure refusingStampers (by simp)
    obtain ⟨hfresh, hall⟩ := runPhase_eq_composition hready
    rw [hfresh, (hall _ (Chain.map_configured_fresh _) .onLoad stampedContext _ _).1]
    exact ⟨_, rfl, rfl⟩

end SourceWeave
