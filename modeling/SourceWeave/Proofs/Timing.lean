import SourceWeave.Proofs.Configuration

/-!
# Options that tell when a plugin runs

The options `set-order` and `set-stage` of the built-in plugins tell when a plugin runs. They leave
the keywords of the plugin alone, so settings that differ only in them give plugins with the same
keywords: `Includer.keywords_same` and `BlankLineRemover.keyword_same`.
-/

namespace SourceWeave

namespace Settings

/-- The names of the options that tell when a plugin runs. -/
def timingNames : List String := ["set-order", "o", "set-stage", "ss"]

/-- The settings differ at most in the options that tell when a plugin runs. -/
def SameButTiming (settings other : Settings) : Prop :=
  ∀ handle option, option ∉ timingNames → settings.get? handle option = other.get? handle option

/-- Such settings have the same further options, in the same order. -/
theorem SameButTiming.optionsFor_eq {settings other : Settings} (h : SameButTiming settings other)
    (handle : String) :
    (settings.optionsFor handle).filter (fun setting => setting.1 ∉ timingNames) =
      (other.optionsFor handle).filter (fun setting => setting.1 ∉ timingNames) := by
  have hequiv : ((settings.group handle).filter fun option _ => option ∉ timingNames).Equiv
      ((other.group handle).filter fun option _ => option ∉ timingNames) := by
    refine .of_forall_constGet?_eq fun option => ?_
    show _[option]? = _[option]?
    rw [Std.TreeMap.getElem?_filter', Std.TreeMap.getElem?_filter']
    by_cases hname : option ∈ timingNames
    · simp [hname]
    · have hsame : (settings.group handle)[option]? = (other.group handle)[option]? :=
        h handle option hname
      rw [hsame]
  have hlist := hequiv.toList_eq
  rw [Std.TreeMap.toList_filter, Std.TreeMap.toList_filter] at hlist
  exact hlist

/-- Setting one of the timing options leaves the other options alone. -/
theorem SameButTiming.set (settings : Settings) (handle value : String) {option : String}
    (hoption : option ∈ timingNames) :
    settings.SameButTiming (settings.set handle option value) := by
  intro handle' option' hother
  simp only [get?, group, Settings.set]
  rw [Std.TreeMap.getD_insert]
  simp only [Std.compare_eq_iff_eq]
  split
  · next hhandle =>
    subst hhandle
    rw [Std.TreeMap.getElem?_insert, if_neg]
    intro heq
    exact hother (Std.compare_eq_iff_eq.mp heq ▸ hoption)
  · rfl

end Settings

/-- If each member of a list acts on a part of the state alone, then so does the whole list. -/
theorem view_forM {σ ν α : Type} {work : α → EStateM Error σ Unit} {view : σ → ν} {step : ν → α → ν}
    (hstep : ∀ a state next, work a state = .ok () next → view next = step (view state) a)
    {as : List α} {state last : σ} (h : as.forM work state = .ok () last) :
    view last = as.foldl step (view state) := by
  induction as generalizing state with
  | nil =>
      cases h
      rfl
  | cons a rest ih =>
      have hunfold : (a :: rest).forM work = (work a >>= fun _ => rest.forM work) := List.forM_cons
      cases hfirst : work a state with
      | error e failed =>
          simp only [hunfold, bind, EStateM.bind, hfirst] at h
          cases h
      | ok _ middle =>
          rw [hunfold, bind_of_ok hfirst] at h
          rw [List.foldl_cons, ← hstep a state middle hfirst]
          exact ih h

namespace OptionTable

variable {target ν : Type} {table : OptionTable target} {view : target → ν}
  {step : ν → String × String → ν}

/-- A setting that is applied is the value of an option that the table has. -/
theorem assign_eq_ok {handle name value : String} {current next : target}
    (h : table.assign handle (name, value) current = .ok () next) :
    ∃ entry ∈ table.entries, (entry.info.command = name ∨ entry.info.shortcut = name) ∧
      entry.assign value current = .ok next := by
  unfold assign at h
  split at h
  · cases h
  · next entry hfind =>
    have hname : entry.info.command = name ∨ entry.info.shortcut = name := by
      simpa [OptionInfo.hasName] using List.find?_some hfind
    refine ⟨entry, List.mem_of_find?_eq_some hfind, hname, ?_⟩
    split at h
    · next hassign =>
      cases h
      exact hassign
    · cases h

/-- If each single setting acts on a part of the target alone, then so do all settings together. -/
theorem view_configure
    (hassign : ∀ handle setting current next, table.assign handle setting current = .ok () next →
      view next = step (view current) setting)
    {settings : Settings} {handles : List String} {start finish : target}
    (h : table.configure settings handles start = .ok finish) :
    view finish = (handles.flatMap settings.optionsFor).foldl step (view start) := by
  have happly : table.apply settings handles start = .ok () finish := by
    unfold configure at h
    split at h
    · next hrun => exact Except.ok.inj h ▸ hrun
    · cases h
  rw [List.foldl_flatMap]
  exact view_forM (fun handle state next hrun => view_forM (hassign handle) hrun) happly

/-- Settings that are the same but for the timing act alike on a part of the target that the timing
does not touch. -/
theorem view_configure_same (view : target → ν)
    (hassign : ∀ handle setting current next, table.assign handle setting current = .ok () next →
      view next = step (view current) setting)
    (htiming : ∀ state setting, setting.1 ∈ Settings.timingNames → step state setting = state)
    {settings other : Settings} (hsame : settings.SameButTiming other) {handles : List String}
    {start finish finish' : target} (h : table.configure settings handles start = .ok finish)
    (h' : table.configure other handles start = .ok finish') : view finish = view finish' := by
  have hstep : (fun state setting => if decide (setting.1 ∉ Settings.timingNames) = true
      then step state setting else state) = step := by
    funext state setting
    by_cases hname : setting.1 ∈ Settings.timingNames
    · rw [if_neg (by simpa using hname), htiming state setting hname]
    · rw [if_pos (by simpa using hname)]
  -- the timing may be left out of the settings, and without it the settings are equal
  have hfilter : ∀ settings : Settings,
      (handles.flatMap settings.optionsFor).foldl step (view start) =
      (handles.flatMap fun handle => (settings.optionsFor handle).filter
        fun setting => setting.1 ∉ Settings.timingNames).foldl step (view start) := by
    intro settings
    rw [← List.filter_flatMap, List.foldl_filter, hstep]
  rw [view_configure hassign h, view_configure hassign h', hfilter, hfilter other]
  simp only [hsame.optionsFor_eq]

end OptionTable

/-- An option with a value of some kind sets what its text stands for. -/
theorem exists_of_map_parseOption {α target : Type} [OptionValue α] {option value : String}
    {set : α → target} {next : target} (h : (parseOption option value).map set = .ok next) :
    ∃ read, OptionValue.read (Text.trim value) = .ok read ∧ next = set read := by
  unfold parseOption at h
  cases hread : (OptionValue.read (Text.trim value) : Except ValueFault α) with
  | error e => simp [hread, Except.map] at h
  | ok read => exact ⟨read, rfl, by simpa [hread, Except.map] using h.symm⟩

namespace Includer

/-- The keyword and the removal keyword behind one more setting. -/
def keywordsStep (keywords : String × String) (setting : String × String) : String × String :=
  if setting.1 = "set-keyword" ∨ setting.1 = "kw" then (Text.trim setting.2, keywords.2)
  else if setting.1 = "set-removekeyword" ∨ setting.1 = "k" then (keywords.1, setting.2)
  else keywords

theorem keywords_assign (handle : String) (setting : String × String) (current next : Includer)
    (h : optionTable.assign handle setting current = .ok () next) :
    (next.keyword, next.removalKeyword) =
      keywordsStep (current.keyword, current.removalKeyword) setting := by
  obtain ⟨name, value⟩ := setting
  obtain ⟨entry, hmem, hname, hassign⟩ := OptionTable.assign_eq_ok h
  simp only [optionTable, List.mem_cons, List.not_mem_nil, or_false] at hmem
  rcases hmem with rfl | rfl | rfl | rfl | rfl
  · cases hassign
    rcases hname with rfl | rfl <;> simp [keywordsStep]
  · cases hassign
    rcases hname with rfl | rfl <;> simp [keywordsStep]
  · cases hassign
    rcases hname with rfl | rfl <;> simp [keywordsStep]
  · dsimp only at hassign
    obtain ⟨order, -, rfl⟩ := exists_of_map_parseOption hassign
    rcases hname with rfl | rfl <;> simp [keywordsStep]
  · dsimp only at hassign
    obtain ⟨phase, -, rfl⟩ := exists_of_map_parseOption hassign
    rcases hname with rfl | rfl <;> simp [keywordsStep]

/-- The keywords of the includer do not depend on the timing. -/
theorem keywords_same {settings other : Settings} (hsame : settings.SameButTiming other)
    {includer includer' : Includer} (h : optionTable.configure settings handles {} = .ok includer)
    (h' : optionTable.configure other handles {} = .ok includer') :
    includer.keyword = includer'.keyword ∧ includer.removalKeyword = includer'.removalKeyword := by
  have htiming : ∀ keywords setting, setting.1 ∈ Settings.timingNames →
      keywordsStep keywords setting = keywords := by
    rintro keywords ⟨name, value⟩ hname
    simp only [Settings.timingNames, List.mem_cons, List.not_mem_nil, or_false] at hname
    rcases hname with rfl | rfl | rfl | rfl <;> simp [keywordsStep]
  have hview := OptionTable.view_configure_same
    (fun includer : Includer => (includer.keyword, includer.removalKeyword)) keywords_assign htiming
    hsame h h'
  exact Prod.mk.inj hview

end Includer

namespace BlankLineRemover

/-- The removal keyword behind one more setting. -/
def keywordStep (keyword : String) (setting : String × String) : String :=
  if setting.1 = "set-removekeyword" ∨ setting.1 = "k" then setting.2 else keyword

theorem keyword_assign (handle : String) (setting : String × String)
    (current next : BlankLineRemover)
    (h : optionTable.assign handle setting current = .ok () next) :
    next.removalKeyword = keywordStep current.removalKeyword setting := by
  obtain ⟨name, value⟩ := setting
  obtain ⟨entry, hmem, hname, hassign⟩ := OptionTable.assign_eq_ok h
  simp only [optionTable, List.mem_cons, List.not_mem_nil, or_false] at hmem
  rcases hmem with rfl | rfl | rfl
  · cases hassign
    rcases hname with rfl | rfl <;> simp [keywordStep]
  · dsimp only at hassign
    obtain ⟨order, -, rfl⟩ := exists_of_map_parseOption hassign
    rcases hname with rfl | rfl <;> simp [keywordStep]
  · dsimp only at hassign
    obtain ⟨phase, -, rfl⟩ := exists_of_map_parseOption hassign
    rcases hname with rfl | rfl <;> simp [keywordStep]

/-- The removal keyword of the remover does not depend on the timing. -/
theorem keyword_same {settings other : Settings} (hsame : settings.SameButTiming other)
    {remover remover' : BlankLineRemover}
    (h : optionTable.configure settings handles {} = .ok remover)
    (h' : optionTable.configure other handles {} = .ok remover') :
    remover.removalKeyword = remover'.removalKeyword := by
  have htiming : ∀ keyword setting, setting.1 ∈ Settings.timingNames →
      keywordStep keyword setting = keyword := by
    rintro keyword ⟨name, value⟩ hname
    simp only [Settings.timingNames, List.mem_cons, List.not_mem_nil, or_false] at hname
    rcases hname with rfl | rfl | rfl | rfl <;> simp [keywordStep]
  exact OptionTable.view_configure_same (·.removalKeyword) keyword_assign htiming hsame h h'

end BlankLineRemover

end SourceWeave
