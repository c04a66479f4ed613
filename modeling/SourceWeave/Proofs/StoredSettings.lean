import SourceWeave.Config
import Mathlib.Data.List.Sort

/-!
# What settings hold

Settings are filled by writing values to options, one after another, and the last value written to
an option is the one they hold: `Settings.get?_foldl_write`. The entries of the command line and the
configuration of a project are two sequences of writes. The options that settings hold for a handle
are read in ascending order, `Settings.filter_optionsFor`.
-/

namespace SourceWeave

namespace Settings

/-- Writes a value: handle, option and value. -/
def write (settings : Settings) (setting : String × String × String) : Settings :=
  settings.set setting.1 setting.2.1 setting.2.2

/-- The value last written to an option. -/
def lastWrite? (writes : List (String × String × String)) (handle option : String) :
    Option String :=
  (writes.reverse.find? fun setting => setting.1 = handle ∧ setting.2.1 = option).map (·.2.2)

theorem get?_empty (handle option : String) : empty.get? handle option = none := rfl

theorem get?_set (settings : Settings) (handle option value handle' option' : String) :
    (settings.set handle option value).get? handle' option' =
      if handle = handle' ∧ option = option' then some value
      else settings.get? handle' option' := by
  simp only [get?, group, set, Std.TreeMap.getD_insert, Std.compare_eq_iff_eq]
  by_cases hhandle : handle = handle'
  · subst hhandle
    rw [if_pos rfl, Std.TreeMap.getElem?_insert]
    simp only [Std.compare_eq_iff_eq, true_and]
  · rw [if_neg hhandle, if_neg fun h => hhandle h.1]

theorem lastWrite?_cons (setting : String × String × String)
    (rest : List (String × String × String)) (handle option : String) :
    lastWrite? (setting :: rest) handle option =
      (lastWrite? rest handle option).or
        (if setting.1 = handle ∧ setting.2.1 = option then some setting.2.2 else none) := by
  simp only [lastWrite?, List.reverse_cons, List.find?_append, Option.map_or]
  congr 1
  split
  · next h => simp [h]
  · next h => simp [h]

/-- Settings hold what was last written to them. -/
theorem get?_foldl_write (writes : List (String × String × String)) (settings : Settings)
    (handle option : String) :
    (writes.foldl write settings).get? handle option =
      (lastWrite? writes handle option).or (settings.get? handle option) := by
  induction writes generalizing settings with
  | nil => rfl
  | cons setting rest ih =>
      rw [List.foldl_cons, ih, lastWrite?_cons, Option.or_assoc, write, get?_set]
      split <;> simp

/-- What was written to an option at most once was written last. -/
theorem lastWrite?_of_mem {writes : List (String × String × String)} {handle option value : String}
    (hmem : (handle, option, value) ∈ writes)
    (hunique : ∀ other, (handle, option, other) ∈ writes → other = value) :
    lastWrite? writes handle option = some value := by
  rw [lastWrite?]
  cases hfind : writes.reverse.find? fun setting => setting.1 = handle ∧ setting.2.1 = option with
  | none =>
      rw [List.find?_eq_none] at hfind
      exact absurd (hfind _ (List.mem_reverse.mpr hmem)) (by simp)
  | some setting =>
      obtain ⟨handle', option', value'⟩ := setting
      obtain ⟨rfl, rfl⟩ : handle' = handle ∧ option' = option := by
        simpa using List.find?_some hfind
      have hwritten := List.mem_reverse.mp (List.mem_of_find?_eq_some hfind)
      rw [Option.map_some, hunique value' hwritten]

theorem lastWrite?_eq_none {writes : List (String × String × String)} {handle option : String}
    (h : ∀ value, (handle, option, value) ∉ writes) : lastWrite? writes handle option = none := by
  rw [lastWrite?, Option.map_eq_none_iff, List.find?_eq_none]
  rintro ⟨handle', option', value⟩ hmem heq
  obtain ⟨rfl, rfl⟩ : handle' = handle ∧ option' = option := by simpa using heq
  exact h value (List.mem_reverse.mp hmem)

/-- Entries that can all be read are written one after another. -/
theorem foldlM_setEntry_eq_ok {entries : List String} {settings result : Settings}
    (h : entries.foldlM setEntry settings = .ok result) :
    result = (entries.filterMap parseEntry?).foldl write settings := by
  induction entries generalizing settings with
  | nil => exact (Except.ok.inj h).symm
  | cons entry rest ih =>
      rw [List.foldlM_cons] at h
      cases hparse : parseEntry? entry with
      | none =>
          simp only [setEntry, hparse, bind, Except.bind] at h
          cases h
      | some setting =>
          obtain ⟨handle, option, value⟩ := setting
          simp only [setEntry, hparse, bind, Except.bind] at h
          rw [ih h, List.filterMap_cons_some hparse, List.foldl_cons, write]

/-- The first option has the smaller name. -/
def NameLt (setting other : String × String) : Prop :=
  compare setting.1 other.1 = .lt

instance : Std.Irrefl NameLt where
  irrefl setting h := by simp [NameLt] at h

instance : Std.Antisymm NameLt where
  antisymm _ _ h h' := absurd h' (Std.OrientedCmp.not_lt_of_lt h)

/-- The options of a handle that are among some names, in the order of the names. -/
theorem filter_optionsFor (settings : Settings) (handle : String) {names : List String}
    (hnames : names.Pairwise fun a b => compare a b = .lt) :
    (settings.optionsFor handle).filter (fun setting => setting.1 ∈ names) =
      names.filterMap fun name => (settings.get? handle name).map (name, ·) := by
  -- both sides ascend strictly and have the same members
  have hleft : ((settings.optionsFor handle).filter fun setting => setting.1 ∈ names).Pairwise
      NameLt := Std.TreeMap.ordered_keys_toList.filter _
  have hright : (names.filterMap fun name => (settings.get? handle name).map (name, ·)).Pairwise
      NameLt := by
    refine List.Pairwise.filterMap _ (fun a b hlt x hx y hy => ?_) hnames
    obtain ⟨v, -, rfl⟩ := Option.map_eq_some_iff.mp hx
    obtain ⟨w, -, rfl⟩ := Option.map_eq_some_iff.mp hy
    exact hlt
  refine List.Pairwise.eq_of_mem_iff hleft hright ?_
  rintro ⟨name, value⟩
  rw [List.mem_filter, optionsFor, Std.TreeMap.mem_toList_iff_getElem?_eq_some, List.mem_filterMap]
  simp only [Option.map_eq_some_iff, Prod.mk.injEq, decide_eq_true_eq]
  constructor
  · rintro ⟨hvalue, hname⟩
    exact ⟨name, hname, value, hvalue, rfl, rfl⟩
  · rintro ⟨name', hname, value', hvalue, rfl, rfl⟩
    exact ⟨hvalue, hname⟩

end Settings

namespace Config

/-- The value that the configuration gives to an option. -/
def value? (config : Config) (handle option : String) : Option String :=
  (config.settings[handle]?.bind fun options => options[option]?).map SettingValue.render

/-- What the configuration writes to the settings. -/
def writes (config : Config) : List (String × String × String) :=
  config.settings.toList.flatMap fun (handle, options) =>
    options.toList.map fun (option, value) => (handle, option, value.render)

theorem toSettings_eq (config : Config) :
    config.toSettings = config.writes.foldl Settings.write .empty := by
  rw [writes, List.foldl_flatMap, toSettings]
  simp only [List.foldl_map]
  rfl

theorem mem_writes {config : Config} {handle option value : String} :
    (handle, option, value) ∈ config.writes ↔ config.value? handle option = some value := by
  simp only [writes, List.mem_flatMap, List.mem_map, Prod.exists, Prod.mk.injEq,
    Std.TreeMap.mem_toList_iff_getElem?_eq_some, value?, Option.map_eq_some_iff,
    Option.bind_eq_some_iff]
  constructor
  · rintro ⟨_, options, hoptions, _, setting, hsetting, rfl, rfl, rfl⟩
    exact ⟨setting, ⟨options, hoptions, hsetting⟩, rfl⟩
  · rintro ⟨setting, ⟨options, hoptions, hsetting⟩, rfl⟩
    exact ⟨handle, options, hoptions, option, setting, hsetting, rfl, rfl, rfl⟩

/-- The settings of a configuration hold what it gives. -/
theorem get?_toSettings (config : Config) (handle option : String) :
    config.toSettings.get? handle option = config.value? handle option := by
  rw [toSettings_eq, Settings.get?_foldl_write, Settings.get?_empty, Option.or_none]
  cases hvalue : config.value? handle option with
  | none =>
      refine Settings.lastWrite?_eq_none fun value hmem => ?_
      rw [mem_writes, hvalue] at hmem
      cases hmem
  | some value =>
      refine Settings.lastWrite?_of_mem (mem_writes.mpr hvalue) fun other hmem => ?_
      rw [mem_writes, hvalue] at hmem
      exact (Option.some.inj hmem).symm

end Config

end SourceWeave
