import SourceWeave.Proofs.Configuration
import SourceWeave.Proofs.Preparation
import SourceWeave.Proofs.Timing
import Mathlib.Data.List.Induction

/-!
# Which setting of an option counts

An option of a built-in plugin can be set under each handle of the plugin and under each of its two
names, and each of these addresses has a value of its own. The values are applied handle by handle
and name by name, in the ascending order of the names, so the one at the last address counts,
wherever it comes from: `Builtin.value_setUp`. An entry of the command line therefore overrides the
configuration only where nothing is set at an address behind its own. The main statement is
`command_line_prevails_iff`.
-/

namespace SourceWeave

namespace Builtin

/-! ## The options and what they set -/

/-- What an option of a built-in plugin sets. -/
inductive Field where
  /-- The keyword that starts a directive. -/
  | keyword
  /-- The line that is left for the clean-up. -/
  | removalKeyword
  /-- The separator recorded on scripts. -/
  | separator
  /-- Where the line transform stands. -/
  | order
  /-- The phase in which the plugin runs. -/
  | phase
deriving DecidableEq, Repr

/-- The value of a field, of whatever kind it is. -/
inductive FieldValue where
  /-- A text. -/
  | text (value : String)
  /-- A place relative to the transforms of whole scripts. -/
  | order (value : LineOrder)
  /-- A phase. -/
  | phase (value : Phase)
deriving DecidableEq, Repr

namespace Field

/-- The long name of the option. -/
def command : Field → String
  | keyword => "set-keyword"
  | removalKeyword => "set-removekeyword"
  | separator => "set-separator"
  | order => "set-order"
  | phase => "set-stage"

/-- The short name of the option. -/
def shortcut : Field → String
  | keyword => "kw"
  | removalKeyword => "k"
  | separator => "sep"
  | order => "o"
  | phase => "ss"

/-- The names of the option, in ascending order. -/
def names (field : Field) : List String :=
  if compare field.shortcut field.command = .lt then [field.shortcut, field.command]
  else [field.command, field.shortcut]

/-- The value that a text stands for, if it is valid. -/
def read? : Field → String → Option FieldValue
  | keyword, text => some (.text (Text.trim text))
  | removalKeyword, text | separator, text => some (.text text)
  | order, text => (OptionValue.read (Text.trim text)).toOption.map .order
  | phase, text => (OptionValue.read (Text.trim text)).toOption.map .phase

theorem mem_names {field : Field} {name : String} :
    name ∈ field.names ↔ field.command = name ∨ field.shortcut = name := by
  unfold names
  split <;> simp only [List.mem_cons, List.not_mem_nil, or_false] <;> grind

theorem names_ascend (field : Field) :
    field.names.Pairwise fun a b => compare a b = .lt := by
  cases field <;> decide

end Field

/-- The fields of a built-in plugin. -/
def fields : Builtin → List Field
  | .inl _ => [.keyword, .removalKeyword, .separator, .order, .phase]
  | .inr _ => [.removalKeyword, .order, .phase]

/-- The fields of a plugin are what its options set, so nothing that can be set is left out. -/
theorem options_eq_fields (plugin : Builtin) :
    (Plugin.options plugin).map (fun option => (option.command, option.shortcut)) =
      plugin.fields.map fun field => (field.command, field.shortcut) := by
  cases plugin <;> rfl

/-- The value of a field, if the plugin has it. -/
def value? : Builtin → Field → Option FieldValue
  | .inl includer, .keyword => some (.text includer.keyword)
  | .inl includer, .removalKeyword => some (.text includer.removalKeyword)
  | .inl includer, .separator => some (.text includer.separator)
  | .inl includer, .order => some (.order includer.order)
  | .inl includer, .phase => some (.phase includer.phase)
  | .inr remover, .removalKeyword => some (.text remover.removalKeyword)
  | .inr remover, .order => some (.order remover.order)
  | .inr remover, .phase => some (.phase remover.phase)
  | .inr _, .keyword | .inr _, .separator => none

namespace Field

/-- No name belongs to two fields. -/
theorem eq_of_mem_names {field other : Field} {name : String} (h : name ∈ field.names)
    (hother : name ∈ other.names) : field = other := by
  rcases mem_names.mp h with rfl | rfl <;> revert hother <;> cases field <;> cases other <;> decide

/-- The value of a field behind one more setting. -/
def step (field : Field) (current : Option FieldValue) (setting : String × String) :
    Option FieldValue :=
  if setting.1 ∈ field.names then field.read? setting.2 else current

/-- A setting of an option changes the field of the option and no other. -/
theorem step_eq (set field : Field) {name : String}
    (hname : set.command = name ∨ set.shortcut = name) (value : String)
    (current : Option FieldValue) :
    field.step current (name, value) = if field = set then set.read? value else current := by
  have hset : name ∈ set.names := mem_names.mpr hname
  rw [step]
  by_cases hfield : field = set
  · subst hfield
    rw [if_pos hset, if_pos rfl]
  · rw [if_neg fun h => hfield (eq_of_mem_names h hset), if_neg hfield]

/-- Of several settings the last one of the field counts. -/
theorem foldl_step (field : Field) (settings : List (String × String))
    (start : Option FieldValue) :
    settings.foldl field.step start =
      (((settings.filter fun setting => setting.1 ∈ field.names).getLast?).map
        fun setting => field.read? setting.2).getD start := by
  induction settings using List.reverseRecOn with
  | nil => rfl
  | append_singleton settings setting ih =>
      rw [List.foldl_append, List.foldl_cons, List.foldl_nil, List.filter_append, step, ih]
      split
      · next h => simp [h]
      · next h => simp [h]

end Field

/-- A setting of an includer changes the field that it names, and no other. -/
theorem value_assign_includer (field : Field) (handle : String) (setting : String × String)
    (current next : Includer)
    (h : Includer.optionTable.assign handle setting current = .ok () next) :
    value? (.inl next) field = field.step (value? (.inl current) field) setting := by
  obtain ⟨name, value⟩ := setting
  obtain ⟨entry, hmem, hname, hassign⟩ := OptionTable.assign_eq_ok h
  simp only [Includer.optionTable, List.mem_cons, List.not_mem_nil, or_false] at hmem
  rcases hmem with rfl | rfl | rfl | rfl | rfl
  · rw [Field.step_eq .keyword field hname]
    cases hassign
    cases field <;> rfl
  · rw [Field.step_eq .removalKeyword field hname]
    cases hassign
    cases field <;> rfl
  · rw [Field.step_eq .separator field hname]
    cases hassign
    cases field <;> rfl
  · rw [Field.step_eq .order field hname]
    dsimp only at hassign
    obtain ⟨order, hread, rfl⟩ := exists_of_map_parseOption hassign
    cases field <;> simp [value?, Field.read?, hread, Except.toOption]
  · rw [Field.step_eq .phase field hname]
    dsimp only at hassign
    obtain ⟨phase, hread, rfl⟩ := exists_of_map_parseOption hassign
    cases field <;> simp [value?, Field.read?, hread, Except.toOption]

/-- A setting of a remover changes the field that it names, and no other. -/
theorem value_assign_remover (field : Field) (handle : String) (setting : String × String)
    (current next : BlankLineRemover)
    (h : BlankLineRemover.optionTable.assign handle setting current = .ok () next) :
    value? (.inr next) field = field.step (value? (.inr current) field) setting := by
  obtain ⟨name, value⟩ := setting
  obtain ⟨entry, hmem, hname, hassign⟩ := OptionTable.assign_eq_ok h
  simp only [BlankLineRemover.optionTable, List.mem_cons, List.not_mem_nil, or_false] at hmem
  rcases hmem with rfl | rfl | rfl
  · rw [Field.step_eq .removalKeyword field hname]
    cases hassign
    cases field <;> rfl
  · rw [Field.step_eq .order field hname]
    dsimp only at hassign
    obtain ⟨order, hread, rfl⟩ := exists_of_map_parseOption hassign
    cases field <;> simp [value?, Field.read?, hread, Except.toOption]
  · rw [Field.step_eq .phase field hname]
    dsimp only at hassign
    obtain ⟨phase, hread, rfl⟩ := exists_of_map_parseOption hassign
    cases field <;> simp [value?, Field.read?, hread, Except.toOption]

/-! ## The last address counts -/

/-- The handles of a plugin, in the order in which their settings are applied. -/
def handles (plugin : Builtin) : List String := (Plugin.descriptor plugin).handles

/-- Where a field can be set, by handle and name, in the order in which settings are applied. -/
def addresses (plugin : Builtin) (field : Field) : List (String × String) :=
  plugin.handles.flatMap fun handle => field.names.map (handle, ·)

theorem mem_addresses {plugin : Builtin} {field : Field} {handle name : String} :
    (handle, name) ∈ plugin.addresses field ↔ handle ∈ plugin.handles ∧ name ∈ field.names := by
  simp [addresses]

/-- What is applied to a field are the values at its addresses. -/
theorem map_filter_optionsFor (settings : Settings) (plugin : Builtin) (field : Field) :
    ((plugin.handles.flatMap settings.optionsFor).filter fun setting =>
        setting.1 ∈ field.names).map (·.2) =
      (plugin.addresses field).filterMap fun address => settings.get? address.1 address.2 := by
  rw [addresses, List.filter_flatMap, List.map_flatMap, List.filterMap_flatMap]
  simp only [settings.filter_optionsFor _ field.names_ascend, List.map_filterMap,
    List.filterMap_map, Option.map_map, Function.comp_def, Option.map_id']

/-- A field of a plugin that was set up has the value at the last address where one is set. -/
theorem value_setUp {settings : Settings} {plugin ready : Builtin} (field : Field)
    (h : setUp settings plugin = .ok ready) :
    ready.value? field =
      (((plugin.addresses field).filterMap fun address =>
        settings.get? address.1 address.2).getLast?.map field.read?).getD
          (plugin.value? field) := by
  have hfold : ready.value? field =
      (plugin.handles.flatMap settings.optionsFor).foldl field.step (plugin.value? field) := by
    cases plugin with
    | inl includer =>
        obtain ⟨other, hconf, rfl⟩ := setUp_includer_eq_ok h
        exact OptionTable.view_configure (value_assign_includer field) hconf
    | inr remover =>
        obtain ⟨other, hconf, rfl⟩ := setUp_remover_eq_ok h
        exact OptionTable.view_configure (value_assign_remover field) hconf
  rw [hfold, Field.foldl_step, ← map_filter_optionsFor, List.getLast?_map, Option.map_map]
  rfl

/-! ## Settings of the command line -/

/-- The last entry of the command line for a field, under whatever handle and name. -/
def lastEntry? (plugin : Builtin) (field : Field) (entries : List String) :
    Option (String × String × String) :=
  (entries.filterMap Settings.parseEntry?).reverse.find? fun setting =>
    setting.1 ∈ plugin.handles ∧ setting.2.1 ∈ field.names

/-- The last entry for a field is the last one for its own address. -/
theorem lastWrite?_of_lastEntry? {plugin : Builtin} {field : Field} {entries : List String}
    {handle name value : String}
    (h : plugin.lastEntry? field entries = some (handle, name, value)) :
    Settings.lastWrite? (entries.filterMap Settings.parseEntry?) handle name = some value := by
  obtain ⟨hfield, front, rest, hsplit, hfront⟩ := List.find?_eq_some_iff_append.mp h
  rw [decide_eq_true_eq] at hfield
  rw [Settings.lastWrite?, Option.map_eq_some_iff]
  refine ⟨(handle, name, value), ?_, rfl⟩
  refine List.find?_eq_some_iff_append.mpr ⟨by simp, front, rest, hsplit, fun other hother => ?_⟩
  -- an entry for the same address is an entry for the field
  have hnone := hfront other hother
  simp only [Bool.not_eq_true', decide_eq_false_iff_not] at hnone ⊢
  rintro ⟨rfl, rfl⟩
  exact hnone hfield

/-- The members of a list behind the first place where `a` stands. -/
def behind {α : Type} [DecidableEq α] (a : α) (as : List α) : List α :=
  (as.dropWhile (· ≠ a)).tail

theorem eq_append_behind {α : Type} [DecidableEq α] {a : α} {as : List α} (h : a ∈ as) :
    as = as.takeWhile (· ≠ a) ++ a :: behind a as := by
  induction as with
  | nil => simp at h
  | cons b rest ih =>
      by_cases hb : b = a
      · subst hb
        simp [behind]
      · have hrest := ih ((List.mem_cons.mp h).resolve_left fun heq => hb heq.symm)
        simpa [behind, hb] using hrest

/-- What is set for a field behind an address, if anything: the value that is applied last. -/
def laterSetting? (plugin : Builtin) (field : Field) (config : Config) (entries : List String)
    (address : String × String) : Option String :=
  ((behind address (plugin.addresses field)).filterMap (config.setting? entries)).getLast?

/-- If an address has a value, the values applied from there on are it and the later ones. -/
theorem getLast?_settings {plugin : Builtin} {field : Field} {config : Config}
    {entries : List String} {address : String × String} {value : String}
    (haddress : address ∈ plugin.addresses field)
    (hvalue : config.setting? entries address = some value) :
    ((plugin.addresses field).filterMap (config.setting? entries)).getLast? =
      some ((plugin.laterSetting? field config entries address).getD value) := by
  rw [eq_append_behind haddress, List.filterMap_append, List.filterMap_cons_some hvalue,
    List.getLast?_append, List.getLast?_cons, laterSetting?]
  rfl

end Builtin

/-- An entry of the command line with a valid value decides what a plugin works with exactly if what
is set at a later address of the same option, by the configuration or by an earlier entry, stands
for the same value. Otherwise the value at the last such address counts. -/
theorem command_line_prevails_iff {root : Path} {config : Config} {options : Command.RunOptions}
    {cwd : Path} {job : Job} {plugins : List Builtin} {plugin ready : Builtin}
    {session after : Session} {field : Builtin.Field} {handle name value : String}
    {valid : Builtin.FieldValue}
    (hprepare : Command.prepare root config options cwd = .ok (job, plugins))
    (hready : Plugin.configure job.settings job.definitions plugin session = .ok ready after)
    (hlast : plugin.lastEntry? field options.settings = some (handle, name, value))
    (hvalid : field.read? value = some valid) :
    ready.value? field =
        (plugin.laterSetting? field config options.settings (handle, name)).elim (some valid)
          field.read? ∧
      (ready.value? field = some valid ↔
        ∀ other, plugin.laterSetting? field config options.settings (handle, name) = some other →
          field.read? other = some valid) := by
  have hprepared := Command.prepare_eq_ok hprepare
  have hsetUp : Builtin.setUp job.settings plugin = .ok ready := by
    rw [Builtin.configure_eq] at hready
    split at hready
    · next other hother =>
      cases hready
      exact hother
    · cases hready
  have haddress : (handle, name) ∈ plugin.addresses field := by
    have hfound := List.find?_some hlast
    exact Builtin.mem_addresses.mpr (by simpa using hfound)
  have hset : config.setting? options.settings (handle, name) = some value := by
    rw [Config.setting?, Builtin.lastWrite?_of_lastEntry? hlast, Option.some_or]
  have hvalue : ready.value? field =
      (plugin.laterSetting? field config options.settings (handle, name)).elim (some valid)
        field.read? := by
    rw [Builtin.value_setUp field hsetUp]
    simp only [hprepared.get?_settings]
    rw [Builtin.getLast?_settings haddress hset]
    cases plugin.laterSetting? field config options.settings (handle, name) with
    | none => exact hvalid
    | some other => rfl
  refine ⟨hvalue, ?_⟩
  rw [hvalue]
  cases plugin.laterSetting? field config options.settings (handle, name) with
  | none => simp
  | some other => simp

/-- A configuration that sets one option. -/
def Config.ofSetting (handle option value : String) : Config :=
  { settings := Std.TreeMap.ofList
      [(handle, Std.TreeMap.ofList [(option, SettingValue.text value)])] }

/-- The options of a run with one input and some settings. -/
def Command.RunOptions.ofSettings (settings : List String) : RunOptions :=
  { inputs := [⟨"main"⟩], settings := settings }

/-- A run that can be prepared, with settings that suit an includer, works with that includer. -/
theorem Command.exists_configured (config : Config) (options : RunOptions) (includer : Includer)
    (hprepare : (prepare ⟨"/w"⟩ config options ⟨"/w"⟩).toOption.isSome)
    (hsetUp : Builtin.setUp
      ((options.settings.filterMap Settings.parseEntry?).foldl Settings.write config.toSettings)
      (.inl {}) = .ok (.inl includer)) :
    ∃ job plugins, prepare ⟨"/w"⟩ config options ⟨"/w"⟩ = .ok (job, plugins) ∧
      Plugin.configure job.settings job.definitions (.inl {} : Builtin) (Session.start ⟨"/w"⟩) =
        .ok (.inl includer) (Session.start ⟨"/w"⟩) := by
  obtain ⟨job, plugins, hprepared⟩ := exists_prepared hprepare
  refine ⟨job, plugins, hprepared, ?_⟩
  rw [Builtin.configure_eq, (prepare_eq_ok hprepared).settings_eq_foldl, hsetUp]

/-- The long name of an option stands behind the short one: an entry under the long name overrides a
configuration and an earlier entry under the short one. -/
theorem command_line_prevails_long_name :
    ∃ job plugins ready after,
      Command.prepare ⟨"/w"⟩ (.ofSetting "inc" "kw" "#import")
        (.ofSettings ["inc:kw=#take", "inc:set-keyword= #use "]) ⟨"/w"⟩ = .ok (job, plugins) ∧
      Plugin.configure job.settings job.definitions (.inl {} : Builtin) (Session.start ⟨"/w"⟩) =
        .ok ready after ∧
      Builtin.value? ready .keyword = some (.text "#use") := by
  obtain ⟨job, plugins, hprepare, hready⟩ := Command.exists_configured
    (.ofSetting "inc" "kw" "#import") (.ofSettings ["inc:kw=#take", "inc:set-keyword= #use "])
    { keyword := "#use" } (by decide +kernel) (by decide +kernel)
  refine ⟨job, plugins, _, _, hprepare, hready, ?_⟩
  have hlast : Builtin.lastEntry? (.inl {}) .keyword ["inc:kw=#take", "inc:set-keyword= #use "] =
      some ("inc", "set-keyword", " #use ") := by decide +kernel
  have hlater : Builtin.laterSetting? (.inl {}) .keyword (.ofSetting "inc" "kw" "#import")
      ["inc:kw=#take", "inc:set-keyword= #use "] ("inc", "set-keyword") = none := by
    decide +kernel
  have hvalid : Builtin.Field.read? .keyword " #use " = some (.text "#use") := by decide +kernel
  have hprevails := command_line_prevails_iff hprepare hready hlast hvalid
  exact hprevails.2.mpr fun other hother => absurd (hlater.symm.trans hother) (by simp)

/-- The configuration overrides the command line if it sets the same option under the name that
stands behind. -/
theorem configuration_overrides_command_line :
    ∃ job plugins ready after,
      Command.prepare ⟨"/w"⟩ (.ofSetting "inc" "set-keyword" "#import")
        (.ofSettings ["inc:kw=#use"]) ⟨"/w"⟩ = .ok (job, plugins) ∧
      Plugin.configure job.settings job.definitions (.inl {} : Builtin) (Session.start ⟨"/w"⟩) =
        .ok ready after ∧
      Builtin.lastEntry? (.inl {}) .keyword ["inc:kw=#use"] = some ("inc", "kw", "#use") ∧
      Builtin.Field.read? .keyword "#use" = some (.text "#use") ∧
      Builtin.value? ready .keyword = some (.text "#import") := by
  obtain ⟨job, plugins, hprepare, hready⟩ := Command.exists_configured
    (.ofSetting "inc" "set-keyword" "#import") (.ofSettings ["inc:kw=#use"])
    { keyword := "#import" } (by decide +kernel) (by decide +kernel)
  exact ⟨job, plugins, _, _, hprepare, hready, by decide +kernel, by decide +kernel, rfl⟩

end SourceWeave
