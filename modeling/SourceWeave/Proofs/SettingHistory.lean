import SourceWeave.Proofs.ByteOrder
import SourceWeave.Proofs.StoredSettings
import SourceWeave.Proofs.Trimming

/-!
# Settings as a record of what was written to them

Settings are changed by setting an option, by reading an entry and by taking in other settings,
which were changed in the same ways before. Whatever was done to settings, they hold for each option
what was last written to it: `Settings.Change.get?_performAll`. Taking other settings in counts as
writing all that they hold. It goes handle by handle, and a handle without options would make empty
settings look filled; there never is one, `Settings.Change.filled_performAll`. Which entries can be
read, and what they write, is said by `Settings.IsEntry`. The main statement is
`settings_hold_last_writes`.
-/

namespace SourceWeave

namespace Settings

/-! ## Entries -/

/-- `front` stands in front of the first mark in a text, and `back` behind it. -/
structure CutsAt (mark : Char) (text front back : String) : Prop where
  toList_eq : text.toList = front.toList ++ mark :: back.toList
  first : mark ∉ front.toList

/-- The text reads `handle:option=value`. The first equals sign ends the option, the first colon in
front of it ends the handle, and neither of these two is blank. -/
structure IsEntry (entry handle option value : String) : Prop where
  cuts : ∃ target, CutsAt '=' entry target value ∧ CutsAt ':' target handle option
  handle_visible : ∃ c ∈ handle.toList, Text.isBlank c = false
  option_visible : ∃ c ∈ option.toList, Text.isBlank c = false

theorem cutAt?_eq_some_iff {mark : Char} {cs front back : List Char} :
    cutAt? mark cs = some (front, back) ↔ cs = front ++ mark :: back ∧ mark ∉ front := by
  constructor
  · intro h
    rw [cutAt?] at h
    split at h
    · cases h
    · next first rest hdrop =>
      obtain ⟨rfl, rfl⟩ := Prod.mk.inj (Option.some.inj h)
      have hhead := List.head?_dropWhile_not (· != mark) cs
      rw [hdrop] at hhead
      obtain rfl : first = mark := by simpa using hhead
      refine ⟨?_, fun hmem => by simpa using List.mem_takeWhile_imp hmem⟩
      rw [← hdrop, List.takeWhile_append_dropWhile]
  · rintro ⟨rfl, hmark⟩
    have hfront : ∀ c ∈ front, (c != mark) = true := fun c hc =>
      bne_iff_ne.mpr fun heq => hmark (heq ▸ hc)
    simp [cutAt?, List.dropWhile_append_of_pos hfront, List.takeWhile_append_of_pos hfront]

theorem cutAt?_eq_some_iff_cutsAt {mark : Char} {text front back : String} :
    cutAt? mark text.toList = some (front.toList, back.toList) ↔ CutsAt mark text front back :=
  cutAt?_eq_some_iff.trans ⟨fun h => ⟨h.1, h.2⟩, fun h => ⟨h.1, h.2⟩⟩

/-- Something is left of a text exactly if some of it is visible. -/
theorem trimChars_ne_nil_iff {cs : List Char} :
    Text.trimChars cs ≠ [] ↔ ∃ c ∈ cs, Text.isBlank c = false := by
  rw [ne_eq, Text.trimChars_eq_nil_iff]
  simp

/-- The entries that can be read are those that read `handle:option=value`. -/
theorem parseEntry?_eq_some_iff {entry : String} {setting : String × String × String} :
    parseEntry? entry = some setting ↔
      ∃ handle option value, IsEntry entry handle option value ∧
        setting = (Text.trim handle, Text.trim option, value) := by
  constructor
  · intro h
    simp only [bind, parseEntry?, Option.bind_eq_some_iff, Prod.exists] at h
    obtain ⟨target, value, htarget, handle, option, hcut, h⟩ := h
    split at h
    · cases h
    · next hvisible =>
      simp only [Bool.or_eq_true, List.isEmpty_iff, not_or] at hvisible
      refine ⟨String.ofList handle, String.ofList option, String.ofList value,
        ⟨⟨String.ofList target, ?_, ?_⟩, ?_, ?_⟩, ?_⟩
      · rw [← cutAt?_eq_some_iff_cutsAt, String.toList_ofList, String.toList_ofList]
        exact htarget
      · rw [← cutAt?_eq_some_iff_cutsAt]
        simpa only [String.toList_ofList] using hcut
      · rw [String.toList_ofList, ← trimChars_ne_nil_iff]
        exact hvisible.1
      · rw [String.toList_ofList, ← trimChars_ne_nil_iff]
        exact hvisible.2
      · simpa [Text.trim] using (Option.some.inj h).symm
  · rintro ⟨handle, option, value, hentry, rfl⟩
    obtain ⟨target, htarget, hcut⟩ := hentry.cuts
    have hhandle := trimChars_ne_nil_iff.mpr hentry.handle_visible
    have hoption := trimChars_ne_nil_iff.mpr hentry.option_visible
    simp [cutAt?_eq_some_iff_cutsAt.mpr htarget, cutAt?_eq_some_iff_cutsAt.mpr hcut, parseEntry?,
      hhandle, hoption, Text.trim]

/-! ## Taking other settings in -/

/-- Each handle has an option. -/
def Filled (settings : Settings) : Prop :=
  ∀ (handle : String) (options : Std.TreeMap String String),
    settings.entries[handle]? = some options → options.isEmpty = false

theorem lastWrite?_append (earlier later : List (String × String × String))
    (handle option : String) :
    lastWrite? (earlier ++ later) handle option =
      (lastWrite? later handle option).or (lastWrite? earlier handle option) := by
  simp only [lastWrite?, List.reverse_append, List.find?_append, Option.map_or]

/-- What is inserted is found, and what was there otherwise. -/
theorem getElem?_insertMany_toList (options others : Std.TreeMap String String) (option : String) :
    (options.insertMany others.toList)[option]? = others[option]?.or options[option]? := by
  cases hother : others[option]? with
  | none =>
      rw [Option.none_or, Std.TreeMap.getElem?_insertMany_list_of_contains_eq_false]
      rw [Std.TreeMap.map_fst_toList_eq_keys, Std.TreeMap.contains_keys,
        Std.TreeMap.contains_eq_isSome_getElem?, hother]
      rfl
  | some value =>
      rw [Option.some_or, Std.TreeMap.getElem?_insertMany_list_of_mem (k := option)
        Std.ReflCmp.compare_self Std.TreeMap.distinct_keys_toList]
      exact Std.TreeMap.mem_toList_iff_getElem?_eq_some.mpr hother

/-- The writes that set some options of a handle. -/
def groupWrites (handle : String) (options : Std.TreeMap String String) :
    List (String × String × String) :=
  options.toList.map fun (option, value) => (handle, option, value)

theorem mem_groupWrites {handle handle' option value : String}
    {options : Std.TreeMap String String} :
    (handle', option, value) ∈ groupWrites handle options ↔
      handle = handle' ∧ options[option]? = some value := by
  simp only [groupWrites, List.mem_map, Prod.exists, Prod.mk.injEq,
    Std.TreeMap.mem_toList_iff_getElem?_eq_some]
  constructor
  · rintro ⟨_, _, hvalue, rfl, rfl, rfl⟩
    exact ⟨rfl, hvalue⟩
  · rintro ⟨rfl, hvalue⟩
    exact ⟨option, value, hvalue, rfl, rfl, rfl⟩

theorem lastWrite?_groupWrites (handle : String) (options : Std.TreeMap String String)
    (handle' option : String) :
    lastWrite? (groupWrites handle options) handle' option =
      if handle = handle' then options[option]? else none := by
  split
  · next h =>
    subst h
    cases hvalue : options[option]? with
    | none =>
        refine lastWrite?_eq_none fun value hmem => ?_
        rw [(mem_groupWrites.mp hmem).2] at hvalue
        cases hvalue
    | some value =>
        refine lastWrite?_of_mem (mem_groupWrites.mpr ⟨rfl, hvalue⟩) fun other hmem => ?_
        rw [(mem_groupWrites.mp hmem).2] at hvalue
        exact Option.some.inj hvalue
  · next h => exact lastWrite?_eq_none fun value hmem => h (mem_groupWrites.mp hmem).1

theorem toList_eq_flatMap (settings : Settings) :
    settings.toList = settings.entries.toList.flatMap fun (handle, options) =>
      groupWrites handle options := rfl

/-- All that settings hold is listed. -/
theorem mem_toList {settings : Settings} {handle option value : String} :
    (handle, option, value) ∈ settings.toList ↔ settings.get? handle option = some value := by
  simp only [toList_eq_flatMap, List.mem_flatMap, Prod.exists, mem_groupWrites,
    Std.TreeMap.mem_toList_iff_getElem?_eq_some, get?, group, Std.TreeMap.getD_eq_getD_getElem?]
  constructor
  · rintro ⟨_, options, hoptions, rfl, hvalue⟩
    rw [hoptions]
    exact hvalue
  · intro h
    cases hoptions : settings.entries[handle]? with
    | none =>
        rw [hoptions] at h
        cases h
    | some options =>
        rw [hoptions] at h
        exact ⟨handle, options, hoptions, rfl, h⟩

theorem get?_setGroup (settings : Settings) (handle : String)
    (options : Std.TreeMap String String) (handle' option : String) :
    (settings.setGroup handle options).get? handle' option =
      (lastWrite? (groupWrites handle options) handle' option).or
        (settings.get? handle' option) := by
  simp only [get?, group, setGroup, Std.TreeMap.getD_insert, Std.compare_eq_iff_eq]
  rw [lastWrite?_groupWrites]
  split
  · next h =>
    subst h
    rw [getElem?_insertMany_toList]
  · rw [Option.none_or]

/-- Taking other settings in writes all that they hold. -/
theorem get?_merge (settings other : Settings) (handle option : String) :
    (settings.merge other).get? handle option =
      (lastWrite? other.toList handle option).or (settings.get? handle option) := by
  rw [merge, toList_eq_flatMap]
  generalize other.entries.toList = groups
  induction groups generalizing settings with
  | nil => rfl
  | cons group rest ih =>
      rw [List.foldl_cons, ih, get?_setGroup, List.flatMap_cons, lastWrite?_append,
        Option.or_assoc]

theorem isEmpty_setGroup (settings : Settings) (handle : String)
    (options : Std.TreeMap String String) :
    (settings.setGroup handle options).isEmpty = false :=
  Std.TreeMap.isEmpty_insert

/-- Settings stay empty exactly if the other settings are empty too. -/
theorem isEmpty_merge_iff (settings other : Settings) :
    (settings.merge other).isEmpty = true ↔ settings.isEmpty = true ∧ other.isEmpty = true := by
  have hother : other.isEmpty = true ↔ other.entries.toList = [] := by
    rw [← List.isEmpty_iff, Std.TreeMap.isEmpty_toList, isEmpty]
  rw [merge, hother]
  generalize other.entries.toList = groups
  induction groups generalizing settings with
  | nil => simp
  | cons group rest ih => exact (ih _).trans (by simp [isEmpty_setGroup])

theorem filled_empty : empty.Filled := by
  intro handle options h
  cases h

theorem Filled.insert {settings : Settings} (h : settings.Filled) (handle : String)
    {options : Std.TreeMap String String} (hoptions : options.isEmpty = false) :
    Filled ⟨settings.entries.insert handle options⟩ := by
  intro handle' options' hfound
  rw [Std.TreeMap.getElem?_insert] at hfound
  split at hfound
  · exact Option.some.inj hfound ▸ hoptions
  · exact h handle' options' hfound

theorem Filled.merge {settings other : Settings} (h : settings.Filled) (hother : other.Filled) :
    (settings.merge other).Filled := by
  have hgroups : ∀ group ∈ other.entries.toList, group.2.isEmpty = false := fun group hgroup =>
    hother group.1 group.2 (Std.TreeMap.mem_toList_iff_getElem?_eq_some.mp hgroup)
  rw [Settings.merge]
  generalize other.entries.toList = groups at hgroups
  induction groups generalizing settings with
  | nil => exact h
  | cons group rest ih =>
      refine ih (h.insert group.1 ?_) fun other hmem => hgroups other (List.mem_cons_of_mem _ hmem)
      rw [Std.TreeMap.isEmpty_insertMany_list, Std.TreeMap.isEmpty_toList,
        hgroups group List.mem_cons_self, Bool.and_false]

/-- Settings in which each handle has an option hold nothing only if they are empty. -/
theorem Filled.toList_eq_nil_iff {settings : Settings} (h : settings.Filled) :
    settings.toList = [] ↔ settings.isEmpty = true := by
  rw [Settings.isEmpty, ← Std.TreeMap.isEmpty_toList, toList_eq_flatMap]
  cases hgroups : settings.entries.toList with
  | nil => simp
  | cons group rest =>
      have hgroup : group.2.isEmpty = false := h group.1 group.2
        (Std.TreeMap.mem_toList_iff_getElem?_eq_some.mp (hgroups ▸ List.mem_cons_self))
      rw [← Std.TreeMap.isEmpty_toList, List.isEmpty_eq_false_iff] at hgroup
      simp [groupWrites, hgroup]

/-! ## Changes -/

/-- A change to settings. -/
inductive Change where
  /-- To set an option. -/
  | set (handle option value : String)
  /-- To set an option that is written as an entry. -/
  | setEntry (entry : String)
  /-- To take in all that is set in other settings, which began empty and were changed before. -/
  | merge (others : List Change)

namespace Change

mutual

/-- The settings behind a change. An entry that cannot be read changes nothing. -/
def perform : Change → Settings → Settings
  | set handle option value, settings => settings.set handle option value
  | setEntry entry, settings =>
    match settings.setEntry entry with
    | .ok changed => changed
    | .error _ => settings
  | merge others, settings => settings.merge (performAll others empty)

/-- The settings behind changes, one after another. -/
def performAll : List Change → Settings → Settings
  | [], settings => settings
  | change :: rest, settings => performAll rest (perform change settings)

end

/-- What a change writes: handle, option and value. -/
def writes : Change → List (String × String × String)
  | set handle option value => [(handle, option, value)]
  | setEntry entry => Option.toList <| parseEntry? entry
  | merge others => (performAll others empty).toList

/-- An entry is set as it is read, or not at all. -/
theorem perform_setEntry (entry : String) (settings : Settings) :
    (setEntry entry).perform settings = (setEntry entry).writes.foldl write settings := by
  rw [perform, Settings.setEntry, writes]
  cases parseEntry? entry <;> rfl

/-- Behind a change settings hold what it writes, and what they held before otherwise. -/
theorem get?_perform (change : Change) (settings : Settings) (handle option : String) :
    (change.perform settings).get? handle option =
      (lastWrite? change.writes handle option).or (settings.get? handle option) := by
  cases change with
  | set handle' option' value => exact get?_foldl_write [(handle', option', value)] _ _ _
  | setEntry entry => rw [perform_setEntry, get?_foldl_write]
  | merge others => rw [perform, get?_merge, writes]

/-- Behind changes settings hold what was last written to them. -/
theorem get?_performAll (changes : List Change) (settings : Settings) (handle option : String) :
    (performAll changes settings).get? handle option =
      (lastWrite? (changes.flatMap writes) handle option).or (settings.get? handle option) := by
  induction changes generalizing settings with
  | nil => rfl
  | cons change rest ih =>
      rw [performAll, ih, get?_perform, List.flatMap_cons, lastWrite?_append, Option.or_assoc]

/-- Writing fills settings. -/
theorem isEmpty_foldl_write_iff (writes : List (String × String × String)) (settings : Settings) :
    (writes.foldl write settings).isEmpty = true ↔ settings.isEmpty = true ∧ writes = [] := by
  induction writes generalizing settings with
  | nil => simp
  | cons setting rest ih =>
      have hwritten : (settings.write setting).isEmpty = false := Std.TreeMap.isEmpty_insert
      rw [List.foldl_cons, ih, hwritten]
      simp

theorem filled_foldl_write (writes : List (String × String × String)) {settings : Settings}
    (h : settings.Filled) : (writes.foldl write settings).Filled := by
  induction writes generalizing settings with
  | nil => exact h
  | cons setting rest ih => exact ih (h.insert _ Std.TreeMap.isEmpty_insert)

mutual

/-- A change leaves no handle without options. -/
theorem filled_perform {settings : Settings} (h : settings.Filled) :
    ∀ change : Change, (change.perform settings).Filled
  | set handle option value => by
      rw [perform]
      exact h.insert _ Std.TreeMap.isEmpty_insert
  | setEntry entry => by
      rw [perform_setEntry]
      exact filled_foldl_write _ h
  | merge others => by
      rw [perform]
      exact h.merge (filled_performAll filled_empty others)

/-- Changes, one after another, leave no handle without options. -/
theorem filled_performAll {settings : Settings} (h : settings.Filled) :
    ∀ changes : List Change, (performAll changes settings).Filled
  | [] => h
  | change :: rest => filled_performAll (filled_perform h change) rest

end

/-- Settings stay empty behind a change exactly if it writes nothing. -/
theorem isEmpty_perform_iff (change : Change) (settings : Settings) :
    (change.perform settings).isEmpty = true ↔ settings.isEmpty = true ∧ change.writes = [] := by
  cases change with
  | set handle option value => exact isEmpty_foldl_write_iff [(handle, option, value)] settings
  | setEntry entry => rw [perform_setEntry, isEmpty_foldl_write_iff, writes]
  | merge others =>
      rw [perform, isEmpty_merge_iff, writes,
        (filled_performAll filled_empty others).toList_eq_nil_iff]

theorem isEmpty_performAll_iff (changes : List Change) (settings : Settings) :
    (performAll changes settings).isEmpty = true ↔
      settings.isEmpty = true ∧ changes.flatMap writes = [] := by
  induction changes generalizing settings with
  | nil => simp [performAll]
  | cons change rest ih =>
      rw [performAll, ih, isEmpty_perform_iff, List.flatMap_cons, List.append_eq_nil_iff, and_assoc]

end Change

/-- The options of a handle are listed in the order of the bytes of their names. -/
theorem optionsFor_pairwise (settings : Settings) (handle : String) :
    (settings.optionsFor handle).Pairwise fun setting next =>
      Text.bytes setting.1 < Text.bytes next.1 :=
  (Std.TreeMap.ordered_keys_toList (t := settings.group handle)).imp fun h =>
    Text.bytes_lt_bytes (compareOfLessAndEq_eq_lt.mp h)

theorem mem_optionsFor {settings : Settings} {handle option value : String} :
    (option, value) ∈ settings.optionsFor handle ↔ settings.get? handle option = some value :=
  Std.TreeMap.mem_toList_iff_getElem?_eq_some

/-- Settings answer every question as the writes to them tell: an option has the value last written
to it, the options of a handle are those that were written, in the order of the bytes of their
names, and settings are empty if nothing was written. -/
structure HoldsLast (settings : Settings) (writes : List (String × String × String)) : Prop where
  get?_eq : ∀ handle option, settings.get? handle option = lastWrite? writes handle option
  mem_optionsFor : ∀ handle option value, (option, value) ∈ settings.optionsFor handle ↔
    lastWrite? writes handle option = some value
  pairwise_optionsFor : ∀ handle, (settings.optionsFor handle).Pairwise fun setting next =>
    Text.bytes setting.1 < Text.bytes next.1
  mem_toList : ∀ handle option value, (handle, option, value) ∈ settings.toList ↔
    lastWrite? writes handle option = some value
  isEmpty_iff : settings.isEmpty = true ↔ writes = []

theorem Change.holdsLast_performAll (changes : List Change) :
    (performAll changes empty).HoldsLast (changes.flatMap writes) := by
  have hget : ∀ handle option, (performAll changes empty).get? handle option =
      lastWrite? (changes.flatMap writes) handle option := fun handle option => by
    rw [get?_performAll, get?_empty, Option.or_none]
  refine ⟨hget, fun handle option value => ?_, optionsFor_pairwise _,
    fun handle option value => ?_, ?_⟩
  · rw [Settings.mem_optionsFor, hget]
  · rw [Settings.mem_toList, hget]
  · rw [isEmpty_performAll_iff]
    exact and_iff_right rfl

/-- An entry writes its value to the option and the handle without the blanks around them. -/
theorem setEntry_of_isEntry {entry handle option value : String}
    (h : IsEntry entry handle option value) (settings : Settings) :
    settings.setEntry entry = .ok (settings.set (Text.trim handle) (Text.trim option) value) ∧
      (Change.setEntry entry).writes = [(Text.trim handle, Text.trim option, value)] := by
  have hparse := parseEntry?_eq_some_iff.mpr ⟨handle, option, value, h, rfl⟩
  rw [setEntry, Change.writes, hparse]
  exact ⟨rfl, rfl⟩

/-- Any other text is refused and writes nothing. -/
theorem setEntry_of_not_isEntry {entry : String}
    (h : ¬ ∃ handle option value, IsEntry entry handle option value) (settings : Settings) :
    settings.setEntry entry = .error (.malformedSetting entry) ∧
      (Change.setEntry entry).writes = [] := by
  have hparse : parseEntry? entry = none := by
    refine Option.eq_none_iff_forall_ne_some.mpr fun setting hsome => ?_
    obtain ⟨handle, option, value, hentry, -⟩ := parseEntry?_eq_some_iff.mp hsome
    exact h ⟨handle, option, value, hentry⟩
  rw [setEntry, Change.writes, hparse]
  exact ⟨rfl, rfl⟩

/-- Whatever changes were made to settings, they hold for each option what was last written to it,
where taking other settings in writes all that these hold. An entry is set if and only if it reads
`handle:option=value`. Then the value is written as it stands, to the option and the handle without
the blanks around them; otherwise nothing is written and nothing changes. -/
theorem settings_hold_last_writes (changes : List Change) :
    (Change.performAll changes empty).HoldsLast (changes.flatMap Change.writes) ∧
      ∀ (settings : Settings) (entry : String),
        ((∃ changed, settings.setEntry entry = .ok changed) ↔
          ∃ handle option value, IsEntry entry handle option value) ∧
        (∀ handle option value, IsEntry entry handle option value →
          settings.setEntry entry =
            .ok (settings.set (Text.trim handle) (Text.trim option) value) ∧
          (Change.setEntry entry).writes = [(Text.trim handle, Text.trim option, value)]) ∧
        ∀ error, settings.setEntry entry = .error error →
          error = .malformedSetting entry ∧ (Change.setEntry entry).writes = [] ∧
            (Change.setEntry entry).perform settings = settings := by
  refine ⟨Change.holdsLast_performAll changes, fun settings entry => ⟨?_, ?_, ?_⟩⟩
  · constructor
    · rintro ⟨changed, hchanged⟩
      by_contra hnone
      rw [(setEntry_of_not_isEntry hnone settings).1] at hchanged
      cases hchanged
    · rintro ⟨handle, option, value, hentry⟩
      exact ⟨_, (setEntry_of_isEntry hentry settings).1⟩
  · intro handle option value hentry
    exact setEntry_of_isEntry hentry settings
  · intro error herror
    have hnone : ¬ ∃ handle option value, IsEntry entry handle option value := by
      rintro ⟨handle, option, value, hentry⟩
      rw [(setEntry_of_isEntry hentry settings).1] at herror
      cases herror
    obtain ⟨hfails, hwrites⟩ := setEntry_of_not_isEntry hnone settings
    refine ⟨Except.error.inj (herror.symm.trans hfails), hwrites, ?_⟩
    rw [Change.perform, herror]

/-- Changes of every kind: entries with several equals signs, several colons and blanks, entries
that cannot be read, and other settings that are filled, nested or empty. -/
def variedChanges : List Change :=
  [.set "inc" "kw" "#use", .setEntry " inc :\tkw =a=b", .setEntry "inc=kw:c", .setEntry " :k=x",
    .merge [.set "inc" "k" "x", .setEntry "blr",
      .merge [.setEntry "inc:k:l= y", .set "inc" "k" "z"]], .merge []]

theorem settings_hold_last_writes_varied :
    (Change.performAll variedChanges empty).get? "inc" "kw" = some "a=b" ∧
      (Change.performAll variedChanges empty).get? "inc" "k" = some "z" ∧
      (Change.performAll variedChanges empty).get? "inc" "k:l" = some " y" ∧
      (Change.performAll variedChanges empty).get? "" "k" = none ∧
      (Change.performAll variedChanges empty).isEmpty = false ∧
      IsEntry " inc :\tkw =a=b" " inc " "\tkw " "a=b" ∧
      empty.setEntry " inc :\tkw =a=b" = .ok (empty.set "inc" "kw" "a=b") := by
  obtain ⟨hholds, hentries⟩ := settings_hold_last_writes variedChanges
  have hentry : IsEntry " inc :\tkw =a=b" " inc " "\tkw " "a=b" :=
    ⟨⟨" inc :\tkw ", ⟨by decide, by decide⟩, ⟨by decide, by decide⟩⟩, ⟨'i', by decide⟩,
      ⟨'k', by decide⟩⟩
  refine ⟨?_, ?_, ?_, ?_, ?_, hentry, ((hentries empty _).2.1 _ _ _ hentry).1⟩
  · rw [hholds.get?_eq]
    decide +kernel
  · rw [hholds.get?_eq]
    decide +kernel
  · rw [hholds.get?_eq]
    decide +kernel
  · rw [hholds.get?_eq]
    decide +kernel
  · rw [Bool.eq_false_iff, ne_eq, hholds.isEmpty_iff]
    decide +kernel

end Settings

end SourceWeave
