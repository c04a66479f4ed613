import SourceWeave.Path.Normal
import Mathlib.Data.List.Basic

/-!
# How normal paths are spelled

The text of a folded path has the components that were folded, `components_text`, because a name
never holds a slash and never is a dot or two dots. A normal path is therefore known from its
components alone: `normalize_eq_spell`. Files are looked up by components, so this makes the path of
a file that a reference leads to one of finitely many texts.
-/

namespace SourceWeave

namespace Text

/-- No field holds the mark. -/
theorem not_mem_of_mem_fields {mark : Char} {cs field : List Char} (h : field ∈ fields mark cs) :
    mark ∉ field := by
  induction cs generalizing field with
  | nil =>
      obtain rfl : field = [] := by simpa [fields] using h
      simp
  | cons c rest ih =>
      rw [fields] at h
      split at h
      · rcases List.mem_cons.mp h with rfl | h
        · simp
        · exact ih h
      · next hc =>
        cases hf : fields mark rest with
        | nil => exact absurd hf (fields_ne_nil mark rest)
        | cons first others =>
            rw [hf] at h
            rcases List.mem_cons.mp h with rfl | h
            · have hfirst : mark ∉ first := ih (by simp [hf])
              simp only [List.mem_cons, not_or]
              exact ⟨fun heq => hc heq.symm, hfirst⟩
            · exact ih (by simp [hf, h])

/-- A text without the mark is its only field, in front of what follows a mark. -/
theorem fields_append {mark : Char} {field : List Char} (h : mark ∉ field) (cs : List Char) :
    fields mark (field ++ mark :: cs) = field :: fields mark cs := by
  induction field with
  | nil => simp [fields]
  | cons c rest ih =>
      simp only [List.mem_cons, not_or] at h
      rw [List.cons_append, fields, if_neg fun heq => h.1 heq.symm, ih h.2]

theorem fields_of_not_mem {mark : Char} {field : List Char} (h : mark ∉ field) :
    fields mark field = [field] := by
  induction field with
  | nil => rfl
  | cons c rest ih =>
      simp only [List.mem_cons, not_or] at h
      rw [fields, if_neg fun heq => h.1 heq.symm, ih h.2]

/-- Fields without the mark are what a text put together from them is cut into. -/
theorem fields_joinFields {mark : Char} {parts : List (List Char)} (hne : parts ≠ [])
    (h : ∀ part ∈ parts, mark ∉ part) : fields mark (joinFields mark parts) = parts := by
  induction parts with
  | nil => exact absurd rfl hne
  | cons part others ih =>
      have hpart := h part (by simp)
      cases others with
      | nil => exact fields_of_not_mem hpart
      | cons next more =>
          rw [joinFields, fields_append hpart,
            ih (by simp) fun part hmem => h part (by simp [hmem])]
          simp

theorem joinFields_eq_intercalate (mark : Char) (parts : List (List Char)) :
    joinFields mark parts = [mark].intercalate parts := by
  induction parts with
  | nil => rfl
  | cons part others ih =>
      cases others with
      | nil => simp [joinFields]
      | cons next more =>
          rw [joinFields, ih]
          · simp [List.intercalate]
          · simp

end Text

namespace Path

/-- What can stand between two slashes as an ordinary name. -/
structure IsName (text : String) : Prop where
  ne_nil : text.toList ≠ []
  ne_dot : text.toList ≠ ['.']
  ne_dots : text.toList ≠ ['.', '.']
  no_slash : '/' ∉ text.toList

namespace Component

/-- A name is what its characters stand for. -/
theorem ofPiece?_name {text : String} (h : IsName text) :
    ofPiece? text.toList = some (.name text) := by
  unfold ofPiece?
  split
  · next hnil => exact absurd hnil h.ne_nil
  · next hdot => exact absurd hdot h.ne_dot
  · next hdots => exact absurd hdots h.ne_dots
  · rw [String.ofList_toList]

/-- A piece without slashes that stands for a name is that name. -/
theorem isName_of_ofPiece? {piece : List Char} {text : String} (hslash : '/' ∉ piece)
    (h : ofPiece? piece = some (.name text)) : IsName text := by
  unfold ofPiece? at h
  split at h
  · exact absurd h (by simp)
  · exact absurd h (by simp)
  · exact absurd h (by simp)
  · next hnil hdot hdots =>
    obtain rfl : String.ofList piece = text := by simpa using h
    refine ⟨?_, ?_, ?_, ?_⟩ <;> rw [String.toList_ofList]
    · exact fun heq => hnil heq
    · exact fun heq => hdot heq
    · exact fun heq => hdots heq
    · exact hslash

end Component

/-- Every ordinary component of a path is a name. -/
theorem isName_of_mem_components {path : Path} {text : String}
    (h : .name text ∈ path.components) : IsName text := by
  have hbody : ∀ cs : List Char, ∀ piece ∈ (Shape.ofChars cs).body, '/' ∉ piece := by
    intro cs piece hpiece
    unfold Shape.ofChars at hpiece
    split at hpiece
    · simp at hpiece
    · exact Text.not_mem_of_mem_fields hpiece
    · split at hpiece
      · next others heq =>
        have hmem : piece ∈ pieces cs := heq ▸ List.mem_cons_of_mem _ hpiece
        exact Text.not_mem_of_mem_fields hmem
      · exact Text.not_mem_of_mem_fields hpiece
  rcases List.mem_append.mp h with h | h
  · cases hopening : path.shape.opening <;> simp [Shape.openingComponents, hopening] at h
  · obtain ⟨piece, hpiece, hname⟩ := List.mem_filterMap.mp h
    exact Component.isName_of_ofPiece? (hbody _ piece hpiece) hname

namespace Shape

/-- A text whose first piece is neither empty nor a dot has nothing in front of its pieces. -/
theorem ofChars_bare {cs first : List Char} {others : List (List Char)}
    (hpieces : pieces cs = first :: others) (hnil : first ≠ []) (hdot : first ≠ ['.']) :
    ofChars cs = ⟨.bare, first :: others⟩ := by
  unfold ofChars
  split
  · simp only [pieces, Text.fields, List.cons.injEq] at hpieces
    exact absurd hpieces.1.symm hnil
  · next rest =>
    simp only [pieces, Text.fields, if_true, List.cons.injEq] at hpieces
    exact absurd hpieces.1.symm hnil
  · rw [hpieces]
    split
    · next heq =>
      rw [List.cons.injEq] at heq
      exact absurd heq.1 hdot
    · rfl

end Shape

namespace Folded

/-- The components of a folded path, from the first to the last. -/
def components (folded : Folded) : List Component :=
  (if folded.rooted then [.root] else []) ++ folded.stack.reverse.map .name

/-- Folding the names of a path pushes them one after another. -/
theorem foldl_follow_names (folded : Folded) (names : List String) :
    (names.map Component.name).foldl follow folded =
      { folded with stack := names.reverse ++ folded.stack } := by
  induction names generalizing folded with
  | nil => rfl
  | cons name rest ih =>
      rw [List.map_cons, List.foldl_cons, ih]
      simp [follow]

/-- Folding the components of a folded path gives the folded path back. -/
theorem foldComponents_components (folded : Folded) :
    foldComponents folded.components = folded := by
  obtain ⟨rooted, stack⟩ := folded
  rw [foldComponents, components, List.foldl_append, foldl_follow_names]
  cases rooted <;> simp [follow, empty]

/-- Each name of a folded path is one of the components that were folded. -/
theorem mem_stack_foldComponents {components : List Component} {text : String}
    (h : text ∈ (foldComponents components).stack) : .name text ∈ components := by
  have hfold : ∀ (components : List Component) (start : Folded),
      text ∈ (components.foldl follow start).stack →
        text ∈ start.stack ∨ .name text ∈ components := by
    intro components
    induction components with
    | nil => exact fun start h => .inl h
    | cons component rest ih =>
        intro start h
        rcases ih _ h with h | h
        · cases component with
          | root => simp [follow] at h
          | current => exact .inl h
          | parent => exact .inl (List.mem_of_mem_drop h)
          | name other =>
              rcases List.mem_cons.mp h with rfl | h
              · simp
              · exact .inl h
        · exact .inr (List.mem_cons_of_mem _ h)
  rcases hfold components Folded.empty h with h | h
  · simp [empty] at h
  · exact h

theorem toList_text (folded : Folded) :
    folded.text.toList = (if folded.rooted then ['/'] else []) ++
      Text.joinFields '/' (folded.stack.reverse.map String.toList) := by
  rw [text, Text.joinFields_eq_intercalate, String.toList_append, String.toList_intercalate]
  cases folded.rooted <;> rfl

theorem filterMap_ofPiece?_names {names : List String} (h : ∀ name ∈ names, IsName name) :
    (names.map String.toList).filterMap Component.ofPiece? = names.map .name := by
  induction names with
  | nil => rfl
  | cons name rest ih =>
      rw [List.map_cons, List.filterMap_cons, Component.ofPiece?_name (h name (by simp)),
        ih fun other hmem => h other (by simp [hmem]), List.map_cons]

/-- Names that are joined by slashes are the pieces of the text. -/
theorem pieces_joinFields {names : List String} (hne : names ≠ [])
    (h : ∀ name ∈ names, IsName name) :
    pieces (Text.joinFields '/' (names.map String.toList)) = names.map String.toList := by
  refine Text.fields_joinFields (by simpa using hne) fun part hpart => ?_
  obtain ⟨name, hname, rfl⟩ := List.mem_map.mp hpart
  exact (h name hname).no_slash

/-- How the text of a folded path begins. -/
def opening (folded : Folded) : Opening :=
  if folded.rooted then .root else .bare

/-- The text of a folded path that has names is taken apart into these names. -/
theorem shape_text {folded : Folded} (hne : folded.stack ≠ [])
    (h : ∀ name ∈ folded.stack, IsName name) :
    (Path.mk folded.text).shape = ⟨folded.opening, folded.stack.reverse.map String.toList⟩ := by
  obtain ⟨rooted, stack⟩ := folded
  obtain ⟨name, rest, hstack⟩ : ∃ name rest, stack.reverse = name :: rest :=
    List.exists_cons_of_ne_nil (by simpa using hne)
  have hnames : ∀ other ∈ name :: rest, IsName other := fun other hmem =>
    h other (List.mem_reverse.mp (hstack ▸ hmem))
  have hpieces := pieces_joinFields (by simp) hnames
  rw [Path.shape, toList_text, hstack]
  cases rooted with
  | true => exact congrArg (Shape.mk .root) hpieces
  | false =>
      -- a first name is no dot, so it is not taken for a leading one
      have hname := hnames name (by simp)
      exact Shape.ofChars_bare hpieces hname.ne_nil hname.ne_dot

/-- The text of a folded path has the components of the folded path. -/
theorem components_text {folded : Folded} (h : ∀ name ∈ folded.stack, IsName name) :
    (Path.mk folded.text).components = folded.components := by
  by_cases hne : folded.stack = []
  · obtain ⟨rooted, stack⟩ := folded
    obtain rfl : stack = [] := hne
    cases rooted <;> rfl
  · have hnames : ∀ name ∈ folded.stack.reverse, IsName name := fun name hmem =>
      h name (List.mem_reverse.mp hmem)
    rw [Path.components, shape_text hne h, Shape.components, filterMap_ofPiece?_names hnames,
      components, opening]
    cases folded.rooted <;> rfl

end Folded

/-- The path that components spell once they are folded. -/
def spell (components : List Component) : Path :=
  ⟨(foldComponents components).text⟩

/-- A normal path has the components that were folded to it. -/
theorem components_normalize (path cwd : Path) :
    (path.normalize cwd).components =
      (foldComponents (path.absoluteFrom cwd).components).components :=
  Folded.components_text fun _ h => isName_of_mem_components (Folded.mem_stack_foldComponents h)

/-- A normal path is known from its components. -/
theorem normalize_eq_spell (path cwd : Path) :
    path.normalize cwd = spell (path.normalize cwd).components := by
  rw [components_normalize, spell, Folded.foldComponents_components]
  rfl

end Path

end SourceWeave
