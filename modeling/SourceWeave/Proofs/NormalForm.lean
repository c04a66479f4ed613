import SourceWeave.Proofs.Joining
import Mathlib.Data.List.Infix

/-!
# The canonical text of a path

The normal form of a path spells the names that are left when its components are followed from the
root: a `..` takes the last name back, and at the root there is none to take back. `Path.write` puts
a component onto a text and takes the last one off again, and `foldl_write` says that this leads to
the same text as keeping a list of names. The texts that come out are exactly those that
`IsCanonical` describes, so a normal path is its own normal form: `IsCanonical.normalize_eq`. The
main statement is `normalize_spells_stack`.
-/

namespace SourceWeave

/-- Fields in front and fields behind are joined with one more mark between them. -/
theorem Text.joinFields_append (mark : Char) {front back : List (List Char)} (hfront : front ≠ [])
    (hback : back ≠ []) :
    joinFields mark (front ++ back) = joinFields mark front ++ mark :: joinFields mark back := by
  induction front with
  | nil => exact absurd rfl hfront
  | cons field others ih =>
      cases others with
      | nil =>
          obtain ⟨first, rest, rfl⟩ := List.exists_cons_of_ne_nil hback
          rfl
      | cons next more =>
          show field ++ mark :: joinFields mark (next :: more ++ back) =
            field ++ mark :: joinFields mark (next :: more) ++ mark :: joinFields mark back
          rw [ih (by simp), List.append_assoc, List.cons_append]

namespace Path

/-! ## Names below the root -/

namespace Folded

/-- What begins at the root goes on to do so. -/
theorem rooted_foldl_follow {folded : Folded} (h : folded.rooted = true)
    (components : List Component) : (components.foldl follow folded).rooted = true := by
  induction components generalizing folded with
  | nil => exact h
  | cons component rest ih =>
      refine ih ?_
      cases component with
      | root => rfl
      | current | parent | name => exact h

/-- The pieces of the text of a folded path are its names, and an empty one in front. -/
theorem mem_pieces_text {folded : Folded} (h : ∀ name ∈ folded.stack, IsName name)
    {piece : List Char} (hpiece : piece ∈ pieces folded.text.toList) :
    piece = [] ∨ ∃ name ∈ folded.stack, piece = name.toList := by
  obtain ⟨rooted, stack⟩ := folded
  have hnames : ∀ piece ∈ pieces (Text.joinFields '/' (stack.reverse.map String.toList)),
      piece = [] ∨ ∃ name ∈ stack, piece = name.toList := by
    intro piece hpiece
    by_cases hstack : stack = []
    · subst hstack
      exact .inl (List.mem_singleton.mp hpiece)
    · rw [pieces_joinFields (by simpa using hstack) fun name hname =>
        h name (List.mem_reverse.mp hname)] at hpiece
      obtain ⟨name, hname, rfl⟩ := List.mem_map.mp hpiece
      exact .inr ⟨name, List.mem_reverse.mp hname, rfl⟩
  rw [toList_text] at hpiece
  cases rooted with
  | false => exact hnames piece hpiece
  | true =>
      -- the slash in front cuts off an empty piece
      rcases List.mem_cons.mp hpiece with rfl | hpiece
      · exact .inl rfl
      · exact hnames piece hpiece

end Folded

/-- Seen from an absolute working directory, a path leads to a place below the root. -/
theorem rooted_follow {cwd : Path} (h : cwd.isAbsolute = true) (path : Path) :
    (path.follow (cwd.follow .empty)).rooted = true := by
  have hcwd : (cwd.follow .empty).rooted = true := by
    rw [follow_eq, if_pos h]
    exact Folded.rooted_foldl_follow rfl _
  rw [follow_eq]
  split
  · exact Folded.rooted_foldl_follow rfl _
  · exact Folded.rooted_foldl_follow hcwd _

/-- Normal paths are absolute. -/
theorem isAbsolute_normalize {cwd : Path} (h : cwd.isAbsolute = true) (path : Path) :
    (path.normalize cwd).isAbsolute = true := by
  rw [normalize_eq_follow, isAbsolute, Folded.toList_text, rooted_follow h path]
  rfl

/-- The names that a path leads through are ordinary ones. -/
theorem isName_of_mem_stack {path cwd : Path} {name : String}
    (h : name ∈ (foldComponents (path.absoluteFrom cwd).components).stack) : IsName name :=
  isName_of_mem_components (Folded.mem_stack_foldComponents h)

/-- No piece of a normal path is a dot or two dots. -/
theorem ne_dots_of_mem_pieces_normalize {path cwd : Path} {piece : List Char}
    (h : piece ∈ pieces (path.normalize cwd).text.toList) : piece ≠ ['.'] ∧ piece ≠ ['.', '.'] := by
  rcases Folded.mem_pieces_text (fun _ => isName_of_mem_stack) h with rfl | ⟨name, hname, rfl⟩
  · simp
  · exact ⟨(isName_of_mem_stack hname).ne_dot, (isName_of_mem_stack hname).ne_dots⟩

/-- The names of a directory, from the root on, when one more component is followed. -/
def Component.climb (names : List String) : Component → List String
  | .root => []
  | .current => names
  | .parent => names.dropLast
  | .name text => names ++ [text]

/-- The names that a path leads to from the root, seen from the working directory `cwd`. -/
def stackFrom (path cwd : Path) : List String :=
  (path.absoluteFrom cwd).components.foldl Component.climb []

/-- The names of a folded path are those that its components climb to. -/
theorem reverse_stack_foldl_follow (components : List Component) (start : Folded) :
    (components.foldl Folded.follow start).stack.reverse =
      components.foldl Component.climb start.stack.reverse := by
  induction components generalizing start with
  | nil => rfl
  | cons component rest ih =>
      rw [List.foldl_cons, List.foldl_cons, ih]
      congr 1
      cases component with
      | root => rfl
      | current => rfl
      | parent =>
          show (start.stack.drop 1).reverse = start.stack.reverse.dropLast
          rw [List.drop_one, List.dropLast_reverse]
      | name text => exact List.reverse_cons

/-- The names that a path leads to are those of the folded path, from the first to the last. -/
theorem stackFrom_eq (path cwd : Path) :
    path.stackFrom cwd = (foldComponents (path.absoluteFrom cwd).components).stack.reverse :=
  (reverse_stack_foldl_follow (path.absoluteFrom cwd).components .empty).symm

theorem isName_of_mem_stackFrom {path cwd : Path} {name : String} (h : name ∈ path.stackFrom cwd) :
    IsName name := by
  rw [stackFrom_eq, List.mem_reverse] at h
  exact isName_of_mem_stack h

/-- Seen from an absolute working directory, a path leads from the root to its names. -/
theorem foldComponents_eq {cwd : Path} (h : cwd.isAbsolute = true) (path : Path) :
    foldComponents (path.absoluteFrom cwd).components = ⟨true, (path.stackFrom cwd).reverse⟩ := by
  have hrooted := rooted_follow h path
  rw [← foldComponents_absoluteFrom] at hrooted
  rw [stackFrom_eq, List.reverse_reverse, ← hrooted]

/-! ## Writing onto a text -/

/-- Puts a component onto the text of a path, or takes the last one off it. -/
def write (path : Path) : Component → Path
  | .root => path.join ⟨"/"⟩
  | .current => path
  | .parent => path.parent?.getD path
  | .name text => path.join ⟨text⟩

theorem dropIdleEnd_eq_self {body : List (List Char)} (h : ∀ piece ∈ body, isIdle piece = false) :
    dropIdleEnd body = body := by
  have hlast : body.reverse.dropWhile isIdle = body.reverse := by
    cases hbody : body.reverse with
    | nil => rfl
    | cons last others =>
        have hmem : last ∈ body := List.mem_reverse.mp (hbody ▸ List.mem_cons_self)
        exact List.dropWhile_cons_of_neg (by simp [h last hmem])
  rw [dropIdleEnd, hlast, List.reverse_reverse]

/-- A name is a piece that stands for something. -/
theorem IsName.isIdle_eq {name : String} (h : IsName name) : isIdle name.toList = false := by
  rw [isIdle, Component.ofPiece?_name h]
  rfl

namespace Folded

/-- The text of a folded path that has names ends with the last of them. -/
theorem exists_toList_text (rooted : Bool) (last : String) (others : List String) :
    ∃ front, (text ⟨rooted, last :: others⟩).toList = front ++ last.toList := by
  rw [toList_text, List.reverse_cons, List.map_append]
  by_cases hothers : others = []
  · exact ⟨_, by rw [hothers]; rfl⟩
  · refine ⟨(if rooted then ['/'] else []) ++
      (Text.joinFields '/' (others.reverse.map String.toList) ++ ['/']), ?_⟩
    rw [Text.joinFields_append '/' (by simpa using hothers) (by simp)]
    simp [Text.joinFields]

/-- No slash stands behind the last name. -/
theorem getLast?_text_ne_slash {rooted : Bool} {last : String} {others : List String}
    (h : IsName last) : (text ⟨rooted, last :: others⟩).toList.getLast? ≠ some '/' := by
  obtain ⟨front, hfront⟩ := exists_toList_text rooted last others
  rw [hfront, List.getLast?_append_of_ne_nil _ h.ne_nil]
  exact fun hslash => h.no_slash (List.mem_of_getLast? hslash)

/-- The text of a folded path is put together from its names. -/
theorem chars_opening (folded : Folded) :
    Shape.chars ⟨folded.opening, folded.stack.reverse.map String.toList⟩ = folded.text.toList := by
  rw [toList_text, opening]
  cases folded.rooted <;> rfl

/-- The last component of a folded path is taken off its text, if there is one. -/
theorem parent?_text {folded : Folded} (h : ∀ name ∈ folded.stack, IsName name) :
    (Path.mk folded.text).parent?.getD ⟨folded.text⟩ = ⟨(folded.follow .parent).text⟩ := by
  obtain ⟨rooted, stack⟩ := folded
  cases stack with
  | nil => cases rooted <;> rfl
  | cons last others =>
      have hidle : ∀ names : List String, (∀ name ∈ names, IsName name) →
          dropIdleEnd (names.map String.toList) = names.map String.toList := by
        intro names hnames
        refine dropIdleEnd_eq_self fun piece hpiece => ?_
        obtain ⟨name, hname, rfl⟩ := List.mem_map.mp hpiece
        exact (hnames name hname).isIdle_eq
      have hbody := hidle (last :: others).reverse fun name hname =>
        h name (List.mem_reverse.mp hname)
      have hothers := hidle others.reverse fun name hname =>
        h name (List.mem_cons_of_mem _ (List.mem_reverse.mp hname))
      have hlast : ((last :: others).reverse.map String.toList).reverse =
          last.toList :: others.map String.toList := by
        rw [← List.map_reverse, List.reverse_reverse, List.map_cons]
      rw [parent?, shape_text (by simp) h]
      simp only [hbody, hlast, ← List.map_reverse, hothers, Option.getD_some]
      have hchars := chars_opening ⟨rooted, others⟩
      rw [← String.ofList_toList (s := (follow ⟨rooted, last :: others⟩ .parent).text)]
      exact congrArg (fun cs => Path.mk (String.ofList cs)) hchars

/-- A name is put onto the text of a folded path, with a slash between them where one is needed. -/
theorem join_text {folded : Folded} (h : ∀ name ∈ folded.stack, IsName name) {name : String}
    (hname : IsName name) :
    (Path.mk folded.text).join ⟨name⟩ = ⟨(folded.follow (.name name)).text⟩ := by
  obtain ⟨rooted, stack⟩ := folded
  have hrelative : ¬ (Path.mk name).isAbsolute = true := by
    intro habsolute
    have hhead : name.toList.head? = some '/' := by simpa [isAbsolute] using habsolute
    exact hname.no_slash (List.mem_of_head? hhead)
  cases stack with
  | nil => cases rooted <;> simp [join, hrelative, text, follow]
  | cons last others =>
      have hends : (text ⟨rooted, last :: others⟩).toList.getLast? ≠ some '/' :=
        getLast?_text_ne_slash (h last (by simp))
      have hne : (text ⟨rooted, last :: others⟩).isEmpty = false := by
        obtain ⟨front, hfront⟩ := exists_toList_text rooted last others
        have hlast := (h last (by simp)).ne_nil
        rw [Bool.eq_false_iff, ne_eq, String.isEmpty_iff, ← String.toList_eq_nil_iff, hfront]
        simp [hlast]
      have hjoin : (Path.mk (text ⟨rooted, last :: others⟩)).join ⟨name⟩ =
          ⟨text ⟨rooted, last :: others⟩ ++ "/" ++ name⟩ := by
        simp [join, hrelative, hne, hends]
      rw [hjoin, Path.mk.injEq, ← String.toList_inj, String.toList_append, String.toList_append,
        toList_text, toList_text]
      have hnames : (name :: last :: others).reverse.map String.toList =
          (last :: others).reverse.map String.toList ++ [name.toList] := by
        rw [List.reverse_cons, List.map_append]
        rfl
      show _ = (if rooted then ['/'] else []) ++
        Text.joinFields '/' ((name :: last :: others).reverse.map String.toList)
      rw [hnames, Text.joinFields_append '/' (by simp) (by simp)]
      simp [Text.joinFields]

/-- One more component is written onto the text of a folded path as it is followed. -/
theorem write_text {folded : Folded} (h : ∀ name ∈ folded.stack, IsName name)
    {component : Component} (hcomponent : ∀ name, component = .name name → IsName name) :
    (Path.mk folded.text).write component = ⟨(folded.follow component).text⟩ := by
  cases component with
  | root => exact join_absolute rfl _
  | current => rfl
  | parent => exact parent?_text h
  | name text => exact join_text h (hcomponent text rfl)

/-- Components that are written one after another spell the folded path to which they lead. -/
theorem foldl_write {components : List Component} (hcomponents : ∀ name,
    .name name ∈ components → IsName name) {folded : Folded}
    (h : ∀ name ∈ folded.stack, IsName name) :
    components.foldl write ⟨folded.text⟩ = ⟨(components.foldl follow folded).text⟩ := by
  induction components generalizing folded with
  | nil => rfl
  | cons component rest ih =>
      have hfirst : ∀ name, component = .name name → IsName name := fun name heq =>
        hcomponents name (by simp [heq])
      have hnext : ∀ name ∈ (folded.follow component).stack, IsName name := by
        intro name hname
        cases component with
        | root => cases hname
        | current => exact h name hname
        | parent => exact h name (List.mem_of_mem_drop hname)
        | name text =>
            rcases List.mem_cons.mp hname with rfl | hname
            · exact hfirst name rfl
            · exact h name hname
      rw [List.foldl_cons, List.foldl_cons, write_text h hfirst]
      exact ih (fun name hname => hcomponents name (List.mem_cons_of_mem _ hname)) hnext

end Folded

/-! ## Canonical texts -/

/-- The text is a slash, or one slash in front of each of some names. -/
structure IsCanonical (path : Path) : Prop where
  isAbsolute : path.isAbsolute = true
  ne_dots : ∀ piece ∈ pieces path.text.toList, piece ≠ ['.'] ∧ piece ≠ ['.', '.']
  no_doubled : ¬ ['/', '/'] <:+: path.text.toList
  no_trailing : path.text ≠ "/" → path.text.toList.getLast? ≠ some '/'

/-- Behind the slash in front, a canonical text has no empty pieces. -/
theorem IsCanonical.nil_notMem_pieces {path : Path} (h : path.IsCanonical) {rest : List Char}
    (htext : path.text.toList = '/' :: rest) (hrest : rest ≠ []) : [] ∉ pieces rest := by
  intro hmem
  obtain ⟨front, back, hsplit⟩ := List.append_of_mem hmem
  have hpieces : pieces path.text.toList = ([] :: front) ++ [] :: back := by
    rw [htext, List.cons_append, ← hsplit]
    rfl
  have hjoined : path.text.toList =
      Text.joinFields '/' ([] :: front) ++ '/' :: Text.joinFields '/' ([] :: back) := by
    rw [← Text.joinFields_append '/' (by simp) (by simp), ← hpieces]
    exact (Text.joinFields_fields '/' _).symm
  -- an empty piece lies at the end of the text or between two slashes
  cases back with
  | nil =>
      refine h.no_trailing (fun heq => hrest ?_) ?_
      · rw [heq] at htext
        exact (List.cons.inj htext).2.symm
      · rw [hjoined]
        exact List.getLast?_concat
  | cons next more =>
      refine h.no_doubled
        ⟨Text.joinFields '/' ([] :: front), Text.joinFields '/' (next :: more), ?_⟩
      rw [hjoined, List.append_assoc]
      rfl

/-- A canonical text is its own normal form. -/
theorem IsCanonical.normalize_eq {path : Path} (h : path.IsCanonical) (cwd : Path) :
    path.normalize cwd = path := by
  obtain ⟨rest, htext⟩ : ∃ rest, path.text.toList = '/' :: rest := by
    have hhead : path.text.toList.head? = some '/' := by simpa [Path.isAbsolute] using h.isAbsolute
    exact ⟨_, List.eq_cons_of_mem_head? hhead⟩
  have hfollow : path.follow (cwd.follow .empty) = followPieces rest ⟨true, []⟩ := by
    rw [follow_eq, if_pos h.isAbsolute, htext]
    exact followPieces_append [] rest _
  have hpieces : Text.joinFields '/' (pieces rest) = rest := Text.joinFields_fields '/' rest
  by_cases hrest : rest = []
  · have hslash : path.text = "/" := by
      rw [← String.toList_inj, htext, hrest]
      rfl
    rw [normalize_eq_follow, hfollow, hrest]
    cases path
    exact congrArg Path.mk hslash.symm
  · have hnames : ∀ name ∈ (pieces rest).map String.ofList, IsName name := by
      intro name hname
      obtain ⟨piece, hpiece, rfl⟩ := List.mem_map.mp hname
      have hdots := h.ne_dots piece (by rw [htext]; exact List.mem_cons_of_mem _ hpiece)
      refine ⟨?_, ?_, ?_, ?_⟩ <;> rw [String.toList_ofList]
      · exact ne_of_mem_of_not_mem hpiece (h.nil_notMem_pieces htext hrest)
      · exact hdots.1
      · exact hdots.2
      · exact Text.not_mem_of_mem_fields hpiece
    have hback : ((pieces rest).map String.ofList).map String.toList = pieces rest := by
      simp [Function.comp_def]
    have hplace : followPieces rest ⟨true, []⟩ =
        ⟨true, ((pieces rest).map String.ofList).reverse⟩ := by
      rw [followPieces, ← hback, Folded.filterMap_ofPiece?_names hnames,
        Folded.foldl_follow_names, hback, List.append_nil]
    rw [normalize_eq_follow, hfollow, hplace]
    cases path
    rw [Path.mk.injEq, ← String.toList_inj, Folded.toList_text, List.reverse_reverse, hback,
      hpieces, htext]
    rfl

/-- In the text of a folded path there is a name between two slashes. -/
theorem Folded.no_doubled_text {stack : List String} (h : ∀ name ∈ stack, IsName name) :
    ¬ ['/', '/'] <:+: (text ⟨true, stack⟩).toList := by
  by_cases hstack : stack = []
  · rw [hstack]
    exact fun hdoubled => absurd hdoubled.length_le (by decide)
  · rintro ⟨front, back, hdoubled⟩
    have hnames := pieces_joinFields (List.reverse_ne_nil_iff.mpr hstack) fun name hname =>
      h name (List.mem_reverse.mp hname)
    have hpieces : pieces (text ⟨true, stack⟩).toList =
        [] :: stack.reverse.map String.toList := by
      rw [toList_text]
      exact congrArg ([] :: ·) hnames
    have hsplit : pieces (text ⟨true, stack⟩).toList =
        pieces front ++ [] :: pieces back := by
      rw [← hdoubled, List.append_assoc]
      exact Text.fields_append_cons '/' front ('/' :: back)
    obtain ⟨first, others, hfront⟩ := List.exists_cons_of_ne_nil (Text.fields_ne_nil '/' front)
    rw [hpieces, pieces, hfront, List.cons_append, List.cons.injEq] at hsplit
    have hnil : [] ∈ stack.reverse.map String.toList := by
      rw [hsplit.2]
      simp
    obtain ⟨name, hname, hempty⟩ := List.mem_map.mp hnil
    exact (h name (List.mem_reverse.mp hname)).ne_nil hempty

/-- Normal paths are canonical. -/
theorem isCanonical_normalize {cwd : Path} (hcwd : cwd.isAbsolute = true) (path : Path) :
    (path.normalize cwd).IsCanonical := by
  have htext : (path.normalize cwd).text = Folded.text ⟨true, (path.stackFrom cwd).reverse⟩ := by
    rw [normalize, foldComponents_eq hcwd]
  have hnames : ∀ name ∈ (path.stackFrom cwd).reverse, IsName name := fun name hname =>
    isName_of_mem_stackFrom (List.mem_reverse.mp hname)
  refine ⟨isAbsolute_normalize hcwd path, fun _ => ne_dots_of_mem_pieces_normalize, ?_, ?_⟩
  · rw [htext]
    exact Folded.no_doubled_text hnames
  · rw [htext]
    cases hstack : (path.stackFrom cwd).reverse with
    | nil => exact fun hne => absurd rfl hne
    | cons last others =>
        exact fun _ => Folded.getLast?_text_ne_slash (hnames last (by simp [hstack]))

/-- Seen from an absolute working directory, the normal form of a path is a slash and the names that
are left of its components, joined by slashes. It is what comes out if the components are written
onto a text one after another. It is absolute, without dots, doubled slashes or a slash at its end,
and its own normal form, and paths share it exactly if the same names are left of them. -/
theorem normalize_spells_stack {cwd : Path} (hcwd : cwd.isAbsolute = true) (path : Path) :
    (path.normalize cwd).text = "/" ++ "/".intercalate (path.stackFrom cwd) ∧
      path.normalize cwd = (path.absoluteFrom cwd).components.foldl write ⟨""⟩ ∧
      (path.normalize cwd).IsCanonical ∧
      (∀ other, (path.normalize cwd).normalize other = path.normalize cwd) ∧
      ∀ other : Path, (path.normalize cwd).text = (other.normalize cwd).text ↔
        path.stackFrom cwd = other.stackFrom cwd := by
  have hcanonical := isCanonical_normalize hcwd path
  have htext : ∀ other : Path,
      (other.normalize cwd).text = "/" ++ "/".intercalate (other.stackFrom cwd) := by
    intro other
    rw [normalize, foldComponents_eq hcwd, Folded.text, List.reverse_reverse]
    rfl
  refine ⟨htext path, ?_, hcanonical, hcanonical.normalize_eq, fun other => ⟨fun heq => ?_, ?_⟩⟩
  · have hempty : ∀ name ∈ Folded.empty.stack, IsName name := by simp [Folded.empty]
    exact (Folded.foldl_write (fun _ => isName_of_mem_components) hempty).symm
  · have hplace := normalize_eq_iff.mp (congrArg Path.mk heq)
    rw [← foldComponents_absoluteFrom, ← foldComponents_absoluteFrom, foldComponents_eq hcwd,
      foldComponents_eq hcwd, Folded.mk.injEq] at hplace
    exact List.reverse_injective hplace.2
  · intro heq
    rw [htext, htext, heq]

/-- A path that goes up, back to itself and round in a circle. -/
theorem normalize_spells_stack_winding :
    (Path.mk "..//a/./b/../../c/").stackFrom ⟨"/w/x"⟩ = ["w", "c"] ∧
      ((Path.mk "..//a/./b/../../c/").normalize ⟨"/w/x"⟩).text = "/w/c" ∧
      ((Path.mk "..//a/./b/../../c/").normalize ⟨"/w/x"⟩).IsCanonical ∧
      ((Path.mk "..//a/./b/../../c/").normalize ⟨"/w/x"⟩).text ≠
        ((Path.mk "../../../c").normalize ⟨"/w/x"⟩).text := by
  have hstack : (Path.mk "..//a/./b/../../c/").stackFrom ⟨"/w/x"⟩ = ["w", "c"] := by decide +kernel
  have hother : (Path.mk "../../../c").stackFrom ⟨"/w/x"⟩ = ["c"] := by decide +kernel
  obtain ⟨htext, -, hcanonical, -, hiff⟩ := @normalize_spells_stack ⟨"/w/x"⟩ (by decide +kernel)
    ⟨"..//a/./b/../../c/"⟩
  refine ⟨hstack, ?_, hcanonical, fun heq => ?_⟩
  · rw [htext, hstack]
    decide +kernel
  · rw [hiff, hstack, hother] at heq
    exact absurd heq (by decide)

end Path

end SourceWeave
