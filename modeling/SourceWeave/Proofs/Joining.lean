import SourceWeave.Proofs.Spelling

/-!
# Where joined paths lead

Folding the components of a path follows it from where one stands: `Path.follow`. A joined path is
followed by following its two parts, `follow_join`, so the normal form of a path is where it leads
from the working directory, `normalize_eq_follow`, and paths with the same normal form lead to the
same place, `normalize_eq_iff`.
-/

namespace SourceWeave

/-- A mark in the middle of a text separates the fields on its two sides. -/
theorem Text.fields_append_cons (mark : Char) (front back : List Char) :
    fields mark (front ++ mark :: back) = fields mark front ++ fields mark back := by
  induction front with
  | nil => simp [fields]
  | cons c rest ih =>
      rw [List.cons_append, fields, fields, ih]
      split
      · rfl
      · cases hfields : fields mark rest with
        | nil => exact absurd hfields (fields_ne_nil mark rest)
        | cons first others => rfl

namespace Path

/-- Where a path leads from a folded path. -/
def follow (path : Path) (start : Folded) : Folded :=
  path.components.foldl Folded.follow start

/-- Where the pieces of a text lead, whatever stands in front of it. -/
def followPieces (cs : List Char) (start : Folded) : Folded :=
  ((pieces cs).filterMap Component.ofPiece?).foldl Folded.follow start

@[simp]
theorem followPieces_nil (start : Folded) : followPieces [] start = start := rfl

/-- A slash in the middle of a text separates two texts that are followed one after the other. -/
theorem followPieces_append (front back : List Char) (start : Folded) :
    followPieces (front ++ '/' :: back) start = followPieces back (followPieces front start) := by
  simp only [followPieces, pieces]
  rw [Text.fields_append_cons, List.filterMap_append, List.foldl_append]

/-- To follow a path is to follow its pieces, from the root if the path is absolute. -/
theorem follow_eq (path : Path) (start : Folded) :
    path.follow start =
      followPieces path.text.toList (if path.isAbsolute then ⟨true, []⟩ else start) := by
  rw [follow, components, shape, isAbsolute]
  unfold Shape.ofChars
  split
  · next hnil =>
    rw [hnil]
    rfl
  · next rest hslash =>
    rw [hslash]
    rfl
  · next hnil hslash =>
    have hrelative : (path.text.toList.head? == some '/') = false := by
      cases htext : path.text.toList with
      | nil => rfl
      | cons c rest =>
          simp only [List.head?_cons, beq_eq_false_iff_ne, ne_eq, Option.some.injEq]
          rintro rfl
          exact hslash rest htext
    rw [hrelative, if_neg (by simp), followPieces]
    split
    · next others heq =>
      -- a leading dot stands for a component that leads nowhere
      rw [heq]
      rfl
    · rfl

/-- An absolute path leads to the same place from everywhere. -/
theorem follow_absolute {path : Path} (h : path.isAbsolute = true) (start other : Folded) :
    path.follow start = path.follow other := by
  rw [follow_eq, follow_eq, h]
  rfl

theorem join_absolute {child : Path} (h : child.isAbsolute = true) (base : Path) :
    base.join child = child :=
  if_pos h

/-- The text of a joined path is that of the base, up to a slash at its end, a slash, and that of
the child. -/
theorem exists_toList_join {base child : Path} (hbase : base.text.toList ≠ [])
    (hchild : ¬ child.isAbsolute = true) :
    ∃ front, (base.join child).text.toList = front ++ '/' :: child.text.toList ∧
      (base.text.toList = front ∨ base.text.toList = front ++ ['/']) := by
  unfold join
  rw [if_neg hchild]
  split
  · next hclosed =>
    have hlast : base.text.toList.getLast? = some '/' := by
      have hne : base.text.isEmpty = false := by
        rw [Bool.eq_false_iff, ne_eq, String.isEmpty_iff, ← String.toList_eq_nil_iff]
        exact hbase
      simpa [hne] using hclosed
    obtain ⟨front, hfront⟩ := List.getLast?_eq_some_iff.mp hlast
    exact ⟨front, by simp [hfront], .inr hfront⟩
  · exact ⟨base.text.toList, by simp, .inl rfl⟩

/-- A joined path begins as its base does. -/
theorem head?_join {base child : Path} (hbase : base.text.toList ≠ [])
    (hchild : ¬ child.isAbsolute = true) :
    (base.join child).text.toList.head? = base.text.toList.head? := by
  obtain ⟨front, htext, hfront | hfront⟩ := exists_toList_join hbase hchild
  · rw [hfront] at hbase
    rw [htext, hfront, List.head?_append_of_ne_nil _ hbase]
  · rw [htext, hfront, List.append_cons, List.head?_append_of_ne_nil _ (by simp)]

/-- Nothing is put in front of a path that is seen from nowhere. -/
theorem join_of_nil {base child : Path} (hbase : base.text.toList = []) :
    base.join child = child := by
  rw [String.toList_eq_nil_iff] at hbase
  simp [join, hbase]

/-- A joined path is followed by following the base and then the child. -/
theorem follow_join (base child : Path) (start : Folded) :
    (base.join child).follow start = child.follow (base.follow start) := by
  by_cases hchild : child.isAbsolute = true
  · rw [join_absolute hchild]
    exact follow_absolute hchild _ _
  · by_cases hbase : base.text.toList = []
    · rw [join_of_nil hbase, follow_eq base, hbase, isAbsolute, hbase]
      rfl
    · obtain ⟨front, htext, hfront⟩ := exists_toList_join hbase hchild
      have habsolute : (base.join child).isAbsolute = base.isAbsolute := by
        rw [isAbsolute, isAbsolute, head?_join hbase hchild]
      have hpieces : ∀ start, followPieces base.text.toList start = followPieces front start := by
        intro start
        rcases hfront with hfront | hfront
        · rw [hfront]
        · rw [hfront, followPieces_append, followPieces_nil]
      rw [follow_eq, follow_eq child, if_neg hchild, follow_eq base, habsolute, htext, hpieces,
        followPieces_append]

/-! ## Normal paths -/

/-- Seen from the working directory, a path is followed from there. -/
theorem foldComponents_absoluteFrom (path cwd : Path) :
    foldComponents (path.absoluteFrom cwd).components = path.follow (cwd.follow .empty) := by
  show (path.absoluteFrom cwd).follow .empty = _
  unfold absoluteFrom
  split
  · next habsolute => exact follow_absolute habsolute _ _
  · exact follow_join cwd path .empty

/-- The normal form of a path is where it leads from the working directory. -/
theorem normalize_eq_follow (path cwd : Path) :
    path.normalize cwd = ⟨(path.follow (cwd.follow .empty)).text⟩ := by
  rw [normalize, foldComponents_absoluteFrom]

/-- Paths have the same normal form exactly if they lead to the same place. -/
theorem normalize_eq_iff {path other cwd : Path} :
    path.normalize cwd = other.normalize cwd ↔
      path.follow (cwd.follow .empty) = other.follow (cwd.follow .empty) := by
  constructor
  · intro h
    have hcomponents := congrArg (foldComponents ·.components) h
    simp only [components_normalize, Folded.foldComponents_components,
      foldComponents_absoluteFrom] at hcomponents
    exact hcomponents
  · intro h
    rw [normalize_eq_follow, normalize_eq_follow, h]

/-! ## Paths that lead downwards -/

/-- A relative path has no component for the root. -/
theorem root_not_mem_components {path : Path} (h : ¬ path.isAbsolute = true) :
    .root ∉ path.components := by
  have hbody : ∀ body : List (List Char), .root ∉ body.filterMap Component.ofPiece? := by
    intro body hroot
    obtain ⟨piece, -, hpiece⟩ := List.mem_filterMap.mp hroot
    unfold Component.ofPiece? at hpiece
    split at hpiece <;> cases hpiece
  rw [components, shape]
  unfold Shape.ofChars
  split
  · simp [Shape.components, Shape.openingComponents]
  · next rest hslash => exact absurd (by simp [isAbsolute, hslash]) h
  · split
    · simp [Shape.components, Shape.openingComponents, hbody]
    · simp [Shape.components, Shape.openingComponents, hbody]

/-- Components that neither go up nor back to the root only add names. -/
theorem exists_foldl_follow {components : List Component} (hroot : .root ∉ components)
    (hparent : .parent ∉ components) :
    ∃ names, ∀ start, components.foldl Folded.follow start =
      { start with stack := names ++ start.stack } := by
  induction components with
  | nil => exact ⟨[], fun start => rfl⟩
  | cons component rest ih =>
      simp only [List.mem_cons, not_or] at hroot hparent
      obtain ⟨names, hnames⟩ := ih hroot.2 hparent.2
      cases component with
      | root => exact absurd rfl hroot.1
      | parent => exact absurd rfl hparent.1
      | current => exact ⟨names, hnames⟩
      | name text =>
          refine ⟨names ++ [text], fun start => ?_⟩
          rw [List.foldl_cons, hnames]
          simp [Folded.follow]

/-- A relative path without `..` leads from different places to different places. -/
theorem follow_injective {path : Path} (hrelative : ¬ path.isAbsolute = true)
    (hparent : .parent ∉ path.components) {start other : Folded}
    (h : path.follow start = path.follow other) : start = other := by
  obtain ⟨names, hnames⟩ :=
    exists_foldl_follow (root_not_mem_components hrelative) hparent
  rw [follow, follow, hnames, hnames] at h
  cases start
  cases other
  simpa using h

end Path

end SourceWeave
