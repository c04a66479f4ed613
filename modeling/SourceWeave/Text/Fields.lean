/-!
# Fields of a text

A text cut at every occurrence of a mark, and put together again.
-/

namespace SourceWeave.Text

/-- Cuts a text at each `mark`. There is one field more than there are marks. -/
def fields (mark : Char) : List Char → List (List Char)
  | [] => [[]]
  | c :: rest =>
    if c = mark then [] :: fields mark rest
    else
      match fields mark rest with
      | [] => [[c]]
      | field :: others => (c :: field) :: others

/-- Writes fields one after another with a `mark` between them. -/
def joinFields (mark : Char) : List (List Char) → List Char
  | [] => []
  | [field] => field
  | field :: others => field ++ mark :: joinFields mark others

theorem fields_ne_nil (mark : Char) (cs : List Char) : fields mark cs ≠ [] := by
  cases cs with
  | nil => simp [fields]
  | cons c rest =>
    rw [fields]
    split
    · simp
    · split <;> simp

/-- Putting the fields of a text together gives the text back. -/
@[simp]
theorem joinFields_fields (mark : Char) (cs : List Char) :
    joinFields mark (fields mark cs) = cs := by
  induction cs with
  | nil => rfl
  | cons c rest ih =>
    rw [fields]
    split
    · next h =>
      subst h
      cases hf : fields c rest with
      | nil => exact absurd hf (fields_ne_nil c rest)
      | cons field others => rw [hf] at ih; simp [joinFields, ih]
    · cases hf : fields mark rest with
      | nil => exact absurd hf (fields_ne_nil mark rest)
      | cons field others =>
        rw [hf] at ih
        cases others with
        | nil => simpa [joinFields] using ih
        | cons next more => simpa [joinFields] using ih

end SourceWeave.Text
