import SourceWeave.Command.Report
import SourceWeave.Proofs.Course

/-!
# Reading a rendered text back

The text of an output is its lines with a line feed behind each: `renderOutput_text`. What is read
back are these lines, whichever of them are empty and however they are spread over scripts, because
a text whose lines are all terminated is cut into them again: `splitLines_terminated`. The one
exception is an output whose only line is empty. Its merged text is empty like that of an output
without lines, and an empty text is left without a line feed. The main statement is
`rendered_text_reads_back`.
-/

namespace SourceWeave

namespace Text

/-- The text holds no line terminator. -/
def IsLine (text : String) : Prop :=
  '\r' ∉ text.toList ∧ '\n' ∉ text.toList

instance (text : String) : Decidable (IsLine text) :=
  inferInstanceAs (Decidable (_ ∧ _))

/-- The lines with a line feed behind each. -/
def terminated (lines : List String) : List Char :=
  lines.flatMap fun line => line.toList ++ ['\n']

theorem terminated_cons (line : String) (rest : List String) :
    terminated (line :: rest) = line.toList ++ '\n' :: terminated rest := by
  simp [terminated]

theorem unifyEndings_cons {c : Char} (h : c ≠ '\r') (rest : List Char) :
    unifyEndings (c :: rest) = c :: unifyEndings rest := by
  rw [unifyEndings]
  · exact fun _ heq _ => h heq
  · exact h

/-- Without carriage returns there is nothing to unify. -/
theorem unifyEndings_eq_self {cs : List Char} (h : '\r' ∉ cs) : unifyEndings cs = cs := by
  induction cs with
  | nil => rfl
  | cons c rest ih =>
      simp only [List.mem_cons, not_or] at h
      rw [unifyEndings_cons (fun heq => h.1 heq.symm), ih h.2]

/-- A text is cut behind its first line. -/
theorem cutLines_append {line : List Char} (h : '\n' ∉ line) (rest : List Char) :
    cutLines (line ++ '\n' :: rest) = line :: cutLines rest := by
  induction line with
  | nil => rfl
  | cons c others ih =>
      simp only [List.mem_cons, not_or] at h
      rw [List.cons_append, cutLines, if_neg fun heq => h.1 heq.symm, ih h.2]

/-- Lines that are all terminated are read back. -/
theorem splitLines_terminated {lines : List String} (h : ∀ line ∈ lines, IsLine line) :
    splitLines (String.ofList (terminated lines)) = lines := by
  have hreturn : '\r' ∉ terminated lines := by
    intro hmem
    obtain ⟨line, hline, hchar⟩ := List.mem_flatMap.mp hmem
    simp [(h line hline).1] at hchar
  rw [splitLines, String.toList_ofList, unifyEndings_eq_self hreturn]
  clear hreturn
  induction lines with
  | nil => rfl
  | cons line rest ih =>
      rw [terminated_cons, cutLines_append (h line (by simp)).2, List.map_cons,
        String.ofList_toList, ih fun other hother => h other (by simp [hother])]

/-- A line feed behind joined lines terminates the last of them. -/
theorem toList_joinWith_append {lines : List String} (h : lines ≠ []) :
    (joinWith "\n" lines ++ "\n").toList = terminated lines := by
  induction lines with
  | nil => exact absurd rfl h
  | cons line rest ih =>
      cases rest with
      | nil => simp [joinWith, terminated]
      | cons next more =>
          have hjoin : joinWith "\n" (line :: next :: more) =
              line ++ "\n" ++ joinWith "\n" (next :: more) := by
            simp [joinWith, String.intercalate_cons_cons]
          rw [terminated_cons, ← ih (by simp), hjoin]
          simp

/-- Unified endings hold no carriage return. -/
theorem return_notMem_unifyEndings (cs : List Char) : '\r' ∉ unifyEndings cs := by
  fun_induction unifyEndings cs with
  | case1 => simp
  | case2 rest ih => simpa using ih
  | case3 rest _ ih => simpa using ih
  | case4 c rest _ hc ih => simpa using ⟨fun heq => hc heq.symm, ih⟩

/-- The lines that a text is cut into hold characters of the text, and no line feed. -/
theorem mem_of_mem_cutLines {cs line : List Char} (h : line ∈ cutLines cs) {c : Char}
    (hc : c ∈ line) : c ∈ cs ∧ c ≠ '\n' := by
  induction cs generalizing line with
  | nil => cases h
  | cons first rest ih =>
      rw [cutLines] at h
      split at h
      · rcases List.mem_cons.mp h with rfl | hrest
        · cases hc
        · exact (ih hrest hc).imp_left (List.mem_cons_of_mem first)
      · next hfirst =>
        split at h
        · obtain rfl := List.mem_singleton.mp h
          obtain rfl := List.mem_singleton.mp hc
          exact ⟨by simp, hfirst⟩
        · next opened others hcut =>
          -- the first character stands in front of the first line, the other lines stay
          rcases List.mem_cons.mp h with rfl | hother
          · rcases List.mem_cons.mp hc with rfl | hopened
            · exact ⟨by simp, hfirst⟩
            · exact (ih (by rw [hcut]; simp) hopened).imp_left (List.mem_cons_of_mem first)
          · exact (ih (by rw [hcut]; simp [hother]) hc).imp_left (List.mem_cons_of_mem first)

/-- What a text is split into are lines. -/
theorem isLine_of_mem_splitLines {text line : String} (h : line ∈ splitLines text) :
    IsLine line := by
  obtain ⟨cs, hcs, rfl⟩ := List.mem_map.mp h
  rw [IsLine, String.toList_ofList]
  exact ⟨fun hc => return_notMem_unifyEndings _ (mem_of_mem_cutLines hcs hc).1,
    fun hc => (mem_of_mem_cutLines hcs hc).2 rfl⟩

end Text

namespace Command

open Text

/-- The merged text is empty without lines, and with a single empty line. -/
theorem merged_eq_empty_iff (output : Output) :
    output.merged = "" ↔ output.lines = [] ∨ output.lines = [""] := by
  show joinWith "\n" output.lines = "" ↔ _
  cases output.lines with
  | nil => simp [joinWith]
  | cons line rest =>
      cases rest with
      | nil => simp [joinWith]
      | cons next more => simp [joinWith, String.intercalate_cons_cons]

/-- The text of an output is its lines with a line feed behind each, unless one empty line is all
there is. -/
theorem renderOutput_text (output : Output) :
    renderOutput output .text =
      if output.lines = [""] then "" else String.ofList (terminated output.lines) := by
  show (if output.merged.isEmpty then output.merged else output.merged ++ "\n") = _
  by_cases hmerged : output.merged = ""
  · rw [hmerged]
    rcases (merged_eq_empty_iff output).mp hmerged with hlines | hlines
    · rw [hlines]
      rfl
    · rw [hlines]
      rfl
  · obtain ⟨hsome, hblank⟩ := not_or.mp (mt (merged_eq_empty_iff output).mpr hmerged)
    rw [if_neg (by simpa using hmerged), if_neg hblank, ← toList_joinWith_append hsome,
      String.ofList_toList]
    rfl

/-- What is read back from the text of an output. -/
theorem splitLines_renderOutput {output : Output} (h : ∀ line ∈ output.lines, IsLine line) :
    splitLines (renderOutput output .text) =
      if output.lines = [""] then [] else output.lines := by
  rw [renderOutput_text]
  split
  · rfl
  · exact splitLines_terminated h

/-- The text of an output of lines reads back as these lines, whichever of them are empty and
however they are spread over the scripts. An output whose only line is empty is the one exception:
its text is empty and reads back as no line. -/
theorem rendered_text_reads_back {output : Output} (h : ∀ line ∈ output.lines, IsLine line) :
    (output.lines ≠ [""] → splitLines (renderOutput output .text) = output.lines) ∧
      (output.lines = [""] →
        renderOutput output .text = "" ∧ splitLines (renderOutput output .text) = []) := by
  rw [splitLines_renderOutput h]
  refine ⟨fun hlines => if_neg hlines, fun hlines => ⟨?_, if_pos hlines⟩⟩
  rw [renderOutput_text, if_pos hlines]

/-- A script without lines between scripts that begin and end with an empty line. -/
def gappedOutput : Output :=
  ⟨[⟨"/a", ⟨"/a"⟩, ["", "x", ""]⟩, ⟨"/b", ⟨"/b"⟩, []⟩, ⟨"/c", ⟨"/c"⟩, [""]⟩]⟩

theorem rendered_text_reads_back_gapped :
    (∀ line ∈ gappedOutput.lines, IsLine line) ∧ gappedOutput.lines = ["", "x", "", ""] ∧
      renderOutput gappedOutput .text = "\nx\n\n\n" ∧
      splitLines (renderOutput gappedOutput .text) = gappedOutput.lines :=
  ⟨by decide, by decide, by decide,
    (rendered_text_reads_back (show ∀ line ∈ gappedOutput.lines, IsLine line by decide)).1
      (by decide)⟩

/-- A file that holds one empty line. -/
def blankFiles : MemoryFiles :=
  .ofList [(⟨"/a"⟩, "\n")]

/-- What a run puts out for a file with one empty line. -/
def blankOutput : Output :=
  ⟨[⟨"/a", ⟨"/a"⟩, [""]⟩]⟩

set_option maxRecDepth 10000 in
/-- A run puts out a single empty line, and its text does not read back as that line. -/
theorem blank_output_lost :
    (∃ final, Job.run { inputs := ["/a"] } blankFiles.view [(.inl {} : Builtin)] 9
      (Session.start ⟨"/"⟩) = .ok (some blankOutput) final) ∧
      (∀ line ∈ blankOutput.lines, IsLine line) ∧
      splitLines (renderOutput blankOutput .text) ≠ blankOutput.lines := by
  refine ⟨Run.exists_final ?_, by decide, by decide⟩
  decide +kernel

end Command

end SourceWeave
