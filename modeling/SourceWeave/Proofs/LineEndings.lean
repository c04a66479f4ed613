import SourceWeave.Proofs.Rendering

/-!
# Lines read in one pass

Splitting a text unifies its line endings first and cuts it then. The same lines are found by
reading the text once from left to right, `scanLines`, which takes a carriage return and the line
feed behind it for one ending. They are also what is found in stages, `stagedLines`: pairs of the
two are shortened throughout the text, then the carriage returns that are left are turned into line
feeds, and then the text is cut by a reader that knows about pairs itself. Shortening a pair can put
a carriage return in front of a line feed again, as in a text of two returns and a feed, but by then
the pairs have been dealt with. Lines that are written with an ending of their choice behind each
are read back, unless a carriage return at the end of one line and a line feed that ends an empty
line behind it come to stand side by side. The main statement is `lines_read_in_one_pass`.
-/

namespace SourceWeave.Text

/-! ## Reading in one pass -/

/-- The lines of a text, read from left to right. `read` holds what was read of the current line,
the last character first; behind the last ending there is a line only if something was read. -/
def scanLines (read : List Char) : List Char → List (List Char)
  | [] => if read.isEmpty then [] else [read.reverse]
  | '\r' :: '\n' :: rest => read.reverse :: scanLines [] rest
  | '\r' :: rest => read.reverse :: scanLines [] rest
  | '\n' :: rest => read.reverse :: scanLines [] rest
  | c :: rest => scanLines (c :: read) rest

/-- A text without line feeds is one line, or none if it is empty. -/
theorem cutLines_of_notMem {line : List Char} (h : '\n' ∉ line) :
    cutLines line = if line.isEmpty then [] else [line] := by
  induction line with
  | nil => rfl
  | cons c rest ih =>
      simp only [List.mem_cons, not_or] at h
      rw [cutLines, if_neg fun heq => h.1 heq.symm, ih h.2]
      cases rest <;> rfl

/-- Reading on from the middle of a line finds the lines of what was read and what is to come. -/
theorem cutLines_reverse_append {read : List Char} (h : '\n' ∉ read) (cs : List Char) :
    cutLines (read.reverse ++ unifyEndings cs) = scanLines read cs := by
  have hread : ∀ {read : List Char}, '\n' ∉ read → '\n' ∉ read.reverse :=
    fun hnew => by simpa using hnew
  fun_induction scanLines read cs with
  | case1 read hnil =>
      rw [List.isEmpty_iff.mp hnil]
      rfl
  | case2 read hnil =>
      rw [unifyEndings, List.append_nil, cutLines_of_notMem (hread h), List.isEmpty_reverse,
        if_neg hnil]
  | case3 read rest ih =>
      rw [unifyEndings, cutLines_append (hread h), ← ih List.not_mem_nil]
      rfl
  | case4 read rest hfeed ih =>
      rw [unifyEndings, cutLines_append (hread h), ← ih List.not_mem_nil]
      · rfl
      · exact hfeed
  | case5 read rest ih =>
      rw [unifyEndings_cons (by decide), cutLines_append (hread h), ← ih List.not_mem_nil]
      rfl
  | case6 read c rest _ hreturn hfeed ih =>
      -- the character joins the line that is being read
      rw [unifyEndings_cons hreturn, ← ih (by simpa using ⟨fun heq => hfeed heq.symm, h⟩)]
      simp

/-! ## Reading in stages -/

/-- Writes each carriage return with a line feed behind it as the line feed alone. -/
def shortenPairs : List Char → List Char
  | [] => []
  | '\r' :: '\n' :: rest => '\n' :: shortenPairs rest
  | c :: rest => c :: shortenPairs rest

/-- Cuts a text at its line feeds, each taken together with a carriage return in front of it. -/
def cutFeeds : List Char → List (List Char)
  | [] => []
  | '\r' :: '\n' :: rest => [] :: cutFeeds rest
  | c :: rest =>
    if c = '\n' then [] :: cutFeeds rest
    else
      match cutFeeds rest with
      | [] => [[c]]
      | line :: lines => (c :: line) :: lines

/-- The text with its endings unified in two stages, or as it is if it has no carriage return. -/
def stagedEndings (cs : List Char) : List Char :=
  if '\r' ∈ cs then (shortenPairs cs).map fun c => if c = '\r' then '\n' else c else cs

/-- The lines of a text, found in stages. -/
def stagedLines (text : String) : List String :=
  (cutFeeds (stagedEndings text.toList)).map String.ofList

theorem map_shortenPairs (cs : List Char) :
    (shortenPairs cs).map (fun c => if c = '\r' then '\n' else c) = unifyEndings cs := by
  fun_induction unifyEndings cs with
  | case1 => rfl
  | case2 rest ih => simp [shortenPairs, ih]
  | case3 rest hfeed ih =>
      rw [shortenPairs]
      · simp [ih]
      · exact fun other _ heq => hfeed other heq
  | case4 c rest hpair hreturn ih =>
      rw [shortenPairs]
      · rw [List.map_cons, if_neg hreturn, ih]
      · exact fun other heq _ => hreturn heq

/-- Both ways to unify the endings come to the same. -/
theorem stagedEndings_eq (cs : List Char) : stagedEndings cs = unifyEndings cs := by
  rw [stagedEndings]
  split
  · exact map_shortenPairs cs
  · next h => exact (unifyEndings_eq_self h).symm

/-- Where there are no carriage returns there are no pairs to look for. -/
theorem cutFeeds_eq_cutLines {cs : List Char} (h : '\r' ∉ cs) : cutFeeds cs = cutLines cs := by
  induction cs with
  | nil => rfl
  | cons c rest ih =>
      simp only [List.mem_cons, not_or] at h
      rewrite [cutFeeds, cutLines, ih h.2]
      · rfl
      · intro other heq _
        exact h.1 heq.symm

theorem stagedLines_eq_splitLines (text : String) : stagedLines text = splitLines text := by
  rw [stagedLines, stagedEndings_eq, cutFeeds_eq_cutLines (return_notMem_unifyEndings _),
    splitLines]

/-! ## Lines with endings of their choice -/

/-- What a line can end with. -/
inductive Ending where
  /-- A carriage return and a line feed. -/
  | pair
  /-- A carriage return alone. -/
  | carriageReturn
  /-- A line feed alone. -/
  | lineFeed
deriving DecidableEq, Repr

/-- The characters of an ending. -/
def Ending.chars : Ending → List Char
  | pair => ['\r', '\n']
  | carriageReturn => ['\r']
  | lineFeed => ['\n']

/-- The characters of lines, each with its ending behind it. -/
def endedChars (lines : List (String × Ending)) : List Char :=
  lines.flatMap fun line => line.1.toList ++ line.2.chars

/-- The text of lines, each with its ending behind it. -/
def endedText (lines : List (String × Ending)) : String :=
  String.ofList (endedChars lines)

/-- Two neighbours that run together: a line that ends in a lone carriage return, and an empty line
that ends in a line feed. -/
def RunTogether (line next : String × Ending) : Prop :=
  line.2 = .carriageReturn ∧ next = ("", .lineFeed)

instance (line next : String × Ending) : Decidable (RunTogether line next) :=
  inferInstanceAs (Decidable (_ ∧ _))

theorem endedChars_cons (line : String × Ending) (rest : List (String × Ending)) :
    endedChars (line :: rest) = line.1.toList ++ (line.2.chars ++ endedChars rest) := by
  simp [endedChars]

/-- Characters of a line are read as part of it. -/
theorem scanLines_append {line : List Char} (hreturn : '\r' ∉ line) (hfeed : '\n' ∉ line)
    (read cs : List Char) : scanLines read (line ++ cs) = scanLines (line.reverse ++ read) cs := by
  induction line generalizing read with
  | nil => rfl
  | cons c rest ih =>
      simp only [List.mem_cons, not_or] at hreturn hfeed
      rw [List.cons_append, scanLines, ih hreturn.2 hfeed.2]
      · simp
      · exact fun _ heq _ => hreturn.1 heq.symm
      · exact fun heq => hreturn.1 heq.symm
      · exact fun heq => hfeed.1 heq.symm

/-- An ending closes the line, unless it is a carriage return and a line feed comes next. -/
theorem scanLines_ending (read : List Char) (ending : Ending) {cs : List Char}
    (h : ending = .carriageReturn → ∀ rest, cs ≠ '\n' :: rest) :
    scanLines read (ending.chars ++ cs) = read.reverse :: scanLines [] cs := by
  cases ending with
  | pair => rfl
  | lineFeed => rfl
  | carriageReturn =>
      rw [Ending.chars, List.singleton_append, scanLines]
      exact h rfl

/-- The text of lines begins with a line feed only if the first of them is empty and ends so. -/
theorem eq_of_endedChars_eq_cons {lines : List (String × Ending)}
    (hlines : ∀ line ∈ lines, IsLine line.1) {rest : List Char}
    (h : endedChars lines = '\n' :: rest) :
    ∃ others, lines = ("", .lineFeed) :: others ∧ rest = endedChars others := by
  cases lines with
  | nil => cases h
  | cons line others =>
      obtain ⟨text, ending⟩ := line
      have hfeed : '\n' ∉ text.toList := (hlines _ List.mem_cons_self).2
      rw [endedChars_cons] at h
      cases htext : text.toList with
      | cons c more =>
          rw [htext] at h hfeed
          exact absurd (List.cons.inj h).1.symm (List.ne_of_not_mem_cons hfeed)
      | nil =>
          rw [htext] at h
          obtain rfl := String.toList_eq_nil_iff.mp htext
          cases ending with
          | pair => exact absurd (List.cons.inj h).1 (by decide)
          | carriageReturn => exact absurd (List.cons.inj h).1 (by decide)
          | lineFeed => exact ⟨others, rfl, (List.cons.inj h).2.symm⟩

/-- The first line is read, and then the others if it does not run together with the next. -/
theorem scanLines_endedChars_cons {line : String × Ending} {rest : List (String × Ending)}
    (hlines : ∀ other ∈ line :: rest, IsLine other.1)
    (h : ∀ next ∈ rest.head?, ¬ RunTogether line next) :
    scanLines [] (endedChars (line :: rest)) =
      line.1.toList :: scanLines [] (endedChars rest) := by
  obtain ⟨hreturn, hfeed⟩ := hlines line List.mem_cons_self
  rw [endedChars_cons, scanLines_append hreturn hfeed, List.append_nil, scanLines_ending,
    List.reverse_reverse]
  intro hending behind heq
  obtain ⟨others, rfl, -⟩ :=
    eq_of_endedChars_eq_cons (fun other hother => hlines other (List.mem_cons_of_mem _ hother)) heq
  exact h _ rfl ⟨hending, rfl⟩

/-- Of two lines that run together only the first is read. -/
theorem scanLines_endedChars_runTogether {line next : String × Ending}
    {rest : List (String × Ending)} (hline : IsLine line.1) (h : RunTogether line next) :
    scanLines [] (endedChars (line :: next :: rest)) =
      line.1.toList :: scanLines [] (endedChars rest) := by
  obtain ⟨text, ending⟩ := line
  obtain ⟨rfl, rfl⟩ := h
  rw [endedChars_cons, scanLines_append hline.1 hline.2, List.append_nil, endedChars_cons]
  show (text.toList.reverse).reverse :: scanLines [] (endedChars rest) = _
  rw [List.reverse_reverse]

/-- No more lines are read than were written. -/
theorem length_scanLines_endedChars_le (lines : List (String × Ending))
    (hlines : ∀ line ∈ lines, IsLine line.1) :
    (scanLines [] (endedChars lines)).length ≤ lines.length := by
  match lines with
  | [] => exact Nat.le_refl 0
  | [line] =>
      rw [scanLines_endedChars_cons hlines (by simp)]
      exact Nat.le_refl 1
  | line :: next :: rest =>
      have hnext : ∀ other ∈ next :: rest, IsLine other.1 :=
        fun other hother => hlines other (List.mem_cons_of_mem _ hother)
      by_cases h : RunTogether line next
      · rw [scanLines_endedChars_runTogether (hlines line List.mem_cons_self) h]
        have hrest := length_scanLines_endedChars_le rest
          fun other hother => hnext other (List.mem_cons_of_mem _ hother)
        simp only [List.length_cons]
        omega
      · rw [scanLines_endedChars_cons hlines (by simpa using h)]
        exact Nat.succ_le_succ (length_scanLines_endedChars_le (next :: rest) hnext)

/-- The lines are read back exactly if no two neighbours run together. -/
theorem scanLines_endedChars_eq_iff {lines : List (String × Ending)}
    (hlines : ∀ line ∈ lines, IsLine line.1) :
    scanLines [] (endedChars lines) = lines.map (fun line => line.1.toList) ↔
      lines.IsChain fun line next => ¬ RunTogether line next := by
  induction lines with
  | nil => simp [endedChars, scanLines]
  | cons line rest ih =>
      have hrest : ∀ other ∈ rest, IsLine other.1 :=
        fun other hother => hlines other (List.mem_cons_of_mem _ hother)
      cases rest with
      | nil =>
          rw [scanLines_endedChars_cons hlines (by simp)]
          simp [endedChars, scanLines]
      | cons next others =>
          rw [List.isChain_cons_cons, ← ih hrest]
          by_cases h : RunTogether line next
          · rw [scanLines_endedChars_runTogether (hlines line List.mem_cons_self) h]
            refine ⟨fun heq => ?_, fun hchain => absurd h hchain.1⟩
            -- a line is missing
            have hle := length_scanLines_endedChars_le others
              fun other hother => hrest other (List.mem_cons_of_mem _ hother)
            have hlength := congrArg List.length heq
            simp only [List.length_cons, List.length_map] at hlength
            omega
          · rw [scanLines_endedChars_cons hlines (by simpa using h), List.map_cons,
              List.cons.injEq]
            simp [h]

/-- The lines of a text are what a single pass over it finds, and what is found in stages. None of
them holds a carriage return or a line feed. Lines that are written with any endings behind them are
read back exactly if no line that ends in a lone carriage return has an empty line that ends in a
line feed directly behind it. -/
theorem lines_read_in_one_pass :
    (∀ text, splitLines text = (scanLines [] text.toList).map String.ofList ∧
      stagedLines text = splitLines text ∧ ∀ line ∈ splitLines text, IsLine line) ∧
    ∀ lines : List (String × Ending), (∀ line ∈ lines, IsLine line.1) →
      (splitLines (endedText lines) = lines.map Prod.fst ↔
        lines.IsChain fun line next => ¬ RunTogether line next) := by
  have hscan : ∀ text, splitLines text = (scanLines [] text.toList).map String.ofList := by
    intro text
    rw [splitLines, ← cutLines_reverse_append List.not_mem_nil]
    rfl
  refine ⟨fun text => ⟨hscan text, stagedLines_eq_splitLines text,
    fun line => isLine_of_mem_splitLines⟩, fun lines hlines => ?_⟩
  have hfirst : lines.map Prod.fst = (lines.map fun line => line.1.toList).map String.ofList := by
    simp
  rw [hscan, endedText, String.toList_ofList, hfirst,
    (List.map_injective_iff.mpr fun _ _ => String.ofList_injective).eq_iff]
  exact scanLines_endedChars_eq_iff hlines

/-- Every ending behind every other: a pair and a carriage return in front of a pair, a carriage
return in front of a line that ends in a line feed, and a line feed in front of an empty line. -/
def mixedLines : List (String × Ending) :=
  [("a", .pair), ("", .carriageReturn), ("", .pair), ("b", .carriageReturn), ("c", .lineFeed),
    ("", .lineFeed), ("", .carriageReturn)]

theorem lines_read_in_one_pass_mixed :
    endedText mixedLines = "a\r\n\r\r\nb\rc\n\n\r" ∧
      splitLines "a\r\n\r\r\nb\rc\n\n\r" = ["a", "", "", "b", "c", "", ""] := by
  have htext : endedText mixedLines = "a\r\n\r\r\nb\rc\n\n\r" := by decide
  refine ⟨htext, ?_⟩
  rw [← htext]
  exact (lines_read_in_one_pass.2 mixedLines (by decide)).mpr (by decide)

end SourceWeave.Text
