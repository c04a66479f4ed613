import SourceWeave.Proofs.QuotedNames

/-!
# What cutting a reference leaves out

The tokens of a reference hold all of its characters but for the blanks outside quotes, in their
order: `flatten_tokensFrom`. A blank outside quotes always separates, so that what stands in front
of it and what stands behind it are cut by themselves: `tokensFrom_append_cons`. Only the last token
can be left between quotes or behind a backslash. So the tokens with blanks between them are cut at
these blanks and nowhere else, and the same tokens come out. The main statement is
`tokens_lose_separators_only`.
-/

namespace SourceWeave.Reference

namespace Mode

variable {mode : Mode} {c : Char}

/-! ## Blanks outside quotes -/

/-- The characters without the blanks that stand outside quotes. -/
def unspaced : Mode → List Char → List Char
  | _, [] => []
  | mode, c :: rest =>
    if mode.mark? = none ∧ Text.isBlank c = true then (mode.next c).unspaced rest
    else c :: (mode.next c).unspaced rest

/-- A token ends at the blanks outside quotes. -/
theorem cuts_iff : mode.cuts c = true ↔ mode.mark? = none ∧ Text.isBlank c = true := by
  cases mode <;> simp [cuts, mark?]

/-- Where a token ends no quotes are opened. -/
theorem next_of_cuts (h : mode.cuts c = true) : mode.next c = mode := by
  obtain rfl := eq_outside_of_cuts h
  have hblank : Text.isBlank c = true := h
  have hquote : Text.isQuote c = false := by
    rw [Text.isQuote, Bool.or_eq_false_iff, beq_eq_false_iff_ne, beq_eq_false_iff_ne]
    constructor <;> rintro rfl <;> exact absurd hblank (by decide)
  rw [next, hquote]
  rfl

end Mode

theorem flatten_flush (current : List Char) : (flush current).flatten = current.reverse := by
  cases current <;> simp [flush]

/-- The tokens hold what was read and what is to come, without the blanks outside quotes. -/
theorem flatten_tokensFrom (mode : Mode) (current cs : List Char) :
    (tokensFrom mode current cs).flatten = current.reverse ++ mode.unspaced cs := by
  fun_induction tokensFrom mode current cs with
  | case1 mode current => rw [flatten_flush, Mode.unspaced, List.append_nil]
  | case2 mode current c rest hcuts ih =>
      rw [List.flatten_append, flatten_flush, ih, Mode.unspaced, if_pos (Mode.cuts_iff.mp hcuts),
        Mode.next_of_cuts hcuts]
      rfl
  | case3 mode current c rest hcuts ih =>
      rw [ih, Mode.unspaced, if_neg (mt Mode.cuts_iff.mpr hcuts), List.reverse_cons,
        List.append_assoc]
      rfl

/-! ## Cutting again -/

/-- At a blank outside quotes a reference falls into two parts, which are cut by themselves. -/
theorem tokensFrom_append_cons {mode : Mode} {front : List Char}
    (hend : mode.after front = .outside) {c : Char} (hc : Text.isBlank c = true)
    (current back : List Char) :
    tokensFrom mode current (front ++ c :: back) =
      tokensFrom mode current front ++ tokensFrom .outside [] back := by
  induction front generalizing mode current with
  | nil =>
      obtain rfl : mode = .outside := hend
      have hcuts : Mode.outside.cuts c = true := hc
      simp only [List.nil_append, tokensFrom, hcuts, if_true]
  | cons d rest ih =>
      have hrest : (mode.next d).after rest = .outside := hend
      rw [List.cons_append, tokensFrom, tokensFrom]
      split
      · next hcuts =>
        rw [Mode.next_of_cuts hcuts] at hrest
        rw [ih hrest, List.append_assoc]
      · exact ih hrest _

/-- A token is not empty, and it holds no character at which it would end. -/
theorem of_mem_tokensFrom {mode : Mode} {current cs token : List Char}
    (h : token ∈ tokensFrom mode current cs)
    (huncut : Mode.outside.uncut current.reverse = true)
    (hafter : Mode.outside.after current.reverse = mode) :
    token ≠ [] ∧ Mode.outside.uncut token = true := by
  have hflush : ∀ {current : List Char}, Mode.outside.uncut current.reverse = true →
      token ∈ flush current → token ≠ [] ∧ Mode.outside.uncut token = true := by
    intro current huncut hmem
    rw [flush] at hmem
    split at hmem
    · cases hmem
    · next hne =>
      obtain rfl := List.mem_singleton.mp hmem
      exact ⟨by simpa using hne, huncut⟩
  fun_induction tokensFrom mode current cs with
  | case1 mode current => exact hflush huncut h
  | case2 mode current c rest hcuts ih =>
      rcases List.mem_append.mp h with h | h
      · exact hflush huncut h
      · exact ih h rfl (Mode.eq_outside_of_cuts hcuts).symm
  | case3 mode current c rest hcuts ih =>
      obtain ⟨huncut', hafter'⟩ := Mode.uncut_reverse_cons huncut hafter hcuts
      exact ih h huncut' hafter'

/-- A text that holds no character at which a token would end is one token. -/
theorem tokensFrom_of_uncut {token : List Char} (hne : token ≠ [])
    (h : Mode.outside.uncut token = true) : tokensFrom .outside [] token = [token] := by
  have hread := tokensFrom_append h [] []
  rw [List.append_nil, List.append_nil, tokensFrom, flush, List.isEmpty_reverse,
    List.reverse_reverse] at hread
  rw [hread, if_neg (by simpa using hne)]

/-- Tokens with blanks between them are cut at these blanks only, if none of them is empty or would
be cut, and all but the last end outside quotes. -/
theorem tokensFrom_intercalate {tokens : List (List Char)} (hne : ∀ token ∈ tokens, token ≠ [])
    (huncut : ∀ token ∈ tokens, Mode.outside.uncut token = true)
    (hclosed : ∀ token ∈ tokens.dropLast, Mode.outside.after token = .outside) :
    tokensFrom .outside [] ([' '].intercalate tokens) = tokens := by
  induction tokens with
  | nil => rfl
  | cons token rest ih =>
      have hfirst := tokensFrom_of_uncut (hne token List.mem_cons_self)
        (huncut token List.mem_cons_self)
      cases rest with
      | nil => rw [List.intercalate_singleton, hfirst]
      | cons next others =>
          rw [List.dropLast_cons_cons, List.forall_mem_cons] at hclosed
          have hrest := ih (fun other hother => hne other (List.mem_cons_of_mem _ hother))
            (fun other hother => huncut other (List.mem_cons_of_mem _ hother)) hclosed.2
          rw [List.intercalate_cons_cons, List.append_assoc, List.singleton_append,
            tokensFrom_append_cons hclosed.1 (by decide), hfirst, hrest]
          rfl

/-- No token of a reference is empty. One behind the other they are the reference without the blanks
outside quotes, and with a blank between any two of them they are cut into the same tokens again. A
blank outside quotes always separates: what is in front of it and what is behind it are cut by
themselves. -/
theorem tokens_lose_separators_only (reference : String) :
    (∀ token ∈ tokens reference, token ≠ "") ∧
    String.join (tokens reference) = String.ofList (Mode.outside.unspaced reference.toList) ∧
    tokens (" ".intercalate (tokens reference)) = tokens reference ∧
    ∀ front c back, reference = front ++ String.singleton c ++ back → Text.isBlank c = true →
      Mode.outside.after front.toList = .outside →
        tokens reference = tokens front ++ tokens back := by
  have htokens : (tokens reference).map String.toList =
      tokensFrom .outside [] reference.toList := by
    simp [tokens]
  refine ⟨?_, ?_, ?_, ?_⟩
  · rintro token htoken rfl
    have hmem : [] ∈ tokensFrom .outside [] reference.toList :=
      htokens ▸ List.mem_map_of_mem htoken
    exact (of_mem_tokensFrom hmem rfl rfl).1 rfl
  · rw [← String.toList_inj, String.toList_join, List.flatMap_def, htokens, flatten_tokensFrom,
      String.toList_ofList]
    rfl
  · have hagain : tokensFrom .outside [] (" ".intercalate (tokens reference)).toList =
        tokensFrom .outside [] reference.toList := by
      rw [String.toList_intercalate, htokens]
      exact tokensFrom_intercalate (fun token htoken => (of_mem_tokensFrom htoken rfl rfl).1)
        (fun token htoken => (of_mem_tokensFrom htoken rfl rfl).2)
        fun token htoken => (of_mem_dropLast_tokensFrom htoken rfl rfl).2
    rw [tokens, hagain, tokens]
  · rintro front c back rfl hc hend
    simp only [tokens, String.toList_append, String.toList_singleton, List.append_assoc,
      List.singleton_append]
    rw [tokensFrom_append_cons hend hc, List.map_append]

/-- A reference that ends behind a backslash between quotes. The two blanks outside quotes are lost,
and the two between quotes are kept. -/
theorem tokens_lose_separators_only_open :
    tokens "lib/a  'b \\' c\\" = tokens "lib/a" ++ tokens " 'b \\' c\\" ∧
      String.join (tokens "lib/a  'b \\' c\\") = "lib/a'b \\' c\\" ∧
      tokens "lib/a 'b \\' c\\" = tokens "lib/a  'b \\' c\\" := by
  obtain ⟨-, hjoin, hagain, hparts⟩ := tokens_lose_separators_only "lib/a  'b \\' c\\"
  have htokens : tokens "lib/a  'b \\' c\\" = ["lib/a", "'b \\' c\\"] := by decide
  refine ⟨hparts "lib/a" ' ' " 'b \\' c\\" (by decide) (by decide) (by decide), ?_, ?_⟩
  · rw [hjoin]
    decide
  · rw [htokens] at hagain ⊢
    exact hagain

end SourceWeave.Reference
