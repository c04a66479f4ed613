import SourceWeave.Plugin.Reference
import Mathlib.Data.List.Basic

/-!
# Where quoted tokens end

A reference is cut into tokens by one reader and its tokens are unquoted by another. The first takes
a backslash for an escape between quotes of either kind, the second between double quotes only. Both
stand between the same quotes at every character of a token exactly if the first never meets a
single quote that is escaped between single quotes, and then the second ends where the token does:
`quotes_end_alike`. The step lemma is `Aligned.next`. Otherwise a token can end where the second
reader is still between quotes: `escaped_quote_ends_apart`.
-/

namespace SourceWeave

namespace Reference

/-! ## Cutting tokens -/

namespace Mode

/-- Where the reader stands behind some characters. -/
def after (mode : Mode) (cs : List Char) : Mode :=
  cs.foldl next mode

/-- Tells whether none of the characters ends a token. -/
def uncut : Mode → List Char → Bool
  | _, [] => true
  | mode, c :: rest => !mode.cuts c && (mode.next c).uncut rest

/-- The kind of quotes that the reader stands between, if any. -/
def mark? : Mode → Option Char
  | outside => none
  | inside mark | escaped mark => some mark

/-- Tells whether a single quote is escaped between single quotes. -/
def hidesQuote : Mode → List Char → Bool
  | _, [] => false
  | mode, c :: rest => (mode == escaped '\x27' && c == '\x27') || (mode.next c).hidesQuote rest

theorem after_append (mode : Mode) (cs ds : List Char) :
    mode.after (cs ++ ds) = (mode.after cs).after ds :=
  List.foldl_append

theorem uncut_append (mode : Mode) (cs ds : List Char) :
    mode.uncut (cs ++ ds) = (mode.uncut cs && (mode.after cs).uncut ds) := by
  induction cs generalizing mode with
  | nil => rfl
  | cons c rest ih =>
      rw [List.cons_append, uncut, uncut, ih, Bool.and_assoc]
      rfl

/-- A token ends outside quotes only. -/
theorem eq_outside_of_cuts {mode : Mode} {c : Char} (h : mode.cuts c = true) : mode = outside := by
  cases mode with
  | outside => rfl
  | inside mark => cases h
  | escaped mark => cases h

/-- A character that ends no token is read as part of the current one. -/
theorem uncut_reverse_cons {mode : Mode} {current : List Char} {c : Char}
    (huncut : outside.uncut current.reverse = true) (hafter : outside.after current.reverse = mode)
    (hcuts : ¬ mode.cuts c = true) :
    outside.uncut (c :: current).reverse = true ∧
      outside.after (c :: current).reverse = mode.next c := by
  rw [List.reverse_cons, uncut_append, after_append, huncut, hafter]
  exact ⟨by simpa [uncut] using hcuts, rfl⟩

end Mode

/-- A token in front of others ends outside quotes, and was not cut before. -/
theorem of_mem_dropLast_tokensFrom {mode : Mode} {current cs token : List Char}
    (h : token ∈ (tokensFrom mode current cs).dropLast)
    (huncut : Mode.outside.uncut current.reverse = true)
    (hafter : Mode.outside.after current.reverse = mode) :
    Mode.outside.uncut token = true ∧ Mode.outside.after token = .outside := by
  fun_induction tokensFrom mode current cs with
  | case1 mode current =>
      rw [flush] at h
      split at h <;> cases h
  | case2 mode current c rest hcuts ih =>
      -- what was read so far is a token, and another one begins
      have hmem : token ∈ flush current ∨ token ∈ (tokensFrom mode [] rest).dropLast := by
        rw [List.dropLast_append] at h
        split at h
        · exact .inl (List.dropLast_subset _ h)
        · exact List.mem_append.mp h
      have hmode := Mode.eq_outside_of_cuts hcuts
      rcases hmem with hmem | hmem
      · rw [flush] at hmem
        split at hmem
        · cases hmem
        · obtain rfl := List.mem_singleton.mp hmem
          exact ⟨huncut, hafter.trans hmode⟩
      · exact ih hmem rfl hmode.symm
  | case3 mode current c rest hcuts ih =>
      obtain ⟨huncut', hafter'⟩ := Mode.uncut_reverse_cons huncut hafter hcuts
      exact ih h huncut' hafter'

end Reference

namespace Text

/-! ## Unquoting -/

namespace QuoteMode

/-- Where the reader stands behind one more character. An escape is taken for the one character
behind the backslash. -/
def next : QuoteMode → Char → QuoteMode
  | outside, c => if c = '\x27' then single else if c = '\x22' then double else outside
  | single, c => if c = '\x27' then outside else single
  | double, c => if c = '\x22' then outside else if c = '\\' then escape else double
  | escape, _ | brace, _ | code _, _ => double

/-- Where the reader stands behind some characters. -/
def after (mode : QuoteMode) (cs : List Char) : QuoteMode :=
  cs.foldl next mode

/-- The kind of quotes that the reader stands between, if any. -/
def mark? : QuoteMode → Option Char
  | outside => none
  | single => some '\x27'
  | double | escape | brace | code _ => some '\x22'

/-- Tells whether blanks stand between quotes only. -/
def blanksQuoted : QuoteMode → List Char → Bool
  | _, [] => true
  | mode, c :: rest => (mode != outside || !isBlank c) && (mode.next c).blanksQuoted rest

/-- The mode with what is left of an escape taken for ordinary characters. -/
def plain : QuoteMode → QuoteMode
  | brace | code _ => double
  | mode => mode

end QuoteMode

/-- A character that is no digit makes no number. -/
theorem hexNumber?_eq_none {cs : List Char} {c : Char} (hmem : c ∈ cs) (h : hexValue? c = none) :
    hexNumber? cs = none := by
  rw [hexNumber?]
  generalize 0 = n
  induction cs generalizing n with
  | nil => cases hmem
  | cons d rest ih =>
      rw [List.foldlM_cons]
      cases hd : hexValue? d with
      | none => rfl
      | some digit =>
          rcases List.mem_cons.mp hmem with rfl | hrest
          · rw [h] at hd
            cases hd
          · exact ih hrest _

/-- An escape that holds a quote or a backslash between its braces stands for nothing. -/
theorem charOfHex?_eq_none {cs : List Char} {c : Char} (hmem : c ∈ cs)
    (h : c = '\x22' ∨ c = '\\') : charOfHex? cs = none := by
  have hvalue : hexValue? c = none := by
    rcases h with rfl | rfl <;> decide
  have hplus : c ≠ '+' := by
    rcases h with rfl | rfl <;> decide
  cases cs with
  | nil => cases hmem
  | cons first rest =>
      by_cases hfirst : first = '+'
      · subst hfirst
        have hrest : c ∈ rest := (List.mem_cons.mp hmem).resolve_left hplus
        unfold charOfHex?
        simp [hexNumber?_eq_none hrest hvalue]
      · unfold charOfHex?
        simp [hfirst, hexNumber?_eq_none hmem hvalue]

theorem unescape_code_eq_none {read : List Char} {c : Char} (hmem : c ∈ read)
    (h : c = '\x22' ∨ c = '\\') (cs : List Char) : unescape (.code read) cs = none := by
  have hnone : charOfHex? read.reverse = none := charOfHex?_eq_none (List.mem_reverse.mpr hmem) h
  induction cs generalizing read with
  | nil => rw [unescape, hnone, Option.map_none]
  | cons d rest ih =>
      rw [unescape]
      split
      · rw [hnone, Option.bind_none]
      · exact ih (List.mem_cons_of_mem d hmem)
          (charOfHex?_eq_none (List.mem_reverse.mpr (List.mem_cons_of_mem d hmem)) h)

/-- What is read in front of two parts is read in front of the first of them. -/
theorem map_cons_bind (c : Char) (front? back? : Option (List Char)) :
    (front?.bind fun front => back?.map (front ++ ·)).map (c :: ·) =
      (front?.map (c :: ·)).bind fun front => back?.map (front ++ ·) := by
  cases front? <;> cases back? <;> rfl

/-- Behind characters that end outside quotes, what follows is read by itself. -/
theorem unescape_append (mode : QuoteMode) {cs : List Char}
    (h : mode.plain.after cs = .outside) (rest : List Char) :
    unescape mode (cs ++ rest) =
      (unescape mode cs).bind fun front => (unescape .outside rest).map (front ++ ·) := by
  induction cs generalizing mode with
  | nil =>
      obtain rfl : mode = .outside := by cases mode <;> trivial
      simp [unescape]
  | cons c others ih =>
      have hnext : (mode.plain.next c).after others = .outside := h
      rw [List.cons_append]
      cases mode with
      | outside =>
          simp only [QuoteMode.plain, QuoteMode.next] at hnext
          simp only [unescape]
          split_ifs at hnext ⊢
          · exact ih .single hnext
          · exact ih .double hnext
          · rw [ih .outside hnext, map_cons_bind]
      | single =>
          simp only [QuoteMode.plain, QuoteMode.next] at hnext
          simp only [unescape]
          split_ifs at hnext ⊢
          · exact ih .outside hnext
          · rw [ih .single hnext, map_cons_bind]
      | double =>
          simp only [QuoteMode.plain, QuoteMode.next] at hnext
          simp only [unescape]
          split_ifs at hnext ⊢
          · exact ih .outside hnext
          · exact ih .escape hnext
          · rw [ih .double hnext, map_cons_bind]
      | escape =>
          simp only [unescape]
          split_ifs
          · exact ih .brace hnext
          · cases escapedChar? c with
            | none => rfl
            | some e => simp only [Option.bind_some, ih .double hnext, map_cons_bind]
      | brace =>
          simp only [unescape]
          split_ifs with hopen
          · subst hopen
            exact ih (.code []) hnext
          · rfl
      | code read =>
          simp only [unescape]
          split_ifs with hclose
          · subst hclose
            cases charOfHex? read.reverse with
            | none => rfl
            | some e => simp only [Option.bind_some, ih .double hnext, map_cons_bind]
          · by_cases hc : c = '\x22' ∨ c = '\\'
            · rw [unescape_code_eq_none List.mem_cons_self hc,
                unescape_code_eq_none List.mem_cons_self hc, Option.bind_none]
            · rw [not_or] at hc
              simp only [QuoteMode.plain, QuoteMode.next, if_neg hc.1, if_neg hc.2] at hnext
              exact ih (.code (c :: read)) hnext

end Text

namespace Reference

open Text (QuoteMode unescape)

/-! ## Both readers -/

/-- Where both readers can stand at the same character of a token, as long as no single quote was
escaped between single quotes. -/
inductive Aligned : QuoteMode → Mode → Prop where
  | outside : Aligned .outside .outside
  | single : Aligned .single (.inside '\x27')
  | backslash : Aligned .single (.escaped '\x27')
  | double : Aligned .double (.inside '\x22')
  | escape : Aligned .escape (.escaped '\x22')

namespace Aligned

variable {quoteMode : QuoteMode} {mode : Mode}

theorem mark_eq (h : Aligned quoteMode mode) : quoteMode.mark? = mode.mark? := by
  cases h <;> rfl

theorem eq_outside (h : Aligned quoteMode .outside) : quoteMode = .outside := by
  cases h
  rfl

/-- Both readers stay together at a character that is no escaped single quote. -/
theorem next (h : Aligned quoteMode mode) {c : Char}
    (hc : (mode == .escaped '\x27' && c == '\x27') = false) :
    Aligned (quoteMode.next c) (mode.next c) := by
  cases h with
  | outside =>
      by_cases hsingle : c = '\x27'
      · subst hsingle
        exact .single
      · by_cases hdouble : c = '\x22'
        · subst hdouble
          exact .double
        · simp only [QuoteMode.next, Mode.next, Text.isQuote, beq_eq_false_iff_ne.mpr hsingle,
            beq_eq_false_iff_ne.mpr hdouble, if_neg hsingle, if_neg hdouble]
          exact .outside
  | single =>
      simp only [QuoteMode.next, Mode.next]
      split_ifs with hsingle hbackslash
      · exact absurd (hsingle.symm.trans hbackslash) (by decide)
      · exact .outside
      · exact .backslash
      · exact .single
  | backslash =>
      have hne : c ≠ '\x27' := by simpa using hc
      simp only [QuoteMode.next, Mode.next, if_neg hne]
      exact .single
  | double =>
      simp only [QuoteMode.next, Mode.next]
      split_ifs with hdouble hbackslash
      · exact absurd (hdouble.symm.trans hbackslash) (by decide)
      · exact .outside
      · exact .escape
      · exact .double
  | escape => exact .double

/-- Without escaped single quotes both readers stay together, and blanks that would end a token are
those outside quotes. -/
theorem after (h : Aligned quoteMode mode) {cs : List Char} (hcs : mode.hidesQuote cs = false) :
    Aligned (quoteMode.after cs) (mode.after cs) ∧ quoteMode.blanksQuoted cs = mode.uncut cs := by
  induction cs generalizing quoteMode mode with
  | nil => exact ⟨h, rfl⟩
  | cons c rest ih =>
      rw [Mode.hidesQuote, Bool.or_eq_false_iff] at hcs
      obtain ⟨hafter, hblanks⟩ := ih (h.next hcs.1) hcs.2
      refine ⟨hafter, ?_⟩
      rw [QuoteMode.blanksQuoted, Mode.uncut, hblanks]
      cases h <;> rfl

/-- An escaped single quote parts the readers: behind it one is outside quotes. -/
theorem exists_mark_ne (h : Aligned quoteMode mode) {cs : List Char}
    (hcs : mode.hidesQuote cs = true) :
    ∃ front, front <+: cs ∧ (quoteMode.after front).mark? ≠ (mode.after front).mark? := by
  induction cs generalizing quoteMode mode with
  | nil => cases hcs
  | cons c rest ih =>
      cases hc : (mode == .escaped '\x27' && c == '\x27') with
      | true =>
          simp only [Bool.and_eq_true, beq_iff_eq] at hc
          obtain ⟨rfl, rfl⟩ := hc
          cases h
          exact ⟨['\x27'], ⟨rest, rfl⟩, by decide⟩
      | false =>
          rw [Mode.hidesQuote, hc, Bool.false_or] at hcs
          obtain ⟨front, ⟨behind, rfl⟩, hne⟩ := ih (h.next hc) hcs
          exact ⟨c :: front, ⟨behind, rfl⟩, hne⟩

end Aligned

theorem hidesQuote_front {mode : Mode} {front cs : List Char} (h : front <+: cs)
    (hcs : mode.hidesQuote cs = false) : mode.hidesQuote front = false := by
  obtain ⟨behind, rfl⟩ := h
  induction front generalizing mode with
  | nil => rfl
  | cons c rest ih =>
      rw [List.cons_append, Mode.hidesQuote, Bool.or_eq_false_iff] at hcs
      rw [Mode.hidesQuote, hcs.1, Bool.false_or]
      exact ih hcs.2

/-- At every character of a token with others behind it, the reader that cuts tokens and the reader
that unquotes them stand between the same quotes, exactly if no single quote of the token is escaped
between single quotes. Then unquoting the token ends outside quotes and meets blanks between quotes
only, and whatever is written behind the token is read by itself. -/
theorem quotes_end_alike {reference token : String} (h : token ∈ (tokens reference).dropLast) :
    ((∀ front, front <+: token.toList →
        (QuoteMode.outside.after front).mark? = (Mode.outside.after front).mark?) ↔
      Mode.outside.hidesQuote token.toList = false) ∧
    (Mode.outside.hidesQuote token.toList = false →
      QuoteMode.outside.after token.toList = .outside ∧
        QuoteMode.outside.blanksQuoted token.toList = true ∧
        ∀ rest, unescape .outside (token.toList ++ rest) =
          (unescape .outside token.toList).bind fun front =>
            (unescape .outside rest).map (front ++ ·)) := by
  have hchars : token.toList ∈ (tokensFrom .outside [] reference.toList).dropLast := by
    rw [tokens, ← List.map_dropLast, List.mem_map] at h
    obtain ⟨cs, hcs, rfl⟩ := h
    rwa [String.toList_ofList]
  obtain ⟨huncut, hafter⟩ := of_mem_dropLast_tokensFrom hchars rfl rfl
  refine ⟨⟨fun hsame => ?_, fun hhides front hfront => ?_⟩, fun hhides => ?_⟩
  · by_contra hhides
    obtain ⟨front, hfront, hne⟩ :=
      Aligned.outside.exists_mark_ne (Bool.not_eq_false _ ▸ hhides)
    exact hne (hsame front hfront)
  · exact (Aligned.outside.after (hidesQuote_front hfront hhides)).1.mark_eq
  · obtain ⟨haligned, hblanks⟩ := Aligned.outside.after hhides
    rw [hafter] at haligned
    have hend := haligned.eq_outside
    exact ⟨hend, hblanks.trans huncut, Text.unescape_append .outside hend⟩

/-- Both kinds of quotes in one token, with blanks, a quote of the other kind and a backslash
between each. -/
theorem quotes_end_alike_mixed :
    "'c\\d \"e'\"f\\\" 'g\"" ∈ (tokens "'c\\d \"e'\"f\\\" 'g\" h").dropLast ∧
      Mode.outside.hidesQuote "'c\\d \"e'\"f\\\" 'g\"".toList = false ∧
      QuoteMode.outside.after "'c\\d \"e'\"f\\\" 'g\"".toList = .outside ∧
      QuoteMode.outside.blanksQuoted "'c\\d \"e'\"f\\\" 'g\"".toList = true := by
  have hmem : "'c\\d \"e'\"f\\\" 'g\"" ∈ (tokens "'c\\d \"e'\"f\\\" 'g\" h").dropLast := by decide
  have hhides : Mode.outside.hidesQuote "'c\\d \"e'\"f\\\" 'g\"".toList = false := by decide
  obtain ⟨hend, hblanks, -⟩ := (quotes_end_alike hmem).2 hhides
  exact ⟨hmem, hhides, hend, hblanks⟩

/-- A token in front of others begins with a quote, but unquoting it meets a blank outside quotes
and ends between quotes: the second single quote does not end the token, because a backslash stands
in front of it, but it ends what is quoted. -/
theorem escaped_quote_ends_apart :
    "'a\\'b c'" ∈ (tokens "'a\\'b c' d").dropLast ∧ "'a\\'b c'".toList.head? = some '\x27' ∧
      QuoteMode.outside.after "'a\\'b c'".toList = .single ∧
      QuoteMode.outside.blanksQuoted "'a\\'b c'".toList = false ∧
      Text.unquote? "'a\\'b c'" = some "a\\b c" := by
  decide

end Reference

end SourceWeave
