import SourceWeave.Proofs.DirectiveGrammar
import SourceWeave.Proofs.QuotedTokens

/-!
# References to any file name

A name may hold blanks, quotes and backslashes. Between double quotes, with a backslash in front of
each double quote and each backslash, it is still one token of a reference and stands for itself. A
line goes through three readers: one finds the keyword and trims what is behind it, one cuts the
reference into tokens, and one unquotes the first of them. The main statement is
`quoted_name_resolves`.
-/

namespace SourceWeave

namespace Text

/-! ## Names between quotes -/

/-- The characters with a backslash in front of each double quote and each backslash. -/
def guarded : List Char → List Char
  | [] => []
  | c :: rest => if c = '\x22' ∨ c = '\\' then '\\' :: c :: guarded rest else c :: guarded rest

/-- The text between double quotes. -/
def doubleQuoted (text : String) : String :=
  String.ofList ('\x22' :: (guarded text.toList ++ ['\x22']))

theorem toList_doubleQuoted (text : String) :
    (doubleQuoted text).toList = '\x22' :: (guarded text.toList ++ ['\x22']) :=
  String.toList_ofList

/-- Only backslashes are added. -/
theorem mem_of_mem_guarded {c : Char} (hc : c ≠ '\\') {cs : List Char} (h : c ∈ guarded cs) :
    c ∈ cs := by
  induction cs with
  | nil => exact h
  | cons d rest ih =>
      rw [guarded] at h
      split at h
      · have hmem : c = d ∨ c ∈ guarded rest := by simpa [hc] using h
        exact List.mem_cons.mpr (hmem.imp_right ih)
      · exact List.mem_cons.mpr ((List.mem_cons.mp h).imp_right ih)

/-- Unquoting takes the backslashes away again. -/
theorem unescape_guarded (cs : List Char) :
    unescape .double (guarded cs ++ ['\x22']) = some cs := by
  induction cs with
  | nil => rfl
  | cons c rest ih =>
      rw [guarded]
      split_ifs with hc
      · rcases hc with rfl | rfl <;> simp [unescape, escapedChar?, ih]
      · rw [not_or] at hc
        simp [unescape, hc.1, hc.2, ih]

/-- A text between quotes is unpadded, whatever blanks it holds. -/
theorem unpadded_doubleQuoted (text : String) : Unpadded (doubleQuoted text).toList := by
  have hmark : isBlank '\x22' = false := by decide
  rw [toList_doubleQuoted]
  exact ⟨⟨'\x22', _, rfl, hmark⟩, ⟨'\x22' :: guarded text.toList, '\x22', rfl, hmark⟩⟩

/-- A text between double quotes stands for itself. -/
theorem unquote?_doubleQuoted {text : String} (h : text ≠ "") :
    unquote? (doubleQuoted text) = some text := by
  have htrim := (unpadded_doubleQuoted text).trimChars_eq_self
  obtain ⟨c, rest, htext⟩ := List.exists_cons_of_ne_nil (mt String.toList_eq_nil_iff.mp h)
  have hread : unescape .outside (doubleQuoted text).toList = some (c :: rest) := by
    rw [toList_doubleQuoted, ← htext, ← unescape_guarded]
    rfl
  have hquote : isQuote '\x22' = true := by decide
  unfold unquote?
  rw [htrim]
  simp only [toList_doubleQuoted] at hread ⊢
  simp only [hquote, if_true, hread]
  rw [← htext, String.ofList_toList]

end Text

namespace Reference

open Text (guarded doubleQuoted)

/-! ## Cutting off a quoted name -/

/-- Characters that end no token are added to the one that is read. -/
theorem tokensFrom_append {mode : Mode} {cs : List Char} (h : mode.uncut cs = true)
    (current rest : List Char) :
    tokensFrom mode current (cs ++ rest) =
      tokensFrom (mode.after cs) (cs.reverse ++ current) rest := by
  induction cs generalizing mode current with
  | nil => rfl
  | cons c others ih =>
      rw [Mode.uncut, Bool.and_eq_true, Bool.not_eq_true'] at h
      rw [List.cons_append, tokensFrom, if_neg (by simp [h.1]), ih h.2]
      simp [Mode.after]

/-- A blank ends the token that is read, and what is behind it is cut by itself. -/
theorem tokensFrom_outside (current : List Char) {rest : List Char} (h : Text.StartsBlank rest) :
    tokensFrom .outside current rest = flush current ++ tokensFrom .outside [] rest := by
  cases rest with
  | nil => simp [tokensFrom, flush]
  | cons c others =>
      have hcuts : Mode.outside.cuts c = true := h c rfl
      rw [tokensFrom, tokensFrom, if_pos hcuts, if_pos hcuts]
      rfl

/-- No character of a guarded text ends a token or closes the double quotes around it. -/
theorem uncut_guarded (cs : List Char) :
    (Mode.inside '\x22').uncut (guarded cs) = true ∧
      (Mode.inside '\x22').after (guarded cs) = .inside '\x22' := by
  induction cs with
  | nil => exact ⟨rfl, rfl⟩
  | cons c rest ih =>
      rw [guarded]
      split_ifs with hc
      · exact ih
      · rw [not_or] at hc
        have hnext : (Mode.inside '\x22').next c = .inside '\x22' := by
          rw [Mode.next, if_neg hc.2, if_neg hc.1]
        simpa [Mode.uncut, Mode.after, Mode.cuts, hnext] using ih

theorem uncut_doubleQuoted (text : String) :
    Mode.outside.uncut (doubleQuoted text).toList = true ∧
      Mode.outside.after (doubleQuoted text).toList = .outside := by
  obtain ⟨huncut, hafter⟩ := uncut_guarded text.toList
  have hopen : Mode.outside.next '\x22' = .inside '\x22' := by decide
  rw [Text.toList_doubleQuoted]
  constructor
  · rw [Mode.uncut, hopen, Mode.uncut_append, huncut, hafter]
    decide
  · rw [← List.singleton_append, Mode.after_append, Mode.after_append]
    change Mode.after (Mode.after (.inside '\x22') (guarded text.toList)) _ = _
    rw [hafter]
    decide

/-- A name between double quotes is the first token, whatever blanks it holds. -/
theorem tokens_doubleQuoted (name : String) {further : List Char}
    (h : Text.StartsBlank further) :
    tokens (doubleQuoted name ++ String.ofList further) =
      doubleQuoted name :: tokens (String.ofList further) := by
  obtain ⟨huncut, hafter⟩ := uncut_doubleQuoted name
  have hflush : flush ((doubleQuoted name).toList.reverse ++ []) =
      [(doubleQuoted name).toList] := by
    simp [flush, Text.toList_doubleQuoted]
  rw [tokens, String.toList_append, String.toList_ofList, tokensFrom_append huncut, hafter,
    tokensFrom_outside _ h, hflush, tokens, String.toList_ofList]
  simp

end Reference

/-- The path of a reference is what its first token stands for, seen from the directory. -/
theorem Scheme.path?_pathKey_cons {token value : String} (h : Text.unquote? token = some value)
    (others : List String) (cwd directory : Path) :
    ((pathKey cwd).resolve (token :: others) directory).path? =
      some ((directory.join ⟨value⟩).normalize cwd) := by
  simp only [pathKey, resolvePathKey, List.head?_cons, Option.bind_some, h,
    Resolution.path?_resolved]

namespace Includer

open Text (doubleQuoted)

/-! ## Finding the directive -/

/-- Whatever the settings, the keyword stays a text without blanks around it. -/
theorem exists_foldl_keywordsStep_eq_trim (settings : List (String × String))
    {keywords : String × String} (h : ∃ value, keywords.1 = Text.trim value) :
    ∃ value, (settings.foldl keywordsStep keywords).1 = Text.trim value := by
  induction settings generalizing keywords with
  | nil => exact h
  | cons setting rest ih =>
      refine ih ?_
      rw [keywordsStep]
      split_ifs
      · exact ⟨setting.2, rfl⟩
      · exact h
      · exact h

theorem exists_keyword_eq_trim {settings : Settings} {plugin : Includer}
    (h : optionTable.configure settings handles {} = .ok plugin) :
    ∃ value, plugin.keyword = Text.trim value := by
  have hview := OptionTable.view_configure keywords_assign h
  rw [(Prod.mk.inj hview).1]
  exact exists_foldl_keywordsStep_eq_trim _ ⟨"#include", by decide⟩

/-- Behind any indent the keyword is found. The reference is the quoted name with what follows. -/
theorem directive?_doubleQuoted {plugin : Includer} {first : Char} {others : List Char}
    (hkeyword : plugin.keyword.toList = first :: others) (hfirst : Text.isBlank first = false)
    {indent gap : String} (hindent : ∀ c ∈ indent.toList, Text.isBlank c = true) (hne : gap ≠ "")
    (hgap : ∀ c ∈ gap.toList, Text.isBlank c = true) (name further : String) :
    plugin.directive? (indent ++ plugin.keyword ++ gap ++ doubleQuoted name ++ further) =
      some (doubleQuoted name ++ String.ofList (Text.trimEnd further.toList)) := by
  have hquoted := Text.unpadded_doubleQuoted name
  obtain ⟨front, last, hconcat, hlast⟩ := hquoted.exists_concat
  have hmiddle : Text.Unpadded
      (plugin.keyword.toList ++ (gap.toList ++ (doubleQuoted name).toList)) := by
    refine ⟨⟨first, _, by rw [hkeyword, List.cons_append], hfirst⟩, ?_⟩
    rw [hconcat, ← List.append_assoc, ← List.append_assoc]
    exact ⟨_, last, rfl, hlast⟩
  have htrim := hmiddle.trimChars_append hindent further.toList
  obtain ⟨c, rest, hcons⟩ := List.exists_cons_of_ne_nil (mt String.toList_eq_nil_iff.mp hne)
  have hc : Text.isBlank c = true := hgap c (hcons ▸ List.mem_cons_self)
  have hreference := hquoted.trimChars_append hgap (Text.trimEnd further.toList)
  rw [Text.trimEnd_trimEnd, hcons, List.cons_append] at hreference
  have hchars : directiveChars? plugin.keyword.toList
      (indent ++ plugin.keyword ++ gap ++ doubleQuoted name ++ further).toList =
        some ((doubleQuoted name).toList ++ Text.trimEnd further.toList) := by
    simp only [String.toList_append, List.append_assoc] at htrim ⊢
    rw [directiveChars?, htrim, behind?_append, hcons, List.cons_append]
    simp only [hc, if_true, hreference]
  rw [directive?, hchars, Option.map_some, String.ofList_append, String.ofList_toList]

/-- Any name that is not empty and holds no star can be referred to. Written between double quotes
behind the keyword, with a backslash in front of each double quote and each backslash, it is the
first token of the reference, and the path is the one that the name leads to from the directory.
Blanks may stand in front of the keyword, and further tokens may follow behind a blank. The tokens
are followed as they are, not as a pattern. -/
theorem quoted_name_resolves {settings : Settings} {plugin : Includer}
    (hplugin : optionTable.configure settings handles {} = .ok plugin)
    (hkeyword : plugin.keyword ≠ "") {indent gap further name : String}
    (hindent : ∀ c ∈ indent.toList, Text.isBlank c = true) (hne : gap ≠ "")
    (hgap : ∀ c ∈ gap.toList, Text.isBlank c = true) (hfurther : Text.StartsBlank further.toList)
    (hname : name ≠ "") (hstar : '*' ∉ name.toList) (cwd directory : Path) :
    ∃ reference,
      plugin.directive? (indent ++ plugin.keyword ++ gap ++ doubleQuoted name ++ further) =
        some reference ∧
      Reference.tokens reference = doubleQuoted name ::
        Reference.tokens (String.ofList (Text.trimEnd further.toList)) ∧
      ((Scheme.pathKey cwd).resolve (Reference.tokens reference) directory).path? =
        some ((directory.join ⟨name⟩).normalize cwd) ∧
      ∀ context, plugin.follow context reference =
        plugin.includeTokens context (Reference.tokens reference) := by
  obtain ⟨value, htrimmed⟩ := exists_keyword_eq_trim hplugin
  obtain ⟨first, others, hcons⟩ :=
    List.exists_cons_of_ne_nil (mt String.toList_eq_nil_iff.mp hkeyword)
  have hfirst : Text.isBlank first = false := by
    have htrim : Text.trimChars value.toList = first :: others := by
      rw [← hcons, htrimmed, Text.trim, String.toList_ofList]
    exact Text.isBlank_of_trimChars_eq_cons htrim
  have htokens := Reference.tokens_doubleQuoted name hfurther.trimEnd
  refine ⟨_, directive?_doubleQuoted hcons hfirst hindent hne hgap name further, htokens, ?_, ?_⟩
  · rw [htokens, Scheme.path?_pathKey_cons (Text.unquote?_doubleQuoted hname)]
  · intro context
    have hplain : (doubleQuoted name).toList.contains '*' = false := by
      have hguarded := mt (Text.mem_of_mem_guarded (c := '*') (by decide)) hstar
      simp [Text.toList_doubleQuoted, hguarded]
    funext session
    rw [follow, htokens]
    simp only [hplain, Bool.false_eq_true, if_false]

/-- A keyword of two words, and a name with blanks, a double quote and a backslash, in front of two
further tokens. -/
theorem quoted_name_resolves_padded :
    ∃ reference,
      directive? { keyword := "take in" } "\t take in  \"../ a \\\"b\\\\ \" 'c d' e " =
        some reference ∧
      Reference.tokens reference = ["\"../ a \\\"b\\\\ \"", "'c d'", "e"] ∧
      ((Scheme.pathKey ⟨"/"⟩).resolve (Reference.tokens reference) ⟨"/src/lib"⟩).path? =
        some ⟨"/src/ a \"b\\ "⟩ := by
  have hplugin : optionTable.configure (Settings.empty.set "inc" "kw" " take in\n") handles {} =
      .ok { keyword := "take in" } := rfl
  have hindent : ∀ c ∈ "\t ".toList, Text.isBlank c = true := List.all_eq_true.mp (by decide)
  have hgap : ∀ c ∈ "  ".toList, Text.isBlank c = true := List.all_eq_true.mp (by decide)
  have hfurther : Text.StartsBlank " 'c d' e ".toList := by
    intro c hc
    cases hc
    decide
  obtain ⟨reference, hdirective, htokens, hpath, -⟩ :=
    quoted_name_resolves hplugin (by decide) hindent (by decide) hgap hfurther
      (show "../ a \"b\\ " ≠ "" by decide) (by decide) ⟨"/"⟩ ⟨"/src/lib"⟩
  refine ⟨reference, ?_, ?_, ?_⟩
  · rw [← hdirective]
    decide
  · rw [htokens]
    decide
  · rw [hpath]
    decide +kernel

end Includer

end SourceWeave
