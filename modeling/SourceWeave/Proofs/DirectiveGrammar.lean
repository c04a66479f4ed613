import SourceWeave.Proofs.Insertion

/-!
# The grammar of directives

`Includer.IsDirective` says which lines are directives for a keyword, and what they refer to,
without a word on how they are read. The includer trims the line, takes the keyword off its front,
looks for a blank behind it and trims what is left. Since the keyword itself was trimmed when it was
set, this finds exactly the lines of the grammar: `directive?_eq_some_iff`. The empty keyword stands
apart, for in a trimmed line there is never a blank behind it. The main statement is
`directives_follow_grammar`.
-/

namespace SourceWeave

/-- The text consists of blanks only. -/
def Text.AllBlank (text : String) : Prop :=
  ∀ c ∈ text.toList, isBlank c = true

instance (text : String) : Decidable (Text.AllBlank text) :=
  decidable_of_iff (text.toList.all Text.isBlank = true) List.all_eq_true

namespace Includer

open Text (AllBlank Unpadded)

/-- The lines that are directives for a keyword, and what they refer to. -/
inductive IsDirective (keyword : String) : String → String → Prop where
  /-- The keyword alone, with blanks around it. -/
  | bare {indent tail : String} (hindent : AllBlank indent) (htail : AllBlank tail) :
      IsDirective keyword (indent ++ keyword ++ tail) ""
  /-- The keyword and a reference, with blanks between them and around them. -/
  | referring {indent gap reference tail : String} (hindent : AllBlank indent)
      (hgap : AllBlank gap) (hne : gap ≠ "") (hreference : Unpadded reference.toList)
      (htail : AllBlank tail) :
      IsDirective keyword (indent ++ keyword ++ gap ++ reference ++ tail) reference

theorem behind?_eq_some_iff {front cs rest : List Char} :
    behind? front cs = some rest ↔ cs = front ++ rest := by
  fun_induction behind? front cs with
  | case1 cs => simp
  | case2 f front => simp
  | case3 front c cs ih => simpa using ih
  | case4 f front c cs hne => simp [Ne.symm hne]

theorem behind?_append (front cs : List Char) : behind? front (front ++ cs) = some cs :=
  behind?_eq_some_iff.mpr rfl

/-- Between the blanks around it, a line is a directive if it is the keyword, or the keyword and a
reference with blanks between them. -/
theorem directiveChars?_eq_some_iff {keyword line reference : List Char}
    (hkeyword : Unpadded keyword) :
    directiveChars? keyword line = some reference ↔
      (Text.trimChars line = keyword ∧ reference = []) ∨
      ∃ gap, gap ≠ [] ∧ (∀ c ∈ gap, Text.isBlank c = true) ∧ Unpadded reference ∧
        Text.trimChars line = keyword ++ (gap ++ reference) := by
  constructor
  · intro h
    rw [directiveChars?] at h
    split at h
    · cases h
    · next hbehind =>
      rw [behind?_eq_some_iff, List.append_nil] at hbehind
      exact .inl ⟨hbehind, (Option.some.inj h).symm⟩
    · next c rest hbehind =>
      rw [behind?_eq_some_iff] at hbehind
      split at h
      · next hc =>
        obtain rfl := Option.some.inj h
        have hline : Unpadded (keyword ++ c :: rest) := by
          rw [← hbehind]
          refine Text.unpadded_trimChars ?_
          rw [hbehind]
          exact List.append_ne_nil_of_left_ne_nil hkeyword.ne_nil _
        obtain ⟨gap, hgap, hreference, heq⟩ := hline.exists_gap (List.cons_ne_nil c rest)
        refine .inr ⟨gap, ?_, hgap, hreference, heq ▸ hbehind⟩
        -- the blank behind the keyword is not part of the reference
        rintro rfl
        rw [Text.isBlank_of_trimChars_eq_cons heq.symm] at hc
        cases hc
      · cases h
  · rintro (⟨hline, rfl⟩ | ⟨gap, hne, hgap, hreference, hline⟩)
    · have hbehind := behind?_append keyword []
      rw [List.append_nil] at hbehind
      rw [directiveChars?, hline, hbehind]
    · have htrim : Text.trimChars (gap ++ reference) = reference :=
        hreference.trimChars_eq_iff.mpr
          ⟨gap, [], hgap, List.forall_mem_nil _, by rw [List.append_nil]⟩
      obtain ⟨c, others, rfl⟩ := List.exists_cons_of_ne_nil hne
      rw [directiveChars?, hline, behind?_append]
      rw [List.cons_append] at htrim ⊢
      simp only [hgap c List.mem_cons_self, if_true, htrim]

/-- If the keyword has no blanks around it, the directives are those of the grammar. -/
theorem directive?_eq_some_iff {plugin : Includer} (hkeyword : Unpadded plugin.keyword.toList)
    {line reference : String} :
    plugin.directive? line = some reference ↔ IsDirective plugin.keyword line reference := by
  have hchars : plugin.directive? line = some reference ↔
      directiveChars? plugin.keyword.toList line.toList = some reference.toList := by
    rw [directive?, Option.map_eq_some_iff]
    constructor
    · rintro ⟨chars, hchars, rfl⟩
      rw [hchars, String.toList_ofList]
    · exact fun h => ⟨_, h, String.ofList_toList⟩
  rw [hchars, directiveChars?_eq_some_iff hkeyword]
  constructor
  · rintro (⟨hline, hreference⟩ | ⟨gap, hne, hgap, hreference, hline⟩)
    · obtain ⟨indent, tail, hindent, htail, heq⟩ := hkeyword.trimChars_eq_iff.mp hline
      obtain rfl : reference = "" := String.toList_eq_nil_iff.mp hreference
      obtain rfl : line = String.ofList indent ++ plugin.keyword ++ String.ofList tail := by
        rw [← String.toList_inj, heq]
        simp
      exact .bare (by simpa [AllBlank] using hindent) (by simpa [AllBlank] using htail)
    · obtain ⟨indent, tail, hindent, htail, heq⟩ :=
        (hkeyword.append hreference gap).trimChars_eq_iff.mp hline
      obtain rfl : line = String.ofList indent ++ plugin.keyword ++ String.ofList gap ++
          reference ++ String.ofList tail := by
        rw [← String.toList_inj, heq]
        simp
      exact .referring (by simpa [AllBlank] using hindent) (by simpa [AllBlank] using hgap)
        (by simpa using hne) hreference (by simpa [AllBlank] using htail)
  · intro h
    cases h with
    | bare hindent htail =>
        refine .inl ⟨hkeyword.trimChars_eq_iff.mpr ⟨_, _, hindent, htail, ?_⟩, rfl⟩
        simp
    | @referring indent gap reference tail hindent hgap hne hreference htail =>
        refine .inr ⟨gap.toList, mt String.toList_eq_nil_iff.mp hne, hgap, hreference,
          (hkeyword.append hreference _).trimChars_eq_iff.mpr ⟨_, _, hindent, htail, ?_⟩⟩
        simp

/-- Whatever the keyword is set to, by either name of the option, the includer takes for directives
the lines of the grammar for the value without the blanks around it. If nothing is left of the
value, the directives are the blank lines, and they refer to nothing. -/
theorem directives_follow_grammar (plugin : Includer) (handle value : String) :
    ∃ named, optionTable.assign handle ("set-keyword", value) plugin = .ok () named ∧
      optionTable.assign handle ("kw", value) plugin = .ok () named ∧
      ∀ line reference,
        (Text.trim value ≠ "" → (named.directive? line = some reference ↔
          IsDirective (Text.trim value) line reference)) ∧
        (Text.trim value = "" → (named.directive? line = some reference ↔
          AllBlank line ∧ reference = "")) := by
  refine ⟨{ plugin with keyword := Text.trim value }, rfl, rfl, fun line reference => ⟨?_, ?_⟩⟩
  · intro hvalue
    refine directive?_eq_some_iff ?_
    simp only [Text.trim, String.toList_ofList]
    refine Text.unpadded_trimChars fun hnil => hvalue ?_
    rw [Text.trim, hnil, String.ofList_nil]
  · intro hvalue
    have hblank : BlankLineRemover.isBlankLine line = true ↔ AllBlank line :=
      List.isEmpty_iff.trans Text.trimChars_eq_nil_iff
    rw [directive?_of_keyword_empty hvalue, ← hblank]
    cases BlankLineRemover.isBlankLine line <;> simp [eq_comm]

/-- A keyword of two words, with a reference of two words and without one, and a line in which it
is only the beginning of a longer word. -/
theorem directives_follow_grammar_two_words :
    ∃ named, optionTable.assign "inc" ("kw", " take in\n") {} = .ok () named ∧
      named.directive? "\ttake in  a b " = some "a b" ∧ named.directive? "take in " = some "" ∧
      named.directive? "take inside" = none := by
  obtain ⟨named, -, hassign, hgrammar⟩ := directives_follow_grammar {} "inc" " take in\n"
  have hvalue : Text.trim " take in\n" ≠ "" := by decide
  have hreference : Unpadded "a b".toList :=
    ⟨⟨'a', [' ', 'b'], rfl, by decide⟩, ⟨['a', ' '], 'b', rfl, by decide⟩⟩
  have htwo : IsDirective (Text.trim " take in\n") "\ttake in  a b " "a b" :=
    @IsDirective.referring _ "\t" "  " "a b" " " (by decide) (by decide) (by decide) hreference
      (by decide)
  have hnone : IsDirective (Text.trim " take in\n") "take in " "" :=
    @IsDirective.bare _ "" " " (by decide) (by decide)
  refine ⟨named, hassign, ((hgrammar _ _).1 hvalue).mpr htwo,
    ((hgrammar _ _).1 hvalue).mpr hnone, ?_⟩
  cases hassign
  decide

end Includer

end SourceWeave
