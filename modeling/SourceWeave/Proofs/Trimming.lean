import SourceWeave.Text.Blank
import Mathlib.Data.List.DropRight
import Mathlib.Data.List.TakeWhile

/-!
# Texts without the blanks at their ends

What trimming leaves of a text is empty or `Unpadded`: it begins and ends with characters that are
not blank. An unpadded text is what is left of another one exactly if that has only blanks around
it: `Unpadded.trimChars_eq_iff`.
-/

namespace SourceWeave.Text

variable {cs : List Char}

/-- The text is empty or begins with a blank. -/
def StartsBlank (cs : List Char) : Prop :=
  ∀ c, cs.head? = some c → isBlank c = true

/-- The text begins and ends with characters that are not blank. -/
structure Unpadded (cs : List Char) : Prop where
  exists_cons : ∃ first rest, cs = first :: rest ∧ isBlank first = false
  exists_concat : ∃ front last, cs = front ++ [last] ∧ isBlank last = false

/-! ## The end of a text -/

theorem StartsBlank.trimEnd (h : StartsBlank cs) : StartsBlank (trimEnd cs) := by
  intro c hc
  obtain ⟨behind, hbehind⟩ : Text.trimEnd cs <+: cs := List.rdropWhile_prefix isBlank cs
  refine h c ?_
  rw [← hbehind, List.head?_append, hc, Option.some_or]

theorem trimEnd_eq_nil (h : ∀ c ∈ cs, isBlank c = true) : trimEnd cs = [] :=
  List.rdropWhile_eq_nil_iff.mpr h

theorem trimEnd_trimEnd (cs : List Char) : trimEnd (trimEnd cs) = trimEnd cs :=
  List.rdropWhile_idempotent isBlank cs

/-- Nothing is trimmed from what stands in front of a character that is not blank. -/
theorem trimEnd_append_cons (front : List Char) {c : Char} (hc : isBlank c = false)
    (cs : List Char) : trimEnd (front ++ c :: cs) = front ++ c :: trimEnd cs := by
  have hreverse : (front ++ c :: cs).reverse = cs.reverse ++ c :: front.reverse := by simp
  rw [trimEnd, hreverse, List.dropWhile_append]
  split
  · next hblank =>
    rw [List.dropWhile_cons_of_neg (by simp [hc])]
    simp [trimEnd, List.isEmpty_iff.mp hblank]
  · simp [trimEnd]

/-! ## Both ends -/

/-- A text is what is left of it, with blanks around it. -/
theorem exists_eq_append_trimChars (cs : List Char) :
    ∃ indent tail, (∀ c ∈ indent, isBlank c = true) ∧ (∀ c ∈ tail, isBlank c = true) ∧
      cs = indent ++ (trimChars cs ++ tail) := by
  have hend : trimChars cs ++ (trimStart cs).rtakeWhile isBlank = trimStart cs :=
    List.rdropWhile_append_rtakeWhile
  refine ⟨cs.takeWhile isBlank, (trimStart cs).rtakeWhile isBlank,
    fun c hc => List.mem_takeWhile_imp hc, fun c hc => List.mem_rtakeWhile_imp hc, ?_⟩
  rw [hend, trimStart, List.takeWhile_append_dropWhile]

/-- Nothing is left of a text exactly if all of it is blank. -/
theorem trimChars_eq_nil_iff : trimChars cs = [] ↔ ∀ c ∈ cs, isBlank c = true := by
  constructor
  · intro h c hc
    obtain ⟨indent, tail, hindent, htail, heq⟩ := exists_eq_append_trimChars cs
    rw [h, List.nil_append] at heq
    rw [heq, List.mem_append] at hc
    exact hc.elim (hindent c) (htail c)
  · intro h
    exact trimEnd_eq_nil fun c hc => h c ((List.dropWhile_sublist isBlank).mem hc)

/-- What is left of a text without the blanks at its ends does not begin with a blank. -/
theorem isBlank_of_trimChars_eq_cons {rest : List Char} {c : Char} (h : trimChars cs = c :: rest) :
    isBlank c = false := by
  obtain ⟨behind, hbehind⟩ : trimChars cs <+: cs.dropWhile isBlank :=
    List.rdropWhile_prefix isBlank _
  have hhead := List.head?_dropWhile_not isBlank cs
  rw [← hbehind, h] at hhead
  exact hhead

/-- What is left of a text that is not all blank is unpadded. -/
theorem unpadded_trimChars (h : trimChars cs ≠ []) : Unpadded (trimChars cs) := by
  obtain ⟨first, rest, hcons⟩ := List.exists_cons_of_ne_nil h
  have hlast : ¬ isBlank ((trimChars cs).getLast h) = true := List.rdropWhile_last_not _ _ h
  refine ⟨⟨first, rest, hcons, isBlank_of_trimChars_eq_cons hcons⟩,
    ⟨(trimChars cs).dropLast, (trimChars cs).getLast h, ?_, by simpa using hlast⟩⟩
  rw [List.dropLast_append_getLast]

namespace Unpadded

variable {front middle back : List Char}

theorem ne_nil (h : Unpadded middle) : middle ≠ [] := by
  obtain ⟨first, rest, rfl, -⟩ := h.exists_cons
  exact List.cons_ne_nil first rest

/-- The blanks in front of an unpadded text are trimmed, and those at the end of what follows. -/
theorem trimChars_append (h : Unpadded middle) {indent : List Char}
    (hindent : ∀ c ∈ indent, isBlank c = true) (further : List Char) :
    trimChars (indent ++ (middle ++ further)) = middle ++ trimEnd further := by
  have hstart : trimStart (indent ++ (middle ++ further)) = middle ++ further := by
    obtain ⟨first, rest, rfl, hfirst⟩ := h.exists_cons
    rw [trimStart, List.dropWhile_append_of_pos hindent, List.cons_append,
      List.dropWhile_cons_of_neg (by simp [hfirst])]
  obtain ⟨front, last, rfl, hlast⟩ := h.exists_concat
  rw [trimChars, hstart, List.append_assoc, List.singleton_append, trimEnd_append_cons front hlast,
    List.append_assoc, List.singleton_append]

/-- An unpadded text is what is left of the texts that have only blanks around it. -/
theorem trimChars_eq_iff (h : Unpadded middle) :
    trimChars cs = middle ↔
      ∃ indent tail, (∀ c ∈ indent, isBlank c = true) ∧ (∀ c ∈ tail, isBlank c = true) ∧
        cs = indent ++ (middle ++ tail) := by
  constructor
  · rintro rfl
    exact exists_eq_append_trimChars cs
  · rintro ⟨indent, tail, hindent, htail, rfl⟩
    rw [h.trimChars_append hindent, trimEnd_eq_nil htail, List.append_nil]

theorem trimChars_eq_self (h : Unpadded middle) : trimChars middle = middle :=
  h.trimChars_eq_iff.mpr
    ⟨[], [], List.forall_mem_nil _, List.forall_mem_nil _, (List.append_nil middle).symm⟩

/-- Unpadded texts with anything between them are unpadded together. -/
theorem append (hfront : Unpadded front) (hback : Unpadded back) (middle : List Char) :
    Unpadded (front ++ (middle ++ back)) := by
  obtain ⟨first, rest, rfl, hfirst⟩ := hfront.exists_cons
  obtain ⟨others, last, rfl, hlast⟩ := hback.exists_concat
  refine ⟨⟨first, _, List.cons_append, hfirst⟩,
    ⟨first :: rest ++ (middle ++ others), last, ?_, hlast⟩⟩
  simp only [List.append_assoc]

/-- At the end of an unpadded text nothing is trimmed but blanks in front. -/
theorem exists_gap (h : Unpadded (front ++ back)) (hback : back ≠ []) :
    ∃ gap, (∀ c ∈ gap, isBlank c = true) ∧ Unpadded (trimChars back) ∧
      back = gap ++ trimChars back := by
  obtain ⟨others, last, hconcat, hlast⟩ := h.exists_concat
  have hend : back.getLast? = some last := by
    have hwhole : (front ++ back).getLast? = some last := by rw [hconcat, List.getLast?_concat]
    rwa [List.getLast?_append_of_ne_nil _ hback] at hwhole
  have hleft : trimChars back ≠ [] := by
    intro hnil
    rw [trimChars_eq_nil_iff.mp hnil last (List.mem_of_getLast? hend)] at hlast
    cases hlast
  obtain ⟨gap, tail, hgap, htail, heq⟩ := exists_eq_append_trimChars back
  -- the last character is not blank, so it is none of the tail
  obtain rfl : tail = [] := by
    by_contra htail'
    rw [heq, ← List.append_assoc, List.getLast?_append_of_ne_nil _ htail'] at hend
    rw [htail last (List.mem_of_getLast? hend)] at hlast
    cases hlast
  rw [List.append_nil] at heq
  exact ⟨gap, hgap, unpadded_trimChars hleft, heq⟩

end Unpadded

end SourceWeave.Text
