import Mathlib.Data.List.Infix
import MiddlewareStack.Symbols.Name

/-!
# Qualified names read back

A text is cut at the last of its separators, so that no separator starts behind the cut or on it:
of a run of colons the last two separate, and the others stay with what is in front
(`splitLast_eq_some_iff`). A qualified name is therefore read back from its text unless one of its
parts is missing or its name would move the cut, and a text that is read is the text of what was
read.
-/

namespace MiddlewareStack

namespace Text

variable {cs before after : List Char}

/-- Only a text without separators is not cut. -/
theorem splitLast_eq_none_iff : splitLast cs = none ↔ ¬[':', ':'] <:+: cs := by
  fun_induction splitLast cs with
  | case1 => simp
  | case2 c rest before after found ih =>
    have later : [':', ':'] <:+: rest := by
      rw [found] at ih
      simpa using ih
    have within : [':', ':'] <:+: c :: rest := later.trans (List.infix_cons (List.infix_refl rest))
    exact iff_of_false (Option.some_ne_none _) (not_not_intro within)
  | case3 after none =>
    exact iff_of_false (Option.some_ne_none _) (not_not_intro ⟨[], after, rfl⟩)
  | case4 c rest none apart ih =>
    rw [List.infix_cons_iff, not_or]
    refine iff_of_true rfl ⟨?_, ih.mp none⟩
    rintro ⟨tail, split⟩
    obtain ⟨rfl, rfl⟩ := List.cons.inj split
    exact apart _ rfl rfl

/-- The cut is at a separator with none behind it, not even one that the last colon is part of. -/
theorem splitLast_eq_some_iff :
    splitLast cs = some (before, after) ↔
      cs = before ++ ':' :: ':' :: after ∧ ¬[':', ':'] <:+: ':' :: after := by
  constructor
  · intro cut
    refine ⟨splitLast_eq_some cut, splitLast_eq_none_iff.mp ?_⟩
    fun_induction splitLast cs generalizing before with
    | case1 => cases cut
    | case2 c rest before after found ih =>
      cases cut
      exact ih found
    | case3 after none =>
      cases cut
      exact none
    | case4 => cases cut
  · rintro ⟨rfl, last⟩
    have none := splitLast_eq_none_iff.mpr last
    induction before with
    | nil =>
      rw [List.nil_append]
      unfold splitLast
      simp only [none]
    | cons c before ih => simp [splitLast, ih]

/-- One more colon in front makes a separator with a colon that comes first. -/
theorem infix_colon_cons_iff :
    [':', ':'] <:+: ':' :: after ↔ after.head? = some ':' ∨ [':', ':'] <:+: after := by
  have start : [':', ':'] <+: ':' :: after ↔ after.head? = some ':' := by
    rw [List.cons_prefix_cons, List.head?_eq_some_iff]
    exact ⟨fun ⟨_, tail, split⟩ => ⟨tail, split.symm⟩, fun ⟨tail, split⟩ => ⟨rfl, tail, split.symm⟩⟩
  rw [List.infix_cons_iff, start]

end Text

namespace QualifiedName

variable {written : String} {q : QualifiedName}

theorem toList_text (q : QualifiedName) :
    q.text.toList = q.package.toList ++ ':' :: ':' :: q.name.toList := by
  simp [text]

/-- What is read is all that is written. It has both parts, and its name leaves the cut in place. -/
theorem parse?_eq_some_iff :
    parse? written = some q ↔ q.text = written ∧ q.package ≠ "" ∧ q.name ≠ "" ∧
      ¬[':', ':'] <:+: q.name.toList ∧ q.name.toList.head? ≠ some ':' := by
  constructor
  · intro read
    unfold parse? at read
    split at read
    · next before after cut =>
      obtain ⟨split, last⟩ := Text.splitLast_eq_some_iff.mp cut
      rw [Text.infix_colon_cons_iff, not_or] at last
      split at read
      · cases read
      · next both =>
        cases read
        simp only [Bool.or_eq_true, List.isEmpty_iff, not_or] at both
        refine ⟨?_, ?_, ?_, ?_, ?_⟩
        · rw [← String.toList_inj, toList_text, split]
          simp
        · simpa [← String.toList_inj] using both.1
        · simpa [← String.toList_inj] using both.2
        · simpa using last.2
        · simpa using last.1
    · cases read
  · rintro ⟨rfl, package, name, noSeparator, noColon⟩
    have cut : Text.splitLast q.text.toList = some (q.package.toList, q.name.toList) := by
      refine Text.splitLast_eq_some_iff.mpr ⟨q.toList_text, ?_⟩
      rw [Text.infix_colon_cons_iff]
      exact not_or.mpr ⟨noColon, noSeparator⟩
    rw [parse?, cut]
    simp [package, name]

/-- A qualified name is read back from its text exactly if it has both parts and its name neither
has a separator in it nor goes on with the one in front. What is read from a text is written as that
text. -/
theorem parse?_inverts_text :
    (∀ q : QualifiedName, parse? q.text = some q ↔ q.package ≠ "" ∧ q.name ≠ "" ∧
      ¬[':', ':'] <:+: q.name.toList ∧ q.name.toList.head? ≠ some ':') ∧
    ∀ (written : String) (q : QualifiedName), parse? written = some q → q.text = written :=
  ⟨fun _ => parse?_eq_some_iff.trans (and_iff_right rfl),
    fun _ _ read => (parse?_eq_some_iff.mp read).1⟩

/-- Of three colons the first stays with the package. -/
theorem colons_read_back :
    parse? "self::a:::b" = some ⟨"self::a:", "b"⟩ ∧
      (⟨"self::a:", "b"⟩ : QualifiedName).text = "self::a:::b" ∧
      parse? (⟨"self::a", ":b"⟩ : QualifiedName).text ≠ some ⟨"self::a", ":b"⟩ := by
  have read : parse? "self::a:::b" = some ⟨"self::a:", "b"⟩ := by cbv
  refine ⟨read, parse?_inverts_text.2 _ _ read, fun same => ?_⟩
  exact ((parse?_inverts_text.1 _).mp same).2.2.2 (by decide)

end QualifiedName

end MiddlewareStack
