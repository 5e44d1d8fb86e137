import MiddlewareStack.Proofs.ScannedInk

/-!
# Texts of marks with blanks

A text may be that of marks, one after another, with blanks between some of them. Blanks that are
removed beside separating characters are removed between marks (`Closes.tightened`). What stays
apart without such a blank still does: beside a separating character no name runs into another, and
no slash becomes the start of a comment (`Tightened.wellSpaced`).
-/

namespace MiddlewareStack.Source

variable {c : Char} {text text' : List Char} {mark next : Mark} {gap : Bool}
  {gaps gaps' gaps'' rest : List (Mark × Bool)}

/-! ## Texts of marks -/

/-- The mark as it is written. -/
def Mark.chars : Mark → List Char
  | .word name => name.toList
  | .sign c _ => [c]
  | .quote => ['\'']
  | .opening d => [d.opening]
  | .closing d => [d.closing]

/-- A name, or a lifetime, which a quote starts. -/
def Mark.IsWordlike : Mark → Prop
  | .word _ | .quote => True
  | _ => False

/-- One of the characters beside which blanks are removed. -/
def Mark.IsCloser : Mark → Prop
  | .sign c _ => c ∈ closers
  | .opening d => d.opening ∈ closers
  | .closing d => d.closing ∈ closers
  | .word _ | .quote => False

/-- A text behind a blank or at once. -/
def spacedFrom (gap : Bool) (text : List Char) : List Char :=
  if gap then ' ' :: text else text

/-- The text of marks, some of which have a blank behind them. -/
def spaced : List (Mark × Bool) → List Char
  | [] => []
  | (mark, gap) :: rest => mark.chars ++ spacedFrom gap (spaced rest)

/-- The same marks, with blanks removed between some that `free` allows to be beside each other. -/
inductive Tightened (free : Mark → Mark → Prop) : List (Mark × Bool) → List (Mark × Bool) → Prop
  | nil : Tightened free [] []
  | keep (mark : Mark) (gap : Bool) {rest rest' : List (Mark × Bool)}
      (others : Tightened free rest rest') :
    Tightened free ((mark, gap) :: rest) ((mark, gap) :: rest')
  | remove {mark next : Mark} {rest rest' : List (Mark × Bool)}
      (follows : (rest.map Prod.fst).head? = some next) (between : free mark next)
      (others : Tightened free rest rest') :
    Tightened free ((mark, true) :: rest) ((mark, false) :: rest')

/-- Whether a mark can be read in front of this text, behind a blank or at once. -/
def Mark.Ends (gap : Bool) (text : List Char) : Mark → Prop
  | .word name => IsName name ∧ EndsWord (spacedFrom gap text)
  | .sign c _ => (isPunctuation c ∧ c ≠ '\'') ∧ ¬StartsComment (c :: spacedFrom gap text)
  | .quote => gap = false
  | .opening _ | .closing _ => True

/-- Marks that can be read one after another. The last of them has no blank behind it. -/
def WellSpaced : List (Mark × Bool) → Prop
  | [] => True
  | (mark, gap) :: rest => (gap → rest ≠ []) ∧ mark.Ends gap (spaced rest) ∧ WellSpaced rest

/-- Between these marks a blank may be removed. -/
def Mark.Beside (mark next : Mark) : Prop :=
  mark.IsCloser ∨ next.IsCloser

theorem Mark.IsCloser.chars (h : mark.IsCloser) : ∃ c ∈ closers, mark.chars = [c] := by
  cases mark with
  | sign | opening | closing => exact ⟨_, h, rfl⟩
  | word | quote => cases h

theorem Mark.Beside.not_wordlike (h : mark.Beside next) :
    ¬(mark.IsWordlike ∧ next.IsWordlike) := by
  have apart : ∀ {mark : Mark}, mark.IsCloser → ¬mark.IsWordlike := by
    rintro (_ | _ | _ | _ | _) closer wordlike <;> trivial
  rintro ⟨here, behind⟩
  exact h.elim (apart · here) (apart · behind)

namespace Tightened

variable {free free' : Mark → Mark → Prop}

theorem refl (free : Mark → Mark → Prop) : ∀ gaps, Tightened free gaps gaps
  | [] => .nil
  | (mark, gap) :: rest => .keep mark gap (refl free rest)

theorem map_fst (h : Tightened free gaps gaps') : gaps'.map Prod.fst = gaps.map Prod.fst := by
  induction h with
  | nil => rfl
  | keep _ _ _ ih | remove _ _ _ ih => rw [List.map_cons, ih, List.map_cons]

theorem trans (h : Tightened free gaps gaps') (h' : Tightened free gaps' gaps'') :
    Tightened free gaps gaps'' := by
  induction h generalizing gaps'' with
  | nil => exact h'
  | keep mark gap others ih =>
    cases h' with
    | keep _ _ others' => exact .keep mark gap (ih others')
    | remove follows between others' =>
      rw [others.map_fst] at follows
      exact .remove follows between (ih others')
  | remove follows between _ ih =>
    cases h' with
    | keep _ _ others' => exact .remove follows between (ih others')

theorem mono (weaker : ∀ mark next, free mark next → free' mark next)
    (h : Tightened free gaps gaps') : Tightened free' gaps gaps' := by
  induction h with
  | nil => exact .nil
  | keep mark gap _ ih => exact .keep mark gap ih
  | remove follows between _ ih => exact .remove follows (weaker _ _ between) ih

end Tightened

theorem spacedFrom_append (gap : Bool) (text text' : List Char) :
    spacedFrom gap text ++ text' = spacedFrom gap (text ++ text') := by
  cases gap <;> rfl

theorem spacedFrom_head (gap : Bool) (same : text'.head? = text.head?) :
    (spacedFrom gap text').head? = (spacedFrom gap text).head? := by
  cases gap
  · exact same
  · rfl

theorem startsComment_cons_iff :
    StartsComment (c :: text) ↔ c = '/' ∧ (text.head? = some '/' ∨ text.head? = some '*') := by
  have first : ∀ x, [x] <+: text ↔ text.head? = some x := by
    intro x
    rw [List.head?_eq_some_iff]
    exact exists_congr fun tail => eq_comm
  simp only [StartsComment, List.cons_prefix_cons, first, ← and_or_left]
  exact and_congr_left' eq_comm

theorem spaced_suffix (front rest : List (Mark × Bool)) :
    spaced rest <:+ spaced (front ++ rest) := by
  induction front with
  | nil => exact List.suffix_refl _
  | cons first front ih =>
    obtain ⟨mark, gap⟩ := first
    have behind : spaced (front ++ rest) <:+ spacedFrom gap (spaced (front ++ rest)) := by
      cases gap
      · exact List.suffix_refl _
      · exact List.suffix_cons _ _
    exact (ih.trans behind).trans (List.suffix_append _ _)

/-! ## Removing blanks -/

theorem Mark.Ends.front (h : mark.Ends gap text) :
    ∃ c behind, mark.chars = c :: behind ∧ c ≠ ' ' ∧ (c ∈ closers → mark.IsCloser) := by
  cases mark with
  | word name =>
    obtain ⟨c, behind, chars⟩ := List.exists_cons_of_ne_nil h.1.ne_nil
    obtain ⟨solid, notCloser⟩ := h.1.solid c (chars ▸ List.mem_cons_self)
    exact ⟨c, behind, chars, solid, fun closer => absurd closer notCloser⟩
  | sign c joint =>
    refine ⟨c, [], rfl, ?_, id⟩
    rintro rfl
    exact absurd h.1.1 (by decide)
  | quote => exact ⟨'\'', [], rfl, by decide, fun closer => absurd closer (by decide)⟩
  | opening d | closing d => exact ⟨_, [], rfl, by cases d <;> decide, id⟩

theorem WellSpaced.head (h : WellSpaced ((mark, gap) :: rest)) :
    (spaced ((mark, gap) :: rest)).head? = mark.chars.head? := by
  obtain ⟨c, behind, chars, _⟩ := h.2.1.front
  rw [spaced, chars, List.cons_append, List.head?_cons, List.head?_cons]

theorem WellSpaced.head_ne_blank (h : WellSpaced gaps) : (spaced gaps).head? ≠ some ' ' := by
  cases gaps with
  | nil => nofun
  | cons first rest =>
    obtain ⟨c, behind, chars, solid, _⟩ := h.2.1.front
    rw [h.head, chars, List.head?_cons, Ne, Option.some.injEq]
    exact solid

/-- Where a separating character comes first, it is the first mark. -/
theorem WellSpaced.isCloser (h : WellSpaced gaps) (first : (gaps.map Prod.fst).head? = some next)
    (closer : c ∈ closers) (head : (spaced gaps).head? = some c) : next.IsCloser := by
  cases gaps with
  | nil => cases head
  | cons piece rest =>
    cases first
    obtain ⟨x, behind, chars, _, isCloser⟩ := h.2.1.front
    rw [h.head, chars, List.head?_cons, Option.some.injEq] at head
    exact isCloser (head ▸ closer)

theorem Closes.single (solid : c ≠ ' ') (h : Closes (c :: text) text') :
    ∃ tail, text' = c :: tail ∧ (Closes text tail ∨
      c ∈ closers ∧ ∃ behind, text = ' ' :: behind ∧ Closes behind tail) := by
  cases h with
  | keep _ rest => exact ⟨_, rfl, .inl rest⟩
  | after closer rest => exact ⟨_, rfl, .inr ⟨closer, _, rfl, rest⟩⟩
  | before => exact absurd rfl solid

/-- A mark stays, and a blank behind it may be removed if it is a separating character. -/
theorem Closes.behind_mark {ahead : List Char} (ends : mark.Ends gap ahead)
    (h : Closes (mark.chars ++ text) text') :
    ∃ tail, text' = mark.chars ++ tail ∧ (Closes text tail ∨
      mark.IsCloser ∧ ∃ behind, text = ' ' :: behind ∧ Closes behind tail) := by
  obtain ⟨c, behind, chars, solid, isCloser⟩ := ends.front
  cases mark with
  | word name =>
    obtain ⟨tail, rest, rfl⟩ := h.keep_all ends.1.solid
    exact ⟨tail, rfl, .inl rest⟩
  | sign | quote | opening | closing =>
    obtain ⟨rfl, rfl⟩ := List.cons.inj chars
    obtain ⟨tail, rfl, closed⟩ := Closes.single solid h
    exact ⟨tail, rfl, closed.imp_right (And.imp_left isCloser)⟩

theorem Closes.behind_blank (h : Closes (' ' :: text) text') :
    (∃ tail, text' = ' ' :: tail ∧ Closes text tail) ∨
      ∃ c ∈ closers, text.head? = some c ∧ Closes text text' := by
  cases h with
  | keep _ rest => exact .inl ⟨_, rfl, rest⟩
  | after closer => exact absurd closer (by decide)
  | before closer rest => exact .inr ⟨_, closer, rfl, rest⟩

/-- What removes blanks beside separating characters removes them between marks. -/
theorem Closes.tightened (before : WellSpaced gaps) (h : Closes (spaced gaps) text') :
    ∃ gaps', text' = spaced gaps' ∧ Tightened Mark.Beside gaps gaps' := by
  induction gaps generalizing text' with
  | nil =>
    cases h
    exact ⟨[], rfl, .nil⟩
  | cons first rest ih =>
    obtain ⟨mark, gap⟩ := first
    obtain ⟨inner, ends, later⟩ := before
    obtain ⟨tail, rfl, closed⟩ := Closes.behind_mark ends h
    cases gap with
    | false =>
      rcases closed with closes | ⟨_, behind, blank, _⟩
      · obtain ⟨gaps', rfl, tightened⟩ := ih later closes
        exact ⟨(mark, false) :: gaps', rfl, .keep mark false tightened⟩
      · exact absurd (congrArg List.head? blank) later.head_ne_blank
    | true =>
      obtain ⟨⟨next, gap⟩, behind, rfl⟩ := List.exists_cons_of_ne_nil (inner rfl)
      rcases closed with closes | ⟨closer, _, blank, closes⟩
      · rcases Closes.behind_blank closes with ⟨_, rfl, others⟩ | ⟨c, closer, head, others⟩
        · obtain ⟨gaps', rfl, tightened⟩ := ih later others
          exact ⟨(mark, true) :: gaps', rfl, .keep mark true tightened⟩
        · obtain ⟨gaps', rfl, tightened⟩ := ih later others
          exact ⟨(mark, false) :: gaps', rfl,
            .remove rfl (.inr (later.isCloser rfl closer head)) tightened⟩
      · obtain ⟨_, rfl⟩ := List.cons.inj blank
        obtain ⟨gaps', rfl, tightened⟩ := ih later closes
        exact ⟨(mark, false) :: gaps', rfl, .remove rfl (.inl closer) tightened⟩

/-! ## Marks that stay apart -/

theorem Mark.Ends.congr (same : text'.head? = text.head?) (h : mark.Ends gap text) :
    mark.Ends gap text' := by
  have head := spacedFrom_head gap same
  cases mark with
  | word name =>
    refine ⟨h.1, fun c first => h.2 c ?_⟩
    rwa [head] at first
  | sign c joint =>
    refine ⟨h.1, fun starts => h.2 ?_⟩
    rw [startsComment_cons_iff] at starts ⊢
    rwa [head] at starts
  | quote => exact h
  | opening | closing => trivial

/-- Beside a separating character a mark needs no blank behind it. -/
theorem Mark.Ends.closeUp (h : mark.Ends true text)
    (beside : mark.IsCloser ∨ ∃ c ∈ closers, text.head? = some c) : mark.Ends false text := by
  cases mark with
  | word name =>
    refine ⟨h.1, ?_⟩
    rcases beside with none | ⟨c, closer, head⟩
    · exact none.elim
    · obtain ⟨behind, rfl⟩ := List.head?_eq_some_iff.mp head
      exact endsWord_of_closer closer
  | sign x joint =>
    refine ⟨h.1, fun starts => ?_⟩
    obtain ⟨rfl, head⟩ := startsComment_cons_iff.mp starts
    rcases beside with closer | ⟨c, closer, head'⟩
    · have none : '/' ∉ closers := by decide
      exact absurd closer none
    · rw [spacedFrom, if_neg (by decide), head'] at head
      rcases head with same | same <;> cases same <;> exact absurd closer (by decide)
  | quote => cases h
  | opening | closing => trivial

theorem Tightened.head (h : Tightened Mark.Beside gaps gaps') (before : WellSpaced gaps) :
    (spaced gaps').head? = (spaced gaps).head? := by
  cases h with
  | nil => rfl
  | keep | remove =>
    obtain ⟨c, behind, chars, _⟩ := before.2.1.front
    simp [spaced, chars]

theorem Tightened.wellSpaced (h : Tightened Mark.Beside gaps gaps') (before : WellSpaced gaps) :
    WellSpaced gaps' := by
  induction h with
  | nil => trivial
  | @keep mark gap rest rest' others ih =>
    obtain ⟨inner, ends, later⟩ := before
    refine ⟨fun isGap none => inner isGap ?_, ends.congr (others.head later), ih later⟩
    have marks := others.map_fst
    rw [none] at marks
    exact List.map_eq_nil_iff.mp marks.symm
  | @remove mark next rest rest' follows between others ih =>
    obtain ⟨_, ends, later⟩ := before
    refine ⟨nofun, (ends.closeUp (between.imp_right ?_)).congr (others.head later), ih later⟩
    intro isCloser
    obtain ⟨c, closer, chars⟩ := isCloser.chars
    cases rest with
    | nil => cases follows
    | cons piece rest =>
      cases follows
      exact ⟨c, closer, by rw [later.head, chars]; rfl⟩

theorem WellSpaced.of_append {front : List (Mark × Bool)} (h : WellSpaced (front ++ rest)) :
    WellSpaced rest := by
  induction front with
  | nil => exact h
  | cons first front ih => exact ih h.2.2

/-- No comment starts at a mark. -/
theorem WellSpaced.not_startsComment (h : WellSpaced gaps) : ¬StartsComment (spaced gaps) := by
  cases gaps with
  | nil => simp [StartsComment, spaced]
  | cons first rest =>
    obtain ⟨mark, gap⟩ := first
    have ends := h.2.1
    cases mark with
    | word name =>
      obtain ⟨c, behind, chars⟩ := List.exists_cons_of_ne_nil ends.1.ne_nil
      have noSlash : '/' ∉ name.toList := ends.1.not_mem (by decide) (by decide)
      rw [spaced, Mark.chars, chars]
      rw [chars, List.mem_cons, not_or] at noSlash
      exact Source.not_startsComment (Ne.symm noSlash.1)
    | sign c joint => exact ends.2
    | quote => exact Source.not_startsComment (by decide)
    | opening d | closing d => exact Source.not_startsComment (by cases d <;> decide)

theorem Mark.Ends.no_orderMark (h : mark.Ends gap text) : mark.chars.head? ≠ some '\ufeff' := by
  cases mark with
  | word name =>
    have absent : '\ufeff' ∉ name.toList := h.1.not_mem (by decide +kernel) (by decide)
    exact fun first => absent (List.mem_of_mem_head? first)
  | sign c joint =>
    rintro ⟨⟩
    exact absurd h.1.1 (by decide)
  | quote => nofun
  | opening d | closing d => cases d <;> nofun

theorem WellSpaced.dropOrderMark (h : WellSpaced gaps) :
    dropOrderMark (spaced gaps) = spaced gaps := by
  refine dropOrderMark_eq ?_
  cases gaps with
  | nil => nofun
  | cons first rest =>
    rw [h.head]
    exact h.2.1.no_orderMark

end MiddlewareStack.Source
