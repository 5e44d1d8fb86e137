/-!
# Text separated by double colons

Paths are written as segments with `::` between them. Cutting at the last separator and cutting at
every separator agree with joining: `joinSegments_splitSegments` and `splitLast_eq_some`.
-/

namespace MiddlewareStack.Text

/-- The text before and after the last separator. Of three colons in a row the last two separate. -/
def splitLast : List Char → Option (List Char × List Char)
  | [] => none
  | c :: rest =>
    match splitLast rest with
    | some (before, after) => some (c :: before, after)
    | none =>
      match c, rest with
      | ':', ':' :: after => some ([], after)
      | _, _ => none

/-- The texts between separators, of three colons in a row the first two separating. -/
def splitSegments : List Char → List (List Char)
  | [] => [[]]
  | ':' :: ':' :: rest => [] :: splitSegments rest
  | c :: rest =>
    match splitSegments rest with
    | [] => [[c]]
    | first :: others => (c :: first) :: others

def joinSegments : List (List Char) → List Char
  | [] => []
  | [only] => only
  | first :: second :: others => first ++ ':' :: ':' :: joinSegments (second :: others)

/-- The segments of a written path. -/
def segments (path : String) : List String :=
  (splitSegments path.toList).map String.ofList

/-- The written path of some segments. -/
def pathText (names : List String) : String :=
  "::".intercalate names

theorem splitSegments_ne_nil (cs : List Char) : splitSegments cs ≠ [] := by
  fun_cases splitSegments cs <;> simp_all

theorem joinSegments_cons_of_ne_nil (c : Char) (first : List Char) (others : List (List Char)) :
    joinSegments ((c :: first) :: others) = c :: joinSegments (first :: others) := by
  cases others <;> simp [joinSegments]

theorem joinSegments_splitSegments (cs : List Char) : joinSegments (splitSegments cs) = cs := by
  fun_induction splitSegments cs with
  | case1 => rfl
  | case2 rest ih =>
    cases h : splitSegments rest with
    | nil => exact absurd h (splitSegments_ne_nil rest)
    | cons first others => rw [h] at ih; simp [joinSegments, ih]
  | case3 c rest _ h => exact absurd h (splitSegments_ne_nil rest)
  | case4 c rest _ first others h ih =>
    rw [h] at ih
    rw [joinSegments_cons_of_ne_nil, ih]

/-- What is cut at the last separator is put together again by the separator. -/
theorem splitLast_eq_some {cs before after : List Char} (h : splitLast cs = some (before, after)) :
    cs = before ++ ':' :: ':' :: after := by
  fun_induction splitLast cs generalizing before with
  | case1 => simp at h
  | case2 c rest b a hrest ih =>
    simp only [Option.some.injEq, Prod.mk.injEq] at h
    obtain ⟨rfl, rfl⟩ := h
    rw [ih hrest, List.cons_append]
  | case3 =>
    simp only [Option.some.injEq, Prod.mk.injEq] at h
    obtain ⟨rfl, rfl⟩ := h
    rfl
  | case4 => simp at h

end MiddlewareStack.Text
