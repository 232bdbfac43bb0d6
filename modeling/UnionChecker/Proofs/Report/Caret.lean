import Mathlib.Data.List.Forall2
import UnionChecker.Report.Caret
/-!
# Excerpts are aligned

All rows of an excerpt have a margin of one width, which holds the numbers of the lines, and the caret
stands under the column of the error (`Report.Shown`). The width is that of the last number shown, and
no number before it is wider.
-/

namespace UnionChecker

open Text

/-- The lines of a text with numbers from `first` up to `stop`, without `stop`, and these numbers. -/
def Text.linesBetween (lines : List (List Char)) (first stop : Nat) : List (List Char × Nat) :=
  (lines.zipIdx 1).filter fun p => first ≤ p.2 && p.2 < stop

/-- The row shows a line and its number: the number is padded to the width of the margin. -/
def Excerpt.RowOf (margin : Nat) (row : List Char) (line : List Char × Nat) : Prop :=
  ∃ gap, row = '|' :: ' ' :: decimal line.2 ++ spaces gap ++ ' ' :: '|' :: ' ' :: line.1 ∧
    (decimal line.2).length + gap + 5 = margin

open Excerpt (RowOf)

/-- The text shows where the error is: the three lines before, the line, a caret under the column of
the error, which the row has at its own place behind the margin, and the two lines after. What is cut
out of the source for it lies within the source. -/
def Report.Shown (r : Report) (lines : List (List Char)) (text : String) : Prop :=
  ∃ (margin : Nat) (before after : List (List Char)) (row shown : List Char),
    text = String.ofList (joinLines (before ++ row ::
      (spaces (margin + (r.span.column - 1)) ++ '^' :: ' ' :: r.message.toList) :: after)) ∧
    lines[max r.span.line 1 - 1]? = some shown ∧ RowOf margin row (shown, max r.span.line 1) ∧
    row[margin + (r.span.column - 1)]? = shown[r.span.column - 1]? ∧
    List.Forall₂ (RowOf margin) before
      (linesBetween lines (max r.span.line 1 - 3) (max r.span.line 1)) ∧
    List.Forall₂ (RowOf margin) after
      (linesBetween lines (max r.span.line 1 + 1) (max r.span.line 1 + 3)) ∧
    InRange lines (max r.span.line 1 - 1 - 3) (max r.span.line 1 - 1) ∧
    InRange lines (max r.span.line 1 - 1 + 1) (min (max r.span.line 1 - 1 + 3) lines.length)

/-! ## The lines around a line -/

theorem filter_zipIdx {α : Type} (l : List α) (first stop k : Nat) :
    (l.zipIdx k).filter (fun p => first ≤ p.2 && p.2 < stop) =
      ((l.take (stop - k)).drop (first - k)).zipIdx (max first k) := by
  induction l generalizing k with
  | nil => simp
  | cons a l ih =>
    rw [List.zipIdx_cons, List.filter_cons, ih]
    by_cases hstop : k < stop
    · obtain ⟨n, hn⟩ : ∃ n, stop - k = n + 1 := ⟨stop - k - 1, by omega⟩
      have hn' : stop - (k + 1) = n := by omega
      by_cases hfirst : first ≤ k
      · simp [hn, hn', hstop, hfirst, Nat.sub_eq_zero_of_le, Nat.le_succ_of_le]
      · obtain ⟨m, hm⟩ : ∃ m, first - k = m + 1 := ⟨first - k - 1, by omega⟩
        have hm' : first - (k + 1) = m := by omega
        have hmax : max first (k + 1) = max first k := by omega
        simp [hn, hn', hm, hm', hmax, hfirst]
    · simp [hstop, Nat.sub_eq_zero_of_le (show stop ≤ k by omega),
        Nat.sub_eq_zero_of_le (show stop ≤ k + 1 by omega)]

theorem linesBetween_before {lines : List (List Char)} {number : Nat} (h : 0 < number)
    (hrange : InRange lines (number - 1 - 3) (number - 1)) :
    linesBetween lines (number - 3) number = (slice lines _ _ hrange).zipIdx
      (number - (slice lines _ _ hrange).length) := by
  rw [linesBetween, filter_zipIdx, Nat.sub_right_comm, slice, List.length_drop, List.length_take,
    Nat.min_eq_left hrange.2]
  congr 1
  omega

theorem linesBetween_after {lines : List (List Char)} {number : Nat} (h : 0 < number)
    (hrange : InRange lines (number - 1 + 1) (min (number - 1 + 3) lines.length)) :
    linesBetween lines (number + 1) (number + 3) =
      (slice lines _ _ hrange).zipIdx (number + 1) := by
  rw [linesBetween, filter_zipIdx, slice, ← List.take_eq_take_min, Nat.max_eq_left (by omega)]
  congr 3 <;> omega

/-! ## Rows -/

theorem digitCount_mono {m n : Nat} (h : m ≤ n) : digitCount m ≤ digitCount n := by
  have hpos : 0 < digitCount n := List.length_pos_iff.2 Nat.toDigits_ne_nil
  exact (Nat.length_toDigits_le_iff (by decide) hpos).2
    (Nat.lt_of_le_of_lt h ((Nat.length_toDigits_le_iff (by decide) hpos).1 (Nat.le_refl _)))

namespace Excerpt

theorem rowOf_numbered {width number : Nat} {text : List Char} (h : digitCount number ≤ width) :
    RowOf (width + 5) (numbered width number text) (text, number) := by
  have hwidth : digitCount number + (width - digitCount number) + 5 = width + 5 := by omega
  exact ⟨width - digitCount number, rfl, hwidth⟩

theorem rowOf_numberedFrom {width last : Nat} (h : digitCount last ≤ width)
    (lines : List (List Char)) {first : Nat} (hlast : first + lines.length ≤ last + 1) :
    List.Forall₂ (RowOf (width + 5)) (numberedFrom width first lines) (lines.zipIdx first) := by
  induction lines generalizing first with
  | nil => exact .nil
  | cons line lines ih =>
    rw [List.length_cons] at hlast
    refine .cons (rowOf_numbered (Nat.le_trans (digitCount_mono ?_) h)) (ih ?_) <;> omega

/-- Behind the margin a row has the characters of its line. -/
theorem RowOf.getElem? {margin i : Nat} {row : List Char} {line : List Char × Nat}
    (h : RowOf margin row line) : row[margin + i]? = line.1[i]? := by
  obtain ⟨gap, rfl, rfl⟩ := h
  have hrow : '|' :: ' ' :: decimal line.2 ++ spaces gap ++ ' ' :: '|' :: ' ' :: line.1 =
      ('|' :: ' ' :: decimal line.2 ++ spaces gap ++ [' ', '|', ' ']) ++ line.1 := by simp
  have hlength : ('|' :: ' ' :: decimal line.2 ++ spaces gap ++ [' ', '|', ' ']).length =
      (decimal line.2).length + gap + 5 := by simp [spaces]; omega
  rw [hrow, List.getElem?_append_right (by omega), hlength, Nat.add_sub_cancel_left]

end Excerpt

/-- An error at a line and column that the text has is shown with the lines around it, all in line. -/
theorem caret_shown (r : Report) (source : String)
    (hline : max r.span.line 1 ≤ (splitLines source.toList).length) (hcolumn : 1 ≤ r.span.column) :
    r.Shown (splitLines source.toList) (r.caret source) := by
  have hpos : 0 < max r.span.line 1 := by omega
  unfold Report.Shown Report.caret
  generalize splitLines source.toList = lines at *
  generalize max r.span.line 1 = number at *
  have hbefore : InRange lines (number - 1 - 3) (number - 1) := ⟨by omega, by omega⟩
  have hafter : InRange lines (number - 1 + 1) (min (number - 1 + 3) lines.length) :=
    ⟨by omega, by omega⟩
  have hindex : number - 1 < lines.length := by omega
  rw [linesBetween_before hpos hbefore, linesBetween_after hpos hafter]
  simp only [Excerpt.around?, dif_pos hindex]
  have hlength : (slice lines _ _ hbefore).length ≤ number := by
    rw [slice, List.length_drop, List.length_take]
    omega
  generalize slice lines _ _ hbefore = before at *
  generalize slice lines _ _ hafter = after
  -- the last number shown is the widest
  have hwidth := Nat.le_refl (digitCount (number + after.length))
  have hrow : RowOf (_ + 5) _ (lines[number - 1], number) :=
    Excerpt.rowOf_numbered (digitCount_mono (Nat.le_add_right number after.length))
  refine ⟨_, _, _, _, lines[number - 1], ?_, List.getElem?_eq_getElem hindex, hrow, hrow.getElem?,
    Excerpt.rowOf_numberedFrom hwidth before (by omega),
    Excerpt.rowOf_numberedFrom hwidth after (by omega), hbefore, hafter⟩
  have hcaret : digitCount (number + after.length) + 5 + (r.span.column - 1) =
      r.span.column + digitCount (number + after.length) + 4 := by omega
  rw [hcaret]
  rfl

/-- The line after the error has a wider number, and there is no second one. -/
theorem caret_shown_wider_number :
    (⟨.typeMismatch, "no y", "a", ⟨0, 0, 9, 6⟩⟩ : Report).Shown
      (splitLines "\n\n\n\n\n\n\n\nx := y\n".toList)
      "| 6  | \n| 7  | \n| 8  | \n| 9  | x := y\n            ^ no y\n| 10 | " :=
  caret_shown ⟨.typeMismatch, "no y", "a", ⟨0, 0, 9, 6⟩⟩ "\n\n\n\n\n\n\n\nx := y\n"
    (by decide) (by decide)

end UnionChecker
