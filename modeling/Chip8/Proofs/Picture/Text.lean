/-
Text pictures can be read back. Rows are joined by line feeds, which stand in no marker, so cutting the
text at them gives the rows; and the two markers are equally long, so cutting a row into pieces of
this length gives its markers. Pictures of one shape therefore differ in their text wherever they
differ in a pixel.
-/
import Chip8.Picture

namespace Chip8.Bitmap

/-- The characters of a pixel. -/
def marker (on off : String) (lit : Bool) : List Char := if lit then on.toList else off.toList

/-- The first `n` pieces of length `l`. -/
def pieces (l n : Nat) (line : List Char) : List (List Char) :=
  (List.range n).map fun j => (line.drop (j * l)).take l

/-- The bitmap of a text picture with `w` markers of length `l` in a line. -/
def ofText (on : String) (l w : Nat) (text : List Char) : Bitmap :=
  (text.splitOn '\n').map fun line => (pieces l w line).map (· = on.toList)

/-! ## Markers -/

section Markers

variable {on off : String} {l : Nat}

theorem length_marker (hon : on.length = l) (hoff : off.length = l) (lit : Bool) :
    (marker on off lit).length = l := by
  cases lit with
  | true => exact String.length_toList.trans hon
  | false => exact String.length_toList.trans hoff

theorem not_mem_marker {c : Char} (hon : c ∉ on.toList) (hoff : c ∉ off.toList) (lit : Bool) :
    c ∉ marker on off lit := by
  cases lit with
  | true => exact hon
  | false => exact hoff

/-- The two markers are told apart. -/
theorem marker_eq_on_iff (h : on ≠ off) (lit : Bool) : marker on off lit = on.toList ↔ lit = true := by
  cases lit with
  | true => exact iff_of_true rfl rfl
  | false =>
    refine iff_of_false (fun he => h ?_) Bool.false_ne_true
    exact (String.toList_inj.1 he).symm

end Markers

/-! ## Lines -/

section Lines

variable {on off : String} {l w : Nat}

theorem toList_textLine (row : List Bool) :
    (textLine on off row).toList = row.flatMap (marker on off) := by
  rw [textLine, String.toList_join, List.flatMap_map]
  congr 1
  funext lit
  cases lit <;> rfl

theorem length_flatMap_marker (hon : on.length = l) (hoff : off.length = l) (row : List Bool) :
    (row.flatMap (marker on off)).length = row.length * l := by
  induction row with
  | nil => simp
  | cons lit row ih =>
    rw [List.flatMap_cons, List.length_append, length_marker hon hoff, ih, List.length_cons,
      Nat.succ_mul, Nat.add_comm]

/-- The first piece is what stands before all others. -/
theorem pieces_append {first : List Char} (hl : first.length = l) (n : Nat) (rest : List Char) :
    pieces l (n + 1) (first ++ rest) = first :: pieces l n rest := by
  subst hl
  rw [pieces, List.range_succ_eq_map, List.map_cons, List.map_map, pieces]
  congr 1
  · simp
  · refine List.map_congr_left fun j _ => ?_
    simp [Nat.succ_mul, Nat.add_comm, ← List.drop_drop]

theorem pieces_flatMap (hon : on.length = l) (hoff : off.length = l) (row : List Bool) :
    pieces l row.length (row.flatMap (marker on off)) = row.map (marker on off) := by
  induction row with
  | nil => rfl
  | cons lit row ih =>
    rw [List.flatMap_cons, List.length_cons, pieces_append (length_marker hon hoff lit), ih,
      List.map_cons]

end Lines

/-! ## Pictures -/

section Pictures

variable {on off : String} {l w : Nat} {b : Bitmap}

theorem toList_text (b : Bitmap) :
    (b.text on off).toList = ['\n'].intercalate (b.map (·.flatMap (marker on off))) := by
  rw [text, String.toList_intercalate, List.map_map]
  congr 1
  exact List.map_congr_left fun row _ => toList_textLine row

/-- The lines of the text are those of the rows. -/
theorem splitOn_text (hon : '\n' ∉ on.toList) (hoff : '\n' ∉ off.toList) (hb : b ≠ []) :
    (b.text on off).toList.splitOn '\n' = b.map (·.flatMap (marker on off)) := by
  have hline : ∀ line ∈ b.map (·.flatMap (marker on off)), '\n' ∉ line := by
    simp only [List.mem_map, forall_exists_index, and_imp]
    rintro _ row - rfl hmem
    obtain ⟨lit, -, hlit⟩ := List.mem_flatMap.1 hmem
    exact not_mem_marker hon hoff lit hlit
  rw [toList_text, List.splitOn_intercalate _ hline (by simpa using hb)]

theorem ofText_text (hon : on.length = l) (hoff : off.length = l) (hne : on ≠ off)
    (hbon : '\n' ∉ on.toList) (hboff : '\n' ∉ off.toList) (hb : b ≠ [])
    (hrect : ∀ row ∈ b, row.length = w) : ofText on l w (b.text on off).toList = b := by
  rw [ofText, splitOn_text hbon hboff hb, List.map_map]
  refine (List.map_congr_left fun row hrow => ?_).trans (List.map_id b)
  rw [Function.comp_apply, ← hrect row hrow, pieces_flatMap hon hoff, List.map_map]
  refine List.map_id'' (fun lit => ?_) row
  simp [marker_eq_on_iff hne]

/-- The text of equally long rows of numbers, in two different markers of one length without a line
feed: cut at the line feeds it has a line for each row, and cut into pieces of the length of the
markers a line has the marker of each number. Rows of one shape have one text if and only if the same
numbers among them are zero. -/
theorem text_reads_back (hon : on.length = l) (hoff : off.length = l) (hne : on ≠ off)
    (hbon : '\n' ∉ on.toList) (hboff : '\n' ∉ off.toList) {rows : List (List Int)} (hrows : rows ≠ [])
    (hrect : ∀ row ∈ rows, row.length = w) :
    let lines := ((ofInts rows).text on off).toList.splitOn '\n'
    lines.length = rows.length ∧
    (∀ line ∈ lines, line.length = w * l) ∧
    lines.map (pieces l w) =
      rows.map (fun row => row.map fun n => if n ≠ 0 then on.toList else off.toList) ∧
    ∀ rows' : List (List Int), rows'.length = rows.length → (∀ row ∈ rows', row.length = w) →
      ((ofInts rows').text on off = (ofInts rows).text on off ↔ ofInts rows' = ofInts rows) := by
  have hb {rows : List (List Int)} (h : rows ≠ []) : ofInts rows ≠ [] := by simpa [ofInts] using h
  intro lines
  have hlines : lines = (ofInts rows).map (·.flatMap (marker on off)) :=
    splitOn_text hbon hboff (hb hrows)
  have hshape := length_of_mem_ofInts hrect
  refine ⟨?_, ?_, ?_, fun rows' hlen hrect' => ⟨fun htext => ?_, fun h => congrArg _ h⟩⟩
  · rw [hlines, List.length_map, length_ofInts]
  · rw [hlines, List.forall_mem_map]
    intro row hrow
    rw [length_flatMap_marker hon hoff, hshape row hrow]
  · rw [hlines, ofInts, List.map_map, List.map_map]
    refine List.map_congr_left fun row hrow => ?_
    have hpieces := pieces_flatMap hon hoff (row.map fun n => decide (n ≠ 0))
    rw [List.length_map, hrect row hrow] at hpieces
    refine hpieces.trans ?_
    simp [marker]
  · -- reading the text gives the bitmap back
    have hrows' : rows' ≠ [] := by
      rw [← List.length_pos_iff, hlen]
      exact List.length_pos_iff.2 hrows
    have hread := ofText_text hon hoff hne hbon hboff (hb hrows) hshape
    rw [← htext, ofText_text hon hoff hne hbon hboff (hb hrows') (length_of_mem_ofInts hrect')] at hread
    exact hread

end Pictures

/-- Two rows of three pixels, in markers of two characters that begin alike. -/
theorem text_reads_back_alikeMarkers :
    let lines := ((ofInts [[1, 0, -3], [0, 7, 0]]).text "[]" "[ ").toList.splitOn '\n'
    lines.length = 2 ∧ (∀ line ∈ lines, line.length = 3 * 2) ∧
      lines.map (pieces 2 3) = [["[]".toList, "[ ".toList, "[]".toList],
        ["[ ".toList, "[]".toList, "[ ".toList]] ∧
      (ofInts [[2, 0, 5], [0, -1, 0]]).text "[]" "[ " =
        (ofInts [[1, 0, -3], [0, 7, 0]]).text "[]" "[ " ∧
      (ofInts [[2, 0, 5], [0, -1, 1]]).text "[]" "[ " ≠
        (ofInts [[1, 0, -3], [0, 7, 0]]).text "[]" "[ " := by
  obtain ⟨hlength, hlines, hpieces, htext⟩ := @text_reads_back "[]" "[ " 2 3 rfl rfl (by decide)
    (by decide) (by decide) [[1, 0, -3], [0, 7, 0]] (by decide) (by decide)
  have hsame := htext [[2, 0, 5], [0, -1, 0]] rfl (by decide)
  have hother := htext [[2, 0, 5], [0, -1, 1]] rfl (by decide)
  exact ⟨hlength, hlines, hpieces, hsame.2 (by decide), fun h => absurd (hother.1 h) (by decide)⟩

end Chip8.Bitmap
