/-
The printed log. Each entry is printed with a line feed behind it, so the lines of a text up to an
entry are not changed by what comes after, and an entry whose message holds no line break is a line
of its own. The messages that end a session hold none.
-/
import Chip8.Proofs.Hex
import Chip8.Session

namespace Chip8

/-! ## Lines of a text -/

namespace Lines

/-- Text that is complete: nothing stands behind its last line feed. -/
def Complete (s : List Char) : Prop := s = [] ∨ s.getLast? = some '\n'

theorem Complete.tail {c d : Char} {s : List Char} (h : Complete (c :: d :: s)) : Complete (d :: s) := by
  rcases h with h | h
  · cases h
  · exact .inr (by rwa [List.getLast?_cons_cons] at h)

theorem Complete.of_cons {c : Char} {s : List Char} (h : Complete (c :: s)) : Complete s := by
  cases s with
  | nil => exact .inl rfl
  | cons d s => exact h.tail

theorem split_of_break {c : Char} (hc : isBreak c = true) {s : List Char}
    (hr : ∀ t, c = '\r' → s = '\n' :: t → False) : split (c :: s) = [] :: split s := by
  rw [split.eq_3 _ _ hr, if_pos hc]

theorem split_of_not_break {c : Char} (hc : isBreak c = false) (s : List Char) : split (c :: s) =
    match split s with
    | [] => [[c]]
    | line :: lines => (c :: line) :: lines := by
  have hr : ∀ t, c = '\r' → s = '\n' :: t → False := by
    rintro t rfl -
    exact absurd hc (by decide)
  exact (split.eq_3 _ _ hr).trans (if_neg (by simp [hc]))

/-- What follows a complete text adds lines behind those of the text. -/
theorem split_append {s : List Char} (h : Complete s) (t : List Char) :
    split (s ++ t) = split s ++ split t := by
  fun_induction split s with
  | case1 => rfl
  | case2 rest ih => exact congrArg ([] :: ·) (ih h.of_cons.of_cons)
  | case3 c rest hr hc ih =>
    -- a carriage return at the end of `s` would take a line feed of `t` with it
    have hr' : ∀ u, c = '\r' → rest ++ t = '\n' :: u → False := by
      rintro u rfl hu
      cases rest with
      | nil => rcases h with h | h <;> cases h
      | cons d rest =>
        obtain rfl : d = '\n' := (List.cons.inj hu).1
        exact hr rest rfl rfl
    rw [List.cons_append, split_of_break hc hr', ih h.of_cons]
    rfl
  | case4 c rest hr hc hnil ih =>
    -- without a line feed behind it the text would not be complete
    rw [split_eq_nil_iff] at hnil
    subst hnil
    rcases h with h | h
    · cases h
    · obtain rfl : c = '\n' := Option.some.inj h
      exact absurd rfl hc
  | case5 c rest hr hc line lines hcons ih =>
    have hc' : isBreak c = false := by simpa using hc
    rw [List.cons_append, split_of_not_break hc', ih h.of_cons, hcons]
    rfl

/-- The text has no line break in it. -/
def isLine (s : List Char) : Bool := s.all fun c => !isBreak c

theorem isLine_append (s t : List Char) : isLine (s ++ t) = (isLine s && isLine t) :=
  List.all_append

theorem split_line {line : List Char} (h : isLine line = true) : split (line ++ ['\n']) = [line] := by
  induction line with
  | nil => rfl
  | cons c rest ih =>
    obtain ⟨hc, hrest⟩ := Bool.and_eq_true_iff.1 (List.all_cons.symm.trans h)
    rw [Bool.not_eq_true'] at hc
    rw [List.cons_append, split_of_not_break hc, ih hrest]

end Lines

/-! ## Lines of a log -/

/-- What stands before the message in a line of the standard logger. -/
def Logger.head (v : Level) : String := "[chipjax] " ++ Logger.tag v false ++ " "

theorem Logger.line_eq_head (e : LogEntry) :
    Logger.standard.line false e = Logger.head e.level ++ e.message := by
  cases e
  rfl

theorem Logger.isLine_line {e : LogEntry} (h : Lines.isLine e.message.toList = true) :
    Lines.isLine (Logger.standard.line false e).toList = true := by
  have hhead : Lines.isLine (Logger.head e.level).toList = true := by
    cases e.level <;> decide +kernel
  rw [Logger.line_eq_head, String.toList_append, Lines.isLine_append, hhead, h]
  rfl

namespace Session

/-- The characters that an entry takes. -/
def entryText (e : LogEntry) : List Char := (Logger.standard.line false e).toList ++ ['\n']

theorem toList_text (S : Session) : S.text.toList = S.log.flatMap entryText := by
  rw [text, String.toList_join, List.flatMap_map]
  simp only [String.toList_append]
  rfl

theorem complete_entries (es : List LogEntry) : Lines.Complete (es.flatMap entryText) := by
  induction es with
  | nil => exact .inl rfl
  | cons e es ih =>
    refine .inr ?_
    rw [List.flatMap_cons, List.getLast?_append]
    rcases ih with h | h
    · rw [h, entryText, List.getLast?_append]
      rfl
    · rw [h]
      rfl

/-- If the last message of a session holds no line break, it makes the last line printed. -/
theorem getLast?_lines {S : Session} {e : LogEntry} (h : S.log.getLast? = some e)
    (hb : Lines.isLine e.message.toList = true) :
    S.lines.getLast? = some (Logger.standard.line false e) := by
  obtain ⟨before, hlog⟩ := List.getLast?_eq_some_iff.1 h
  have hline := Lines.split_line (Logger.isLine_line hb)
  rw [lines, Lines.ofString, toList_text, hlog, List.flatMap_append, List.flatMap_singleton, entryText,
    Lines.split_append (complete_entries before), hline, List.map_append, List.getLast?_append]
  simp

end Session

/-! ## The message of a halt -/

theorem Hex.isLine_padded (width n : Nat) : Lines.isLine (Hex.padded width n).toList = true := by
  have hall : Lines.isLine Hex.alphabet = true := by decide
  refine List.all_eq_true.2 fun c hc => ?_
  exact List.all_eq_true.1 hall c (Hex.mem_alphabet_of_mem_padded hc)

theorem Halt.isLine_message (f : Fault) (pc index : Nat) :
    Lines.isLine (Halt.fault f pc index).message.toList = true := by
  have hdescription : Lines.isLine f.description.toList = true := by cases f <;> decide
  have hpc := Hex.isLine_padded 3 pc
  have hindex := Hex.isLine_padded 3 index
  simp only [Halt.message, String.toList_append, Lines.isLine_append, hdescription, hpc, hindex]
  decide

end Chip8
