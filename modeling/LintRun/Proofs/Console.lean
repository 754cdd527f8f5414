import Mathlib.Data.Bool.AllAny
import LintRun.Console

/-!
# What is printed without color

Text in which nothing is dropped, filled up or broken is printed as it is, with a line end behind
it (`printSpans_plain`). So a line of the log is its words behind the name of the program
(`write_error`).
-/
namespace LintRun

namespace Cell

/-- A character that is printed as it is: it is not dropped, and neither a tab nor a line end. -/
def IsKept (c : Char) : Prop := isDropped c = false ∧ c ≠ '\t' ∧ c ≠ '\n'

instance (c : Char) : Decidable (IsKept c) :=
  inferInstanceAs (Decidable (isDropped c = false ∧ c ≠ '\t' ∧ c ≠ '\n'))

/-- Cells that are printed as their characters. -/
structure IsPlain (cells : List Cell) : Prop where
  plain : ∀ c ∈ cells, c.style = .plain
  kept : ∀ c ∈ cells, IsKept c.char

variable {cells : List Cell}

theorem IsPlain.tail {c : Cell} (plain : IsPlain (c :: cells)) : IsPlain cells :=
  ⟨fun x member => plain.plain x (by simp [member]), fun x member => plain.kept x (by simp [member])⟩

theorem IsPlain.lines_eq (plain : IsPlain cells) : lines cells = [cells] := by
  induction cells with
  | nil => rfl
  | cons c rest ih =>
    have inside : c.char ≠ '\n' := (plain.kept c (by simp)).2.2
    simp only [lines, ih plain.tail, if_neg inside]

theorem IsPlain.cut_eq (plain : IsPlain cells) : cut cells = [cells] := by
  induction cells with
  | nil => rfl
  | cons c rest ih =>
    have inside : c.char ≠ '\t' := (plain.kept c (by simp)).2.1
    simp only [cut, ih plain.tail, if_neg inside]

theorem IsPlain.fill_eq (plain : IsPlain cells) (column : Nat) : fill column cells = cells := by
  unfold fill
  split
  · next s last =>
    exact absurd rfl (plain.kept ⟨s, '\t'⟩ (List.mem_of_getLast? last)).2.1
  · rfl

theorem IsPlain.expand_eq (plain : IsPlain cells) : expand cells = [cells] := by
  rw [expand, plain.cut_eq, fillFrom, fillFrom, plain.fill_eq]

/-- Without a second style there is a single run. -/
theorem runs_of_plain (plain : ∀ c ∈ cells, c.style = .plain) (some : cells ≠ []) :
    runs cells = [(.plain, cells.map (·.char))] := by
  induction cells with
  | nil => exact absurd rfl some
  | cons c rest ih =>
    obtain ⟨style, others⟩ := List.forall_mem_cons.mp plain
    cases rest with
    | nil => simp [runs, style]
    | cons x rest =>
      rw [runs, ih others (by simp)]
      simp [style]

theorem paint_of_plain (plain : ∀ c ∈ cells, c.style = .plain) :
    paint cells = cells.map (·.char) := by
  cases cells with
  | nil => rfl
  | cons c rest => simp [paint, runs_of_plain plain (by simp), Style.paint, Style.code?]

theorem IsPlain.paintLine_eq (plain : IsPlain cells) :
    paintLine cells = cells.map (·.char) ++ ['\n'] := by
  rw [paintLine, plain.expand_eq, List.flatMap_singleton, paint_of_plain plain.plain]

end Cell

namespace Console

def charsOf (spans : List Span) : List Char := spans.flatMap fun s => s.text.toList

theorem ofSpans_eq (spans : List Span) (style : ∀ s ∈ spans, s.style = .plain)
    (kept : ∀ c ∈ charsOf spans, Cell.IsKept c) :
    Cell.ofSpans spans = (charsOf spans).map fun c => ⟨.plain, c⟩ := by
  induction spans with
  | nil => rfl
  | cons s rest ih =>
    obtain ⟨here, later⟩ := List.forall_mem_cons.mp style
    rw [charsOf, List.flatMap_cons, List.forall_mem_append] at kept
    obtain ⟨first, others⟩ := kept
    have whole : (s.text.toList.filter fun c => !Cell.isDropped c) = s.text.toList :=
      List.filter_eq_self.mpr fun c member => by simp [(first c member).1]
    have behind := ih later others
    simp only [Cell.ofSpans, charsOf, List.flatMap_cons, List.map_append] at behind ⊢
    rw [behind, Cell.ofSpan, whole, here]

/-- Plain pieces are printed as one line that holds their characters. -/
theorem printSpans_plain (spans : List Span) (style : ∀ s ∈ spans, s.style = .plain)
    (kept : ∀ c ∈ charsOf spans, Cell.IsKept c) : printSpans spans = charsOf spans ++ ['\n'] := by
  have plain : Cell.IsPlain ((charsOf spans).map fun c => ⟨.plain, c⟩) := by
    constructor
    · simp
    · simpa using kept
  rw [printSpans, ofSpans_eq spans style kept, plain.lines_eq, List.flatMap_singleton,
    plain.paintLine_eq]
  simp [Function.comp_def]

/-- Without colors an error is printed behind the name of the program, with the word for it. -/
theorem write_error (name : String) (showsDebug : Bool) (words : String)
    (named : ∀ c ∈ name.toList, Cell.IsKept c) (kept : ∀ c ∈ words.toList, Cell.IsKept c) :
    (Console.mk name false showsDebug).write .error words =
      "[" ++ name ++ "] error " ++ words ++ "\n" := by
  have shown : spans ⟨name, false, showsDebug⟩ .error words =
      some [⟨.plain, "["⟩, ⟨.plain, name⟩, ⟨.plain, "] "⟩, ⟨.plain, "error"⟩,
        ⟨.plain, " " ++ words⟩] := rfl
  rw [write, shown, Option.map_some, Option.getD_some, printSpans_plain]
  · apply String.toList_injective
    simp [charsOf]
  · simp
  · simp only [charsOf, List.flatMap_cons, List.flatMap_nil, List.forall_mem_append,
      String.toList_append]
    have word (text : String) (shown : text.toList.all (Cell.IsKept ·) = true) :
        ∀ c ∈ text.toList, Cell.IsKept c := List.all_iff_forall_prop.mp shown
    exact ⟨word "[" (by decide), named, word "] " (by decide), word "error" (by decide),
      ⟨word " " (by decide), kept⟩, by simp⟩

end Console

end LintRun
