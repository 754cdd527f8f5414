import Mathlib.Data.List.Induction
import LintRun.Proofs.Console

/-!
# What is lost on the console

Without colors a line of the log is printed as it is but for tabs, which become spaces, and the five
control characters, which are gone (`Shows`, `shows_write`). So its words are printed verbatim
exactly if they hold none of these (`printed_verbatim_iff`).
-/
namespace LintRun

namespace Cell

/-- A character that is printed as it is, wherever it stands: neither dropped nor a tab. -/
def IsCopied (c : Char) : Prop := isDropped c = false ∧ c ≠ '\t'

instance (c : Char) : Decidable (IsCopied c) :=
  inferInstanceAs (Decidable (isDropped c = false ∧ c ≠ '\t'))

/-- A text and how it is printed: some control characters are gone, for each tab there are some
spaces, at most up to the next stop, and nothing else has changed. -/
inductive Shows : List Char → List Char → Prop where
  | nil : Shows [] []
  | copied {c : Char} {text shown : List Char} (same : IsCopied c) (rest : Shows text shown) :
    Shows (c :: text) (c :: shown)
  | dropped {c : Char} {text shown : List Char} (gone : isDropped c = true)
    (rest : Shows text shown) : Shows (c :: text) shown
  | tab {text shown : List Char} (spaces : Nat) (some : 0 < spaces) (few : spaces ≤ tabStop)
    (rest : Shows text shown) : Shows ('\t' :: text) (List.replicate spaces ' ' ++ shown)

section Shows

variable {text shown : List Char}

theorem Shows.append {first second a b : List Char} (front : Shows first a)
    (back : Shows second b) : Shows (first ++ second) (a ++ b) := by
  induction front with
  | nil => exact back
  | copied same _ ih => exact .copied same ih
  | dropped gone _ ih => exact .dropped gone ih
  | tab spaces some few _ ih =>
    rw [List.append_assoc]
    exact .tab spaces some few ih

/-- Nothing that is printed is dropped or filled up a second time. -/
theorem Shows.isCopied (shows : Shows text shown) : ∀ c ∈ shown, IsCopied c := by
  induction shows with
  | nil => simp
  | copied same _ ih => exact List.forall_mem_cons.mpr ⟨same, ih⟩
  | dropped _ _ ih => exact ih
  | tab spaces _ _ _ ih =>
    have space : ∀ c ∈ List.replicate spaces ' ', IsCopied c := fun c member =>
      List.eq_of_mem_replicate member ▸ by decide
    exact List.forall_mem_append.mpr ⟨space, ih⟩

/-- A text is printed as it is exactly if it holds no tab and nothing that is dropped. -/
theorem Shows.eq_iff (shows : Shows text shown) : shown = text ↔ ∀ c ∈ text, IsCopied c := by
  constructor
  · rintro rfl
    exact shows.isCopied
  · intro copied
    induction shows with
    | nil => rfl
    | copied _ _ ih => rw [ih (List.forall_mem_cons.mp copied).2]
    | dropped gone => simp [IsCopied, gone] at copied
    | tab => simp [IsCopied] at copied

theorem shows_self (copied : ∀ c ∈ text, IsCopied c) : Shows text text := by
  induction text with
  | nil => exact .nil
  | cons c text ih =>
    obtain ⟨same, others⟩ := List.forall_mem_cons.mp copied
    exact .copied same (ih others)

/-- Characters that are dropped before the rest is printed are gone. -/
theorem Shows.of_filter (shows : Shows (text.filter fun c => !isDropped c) shown) :
    Shows text shown := by
  induction text generalizing shown with
  | nil => exact shows
  | cons c text ih =>
    cases gone : isDropped c with
    | true =>
      rw [List.filter_cons_of_neg (by simp [gone])] at shows
      exact .dropped gone (ih shows)
    | false =>
      rw [List.filter_cons_of_pos (by simp [gone])] at shows
      cases shows with
      | copied same rest => exact .copied same (ih rest)
      | dropped never => rw [gone] at never; cases never
      | tab spaces some few rest => exact .tab spaces some few (ih rest)

end Shows

def chars (cells : List Cell) : List Char := cells.map (·.char)

/-- Cells without a style, none of which is dropped. -/
structure IsBare (cells : List Cell) : Prop where
  plain : ∀ c ∈ cells, c.style = .plain
  kept : ∀ c ∈ cells, isDropped c.char = false

section Lines

variable {cells line piece : List Cell}

theorem IsBare.of_subset (bare : IsBare cells) (part : piece ⊆ cells) : IsBare piece :=
  ⟨fun c member => bare.plain c (part member), fun c member => bare.kept c (part member)⟩

theorem flatten_cut (line : List Cell) : (cut line).flatten = line := by
  induction line with
  | nil => rfl
  | cons c rest ih =>
    unfold cut
    split
    · next none =>
      rw [none] at ih
      rw [← ih]
      rfl
    · next first others here =>
      rw [here] at ih
      split <;> simp [← ih]

/-- A piece of a line has a tab at its end only. -/
theorem ne_tab_of_mem_cut (member : piece ∈ cut line) : ∀ c ∈ piece.dropLast, c.char ≠ '\t' := by
  induction line generalizing piece with
  | nil =>
    rw [List.mem_singleton.mp member]
    simp
  | cons c rest ih =>
    unfold cut at member
    split at member
    · next none =>
      rw [List.mem_singleton.mp member]
      simp
    · next first others here =>
      split at member
      · rcases List.mem_cons.mp member with rfl | later
        · simp
        · exact ih (here ▸ later)
      · next other =>
        rcases List.mem_cons.mp member with rfl | later
        · cases first with
          | nil => simp
          | cons d first =>
            rw [List.dropLast_cons_cons]
            exact List.forall_mem_cons.mpr ⟨other, ih (here ▸ List.mem_cons_self)⟩
        · exact ih (here ▸ List.mem_cons_of_mem _ later)

/-- A stop is less than eight columns away. -/
theorem missing_lt (columns : Nat) : missing columns < tabStop := Nat.mod_lt _ (by decide)

/-- A piece without styles is printed with spaces for the tab at its end. -/
theorem shows_fill (column : Nat) (bare : IsBare piece)
    (tabs : ∀ c ∈ piece.dropLast, c.char ≠ '\t') :
    Shows (chars piece) (paint (fill column piece)) := by
  cases piece using List.reverseRecOn with
  | nil => exact .nil
  | append_singleton front c =>
    rw [List.dropLast_concat] at tabs
    have before : ∀ d ∈ front, d.style = .plain := fun d member => bare.plain d (by simp [member])
    have copied : ∀ d ∈ chars front, IsCopied d := by
      simp only [chars, List.forall_mem_map]
      exact fun d member => ⟨bare.kept d (by simp [member]), tabs d member⟩
    have split : chars (front ++ [c]) = chars front ++ [c.char] := List.map_append
    by_cases last : c.char = '\t'
    · have ended : c = ⟨.plain, '\t'⟩ := by rw [← bare.plain c (by simp), ← last]
      obtain ⟨more, few, filled⟩ : ∃ more < tabStop, fill column (front ++ [c]) =
          front ++ [⟨.plain, ' '⟩] ++ List.replicate more ⟨.plain, ' '⟩ :=
        ⟨missing (column + width (front ++ [⟨.plain, ' '⟩])), missing_lt _, by simp [fill, ended]⟩
      have plain : ∀ d ∈ fill column (front ++ [c]), d.style = .plain := by
        rw [filled]
        simp only [List.forall_mem_append, List.forall_mem_singleton, and_true]
        exact ⟨before, fun d member => by rw [List.eq_of_mem_replicate member]⟩
      have painted : paint (fill column (front ++ [c])) =
          chars front ++ (List.replicate (more + 1) ' ' ++ []) := by
        rw [paint_of_plain plain, filled]
        simp [chars, List.replicate_succ]
      rw [painted, split, last]
      exact (shows_self copied).append (.tab (more + 1) (Nat.succ_pos more) few .nil)
    · have filled : fill column (front ++ [c]) = front ++ [c] := by
        obtain ⟨style, char⟩ := c
        simp [fill, show char ≠ '\t' from last]
      have painted : paint (fill column (front ++ [c])) = chars (front ++ [c]) := by
        rw [filled, paint_of_plain bare.plain, chars]
      rw [painted, split]
      exact shows_self (List.forall_mem_append.mpr
        ⟨copied, List.forall_mem_singleton.mpr ⟨bare.kept c (by simp), last⟩⟩)

/-- Pieces are printed one after the other. -/
theorem shows_fillFrom (column : Nat) {pieces : List (List Cell)}
    (bare : ∀ piece ∈ pieces, IsBare piece)
    (tabs : ∀ piece ∈ pieces, ∀ c ∈ piece.dropLast, c.char ≠ '\t') :
    Shows (chars pieces.flatten) ((fillFrom column pieces).flatMap paint) := by
  induction pieces generalizing column with
  | nil => exact .nil
  | cons piece rest ih =>
    obtain ⟨here, later⟩ := List.forall_mem_cons.mp bare
    obtain ⟨atEnd, others⟩ := List.forall_mem_cons.mp tabs
    rw [fillFrom, List.flatMap_cons, List.flatten_cons, chars, List.map_append]
    exact (shows_fill column here atEnd).append (ih _ later others)

/-- A line without styles is printed with its end behind it. -/
theorem shows_paintLine (bare : IsBare line) : Shows (chars line ++ ['\n']) (paintLine line) := by
  have inLine : ∀ piece ∈ cut line, IsBare piece := fun piece member =>
    bare.of_subset fun c inside => flatten_cut line ▸ List.mem_flatten_of_mem member inside
  have shows := shows_fillFrom 0 inLine fun piece member => ne_tab_of_mem_cut member
  rw [flatten_cut] at shows
  exact shows.append (.copied (by decide) .nil)

/-- The lines of cells are their characters, cut behind each line end. -/
theorem flatMap_lines (cells : List Cell) :
    ((lines cells).flatMap fun line => chars line ++ ['\n']) = chars cells ++ ['\n'] := by
  induction cells with
  | nil => rfl
  | cons c rest ih =>
    unfold lines
    split
    · next none => simp [none] at ih
    · next first others here =>
      rw [here] at ih
      split
      · next lineEnd => simpa [chars, lineEnd] using ih
      · simpa [chars] using ih

theorem mem_of_mem_lines (member : line ∈ lines cells) : line ⊆ cells := by
  induction cells generalizing line with
  | nil => simp [List.mem_singleton.mp member]
  | cons c rest ih =>
    unfold lines at member
    split at member
    · simp [List.mem_singleton.mp member]
    · next first others here =>
      have inRest : ∀ other ∈ first :: others, other ⊆ c :: rest := fun other inside =>
        List.subset_cons_of_subset c (ih (here ▸ inside))
      split at member
      · rcases List.mem_cons.mp member with rfl | later
        · exact List.nil_subset _
        · exact inRest line later
      · rcases List.mem_cons.mp member with rfl | later
        · exact List.cons_subset_cons c (ih (here ▸ List.mem_cons_self))
        · exact inRest line (List.mem_cons_of_mem _ later)

/-- Cells without styles are printed line by line. -/
theorem shows_lines (bare : IsBare cells) :
    Shows (chars cells ++ ['\n']) ((lines cells).flatMap paintLine) := by
  rw [← flatMap_lines]
  have each (ls : List (List Cell)) (part : ∀ line ∈ ls, IsBare line) :
      Shows (ls.flatMap fun line => chars line ++ ['\n']) (ls.flatMap paintLine) := by
    induction ls with
    | nil => exact .nil
    | cons line rest ih =>
      obtain ⟨here, later⟩ := List.forall_mem_cons.mp part
      exact (shows_paintLine here).append (ih later)
  exact each _ fun line member => bare.of_subset (mem_of_mem_lines member)

end Lines

end Cell

namespace Console

open Cell (IsCopied Shows)

/-- What stands before the words of a line on the log. -/
def heading (name : String) : Channel → String
  | .info => "[" ++ name ++ "] "
  | .error => "[" ++ name ++ "] error "
  | .raw => ""
  | .debug => "[" ++ name ++ "] [debug] "

/-- Pieces without styles are printed with a line end behind them. -/
theorem shows_printSpans (spans : List Span) (plain : ∀ s ∈ spans, s.style = .plain) :
    Shows (charsOf spans ++ ['\n']) (printSpans spans) := by
  have bare : Cell.IsBare (Cell.ofSpans spans) := by
    constructor
    · simp only [Cell.ofSpans, Cell.ofSpan, List.mem_flatMap, List.mem_map]
      rintro c ⟨s, member, x, -, rfl⟩
      exact plain s member
    · simp only [Cell.ofSpans, Cell.ofSpan, List.mem_flatMap, List.mem_map, List.mem_filter]
      rintro c ⟨s, -, x, ⟨-, kept⟩, rfl⟩
      simpa using kept
  have filtered : Cell.chars (Cell.ofSpans spans) ++ ['\n'] =
      (charsOf spans ++ ['\n']).filter fun c => !Cell.isDropped c := by
    have ended : (['\n'].filter fun c => !Cell.isDropped c) = ['\n'] := by decide
    rw [List.filter_append, ended]
    simp [Cell.chars, Cell.ofSpans, Cell.ofSpan, charsOf, List.map_flatMap, List.filter_flatMap,
      Function.comp_def]
  exact .of_filter (filtered ▸ Cell.shows_lines bare)

/-- The pieces of a line without colors, unless it is debug output that is not shown. -/
theorem exists_spans (name : String) (showsDebug : Bool) {c : Channel} (told : c ≠ .debug)
    (words : String) :
    ∃ pieces, Console.spans ⟨name, false, showsDebug⟩ c words = some pieces ∧
      (∀ s ∈ pieces, s.style = .plain) ∧
      charsOf pieces = (heading name c).toList ++ words.toList := by
  cases c with
  | debug => exact absurd rfl told
  | info | error | raw =>
    refine ⟨_, rfl, ?_, ?_⟩
    · simp [tag, style]
    · simp [charsOf, tag, heading]

/-- A line without colors is printed with its heading, the words and a line end. -/
theorem shows_write (name : String) (showsDebug : Bool) {c : Channel} (told : c ≠ .debug)
    (words : String) :
    Shows (heading name c ++ words ++ "\n").toList
      ((Console.mk name false showsDebug).write c words).toList := by
  obtain ⟨pieces, shown, plain, same⟩ := exists_spans name showsDebug told words
  have line : (heading name c ++ words ++ "\n").toList = charsOf pieces ++ ['\n'] := by
    simp [same]
  rw [line, write, shown, Option.map_some, Option.getD_some, String.toList_ofList]
  exact shows_printSpans pieces plain

theorem isCopied_heading_iff (name : String) {c : Channel} (told : c ≠ .debug) :
    (∀ x ∈ (heading name c).toList, IsCopied x) ↔ c = .raw ∨ ∀ x ∈ name.toList, IsCopied x := by
  have framed (left right : String) (opening : left.toList.all (IsCopied ·) = true)
      (closing : right.toList.all (IsCopied ·) = true) :
      (∀ x ∈ (left ++ name ++ right).toList, IsCopied x) ↔ ∀ x ∈ name.toList, IsCopied x := by
    rw [String.toList_append, String.toList_append, List.forall_mem_append, List.forall_mem_append]
    exact ⟨fun all => all.1.2, fun inside =>
      ⟨⟨List.all_iff_forall_prop.mp opening, inside⟩, List.all_iff_forall_prop.mp closing⟩⟩
  cases c with
  | debug => exact absurd rfl told
  | raw => simp [heading]
  | info =>
    rw [heading, framed "[" "] " (by decide) (by decide)]
    simp
  | error =>
    rw [heading, framed "[" "] error " (by decide) (by decide)]
    simp

/-- Without colors all that changes in a line of the log are tabs and the five control characters.
The line is its heading, the words and a line end exactly if the words hold none of these, nor does
the name of the program where the heading has it. -/
theorem printed_verbatim_iff (name : String) (showsDebug : Bool) (words : String) :
    let prints c :=
      let line := heading name c ++ words ++ "\n"
      let written := (Console.mk name false showsDebug).write c words
      Shows line.toList written.toList ∧
        (written = line ↔
          (c = .raw ∨ ∀ x ∈ name.toList, IsCopied x) ∧ ∀ x ∈ words.toList, IsCopied x)
    prints .raw ∧ prints .info ∧ prints .error := by
  intro prints
  have each (c : Channel) (told : c ≠ .debug) : prints c := by
    have shows := shows_write name showsDebug told words
    refine ⟨shows, ?_⟩
    have lineEnd : ∀ x ∈ "\n".toList, IsCopied x := List.all_iff_forall_prop.mp (by decide)
    rw [← String.toList_inj, shows.eq_iff, String.toList_append, String.toList_append,
      List.forall_mem_append, List.forall_mem_append, isCopied_heading_iff name told,
      and_iff_left lineEnd]
  exact ⟨each .raw nofun, each .info nofun, each .error nofun⟩

/-- A tab in a message is not printed, and neither is a bell. -/
theorem tab_is_not_printed :
    let console := Console.mk defaultName false false
    '\n' ∉ "a\tb".toList ∧ console.write .raw "a\tb" = "a       b\n" ∧
      console.write .raw "a\tb" ≠ "a\tb\n" ∧
      '\n' ∉ "\x07".toList ∧ console.write .error "\x07" = "[lintstream] error \n" ∧
      console.write .error "\x07" ≠ "[lintstream] error \x07\n" := by
  decide

end Console

end LintRun
