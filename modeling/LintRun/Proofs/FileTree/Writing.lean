import LintRun.Proofs.FileTree.Entries

/-!
# Writing

The text of a path leads where its names lead. A file that has been written lies where the names of
its path say, if they go down and no link lies on their way; nothing else has changed.
-/
namespace LintRun.FileTree

section Walk

variable (t : FileTree) (p : Path) (plain : p.IsPlain)

include plain

theorem walkFrom_namesOf_toString (links : Nat) (here : Location) :
    t.walkFrom links here (namesOf p.toString) = t.walkFrom links here p.names := by
  by_cases bare : p.names = []
  · obtain ⟨anchor, names⟩ := p
    obtain rfl : names = [] := bare
    have dot : namesOf (Path.toString ⟨anchor, []⟩) = ["."] := by cases anchor <;> decide
    rw [dot, walkFrom_dot]
  · rw [Path.namesOf_toString p plain bare]

theorem toString_ne_empty : p.toString ≠ "" := by
  intro empty
  have back := Path.ofString_toString p plain
  rw [empty] at back
  obtain rfl : p = ⟨.relative, []⟩ := back.symm.trans (by decide)
  exact absurd empty (by decide)

/-- A walk along the text of a path. -/
theorem walk_toString (cwd : Location) :
    t.walk cwd p.toString =
      if isLongPath p.toString then .error .nameTooLong
      else t.walkFrom linkLimit (if p.isAbsolute then [] else cwd) p.names := by
  unfold walk
  rw [if_neg (toString_ne_empty p plain), Path.isRooted_toString p plain,
    walkFrom_namesOf_toString t p plain]

variable {t p}

theorem walk_of_short (cwd : Location) (short : isLongPath p.toString = false) :
    t.walk cwd p.toString =
      t.walkFrom linkLimit (if p.isAbsolute then [] else cwd) p.names := by
  rw [walk_toString t p plain, short]
  rfl

/-- The text of a path leads where its names lead. -/
theorem walk_of_leads {cwd : Location} {place : Location × Entry} {n : Nat}
    (short : isLongPath p.toString = false)
    (leads : Leads t n (if p.isAbsolute then [] else cwd) p.names place) (enough : n ≤ linkLimit) :
    t.walk cwd p.toString = .ok place := by
  rw [walk_of_short plain cwd short, leads.walkFrom_eq enough]

/-- A walk along the text of a path whose outcome is not about a text that is too long. -/
theorem walkFrom_of_walk {cwd : Location} {outcome : Except SystemProblem (Location × Entry)}
    (walked : t.walk cwd p.toString = outcome) (other : outcome ≠ .error .nameTooLong) :
    isLongPath p.toString = false ∧
      t.walkFrom linkLimit (if p.isAbsolute then [] else cwd) p.names = outcome := by
  rw [walk_toString t p plain] at walked
  split at walked
  · exact absurd walked.symm other
  · next short => exact ⟨by simpa using short, walked⟩

end Walk

section Write

variable {t u : FileTree} {front : List String} {last : String} {b : ByteArray}

/-- A file can be put under a name in a directory, in the place of a file or where nothing lies. -/
structure IsFree (t : FileTree) (here : Location) (name : String) : Prop where
  step : IsStep name
  file : ∀ e, t.entry? (here ++ [name]) = some e → ∃ b x, e = .file b x

/-- A walk to a name that leads to a file, or to nothing. -/
theorem isFree_of_walkFrom {links : Nat} {here : Location} {name : String} (notHere : name ≠ ".")
    (clear : t.IsClear here [name])
    (walked : (∃ l b x, t.walkFrom links here [name] = .ok (l, .file b x)) ∨
      t.walkFrom links here [name] = .error .noEntry) : t.IsFree here name := by
  have noUp : name ≠ ".." := by
    rintro rfl
    simp at walked
  have short : isLongName name = false := by
    cases long : isLongName name with
    | false => rfl
    | true =>
      rw [walkFrom, if_neg notHere, if_neg noUp, long] at walked
      simp at walked
  have step : IsStep name := ⟨notHere, noUp, short⟩
  refine ⟨step, ?_⟩
  rw [walkFrom_step step] at walked
  intro e found
  rw [found] at walked
  cases e with
  | file b x => exact ⟨b, x, rfl⟩
  | directory => simp at walked
  | link target => exact absurd found (clear [name] target List.prefix_rfl)

/-- The ways in which a file is written. -/
theorem write_eq_ok {p : Path} (write : t.write [] p b = .ok u) :
    (∃ l old x, t.walk [] p.toString = .ok (l, .file old x) ∧ u = t.put l (.file b x)) ∨
      t.walk [] p.toString = .error .noEntry ∧
        ∃ l, t.walk [] p.parent.toString = .ok (l, .directory) ∧
          u = t.put (l ++ [p.name]) (.file b false) := by
  unfold FileTree.write at write
  split at write
  · next l old x there => exact .inl ⟨l, old, x, there, (Except.ok.inj write).symm⟩
  · cases write
  · next absent =>
    split at write
    · next l parent => exact .inr ⟨absent, l, parent, (Except.ok.inj write).symm⟩
    · cases write
    · cases write
  · cases write

/-- A walk down that meets no link is over no link up to its last name. -/
theorem Leads.of_walkFrom_concat {links : Nat} {place : Location × Entry}
    (clear : t.IsClear [] front) (down : GoesDown front)
    (walked : t.walkFrom links [] (front ++ [last]) = .ok place) :
    Leads t 0 [] front (front, .directory) := by
  obtain ⟨_, _, leads⟩ := exists_leads_of_walkFrom walked
  obtain ⟨n, _, mid, -, first, -⟩ := leads.exists_split (List.cons_ne_nil last [])
  obtain rfl := first.eq_zero clear down
  obtain rfl : mid = front := first.location_eq down
  exact first

structure Written (t u : FileTree) (front : List String) (last : String) (b : ByteArray) :
    Prop where
  reached : Leads t 0 [] front (front, .directory)
  free : t.IsFree front last
  put : ∃ x, u = t.put (front ++ [last]) (.file b x)

/-- Under a free name in a directory that can be reached a file is written. -/
theorem write_of_isFree {p : Path} (named : p.names = front ++ [last]) (absolute : p.isAbsolute)
    (plain : p.IsPlain) (short : isLongPath p.toString = false)
    (shortParent : isLongPath p.parent.toString = false)
    (reached : Leads t 0 [] front (front, .directory)) (free : t.IsFree front last) :
    ∃ x, t.write [] p b = .ok (t.put (front ++ [last]) (.file b x)) := by
  have walked := walk_of_short (t := t) plain [] short
  rw [if_pos absolute, named, ← Nat.add_zero linkLimit, reached.walkFrom_append,
    walkFrom_step free.step] at walked
  unfold FileTree.write
  cases found : t.entry? (front ++ [last]) with
  | some e =>
    obtain ⟨old, x, rfl⟩ := free.file e found
    rw [found] at walked
    rw [walked]
    exact ⟨x, rfl⟩
  | none =>
    have walkedParent := walk_of_short (t := t) plain.parent [] shortParent
    rw [show p.parent.isAbsolute = p.isAbsolute from rfl, if_pos absolute, Path.names_parent named,
      reached.walkFrom_eq (Nat.zero_le _)] at walkedParent
    rw [found] at walked
    rw [walked]
    dsimp only
    rw [walkedParent, Path.name_eq_last named]
    exact ⟨false, rfl⟩

namespace Written

/-- A way down that does not pass the file is still there. -/
theorem leads (written : t.Written u front last b) {names : List String}
    {place : Location × Entry} (leads : Leads t 0 [] names place) (down : GoesDown names)
    (apart : ¬ front ++ [last] <+: names) : Leads u 0 [] names place := by
  obtain ⟨x, rfl⟩ := written.put
  refine leads.mono down ?_
  intro part e within found
  refine entry_put_of_some found ?_
  rintro rfl
  exact apart within

/-- A written file is found where it was put. -/
theorem leads_self (written : t.Written u front last b) (down : GoesDown front) :
    ∃ x, Leads u 0 [] (front ++ [last]) (front ++ [last], .file b x) := by
  have apart : ¬ front ++ [last] <+: front := by
    intro within
    have longer := within.length_le
    rw [List.length_append] at longer
    exact Nat.not_succ_le_self _ longer
  have reached := written.leads written.reached down apart
  obtain ⟨x, rfl⟩ := written.put
  have there := entry_put_self (t := t) (e := .file b x) (List.append_ne_nil_of_right_ne_nil front
    (List.cons_ne_nil last []))
  exact ⟨x, reached.append (.file written.free.step there)⟩

end Written

theorem written_of_write {p : Path} (named : p.names = front ++ [last])
    (absolute : p.isAbsolute) (plain : p.IsPlain) (down : GoesDown front)
    (clear : t.IsClear [] (front ++ [last])) (write : t.write [] p b = .ok u) :
    isLongPath p.toString = false ∧ t.Written u front last b := by
  have notHere : last ≠ "." := (plain last (by simp [named])).2.1
  have clearLast : t.IsClear front [last] := clear.right
  rcases write_eq_ok write with ⟨l, old, x, there, rfl⟩ | ⟨absent, l, parent, rfl⟩
  · obtain ⟨short, walked⟩ := walkFrom_of_walk plain there nofun
    rw [if_pos absolute, named] at walked
    have reached := Leads.of_walkFrom_concat clear.left down walked
    have onward := (reached.walkFrom_append linkLimit [last]).symm.trans walked
    have free := isFree_of_walkFrom notHere clearLast (.inl ⟨l, old, x, onward⟩)
    obtain ⟨_, _, leads⟩ := exists_leads_of_walkFrom onward
    obtain rfl := leads.eq_zero clearLast free.step.goesDown
    obtain rfl : l = front ++ [last] := leads.location_eq free.step.goesDown
    exact ⟨short, reached, free, x, rfl⟩
  · obtain ⟨short, walked⟩ := walkFrom_of_walk plain absent nofun
    rw [if_pos absolute, named] at walked
    obtain ⟨-, walkedParent⟩ := walkFrom_of_walk plain.parent parent nofun
    rw [show p.parent.isAbsolute = p.isAbsolute from rfl, if_pos absolute, Path.names_parent named]
      at walkedParent
    obtain ⟨_, _, leads⟩ := exists_leads_of_walkFrom walkedParent
    obtain rfl := leads.eq_zero clear.left down
    obtain rfl : l = front := leads.location_eq down
    have onward := (leads.walkFrom_append linkLimit [last]).symm.trans walked
    have free := isFree_of_walkFrom notHere clearLast (.inr onward)
    exact ⟨short, leads, free, false, by rw [Path.name_eq_last named]⟩

end Write

end LintRun.FileTree
