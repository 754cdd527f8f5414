import LintRun.Proofs.Path.Spelling

/-!
# Where names lead

`Leads` tells where names lead in a file tree, name by name and link by link, with the number of
links on the way. `walkFrom` finds these ways as far as its links reach (`Leads.walkFrom_eq`), and
no others (`exists_leads_of_walkFrom`). Ways go on from each other (`Leads.append`,
`Leads.exists_split`), and a way without links and double dots goes through the locations that its
names spell.
-/
namespace LintRun.FileTree

/-- A name that is looked up in its directory. -/
structure IsStep (name : String) : Prop where
  notHere : name ≠ "."
  notUp : name ≠ ".."
  short : isLongName name = false

instance (name : String) : Decidable (IsStep name) :=
  decidable_of_iff (name ≠ "." ∧ name ≠ ".." ∧ isLongName name = false)
    ⟨fun ⟨notHere, notUp, short⟩ => ⟨notHere, notUp, short⟩,
      fun step => ⟨step.notHere, step.notUp, step.short⟩⟩

/-- The location and entry that names lead to from a directory on, over so many links. -/
inductive Leads (t : FileTree) : Nat → Location → List String → Location × Entry → Prop
  | here (l : Location) : Leads t 0 l [] (l, .directory)
  | dot {n : Nat} {l : Location} {rest : List String} {place : Location × Entry}
      (onward : Leads t n l rest place) : Leads t n l ("." :: rest) place
  | up {n : Nat} {l : Location} {rest : List String} {place : Location × Entry}
      (onward : Leads t n l.dropLast rest place) : Leads t n l (".." :: rest) place
  | enter {n : Nat} {l : Location} {name : String} {rest : List String} {place : Location × Entry}
      (step : IsStep name) (found : t.entry? (l ++ [name]) = some .directory)
      (onward : Leads t n (l ++ [name]) rest place) : Leads t n l (name :: rest) place
  | file {l : Location} {name : String} {b : ByteArray} {x : Bool}
      (step : IsStep name) (found : t.entry? (l ++ [name]) = some (.file b x)) :
      Leads t 0 l [name] (l ++ [name], .file b x)
  | follow {n : Nat} {l : Location} {name target : String} {rest : List String}
      {place : Location × Entry} (step : IsStep name)
      (found : t.entry? (l ++ [name]) = some (.link target))
      (onward : Leads t n (if isRooted target then [] else l) (namesOf target ++ rest) place) :
      Leads t (n + 1) l (name :: rest) place

/-- The location and entry that names lead to, over whatever links. -/
def LeadsTo (t : FileTree) (l : Location) (names : List String) (place : Location × Entry) : Prop :=
  ∃ n, Leads t n l names place

section Walk

variable {t : FileTree} {l : Location} {name : String} {rest : List String}

@[simp]
theorem walkFrom_nil (links : Nat) : t.walkFrom links l [] = .ok (l, .directory) := by
  rw [walkFrom]

@[simp]
theorem walkFrom_dot (links : Nat) :
    t.walkFrom links l ("." :: rest) = t.walkFrom links l rest := by
  rw [walkFrom, if_pos rfl]

@[simp]
theorem walkFrom_up (links : Nat) :
    t.walkFrom links l (".." :: rest) = t.walkFrom links l.dropLast rest := by
  rw [walkFrom, if_neg (by decide), if_pos rfl]

/-- A walk looks a name up in its directory. -/
theorem walkFrom_step (step : IsStep name) (links : Nat) :
    t.walkFrom links l (name :: rest) =
      match t.entry? (l ++ [name]) with
      | none => .error .noEntry
      | some .directory => t.walkFrom links (l ++ [name]) rest
      | some (.file b x) =>
        if rest.isEmpty then .ok (l ++ [name], .file b x) else .error .notDirectory
      | some (.link target) =>
        match links with
        | 0 => .error .linkLoop
        | links + 1 => t.walkFrom links (if isRooted target then [] else l)
            (namesOf target ++ rest) := by
  rw [walkFrom, if_neg step.notHere, if_neg step.notUp, step.short]
  rfl

/-- A walk with links enough gets where the names lead. -/
theorem Leads.walkFrom_eq {n : Nat} {names : List String} {place : Location × Entry}
    (leads : Leads t n l names place) {links : Nat} (enough : n ≤ links) :
    t.walkFrom links l names = .ok place := by
  induction leads generalizing links with
  | here l => exact walkFrom_nil links
  | dot _ ih => rw [walkFrom_dot, ih enough]
  | up _ ih => rw [walkFrom_up, ih enough]
  | enter step found _ ih =>
    rw [walkFrom_step step, found]
    exact ih enough
  | file step found =>
    rw [walkFrom_step step, found]
    rfl
  | follow step found _ ih =>
    cases links with
    | zero => exact absurd enough (Nat.not_succ_le_zero _)
    | succ links =>
      rw [walkFrom_step step, found]
      exact ih (Nat.le_of_succ_le_succ enough)

/-- The names lead where a walk gets. -/
theorem exists_leads_of_walkFrom {links : Nat} {names : List String} {place : Location × Entry}
    (walked : t.walkFrom links l names = .ok place) : ∃ n ≤ links, Leads t n l names place := by
  fun_induction walkFrom t links l names with
  | case1 links l =>
    obtain rfl := Except.ok.inj walked
    exact ⟨0, Nat.zero_le _, .here l⟩
  | case2 links l rest ih =>
    obtain ⟨n, enough, onward⟩ := ih walked
    exact ⟨n, enough, .dot onward⟩
  | case3 links l rest _ ih =>
    obtain ⟨n, enough, onward⟩ := ih walked
    exact ⟨n, enough, .up onward⟩
  | case4 => cases walked
  | case5 => cases walked
  | case6 links l name rest notHere notUp short found ih =>
    obtain ⟨n, enough, onward⟩ := ih walked
    exact ⟨n, enough, .enter ⟨notHere, notUp, by simpa using short⟩ found onward⟩
  | case7 links l name rest notHere notUp short b x found last =>
    obtain rfl := Except.ok.inj walked
    obtain rfl := List.isEmpty_iff.mp last
    exact ⟨0, Nat.zero_le _, .file ⟨notHere, notUp, by simpa using short⟩ found⟩
  | case8 => cases walked
  | case9 => cases walked
  | case10 l name rest notHere notUp short target found links ih =>
    obtain ⟨n, enough, onward⟩ := ih walked
    exact ⟨n + 1, Nat.succ_le_succ enough,
      .follow ⟨notHere, notUp, by simpa using short⟩ found onward⟩

end Walk

namespace Leads

variable {t : FileTree}

/-- A way goes on where another one has led. -/
theorem append {n m : Nat} {l mid : Location} {front rest : List String}
    {place : Location × Entry} (first : Leads t n l front (mid, .directory))
    (second : Leads t m mid rest place) : Leads t (n + m) l (front ++ rest) place := by
  generalize reached : (mid, Entry.directory) = spot at first
  induction first with
  | here l =>
    obtain ⟨rfl, -⟩ := Prod.mk.inj reached
    rw [Nat.zero_add]
    exact second
  | dot _ ih => exact .dot (ih reached)
  | up _ ih => exact .up (ih reached)
  | enter step found _ ih => exact .enter step found (ih reached)
  | file _ _ => cases (Prod.mk.inj reached).2
  | follow step found _ ih =>
    have onward := ih reached
    rw [List.append_assoc] at onward
    rw [Nat.succ_add]
    exact .follow step found onward

/-- A way that goes on leads to a directory first. -/
theorem exists_split {k : Nat} {l : Location} {front rest : List String}
    {place : Location × Entry} (leads : Leads t k l (front ++ rest) place) (more : rest ≠ []) :
    ∃ n m mid, n + m = k ∧ Leads t n l front (mid, .directory) ∧ Leads t m mid rest place := by
  generalize together : front ++ rest = names at leads
  -- The induction is on the way, as a link puts other names before the rest.
  induction leads generalizing front with
  | here l => exact absurd (List.append_eq_nil_iff.mp together).2 more
  | dot onward ih =>
    rcases List.append_eq_cons_iff.mp together with ⟨rfl, rfl⟩ | ⟨others, rfl, rfl⟩
    · exact ⟨0, _, _, Nat.zero_add _, .here _, .dot onward⟩
    · obtain ⟨n, m, mid, sum, first, second⟩ := ih rfl
      exact ⟨n, m, mid, sum, .dot first, second⟩
  | up onward ih =>
    rcases List.append_eq_cons_iff.mp together with ⟨rfl, rfl⟩ | ⟨others, rfl, rfl⟩
    · exact ⟨0, _, _, Nat.zero_add _, .here _, .up onward⟩
    · obtain ⟨n, m, mid, sum, first, second⟩ := ih rfl
      exact ⟨n, m, mid, sum, .up first, second⟩
  | enter step found onward ih =>
    rcases List.append_eq_cons_iff.mp together with ⟨rfl, rfl⟩ | ⟨others, rfl, rfl⟩
    · exact ⟨0, _, _, Nat.zero_add _, .here _, .enter step found onward⟩
    · obtain ⟨n, m, mid, sum, first, second⟩ := ih rfl
      exact ⟨n, m, mid, sum, .enter step found first, second⟩
  | file step found =>
    rcases List.append_eq_cons_iff.mp together with ⟨rfl, rfl⟩ | ⟨others, rfl, nothing⟩
    · exact ⟨0, 0, _, rfl, .here _, .file step found⟩
    · exact absurd (List.append_eq_nil_iff.mp nothing.symm).2 more
  | follow step found onward ih =>
    rcases List.append_eq_cons_iff.mp together with ⟨rfl, rfl⟩ | ⟨others, rfl, rfl⟩
    · exact ⟨0, _, _, Nat.zero_add _, .here _, .follow step found onward⟩
    · obtain ⟨n, m, mid, sum, first, second⟩ := ih (List.append_assoc ..)
      exact ⟨n + 1, m, mid, by omega, .follow step found first, second⟩

/-- Names lead to one place. -/
theorem unique {n m : Nat} {l : Location} {names : List String} {place other : Location × Entry}
    (one : Leads t n l names place) (two : Leads t m l names other) : place = other :=
  Except.ok.inj ((one.walkFrom_eq (Nat.le_max_left n m)).symm.trans
    (two.walkFrom_eq (Nat.le_max_right n m)))

/-- Names behind others lead to the same places as seen from where those lead. -/
theorem leadsTo_append_iff {n : Nat} {l mid : Location} {front : List String}
    (first : Leads t n l front (mid, .directory)) (rest : List String)
    (place : Location × Entry) :
    t.LeadsTo l (front ++ rest) place ↔ t.LeadsTo mid rest place := by
  refine ⟨?_, fun ⟨m, second⟩ => ⟨n + m, first.append second⟩⟩
  rintro ⟨k, leads⟩
  cases rest with
  | nil =>
    rw [List.append_nil] at leads
    obtain rfl := first.unique leads
    exact ⟨0, .here mid⟩
  | cons name others =>
    obtain ⟨_, m, spot, -, before, second⟩ := leads.exists_split (List.cons_ne_nil name others)
    obtain ⟨rfl, -⟩ := Prod.mk.inj (first.unique before)
    exact ⟨m, second⟩

/-- A walk over names behind others goes on from where those lead, with the links left. -/
theorem walkFrom_append {n : Nat} {l mid : Location} {front : List String}
    (first : Leads t n l front (mid, .directory)) (links : Nat) (rest : List String) :
    t.walkFrom (links + n) l (front ++ rest) = t.walkFrom links mid rest := by
  generalize reached : (mid, Entry.directory) = spot at first
  induction first with
  | here l =>
    obtain ⟨rfl, -⟩ := Prod.mk.inj reached
    rfl
  | dot _ ih => rw [List.cons_append, walkFrom_dot, ih reached]
  | up _ ih => rw [List.cons_append, walkFrom_up, ih reached]
  | enter step found _ ih =>
    rw [List.cons_append, walkFrom_step step, found]
    exact ih reached
  | file _ _ => cases (Prod.mk.inj reached).2
  | follow step found _ ih =>
    have onward := ih reached
    rw [List.append_assoc] at onward
    rw [List.cons_append, walkFrom_step step, found]
    exact onward

end Leads

structure GoesDown (names : List String) : Prop where
  noDot : "." ∉ names
  noUp : ".." ∉ names

instance (names : List String) : Decidable (GoesDown names) :=
  decidable_of_iff ("." ∉ names ∧ ".." ∉ names)
    ⟨fun ⟨noDot, noUp⟩ => ⟨noDot, noUp⟩, fun down => ⟨down.noDot, down.noUp⟩⟩

theorem GoesDown.append {front rest : List String} (first : GoesDown front)
    (second : GoesDown rest) : GoesDown (front ++ rest) :=
  ⟨by simp [first.noDot, second.noDot], by simp [first.noUp, second.noUp]⟩

theorem IsStep.goesDown {name : String} (step : IsStep name) : GoesDown [name] :=
  ⟨by simpa using Ne.symm step.notHere, by simpa using Ne.symm step.notUp⟩

theorem GoesDown.tail {name : String} {rest : List String} (down : GoesDown (name :: rest)) :
    GoesDown rest :=
  ⟨List.not_mem_of_not_mem_cons down.noDot, List.not_mem_of_not_mem_cons down.noUp⟩

/-- No link lies where names that go down pass. -/
def IsClear (t : FileTree) (l : Location) (names : List String) : Prop :=
  ∀ front target, front <+: names → t.entry? (l ++ front) ≠ some (.link target)

section Down

variable {t : FileTree} {n : Nat} {l : Location} {name : String} {names : List String}
  {place : Location × Entry}

theorem IsClear.left {front rest : List String} (clear : t.IsClear l (front ++ rest)) :
    t.IsClear l front :=
  fun part target within => clear part target (within.trans (List.prefix_append front rest))

theorem IsClear.right {front rest : List String} (clear : t.IsClear l (front ++ rest)) :
    t.IsClear (l ++ front) rest := by
  intro part target within
  have link := clear (front ++ part) target ((List.prefix_append_right_inj front).mpr within)
  rwa [List.append_assoc]

/-- A way down over no link ends where its names say. -/
theorem Leads.location_eq (leads : Leads t 0 l names place) (down : GoesDown names) :
    place.1 = l ++ names := by
  induction names generalizing l with
  | nil =>
    cases leads with
    | here => exact (List.append_nil l).symm
  | cons name rest ih =>
    cases leads with
    | dot => exact absurd List.mem_cons_self down.noDot
    | up => exact absurd List.mem_cons_self down.noUp
    | enter _ _ onward => rw [ih onward down.tail, List.append_assoc, List.singleton_append]
    | file => rfl

/-- A way down that meets no link is over no link. -/
theorem Leads.eq_zero (leads : Leads t n l names place) (clear : t.IsClear l names)
    (down : GoesDown names) : n = 0 := by
  induction leads with
  | here => rfl
  | dot => exact absurd List.mem_cons_self down.noDot
  | up => exact absurd List.mem_cons_self down.noUp
  | @enter _ _ name rest _ _ _ _ ih => exact ih (IsClear.right clear) down.tail
  | file => rfl
  | @follow _ _ name _ rest _ step found _ =>
    exact absurd found (clear [name] _ (List.cons_prefix_cons.mpr ⟨rfl, List.nil_prefix⟩))

/-- Where a clear way down starts, it is a way down to each directory on it. -/
theorem Leads.split_down {front rest : List String} (leads : Leads t 0 l (front ++ rest) place)
    (down : GoesDown front) (more : rest ≠ []) :
    Leads t 0 l front (l ++ front, .directory) := by
  obtain ⟨n, m, mid, none, first, -⟩ := leads.exists_split more
  obtain rfl : n = 0 := by omega
  obtain rfl : mid = l ++ front := first.location_eq down
  exact first

/-- A way down stays one in a tree that keeps what the way passes. -/
theorem Leads.mono {u : FileTree} (leads : Leads t 0 l names place) (down : GoesDown names)
    (kept : ∀ front e, front <+: names → t.entry? (l ++ front) = some e →
      u.entry? (l ++ front) = some e) :
    Leads u 0 l names place := by
  induction names generalizing l with
  | nil =>
    cases leads with
    | here => exact .here l
  | cons name rest ih =>
    have first : [name] <+: name :: rest := List.cons_prefix_cons.mpr ⟨rfl, List.nil_prefix⟩
    cases leads with
    | dot => exact absurd List.mem_cons_self down.noDot
    | up => exact absurd List.mem_cons_self down.noUp
    | enter step found onward =>
      refine .enter step (kept [name] _ first found) (ih onward down.tail ?_)
      intro front e within there
      rw [List.append_assoc] at there ⊢
      exact kept (name :: front) e (List.cons_prefix_cons.mpr ⟨rfl, within⟩) there
    | file step found => exact .file step (kept [name] _ first found)

/-- At the end of a way down lies what the way leads to. -/
theorem Leads.entry_eq (leads : Leads t 0 l names place) (down : GoesDown names)
    (filled : names ≠ []) : t.entry? place.1 = place.2 := by
  induction names generalizing l with
  | nil => exact absurd rfl filled
  | cons name rest ih =>
    cases leads with
    | dot => exact absurd List.mem_cons_self down.noDot
    | up => exact absurd List.mem_cons_self down.noUp
    | enter step found onward =>
      cases rest with
      | nil =>
        cases onward
        exact found
      | cons second others => exact ih onward down.tail (List.cons_ne_nil second others)
    | file step found => exact found

end Down

end LintRun.FileTree
