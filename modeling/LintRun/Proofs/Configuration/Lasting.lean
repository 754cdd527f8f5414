import LintRun.Proofs.Configuration.Remembered

/-!
# Lasting configurations

What a lookup has found lasts, whatever becomes of the files. A lookup remembers its table for every
directory that it has looked at, and these are said without following it (`LooksAt`). Nothing that is
remembered is ever replaced (`Memory.IsKeptBy`): a step only adds directories of which nothing was
remembered. A lookup that fails adds nothing at all (`found_configuration_lasts`).
-/
namespace LintRun.Configuration

variable {tree : FileTree} {cwd : Location} {name : String} {m : Memory}

/-- A lookup from `start` upwards looks at a directory for a file of the name: it comes to it, and
nothing is remembered of the directory, nor of one below it on the way. -/
def LooksAt (m : Memory) (tree : FileTree) (cwd : Location) (name : String)
    (start d : Location) : Prop :=
  ComesTo tree cwd name start d ∧ ∀ x, x <+: start → d.length ≤ x.length → m.find? x = none

/-- The directories on the way to one that is looked at are looked at. -/
theorem LooksAt.between {start d x : Location} (looks : LooksAt m tree cwd name start d)
    (above : d <+: x) (below : x <+: start) : LooksAt m tree cwd name start x := by
  have longer := above.length_le
  refine ⟨⟨below, ?_⟩, ?_⟩
  · intro y front beyond
    exact looks.1.2 y front (Nat.lt_of_le_of_lt longer beyond)
  · intro y front beyond
    exact looks.2 y front (Nat.le_trans longer beyond)

/-- Nothing is remembered of a directory that is looked at. -/
theorem LooksAt.find?_eq_none {start d : Location} (looks : LooksAt m tree cwd name start d) :
    m.find? d = none :=
  looks.2 d looks.1.1 (Nat.le_refl _)

/-- A directory of which something is remembered ends a lookup before it looks at anything. -/
theorem not_looksAt_of_remembered {start d : Location} {t : Table}
    (remembered : m.find? start = some t) : ¬ LooksAt m tree cwd name start d := by
  intro looks
  have nothing := looks.2 start List.prefix_rfl looks.1.1.length_le
  rw [remembered] at nothing
  cases nothing

/-- A lookup looks at the directory that it starts from if nothing is remembered of it. -/
theorem looksAt_self {start : Location} (unknown : m.find? start = none) :
    LooksAt m tree cwd name start start := by
  refine ⟨.refl start, ?_⟩
  intro x front longer
  rwa [front.eq_of_length_le longer]

/-- Beyond the directory that it starts from, a lookup looks at what it would look at from the one
above, if there is no file of the name. -/
theorem looksAt_concat_iff {l d : Location} {last : String}
    (unknown : m.find? (l ++ [last]) = none) :
    LooksAt m tree cwd name (l ++ [last]) d ↔
      d = l ++ [last] ∨
        tree.isFile cwd (candidate name (l ++ [last])) = .ok false ∧
          LooksAt m tree cwd name l d := by
  constructor
  · rintro ⟨⟨front, absent⟩, nothing⟩
    rcases List.prefix_concat_iff.mp front with rfl | above
    · exact .inl rfl
    · have shorter : d.length < (l ++ [last]).length := by
        simpa using Nat.lt_succ_of_le above.length_le
      have further (x : Location) (front : x <+: l) : x <+: l ++ [last] :=
        front.trans (List.prefix_append _ _)
      exact .inr ⟨absent _ List.prefix_rfl shorter,
        ⟨above, fun x front => absent x (further x front)⟩,
        fun x front => nothing x (further x front)⟩
  · rintro (rfl | ⟨absent, comes, nothing⟩)
    · exact looksAt_self unknown
    · refine ⟨comes.concat absent, ?_⟩
      intro x front longer
      rcases List.prefix_concat_iff.mp front with rfl | front
      · exact unknown
      · exact nothing x front longer

/-- A lookup goes on behind a directory of which nothing is remembered if there is no file of the
name in it. -/
theorem mem_lookUp_cons_iff [Wording] {d x : Location} {above : List Location}
    (unknown : m.find? d = none) :
    x ∈ (lookUp tree cwd name m (d :: above)).1 ↔
      x = d ∨ tree.isFile cwd (candidate name d) = .ok false ∧
        x ∈ (lookUp tree cwd name m above).1 := by
  rw [lookUp, unknown]
  dsimp only
  cases tree.isFile cwd (candidate name d) with
  | error e => simp
  | ok there => cases there <;> simp

/-- The directories that are looked at are told with the outcome of a lookup. -/
theorem mem_lookUp_iff [Wording] (start d : Location) :
    d ∈ (lookUp tree cwd name m (upward start)).1 ↔ LooksAt m tree cwd name start d := by
  induction start using List.reverseRecOn with
  | nil =>
    rw [upward_nil]
    cases remembered : m.find? [] with
    | some t => simp [lookUp, remembered, not_looksAt_of_remembered remembered]
    | none =>
      rw [mem_lookUp_cons_iff remembered]
      constructor
      · rintro (rfl | ⟨-, none⟩)
        · exact looksAt_self remembered
        · cases none
      · exact fun looks => .inl (List.prefix_nil.mp looks.1.1)
  | append_singleton l last ih =>
    rw [upward_concat]
    cases remembered : m.find? (l ++ [last]) with
    | some t => simp [lookUp, remembered, not_looksAt_of_remembered remembered]
    | none => rw [mem_lookUp_cons_iff remembered, looksAt_concat_iff remembered, ih]

namespace Memory

structure IsKeptBy (m later : Memory) : Prop where
  directories : ∀ d t, m.find? d = some t → later.find? d = some t
  given : ∀ t, m.given = some t → later.given = some t

theorem IsKeptBy.refl (m : Memory) : m.IsKeptBy m := ⟨fun _ _ => id, fun _ => id⟩

theorem IsKeptBy.trans {first second third : Memory} (now : first.IsKeptBy second)
    (later : second.IsKeptBy third) : first.IsKeptBy third :=
  ⟨fun d t there => later.directories d t (now.directories d t there),
    fun t there => later.given t (now.given t there)⟩

/-- A table for directories of which nothing is remembered takes nothing away. -/
theorem isKeptBy_add (m : Memory) (visited : List Location) (t : Table)
    (unknown : ∀ d ∈ visited, m.find? d = none) : m.IsKeptBy (m.add visited t) where
  directories := by
    intro d u remembered
    have apart : d ∉ visited := by
      intro among
      rw [unknown d among] at remembered
      cases remembered
    rw [find?_add, if_neg apart, remembered]
  given := fun _ => id

end Memory

namespace Lookup

/-- A lookup that is asked for: the file, and the files around it at the time. -/
structure Inquiry where
  tree : FileTree
  cwd : Location
  file : Path

section Lasting

variable [Wording] (k : Lookup)

def answer (m : Memory) (q : Inquiry) : Except Error Table × Memory :=
  k.resolve q.tree q.cwd q.file m

/-- What is remembered after inquiries in a row, between which the files may change. -/
def remembers (m : Memory) (qs : List Inquiry) : Memory := qs.foldl (fun m q => (k.answer m q).2) m

theorem remembers_append (m : Memory) (first second : List Inquiry) :
    k.remembers m (first ++ second) = k.remembers (k.remembers m first) second :=
  List.foldl_append

variable {k}

/-- One step: an inquiry takes nothing away from what is remembered. -/
theorem isKeptBy_answer (m : Memory) (q : Inquiry) : m.IsKeptBy (k.answer m q).2 := by
  unfold answer resolve
  cases k.override with
  | some source =>
    cases source with
    | table t => exact .refl m
    | file f =>
      cases held : m.given with
      | some t => exact .refl m
      | none =>
        dsimp only
        cases load Depth.given q.tree q.cwd f with
        | error why => exact .refl m
        | ok t => exact ⟨fun _ _ => id, fun u there => by simp [held] at there⟩
  | none =>
    dsimp only
    cases q.tree.resolve q.cwd q.file with
    | error e => exact .refl m
    | ok file =>
      dsimp only
      cases (lookUp q.tree q.cwd k.filename m (upward file.parent.names)).2 with
      | error why => exact .refl m
      | ok t =>
        exact m.isKeptBy_add _ t fun d looked => ((mem_lookUp_iff _ _).mp looked).find?_eq_none

/-- Inquiries in a row take nothing away. -/
theorem isKeptBy_remembers (m : Memory) (qs : List Inquiry) : m.IsKeptBy (k.remembers m qs) := by
  induction qs generalizing m with
  | nil => exact .refl m
  | cons q rest ih => exact (isKeptBy_answer m q).trans (ih _)

/-- An inquiry that fails leaves what is remembered as it was. -/
theorem answer_of_error {q : Inquiry} {e : Error} (failed : (k.answer m q).1 = .error e) :
    (k.answer m q).2 = m := by
  unfold answer resolve at failed ⊢
  split at failed
  · cases failed
  · split at failed
    · cases failed
    · split at failed
      · cases failed
      · rfl
  · split at failed
    · rfl
    · dsimp only at failed ⊢
      split at failed
      · cases failed
      · rfl

section Search

variable (searches : k.override = none) {q : Inquiry} {file : Path}
  (resolved : q.tree.resolve q.cwd q.file = .ok file)

include searches resolved

theorem answer_eq :
    k.answer m q =
      let looked := lookUp q.tree q.cwd k.filename m (upward file.parent.names)
      match looked.2 with
      | .ok t => (.ok t, m.add looked.1 t)
      | .error why => (.error (unresolved q.file why), m) := by
  cases ended : (lookUp q.tree q.cwd k.filename m (upward file.parent.names)).2 <;>
    simp only [answer, resolve, searches, resolved, ended]

/-- What is remembered of the directory of a file is its configuration. -/
theorem answer_of_remembered {t : Table} (remembered : m.find? file.parent.names = some t) :
    (k.answer m q).1 = .ok t := by
  obtain ⟨above, shape⟩ := upward_eq_cons file.parent.names
  rw [answer_eq searches resolved, shape, lookUp]
  simp only [remembered]

/-- The configuration that is found is remembered for the directory of the file, and for all that
were looked at. -/
theorem find?_answer {t : Table} (found : (k.answer m q).1 = .ok t) (d : Location)
    (among : d = file.parent.names ∨
      LooksAt m q.tree q.cwd k.filename file.parent.names d) :
    (k.answer m q).2.find? d = some t := by
  have looked : LooksAt m q.tree q.cwd k.filename file.parent.names d →
      (k.answer m q).2.find? d = some t := by
    intro looks
    rw [answer_eq searches resolved] at found ⊢
    dsimp only at found ⊢
    split at found
    · cases found
      rw [Memory.find?_add, if_pos ((mem_lookUp_iff _ _).mpr looks)]
    · cases found
  rcases among with rfl | looks
  · cases remembered : m.find? file.parent.names with
    | some u =>
      have same := answer_of_remembered searches resolved remembered
      rw [found] at same
      cases same
      exact (isKeptBy_answer m q).directories _ _ remembered
    | none => exact looked (looksAt_self remembered)
  · exact looked looks

/-- Nothing is remembered of the directory of a file whose configuration cannot be found. -/
theorem find?_of_error {e : Error} (failed : (k.answer m q).1 = .error e) :
    m.find? file.parent.names = none := by
  cases remembered : m.find? file.parent.names with
  | none => rfl
  | some t =>
    rw [answer_of_remembered searches resolved remembered] at failed
    cases failed

end Search

/-- A table that was loaded for all files is the configuration of every file. -/
theorem answer_of_given {q : Inquiry} {f : Path} {t : Table}
    (loads : k.override = some (.file f)) (held : m.given = some t) :
    (k.answer m q).1 = .ok t := by
  simp only [answer, resolve, loads, held]

theorem given_answer {q : Inquiry} {f : Path} {t : Table} (loads : k.override = some (.file f))
    (found : (k.answer m q).1 = .ok t) : (k.answer m q).2.given = some t := by
  cases held : m.given with
  | some u =>
    rw [answer_of_given loads held] at found
    cases found
    exact (isKeptBy_answer m q).given _ held
  | none =>
    simp only [answer, resolve, loads, held] at found ⊢
    split at found
    · cases found
      rfl
    · cases found

theorem given_of_error {q : Inquiry} {f : Path} {e : Error} (loads : k.override = some (.file f))
    (failed : (k.answer m q).1 = .error e) : m.given = none := by
  cases held : m.given with
  | none => rfl
  | some t =>
    rw [answer_of_given loads held] at failed
    cases failed

/-- A configuration that was found for a file is found for every file whose directory was looked at
then, or is the one that the lookup started from, whatever has become of the files, and whatever was
looked up before or in between. A lookup that fails changes nothing: what is looked up later ends as
if it had never been, and the directory of its file is looked at anew. A file for all is loaded once,
and a table for all is found at any time. -/
theorem found_configuration_lasts (k : Lookup) (earlier between : List Inquiry)
    (now later : Inquiry) :
    let before := k.remembers .empty earlier
    let outcome := (k.answer before now).1
    let after := k.remembers .empty (earlier ++ now :: between)
    let again := (k.answer after later).1
    (k.override = none → ∀ file t, now.tree.resolve now.cwd now.file = .ok file →
      outcome = .ok t →
      ∀ last d file', (last = file.parent.names ∨
          LooksAt before now.tree now.cwd k.filename file.parent.names last) →
        last <+: d → d <+: file.parent.names →
        later.tree.resolve later.cwd later.file = .ok file' → file'.parent.names = d →
        again = .ok t) ∧
      (∀ e, outcome = .error e →
        (k.answer before now).2 = before ∧ after = k.remembers .empty (earlier ++ between) ∧
        (∀ file, k.override = none → now.tree.resolve now.cwd now.file = .ok file →
          LooksAt (k.answer before now).2 later.tree later.cwd k.filename file.parent.names
            file.parent.names) ∧
        ∀ f, k.override = some (.file f) → (k.answer before now).2.given = none) ∧
      (∀ f t, k.override = some (.file f) → outcome = .ok t → again = .ok t) ∧
      ∀ t, k.override = some (.table t) → outcome = .ok t ∧ again = .ok t := by
  intro before outcome after again
  have passed : after = k.remembers (k.answer before now).2 between :=
    k.remembers_append .empty earlier (now :: between)
  have kept : (k.answer before now).2.IsKeptBy after := passed ▸ isKeptBy_remembers _ between
  refine ⟨?_, ?_, ?_, ?_⟩
  · intro searches file t resolved found last d file' among above below resolved' parent
    have remembered : (k.answer before now).2.find? d = some t := by
      refine find?_answer searches resolved found d ?_
      rcases among with rfl | looks
      · exact .inl (below.eq_of_length_le above.length_le)
      · exact .inr (looks.between above below)
    exact answer_of_remembered searches resolved' (parent ▸ kept.directories d t remembered)
  · intro e failed
    have unchanged : (k.answer before now).2 = before := answer_of_error failed
    refine ⟨unchanged, ?_, ?_, ?_⟩
    · rw [passed, unchanged]
      exact (k.remembers_append .empty earlier between).symm
    · intro file searches resolved
      rw [unchanged]
      exact looksAt_self (find?_of_error searches resolved failed)
    · intro f loads
      rw [unchanged]
      exact given_of_error loads failed
  · intro f t loads found
    exact answer_of_given loads (kept.given t (given_answer loads found))
  · intro t outright
    constructor <;> simp only [outcome, again, answer, resolve, outright]

end Lasting

section Sample

attribute [local instance] Wording.leftOut

/-- A file is looked up while a tree holds a text as its configuration. -/
def beside (text : List Char) : Inquiry := ⟨rootTree text, [], besideRoot⟩

/-- A configuration for all files, in the root. -/
def fromRoot : Lookup := ⟨defaultConfigFilename, some (.file (candidate byDefault.filename []))⟩

variable (text : List Char)

theorem load_rootTree {depth : Nat} {t : Table}
    (read : Json.readChars (.file depth) (Text.unifyLineEnds text) = .ok (.table t)) :
    load depth (rootTree text) [] (candidate byDefault.filename []) = .ok t := by
  rw [load, readFile_rootTree, readJson_of_readChars _ read]

theorem answer_beside :
    (byDefault.answer .empty (beside text)).1 =
      (load Depth.found (rootTree text) [] (candidate byDefault.filename [])).mapError
        (unresolved besideRoot) := by
  have found := (resolve_of_faithful (k := byDefault) rfl
    (Memory.empty_faithful (rootTree text) [] byDefault.filename) besideRoot).1
  rwa [searched_of_isNearest (resolve_rootTree _) (isNearest_rootTree _)] at found

theorem answer_fromRoot :
    (fromRoot.answer .empty (beside text)).1 =
      (load Depth.given (rootTree text) [] (candidate byDefault.filename [])).mapError
        (unresolved besideRoot) := by
  simp only [answer, resolve, fromRoot, Memory.empty, beside]
  cases load Depth.given (rootTree text) [] (candidate byDefault.filename []) <;> rfl

/-- A configuration that is found before its file is spoiled lasts, in whatever way it was found;
one that is looked up before its file is mended is not found, but it is found afterwards. -/
theorem found_configuration_lasts_when_spoiled :
    let good := beside "\x7b\"a\":1\x7d".toList
    let bad := beside []
    let outright : Lookup := ⟨defaultConfigFilename, some (.table [("b", .null)])⟩
    (byDefault.answer (byDefault.remembers .empty [good, bad]) bad).1 = .ok [("a", .int 1)] ∧
      (∃ e, (byDefault.answer .empty bad).1 = .error e) ∧
      (byDefault.answer (byDefault.remembers .empty [bad]) good).1 = .ok [("a", .int 1)] ∧
      (fromRoot.answer (fromRoot.remembers .empty [good]) bad).1 = .ok [("a", .int 1)] ∧
      (outright.answer (outright.remembers .empty [good]) bad).1 = .ok [("b", .null)] := by
  intro good bad outright
  have found : (byDefault.answer .empty good).1 = .ok [("a", .int 1)] := by
    rw [answer_beside, load_rootTree _ rfl]
    rfl
  have given : (fromRoot.answer .empty good).1 = .ok [("a", .int 1)] := by
    rw [answer_fromRoot, load_rootTree _ rfl]
    rfl
  have spoiled : ∃ e, (byDefault.answer .empty bad).1 = .error e := by
    obtain ⟨why, unreadable⟩ :
        ∃ why, readJson Depth.found (Text.Utf8.encode (String.ofList [])) = .error why := by
      simp only [readJson, Text.Utf8.decode_encode, String.toList_ofList]
      exact ⟨_, rfl⟩
    rw [answer_beside, load, readFile_rootTree, unreadable]
    exact ⟨_, rfl⟩
  obtain ⟨lasts, -, -, -⟩ := found_configuration_lasts byDefault [] [bad] good bad
  obtain ⟨-, retried, -, -⟩ := found_configuration_lasts byDefault [] [] bad good
  obtain ⟨-, -, lastsForAll, -⟩ := found_configuration_lasts fromRoot [] [] good bad
  obtain ⟨-, -, -, lastsOutright⟩ := found_configuration_lasts outright [] [] good bad
  refine ⟨?_, spoiled, ?_, ?_, ?_⟩
  · exact lasts rfl besideRoot _ (resolve_rootTree _) found _ _ besideRoot (.inl rfl)
      List.prefix_rfl List.prefix_rfl (resolve_rootTree _) rfl
  · obtain ⟨e, failed⟩ := spoiled
    obtain ⟨-, unchanged, -, -⟩ := retried e failed
    exact (congrArg (fun m => (byDefault.answer m good).1) unchanged).trans found
  · exact lastsForAll _ _ rfl given
  · exact (lastsOutright _ rfl).2

end Sample

end Lookup

end LintRun.Configuration
