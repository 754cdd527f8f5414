import LintRun.Command
import LintRun.Proofs.Command.Words
import LintRun.Proofs.FileTree.Writing
import LintRun.Proofs.Linting.Visit
import LintRun.Proofs.Outcomes
import LintRun.Proofs.Text.Characters

/-!
# What a scratch directory holds

A linter command is started in a fresh directory with two files in it: the copy of the text under
its relative path, and the configuration. Both are found where the words of the command say, with
the bytes that were written (`Machine.scratch_holds_request`), but for one name: a copy that is
called like the configuration is replaced by it.
-/
namespace LintRun.Command

open LintRun.FileTree

section Directories

/-- A fresh directory lists nothing, and the rest of the tree what it did. -/
theorem listed?_freshDirectory (t : FileTree) (l k : Location) :
    (freshDirectory t l).listed? k =
      if k = l then some .directory else if l <+: k then none else t.listed? k := by
  unfold freshDirectory
  rw [listed?_put]
  congr 1
  unfold listed?
  dsimp only
  rw [List.find?_filter]
  split
  · next below =>
    have none : (t.entries.find? fun e => decide ((!l.isPrefixOf e.1) = true ∧ (e.1 == k) = true)) =
        none := by
      refine List.find?_eq_none.mpr ?_
      rintro ⟨spot, e⟩ -
      by_cases same : spot = k
      · subst same
        simp [below]
      · simp [same]
    rw [none]
    rfl
  · next beside =>
    have kept : l.isPrefixOf k = false := by simpa [← List.isPrefixOf_iff_prefix] using beside
    congr 2
    funext e
    by_cases same : e.1 = k <;> simp [same, kept]

/-- No link is on a way through a fresh directory if none was on the way to it. -/
theorem isClear_freshDirectory {t : FileTree} {l : Location} (clear : t.IsClear [] l)
    (names : List String) : (freshDirectory t l).IsClear [] (l ++ names) := by
  intro front target within link
  have proper : Entry.link target ≠ .directory := nofun
  rw [List.nil_append, entry_eq_iff _ proper, listed?_freshDirectory] at link
  obtain ⟨below, listing⟩ := link
  split at listing
  · cases listing
  · split at listing
    · cases listing
    · next beside =>
      have compared := List.prefix_or_prefix_of_prefix within (List.prefix_append l names)
      have onWay := compared.resolve_right beside
      exact clear front target onWay ((entry_eq_iff _ proper).mpr ⟨below, listing⟩)

theorem extends_makeParents (t : FileTree) (p : Path) : Extends t (makeParents t p) := by
  unfold makeParents
  generalize List.range p.names.length = sizes
  induction sizes generalizing t with
  | nil => exact .refl t
  | cons i rest ih => exact (Extends.makeDirectory t _).trans (ih _)

theorem write_of_writeText {t u : FileTree} {base : Location} {p : Path} {s : String}
    (written : writeText t base p s = .ok u) :
    (makeParents t p).write [] p (Text.Utf8.encode s) = .ok u := by
  unfold writeText at written
  split at written
  · cases written
  · split at written
    · cases written
    · exact mapError_eq_ok.mp written

end Directories

section Copies

theorem toString_name (name : String) : Path.toString ⟨.relative, [name]⟩ = name := by
  rw [Path.toString_eq _ (List.cons_ne_nil name []), String.intercalate_singleton]
  exact String.empty_append

/-- A copy lies at the names of a relative path; only the last of them can be a double dot. -/
theorem exists_scratchPath_eq (relative : String) :
    ∃ front last, GoesDown front ∧ Path.IsPlain ⟨.relative, front ++ [last]⟩ ∧
      scratchPath relative = Path.toString ⟨.relative, front ++ [last]⟩ := by
  have alone (name : String) (proper : Path.IsName name) :
      ∃ front last, GoesDown front ∧ Path.IsPlain ⟨.relative, front ++ [last]⟩ ∧
        name = Path.toString ⟨.relative, front ++ [last]⟩ :=
    ⟨[], name, ⟨List.not_mem_nil, List.not_mem_nil⟩, by simpa [Path.IsPlain] using proper,
      (toString_name name).symm⟩
  unfold scratchPath
  generalize spelled : Path.ofString (relative.map fun c => if c = '\\' then '/' else c) = p
  have plain : p.IsPlain := spelled ▸ Path.ofString_isPlain _
  dsimp only
  split
  · split
    · exact alone fallbackName (by decide)
    · next named =>
      refine alone p.name (plain p.name ?_)
      unfold Path.name at named ⊢
      cases last : p.names.getLast? with
      | none => exact absurd (by rw [last]; rfl) named
      | some name => exact List.mem_of_getLast? last
  · next inside =>
    obtain ⟨anchor, names⟩ := p
    simp only [Bool.or_eq_true, not_or, Bool.not_eq_true, Path.isAbsolute] at inside
    obtain ⟨⟨rooted, noUp⟩, filled⟩ := inside
    obtain rfl : anchor = .relative := by simpa using rooted
    obtain ⟨front, last, rfl⟩ := (List.eq_nil_or_concat' names).resolve_left (by simpa using filled)
    refine ⟨front, last, ⟨?_, ?_⟩, plain, rfl⟩
    · intro dot
      exact (plain "." (List.mem_append_left _ dot)).2.1 rfl
    · intro up
      simp [up] at noUp

end Copies

namespace Machine

variable {σ : Type} {m : Machine σ} {t u : FileTree} {r : Request} {depth : Nat}

/-- The place for scratch directories is told by names that only go down, and no link is on the way
to it. -/
structure IsPlaced (m : Machine σ) : Prop where
  plain : (pathOf m.scratch).IsPlain
  noUp : ".." ∉ m.scratch
  clear : m.space.tree.IsClear [] m.scratch

theorem IsPlaced.goesDown (placed : m.IsPlaced) : GoesDown m.scratch :=
  ⟨fun dot => (placed.plain "." dot).2.1 rfl, placed.noUp⟩

/-- The bytes that a program in the scratch directory finds under a word of its command. -/
def opened (m : Machine σ) (t : FileTree) (word : String) : Option ByteArray :=
  match t.walk m.scratch word with
  | .ok (_, .file b _) => some b
  | _ => none

theorem scratchFile_toString (m : Machine σ) {names : List String}
    (plain : Path.IsPlain ⟨.relative, names⟩) :
    m.scratchFile (Path.toString ⟨.relative, names⟩) = ⟨.root, m.scratch ++ names⟩ := by
  rw [scratchFile, Path.ofString_toString _ plain]
  rfl

theorem fill_eq_ok : m.fill depth r = .ok t ↔
    ∃ u, writeText (freshDirectory m.space.tree m.scratch) m.scratch
        (m.scratchFile (scratchPath r.relative)) r.text = .ok u ∧
      ∃ configuration, Json.encode? .spaced depth (.table r.configuration) = .ok configuration ∧
        writeText u m.scratch (m.scratchFile configFilename) configuration = .ok t := by
  simp only [fill, bind_eq_ok, mapError_eq_ok]

/-- Names lead from the scratch directory down to a file with these bytes. -/
structure Holds (m : Machine σ) (t : FileTree) (names : List String) (b : ByteArray) : Prop where
  plain : Path.IsPlain ⟨.relative, names⟩
  filled : names ≠ []
  down : GoesDown names
  short : isLongPath (Path.toString ⟨.root, m.scratch ++ names⟩) = false
  reached : Leads t 0 [] m.scratch (m.scratch, .directory)
  leads : ∃ x, Leads t 0 [] (m.scratch ++ names) (m.scratch ++ names, .file b x)

namespace Holds

variable {names : List String} {b : ByteArray}

/-- The file is found under its relative path. -/
theorem opened (holds : m.Holds t names b) :
    m.opened t (Path.toString ⟨.relative, names⟩) = b := by
  obtain ⟨x, leads⟩ := holds.leads
  have walked := (holds.reached.walkFrom_append linkLimit names).symm.trans
    (leads.walkFrom_eq (Nat.zero_le linkLimit))
  have short : isLongPath (Path.toString ⟨.relative, names⟩) = false := by
    have below := holds.short
    have shorter := Path.utf8ByteSize_toString_le m.scratch names holds.filled
    simp only [isLongPath, decide_eq_false_iff_not] at below ⊢
    omega
  rw [Machine.opened, walk_of_short holds.plain m.scratch short]
  simp [Path.isAbsolute, walked]

/-- The file is found under its absolute path. -/
theorem opened_scratchFile (holds : m.Holds t names b) (placed : m.IsPlaced) :
    m.opened t (m.scratchFile (Path.toString ⟨.relative, names⟩)).toString = b := by
  obtain ⟨x, leads⟩ := holds.leads
  have plain : Path.IsPlain ⟨.root, m.scratch ++ names⟩ := placed.plain.join holds.plain
  rw [scratchFile_toString m holds.plain, Machine.opened,
    walk_of_leads plain holds.short leads (Nat.zero_le linkLimit)]

/-- The file is among those that a program is started with. -/
theorem mem_filesBelow (holds : m.Holds t names b) (placed : m.IsPlaced) :
    (names, b) ∈ t.filesBelow m.scratch := by
  obtain ⟨x, leads⟩ := holds.leads
  have there := leads.entry_eq (placed.goesDown.append holds.down)
    (List.append_ne_nil_of_right_ne_nil m.scratch holds.filled)
  have member := FileTree.mem_filesBelow there (List.prefix_append m.scratch names)
  rwa [List.drop_left] at member

end Holds

section Writes

variable {names : List String} (front : List String) {last s : String} {b : ByteArray}

/-- What writing a text below the scratch directory has done, once the directories on the way are
there. -/
theorem written_of_writeText (placed : m.IsPlaced) (down : GoesDown front)
    (plain : Path.IsPlain ⟨.relative, front ++ [last]⟩)
    (clear : u.IsClear [] (m.scratch ++ (front ++ [last])))
    (ends : writeText u m.scratch (m.scratchFile (Path.toString ⟨.relative, front ++ [last]⟩)) s =
      .ok t) :
    isLongPath (Path.toString ⟨.root, m.scratch ++ (front ++ [last])⟩) = false ∧
      (makeParents u ⟨.root, m.scratch ++ (front ++ [last])⟩).Written t (m.scratch ++ front) last
        (Text.Utf8.encode s) := by
  rw [scratchFile_toString m plain] at ends
  have more := extends_makeParents u ⟨.root, m.scratch ++ (front ++ [last])⟩
  have clearParents : (makeParents u ⟨.root, m.scratch ++ (front ++ [last])⟩).IsClear []
      (m.scratch ++ front ++ [last]) := by
    rw [List.append_assoc]
    exact more.isClear clear
  exact written_of_write (List.append_assoc ..).symm rfl
    (placed.plain.join plain) (placed.goesDown.append down) clearParents (write_of_writeText ends)

/-- The scratch directory holds what has been written there. -/
theorem holds_of_written (placed : m.IsPlaced) (down : GoesDown front)
    (plain : Path.IsPlain ⟨.relative, front ++ [last]⟩)
    (short : isLongPath (Path.toString ⟨.root, m.scratch ++ (front ++ [last])⟩) = false)
    (written : u.Written t (m.scratch ++ front) last b) : m.Holds t (front ++ [last]) b := by
  obtain ⟨x, leads⟩ := written.leads_self (placed.goesDown.append down)
  rw [List.append_assoc] at leads
  have filled : front ++ [last] ≠ [] :=
    List.append_ne_nil_of_right_ne_nil front (List.cons_ne_nil last [])
  exact ⟨plain, filled, down.append written.free.step.goesDown, short,
    leads.split_down placed.goesDown filled, x, leads⟩

/-- The scratch directory still holds what has not been written over. -/
theorem Holds.of_written (placed : m.IsPlaced) (holds : m.Holds u names b) {v : FileTree}
    (more : Extends u v) (down : GoesDown (front ++ [last])) {c : ByteArray}
    (written : v.Written t (m.scratch ++ front) last c) (apart : names ≠ front ++ [last]) :
    m.Holds t names b := by
  obtain ⟨x, leads⟩ := holds.leads
  have downBoth := placed.goesDown.append holds.down
  have kept := more.leads leads downBoth
  -- A file cannot have been written where a directory is needed on the way.
  have beside : ¬ m.scratch ++ front ++ [last] <+: m.scratch ++ names := by
    intro within
    rw [List.append_assoc, List.prefix_append_right_inj] at within
    obtain ⟨rest, rfl⟩ := within
    have further : rest ≠ [] := by
      rintro rfl
      exact apart (List.append_nil _)
    rw [← List.append_assoc] at kept
    have reached := kept.split_down (placed.goesDown.append down) further
    have directory := reached.entry_eq (placed.goesDown.append down) (by simp)
    rw [List.nil_append, ← List.append_assoc] at directory
    obtain ⟨_, _, file⟩ := written.free.file _ directory
    cases file
  have kept := written.leads kept downBoth beside
  exact { holds with
    reached := kept.split_down placed.goesDown holds.filled
    leads := ⟨x, kept⟩ }

end Writes

theorem toString_configFilename : Path.toString ⟨.relative, [configFilename]⟩ = configFilename :=
  toString_name configFilename

/-- What filling a scratch directory has done: the copy is written into the fresh directory, and
then the configuration. -/
theorem written_of_fill (placed : m.IsPlaced) (filled : m.fill depth r = .ok t) :
    ∃ configuration, Json.encode? .spaced depth (.table r.configuration) = .ok configuration ∧
      isLongPath (Path.toString ⟨.root, m.scratch ++ [configFilename]⟩) = false ∧
      ∃ u, (makeParents u ⟨.root, m.scratch ++ [configFilename]⟩).Written t m.scratch configFilename
          (Text.Utf8.encode configuration) ∧
        ∃ front last, GoesDown front ∧ Path.IsPlain ⟨.relative, front ++ [last]⟩ ∧
          scratchPath r.relative = Path.toString ⟨.relative, front ++ [last]⟩ ∧
          isLongPath (Path.toString ⟨.root, m.scratch ++ (front ++ [last])⟩) = false ∧
          (makeParents (freshDirectory m.space.tree m.scratch)
              ⟨.root, m.scratch ++ (front ++ [last])⟩).Written u (m.scratch ++ front) last
            (Text.Utf8.encode r.text) := by
  obtain ⟨u, first, configuration, encoded, second⟩ := fill_eq_ok.mp filled
  obtain ⟨front, last, down, plain, named⟩ := exists_scratchPath_eq r.relative
  have fresh := isClear_freshDirectory placed.clear
  rw [named] at first
  obtain ⟨shortCopy, copied⟩ := written_of_writeText front placed down plain (fresh _) first
  have clear : u.IsClear [] (m.scratch ++ [configFilename]) := by
    obtain ⟨x, rfl⟩ := copied.put
    exact ((extends_makeParents _ _).isClear (fresh _)).put
  have noFront : GoesDown [] := by decide
  have plainConfig : Path.IsPlain ⟨.relative, [configFilename]⟩ := by decide
  rw [← toString_configFilename] at second
  obtain ⟨shortConfig, configured⟩ :=
    written_of_writeText [] placed noFront plainConfig clear second
  rw [List.append_nil] at configured
  exact ⟨configuration, encoded, shortConfig, u, configured, front, last, down, plain, named,
    shortCopy, copied⟩

/-- A filled scratch directory holds the configuration under its name, and the text under the name
of the copy, unless this is the name of the configuration. -/
theorem holds_of_fill (placed : m.IsPlaced) (filled : m.fill depth r = .ok t) :
    ∃ configuration, Json.encode? .spaced depth (.table r.configuration) = .ok configuration ∧
      m.Holds t [configFilename] (Text.Utf8.encode configuration) ∧
      ∃ names, Path.IsPlain ⟨.relative, names⟩ ∧
        scratchPath r.relative = Path.toString ⟨.relative, names⟩ ∧
        (names ≠ [configFilename] → m.Holds t names (Text.Utf8.encode r.text)) := by
  obtain ⟨configuration, encoded, shortConfig, u, configured, front, last, down, plain, named,
    shortCopy, copied⟩ := written_of_fill placed filled
  rw [← List.append_nil m.scratch] at configured
  have copy := holds_of_written front placed down plain shortCopy copied
  have noFront : GoesDown [] := by decide
  have downConfig : GoesDown [configFilename] := by decide
  have plainConfig : Path.IsPlain ⟨.relative, [configFilename]⟩ := by decide
  exact ⟨configuration, encoded,
    holds_of_written [] placed noFront plainConfig shortConfig configured,
    front ++ [last], plain, named, fun apart =>
      copy.of_written [] placed (extends_makeParents u _) downConfig configured apart⟩

/-- The bytes of a record that are valid are those of the text in the request for it. -/
theorem encode_text_of_request {ρ : Type} (l : Linter ρ) (record : Record) (s : ρ)
    (made : .request r ∈ (l.handle record s).events) {b : ByteArray}
    (holds : record.contents = .bytes b) (valid : b.IsValidUTF8) : Text.Utf8.encode r.text = b := by
  obtain ⟨_, text, read, rfl⟩ := (l.handle_visits record s).request_eq r made
  rw [Record.text, holds] at read
  obtain rfl := Except.ok.inj read
  have unchanged := Text.Utf8.decodeReplacing_encode ⟨b, valid⟩
  exact congrArg Text.Utf8.encode unchanged

/-- The word that a token of a command becomes for a request leads to these bytes. -/
def Finds (m : Machine σ) (t : FileTree) (r : Request) (token : String) (b : ByteArray) : Prop :=
  ∃ word, m.words [token] r = [word] ∧ m.opened t word = some b

/-- When a command is started, the word for the configuration leads to the configuration, and the
word for the file to the text, of which the bytes are those of the record that is linted. But the
configuration replaces a copy with its name, and a token in the name of the copy or of the scratch
directory is replaced like those of the command. -/
theorem scratch_holds_request (m : Machine σ) (placed : m.IsPlaced) (depth : Nat) (r : Request)
    (t : FileTree) (filled : m.fill depth r = .ok t) :
    ∃ configuration, Json.encode? .spaced depth (.table r.configuration) = .ok configuration ∧
      (¬ Occurs rulesToken (m.scratchFile configFilename).toString →
        m.Finds t r configToken (Text.Utf8.encode configuration)) ∧
      (¬ Occurs configToken (scratchPath r.relative) →
        ¬ Occurs rulesToken (scratchPath r.relative) →
        m.Finds t r fileToken (Text.Utf8.encode
          (if scratchPath r.relative = configFilename then configuration else r.text))) ∧
      ([configFilename], Text.Utf8.encode configuration) ∈ t.filesBelow m.scratch ∧
      (scratchPath r.relative ≠ configFilename →
        ((Path.ofString (scratchPath r.relative)).names, Text.Utf8.encode r.text) ∈
          t.filesBelow m.scratch) ∧
      ∀ (ρ : Type) (l : Linter ρ) (record : Record) (s : ρ) (b : ByteArray),
        .request r ∈ (l.handle record s).events → record.contents = .bytes b → b.IsValidUTF8 →
          Text.Utf8.encode r.text = b := by
  obtain ⟨configuration, encoded, config, names, plain, named, copy⟩ := holds_of_fill placed filled
  have apart : scratchPath r.relative ≠ configFilename → names ≠ [configFilename] := by
    rintro other rfl
    exact other (named.trans toString_configFilename)
  refine ⟨configuration, encoded, ?_, ?_, config.mem_filesBelow placed, ?_, ?_⟩
  · intro noRules
    refine ⟨_, words_configToken noRules, ?_⟩
    rw [← toString_configFilename]
    exact config.opened_scratchFile placed
  · intro noConfig noRules
    refine ⟨_, words_fileToken noConfig noRules, ?_⟩
    split
    · next same =>
      rw [same, ← toString_configFilename]
      exact config.opened
    · next other =>
      rw [named]
      exact (copy (apart other)).opened
  · intro other
    rw [named, Path.ofString_toString _ plain]
    exact (copy (apart other)).mem_filesBelow placed
  · intro ρ l record s b made holds valid
    exact encode_text_of_request l record s made holds valid

section Sample

def bare : Machine Unit := ⟨⟨.empty, [], ""⟩, ["s"], fun _ => none⟩

theorem bare_isPlaced : bare.IsPlaced := by
  refine ⟨by decide, by decide, ?_⟩
  intro front target _ link
  have proper : Entry.link target ≠ .directory := nofun
  cases ((entry_eq_iff _ proper).mp link).2

def requestOf (relative : String) : Request := ⟨relative, "1", [], none⟩

/-- A name that a file in the scratch directory of the machine can have. -/
structure IsFileName (name : String) : Prop where
  proper : Path.IsName name
  step : IsStep name
  noNul : Path.holdsNul ⟨.root, ["s", name]⟩ = false
  short : longDirectory? ["s"] ⟨.root, ["s", name]⟩ = none
  shortPath : isLongPath (Path.toString ⟨.root, ["s", name]⟩) = false

/-- A file is written into the scratch directory. -/
theorem writeText_bare {t : FileTree} {name : String} (s : String) (usable : IsFileName name)
    (fresh : makeParents t ⟨.root, ["s", name]⟩ = t) (there : t.entry? ["s"] = some .directory)
    (free : ∀ e, t.entry? ["s", name] = some e → ∃ b x, e = .file b x) :
    ∃ x, writeText t ["s"] ⟨.root, ["s", name]⟩ s =
      .ok (t.put ["s", name] (.file (Text.Utf8.encode s) x)) := by
  have plain : Path.IsPlain ⟨.root, ["s", name]⟩ := by
    intro other member
    rcases List.mem_cons.mp member with rfl | last
    · decide
    · exact List.mem_singleton.mp last ▸ usable.proper
  have step : IsStep "s" := by decide
  have reached : Leads t 0 [] ["s"] (["s"], .directory) := .enter step there (.here ["s"])
  have shortParent : isLongPath (Path.toString ⟨.root, ["s"]⟩) = false := by decide
  have named : (Path.mk .root ["s", name]).names = ["s"] ++ [name] := rfl
  obtain ⟨x, written⟩ := write_of_isFree (b := Text.Utf8.encode s) named rfl plain
    usable.shortPath shortParent reached ⟨usable.step, free⟩
  refine ⟨x, ?_⟩
  rw [writeText, usable.noNul, usable.short, fresh]
  exact mapError_eq_ok.mpr written

theorem configFilename_isFileName : IsFileName configFilename :=
  ⟨by decide, by decide, by decide, by decide, by decide⟩

/-- The scratch directory of the machine is filled for a request whose configuration can be
written. -/
theorem fill_bare_of {r : Request} {depth : Nat} {configuration : String}
    (encoded : Json.encode? .spaced depth (.table r.configuration) = .ok configuration)
    (usable : IsFileName r.relative) (same : scratchPath r.relative = r.relative)
    (free : ∀ x e, FileTree.entry? ⟨[(["s"], .directory),
      (["s", r.relative], .file (Text.Utf8.encode r.text) x)]⟩ ["s", configFilename] = some e →
        ∃ b x, e = .file b x) :
    ∃ t, bare.fill depth r = .ok t := by
  have copyPath : bare.scratchFile (scratchPath r.relative) = ⟨.root, ["s", r.relative]⟩ := by
    rw [same, ← toString_name r.relative]
    exact scratchFile_toString bare (by simpa [Path.IsPlain] using usable.proper)
  have configPath : bare.scratchFile configFilename = ⟨.root, ["s", configFilename]⟩ := by
    decide
  obtain ⟨x, first⟩ := writeText_bare (t := ⟨[(["s"], .directory)]⟩) r.text usable rfl rfl (by
    intro e found
    have absent : FileTree.entry? ⟨[(["s"], .directory)]⟩ ["s", r.relative] = none := rfl
    rw [absent] at found
    cases found)
  obtain ⟨y, second⟩ := writeText_bare configuration configFilename_isFileName rfl rfl (free x)
  have copied : writeText (freshDirectory bare.space.tree bare.scratch) bare.scratch
      (bare.scratchFile (scratchPath r.relative)) r.text = _ := copyPath ▸ first
  have configured : writeText _ bare.scratch (bare.scratchFile configFilename) configuration = _ :=
    configPath ▸ second
  exact ⟨_, fill_eq_ok.mpr ⟨_, copied, _, encoded, configured⟩⟩

/-- The scratch directory of the machine is filled for a file without a configuration. -/
theorem fill_bare {name : String} (usable : IsFileName name) (same : scratchPath name = name)
    (free : ∀ x e, FileTree.entry? ⟨[(["s"], .directory),
      (["s", name], .file (Text.Utf8.encode "1") x)]⟩ ["s", configFilename] = some e →
        ∃ b x, e = .file b x) :
    ∃ t, bare.fill Depth.writtenInCheck (requestOf name) = .ok t :=
  fill_bare_of (r := requestOf name) rfl usable same free

/-- A file beside the configuration. -/
theorem scratch_holds_request_beside : bare.IsPlaced ∧
    ∃ t, bare.fill Depth.writtenInCheck (requestOf "a.ts") = .ok t ∧
      bare.Finds t (requestOf "a.ts") configToken (Text.Utf8.encode "\x7b\x7d") ∧
      bare.Finds t (requestOf "a.ts") fileToken (Text.Utf8.encode "1") := by
  have same : scratchPath "a.ts" = "a.ts" := by decide +kernel
  have usable : IsFileName "a.ts" :=
    ⟨by decide, by decide, by decide, by decide, by decide⟩
  obtain ⟨t, filled⟩ := fill_bare usable same (by
    intro x e found
    have absent : FileTree.entry? ⟨[(["s"], .directory),
      (["s", "a.ts"], .file (Text.Utf8.encode "1") x)]⟩ ["s", configFilename] = none := rfl
    rw [absent] at found
    cases found)
  obtain ⟨configuration, encoded, config, copy, -⟩ :=
    scratch_holds_request bare bare_isPlaced Depth.writtenInCheck (requestOf "a.ts") t filled
  obtain rfl : "\x7b\x7d" = configuration := Except.ok.inj encoded
  have copied := copy (by decide +kernel) (by decide +kernel)
  rw [if_neg (by decide +kernel)] at copied
  exact ⟨bare_isPlaced, t, filled, config (by decide), copied⟩

/-- A file with the name of the configuration is not linted: the command finds the configuration in
its place. -/
theorem configuration_replaces_copy :
    ∃ t, bare.fill Depth.writtenInCheck (requestOf configFilename) = .ok t ∧
      bare.words [fileToken] (requestOf configFilename) = [configFilename] ∧
      bare.opened t configFilename = some (Text.Utf8.encode "\x7b\x7d") ∧
      bare.opened t configFilename ≠ some (Text.Utf8.encode (requestOf configFilename).text) := by
  have same : scratchPath configFilename = configFilename := by decide +kernel
  obtain ⟨t, filled⟩ := fill_bare configFilename_isFileName same fun x e found =>
    ⟨_, x, (Option.some.inj found).symm⟩
  obtain ⟨configuration, encoded, config, -⟩ := holds_of_fill bare_isPlaced filled
  obtain rfl : "\x7b\x7d" = configuration := Except.ok.inj encoded
  have opened := config.opened
  rw [toString_configFilename] at opened
  refine ⟨t, filled, by decide +kernel, opened, ?_⟩
  rw [opened]
  decide

/-- A token in the name of a file is replaced like one of the command. -/
example : bare.words [fileToken] (requestOf configToken) =
    [(bare.scratchFile configFilename).toString] := by decide +kernel

end Sample

end Machine

end LintRun.Command
