import LintRun.Proofs.FileTree.Resolved
import LintRun.Proofs.Outcomes
import LintRun.Record.OfFile

/-!
# What a record of a file is called

The relative path of a record leads back to the file when it is joined to the base, whichever links
the two are told by (`ofFile_recombines`): it goes down from the base if the file lies below it, name
by name, and is the whole path of the file if not. So under one base a file has one relative path,
and no other file has it.
-/
namespace LintRun

open FileTree

namespace Path

variable {base file : Path} (plain : file.IsPlain)

include plain

/-- What a path is called is the text of the names below the base, or of the whole path. -/
theorem ofString_calledFrom :
    ofString (base.calledFrom file) =
      if base.names <+: file.names then ⟨.relative, file.names.drop base.names.length⟩ else file := by
  unfold calledFrom
  by_cases below : base.names <+: file.names
  · rw [if_pos below, if_pos (List.isPrefixOf_iff_prefix.mpr below)]
    exact ofString_toString _ fun name member => plain name (List.mem_of_mem_drop member)
  · rw [if_neg below, if_neg (by simpa using below)]
    exact ofString_toString _ plain

/-- What a path is called leads from the base to the path. -/
theorem join_calledFrom (sameAnchor : base.anchor = file.anchor) (absolute : file.isAbsolute = true) :
    base.join (ofString (base.calledFrom file)) = file := by
  rw [ofString_calledFrom plain]
  split
  · next below =>
    obtain ⟨rest, names⟩ := below
    have relative : (Path.mk .relative (file.names.drop base.names.length)).isAbsolute = false := rfl
    rw [join, relative, if_neg (by decide), sameAnchor, ← names, List.drop_left, names]
  · rw [join, if_pos absolute]

theorem noUp_calledFrom (noUp : ".." ∉ file.names) :
    ".." ∉ (ofString (base.calledFrom file)).names := by
  rw [ofString_calledFrom plain]
  split
  · exact fun up => noUp (List.mem_of_mem_drop up)
  · exact noUp

theorem isAbsolute_calledFrom (absolute : file.isAbsolute = true) :
    (ofString (base.calledFrom file)).isAbsolute = true ↔ ¬ base.names <+: file.names := by
  rw [ofString_calledFrom plain]
  split
  · next below => simp [below, isAbsolute]
  · next beside => simpa [beside] using absolute

end Path

namespace Record

variable {tree : FileTree} {cwd : Location} {p : Path} {base : Option Path} {r : Record}

/-- A record is made of a file that can be read where its path resolves to. -/
theorem ofFile_eq_ok :
    ofFile tree cwd p base = .ok r ↔
      ∃ file root b, tree.resolve cwd p = .ok file ∧
        tree.resolve cwd (base.getD .here) = .ok root ∧ tree.read cwd file = .ok b ∧
        r = ⟨file, root.calledFrom file, .bytes b, none⟩ := by
  simp only [ofFile, bind_eq_ok, mapError_eq_ok, pure, Except.pure, Except.ok.injEq]
  constructor
  · intro ⟨file, resolved, root, based, b, bytes, made⟩
    exact ⟨file, root, b, resolved, based, bytes, made.symm⟩
  · intro ⟨file, root, b, resolved, based, bytes, made⟩
    exact ⟨file, resolved, root, based, b, bytes, made.symm⟩

/-- Without a base that resolves there is no record, whatever can be read. -/
theorem ofFile_of_unresolved {file : Path} {e : Error} (resolved : tree.resolve cwd p = .ok file)
    (unresolved : tree.resolve cwd (base.getD .here) = .error e) :
    ofFile tree cwd p base = .error e :=
  bind_eq_error.mpr (.inr ⟨file, resolved, bind_eq_error.mpr (.inl unresolved)⟩)

section Based

variable {q root : Path} {s : Record} (hosts : tree.Hosts cwd)
  (plainBase : (base.getD .here).IsPlain) (based : tree.resolve cwd (base.getD .here) = .ok root)

include based

/-- A file that can be read where its path resolves to has a record. -/
theorem ofFile_of_read {file : Path} {b : ByteArray} (resolved : tree.resolve cwd p = .ok file)
    (bytes : tree.read cwd file = .ok b) :
    ofFile tree cwd p base = .ok ⟨file, root.calledFrom file, .bytes b, none⟩ :=
  ofFile_eq_ok.mpr ⟨file, root, b, resolved, based, bytes, rfl⟩

/-- What cannot be read where its path resolves to has no record. -/
theorem ofFile_of_unread {file : Path} {e : AccessProblem}
    (resolved : tree.resolve cwd p = .ok file) (unread : tree.read cwd file = .error e) :
    ofFile tree cwd p base = .error (.ofAccess e) := by
  have failed : (tree.read cwd file).mapError Error.ofAccess = .error (.ofAccess e) :=
    mapError_eq_error.mpr ⟨e, unread, rfl⟩
  exact bind_eq_error.mpr (.inr ⟨file, resolved, bind_eq_error.mpr (.inr ⟨root, based,
    bind_eq_error.mpr (.inl failed)⟩)⟩)

include hosts plainBase

/-- The relative path of a record leads from the base to its path, without double dots, and is
absolute exactly if the path does not go down from the base. -/
theorem relative_of_ofFile (plain : p.IsPlain) (made : ofFile tree cwd p base = .ok r) :
    r.relative = root.calledFrom r.path ∧ root.join (Path.ofString r.relative) = r.path ∧
      ".." ∉ (Path.ofString r.relative).names ∧
      ((Path.ofString r.relative).isAbsolute = true ↔ ¬ root.names <+: r.path.names) := by
  obtain ⟨file, other, b, resolved, there, -, rfl⟩ := ofFile_eq_ok.mp made
  obtain rfl := Except.ok.inj (based.symm.trans there)
  obtain ⟨rootAnchor, -, -⟩ := shape_of_resolve hosts plainBase based
  obtain ⟨anchor, plainFile, noUp⟩ := shape_of_resolve hosts plain resolved
  have absolute : file.isAbsolute = true := by simp [Path.isAbsolute, anchor]
  exact ⟨rfl, Path.join_calledFrom plainFile (rootAnchor.trans anchor.symm) absolute,
    Path.noUp_calledFrom plainFile noUp, Path.isAbsolute_calledFrom plainFile absolute⟩

/-- Under one base a file has one relative path, and no other file has it. -/
theorem relative_eq_iff (plain : p.IsPlain) (plainOther : q.IsPlain)
    (made : ofFile tree cwd p base = .ok r) (madeOther : ofFile tree cwd q base = .ok s) :
    r.relative = s.relative ↔ r.path = s.path := by
  obtain ⟨named, back, -⟩ := relative_of_ofFile hosts plainBase based plain made
  obtain ⟨namedOther, backOther, -⟩ := relative_of_ofFile hosts plainBase based plainOther madeOther
  constructor
  · intro same
    rw [← back, ← backOther, same]
  · intro same
    rw [named, namedOther, same]

end Based

/-- Paths and bases are told as texts, and a base that is left out is the working directory. Under a
base that resolves, a file that can be read where its path resolves to has a record: its relative
path leads from the resolved base to the resolved path, without double dots, and is absolute exactly
if the file does not lie below the base name by name. Records under one base have the same relative
path exactly if they have the same path. What can be read under a path has such a record, with the
same bytes, unless the text of the resolved path is too long to be opened. -/
theorem ofFile_recombines (tree : FileTree) (cwd : Location) (hosts : tree.Hosts cwd)
    (base : Option String) (root : Path)
    (based : tree.resolve cwd ((base.map Path.ofString).getD .here) = .ok root) :
    let recordOf (path : String) := ofFile tree cwd (Path.ofString path) (base.map Path.ofString)
    (base = none → root = pathOf cwd) ∧
    (∀ path file b, tree.resolve cwd (Path.ofString path) = .ok file →
      tree.read cwd file = .ok b → ∃ r, recordOf path = .ok r ∧
        r.path = file ∧ root.join (Path.ofString r.relative) = file ∧
        ".." ∉ (Path.ofString r.relative).names ∧
        ((Path.ofString r.relative).isAbsolute = true ↔ ¬ root.names <+: file.names) ∧
        r.contents = .bytes b ∧ r.lint = none) ∧
    (∀ path other r s, recordOf path = .ok r → recordOf other = .ok s →
      (r.relative = s.relative ↔ r.path = s.path)) ∧
    ∀ path b, tree.read cwd (Path.ofString path) = .ok b →
      ∃ file, tree.resolve cwd (Path.ofString path) = .ok file ∧
        ((∃ r, recordOf path = .ok r ∧ r.path = file ∧ r.contents = .bytes b) ∨
          isLongPath file.toString = true ∧
            recordOf path = .error (.ofAccess (.system ⟨.nameTooLong, file.toString⟩))) := by
  intro recordOf
  have plainBase : ((base.map Path.ofString).getD .here).IsPlain := by
    cases base with
    | none => exact .nil .relative
    | some text => exact Path.ofString_isPlain text
  refine ⟨?_, ?_, ?_, ?_⟩
  · rintro rfl
    exact Except.ok.inj (based.symm.trans (resolve_here tree cwd))
  · intro path file b resolved bytes
    have made := ofFile_of_read based resolved bytes
    obtain ⟨-, back, noUp, absolute⟩ :=
      relative_of_ofFile hosts plainBase based (Path.ofString_isPlain path) made
    exact ⟨_, made, rfl, back, noUp, absolute, rfl, rfl⟩
  · intro path other r s made madeOther
    exact relative_eq_iff hosts plainBase based (Path.ofString_isPlain path)
      (Path.ofString_isPlain other) made madeOther
  · intro path b opened
    obtain ⟨file, resolved, outcome⟩ := read_of_read hosts (Path.ofString_isPlain path) opened
    refine ⟨file, resolved, ?_⟩
    cases long : isLongPath file.toString with
    | false =>
      rw [long, if_neg (by decide)] at outcome
      exact .inl ⟨_, ofFile_of_read based resolved outcome, rfl, rfl⟩
    | true =>
      rw [long, if_pos rfl] at outcome
      exact .inr ⟨rfl, ofFile_of_unread based resolved outcome⟩

section Sample

/-- A file, a link to its directory with a slash at the end, and a link over that one. -/
def linkedTree : FileTree :=
  ⟨[(["p", "src", "a.ts"], .file "1".toUTF8 false), (["p", "l"], .link "src/"),
    (["p", "b"], .link "../p/l/.")]⟩

theorem linkedTree_isReal : linkedTree.IsReal ["p"] :=
  ⟨by decide, .enter (by decide) rfl (.here ["p"])⟩

theorem linkedTree_hosts : linkedTree.Hosts ["p"] := by
  refine ⟨by decide, by simp [NulFree], linkedTree_isReal, links_of_entries ?_⟩
  simp [linkedTree]

/-- The first link leads to the directory of the file. -/
theorem leads_link {n : Nat} {rest : List String} {place : Location × Entry}
    (onward : Leads linkedTree n ["p", "src"] rest place) :
    Leads linkedTree (n + 1) ["p"] ("l" :: rest) place := by
  have names : namesOf "src/" = ["src", "."] := by decide
  have plain : isRooted "src/" = false := by decide
  have found : linkedTree.entry? (["p"] ++ ["l"]) = some (.link "src/") := rfl
  refine .follow (by decide) found ?_
  rw [names, plain]
  exact .enter (by decide) rfl (.dot onward)

/-- So does the second one. -/
theorem leads_second {n : Nat} {rest : List String} {place : Location × Entry}
    (onward : Leads linkedTree n ["p", "src"] rest place) :
    Leads linkedTree (n + 2) ["p"] ("b" :: rest) place := by
  have names : namesOf "../p/l/." = ["..", "p", "l", "."] := by decide
  have plain : isRooted "../p/l/." = false := by decide
  have found : linkedTree.entry? (["p"] ++ ["b"]) = some (.link "../p/l/.") := rfl
  refine .follow (by decide) found ?_
  rw [names, plain]
  exact .up (.enter (by decide) rfl (leads_link (.dot onward)))

/-- A file behind links is called by its name below a base that is a link. -/
theorem ofFile_recombines_linked : linkedTree.Hosts ["p"] ∧
    linkedTree.resolve ["p"] (Path.ofString "b") = .ok ⟨.root, ["p", "src"]⟩ ∧
    ∃ r, ofFile linkedTree ["p"] (Path.ofString "b/../l/a.ts") (some (Path.ofString "b")) = .ok r ∧
      r.path = ⟨.root, ["p", "src", "a.ts"]⟩ ∧ r.contents = .bytes "1".toUTF8 := by
  have base : Path.ofString "b" = ⟨.relative, ["b"]⟩ := by decide
  have path : Path.ofString "b/../l/a.ts" = ⟨.relative, ["b", "..", "l", "a.ts"]⟩ := by decide
  have based : linkedTree.resolve ["p"] (Path.ofString "b") = .ok ⟨.root, ["p", "src"]⟩ := by
    rw [base]
    exact resolve_of_leads (p := ⟨.relative, ["b"]⟩) (by decide) (by decide) (leads_second (.here _))
  have leads : Leads linkedTree 3 ["p"] ["b", "..", "l", "a.ts"]
      (["p", "src", "a.ts"], .file "1".toUTF8 false) :=
    leads_second (.up (leads_link (.file (by decide) rfl)))
  have located : linkedTree.resolve ["p"] (Path.ofString "b/../l/a.ts") =
      .ok ⟨.root, ["p", "src", "a.ts"]⟩ := by
    rw [path]
    exact resolve_of_leads (p := ⟨.relative, ["b", "..", "l", "a.ts"]⟩) (by decide) (by decide) leads
  have opened : linkedTree.read ["p"] (Path.ofString "b/../l/a.ts") = .ok "1".toUTF8 := by
    rw [path, FileTree.read, walk_of_leads (by decide) (by decide) leads (by decide)]
    rfl
  obtain ⟨-, -, -, records⟩ := ofFile_recombines linkedTree ["p"] linkedTree_hosts (some "b")
    ⟨.root, ["p", "src"]⟩ based
  obtain ⟨file, resolved, ⟨r, made, there, bytes⟩ | ⟨long, -⟩⟩ :=
    records "b/../l/a.ts" "1".toUTF8 opened
  · exact ⟨linkedTree_hosts, based, r, made, there.trans (Except.ok.inj (resolved.symm.trans located)),
      bytes⟩
  · rw [← Except.ok.inj (located.symm.trans resolved)] at long
    exact absurd long (by decide)

/-- A file, and a link to itself beside the directory of the file. -/
def loopingTree : FileTree :=
  ⟨[(["p", "a.ts"], .file "1".toUTF8 false), (["loop"], .link "loop")]⟩

theorem loopingTree_hosts : loopingTree.Hosts ["p"] := by
  refine ⟨by decide, by simp [NulFree], ⟨by decide, .enter (by decide) rfl (.here ["p"])⟩,
    links_of_entries ?_⟩
  simp [loopingTree]

/-- The link is followed until no more links are allowed. -/
theorem walkFrom_loop (links : Nat) :
    loopingTree.walkFrom links [] ["loop"] = .error .linkLoop := by
  have names : namesOf "loop" ++ [] = ["loop"] := by decide
  have plain : isRooted "loop" = false := by decide
  have found : loopingTree.entry? ([] ++ ["loop"]) = some (.link "loop") := rfl
  induction links with
  | zero => rw [walkFrom_step (by decide), found]
  | succ links ih =>
    rw [walkFrom_step (by decide), found]
    dsimp only
    rw [names, plain]
    exact ih

theorem resolve_loop (cwd : Location) :
    loopingTree.resolve cwd (Path.ofString "/loop") =
      .error (.outside .runtime "Symlink loop from '/loop'") := by
  have path : Path.ofString "/loop" = ⟨.root, ["loop"]⟩ := by decide
  have pieces : piecesOf "loop" = ["loop"] := by decide
  have plain : isRooted "loop" = false := by decide
  have next : (Way.mk true []).enter "loop" = ⟨true, ["loop"]⟩ := rfl
  have found : loopingTree.entry? ((Way.mk true ["loop"]).location cwd) = some (.link "loop") := rfl
  -- The target of the link is the link that is being followed.
  have again (depth : Nat) :
      loopingTree.resolveFrom cwd depth [⟨true, ["loop"]⟩] ⟨true, []⟩ ["loop"] =
        .error ⟨true, ["loop"]⟩ := by
    rw [resolveFrom, next]
    cases depth <;> simp [found, Way.join]
  have stuck (depth : Nat) : loopingTree.resolveFrom cwd depth [] ⟨true, []⟩ ["loop"] =
      .error ⟨true, ["loop"]⟩ := by
    rw [resolveFrom, next]
    cases depth <;> simp [found, plain, pieces, again, Way.join]
  have spot : (pathOf ((Way.mk true ["loop"]).location cwd)).toString = "/loop" := by
    rw [show (Way.mk true ["loop"]).location cwd = ["loop"] from rfl]
    decide
  have walked : loopingTree.walk [] "/loop" = .error .linkLoop := by
    rw [FileTree.walk, if_neg (by decide), if_neg (by decide), ite_self]
    exact walkFrom_loop linkLimit
  have noNul : (Path.mk .root ["loop"]).holdsNul = false := by decide
  have absolute : (Path.mk .root ["loop"]).isAbsolute = true := rfl
  have quoted : Text.quoted "/loop" = "'/loop'" := by decide +kernel
  rw [path, resolve, noNul, absolute, stuck]
  dsimp only
  rw [spot, walked, quoted]
  rfl

/-- A file that can be read has no record under a base that is a link to itself. -/
theorem no_record_under_loop : loopingTree.Hosts ["p"] ∧
    loopingTree.resolve ["p"] (Path.ofString "a.ts") = .ok ⟨.root, ["p", "a.ts"]⟩ ∧
    loopingTree.read ["p"] (Path.ofString "a.ts") = .ok "1".toUTF8 ∧
    ofFile loopingTree ["p"] (Path.ofString "a.ts") (some (Path.ofString "/loop")) =
      .error (.outside .runtime "Symlink loop from '/loop'") := by
  have path : Path.ofString "a.ts" = ⟨.relative, ["a.ts"]⟩ := by decide
  have leads : Leads loopingTree 0 ["p"] ["a.ts"] (["p", "a.ts"], .file "1".toUTF8 false) :=
    .file (by decide) rfl
  have located : loopingTree.resolve ["p"] (Path.ofString "a.ts") = .ok ⟨.root, ["p", "a.ts"]⟩ := by
    rw [path]
    exact resolve_of_leads (p := ⟨.relative, ["a.ts"]⟩) (by decide) (by decide) leads
  refine ⟨loopingTree_hosts, located, ?_, ofFile_of_unresolved located (resolve_loop ["p"])⟩
  rw [path, FileTree.read, walk_of_leads (by decide) (by decide) leads (by decide)]
  rfl

end Sample

end Record

end LintRun
