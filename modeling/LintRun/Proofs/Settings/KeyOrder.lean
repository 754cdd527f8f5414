import LintRun.Proofs.Settings.Telling

/-!
# The order of settings

Of the entries of a section whose keys differ only by dashes the last one counts, and nothing else
of the order of entries does (`get?_plainKeys`, `alike_of_lastUnder`). So the order does not matter
for keys that stay apart without their dashes, nor if one of them is no setting; for all others
there are values for which it does (`settings_in_any_order`).
-/
namespace LintRun

namespace Settings

open Schema

/-- The value that counts under a plain key: the last one. -/
def lastUnder (key : String) (t : Table) : Option Value :=
  ((t.filter fun e => plainKey e.1 == key).getLast?).map Prod.snd

/-- No two keys are the same without their dashes. -/
def AreApart (ks : List String) : Prop := (ks.map plainKey).Nodup

instance (ks : List String) : Decidable (AreApart ks) :=
  inferInstanceAs (Decidable (ks.map plainKey).Nodup)

/-- Both times the same settings, or both times a problem of the configuration. -/
def Alike (first second : Except Error Settings) : Prop :=
  (∃ s, first = .ok s ∧ second = .ok s) ∨
    ∃ p q, first = .error (.config p) ∧ second = .error (.config q)

section Alike

variable {first second third : Except Error Settings}

theorem Alike.symm (alike : Alike first second) : Alike second first := by
  rcases alike with ⟨s, one, other⟩ | ⟨p, q, one, other⟩
  · exact .inl ⟨s, other, one⟩
  · exact .inr ⟨q, p, other, one⟩

theorem Alike.trans (front : Alike first second) (back : Alike second third) :
    Alike first third := by
  rcases front with ⟨s, one, other⟩ | ⟨p, q, one, other⟩ <;>
    rcases back with ⟨s', one', other'⟩ | ⟨p', q', one', other'⟩
  · obtain rfl : s = s' := Except.ok.inj (other.symm.trans one')
    exact .inl ⟨s, one, other'⟩
  · cases other.symm.trans one'
  · cases other.symm.trans one'
  · exact .inr ⟨p, q', one, other'⟩

theorem Alike.isOk_eq (alike : Alike first second) : first.isOk = second.isOk := by
  rcases alike with ⟨s, rfl, rfl⟩ | ⟨p, q, rfl, rfl⟩ <;> rfl

end Alike

/-- What a section has under a plain key. -/
theorem get?_plainKeys (key : String) (t : Table) :
    Entries.get? key (plainKeys t) = lastUnder key t := by
  rw [plainKeys, Entries.get?_ofList, lastUnder, List.filter_map, List.getLast?_map,
    Option.map_map]
  rfl

theorem isOk_unknownKeys_iff (t : Table) :
    (unknownKeys t).isOk = true ↔
      ∀ key, (Entries.get? key t).isSome = true → key ∈ keys := by
  have none : (unknownKeys t).isOk = true ↔ t.filter (fun e => !keys.contains e.1) = [] := by
    unfold unknownKeys
    split
    · next none => exact iff_of_true rfl none
    · next some => exact iff_of_false Bool.false_ne_true some
  rw [none, List.filter_eq_nil_iff]
  simp only [Entries.isSome_get?_iff, List.mem_map]
  constructor
  · rintro known key ⟨e, member, rfl⟩
    simpa using known e member
  · intro known e member
    simpa using known e.1 ⟨e, member, rfl⟩

/-- Settings are read from what stands under each key. -/
theorem toOption_ofTable_congr {t other : Table}
    (same : ∀ key, Entries.get? key t = Entries.get? key other) :
    (ofTable t).toOption = (ofTable other).toOption := by
  have unknown : (unknownKeys t).toOption = (unknownKeys other).toOption := by
    have both : (unknownKeys t).isOk = (unknownKeys other).isOk := by
      rw [Bool.eq_iff_iff, isOk_unknownKeys_iff, isOk_unknownKeys_iff]
      simp only [same]
    cases front : unknownKeys t <;> cases back : unknownKeys other <;> rw [front, back] at both
    all_goals first | rfl | cases both
  simp only [ofTable, Checked.toOption_apply, unknown, fun check key absent =>
    withDefault_congr check absent (same key)]

/-- Each key with whether its setting takes a value. -/
def fields : List (String × (Value → Bool)) :=
  [("reporter", fun v => (text v).isOk), ("report_limit", fun v => (int v).isOk),
    ("emit_error", fun v => (bool v).isOk), ("summarize_failure_output", fun v => (bool v).isOk),
    ("rules_directory", fun v => (Schema.optional pathOfValue v).isOk),
    ("config_filename", fun v => (text v).isOk),
    ("configuration", fun v => (Schema.optional pathOfValue v).isOk),
    ("timeout", fun v => (Schema.optional positiveFloat v).isOk),
    ("command", fun v => (Schema.optional texts v).isOk)]

/-- A table has settings if each one takes what stands under its key, and no other key is there. -/
theorem isOk_ofTable_iff (t : Table) :
    (ofTable t).isOk = true ↔
      (∀ field ∈ fields, ∀ v, Entries.get? field.1 t = some v → field.2 v = true) ∧
        ∀ key, (Entries.get? key t).isSome = true → key ∈ keys := by
  rw [← isOk_unknownKeys_iff]
  simp only [ofTable, Checked.isOk_apply, Checked.isOk_ok, Bool.and_eq_true, isOk_withDefault_iff,
    fields, List.forall_mem_cons, List.not_mem_nil, false_imp_iff, forall_const, and_true, true_and,
    and_assoc]

/-- A value that the setting under a key takes. -/
def taken (key : String) : Value :=
  if key = "command" then .list []
  else if key ∈ ["reporter", "rules_directory", "config_filename", "configuration"] then .text ""
  else .bool true

theorem takes_taken : ∀ field ∈ fields, field.2 (taken field.1) = true := by
  decide

/-- No setting is a table. -/
theorem not_takes_table : ∀ field ∈ fields, field.2 (.table []) = false := by
  decide

theorem exists_field_of_mem_keys {key : String} (known : key ∈ keys) :
    ∃ field ∈ fields, field.1 = key :=
  List.mem_map.mp (show key ∈ fields.map Prod.fst from known)

section Section

variable [Wording] (root file : Path) {t other : Table}

/-- A section in which each key stands for the same value has the same settings. -/
theorem alike_of_lastUnder (same : ∀ key, lastUnder key t = lastUnder key other) :
    Alike (ofSection root file (.table t)) (ofSection root file (.table other)) := by
  have read : (ofTable (plainKeys t)).toOption = (ofTable (plainKeys other)).toOption :=
    toOption_ofTable_congr fun key => by rw [get?_plainKeys, get?_plainKeys, same]
  unfold ofSection
  dsimp only
  cases front : ofTable (plainKeys t) <;> cases back : ofTable (plainKeys other) <;>
    rw [front, back] at read
  · exact .inr ⟨_, _, rfl, rfl⟩
  · cases read
  · cases read
  · cases read
    exact .inl ⟨_, rfl, rfl⟩

theorem isOk_ofSection_iff (t : Table) :
    (ofSection root file (.table t)).isOk = true ↔
      (∀ field ∈ fields, ∀ v, lastUnder field.1 t = some v → field.2 v = true) ∧
        ∀ key, (lastUnder key t).isSome = true → key ∈ keys := by
  have read : (ofSection root file (.table t)).isOk = (ofTable (plainKeys t)).isOk := by
    unfold ofSection
    dsimp only
    split <;> next read => rw [read]; rfl
  simp only [read, isOk_ofTable_iff, get?_plainKeys]

/-- What cannot be read from two sections is told of both. -/
theorem alike_of_not_isOk (first : (ofSection root file (.table t)).isOk ≠ true)
    (second : (ofSection root file (.table other)).isOk ≠ true) :
    Alike (ofSection root file (.table t)) (ofSection root file (.table other)) := by
  rcases isTold_ofSection root file (.table t) with ⟨s, read⟩ | ⟨p, told⟩
  · exact absurd (by rw [read]; rfl) first
  · rcases isTold_ofSection root file (.table other) with ⟨s, read⟩ | ⟨q, told'⟩
    · exact absurd (by rw [read]; rfl) second
    · exact .inr ⟨p, q, told, told'⟩

end Section

section Order

variable {ks : List String} {t other : Table}

theorem lastUnder_cons (key : String) (e : String × Value) (t : Table) :
    lastUnder key (e :: t) =
      (lastUnder key t).or (if plainKey e.1 = key then some e.2 else none) := by
  by_cases same : plainKey e.1 = key
  · cases rest : (t.filter fun e => plainKey e.1 == key).getLast? <;>
      simp [lastUnder, same, List.getLast?_cons, rest]
  · simp [lastUnder, same]

theorem lastUnder_append_singleton (key : String) (t : Table) (e : String × Value) :
    lastUnder key (t ++ [e]) = if plainKey e.1 = key then some e.2 else lastUnder key t := by
  by_cases same : plainKey e.1 = key <;> simp [lastUnder, same]

theorem isSome_lastUnder_iff (key : String) (t : Table) :
    (lastUnder key t).isSome = true ↔ ∃ k ∈ t.map Prod.fst, plainKey k = key := by
  simp [lastUnder]

theorem mem_of_lastUnder {key : String} {v : Value} (found : lastUnder key t = some v) :
    ∃ e ∈ t, plainKey e.1 = key ∧ e.2 = v := by
  obtain ⟨e, last, rfl⟩ := Option.map_eq_some_iff.mp found
  have member := List.mem_filter.mp (List.mem_of_getLast? last)
  exact ⟨e, member.1, by simpa using member.2, rfl⟩

/-- If keys stay apart, there is one entry at most for each plain key. -/
theorem lastUnder_perm (apart : AreApart (t.map Prod.fst)) (perm : t.Perm other) (key : String) :
    lastUnder key t = lastUnder key other := by
  have single : (t.filter fun e => plainKey e.1 == key).length ≤ 1 := by
    have counted := List.nodup_iff_count_le_one.mp apart key
    rwa [List.count_eq_countP, List.countP_map, List.countP_map, List.countP_eq_length_filter]
      at counted
  have filtered := perm.filter fun e => plainKey e.1 == key
  have same : (t.filter fun e => plainKey e.1 == key) =
      other.filter fun e => plainKey e.1 == key := by
    generalize t.filter _ = entries at single filtered
    match entries with
    | [] => exact (List.nil_perm.mp filtered).symm
    | [e] => exact List.singleton_perm.mp filtered
    | e :: e' :: rest => simp at single
  rw [lastUnder, lastUnder, same]

/-- Keys that do not stay apart without their dashes are the same for two of them. -/
theorem exists_same_of_not_areApart (distinct : ks.Nodup) (notApart : ¬ AreApart ks) :
    ∃ a ∈ ks, ∃ b ∈ ks, plainKey a = plainKey b ∧ a ≠ b := by
  by_contra none
  refine notApart ((List.nodup_map_iff_inj_on distinct).mpr fun a isA b isB same => ?_)
  by_contra differ
  exact none ⟨a, isA, b, isB, same, differ⟩

/-- Keys that are taken for no setting are refused wherever they stand. -/
theorem not_isOk_of_unknown [Wording] (root file : Path) {key : String}
    (member : key ∈ t.map Prod.fst)
    (unknown : plainKey key ∉ keys) : (ofSection root file (.table t)).isOk ≠ true := by
  rw [Ne, isOk_ofSection_iff]
  rintro ⟨-, known⟩
  exact unknown (known _ ((isSome_lastUnder_iff _ t).mpr ⟨key, member, rfl⟩))

/-- Entries with the given keys, each with a value that its setting takes. -/
def takenUnder (ks : List String) : Table := ks.map fun key => (key, taken (plainKey key))

/-- Any keys can have such values, but for one that has a table. -/
theorem exists_perm_takenUnder (distinct : ks.Nodup) {a : String} (isA : a ∈ ks) :
    ∃ t : Table, t.map Prod.fst = ks ∧ t.Perm ((a, .table []) :: takenUnder (ks.erase a)) := by
  let value key := if key = a then Value.table [] else taken (plainKey key)
  have others (key : String) (member : key ∈ ks.erase a) : value key = taken (plainKey key) :=
    if_neg ((List.Nodup.mem_erase_iff distinct).mp member).1
  have values : (a :: ks.erase a).map (fun key => (key, value key)) =
      (a, .table []) :: takenUnder (ks.erase a) := by
    rw [List.map_cons, takenUnder, show value a = .table [] from if_pos rfl]
    exact congrArg _ (List.map_congr_left fun key member => by rw [others key member])
  refine ⟨ks.map fun key => (key, value key), ?_, ?_⟩
  · rw [List.map_map]
    exact List.map_id ks
  · exact values ▸ (List.perm_cons_erase isA).map _

/-- Of two keys that are the same without their dashes, the first one's value does not matter and
the last one's does. -/
theorem not_alike_of_same_plainKey [Wording] (root file : Path) {a b : String} (others : List String)
    (known : ∀ key ∈ a :: others, plainKey key ∈ keys) (member : b ∈ others)
    (same : plainKey a = plainKey b) :
    ¬ Alike (ofSection root file (.table ((a, .table []) :: takenUnder others)))
      (ofSection root file (.table (takenUnder others ++ [(a, .table [])]))) := by
  have mapped : (takenUnder others).map Prod.fst = others := by
    rw [takenUnder, List.map_map]
    exact List.map_id others
  have first :
      (ofSection root file (.table ((a, .table []) :: takenUnder others))).isOk = true := by
    rw [isOk_ofSection_iff]
    constructor
    · intro field isField v found
      rw [lastUnder_cons] at found
      cases rest : lastUnder field.1 (takenUnder others) with
      | none =>
        rw [rest, Option.none_or, Option.ite_none_right_eq_some] at found
        have here : (lastUnder field.1 (takenUnder others)).isSome = true :=
          (isSome_lastUnder_iff _ _).mpr ⟨b, by rwa [mapped], same ▸ found.1⟩
        simp [rest] at here
      | some w =>
        obtain rfl : w = v := by simpa [rest] using found
        obtain ⟨e, inside, plain, rfl⟩ := mem_of_lastUnder rest
        obtain ⟨key, -, rfl⟩ := List.mem_map.mp inside
        exact plain ▸ takes_taken field isField
    · intro key found
      obtain ⟨k, inside, rfl⟩ := (isSome_lastUnder_iff _ _).mp found
      rw [List.map_cons, mapped] at inside
      exact known k inside
  have last :
      (ofSection root file (.table (takenUnder others ++ [(a, .table [])]))).isOk ≠ true := by
    obtain ⟨field, isField, named⟩ := exists_field_of_mem_keys (known a (.head _))
    rw [Ne, isOk_ofSection_iff]
    rintro ⟨taken, -⟩
    have refused := taken field isField (.table [])
      (by rw [lastUnder_append_singleton, if_pos named.symm])
    rw [not_takes_table field isField] at refused
    cases refused
  exact fun alike => last (alike.isOk_eq ▸ first)

end Order

/-- A project file that spells a document with nothing but a section has this section. -/
theorem isSection_of_text [Wording] {depth : Nat} {tree : FileTree} {cwd : Location} {root : Path}
    {text : String} {t : Table}
    (held : tree.read cwd (root.join (Path.ofString filename)) = .ok (Text.Utf8.encode text))
    (read : Toml.read depth text = .ok [("tool", .table [("lintstream", .table t)])]) :
    IsSection depth tree cwd root t := by
  refine ⟨_, [("tool", .table [("lintstream", .table t)])], held, ?_, rfl⟩
  simp only [Configuration.readToml, Text.Utf8.decode_encode, read]

/-- What the table in the section of the project file comes to. -/
theorem load_of_isSection [Wording] {depth : Nat} {tree : FileTree} {cwd : Location} {root : Path}
    {t : Table}
    (stands : IsSection depth tree cwd root t) :
    load depth tree cwd root = ofSection root (root.join (Path.ofString filename)) (.table t) := by
  obtain ⟨b, document, read, readable, there⟩ := stands
  simp only [load, FileTree.isFile_of_read read, read, ofBytes, readable, there]

/-- The settings of a section are the same, or there are none, whichever order its entries have, if
each key ends up with the same value. The order of entries with given keys does not matter, whatever
their values, exactly if the keys stay apart without their dashes, or one of them is no setting. -/
theorem settings_in_any_order [Wording] (root : Path) (ks : List String) (distinct : ks.Nodup) :
    let outcome t := ofSection root (root.join (Path.ofString filename)) (.table t)
    (∀ depth tree cwd t, IsSection depth tree cwd root t →
        load depth tree cwd root = outcome t) ∧
      (∀ t other, (∀ key, lastUnder key t = lastUnder key other) →
        Alike (outcome t) (outcome other)) ∧
      ((∀ t other, t.map Prod.fst = ks → t.Perm other → Alike (outcome t) (outcome other)) ↔
        AreApart ks ∨ ∃ key ∈ ks, plainKey key ∉ keys) := by
  intro outcome
  refine ⟨fun depth tree cwd t there => load_of_isSection there,
    fun t other same => alike_of_lastUnder root _ same, ?_, ?_⟩
  · intro anyOrder
    by_contra not
    obtain ⟨notApart, known⟩ := not_or.mp not
    simp only [not_exists, not_and, not_not] at known
    obtain ⟨a, isA, b, isB, same, differ⟩ := exists_same_of_not_areApart distinct notApart
    have given : ∀ key ∈ a :: ks.erase a, plainKey key ∈ keys := fun key member =>
      known key ((List.perm_cons_erase isA).mem_iff.mpr member)
    obtain ⟨t, keyed, first⟩ := exists_perm_takenUnder distinct isA
    have last := first.trans (List.perm_append_singleton _ _).symm
    exact not_alike_of_same_plainKey root (root.join (Path.ofString filename)) (ks.erase a) given
      ((List.mem_erase_of_ne differ.symm).mpr isB) same
      ((anyOrder _ _ keyed first).symm.trans (anyOrder _ _ keyed last))
  · rintro (apart | ⟨key, member, unknown⟩) t other rfl perm
    · exact alike_of_lastUnder root _ (lastUnder_perm apart perm)
    · exact alike_of_not_isOk root _ (not_isOk_of_unknown root _ member unknown)
        (not_isOk_of_unknown root _ ((perm.map Prod.fst).mem_iff.mp member) unknown)

section Sample

attribute [local instance] Wording.leftOut

/-- Dashes do no harm where keys stay apart without them. -/
theorem settings_in_any_order_apart :
    ["report-limit", "emit-error", "timeout"].Nodup ∧
      ∀ t other, t.map Prod.fst = ["report-limit", "emit-error", "timeout"] → t.Perm other →
        Alike (ofSection ⟨.root, []⟩ projectFile (.table t))
          (ofSection ⟨.root, []⟩ projectFile (.table other)) :=
  ⟨by decide, (settings_in_any_order ⟨.root, []⟩ ["report-limit", "emit-error", "timeout"]
    (by decide)).2.2.mpr (.inl (by decide +kernel))⟩

/-- One setting under both spellings of its key, only the second time with a value it takes. -/
def firstWrong : String := "[tool.lintstream]\nreport_limit = \"many\"\nreport-limit = 5\n"

/-- The same entries in the other order. -/
def firstRight : String := "[tool.lintstream]\nreport-limit = 5\nreport_limit = \"many\"\n"

/-- What is loaded if the project file is a text with this section. -/
theorem load_projectTree {text : String} {t : Table}
    (there : IsSection Depth.alone (projectTree (Text.Utf8.encode text)) [] ⟨.root, []⟩ t) :
    load Depth.alone (projectTree (Text.Utf8.encode text)) [] ⟨.root, []⟩ =
      ofSection ⟨.root, []⟩ projectFile (.table t) := by
  rw [load_of_isSection there, join_projectFile]

theorem isSection_projectTree {text : String} {t : Table}
    (read : Toml.read Depth.alone text = .ok [("tool", .table [("lintstream", .table t)])]) :
    IsSection Depth.alone (projectTree (Text.Utf8.encode text)) [] ⟨.root, []⟩ t :=
  isSection_of_text (join_projectFile ▸ read_projectTree _) read

/-- A section is read once its keys have no dashes. -/
theorem ofSection_of_plainKeys {root file : Path} {t plain : Table} (keyed : plainKeys t = plain) :
    ofSection root file (.table t) =
      match ofTable plain with
      | .ok s => .ok (s.within root)
      | .error ds =>
        .error (.config (.sectionInvalid file.toString (Wording.settings plain) ds)) := by
  subst keyed
  rfl

theorem ofSection_firstWrong :
    ofSection ⟨.root, []⟩ projectFile
        (.table [("report_limit", .text "many"), ("report-limit", .int 5)]) =
      .ok { default with reportLimit := 5 } := by
  have plain : plainKeys [("report_limit", .text "many"), ("report-limit", .int 5)] =
      [("report_limit", .int 5)] := by cbv
  rw [ofSection_of_plainKeys plain]
  rfl

theorem ofSection_firstRight :
    ofSection ⟨.root, []⟩ projectFile
        (.table [("report-limit", .int 5), ("report_limit", .text "many")]) =
      .error (.config (.sectionInvalid projectFile.toString
        (Wording.settings [("report_limit", .text "many")])
        [⟨.intParsing, [.key "report_limit"]⟩])) := by
  have plain : plainKeys [("report-limit", .int 5), ("report_limit", .text "many")] =
      [("report_limit", .text "many")] := by cbv
  have refused : int (.text "many") = .error [⟨.intParsing, []⟩] := by cbv
  have checked : ofTable [("report_limit", .text "many")] =
      .error [⟨.intParsing, [.key "report_limit"]⟩] := by
    simp [ofTable, withDefault, Entries.get?, refused, Checked.apply, Checked.both,
      Checked.under, unknownKeys, keys, Except.map]
  rw [ofSection_of_plainKeys plain, checked]

/-- Of the same two entries one order gives settings, and the other one a problem. -/
theorem settings_order_matters :
    let tree text := projectTree (Text.Utf8.encode text)
    (∃ t other, t.Perm other ∧
        IsSection Depth.alone (tree firstWrong) [] ⟨.root, []⟩ t ∧
        IsSection Depth.alone (tree firstRight) [] ⟨.root, []⟩ other) ∧
      load Depth.alone (tree firstWrong) [] ⟨.root, []⟩ = .ok { default with reportLimit := 5 } ∧
      load Depth.alone (tree firstRight) [] ⟨.root, []⟩ =
        .error (.config (.sectionInvalid projectFile.toString
          (Wording.settings [("report_limit", .text "many")])
          [⟨.intParsing, [.key "report_limit"]⟩])) ∧
      ¬ Alike (load Depth.alone (tree firstWrong) [] ⟨.root, []⟩)
        (load Depth.alone (tree firstRight) [] ⟨.root, []⟩) := by
  intro tree
  have wrong : Toml.read Depth.alone firstWrong = .ok [("tool", .table [("lintstream",
      .table [("report_limit", .text "many"), ("report-limit", .int 5)])])] := by cbv
  have right : Toml.read Depth.alone firstRight = .ok [("tool", .table [("lintstream",
      .table [("report-limit", .int 5), ("report_limit", .text "many")])])] := by cbv
  have first := isSection_projectTree wrong
  have second := isSection_projectTree right
  have settings := (load_projectTree first).trans ofSection_firstWrong
  have problem := (load_projectTree second).trans ofSection_firstRight
  refine ⟨⟨_, _, .swap _ _ _, first, second⟩, settings, problem, fun alike => ?_⟩
  have same := alike.isOk_eq
  simp only [tree, settings, problem] at same
  cases same

end Sample

end Settings

end LintRun
