import LintRun.Proofs.FileTree.Resolve
import LintRun.Proofs.FileTree.Ways

/-!
# Resolving and opening

What a path leads to when it is opened lies at the location that it resolves to
(`resolve_of_leads`). Resolving follows a link by resolving its target with the links around it kept
in mind; opening puts the names of the target before the others. Each target has its number of
links, and a link in it has fewer, so no link is met again while it is followed, and the bound on
the depth is never reached.
-/
namespace LintRun.FileTree

section Pieces

def shown (pieces : List String) : List String := pieces.filter (· ≠ "")

theorem shown_cons {piece : String} (proper : piece ≠ "") (rest : List String) :
    shown (piece :: rest) = piece :: shown rest := by
  rw [shown, List.filter_cons_of_pos (by simpa using proper), shown]

theorem shown_of_isPlain {p : Path} (plain : p.IsPlain) : shown p.names = p.names :=
  List.filter_eq_self.mpr fun name member => by simpa using (plain name member).1

/-- The names of a path text are those among its pieces, with a dot for a slash at the end. -/
theorem namesOf_eq (s : String) :
    ∃ dots, (∀ d ∈ dots, d = ".") ∧ namesOf s = shown (piecesOf s) ++ dots := by
  have same : ((Path.splitSlashes s.toList).filter (· ≠ [])).map String.ofList =
      shown (piecesOf s) := by
    rw [shown, piecesOf, List.filter_map]
    congr 1
    refine List.filter_congr fun piece _ => ?_
    simp
  unfold namesOf
  dsimp only
  split
  · refine ⟨["."], by simp, ?_⟩
    rw [List.map_append, same]
    rfl
  · exact ⟨[], by simp, by rw [same, List.append_nil]⟩

/-- Dots lead nowhere else. -/
theorem Leads.of_dots {t : FileTree} {n : Nat} {l : Location} {dots : List String}
    {place : Location × Entry} (trailing : ∀ d ∈ dots, d = ".") (leads : Leads t n l dots place) :
    place = (l, .directory) := by
  induction dots with
  | nil =>
    cases leads
    rfl
  | cons d rest ih =>
    obtain ⟨rfl, later⟩ := List.forall_mem_cons.mp trailing
    exact ih later leads.of_dot

end Pieces

section Steps

variable {t : FileTree} {cwd : Location} {depth : Nat} {following : List Way} {here w : Way}
  {piece : String} {rest : List String}

theorem resolveFrom_nil : t.resolveFrom cwd depth following here [] = .ok here := by
  rw [resolveFrom]

theorem resolveFrom_skip (nothing : piece = "" ∨ piece = ".") :
    t.resolveFrom cwd depth following here (piece :: rest) =
      t.resolveFrom cwd depth following here rest := by
  rw [resolveFrom, if_pos (by simpa using nothing)]

theorem resolveFrom_up :
    t.resolveFrom cwd depth following here (".." :: rest) =
      t.resolveFrom cwd depth following here.leave rest := by
  rw [resolveFrom, if_neg (by decide), if_pos rfl]

theorem resolveFrom_enter (proper : piece ≠ "" ∧ piece ≠ ".") (noUp : piece ≠ "..")
    (noLink : ∀ target, t.entry? ((here.enter piece).location cwd) ≠ some (.link target)) :
    t.resolveFrom cwd depth following here (piece :: rest) =
      t.resolveFrom cwd depth following (here.enter piece) rest := by
  rw [resolveFrom, if_neg (by simpa using proper), if_neg noUp]
  dsimp only
  split
  · next target link => exact absurd link (noLink target)
  · rfl

theorem resolveFrom_follow {target : String} (proper : piece ≠ "" ∧ piece ≠ ".")
    (noUp : piece ≠ "..")
    (link : t.entry? ((here.enter piece).location cwd) = some (.link target))
    (fresh : following.contains (here.enter piece) = false)
    (reached : t.resolveFrom cwd depth (here.enter piece :: following)
      (if isRooted target then ⟨true, []⟩ else here) (piecesOf target) = .ok w) :
    t.resolveFrom cwd (depth + 1) following here (piece :: rest) =
      t.resolveFrom cwd (depth + 1) following w rest := by
  rw [resolveFrom, if_neg (by simpa using proper), if_neg noUp]
  dsimp only
  rw [link]
  dsimp only
  rw [fresh]
  dsimp only
  rw [reached]

theorem resolveFrom_nothing (none : shown rest = []) :
    t.resolveFrom cwd depth following here rest = .ok here := by
  induction rest with
  | nil => exact resolveFrom_nil
  | cons piece rest ih =>
    by_cases nothing : piece = ""
    · subst nothing
      rw [resolveFrom_skip (.inl rfl)]
      exact ih none
    · rw [shown_cons nothing] at none
      cases none

end Steps

section Links

variable {t : FileTree} {cwd : Location}

/-- The location at which the target of a link at a location is looked up. -/
def startOf (target : String) (l : Location) : Location := if isRooted target then [] else l.dropLast

/-- A link lies at a location, and no way from it to the end of its target is over fewer links. -/
def IsPending (t : FileTree) (n : Nat) (l : Location) : Prop :=
  ∃ target, t.entry? l = some (.link target) ∧
    ∀ m place, Leads t m (startOf target l) (namesOf target) place → n ≤ m

/-- The links that are being followed while there are so many links to come: they lie at different
locations, and there is room for the others of the tree. -/
structure IsUnderWay (t : FileTree) (cwd : Location) (n depth : Nat) (following : List Way) :
    Prop where
  distinct : (following.map (·.location cwd)).Nodup
  pending : ∀ w ∈ following, t.IsPending n (w.location cwd)
  room : t.linkCount ≤ depth + following.length

theorem IsUnderWay.mono {n less depth : Nat} {following : List Way}
    (underWay : t.IsUnderWay cwd n depth following) (fewer : less ≤ n) :
    t.IsUnderWay cwd less depth following := by
  refine { underWay with pending := ?_ }
  intro w member
  obtain ⟨target, link, least⟩ := underWay.pending w member
  exact ⟨target, link, fun m place leads => Nat.le_trans fewer (least m place leads)⟩

/-- A link with fewer links to its end than there are to come is not being followed, and there is
room for it. -/
theorem IsUnderWay.push {n depth k : Nat} {following : List Way}
    (underWay : t.IsUnderWay cwd n depth following) {next : Way} {target : String}
    {place : Location × Entry} (link : t.entry? (next.location cwd) = some (.link target))
    (leads : Leads t k (startOf target (next.location cwd)) (namesOf target) place)
    (fewer : k < n) :
    following.contains next = false ∧
      ∃ less, depth = less + 1 ∧ t.IsUnderWay cwd k less (next :: following) := by
  have apart : next.location cwd ∉ following.map (·.location cwd) := by
    intro member
    obtain ⟨w, among, same⟩ := List.mem_map.mp member
    obtain ⟨other, found, least⟩ := underWay.pending w among
    rw [same] at found least
    cases link.symm.trans found
    exact absurd (least k place leads) (by omega)
  have fresh : following.contains next = false := by
    rw [← Bool.not_eq_true, List.contains_iff_mem]
    exact fun member => apart (List.mem_map_of_mem member)
  have distinct : ((next :: following).map (·.location cwd)).Nodup :=
    List.nodup_cons.mpr ⟨apart, underWay.distinct⟩
  have pending : ∀ w ∈ next :: following, t.IsPending k (w.location cwd) := by
    refine List.forall_mem_cons.mpr ⟨⟨target, link, ?_⟩, (underWay.mono (Nat.le_of_lt fewer)).pending⟩
    intro m other again
    exact Nat.le_of_eq (leads.count_unique again)
  have few := t.length_le_linkCount _ distinct (List.forall_mem_map.mpr fun w member => by
    obtain ⟨target, found, -⟩ := pending w member
    exact ⟨target, found⟩)
  have room := underWay.room
  simp only [List.length_map, List.length_cons] at few
  refine ⟨fresh, depth - 1, by omega, distinct, pending, ?_⟩
  rw [List.length_cons]
  omega

/-- A way over some names and then others is over as many links as the two together. -/
theorem Leads.exists_parts {k : Nat} {l : Location} {front rest : List String}
    {place : Location × Entry} (leads : Leads t k l (front ++ rest) place) :
    ∃ n m spot, n + m = k ∧ Leads t n l front spot ∧
      (rest = [] ∧ spot = place ∨ Leads t m spot.1 rest place) := by
  by_cases more : rest = []
  · rw [more, List.append_nil] at leads
    exact ⟨k, 0, place, rfl, leads, .inl ⟨more, rfl⟩⟩
  · obtain ⟨n, m, mid, sum, first, second⟩ := leads.exists_split more
    exact ⟨n, m, (mid, .directory), sum, first, .inr second⟩

/-- A link is followed from the root on, or from the directory in which it lies. -/
theorem location_start {here : Way} {l : Location} (sound : here.IsSound)
    (spot : here.location cwd = l) (rooted : Bool) :
    (if rooted = true then ⟨true, []⟩ else here : Way).IsSound ∧
      (if rooted = true then ⟨true, []⟩ else here : Way).location cwd =
        if rooted = true then [] else l := by
  cases rooted with
  | true => exact ⟨Way.isSound_start true, rfl⟩
  | false => exact ⟨sound, spot⟩

/-- Names resolve to the location that they lead to. The induction is on the links to come, and for
as many links on the pieces: a target, and what follows a link, are over fewer links. -/
theorem resolveFrom_of_leads {n : Nat} {l : Location} {pieces dots : List String}
    {place : Location × Entry} (trailing : ∀ d ∈ dots, d = ".")
    (leads : Leads t n l (shown pieces ++ dots) place) {here : Way} (sound : here.IsSound)
    (spot : here.location cwd = l) {following : List Way} {depth : Nat}
    (underWay : t.IsUnderWay cwd n depth following) :
    ∃ w, t.resolveFrom cwd depth following here pieces = .ok w ∧ w.IsSound ∧
      w.location cwd = place.1 := by
  induction n using Nat.strongRecOn generalizing l pieces dots place here following depth with
  | ind n ih =>
    induction pieces generalizing l here with
    | nil =>
      obtain rfl := leads.of_dots trailing
      exact ⟨here, resolveFrom_nil, sound, spot⟩
    | cons piece rest inner =>
      by_cases nothing : piece = ""
      · subst nothing
        rw [resolveFrom_skip (.inl rfl)]
        exact inner leads sound spot
      rw [shown_cons nothing, List.cons_append] at leads
      generalize behind : shown rest ++ dots = others at leads
      have proper (step : IsStep piece) : piece ≠ "" ∧ piece ≠ "." := ⟨nothing, step.notHere⟩
      have next (step : IsStep piece) : (here.enter piece).location cwd = l ++ [piece] := by
        rw [Way.location_enter cwd (proper step) step.notUp, spot]
      cases leads with
      | dot onward =>
        rw [resolveFrom_skip (.inr rfl)]
        exact inner (behind ▸ onward) sound spot
      | up onward =>
        rw [resolveFrom_up]
        exact inner (behind ▸ onward) sound.leave (by rw [Way.location_leave cwd sound, spot])
      | enter step found onward =>
        rw [resolveFrom_enter (proper step) step.notUp (by simp [next step, found])]
        exact inner (behind ▸ onward) (sound.enter (proper step) step.notUp) (next step)
      | file step found =>
        rw [resolveFrom_enter (proper step) step.notUp (by simp [next step, found]),
          resolveFrom_nothing (List.append_eq_nil_iff.mp behind).1]
        exact ⟨_, rfl, sound.enter (proper step) step.notUp, next step⟩
      | @follow k _ _ target _ _ step found onward =>
        have link := found
        rw [← next step] at link
        obtain ⟨links, more, reached, sum, first, second⟩ := onward.exists_parts
        have fromHere : startOf target ((here.enter piece).location cwd) =
            if isRooted target then [] else l := by
          rw [startOf, next step, List.dropLast_concat]
        obtain ⟨fresh, less, rfl, inside⟩ := underWay.push link (fromHere ▸ first) (by omega)
        obtain ⟨ends, dotted, spelled⟩ := namesOf_eq target
        rw [spelled] at first
        obtain ⟨soundStart, start⟩ := location_start sound spot (isRooted target)
        obtain ⟨w, resolved, soundThere, there⟩ :=
          ih links (by omega) dotted first soundStart start inside
        rw [resolveFrom_follow (proper step) step.notUp link fresh resolved]
        rcases second with ⟨last, rfl⟩ | onward
        · rw [resolveFrom_nothing (List.append_eq_nil_iff.mp (behind.trans last)).1]
          exact ⟨w, rfl, soundThere, there⟩
        · exact ih more (by omega) trailing (behind ▸ onward) soundThere there
            (underWay.mono (by omega))

/-- What a path leads to lies at the location that it resolves to. -/
theorem resolve_of_leads {t : FileTree} {cwd : Location} {p : Path} {n : Nat}
    {place : Location × Entry} (plain : p.IsPlain) (noNul : p.holdsNul = false)
    (leads : Leads t n (if p.isAbsolute then [] else cwd) p.names place) :
    t.resolve cwd p = .ok (pathOf place.1) := by
  have underWay : t.IsUnderWay cwd n (t.linkCount * (cwd.length + 3)) [] := by
    refine ⟨by simp, by simp, ?_⟩
    exact Nat.le_mul_of_pos_right _ (by omega)
  have start : (Way.mk p.isAbsolute []).location cwd = if p.isAbsolute then [] else cwd := rfl
  have names : Leads t n (if p.isAbsolute then [] else cwd) (shown p.names ++ []) place := by
    rwa [List.append_nil, shown_of_isPlain plain]
  obtain ⟨w, resolved, -, there⟩ := resolveFrom_of_leads (by simp) names
    (Way.isSound_start p.isAbsolute) start underWay
  rw [resolve, noNul, resolved]
  simp [there]

end Links

end LintRun.FileTree
