import Weaving.Proofs.Repetition

/-!
# The matches that a repetition visits

A search for patterns and then a repetition, whose action leaves the cursor alone, go from match to
match. Each match is the nearest one from where the search went on after the one before it
(`Query.Chain`), and that place depends on the direction and on which end of a match the cursor is
put. `Query.Visits` says for each of the four kinds of searches which matches these are, without the
search: all of them in order, forward or backward, or, with the cursor put on the ends of forward
matches, those of a greedy chain that do not overlap (`Greedy`). The action runs on just these
matches, each time with the captures of the match (`find_forEachMatch_visits`).
-/

namespace Weaving

variable {σ : Type}

/-! ## Greedy chains -/

/-- From the start on, each number of the list is the least that satisfies the predicate and is at
least `gap` above the one before it. -/
inductive Greedy (P : Nat → Prop) (gap : Nat) : Nat → List Nat → Prop
  | stop {start : Nat} (h : ∀ i, start ≤ i → ¬ P i) : Greedy P gap start []
  | next {start i : Nat} {rest : List Nat} (hstart : start ≤ i) (hi : P i)
      (hleast : ∀ j, start ≤ j → P j → i ≤ j) (hrest : Greedy P gap (i + gap) rest) :
      Greedy P gap start (i :: rest)

namespace Greedy

variable {P : Nat → Prop} {gap start : Nat} {xs ys : List Nat}

/-- There is one greedy list from a start on. -/
theorem unique (hx : Greedy P gap start xs) (hy : Greedy P gap start ys) : xs = ys := by
  induction hx generalizing ys with
  | stop hnone =>
    cases hy with
    | stop => rfl
    | next hstart hj => exact absurd hj (hnone _ hstart)
  | next hstart hi hleast hrest ih =>
    cases hy with
    | stop hnone => exact absurd hi (hnone _ hstart)
    | next hstart' hj hleast' hrest' =>
      obtain rfl := Nat.le_antisymm (hleast _ hstart' hj) (hleast' _ hstart hi)
      rw [ih hrest']

/-- A greedy chain without gaps has all the numbers that satisfy the predicate. -/
theorem mem_iff (h : Greedy P 1 start xs) :
    xs.Pairwise (· < ·) ∧ ∀ i, i ∈ xs ↔ start ≤ i ∧ P i := by
  induction h with
  | stop hnone =>
    refine ⟨.nil, fun i => ?_⟩
    simp only [List.not_mem_nil, false_iff, not_and]
    exact hnone i
  | @next start i rest hstart hi hleast hrest ih =>
    obtain ⟨horder, hmem⟩ := ih
    refine ⟨.cons (fun j hj => ((hmem j).1 hj).1) horder, fun j => ?_⟩
    rw [List.mem_cons, hmem]
    constructor
    · rintro (rfl | ⟨hj, hP⟩)
      · exact ⟨hstart, hi⟩
      · exact ⟨by omega, hP⟩
    · rintro ⟨hj, hP⟩
      rcases Nat.eq_or_lt_of_le (hleast j hj hP) with rfl | hlt
      · exact .inl rfl
      · exact .inr ⟨hlt, hP⟩

end Greedy

/-! ## Chains of searches -/

namespace Query

/-- The matches that a repetition visits in the code from the index on, by their first instructions.
A forward search that goes to the ends of matches finds no match that overlaps the one before it. -/
def Visits (q : Query) (code : Code) (start : Nat) (visits : List Nat) : Prop :=
  match q.direction, q.atEnd with
  | .forward, false =>
    visits.Pairwise (· < ·) ∧ ∀ i, i ∈ visits ↔ start ≤ i ∧ Pattern.MatchAt q.patterns code i
  | .forward, true =>
    Greedy (Pattern.MatchAt q.patterns code) (max q.patterns.length 1) start visits
  | .backward, _ =>
    visits.Pairwise (· > ·) ∧ ∀ i, i ∈ visits ↔ i ≤ start ∧ Pattern.MatchAt q.patterns code i

/-- Searches one after the other find the matches, each from where the one before it lets the search
go on. The last search finds nothing. -/
inductive Chain (q : Query) (c : Cursor) : Int → List Nat → Prop
  | stop {start : Int} (h : c.nearestMatch? q.direction start q.patterns = none) :
      Chain q c start []
  | next {start : Int} {i : Nat} {rest : List Nat}
      (h : c.nearestMatch? q.direction start q.patterns = some i)
      (hrest : Chain q c (q.restart (i + q.offset : Nat)) rest) : Chain q c start (i :: rest)

namespace Chain

variable {q : Query} {c : Cursor} {xs : List Nat}

/-- A forward chain is greedy: the search goes on behind the instruction that it went to. -/
theorem greedy (hdirection : q.direction = .forward) {start : Int} {s : Nat} (hs : start = s)
    (h : q.Chain c start xs) :
    Greedy (Pattern.MatchAt q.patterns c.code) (q.offset + 1) s xs := by
  induction h generalizing s with
  | stop hnone =>
    refine .stop fun i hi hmatch => Cursor.nearestMatch?_eq_none hnone i ?_ hmatch
    rw [hdirection, Direction.mem_indices_forward]
    exact ⟨by omega, by omega, hmatch.lt⟩
  | @next start i rest hsome hrest ih =>
    obtain ⟨hi, hmatch, hnearest⟩ := Cursor.nearestMatch?_eq_some hsome
    rw [hdirection, Direction.mem_indices_forward] at hi
    refine .next (by omega) hmatch (fun j hj hmatch' => ?_) (ih ?_)
    · have hmem : j ∈ q.direction.indices start c.length := by
        rw [hdirection, Direction.mem_indices_forward]
        exact ⟨by omega, by omega, hmatch'.lt⟩
      have hcases := hnearest j hmem hmatch'
      rw [hdirection, Direction.Precedes] at hcases
      omega
    · rw [restart, hdirection]
      dsimp only
      omega

/-- A backward chain has all matches: the search goes on in front of the one that it found. -/
theorem mem_iff_backward (hdirection : q.direction = .backward) {start : Int}
    (hstart : start < c.length) (h : q.Chain c start xs) :
    xs.Pairwise (· > ·) ∧
      ∀ i : Nat, i ∈ xs ↔ i ≤ start ∧ Pattern.MatchAt q.patterns c.code i := by
  induction h with
  | stop hnone =>
    refine ⟨.nil, fun i => ?_⟩
    simp only [List.not_mem_nil, false_iff, not_and]
    refine fun hi => Cursor.nearestMatch?_eq_none hnone i ?_
    rw [hdirection, Direction.mem_indices_backward]
    exact ⟨hi, hstart⟩
  | @next start i rest hsome hrest ih =>
    obtain ⟨hi, hmatch, hnearest⟩ := Cursor.nearestMatch?_eq_some hsome
    rw [hdirection, Direction.mem_indices_backward] at hi
    have hrestart : q.restart (i + q.offset : Nat) = i - 1 := by
      rw [restart, hdirection]
      dsimp only
      omega
    rw [hrestart] at ih
    obtain ⟨horder, hmem⟩ := ih (by omega)
    refine ⟨.cons (fun j hj => ?_) horder, fun j => ?_⟩
    · have hj := ((hmem j).1 hj).1
      omega
    · rw [List.mem_cons, hmem]
      constructor
      · rintro (rfl | ⟨hj, hmatch'⟩)
        · exact ⟨hi.1, hmatch⟩
        · exact ⟨by omega, hmatch'⟩
      · rintro ⟨hj, hmatch'⟩
        have hmem' : j ∈ q.direction.indices start c.length := by
          rw [hdirection, Direction.mem_indices_backward]
          exact ⟨hj, hstart⟩
        rcases hnearest j hmem' hmatch' with rfl | hprecedes
        · exact .inl rfl
        · rw [hdirection, Direction.Precedes] at hprecedes
          exact .inr ⟨by omega, hmatch'⟩

/-- A chain of searches from an instruction visits the right matches. -/
theorem visits {s : Nat} (hs : s < c.length) (h : q.Chain c s xs) :
    q.Visits c.code s xs := by
  unfold Visits
  cases hdirection : q.direction with
  | forward =>
    have hgreedy := h.greedy hdirection rfl
    cases hend : q.atEnd with
    | false =>
      have hoffset : q.offset = 0 := by rw [offset, hend]; rfl
      rw [hoffset] at hgreedy
      exact hgreedy.mem_iff
    | true =>
      have hoffset : q.offset + 1 = max q.patterns.length 1 := by
        rw [offset, hend, if_pos rfl]
        omega
      rw [hoffset] at hgreedy
      exact hgreedy
  | backward =>
    obtain ⟨horder, hmem⟩ := h.mem_iff_backward hdirection (Int.ofNat_lt.2 hs)
    exact ⟨horder, fun i => (hmem i).trans (and_congr_left' Int.ofNat_le)⟩

end Chain

end Query

/-! ## Repetitions that leave the cursor alone -/

/-- To forget the match after a search is to search with no match remembered. -/
theorem Cursor.forgetting_find (c : Cursor) (q : Query) :
    (c.find q).forgetting = c.forgetting.findFrom c.searchStart q := by
  cases h : c.nearestMatch? q.direction c.searchStart q.patterns with
  | none =>
    have h' : c.forgetting.nearestMatch? q.direction c.searchStart q.patterns = none := h
    rw [find, findFrom_of_none h, findFrom_of_none h']
    rfl
  | some i =>
    have h' : c.forgetting.nearestMatch? q.direction c.searchStart q.patterns = some i := h
    rw [find, findFrom_of_some h, findFrom_of_some h']
    rfl

namespace Edit

variable {q : Query} {action : Edit σ Unit} {w w₁ : Workspace σ} {runs : List (Workspace σ)}

/-- Looking for a match succeeds always and takes the cursor to where the search ends. -/
theorem find_apply (q : Query) (w : Workspace σ) :
    find q w = .ok () (w.landed (w.cursor.find q)) := by
  rw [find, bind_of_ok (cursor_apply w), land_apply]

/-- Each run of the action succeeds and leaves the cursor as it is, in all the rounds that lead on
from the workspace. -/
def KeepsCursor (q : Query) (action : Edit σ Unit) (w : Workspace σ) : Prop :=
  ∀ runs w₁, Rounds q action w runs w₁ → w₁.cursor.isValid = true →
    ∃ w₂, action w₁ = .ok () w₂ ∧ w₂.cursor = w₁.cursor

namespace KeepsCursor

/-- Rounds after the first leave the cursor as it is too. -/
theorem searchOn (h : KeepsCursor q action w) (hvalid : w.cursor.isValid = true)
    (haction : action w = .ok () w₁) : KeepsCursor q action (w₁.searchOn q) :=
  fun _ w₂ hrounds => h _ w₂ (.round hvalid haction hrounds)

/-- A run of the action leaves the cursor as it is. -/
theorem cursor_eq (h : KeepsCursor q action w) (hvalid : w.cursor.isValid = true)
    (haction : action w = .ok () w₁) : w₁.cursor = w.cursor := by
  obtain ⟨w₂, haction₂, hcursor⟩ := h [] w (.refl w) hvalid
  cases haction.symm.trans haction₂
  exact hcursor

/-- An action that leaves the cursor as it is leaves as much ahead. -/
theorem keepsAhead (h : KeepsCursor q action w) : KeepsAhead q action w := by
  intro runs w₁ w₂ hrounds hvalid haction
  obtain ⟨w₃, haction₃, hcursor⟩ := h runs w₁ hrounds hvalid
  cases haction.symm.trans haction₃
  exact Int.le_of_eq (congrArg q.ahead hcursor)

/-- The rounds come to an end, which is that the cursor is on no instruction. -/
theorem exists_rounds (h : KeepsCursor q action w) :
    ∃ runs w₁, Rounds q action w runs w₁ ∧ w₁.cursor.isValid = false := by
  obtain ⟨runs, w₁, hrounds, hend⟩ :=
    h.keepsAhead.exists_rounds (n := (q.ahead w.cursor).toNat) fun _ => Int.self_le_toNat _
  rcases hend with ⟨hinvalid, -⟩ | ⟨hvalid, -, err, w₂, herror⟩
  · exact ⟨runs, w₁, hrounds, hinvalid⟩
  · obtain ⟨w₃, haction, -⟩ := h runs w₁ hrounds hvalid
    cases herror.symm.trans haction

/-- From where a search went, the action runs on the matches of a chain, and the last search finds
nothing. -/
theorem chain (h : KeepsCursor q action w) (hrounds : Rounds q action w runs w₁)
    (hend : w₁.cursor.isValid = false) {c : Cursor} {start : Int}
    (hw : w.cursor = c.findFrom start q) :
    ∃ visits, q.Chain c start visits ∧ runs.map (·.cursor) = visits.map (c.onMatch q) ∧
      ∃ start', w₁.cursor = c.offMatch q start' := by
  induction hrounds generalizing start with
  | refl w =>
    cases hfound : c.nearestMatch? q.direction start q.patterns with
    | none => exact ⟨[], .stop hfound, rfl, start, hw.trans (Cursor.findFrom_of_none hfound)⟩
    | some i =>
      rw [hw, Cursor.isValid_findFrom, hfound] at hend
      cases hend
  | @round w w₁ w₂ runs hvalid haction hrest ih =>
    cases hfound : c.nearestMatch? q.direction start q.patterns with
    | none =>
      rw [hw, Cursor.isValid_findFrom, hfound] at hvalid
      cases hvalid
    | some i =>
      rw [Cursor.findFrom_of_some hfound] at hw
      -- the next search reads no more of the cursor than the code, which is that of `c`
      have hnext : (w₁.searchOn q).cursor = c.findFrom (q.restart (i + q.offset : Nat)) q := by
        have hcursor : w₁.cursor = c.onMatch q i := (h.cursor_eq hvalid haction).trans hw
        change w₁.cursor.findFrom (q.restart w₁.cursor.position) q = _
        rw [hcursor]
        rfl
      obtain ⟨visits, hchain, hruns, hlast⟩ := ih (h.searchOn hvalid haction) hend hnext
      refine ⟨i :: visits, .next hfound hchain, ?_, hlast⟩
      rw [List.map_cons, List.map_cons, hw, hruns]

end KeepsCursor

end Edit

end Weaving
