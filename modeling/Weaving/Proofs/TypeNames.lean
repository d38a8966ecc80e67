import Mathlib.Data.List.TakeWhile
import Weaving.Name

/-!
# Type names as segments with separators between them

A text is a type name when it is one segment, or a segment, a separator and a type name
(`Name.Qualified`). The check of texts goes another way, it splits at every separator and looks at
the pieces, and accepts the same texts (`Name.typeFault?_eq_none_iff`). Splitting turns a separator
into an append (`Name.segments_append`), so two names with a separator between them are one name,
and a name comes apart into two at each of its separators. The last segment and the namespace are
cuts at a last character of some kind (`Name.last_cases`), at any separator for the one and at a dot
for the other (`TypeName.lastSegment_eq`, `TypeName.namespace?_eq`).
-/

namespace Weaving

namespace Name

/-- A piece of a type name between separators: it is not empty, and each of its characters may stand
in a name. -/
structure IsSegment (s : List Char) : Prop where
  ne_nil : s ≠ []
  legal : ∀ c ∈ s, isSeparator c = false ∧ isReserved c = false ∧ Text.isWhitespace c = false

/-- Segments with separators between them, at least one segment. -/
inductive Qualified : List Char → Prop
  | segment {s : List Char} : IsSegment s → Qualified s
  | join {s cs : List Char} {c : Char} :
      IsSegment s → isSeparator c = true → Qualified cs → Qualified (s ++ c :: cs)

/-! ## Splitting at separators -/

/-- Every text has a segment, which may be empty. -/
theorem segments_ne_nil (cs : List Char) : segments cs ≠ [] := by
  fun_cases segments cs <;> simp

/-- A character that is no separator belongs to the first segment. -/
theorem segments_cons_of_not_separator {c : Char} (h : isSeparator c = false) {cs s : List Char}
    {ss : List (List Char)} (hcs : segments cs = s :: ss) :
    segments (c :: cs) = (c :: s) :: ss := by
  simp [segments, h, hcs]

/-- A text without separators is its only segment. -/
theorem segments_of_not_separator {s : List Char} (h : ∀ c ∈ s, isSeparator c = false) :
    segments s = [s] := by
  induction s with
  | nil => rfl
  | cons c s ih =>
    obtain ⟨hc, hs⟩ := List.forall_mem_cons.1 h
    exact segments_cons_of_not_separator hc (ih hs)

/-- The segments before a separator, and then those behind it. -/
theorem segments_append (a b : List Char) {c : Char} (h : isSeparator c = true) :
    segments (a ++ c :: b) = segments a ++ segments b := by
  induction a with
  | nil => simp [segments, h]
  | cons x a ih =>
    cases hx : isSeparator x with
    | true => simp [segments, hx, ih]
    | false =>
      obtain ⟨s, ss, ha⟩ := List.exists_cons_of_ne_nil (segments_ne_nil a)
      have hab : segments (a ++ c :: b) = s :: (ss ++ segments b) := by
        rw [ih, ha, List.cons_append]
      rw [List.cons_append, segments_cons_of_not_separator hx ha,
        segments_cons_of_not_separator hx hab, List.cons_append]

/-! ## Legal texts -/

/-- No fault is found in a piece exactly if it is a segment. -/
theorem segmentFault?_eq_none_iff {s : List Char} (h : ∀ c ∈ s, isSeparator c = false) :
    segmentFault? s = none ↔ IsSegment s := by
  constructor
  · intro hfault
    unfold segmentFault? at hfault
    split at hfault
    · cases hfault
    · next hne =>
      split at hfault
      · cases hfault
      · next hlegal =>
        simp only [Bool.or_eq_true, List.any_eq_true, not_or, not_exists, not_and,
          Bool.not_eq_true] at hlegal
        exact ⟨by simpa using hne, fun c hc => ⟨h c hc, hlegal.1 c hc, hlegal.2 c hc⟩⟩
  · rintro ⟨hne, hall⟩
    have hreserved : s.any isReserved = false :=
      List.any_eq_false.2 fun c hc => by simp [(hall c hc).2.1]
    have hwhite : s.any Text.isWhitespace = false :=
      List.any_eq_false.2 fun c hc => by simp [(hall c hc).2.2]
    simp [segmentFault?, hne, hreserved, hwhite]

/-- A text is a type name when none of its segments is faulty; the empty text has an empty one. -/
theorem typeFault?_eq_none {cs : List Char} :
    typeFault? cs = none ↔ ∀ s ∈ segments cs, segmentFault? s = none := by
  cases cs with
  | nil => simp [typeFault?, segments, segmentFault?]
  | cons c cs => simp [typeFault?, List.findSome?_eq_none_iff]

/-- A text with a separator in it is a name when both sides are. -/
theorem typeFault?_append (a b : List Char) {c : Char} (h : isSeparator c = true) :
    typeFault? (a ++ c :: b) = none ↔ typeFault? a = none ∧ typeFault? b = none := by
  simp only [typeFault?_eq_none, segments_append a b h, List.forall_mem_append]

/-- No fault is found in a text without separators exactly if it is a segment. -/
theorem typeFault?_of_not_separator {s : List Char} (h : ∀ c ∈ s, isSeparator c = false) :
    typeFault? s = none ↔ IsSegment s := by
  rw [typeFault?_eq_none, segments_of_not_separator h, List.forall_mem_singleton,
    segmentFault?_eq_none_iff h]

/-- A text has no separator, or it comes apart at its first one. -/
theorem first_cases (cs : List Char) :
    (∀ c ∈ cs, isSeparator c = false) ∨
      ∃ s c rest, cs = s ++ c :: rest ∧ isSeparator c = true ∧ ∀ x ∈ s, isSeparator x = false := by
  cases hfind : cs.find? isSeparator with
  | none => exact .inl (by simpa using hfind)
  | some c =>
    obtain ⟨hc, s, rest, rfl, hs⟩ := List.find?_eq_some_iff_append.1 hfind
    exact .inr ⟨s, c, rest, rfl, hc, by simpa using hs⟩

/-- A text without a fault is qualified: it comes apart at its first separator, and the rest is
shorter. -/
theorem Qualified.of_typeFault? {cs : List Char} (h : typeFault? cs = none) : Qualified cs := by
  induction hn : cs.length using Nat.strongRecOn generalizing cs with
  | ind n ih =>
    rcases first_cases cs with hcs | ⟨s, c, rest, rfl, hc, hs⟩
    · exact .segment ((typeFault?_of_not_separator hcs).1 h)
    · obtain ⟨hfirst, hrest⟩ := (typeFault?_append s rest hc).1 h
      have hshorter : rest.length < n := by
        rw [← hn, List.length_append, List.length_cons]
        omega
      exact .join ((typeFault?_of_not_separator hs).1 hfirst) hc (ih _ hshorter hrest rfl)

/-- A segment is a name by itself. -/
theorem IsSegment.typeFault? {s : List Char} (h : IsSegment s) : typeFault? s = none :=
  (typeFault?_of_not_separator fun c hc => (h.legal c hc).1).2 h

/-- The texts without a fault are the qualified ones. -/
theorem typeFault?_eq_none_iff {cs : List Char} : typeFault? cs = none ↔ Qualified cs := by
  refine ⟨.of_typeFault?, fun h => ?_⟩
  induction h with
  | segment hs => exact hs.typeFault?
  | join hs hc _ ih => exact (typeFault?_append _ _ hc).2 ⟨hs.typeFault?, ih⟩

/-! ## Cuts at a last character -/

/-- A text has no character of a kind, or it comes apart at the last one. -/
theorem last_cases (p : Char → Bool) (cs : List Char) :
    (∀ c ∈ cs, p c = false) ∨
      ∃ before c last, cs = before ++ c :: last ∧ p c = true ∧ ∀ x ∈ last, p x = false := by
  cases hfind : cs.reverse.find? p with
  | none => exact .inl (by simpa using hfind)
  | some c =>
    obtain ⟨hc, last, before, hcs, hlast⟩ := List.find?_eq_some_iff_append.1 hfind
    refine .inr ⟨before.reverse, c, last.reverse, ?_, hc, by simpa using hlast⟩
    rw [← List.reverse_reverse cs, hcs]
    simp

section
variable {p : Char → Bool} {before last : List Char} {c : Char}

/-- What is read from the end up to the last character of a kind is what is behind that. -/
theorem takeWhile_reverse_of_last (hc : p c = true) (hlast : ∀ x ∈ last, p x = false) :
    (before ++ c :: last).reverse.takeWhile (!p ·) = last.reverse := by
  rw [List.reverse_append, List.reverse_cons, List.append_assoc,
    List.takeWhile_append_of_pos (by simpa using hlast)]
  simp [hc]

/-- What is left then is the character and what is before it. -/
theorem dropWhile_reverse_of_last (hc : p c = true) (hlast : ∀ x ∈ last, p x = false) :
    (before ++ c :: last).reverse.dropWhile (!p ·) = c :: before.reverse := by
  rw [List.reverse_append, List.reverse_cons, List.append_assoc,
    List.dropWhile_append_of_pos (by simpa using hlast)]
  simp [hc]

end

end Name

namespace TypeName

/-! ## Names and texts -/

/-- The text is read as a type name. -/
def Reads (text : String) : Prop := ∃ t, ofString text = .ok t

/-- A text is read as the name that has it. -/
theorem ofString_eq_ok {text : String} {t : TypeName} : ofString text = .ok t ↔ t.text = text := by
  unfold ofString
  constructor
  · split
    · rintro ⟨⟩
      rfl
    · nofun
  · rintro rfl
    split
    · rfl
    · next fault hfault =>
      rw [t.legal] at hfault
      cases hfault

/-- A text is read as a name exactly if no fault is found in it. -/
theorem reads_iff_typeFault? {text : String} : Reads text ↔ typeFault? text.toList = none :=
  ⟨fun ⟨t, ht⟩ => ofString_eq_ok.1 ht ▸ t.legal, fun h => ⟨⟨text, h⟩, ofString_eq_ok.2 rfl⟩⟩

/-- A text is read as a name exactly if it is qualified. -/
theorem reads_iff {text : String} : Reads text ↔ Name.Qualified text.toList :=
  reads_iff_typeFault?.trans Name.typeFault?_eq_none_iff

/-- Two names with a separator between them are one name, and no other texts are. -/
theorem reads_append (a b : String) {c : Char} (h : Name.isSeparator c = true) :
    Reads (a ++ String.singleton c ++ b) ↔ Reads a ∧ Reads b := by
  simp only [reads_iff_typeFault?, ← Name.typeFault?_append a.toList b.toList h,
    String.toList_append, String.toList_singleton, List.append_assoc, List.singleton_append]

/-! ## The last segment and the namespace -/

section
variable {t : TypeName} {before last : String} {c : Char}

/-- Behind the last separator stands the last segment. -/
theorem lastSegment_eq (ht : t.text = before ++ String.singleton c ++ last)
    (hc : Name.isSeparator c = true) (hlast : ∀ x ∈ last.toList, Name.isSeparator x = false) :
    t.lastSegment = last := by
  have hchars : t.text.toList = before.toList ++ c :: last.toList := by simp [ht]
  rw [lastSegment, hchars, Name.takeWhile_reverse_of_last hc hlast, List.reverse_reverse,
    String.ofList_toList]

/-- A name without separators is its last segment. -/
theorem lastSegment_of_not_separator (h : ∀ c ∈ t.text.toList, Name.isSeparator c = false) :
    t.lastSegment = t.text := by
  have hall : ∀ c ∈ t.text.toList.reverse, (!Name.isSeparator c) = true := by simpa using h
  rw [lastSegment, List.takeWhile_eq_self_iff.2 hall, List.reverse_reverse, String.ofList_toList]

/-- Before the last dot stands the namespace. -/
theorem namespace?_eq (ht : t.text = before ++ "." ++ last) (hlast : '.' ∉ last.toList) :
    t.namespace? = some before := by
  have hchars : t.text.toList = before.toList ++ '.' :: last.toList := by simp [ht]
  have hno : ∀ x ∈ last.toList, (x == '.') = false := by
    intro x hx
    exact beq_false_of_ne fun heq => hlast (heq ▸ hx)
  have hdrop : t.text.toList.reverse.dropWhile (· != '.') = '.' :: before.toList.reverse := by
    rw [hchars]
    exact Name.dropWhile_reverse_of_last (p := (· == '.')) rfl hno
  unfold namespace?
  rw [hdrop]
  simp

/-- A name without dots has no namespace. -/
theorem namespace?_of_no_dot (h : '.' ∉ t.text.toList) : t.namespace? = none := by
  have hall : ∀ x ∈ t.text.toList.reverse, (x != '.') = true := by
    intro x hx
    exact bne_iff_ne.2 fun heq => h (heq ▸ List.mem_reverse.1 hx)
  unfold namespace?
  rw [List.dropWhile_eq_nil_iff.2 hall]

end

/-- The last segment has no separators. It is the name or stands behind a separator. -/
theorem lastSegment_spec (t : TypeName) :
    (∀ c ∈ t.lastSegment.toList, Name.isSeparator c = false) ∧
      (t.text = t.lastSegment ∨
        ∃ before c, Name.isSeparator c = true ∧
          t.text = before ++ String.singleton c ++ t.lastSegment) := by
  rcases Name.last_cases Name.isSeparator t.text.toList with h | ⟨before, c, last, ht, hc, hlast⟩
  · rw [lastSegment_of_not_separator h]
    exact ⟨h, .inl rfl⟩
  · have htext : t.text = String.ofList before ++ String.singleton c ++ String.ofList last := by
      rw [← String.ofList_toList (s := t.text), ht]
      simp [String.ext_iff]
    have hlast' : ∀ x ∈ (String.ofList last).toList, Name.isSeparator x = false := by
      rwa [String.toList_ofList]
    rw [lastSegment_eq htext hc hlast']
    exact ⟨hlast', .inr ⟨_, c, hc, htext⟩⟩

/-- What stands behind a separator ends with the same segment. -/
theorem lastSegment_append {t rest : TypeName} {before : String} {c : Char}
    (ht : t.text = before ++ String.singleton c ++ rest.text) (hc : Name.isSeparator c = true) :
    t.lastSegment = rest.lastSegment := by
  obtain ⟨hno, hrest | ⟨middle, c', hc', hrest⟩⟩ := rest.lastSegment_spec
  · exact lastSegment_eq (hrest ▸ ht) hc hno
  · have htext : t.text =
        (before ++ String.singleton c ++ middle) ++ String.singleton c' ++ rest.lastSegment := by
      rw [ht, hrest]
      simp only [String.append_assoc]
    exact lastSegment_eq htext hc' hno

/-- The last segment is a name itself, and it is not empty. -/
theorem reads_lastSegment (t : TypeName) : Reads t.lastSegment ∧ t.lastSegment ≠ "" := by
  obtain ⟨hno, htext⟩ := t.lastSegment_spec
  have ht : Reads t.text := reads_iff_typeFault?.2 t.legal
  have hreads : Reads t.lastSegment := by
    rcases htext with h | ⟨before, c, hc, h⟩
    · exact h ▸ ht
    · exact ((reads_append before _ hc).1 (h ▸ ht)).2
  refine ⟨hreads, fun hempty => ?_⟩
  have hsegment := (Name.typeFault?_of_not_separator hno).1 (reads_iff_typeFault?.1 hreads)
  exact hsegment.ne_nil (by rw [hempty]; rfl)

/-- A name has no dots and no namespace, or it is its namespace, a dot and a rest without dots. -/
theorem namespace?_cases (t : TypeName) :
    ('.' ∉ t.text.toList ∧ t.namespace? = none) ∨
      ∃ ns rest, t.text = ns ++ "." ++ rest ∧ '.' ∉ rest.toList ∧ t.namespace? = some ns := by
  rcases Name.last_cases (· == '.') t.text.toList with h | ⟨ns, c, rest, ht, hc, hrest⟩
  · have hno : '.' ∉ t.text.toList := fun hdot => by simpa using h _ hdot
    exact .inl ⟨hno, namespace?_of_no_dot hno⟩
  · cases eq_of_beq hc
    have htext : t.text = String.ofList ns ++ "." ++ String.ofList rest := by
      rw [← String.ofList_toList (s := t.text), ht]
      simp [String.ext_iff]
    have hno : '.' ∉ (String.ofList rest).toList := fun hdot => by
      simpa using hrest '.' (by simpa using hdot)
    exact .inr ⟨_, _, htext, hno, namespace?_eq htext hno⟩

/-- A text is read as a type name exactly when it is made of segments with separators between them,
and it is the text of the name. So a separator between two texts gives a name exactly when both are
names. The last segment of a name is a name without separators, and it is all of the name or stands
behind a separator. A name has a namespace exactly when it has a dot; the namespace is a name then,
and so is what follows the dot behind it, which has no further dot and the same last segment. -/
theorem ofString_exact :
    (∀ text, (Reads text ↔ Name.Qualified text.toList) ∧
      ∀ t, ofString text = .ok t ↔ t.text = text) ∧
    (∀ a b c, Name.isSeparator c = true →
      (Reads (a ++ String.singleton c ++ b) ↔ Reads a ∧ Reads b)) ∧
    ∀ t : TypeName,
      (t.lastSegment ≠ "" ∧ (∀ c ∈ t.lastSegment.toList, Name.isSeparator c = false) ∧
        Reads t.lastSegment ∧
        (t.text = t.lastSegment ∨
          ∃ before c, Name.isSeparator c = true ∧
            t.text = before ++ String.singleton c ++ t.lastSegment)) ∧
      (t.namespace? = none ↔ '.' ∉ t.text.toList) ∧
      ∀ ns, t.namespace? = some ns → Reads ns ∧
        ∃ rest : TypeName, t.text = ns ++ "." ++ rest.text ∧ '.' ∉ rest.text.toList ∧
          rest.lastSegment = t.lastSegment := by
  refine ⟨fun text => ⟨reads_iff, fun _ => ofString_eq_ok⟩, fun a b _ => reads_append a b,
    fun t => ⟨?_, ?_⟩⟩
  · obtain ⟨hreads, hne⟩ := t.reads_lastSegment
    obtain ⟨hno, htext⟩ := t.lastSegment_spec
    exact ⟨hne, hno, hreads, htext⟩
  · rcases t.namespace?_cases with ⟨hno, hnone⟩ | ⟨ns, rest, htext, hno, hsome⟩
    · exact ⟨iff_of_true hnone hno, fun ns hns => by rw [hnone] at hns; cases hns⟩
    · have hdot : '.' ∈ t.text.toList := by simp [htext]
      have ht : Reads t.text := reads_iff_typeFault?.2 t.legal
      rw [htext] at ht
      obtain ⟨hns, r, hr⟩ := (reads_append ns rest (c := '.') rfl).1 ht
      cases ofString_eq_ok.1 hr
      refine ⟨iff_of_false (by simp [hsome]) (not_not_intro hdot), fun ns' hns' => ?_⟩
      cases hsome.symm.trans hns'
      exact ⟨hns, r, htext, hno, (lastSegment_append (c := '.') htext rfl).symm⟩

/-- A nested type of a nested namespace. -/
def inventory : TypeName := ⟨"Game.Actors.Player+Inventory", by decide⟩

/-- The namespace ends at the last dot, and the separator of the nested type is behind it. -/
theorem ofString_exact_inventory :
    Reads "Game.Actors.Player+Inventory" ∧ ¬ Reads "Game..Player" ∧
      inventory.lastSegment = "Inventory" ∧ Reads "Inventory" ∧
      inventory.namespace? = some "Game.Actors" ∧ Reads "Game.Actors" ∧
      ∃ rest : TypeName, inventory.text = "Game.Actors" ++ "." ++ rest.text ∧
        '.' ∉ rest.text.toList ∧ rest.lastSegment = "Inventory" := by
  obtain ⟨hread, happend, hparts⟩ := ofString_exact
  have hlast : inventory.lastSegment = "Inventory" := by decide
  have hns : inventory.namespace? = some "Game.Actors" := by decide
  obtain ⟨⟨-, -, hlastReads, -⟩, -, hnamespace⟩ := hparts inventory
  obtain ⟨hnsReads, rest, htext, hno, hrest⟩ := hnamespace _ hns
  have hwhole : Reads "Game.Actors.Player+Inventory" := ⟨inventory, ((hread _).2 _).2 rfl⟩
  have hempty : ¬ Reads "Game..Player" := by
    intro h
    obtain ⟨⟨t, ht⟩, -⟩ := (happend "Game." "Player" '.' rfl).1 h
    have htext := ((hread _).2 t).1 ht
    have hlegal := t.legal
    rw [htext] at hlegal
    exact absurd hlegal (by decide)
  rw [hlast] at hlastReads hrest
  exact ⟨hwhole, hempty, hlast, hlastReads, hns, hnsReads, rest, htext, hno, hrest⟩

end TypeName

end Weaving
