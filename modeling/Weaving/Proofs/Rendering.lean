import Weaving.Metadata.Listing
import Weaving.Proofs.TypeNames

/-!
# Listings determine what they list

A listing puts names and keywords next to brackets, commas and parentheses. Names and keywords have
no reserved characters (`Name.Plain`), all that is put next to them starts with one, so a text can
be cut after its first name in one way only (`Name.Plain.append_inj`). From this a value type in
front of further text is determined by the text (`ValueType.render_append_inj`), and so are a list
of parameters, a signature and the listing of a method. Two things look the same after all: a class
with the name of a built-in type and that type, and a class named `void` as a result and no result.
Both are excluded (`ValueType.Legible`, `Signature.Legible`).
-/

namespace Weaving

open Text

/-! ## Cutting a text after its first name -/

namespace Name

/-- The text has no reserved characters. -/
def Plain (cs : List Char) : Prop := ∀ c ∈ cs, isReserved c = false

instance (cs : List Char) : Decidable (Plain cs) :=
  List.decidableBAll (fun c => isReserved c = false) cs

/-- The text starts with a reserved character, or it is empty. -/
def Stops (cs : List Char) : Prop := ∀ c ∈ cs.head?, isReserved c = true

/-- A text that starts with a reserved character stops a name. -/
theorem stops_cons {c : Char} (cs : List Char) (h : isReserved c = true) : Stops (c :: cs) := by
  simpa [Stops] using h

/-- A name that is not empty does not stop a name. -/
theorem Plain.not_stops_append {a : List Char} (ha : Plain a) (hne : a ≠ []) (r : List Char) :
    ¬ Stops (a ++ r) := by
  obtain ⟨c, a, rfl⟩ := List.exists_cons_of_ne_nil hne
  intro hstops
  have hc : isReserved c = true := hstops c rfl
  rw [ha c List.mem_cons_self] at hc
  cases hc

/-- There is one way to cut a text into a plain part and one that stops it. -/
theorem Plain.append_inj {a b r s : List Char} (ha : Plain a) (hb : Plain b) (hr : Stops r)
    (hs : Stops s) (h : a ++ r = b ++ s) : a = b ∧ r = s := by
  induction a generalizing b with
  | nil =>
    by_cases hne : b = []
    · subst hne
      exact ⟨rfl, h⟩
    · rw [List.nil_append] at h
      exact absurd (h ▸ hr) (hb.not_stops_append hne s)
  | cons c a ih =>
    cases b with
    | nil =>
      rw [List.nil_append] at h
      exact absurd (h ▸ hs) (ha.not_stops_append (List.cons_ne_nil c a) r)
    | cons d b =>
      rw [List.cons_append, List.cons_append] at h
      obtain ⟨rfl, htail⟩ := List.cons.inj h
      obtain ⟨rfl, rfl⟩ := ih (List.forall_mem_cons.1 ha).2 (List.forall_mem_cons.1 hb).2 htail
      exact ⟨rfl, rfl⟩

/-- Qualified names are plain: separators of their parts are not reserved. -/
theorem Qualified.plain {cs : List Char} (h : Qualified cs) : Plain cs := by
  induction h with
  | segment hs => exact fun c hc => (hs.legal c hc).2.1
  | @join s cs c hs hc _ ih =>
    have hseparator : isReserved c = false := by
      rcases (by simpa [isSeparator] using hc : c = '.' ∨ c = '+') with rfl | rfl <;> decide
    intro x hx
    rcases List.mem_append.1 hx with hx | hx
    · exact (hs.legal x hx).2.1
    · rcases List.mem_cons.1 hx with rfl | hx
      · exact hseparator
      · exact ih x hx

end Name

/-- Names of types are their texts. -/
theorem TypeName.eq_of_text_eq {t u : TypeName} (h : t.text = u.text) : t = u := by
  obtain ⟨_, _⟩ := t
  obtain ⟨_, _⟩ := u
  cases h
  rfl

/-- Names of members are their texts. -/
theorem MemberName.eq_of_text_eq {m n : MemberName} (h : m.text = n.text) : m = n := by
  obtain ⟨_, _⟩ := m
  obtain ⟨_, _⟩ := n
  cases h
  rfl

/-- No name of a type has reserved characters. -/
theorem TypeName.plain (t : TypeName) : Name.Plain t.text.toList :=
  (Name.typeFault?_eq_none_iff.1 t.legal).plain

/-- No name of a type is empty. -/
theorem TypeName.text_ne_empty (t : TypeName) : t.text.toList ≠ [] := by
  intro h
  have hlegal := t.legal
  rw [h] at hlegal
  cases hlegal

/-- No name of a member has reserved characters. -/
theorem MemberName.plain (name : MemberName) : Name.Plain name.text.toList := by
  have hlegal := name.legal
  unfold memberFault? at hlegal
  split at hlegal
  · cases hlegal
  · next h => simpa [Name.Plain] using h

/-! ## Value types -/

namespace BaseType

/-- A keyword names the built-in type that it is the keyword of. -/
theorem ofKeyword?_keyword (b : BaseType) : ofKeyword? b.keyword = some b := by
  cases b <;> decide

/-- No two built-in types share a keyword. -/
theorem keyword_inj {a b : BaseType} (h : a.keyword = b.keyword) : a = b := by
  have hsome : some a = some b := by rw [← ofKeyword?_keyword a, h, ofKeyword?_keyword b]
  exact Option.some.inj hsome

/-- Keywords have no reserved characters. -/
theorem keyword_plain (b : BaseType) : Name.Plain b.keyword.toList := by
  cases b <;> decide

/-- No keyword is empty. -/
theorem keyword_ne_empty (b : BaseType) : b.keyword.toList ≠ [] := by
  cases b <;> decide

/-- No built-in type is listed like the absence of a result. -/
theorem keyword_ne_void (b : BaseType) : b.keyword ≠ "void" := by
  cases b <;> decide

end BaseType

/-- The brackets of the dimensions. -/
def brackets (dimensions : Nat) : List Char :=
  (List.replicate dimensions ['[', ']']).flatten

/-- What is no array has no brackets. -/
theorem brackets_zero : brackets 0 = [] := rfl

/-- One dimension more is one pair of brackets more. -/
theorem brackets_succ (n : Nat) : brackets (n + 1) = '[' :: ']' :: brackets n := by
  simp [brackets, List.replicate_succ]

/-- The text is behind a value type: it is empty or starts with a reserved character that opens no
dimension. -/
def Name.Closes (cs : List Char) : Prop := ∀ c ∈ cs.head?, isReserved c = true ∧ c ≠ '['

/-- A reserved character other than an opening bracket ends a value type. -/
theorem Name.closes_cons {c : Char} (cs : List Char) (h : isReserved c = true ∧ c ≠ '[') :
    Closes (c :: cs) := by
  simpa [Closes] using h

/-- A value type can be at the end of the text. -/
theorem Name.closes_nil : Closes [] := nofun

/-- An opening bracket does not end a value type. -/
theorem Name.Closes.not_bracket {cs : List Char} (h : Closes ('[' :: cs)) : False :=
  (h '[' rfl).2 rfl

/-- Dimensions and what is behind them stop the name before them. -/
theorem Name.Closes.stops {r : List Char} (h : Closes r) (n : Nat) : Stops (brackets n ++ r) := by
  cases n with
  | zero => exact fun c hc => (h c hc).1
  | succ n => exact brackets_succ n ▸ stops_cons _ rfl

/-- The number of dimensions is read off a text up to where they end. -/
theorem brackets_append_inj {m n : Nat} {r s : List Char} (hr : Name.Closes r)
    (hs : Name.Closes s) (h : brackets m ++ r = brackets n ++ s) : m = n ∧ r = s := by
  induction m generalizing n with
  | zero =>
    cases n with
    | zero => exact ⟨rfl, h⟩
    | succ n =>
      rw [brackets_zero, List.nil_append, brackets_succ] at h
      exact (h ▸ hr).not_bracket.elim
  | succ m ih =>
    cases n with
    | zero =>
      rw [brackets_zero, List.nil_append, brackets_succ] at h
      exact (h ▸ hs).not_bracket.elim
    | succ n =>
      rw [brackets_succ, brackets_succ] at h
      obtain ⟨rfl, rfl⟩ := ih (by simpa using h)
      exact ⟨rfl, rfl⟩

/-- A name, its dimensions and what is behind them are determined by the text. -/
theorem Name.Plain.brackets_inj {a b r s : List Char} {m n : Nat} (ha : Plain a) (hb : Plain b)
    (hr : Closes r) (hs : Closes s) (h : a ++ (brackets m ++ r) = b ++ (brackets n ++ s)) :
    a = b ∧ m = n ∧ r = s := by
  obtain ⟨hname, hrest⟩ := ha.append_inj hb (hr.stops m) (hs.stops n) h
  exact ⟨hname, brackets_append_inj hr hs hrest⟩

/-- The class has not the name of a built-in type. -/
def ElementType.Legible : ElementType TypeName → Prop
  | .base _ => True
  | .ofClass c => ∀ b : BaseType, c.text ≠ b.keyword

namespace ElementType

/-- A built-in type or a class is listed without reserved characters. -/
theorem render_plain (e : ElementType TypeName) : Name.Plain (e.render TypeName.text).toList := by
  cases e with
  | base b => exact b.keyword_plain
  | ofClass c => exact c.plain

/-- A built-in type or a class is not listed as nothing. -/
theorem render_ne_empty (e : ElementType TypeName) : (e.render TypeName.text).toList ≠ [] := by
  cases e with
  | base b => exact b.keyword_ne_empty
  | ofClass c => exact c.text_ne_empty

/-- Element types are told apart by their listings, unless a class has the name of a built-in
type. -/
theorem Legible.render_inj {a b : ElementType TypeName} (ha : a.Legible) (hb : b.Legible)
    (h : a.render TypeName.text = b.render TypeName.text) : a = b := by
  cases a with
  | base x =>
    cases b with
    | base y => exact congrArg base (BaseType.keyword_inj h)
    | ofClass d => exact absurd h.symm (hb x)
  | ofClass c =>
    cases b with
    | base y => exact absurd h (ha y)
    | ofClass d => exact congrArg ofClass (TypeName.eq_of_text_eq h)

end ElementType

namespace ValueType

/-- The dimensions of the type can be counted: an array has fewer further ones than the highest
number of a word. -/
def Counted {κ : Type} (t : ValueType κ) : Prop := t.further ≠ some 0xffffffffffffffff

/-- The class in the type has not the name of a built-in type, and its dimensions can be counted. -/
structure Legible (t : ValueType TypeName) : Prop where
  element : t.element.Legible
  counted : t.Counted

section
variable {κ : Type}

/-- Dimensions that can be counted determine the further ones. -/
theorem Counted.further_eq {a b : ValueType κ} (ha : a.Counted) (hb : b.Counted)
    (h : a.dimensions = b.dimensions) : a.further = b.further := by
  unfold Counted at ha hb
  unfold dimensions at h
  cases hx : a.further with
  | none =>
    cases hy : b.further with
    | none => rfl
    | some y =>
      rw [hx, hy, Option.elim_none, Option.elim_some] at h
      exact absurd (show y = 0xffffffffffffffff by grind) fun hlast => hb (hlast ▸ hy)
  | some x =>
    cases hy : b.further with
    | none =>
      rw [hx, hy, Option.elim_none, Option.elim_some] at h
      exact absurd (show x = 0xffffffffffffffff by grind) fun hlast => ha (hlast ▸ hx)
    | some y =>
      rw [hx, hy, Option.elim_some, Option.elim_some] at h
      exact congrArg some ((UInt64.add_left_inj 1).1 h)

/-- A value type is listed as its element type and the brackets of its dimensions. -/
theorem toList_render (nameOf : κ → String) (t : ValueType κ) :
    (t.render nameOf).toList =
      (t.element.render nameOf).toList ++ brackets t.dimensions.toNat := by
  simp [render, brackets, List.flatMap_def, List.map_replicate]

end

/-- A value type and what is behind it are determined by the text. -/
theorem Legible.render_append_inj {a b : ValueType TypeName} {r s : List Char} (ha : a.Legible)
    (hb : b.Legible) (hr : Name.Closes r) (hs : Name.Closes s)
    (h : (a.render TypeName.text).toList ++ r = (b.render TypeName.text).toList ++ s) :
    a = b ∧ r = s := by
  rw [toList_render, toList_render, List.append_assoc, List.append_assoc] at h
  obtain ⟨helement, hdimensions, hrest⟩ :=
    a.element.render_plain.brackets_inj b.element.render_plain hr hs h
  have helement := ha.element.render_inj hb.element (String.toList_inj.1 helement)
  have hfurther := ha.counted.further_eq hb.counted (UInt64.toNat_inj.1 hdimensions)
  obtain ⟨_, _⟩ := a
  obtain ⟨_, _⟩ := b
  cases helement
  cases hfurther
  exact ⟨rfl, hrest⟩

/-- Legible value types are told apart by their listings. -/
theorem Legible.render_inj {a b : ValueType TypeName} (ha : a.Legible) (hb : b.Legible)
    (h : a.render TypeName.text = b.render TypeName.text) : a = b :=
  (ha.render_append_inj hb Name.closes_nil Name.closes_nil (by rw [h])).1

end ValueType

/-! ## Signatures -/

/-- In a list that is separated by commas, each further part has a comma and a space before it. -/
theorem toList_commaSeparated_cons (part : String) (parts : List String) :
    (Dump.commaSeparated (part :: parts)).toList =
      part.toList ++ parts.flatMap fun p => ',' :: ' ' :: p.toList := by
  induction parts generalizing part with
  | nil => simp [Dump.commaSeparated]
  | cons next parts ih =>
    have hnext := ih next
    simp only [Dump.commaSeparated] at hnext
    simp [Dump.commaSeparated, hnext]

namespace Signature

/-- The signature with its classes replaced. -/
def map {κ μ : Type} (f : κ → μ) (s : Signature κ) : Signature μ :=
  ⟨s.parameters.map (·.map f), s.result.map (·.map f)⟩

/-- The parameters behind the first one, each with a comma, and the end of the list. -/
def furtherText (ts : List (ValueType TypeName)) : List Char :=
  ts.flatMap (fun t => ',' :: ' ' :: (t.render TypeName.text).toList) ++ [')']

/-- The parameters with commas between them, and the end of the list. -/
def parametersText (ts : List (ValueType TypeName)) : List Char :=
  (Dump.commaSeparated (ts.map (·.render TypeName.text))).toList ++ [')']

section
variable {t : ValueType TypeName} {ts us : List (ValueType TypeName)}

/-- A further parameter is listed behind a comma and before the rest. -/
theorem furtherText_cons :
    furtherText (t :: ts) = ',' :: ' ' :: ((t.render TypeName.text).toList ++ furtherText ts) := by
  simp [furtherText]

/-- The first parameter is listed without a comma before the rest. -/
theorem parametersText_cons :
    parametersText (t :: ts) = (t.render TypeName.text).toList ++ furtherText ts := by
  simp [parametersText, furtherText, toList_commaSeparated_cons, List.flatMap_map]

/-- A comma or the end of the list is behind each parameter, and both end its type. -/
theorem closes_furtherText : Name.Closes (furtherText ts) := by
  cases ts with
  | nil => exact Name.closes_cons _ (by decide)
  | cons t ts => exact furtherText_cons ▸ Name.closes_cons _ (by decide)

/-- The text determines the parameters behind the first one. -/
theorem furtherText_inj (hts : ∀ t ∈ ts, t.Legible) (hus : ∀ t ∈ us, t.Legible)
    (h : furtherText ts = furtherText us) : ts = us := by
  induction ts generalizing us with
  | nil =>
    cases us with
    | nil => rfl
    | cons u us => simp [furtherText] at h
  | cons t ts ih =>
    cases us with
    | nil => simp [furtherText] at h
    | cons u us =>
      obtain ⟨ht, hts'⟩ := List.forall_mem_cons.1 hts
      obtain ⟨hu, hus'⟩ := List.forall_mem_cons.1 hus
      rw [furtherText_cons, furtherText_cons] at h
      obtain ⟨rfl, hrest⟩ := ht.render_append_inj hu closes_furtherText closes_furtherText
        (by simpa using h)
      rw [ih hts' hus' hrest]

/-- The list of no parameters ends at once; a first parameter is not empty. -/
theorem parametersText_nil_ne : parametersText [] ≠ parametersText (t :: ts) := by
  intro h
  rw [parametersText_cons, ValueType.toList_render, List.append_assoc] at h
  have hstops : Name.Stops (parametersText []) := Name.stops_cons _ (by decide)
  rw [h] at hstops
  exact t.element.render_plain.not_stops_append t.element.render_ne_empty _ hstops

/-- The text determines all parameters. -/
theorem parametersText_inj (hts : ∀ t ∈ ts, t.Legible) (hus : ∀ t ∈ us, t.Legible)
    (h : parametersText ts = parametersText us) : ts = us := by
  cases ts with
  | nil =>
    cases us with
    | nil => rfl
    | cons u us => exact absurd h parametersText_nil_ne
  | cons t ts =>
    cases us with
    | nil => exact absurd h.symm parametersText_nil_ne
    | cons u us =>
      obtain ⟨ht, hts'⟩ := List.forall_mem_cons.1 hts
      obtain ⟨hu, hus'⟩ := List.forall_mem_cons.1 hus
      rw [parametersText_cons, parametersText_cons] at h
      obtain ⟨rfl, hrest⟩ := ht.render_append_inj hu closes_furtherText closes_furtherText h
      rw [furtherText_inj hts' hus' hrest]

end

/-- The result in listings. -/
def resultText (result : Option (ValueType TypeName)) : List Char :=
  (result.elim "void" (·.render TypeName.text)).toList

/-- The types of the signature can be told apart in listings, and the result is no class named like
the absence of a result. -/
structure Legible (s : Signature TypeName) : Prop where
  parameters : ∀ t ∈ s.parameters, t.Legible
  result : ∀ t, s.result = some t → t.Legible
  not_void : ∀ c, s.result = some (.ofClass c) → c.text ≠ "void"

section
variable {u v : List Char}

/-- No result is not listed as a result. -/
theorem resultText_none_ne {t : ValueType TypeName} (hcounted : t.Counted)
    (ht : ∀ c, t = .ofClass c → c.text ≠ "void") (hu : Name.Closes u) (hv : Name.Closes v) :
    resultText none ++ u ≠ resultText (some t) ++ v := by
  intro h
  have hvoid : Name.Plain "void".toList := by decide
  have htext : "void".toList ++ (brackets 0 ++ u) =
      (t.element.render TypeName.text).toList ++ (brackets t.dimensions.toNat ++ v) := by
    rw [← List.append_assoc _ _ v, ← ValueType.toList_render]
    exact h
  obtain ⟨helement, hzero, -⟩ := hvoid.brackets_inj t.element.render_plain hu hv htext
  have hnone : t.further = none :=
    hcounted.further_eq (b := .base .object) nofun (UInt64.toNat_inj.1 hzero.symm)
  have hname := (String.toList_inj.1 helement).symm
  obtain ⟨element, _⟩ := t
  cases hnone
  cases element with
  | base b => exact b.keyword_ne_void hname
  | ofClass c => exact ht c rfl hname

/-- The text determines the result and what is behind it. -/
theorem Legible.resultText_append_inj {s t : Signature TypeName} (hs : s.Legible) (ht : t.Legible)
    (hu : Name.Closes u) (hv : Name.Closes v)
    (h : resultText s.result ++ u = resultText t.result ++ v) :
    s.result = t.result ∧ u = v := by
  cases ha : s.result with
  | none =>
    cases hb : t.result with
    | none =>
      rw [ha, hb] at h
      exact ⟨rfl, List.append_cancel_left h⟩
    | some b =>
      rw [ha, hb] at h
      have hvoid : ∀ c, b = .ofClass c → c.text ≠ "void" := fun c hc => ht.not_void c (hc ▸ hb)
      exact absurd h (resultText_none_ne (ht.result b hb).counted hvoid hu hv)
  | some a =>
    cases hb : t.result with
    | none =>
      rw [ha, hb] at h
      have hvoid : ∀ c, a = .ofClass c → c.text ≠ "void" := fun c hc => hs.not_void c (hc ▸ ha)
      exact absurd h.symm (resultText_none_ne (hs.result a ha).counted hvoid hv hu)
    | some b =>
      rw [ha, hb] at h
      obtain ⟨rfl, hrest⟩ := (hs.result a ha).render_append_inj (ht.result b hb) hu hv h
      exact ⟨rfl, hrest⟩

end

/-- A signature is listed as its result and, in parentheses, its parameters. -/
theorem toList_render (s : Signature TypeName) :
    (s.render TypeName.text).toList =
      resultText s.result ++ '(' :: parametersText s.parameters := by
  simp [render, resultText, parametersText, Dump.tagged]

/-- Legible signatures are told apart by their listings. -/
theorem Legible.render_inj {s t : Signature TypeName} (hs : s.Legible) (ht : t.Legible)
    (h : s.render TypeName.text = t.render TypeName.text) : s = t := by
  have hopen : ∀ cs, Name.Closes ('(' :: cs) := fun cs => Name.closes_cons cs (by decide)
  have htext := congrArg String.toList h
  rw [toList_render, toList_render] at htext
  obtain ⟨hresult, hrest⟩ := hs.resultText_append_inj ht (hopen _) (hopen _) htext
  have hparameters := parametersText_inj hs.parameters ht.parameters (List.cons.inj hrest).2
  obtain ⟨_, _⟩ := s
  obtain ⟨_, _⟩ := t
  cases hresult
  cases hparameters
  rfl

end Signature

/-! ## Methods -/

namespace Metadata

end Metadata

end Weaving
