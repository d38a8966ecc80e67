import Weaving.Proofs.Registry

/-!
# Fields of a type and of its bases

A field is looked for on the type, then on its base, and so on (`Metadata.FieldSearch`). Nothing in
a search says that it ends: it goes round and round where a type is among its own bases. It ends in
reached registries because a base is declared before the types that build on it
(`Metadata.BasesFirst`). The chain of bases then descends to a type without a base
(`Metadata.Ancestry`) and repeats no type, and the search goes along it and no further. What it
finds is told by the log of declarations: the first field that was declared with the name on the
nearest type that has one (`Registry.FirstField`).
-/

namespace Weaving

open Relation (ReflTransGen)

namespace Metadata

/-! ## Chains of bases -/

/-- The type, its base, the base of that, up to a type without a base. -/
inductive Ancestry (md : Metadata) : TypeRef → List TypeRef → Prop
  | root {t : TypeRef} : (md.type t).base = none → Ancestry md t [t]
  | derived {t b : TypeRef} {ts : List TypeRef} :
      (md.type t).base = some b → Ancestry md b ts → Ancestry md t (t :: ts)

/-- Every base has a lower handle than the types that build on it. -/
def BasesFirst (md : Metadata) : Prop := ∀ t b, (md.type t).base = some b → b.index < t.index

variable {md : Metadata} {t : TypeRef} {name : MemberName}

/-- A type has one chain of bases. -/
theorem Ancestry.unique {ts us : List TypeRef} (hts : md.Ancestry t ts) (hus : md.Ancestry t us) :
    ts = us := by
  induction hts generalizing us with
  | root hnone =>
    cases hus with
    | root => rfl
    | derived hsome => cases hnone.symm.trans hsome
  | derived hsome _ ih =>
    cases hus with
    | root hnone => cases hnone.symm.trans hsome
    | derived hsome' hus =>
      cases hsome.symm.trans hsome'
      rw [ih hus]

/-- Where bases come first, the chain that is computed is the chain of bases, to its end. -/
theorem BasesFirst.ancestry (h : md.BasesFirst) (t : TypeRef) : md.Ancestry t (md.baseChain t) := by
  fun_induction baseChain md t with
  | case1 t ih =>
    cases hbase : (md.type t).base with
    | none => exact .root hbase
    | some b =>
      have hlt := h t b hbase
      dsimp only
      rw [if_pos hlt]
      exact .derived hbase (ih b hlt)

/-- Along a chain of bases the handles descend. -/
theorem Ancestry.pairwise (h : md.BasesFirst) {ts : List TypeRef} (hts : md.Ancestry t ts) :
    ts.Pairwise fun u v => v.index < u.index := by
  have hall : (∀ u ∈ ts, u.index ≤ t.index) ∧ ts.Pairwise fun u v => v.index < u.index := by
    induction hts with
    | root => simp
    | @derived t b ts hsome _ ih =>
      have hlt := h t b hsome
      obtain ⟨hle, hpairwise⟩ := ih
      have hbelow : ∀ u ∈ ts, u.index < t.index := fun u hu => Nat.lt_of_le_of_lt (hle u hu) hlt
      refine ⟨List.forall_mem_cons.2 ⟨Nat.le_refl _, fun u hu => Nat.le_of_lt (hbelow u hu)⟩, ?_⟩
      exact List.pairwise_cons.2 ⟨hbelow, hpairwise⟩
  exact hall.2

/-- A chain of bases repeats no type, as its handles descend. -/
theorem Ancestry.nodup (h : md.BasesFirst) {ts : List TypeRef} (hts : md.Ancestry t ts) :
    ts.Nodup := by
  refine (hts.pairwise h).imp ?_
  rintro u v hlt rfl
  exact Nat.lt_irrefl _ hlt

/-! ## The search -/

/-- The search for a field, round by round: it stops where there is no type left, and at a type that
has the field itself; otherwise it goes on with the base. -/
inductive FieldSearch (md : Metadata) (name : MemberName) : Option TypeRef → Option FieldRef → Prop
  | exhausted : FieldSearch md name none none
  | found {t : TypeRef} {f : FieldRef} :
      md.ownField t name = some f → FieldSearch md name (some t) (some f)
  | next {t : TypeRef} {answer : Option FieldRef} :
      md.ownField t name = none → FieldSearch md name (md.type t).base answer →
        FieldSearch md name (some t) answer

/-- A search has one answer. -/
theorem FieldSearch.unique {start : Option TypeRef} {a b : Option FieldRef}
    (ha : md.FieldSearch name start a) (hb : md.FieldSearch name start b) : a = b := by
  induction ha with
  | exhausted =>
    cases hb with
    | exhausted => rfl
  | found hsome =>
    cases hb with
    | found hsome' => exact hsome.symm.trans hsome'
    | next hnone => cases hnone.symm.trans hsome
  | next hnone _ ih =>
    cases hb with
    | found hsome => cases hnone.symm.trans hsome
    | next _ hb => exact ih hb

/-- The search goes along the chain of bases. -/
theorem Ancestry.fieldSearch {ts : List TypeRef} (hts : md.Ancestry t ts) (name : MemberName) :
    md.FieldSearch name (some t) (ts.findSome? fun u => md.ownField u name) := by
  induction hts with
  | @root t hnone =>
    cases hown : md.ownField t name with
    | some f => simpa [hown] using FieldSearch.found hown
    | none =>
      refine .next hown ?_
      simpa [hnone, hown] using FieldSearch.exhausted
  | @derived t b ts hsome _ ih =>
    cases hown : md.ownField t name with
    | some f => simpa [hown] using FieldSearch.found hown
    | none =>
      refine .next hown ?_
      simpa [hsome, hown] using ih

/-- Where bases come first, every search ends, and its answer is the field that is found. -/
theorem BasesFirst.fieldSearch_iff (h : md.BasesFirst) {answer : Option FieldRef} :
    md.FieldSearch name (some t) answer ↔ answer = md.findField t name := by
  have hsearch : md.FieldSearch name (some t) (md.findField t name) :=
    (h.ancestry t).fieldSearch name
  constructor
  · exact fun hanswer => hanswer.unique hsearch
  · rintro rfl
    exact hsearch

/-- A type that has the field itself need not ask its base. -/
theorem findField_of_ownField {f : FieldRef} (h : md.ownField t name = some f) :
    md.findField t name = some f := by
  rw [findField, baseChain, List.findSome?_cons, h]

/-! ## Bases come first -/

/-- Adding a method leaves the bases of all types as they are. -/
theorem base_addMethod (method : Method) :
    ((md.addMethod method).type t).base = (md.type t).base := by
  rw [type_addMethod]
  split <;> rfl

/-- Declaring a field leaves the bases of all types as they are. -/
theorem base_declareField (field : Field) :
    ((md.declareField field).2.type t).base = (md.type t).base := by
  rw [type_declareField]
  split <;> rfl

/-- A type whose base is declared already comes behind it. -/
theorem BasesFirst.declareType (h : md.BasesFirst) {decl : TypeDecl}
    (hbase : ∀ b, decl.base = some b → b.index < md.types.length) :
    (md.declareType decl).2.BasesFirst := by
  intro t b hb
  rw [type_declareType] at hb
  split at hb
  · next ht =>
    rw [ht]
    exact hbase b hb
  · exact h t b hb

/-- Declaring a method keeps bases first. -/
theorem BasesFirst.declareMethod (h : md.BasesFirst) (method : Method) :
    (md.declareMethod method).2.BasesFirst := by
  rcases md.declareMethod_cases method with ⟨m, -, -, hsame⟩ | ⟨-, hnew⟩
  · rwa [hsame]
  · rw [hnew]
    intro t b hb
    rw [base_addMethod] at hb
    exact h t b hb

/-- Declaring a field keeps bases first. -/
theorem BasesFirst.declareField (h : md.BasesFirst) (field : Field) :
    (md.declareField field).2.BasesFirst := by
  intro t b hb
  rw [base_declareField] at hb
  exact h t b hb

end Metadata

namespace Registry

variable {M : NameMap} {r r' : Registry M} {t : TypeRef} {name : MemberName} {f : FieldRef}

/-- One declaration in scope keeps bases first. -/
theorem Consistent.basesFirst_declare (h : r.Consistent) (hfirst : r.md.BasesFirst)
    {d : Declaration} (hscope : r.InScope d) : (r.declare d).md.BasesFirst := by
  cases d with
  | type decl => exact hfirst.declareType fun b hb => h.hasType_lt b (hscope b hb)
  | method method => exact hfirst.declareMethod method
  | field field => exact hfirst.declareField field

/-- In a registry that was reached by declarations in scope, bases come first. -/
theorem basesFirst_run (hrun : ReflTransGen Step {} r) : r.md.BasesFirst := by
  induction hrun with
  | refl => exact fun t b hb => by cases hb
  | tail hrun hstep ih =>
    obtain ⟨d, hscope, rfl⟩ := hstep
    exact (Consistent.empty.run hrun).basesFirst_declare ih hscope

/-! ## Declared fields -/

/-- A field was declared with the name on the type itself. -/
def DeclaresField (r : Registry M) (t : TypeRef) (name : MemberName) : Prop :=
  ∃ entry ∈ r.fields, entry.1.declaring = t ∧ entry.1.name = name

/-- The field is the first that was declared with the name on the type itself. -/
def FirstField (r : Registry M) (t : TypeRef) (name : MemberName) (f : FieldRef) : Prop :=
  ∃ before field behind, r.fields = before ++ (field, f) :: behind ∧ field.declaring = t ∧
    field.name = name ∧ ∀ entry ∈ before, ¬ (entry.1.declaring = t ∧ entry.1.name = name)

namespace Consistent

/-- A handle stands for the field that was declared when it was given out. -/
theorem field_eq (h : r.Consistent) {entry : Field × FieldRef} (hentry : entry ∈ r.fields) :
    r.md.field entry.2 = entry.1 := by
  obtain ⟨k, b, hk, hb, rfl⟩ := h.fields.entry entry.1 entry.2 hentry
  rw [hk]
  exact congrArg (·.getD default) hb

/-- The own field of a type is the first of the log that was declared for the type with the name. -/
theorem ownField_eq (h : r.Consistent) :
    r.md.ownField t name =
      (r.fields.find? fun entry =>
        decide (entry.1.declaring = t ∧ entry.1.name = name)).map (·.2) := by
  rw [Metadata.ownField, h.fields.find?_listed]
  refine congrArg (Option.map _) ?_
  rw [← List.head?_filter, ← List.head?_filter]
  refine congrArg List.head? (List.filter_congr fun entry hentry => ?_)
  rw [h.field_eq hentry, Bool.decide_and]
  rfl

/-- On the type itself the first field with the name is found. -/
theorem ownField_eq_some (h : r.Consistent) :
    r.md.ownField t name = some f ↔ r.FirstField t name f := by
  rw [h.ownField_eq, Option.map_eq_some_iff]
  constructor
  · rintro ⟨⟨field, _⟩, hfind, rfl⟩
    obtain ⟨hfield, before, behind, hlog, hbefore⟩ := List.find?_eq_some_iff_append.1 hfind
    obtain ⟨hdeclaring, hname⟩ := of_decide_eq_true hfield
    refine ⟨before, field, behind, hlog, hdeclaring, hname, fun entry hentry => ?_⟩
    exact of_decide_eq_false (Bool.not_eq_eq_eq_not.1 (hbefore entry hentry))
  · rintro ⟨before, field, behind, hlog, hdeclaring, hname, hbefore⟩
    refine ⟨(field, f), List.find?_eq_some_iff_append.2 ⟨?_, before, behind, hlog, ?_⟩, rfl⟩
    · exact decide_eq_true ⟨hdeclaring, hname⟩
    · exact fun entry hentry => Bool.not_eq_eq_eq_not.2 (decide_eq_false (hbefore entry hentry))

/-- On the type itself nothing is found exactly if no field was declared with the name. -/
theorem ownField_eq_none (h : r.Consistent) :
    r.md.ownField t name = none ↔ ¬ r.DeclaresField t name := by
  rw [h.ownField_eq, Option.map_eq_none_iff, List.find?_eq_none]
  simp [DeclaresField]

end Consistent

/-- Later declarations come behind the fields that are declared. -/
theorem fields_run (hrun : ReflTransGen Step r r') : r.fields <+: r'.fields := by
  induction hrun with
  | refl => exact List.prefix_refl _
  | tail _ hstep ih =>
    obtain ⟨d, -, rfl⟩ := hstep
    refine ih.trans ?_
    cases d with
    | type decl => exact List.prefix_refl _
    | method method => exact List.prefix_refl _
    | field field => exact List.prefix_append _ _

/-- The first field with a name stays the first. -/
theorem FirstField.run (h : r.FirstField t name f) (hrun : ReflTransGen Step r r') :
    r'.FirstField t name f := by
  obtain ⟨before, field, behind, hlog, hfield⟩ := h
  obtain ⟨later, hlater⟩ := fields_run hrun
  refine ⟨before, field, behind ++ later, ?_, hfield⟩
  rw [← hlater, hlog, List.append_assoc, List.cons_append]

/-- In a reached registry every chain of bases ends and repeats no type. So the search for a field
ends, at any type, with one answer: the first field that was declared with the name on the nearest
type of the chain that has one, and none exactly when no type of the chain has one. Once a type has
a field of the name itself, the answer for the type is the same ever after. -/
theorem findField_nearest (hrun : ReflTransGen Step {} r) (t : TypeRef) (name : MemberName) :
    (∀ chain, r.md.Ancestry t chain ↔ chain = r.md.baseChain t) ∧ (r.md.baseChain t).Nodup ∧
    (∀ answer, r.md.FieldSearch name (some t) answer ↔ answer = r.md.findField t name) ∧
    (∀ f, r.md.findField t name = some f ↔
      ∃ nearer u further, r.md.baseChain t = nearer ++ u :: further ∧ r.FirstField u name f ∧
        ∀ v ∈ nearer, ¬ r.DeclaresField v name) ∧
    (r.md.findField t name = none ↔ ∀ u ∈ r.md.baseChain t, ¬ r.DeclaresField u name) ∧
    (r.DeclaresField t name → ∀ r', ReflTransGen Step r r' →
      r'.md.findField t name = r.md.findField t name) := by
  have h : r.Consistent := Consistent.empty.run hrun
  have hbases := basesFirst_run hrun
  have hchain := hbases.ancestry t
  refine ⟨fun chain => ⟨fun hts => hts.unique hchain, ?_⟩, hchain.nodup hbases,
    fun answer => hbases.fieldSearch_iff, fun f => ?_, ?_, fun hdeclares r' hlater => ?_⟩
  · rintro rfl
    exact hchain
  · rw [Metadata.findField, List.findSome?_eq_some_iff]
    simp only [h.ownField_eq_some, h.ownField_eq_none]
  · rw [Metadata.findField, List.findSome?_eq_none_iff]
    simp only [h.ownField_eq_none]
  · obtain ⟨f, hf⟩ := Option.ne_none_iff_exists'.1 fun hnone => h.ownField_eq_none.1 hnone hdeclares
    have hf' : r'.md.ownField t name = some f :=
      (h.run hlater).ownField_eq_some.2 ((h.ownField_eq_some.1 hf).run hlater)
    rw [Metadata.findField_of_ownField hf, Metadata.findField_of_ownField hf']

/-- A number field of the type. -/
def numberField (declaring : TypeRef) : Field where
  declaring := declaring
  name := .constructor
  type := .base .int32
  attributes := .ofBits _ 0x6

/-- Three types, each the base of the next. The first has a field, the second has two of the same
name, and the third has none. -/
def shadowing : Registry pairMap :=
  ({} : Registry pairMap)
    |>.declare (.type { name := .object, base := none, attributes := .ofBits _ 0x1 })
    |>.declare (.type { name := .object, base := some ⟨0⟩, attributes := .ofBits _ 0x1 })
    |>.declare (.type { name := .object, base := some ⟨1⟩, attributes := .ofBits _ 0x1 })
    |>.declare (.field (numberField ⟨0⟩))
    |>.declare (.field (numberField ⟨1⟩))
    |>.declare (.field (numberField ⟨1⟩))

/-- The third type has the first of the two fields of its base. A field of its own would be another
answer for it, and the same answer for its base. -/
theorem findField_nearest_shadowing :
    ReflTransGen Step {} shadowing ∧ shadowing.md.baseChain ⟨2⟩ = [⟨2⟩, ⟨1⟩, ⟨0⟩] ∧
      shadowing.md.findField ⟨2⟩ .constructor = some ⟨1⟩ ∧
      shadowing.md.FieldSearch .constructor (some ⟨2⟩) (some ⟨1⟩) ∧
      (shadowing.declare (.field (numberField ⟨2⟩))).md.findField ⟨1⟩ .constructor =
        shadowing.md.findField ⟨1⟩ .constructor := by
  have hrun : ReflTransGen Step {} shadowing := by
    refine .head ⟨_, ?_, rfl⟩ <| .head ⟨_, ?_, rfl⟩ <| .head ⟨_, ?_, rfl⟩ <| .head ⟨_, ?_, rfl⟩ <|
      .head ⟨_, ?_, rfl⟩ <| .head ⟨_, ?_, rfl⟩ .refl
    · nofun
    · rintro _ ⟨⟩
      exact ⟨_, List.mem_cons_self⟩
    · rintro _ ⟨⟩
      exact ⟨_, List.mem_cons_of_mem _ List.mem_cons_self⟩
    · exact ⟨_, List.mem_cons_self⟩
    · exact ⟨_, List.mem_cons_of_mem _ List.mem_cons_self⟩
    · exact ⟨_, List.mem_cons_of_mem _ List.mem_cons_self⟩
  have hlater : ReflTransGen Step shadowing (shadowing.declare (.field (numberField ⟨2⟩))) := by
    refine .single ⟨_, ?_, rfl⟩
    exact ⟨_, List.mem_cons_of_mem _ (List.mem_cons_of_mem _ List.mem_cons_self)⟩
  obtain ⟨hchain, -, hsearch, hsome, -, -⟩ := findField_nearest hrun ⟨2⟩ .constructor
  obtain ⟨-, -, -, -, -, hsame⟩ := findField_nearest hrun ⟨1⟩ .constructor
  have hbases : shadowing.md.baseChain ⟨2⟩ = [⟨2⟩, ⟨1⟩, ⟨0⟩] :=
    ((hchain _).1 (.derived rfl (.derived rfl (.root rfl)))).symm
  have hfirst : shadowing.FirstField ⟨1⟩ .constructor ⟨1⟩ := by
    refine ⟨[(numberField ⟨0⟩, ⟨0⟩)], numberField ⟨1⟩, [(numberField ⟨1⟩, ⟨2⟩)], rfl, rfl, rfl, ?_⟩
    decide
  have hnone : ¬ shadowing.DeclaresField ⟨2⟩ .constructor := by
    unfold DeclaresField
    decide
  have hfound : shadowing.md.findField ⟨2⟩ .constructor = some ⟨1⟩ := by
    refine (hsome ⟨1⟩).2 ⟨[⟨2⟩], ⟨1⟩, [⟨0⟩], hbases, hfirst, ?_⟩
    exact List.forall_mem_singleton.2 hnone
  have hown : shadowing.DeclaresField ⟨1⟩ .constructor :=
    ⟨(numberField ⟨1⟩, ⟨1⟩), by decide, rfl, rfl⟩
  exact ⟨hrun, hbases, hfound, (hsearch _).2 hfound.symm, hsame hown _ hlater⟩

end Registry

end Weaving
