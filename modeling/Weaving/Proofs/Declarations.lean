import Weaving.Metadata.Basic

/-!
# Histories of declarations

Metadata comes from none by declaring types, methods and fields one after the other
(`Metadata.ofDeclarations`), with declaring types that need not be there yet or ever. What holds of
no declarations and survives each one holds after every history (`ofDeclarations_induction`). What
a declaration does is said once for each kind: a type gets no members (`type_declareType`), and a
method is one that is there already or gets the next handle (`declareMethod_cases`). The methods
that a type lists are methods that were declared for it (`MethodsOwned`).
-/

namespace Weaving

/-- The declaration of a type, a method or a field. -/
inductive Declaration where
  | type (decl : TypeDecl)
  | method (method : Method)
  | field (field : Field)

namespace Metadata

/-- The metadata with one declaration more. -/
def declare (md : Metadata) : Declaration → Metadata
  | .type decl => (md.declareType decl).2
  | .method method => (md.declareMethod method).2
  | .field field => (md.declareField field).2

/-- The metadata after the declarations. -/
def ofDeclarations (ds : List Declaration) : Metadata := ds.foldl declare .empty

/-- What holds of no declarations and survives each one holds after all of them. -/
theorem ofDeclarations_induction {I : Metadata → Prop} (hempty : I .empty)
    (hstep : ∀ md d, I md → I (md.declare d)) (ds : List Declaration) :
    I (ofDeclarations ds) := by
  have hrun : ∀ md, I md → I (ds.foldl declare md) := by
    induction ds with
    | nil => exact fun _ h => h
    | cons d ds ih => exact fun md h => ih (md.declare d) (hstep md d h)
  exact hrun .empty hempty

/-! ## Entries after a declaration -/

section
variable (md : Metadata) (t : TypeRef)

/-- Only the entry of the changed type changes. -/
theorem type_modifyType (u : TypeRef) (f : TypeEntry → TypeEntry) :
    (md.modifyType u f).type t =
      if u = t ∧ t.index < md.types.length then f (md.type t) else md.type t := by
  unfold type modifyType
  dsimp only
  rw [List.getElem?_modify]
  by_cases ht : t.index < md.types.length
  · rw [List.getElem?_eq_getElem ht]
    cases u
    cases t
    simp [ht]
  · rw [List.getElem?_eq_none (Nat.le_of_not_lt ht)]
    simp [ht]

/-- A list that the change lengthens is longer in the entry of the changed type alone. -/
theorem list_type_modifyType {β : Type} {u : TypeRef} {f : TypeEntry → TypeEntry}
    (list : TypeEntry → List β) {more : List β} (hf : ∀ entry, list (f entry) = list entry ++ more)
    (h : u.index < md.types.length) :
    list ((md.modifyType u f).type t) = list (md.type t) ++ if u = t then more else [] := by
  rw [type_modifyType]
  by_cases ht : u = t
  · rw [if_pos ⟨ht, ht ▸ h⟩, if_pos ht, hf]
  · rw [if_neg fun hand => ht hand.1, if_neg ht, List.append_nil]

/-- A new type has no members, and it gets a handle that stood for no type. -/
theorem type_declareType (decl : TypeDecl) :
    (md.declareType decl).2.type t =
      if t.index = md.types.length then { toTypeDecl := decl } else md.type t := by
  unfold type declareType
  dsimp only
  rcases Nat.lt_trichotomy t.index md.types.length with h | h | h
  · rw [List.getElem?_append_left h, if_neg (Nat.ne_of_lt h)]
  · rw [h, List.getElem?_concat_length, if_pos rfl]
    rfl
  · rw [List.getElem?_eq_none (Nat.le_of_lt h), List.getElem?_eq_none, if_neg (Nat.ne_of_gt h)]
    rw [List.length_append]
    exact h

/-- A handle behind all types stands for a type that has nothing. -/
theorem type_of_length_le (h : md.types.length ≤ t.index) : md.type t = default := by
  rw [type, List.getElem?_eq_none h]
  rfl

/-- Declaring a type leaves the members of all types as they are. -/
theorem members_type_declareType (decl : TypeDecl) :
    ((md.declareType decl).2.type t).methods = (md.type t).methods ∧
      ((md.declareType decl).2.type t).fields = (md.type t).fields := by
  rw [type_declareType]
  split
  · next h =>
    rw [md.type_of_length_le t (Nat.le_of_eq h.symm)]
    exact ⟨rfl, rfl⟩
  · exact ⟨rfl, rfl⟩

/-- The type that declares a field lists it last, and no other type changes. -/
theorem type_declareField (field : Field) :
    (md.declareField field).2.type t =
      if field.declaring = t ∧ t.index < md.types.length then
        { md.type t with fields := (md.type t).fields ++ [⟨md.fields.length⟩] }
      else md.type t :=
  type_modifyType { md with fields := md.fields ++ [field] } t field.declaring _

/-- Each type lists the fields that it listed before, and the new one if it declares that. -/
theorem fields_type_declareField {field : Field} (h : field.declaring.index < md.types.length) :
    ((md.declareField field).2.type t).fields =
      (md.type t).fields ++ if field.declaring = t then [⟨md.fields.length⟩] else [] :=
  list_type_modifyType { md with fields := md.fields ++ [field] } t (·.fields) (fun _ => rfl) h

/-- Declaring a field leaves the methods of all types as they are. -/
theorem methods_type_declareField (field : Field) :
    ((md.declareField field).2.type t).methods = (md.type t).methods := by
  rw [type_declareField]
  split <;> rfl

end

end Metadata

/-- The methods agree in what tells overloads apart. -/
structure Method.Agrees (m n : Method) : Prop where
  name : m.name = n.name
  signature : m.signature = n.signature
  generics : m.generics = n.generics
  isStatic : m.isStatic = n.isStatic

namespace Method

/-- Overloads are compared by name, signature, generic arguments and whether they are static. -/
theorem sameOverload_iff {m n : Method} : m.sameOverload n = true ↔ m.Agrees n := by
  simp only [sameOverload, Bool.and_eq_true, beq_iff_eq]
  constructor
  · rintro ⟨⟨⟨hname, hsignature⟩, hgenerics⟩, hstatic⟩
    exact ⟨hname, hsignature, hgenerics, hstatic⟩
  · rintro ⟨hname, hsignature, hgenerics, hstatic⟩
    exact ⟨⟨⟨hname, hsignature⟩, hgenerics⟩, hstatic⟩

/-- Every method agrees with itself. -/
theorem Agrees.refl (m : Method) : m.Agrees m := ⟨rfl, rfl, rfl, rfl⟩

/-- The order of two methods that agree does not matter. -/
theorem Agrees.symm {m n : Method} (h : m.Agrees n) : n.Agrees m :=
  ⟨h.name.symm, h.signature.symm, h.generics.symm, h.isStatic.symm⟩

/-- Methods that agree with one method agree with each other. -/
theorem Agrees.trans {m n k : Method} (h : m.Agrees n) (h' : n.Agrees k) : m.Agrees k :=
  ⟨h.name.trans h'.name, h.signature.trans h'.signature, h.generics.trans h'.generics,
    h.isStatic.trans h'.isStatic⟩

end Method

namespace Metadata

/-- The metadata with one method more, which its declaring type lists last. -/
def addMethod (md : Metadata) (method : Method) : Metadata :=
  { md with methods := md.methods ++ [method] }.modifyType method.declaring
    fun t => { t with methods := t.methods ++ [MethodRef.mk md.methods.length] }

/-- A declared method is one that its declaring type has already, or there is none that agrees with
it and it gets the next handle. -/
theorem declareMethod_cases (md : Metadata) (method : Method) :
    (∃ m ∈ (md.type method.declaring).methods, (md.method m).Agrees method ∧
        md.declareMethod method = (m, md)) ∨
      (∀ m ∈ (md.type method.declaring).methods, ¬ (md.method m).Agrees method) ∧
        md.declareMethod method = (⟨md.methods.length⟩, md.addMethod method) := by
  unfold declareMethod
  split
  · next m hfound =>
    refine .inl ⟨m, List.mem_of_find?_eq_some hfound, ?_, rfl⟩
    exact Method.sameOverload_iff.1
      (List.find?_some (p := fun m => (md.method m).sameOverload method) hfound)
  · next hnone =>
    refine .inr ⟨fun m hm hagrees => ?_, rfl⟩
    exact List.find?_eq_none.1 hnone m hm (Method.sameOverload_iff.2 hagrees)

section
variable (md : Metadata) (method : Method)

/-- The type that declares a method lists it last, and no other type changes. -/
theorem type_addMethod (t : TypeRef) :
    (md.addMethod method).type t =
      if method.declaring = t ∧ t.index < md.types.length then
        { md.type t with methods := (md.type t).methods ++ [⟨md.methods.length⟩] }
      else md.type t :=
  type_modifyType { md with methods := md.methods ++ [method] } t method.declaring _

/-- A method that is added comes behind all others. -/
theorem methods_addMethod : (md.addMethod method).methods = md.methods ++ [method] := rfl

/-- Each type lists the methods that it listed before, and the new one if it declares that. -/
theorem methods_type_addMethod {method : Method} (h : method.declaring.index < md.types.length)
    (t : TypeRef) :
    ((md.addMethod method).type t).methods =
      (md.type t).methods ++ if method.declaring = t then [⟨md.methods.length⟩] else [] :=
  list_type_modifyType { md with methods := md.methods ++ [method] } t (·.methods) (fun _ => rfl) h

/-- Adding a method leaves the fields of all types as they are. -/
theorem fields_type_addMethod (t : TypeRef) :
    ((md.addMethod method).type t).fields = (md.type t).fields := by
  rw [type_addMethod]
  split <;> rfl

/-- A method is the one at the index of its handle. -/
theorem method_of_getElem? {k : Nat} {method : Method} (h : md.methods[k]? = some method) :
    md.method ⟨k⟩ = method := by
  rw [Metadata.method, h, Option.getD_some]

/-- Handles that were given out before stand for the methods that they stood for. -/
theorem method_addMethod_of_lt {m : MethodRef} (h : m.index < md.methods.length) :
    (md.addMethod method).method m = md.method m := by
  rw [Metadata.method, methods_addMethod, List.getElem?_append_left h, Metadata.method]

/-- The next handle stands for the method that is added. -/
theorem method_addMethod_length : (md.addMethod method).method ⟨md.methods.length⟩ = method :=
  method_of_getElem? _ List.getElem?_concat_length

end

/-! ## Methods listed by their types -/

/-- Every method that a type lists is a declared method of that type. -/
def MethodsOwned (md : Metadata) : Prop :=
  ∀ t m, m ∈ (md.type t).methods → m.index < md.methods.length ∧ (md.method m).declaring = t

/-- Declaring a method lists it at the type that declares it, or nowhere. -/
theorem MethodsOwned.declareMethod {md : Metadata} (h : md.MethodsOwned) (method : Method) :
    (md.declareMethod method).2.MethodsOwned := by
  rcases md.declareMethod_cases method with ⟨m, -, -, hsame⟩ | ⟨-, hnew⟩
  · rwa [hsame]
  rw [hnew]
  -- what was listed before has a lower handle than the new method
  have hold : ∀ t m, m ∈ (md.type t).methods → m.index < (md.addMethod method).methods.length ∧
      ((md.addMethod method).method m).declaring = t := by
    intro t m hm
    obtain ⟨hindex, howner⟩ := h t m hm
    rw [md.method_addMethod_of_lt method hindex]
    rw [methods_addMethod, List.length_append]
    exact ⟨Nat.lt_add_right _ hindex, howner⟩
  intro t m hm
  rw [type_addMethod] at hm
  split at hm
  · next hdeclaring =>
    rcases List.mem_append.1 hm with hm | hm
    · exact hold t m hm
    · rw [List.mem_singleton.1 hm, md.method_addMethod_length method]
      rw [methods_addMethod, List.length_append]
      exact ⟨Nat.lt_succ_self _, hdeclaring.1⟩
  · exact hold t m hm

/-- No declaration lists a method at a type that does not declare it. -/
theorem MethodsOwned.declare {md : Metadata} (h : md.MethodsOwned) (d : Declaration) :
    (md.declare d).MethodsOwned := by
  cases d with
  | type decl =>
    intro t m hm
    rw [Metadata.declare, (members_type_declareType _ _ _).1] at hm
    exact h t m hm
  | method method => exact h.declareMethod method
  | field field =>
    intro t m hm
    rw [Metadata.declare, methods_type_declareField] at hm
    exact h t m hm

/-- After every history, types list methods of their own. -/
theorem methodsOwned_ofDeclarations (ds : List Declaration) : (ofDeclarations ds).MethodsOwned :=
  ofDeclarations_induction (fun _ _ hm => absurd hm List.not_mem_nil) (fun _ d h => h.declare d) ds

end Metadata

end Weaving
