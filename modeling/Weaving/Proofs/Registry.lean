import Mathlib.Data.List.Nodup
import Mathlib.Logic.Relation
import Weaving.Proofs.Declarations

/-!
# What declarations leave in the lists of the types

A `Registry` keeps, beside the metadata, every declaration together with the handle that it got, and
a map in which types are looked up by their names. A step makes one declaration whose base or
declaring type is a handle that was got before (`Registry.InScope`), and a registry is reached by
such steps from the empty one. What is true of all reached registries is `Registry.Consistent`: each
kind of declaration keeps it (`Consistent.declare`), and the lists of methods and of fields follow
the same argument, which is made once for a `Roster`. Any map will do that keeps what was inserted
first (`NameMap.KeepsFirst`): looking up a name in it gives what `Metadata.findType` gives
(`get_names_run`).
-/

namespace Weaving

open Relation (ReflTransGen)

/-! ## Members and their handles -/

/-- A kind of members: the handle for a place among the entries, the type that a declaration is
for, and when an entry is what a declaration asks for. -/
structure MemberKind (α ρ : Type) where
  handle : Nat → ρ
  owner : α → TypeRef
  Answers : α → α → Prop
  handle_inj : ∀ {i j}, handle i = handle j → i = j
  answers_self : ∀ a, Answers a a
  owner_eq : ∀ {entry a}, Answers entry a → owner entry = owner a

namespace MemberKind

/-- A method is the overload that was asked for, whatever else its attributes are. -/
def methods : MemberKind Method MethodRef where
  handle := .mk
  owner := Method.declaring
  Answers entry method := entry.declaring = method.declaring ∧ entry.Agrees method
  handle_inj h := congrArg MethodRef.index h
  answers_self method := ⟨rfl, .refl method⟩
  owner_eq h := h.1

/-- A field is what was declared. -/
def fields : MemberKind Field FieldRef where
  handle := .mk
  owner := Field.declaring
  Answers := Eq
  handle_inj h := congrArg FieldRef.index h
  answers_self _ := rfl
  owner_eq h := congrArg Field.declaring h

variable {α ρ : Type} (kind : MemberKind α ρ)

/-- The handles that declarations for the type got, in the order of the declarations. -/
def handlesFor (log : List (α × ρ)) (t : TypeRef) : List ρ :=
  (log.filter fun entry => kind.owner entry.1 = t).map (·.2)

variable {kind} {log : List (α × ρ)} {t : TypeRef} {r : ρ}

/-- The handles for a type are those that some declaration for it got. -/
theorem mem_handlesFor : r ∈ kind.handlesFor log t ↔ ∃ a, (a, r) ∈ log ∧ kind.owner a = t := by
  simp [handlesFor]

/-- One declaration more gives its handle to the type that it is for. -/
theorem handlesFor_concat (a : α) :
    kind.handlesFor (log ++ [(a, r)]) t =
      kind.handlesFor log t ++ if kind.owner a = t then [r] else [] := by
  rw [handlesFor, List.filter_append, List.map_append, ← handlesFor]
  split <;> simp [*]

end MemberKind

/-! ## Rosters -/

section
variable {α ρ : Type} [DecidableEq ρ]

/-- Of the elements of some kind the first places stay the first ones. -/
theorem eraseDups_filter (p : ρ → Bool) (l : List ρ) :
    (l.filter p).eraseDups = l.eraseDups.filter p := by
  induction hn : l.length using Nat.strongRecOn generalizing l with
  | ind n ih =>
    cases l with
    | nil => rfl
    | cons a l =>
      have hshorter : (l.filter fun b => !b == a).length < n :=
        Nat.lt_of_le_of_lt (List.length_filter_le _ l) (hn ▸ Nat.lt_succ_self _)
      rw [List.eraseDups_cons, List.filter_cons, List.filter_cons, ← ih _ hshorter _ rfl,
        List.filter_filter]
      split
      · rw [List.eraseDups_cons, List.filter_filter]
        simp only [Bool.and_comm]
      · next ha =>
        -- the element that is left out was of no account before either
        refine congrArg List.eraseDups (List.filter_congr fun b _ => ?_)
        by_cases hb : b = a <;> simp_all

/-- The first element is not a repetition. -/
theorem head?_eraseDups (l : List ρ) : l.eraseDups.head? = l.head? := by
  cases l with
  | nil => rfl
  | cons a l => rw [List.eraseDups_cons, List.head?_cons, List.head?_cons]

/-- The types list the members that were declared for them, each once and in the order of their
first declaration, and the entries behind the handles answer the declarations that got them. -/
structure Roster (kind : MemberKind α ρ) (log : List (α × ρ)) (entries : List α)
    (listed : TypeRef → List ρ) : Prop where
  listed_eq : ∀ t, listed t = (kind.handlesFor log t).eraseDups
  distinct : ∀ t, (listed t).Nodup
  entry : ∀ a r, (a, r) ∈ log → ∃ k b, r = kind.handle k ∧ entries[k]? = some b ∧ kind.Answers b a

namespace Roster

variable {kind : MemberKind α ρ} {log : List (α × ρ)} {entries : List α}
  {listed listed' : TypeRef → List ρ} {a : α} {r : ρ} {t : TypeRef}

/-- Without declarations no type has members. -/
theorem empty : Roster kind [] [] fun _ => [] where
  listed_eq _ := rfl
  distinct _ := List.nodup_nil
  entry _ _ h := absurd h List.not_mem_nil

/-- Only what is listed counts, and not how the lists are given. -/
theorem congr (h : Roster kind log entries listed) (hlisted : ∀ t, listed' t = listed t) :
    Roster kind log entries listed' :=
  funext hlisted ▸ h

/-- A type lists exactly the handles that declarations for it got. -/
theorem mem_listed (h : Roster kind log entries listed) :
    r ∈ listed t ↔ ∃ a, (a, r) ∈ log ∧ kind.owner a = t := by
  rw [h.listed_eq, List.mem_eraseDups, MemberKind.mem_handlesFor]

/-- A type lists members of its own. -/
theorem entry_of_mem (h : Roster kind log entries listed) (hr : r ∈ listed t) :
    ∃ k b, r = kind.handle k ∧ entries[k]? = some b ∧ kind.owner b = t := by
  obtain ⟨a, ha, rfl⟩ := h.mem_listed.1 hr
  obtain ⟨k, b, hk, hb, hanswers⟩ := h.entry a r ha
  exact ⟨k, b, hk, hb, kind.owner_eq hanswers⟩

/-- The handle of a declaration is once in the list of its type and in no other list. -/
theorem count_eq (h : Roster kind log entries listed) (ha : (a, r) ∈ log) (t : TypeRef) :
    (listed t).count r = if t = kind.owner a then 1 else 0 := by
  split
  · next howner =>
    exact List.count_eq_one_of_mem (h.distinct t) (h.mem_listed.2 ⟨a, ha, howner.symm⟩)
  · next howner =>
    refine List.count_eq_zero.2 fun hr => howner ?_
    -- the handle has one entry, and that has one owner
    obtain ⟨k, b, rfl, hb, rfl⟩ := h.entry_of_mem hr
    obtain ⟨k', b', hk, hb', hanswers⟩ := h.entry a _ ha
    rw [← kind.handle_inj hk, hb] at hb'
    cases hb'
    exact kind.owner_eq hanswers

/-- The handles of a type are those of all declarations that the type lists. -/
theorem handlesFor_eq (h : Roster kind log entries listed) (t : TypeRef) :
    kind.handlesFor log t = (log.map (·.2)).filter (· ∈ listed t) := by
  rw [MemberKind.handlesFor, List.filter_map]
  refine congrArg (List.map _) (List.filter_congr fun entry hentry => decide_eq_decide.2 ?_)
  constructor
  · intro howner
    exact h.mem_listed.2 ⟨entry.1, hentry, howner⟩
  · intro hr
    have hcount := h.count_eq hentry t
    rw [List.count_eq_one_of_mem (h.distinct t) hr] at hcount
    by_contra howner
    rw [if_neg fun heq => howner heq.symm] at hcount
    cases hcount

/-- The listed members of some kind are those of the log, each at its first place. -/
theorem filter_listed (h : Roster kind log entries listed) (t : TypeRef) (p : ρ → Bool) :
    (listed t).filter p =
      ((log.map (·.2)).filter fun r => decide (r ∈ listed t) && p r).eraseDups := by
  have hfilter : ((log.map (·.2)).filter fun r => decide (r ∈ listed t) && p r) =
      (kind.handlesFor log t).filter p := by
    rw [h.handlesFor_eq, List.filter_filter]
    exact List.filter_congr fun r _ => Bool.and_comm _ _
  rw [hfilter, eraseDups_filter, ← h.listed_eq]

/-- The first listed member of some kind is the first of the log. -/
theorem find?_listed (h : Roster kind log entries listed) (t : TypeRef) (p : ρ → Bool) :
    (listed t).find? p =
      (log.find? fun entry => decide (kind.owner entry.1 = t) && p entry.2).map (·.2) := by
  rw [h.listed_eq, ← List.head?_filter, ← eraseDups_filter, head?_eraseDups,
    MemberKind.handlesFor, List.filter_map, List.head?_map, List.filter_filter, List.head?_filter]
  refine congrArg (Option.map _) (congrArg (List.find? · log) (funext fun entry => ?_))
  exact Bool.and_comm _ _

/-- A declaration that is answered by a member of its type changes no list. -/
theorem again (h : Roster kind log entries listed) (hr : r ∈ listed (kind.owner a))
    (hanswers : ∃ k b, r = kind.handle k ∧ entries[k]? = some b ∧ kind.Answers b a) :
    Roster kind (log ++ [(a, r)]) entries listed where
  listed_eq t := by
    rw [MemberKind.handlesFor_concat]
    split
    · next howner =>
      have hmem : r ∈ kind.handlesFor log t := by
        rwa [howner, h.listed_eq, List.mem_eraseDups] at hr
      rw [h.listed_eq, List.eraseDups_append]
      simp [List.removeAll, hmem]
    · rw [List.append_nil, h.listed_eq]
  distinct := h.distinct
  entry a' r' hmem := by
    rcases List.mem_append.1 hmem with hmem | hmem
    · exact h.entry a' r' hmem
    · cases List.mem_singleton.1 hmem
      exact hanswers

/-- A member that is new is last in the list of its type. -/
theorem new (h : Roster kind log entries listed) (a : α)
    (hlisted : ∀ t, listed' t =
      listed t ++ if kind.owner a = t then [kind.handle entries.length] else []) :
    Roster kind (log ++ [(a, kind.handle entries.length)]) (entries ++ [a]) listed' := by
  -- no list has the new handle yet
  have hfresh : ∀ t, kind.handle entries.length ∉ listed t := by
    intro t hmem
    obtain ⟨k, b, hk, hb, -⟩ := h.entry_of_mem hmem
    rw [← kind.handle_inj hk, List.getElem?_eq_none (Nat.le_refl _)] at hb
    cases hb
  refine ⟨fun t => ?_, fun t => ?_, fun a' r hmem => ?_⟩
  · rw [hlisted, MemberKind.handlesFor_concat, List.eraseDups_append, ← h.listed_eq]
    split
    · have hnew : kind.handle entries.length ∉ kind.handlesFor log t := by
        rw [← List.mem_eraseDups, ← h.listed_eq]
        exact hfresh t
      simp [List.removeAll, hnew, List.eraseDups_cons]
    · simp [List.removeAll]
  · rw [hlisted]
    split
    · exact List.nodup_append.2 ⟨h.distinct t, List.nodup_singleton _, fun r hr r' hr' heq =>
        hfresh t (List.mem_singleton.1 hr' ▸ heq ▸ hr)⟩
    · rw [List.append_nil]
      exact h.distinct t
  · rcases List.mem_append.1 hmem with hmem | hmem
    · obtain ⟨k, b, hk, hb, hanswers⟩ := h.entry a' r hmem
      have hlt := (List.getElem?_eq_some_iff.1 hb).1
      exact ⟨k, b, hk, (List.getElem?_append_left hlt).trans hb, hanswers⟩
    · cases List.mem_singleton.1 hmem
      exact ⟨_, a, rfl, List.getElem?_concat_length, kind.answers_self a⟩

end Roster

end

/-! ## Look-up by name -/

namespace Metadata

variable (md : Metadata) (name : TypeName)

/-- A new type is found by its name unless an earlier type has the name already. -/
theorem findType_declareType (decl : TypeDecl) :
    (md.declareType decl).2.findType name =
      (md.findType name).or (if decl.name == name then some ⟨md.types.length⟩ else none) := by
  unfold findType declareType
  dsimp only
  rw [List.findIdx?_append, Option.map_or]
  split <;> simp [*]

/-- Changing entries but not their names finds the same types. -/
theorem findType_modifyType (t : TypeRef) {f : TypeEntry → TypeEntry}
    (hf : ∀ entry, (f entry).name = entry.name) :
    (md.modifyType t f).findType name = md.findType name := by
  have hnames : (md.types.modify t.index f).map (·.name) = md.types.map (·.name) := by
    refine List.ext_getElem? fun i => ?_
    rw [List.getElem?_map, List.getElem?_map, List.getElem?_modify]
    cases md.types[i]? with
    | none => rfl
    | some entry =>
      refine congrArg some ?_
      dsimp only
      split
      · exact hf entry
      · rfl
  have hfind : ∀ types : List TypeEntry,
      types.findIdx? (·.name == name) = (types.map (·.name)).findIdx? (· == name) := by
    intro types
    rw [List.findIdx?_map]
    rfl
  rw [findType, findType, hfind, hfind]
  exact congrArg (fun names => (List.findIdx? (· == name) names).map TypeRef.mk) hnames

/-- Adding a method changes nothing about what names stand for. -/
theorem findType_addMethod (method : Method) :
    (md.addMethod method).findType name = md.findType name :=
  findType_modifyType { md with methods := md.methods ++ [method] } name _ fun _ => rfl

/-- Declaring a method changes nothing about what names stand for. -/
theorem findType_declareMethod (method : Method) :
    (md.declareMethod method).2.findType name = md.findType name := by
  rcases md.declareMethod_cases method with ⟨m, -, -, hsame⟩ | ⟨-, hnew⟩
  · rw [hsame]
  · rw [hnew, findType_addMethod]

/-- Declaring a field changes nothing about what names stand for. -/
theorem findType_declareField (field : Field) :
    (md.declareField field).2.findType name = md.findType name :=
  findType_modifyType { md with fields := md.fields ++ [field] } name _ fun _ => rfl

/-- The members of the type, with what is declared of them. -/
def members (t : TypeRef) : List (MethodRef × Method) × List (FieldRef × Field) :=
  ((md.type t).methods.map fun m => (m, md.method m),
    (md.type t).fields.map fun f => (f, md.field f))

end Metadata

/-! ## Registries -/

/-- A kind of maps from the names of types to types. -/
structure NameMap where
  Map : Type
  empty : Map
  insert : Map → TypeName → TypeRef → Map
  get : Map → TypeName → Option TypeRef

/-- A name stands for the type that was inserted first under it, whatever is inserted later. -/
structure NameMap.KeepsFirst (M : NameMap) : Prop where
  get_empty : ∀ name, M.get M.empty name = none
  get_insert_self : ∀ names name t,
    M.get (M.insert names name t) name = some ((M.get names name).getD t)
  get_insert_of_ne : ∀ names name t name', name' ≠ name →
    M.get (M.insert names name t) name' = M.get names name'

/-- Metadata with the declarations that made it and the handles that they got, and the map in which
types are looked up. -/
structure Registry (M : NameMap) where
  md : Metadata := .empty
  types : List (TypeDecl × TypeRef) := []
  methods : List (Method × MethodRef) := []
  fields : List (Field × FieldRef) := []
  names : M.Map := M.empty

namespace Registry

variable {M : NameMap}

/-- Make one declaration. A type is put into the map under its name. -/
def declare (r : Registry M) : Declaration → Registry M
  | .type decl =>
    { r with
      md := (r.md.declareType decl).2
      types := r.types ++ [(decl, (r.md.declareType decl).1)]
      names := M.insert r.names decl.name (r.md.declareType decl).1 }
  | .method method =>
    { r with
      md := (r.md.declareMethod method).2
      methods := r.methods ++ [(method, (r.md.declareMethod method).1)] }
  | .field field =>
    { r with
      md := (r.md.declareField field).2
      fields := r.fields ++ [(field, (r.md.declareField field).1)] }

/-- The handle was got for a type. -/
def HasType (r : Registry M) (t : TypeRef) : Prop := ∃ decl, (decl, t) ∈ r.types

/-- The declaration builds on types that were declared before. -/
def InScope (r : Registry M) : Declaration → Prop
  | .type decl => ∀ base, decl.base = some base → r.HasType base
  | .method method => r.HasType method.declaring
  | .field field => r.HasType field.declaring

/-- One declaration is made in scope. -/
def Step (r r' : Registry M) : Prop := ∃ d, r.InScope d ∧ r' = r.declare d

/-- One declaration leaves map and metadata in agreement on what names stand for. -/
theorem get_names_declare (hM : M.KeepsFirst) {r : Registry M}
    (h : ∀ name, M.get r.names name = r.md.findType name) (d : Declaration) (name : TypeName) :
    M.get (r.declare d).names name = (r.declare d).md.findType name := by
  cases d with
  | type decl =>
    change M.get (M.insert r.names decl.name _) name = (r.md.declareType decl).2.findType name
    rw [Metadata.findType_declareType, ← h]
    by_cases hname : name = decl.name
    · subst hname
      rw [hM.get_insert_self, beq_self_eq_true, if_pos rfl]
      cases M.get r.names decl.name <;> rfl
    · rw [hM.get_insert_of_ne _ _ _ _ hname, if_neg fun heq => hname (beq_iff_eq.1 heq).symm,
        Option.or_none]
  | method method => exact (h name).trans (r.md.findType_declareMethod name method).symm
  | field field => exact (h name).trans (r.md.findType_declareField name field).symm

/-- However a registry was reached, the map gives the types that the metadata finds. -/
theorem get_names_run (hM : M.KeepsFirst) {r : Registry M} (hrun : ReflTransGen Step {} r)
    (name : TypeName) : M.get r.names name = r.md.findType name := by
  induction hrun generalizing name with
  | refl => exact hM.get_empty name
  | tail _ hstep ih =>
    obtain ⟨d, -, rfl⟩ := hstep
    exact get_names_declare hM ih d name

/-- What all registries that are reached from the empty one have in common. -/
structure Consistent (r : Registry M) : Prop where
  hasType_lt : ∀ t, r.HasType t → t.index < r.md.types.length
  types_nodup : (r.types.map (·.2)).Nodup
  findType_eq : ∀ name,
    r.md.findType name = (r.types.find? (·.1.name == name)).map (·.2)
  methods : Roster .methods r.methods r.md.methods fun t => (r.md.type t).methods
  fields : Roster .fields r.fields r.md.fields fun t => (r.md.type t).fields
  overloads : ∀ t, ∀ m ∈ (r.md.type t).methods, ∀ n ∈ (r.md.type t).methods,
    (r.md.method m).Agrees (r.md.method n) → m = n

namespace Consistent

variable {r : Registry M}

/-- The empty registry is consistent. -/
theorem empty : ({} : Registry M).Consistent where
  hasType_lt _ := fun ⟨_, h⟩ => absurd h List.not_mem_nil
  types_nodup := List.nodup_nil
  findType_eq _ := rfl
  methods := .empty
  fields := .empty
  overloads _ _ h := absurd h List.not_mem_nil

/-- A method that a type lists is one of the entries. -/
theorem index_lt (h : r.Consistent) {t : TypeRef} {m : MethodRef}
    (hm : m ∈ (r.md.type t).methods) : m.index < r.md.methods.length := by
  obtain ⟨k, b, rfl, hb, -⟩ := h.methods.entry_of_mem hm
  exact (List.getElem?_eq_some_iff.1 hb).1

/-- A new type keeps the registry consistent, also under a name that is taken. -/
theorem declareType (h : r.Consistent) (decl : TypeDecl) : (r.declare (.type decl)).Consistent where
  hasType_lt t := by
    rintro ⟨decl', hmem⟩
    change t.index < (r.md.types ++ [_]).length
    rw [List.length_append]
    rcases List.mem_append.1 hmem with hmem | hmem
    · exact Nat.lt_succ_of_lt (h.hasType_lt t ⟨decl', hmem⟩)
    · cases List.mem_singleton.1 hmem
      exact Nat.lt_succ_self _
  types_nodup := by
    change ((r.types ++ [_]).map _).Nodup
    rw [List.map_append, List.nodup_append]
    refine ⟨h.types_nodup, List.nodup_singleton _, fun t ht t' ht' heq => ?_⟩
    have hlt : t.index < r.md.types.length := by
      obtain ⟨⟨decl', _⟩, hmem, rfl⟩ := List.mem_map.1 ht
      exact h.hasType_lt _ ⟨decl', hmem⟩
    rw [heq, List.mem_singleton.1 ht'] at hlt
    exact Nat.lt_irrefl _ hlt
  findType_eq name := by
    change (r.md.declareType decl).2.findType name = ((r.types ++ [_]).find? _).map _
    rw [Metadata.findType_declareType, h.findType_eq, List.find?_append, Option.map_or]
    split <;> simp [*, Metadata.declareType]
  methods := h.methods.congr fun t => (r.md.members_type_declareType t decl).1
  fields := h.fields.congr fun t => (r.md.members_type_declareType t decl).2
  overloads t m hm n hn := by
    rw [declare, (r.md.members_type_declareType t decl).1] at hm hn
    exact h.overloads t m hm n hn

/-- A method that agrees with none of its type can be told apart from all of them. -/
theorem overloads_addMethod (h : r.Consistent) {method : Method}
    (hscope : r.HasType method.declaring)
    (hnone : ∀ m ∈ (r.md.type method.declaring).methods, ¬ (r.md.method m).Agrees method)
    (t : TypeRef) {m n : MethodRef} (hm : m ∈ ((r.md.addMethod method).type t).methods)
    (hn : n ∈ ((r.md.addMethod method).type t).methods)
    (hagrees : ((r.md.addMethod method).method m).Agrees ((r.md.addMethod method).method n)) :
    m = n := by
  have hold : ∀ {k}, k ∈ (r.md.type t).methods →
      (r.md.addMethod method).method k = r.md.method k :=
    fun hk => r.md.method_addMethod_of_lt method (h.index_lt hk)
  rw [r.md.methods_type_addMethod (h.hasType_lt _ hscope)] at hm hn
  split at hm
  · next hdeclaring =>
    subst hdeclaring
    rw [if_pos rfl] at hn
    rcases List.mem_append.1 hm with hm | hm <;> rcases List.mem_append.1 hn with hn | hn
    · rw [hold hm, hold hn] at hagrees
      exact h.overloads _ m hm n hn hagrees
    · rw [hold hm, List.mem_singleton.1 hn, r.md.method_addMethod_length] at hagrees
      exact absurd hagrees (hnone m hm)
    · rw [hold hn, List.mem_singleton.1 hm, r.md.method_addMethod_length] at hagrees
      exact absurd hagrees.symm (hnone n hn)
    · rw [List.mem_singleton.1 hm, List.mem_singleton.1 hn]
  · next hdeclaring =>
    rw [if_neg hdeclaring, List.append_nil] at hn
    rw [List.append_nil] at hm
    rw [hold hm, hold hn] at hagrees
    exact h.overloads t m hm n hn hagrees

/-- A method that is declared in scope keeps the registry consistent, new or not. -/
theorem declareMethod (h : r.Consistent) {method : Method} (hscope : r.HasType method.declaring) :
    (r.declare (.method method)).Consistent := by
  rw [Registry.declare]
  rcases r.md.declareMethod_cases method with ⟨m, hm, hagrees, hsame⟩ | ⟨hnone, hnew⟩
  · -- the method is there already: only the log grows
    rw [hsame]
    obtain ⟨k, b, rfl, hb, howner⟩ := h.methods.entry_of_mem hm
    have hanswers : (r.md.method ⟨k⟩).Agrees method := hagrees
    rw [r.md.method_of_getElem? hb] at hanswers
    exact { h with methods := h.methods.again hm ⟨k, b, rfl, hb, howner, hanswers⟩ }
  · rw [hnew]
    exact {
      hasType_lt := fun t ht => Nat.lt_of_lt_of_eq (h.hasType_lt t ht) (List.length_modify ..).symm
      types_nodup := h.types_nodup
      findType_eq := fun name => (r.md.findType_addMethod name method).trans (h.findType_eq name)
      methods := h.methods.new method (r.md.methods_type_addMethod (h.hasType_lt _ hscope))
      fields := h.fields.congr (r.md.fields_type_addMethod method)
      overloads := fun t _ hm _ hn => h.overloads_addMethod hscope hnone t hm hn }

/-- A field that is declared in scope keeps the registry consistent. -/
theorem declareField (h : r.Consistent) {field : Field} (hscope : r.HasType field.declaring) :
    (r.declare (.field field)).Consistent where
  hasType_lt t ht := Nat.lt_of_lt_of_eq (h.hasType_lt t ht) (List.length_modify ..).symm
  types_nodup := h.types_nodup
  findType_eq name := (r.md.findType_declareField name field).trans (h.findType_eq name)
  methods := h.methods.congr fun t => r.md.methods_type_declareField t field
  fields := h.fields.new field fun t => r.md.fields_type_declareField t (h.hasType_lt _ hscope)
  overloads t m hm n hn := by
    rw [declare, r.md.methods_type_declareField t field] at hm hn
    exact h.overloads t m hm n hn

/-- Every declaration in scope keeps the registry consistent. -/
theorem declare (h : r.Consistent) {d : Declaration} (hscope : r.InScope d) :
    (r.declare d).Consistent := by
  cases d with
  | type decl => exact h.declareType decl
  | method method => exact h.declareMethod hscope
  | field field => exact h.declareField hscope

/-- Declarations in scope, one after the other, keep the registry consistent. -/
theorem run {r' : Registry M} (h : r.Consistent) (hrun : ReflTransGen Step r r') :
    r'.Consistent := by
  induction hrun with
  | refl => exact h
  | tail _ hstep ih =>
    obtain ⟨d, hscope, rfl⟩ := hstep
    exact ih.declare hscope

/-- The overload that a method stands for is answered by that method from then on, and nothing
changes. -/
theorem declareMethod_eq (h : r.Consistent) {method again : Method} {m : MethodRef}
    (hm : (method, m) ∈ r.methods) (hdeclaring : again.declaring = method.declaring)
    (hagain : again.Agrees method) : r.md.declareMethod again = (m, r.md) := by
  have hlisted : m ∈ (r.md.type again.declaring).methods :=
    h.methods.mem_listed.2 ⟨method, hm, hdeclaring.symm⟩
  obtain ⟨k, b, rfl, hb, -, hanswers⟩ := h.methods.entry method m hm
  have hagrees : (r.md.method ⟨k⟩).Agrees again := by
    rw [r.md.method_of_getElem? hb]
    exact hanswers.trans hagain.symm
  rcases r.md.declareMethod_cases again with ⟨n, hn, hagrees', heq⟩ | ⟨hnone, -⟩
  · rw [heq, h.overloads _ n hn _ hlisted (hagrees'.trans hagrees.symm)]
  · exact absurd hagrees (hnone _ hlisted)

/-- A name that is found stands for the same type ever after. -/
theorem findType_run {r' : Registry M} (h : r.Consistent) (hrun : ReflTransGen Step r r')
    {name : TypeName} {t : TypeRef} (ht : r.md.findType name = some t) :
    r'.md.findType name = some t := by
  have hprefix : r.types <+: r'.types := by
    clear h ht
    induction hrun with
    | refl => exact List.prefix_refl _
    | tail _ hstep ih =>
      obtain ⟨d, -, rfl⟩ := hstep
      refine ih.trans ?_
      cases d with
      | type decl => exact List.prefix_append _ _
      | method method => exact List.prefix_refl _
      | field field => exact List.prefix_refl _
  obtain ⟨rest, hrest⟩ := hprefix
  rw [h.findType_eq] at ht
  rw [(h.run hrun).findType_eq, ← hrest, List.find?_append, Option.map_or, ht, Option.some_or]

/-- A new method leaves the members of the other types as they are. -/
theorem members_declareMethod (h : r.Consistent) {method : Method} {t : TypeRef}
    (hne : method.declaring ≠ t) : (r.md.declareMethod method).2.members t = r.md.members t := by
  rcases r.md.declareMethod_cases method with ⟨m, -, -, hsame⟩ | ⟨-, hnew⟩
  · rw [hsame]
  · rw [hnew, Metadata.members, Metadata.type_addMethod, if_neg fun hand => hne hand.1]
    refine Prod.ext (List.map_congr_left fun m hm => ?_) rfl
    rw [r.md.method_addMethod_of_lt method (h.index_lt hm)]

/-- A new field leaves the members of the other types as they are. -/
theorem members_declareField (h : r.Consistent) {field : Field} {t : TypeRef}
    (hne : field.declaring ≠ t) : (r.md.declareField field).2.members t = r.md.members t := by
  rw [Metadata.members, Metadata.type_declareField, if_neg fun hand => hne hand.1]
  refine Prod.ext rfl (List.map_congr_left fun f hf => congrArg (f, ·) ?_)
  obtain ⟨k, b, rfl, hb, -⟩ := h.fields.entry_of_mem hf
  exact congrArg (·.getD default) (List.getElem?_append_left (List.getElem?_eq_some_iff.1 hb).1)

end Consistent

/-- After any history of declarations in scope: the methods of a type are overloads that can be told
apart; the types list what was declared for them in the order of the first declaration; the handle
that a declaration got is once in the list of its type and in no other, and it stands for what was
declared; declaring the same overload again gives the same handle and changes nothing; a name that
is looked up in the map stands for the first type that was declared with it, and will do so ever
after, and the metadata finds the same type; and declaring a member of one type leaves the members
of all others as they are, also of those with the same name. -/
theorem members_of_run (hM : M.KeepsFirst) {r : Registry M} (hrun : ReflTransGen Step {} r) :
    (∀ t, ∀ m ∈ (r.md.type t).methods, ∀ n ∈ (r.md.type t).methods,
      (r.md.method m).Agrees (r.md.method n) → m = n) ∧
    (∀ t, (r.md.type t).methods = (MemberKind.methods.handlesFor r.methods t).eraseDups ∧
      (r.md.type t).fields = (MemberKind.fields.handlesFor r.fields t).eraseDups) ∧
    (∀ method m, (method, m) ∈ r.methods →
      (∀ t, (r.md.type t).methods.count m = if t = method.declaring then 1 else 0) ∧
      (r.md.method m).declaring = method.declaring ∧ (r.md.method m).Agrees method ∧
      ∀ again : Method, again.declaring = method.declaring → again.Agrees method →
        r.md.declareMethod again = (m, r.md)) ∧
    (∀ field f, (field, f) ∈ r.fields →
      (∀ t, (r.md.type t).fields.count f = if t = field.declaring then 1 else 0) ∧
      r.md.field f = field) ∧
    (∀ name, M.get r.names name = (r.types.find? (·.1.name == name)).map (·.2) ∧
      M.get r.names name = r.md.findType name ∧
      ∀ t, M.get r.names name = some t →
        ∀ r', ReflTransGen Step r r' → M.get r'.names name = some t) ∧
    (r.types.map (·.2)).Nodup ∧
    ∀ t, (∀ method : Method, method.declaring ≠ t →
        (r.md.declareMethod method).2.members t = r.md.members t) ∧
      ∀ field : Field, field.declaring ≠ t →
        (r.md.declareField field).2.members t = r.md.members t := by
  have h : r.Consistent := Consistent.empty.run hrun
  have hget := get_names_run hM hrun
  refine ⟨h.overloads, fun t => ⟨h.methods.listed_eq t, h.fields.listed_eq t⟩,
    fun method m hm => ⟨h.methods.count_eq hm, ?_⟩,
    fun field f hf => ⟨h.fields.count_eq hf, ?_⟩,
    fun name => ⟨(hget name).trans (h.findType_eq name), hget name, fun t ht r' hrun' => ?_⟩,
    h.types_nodup,
    fun t => ⟨fun _ => h.members_declareMethod, fun _ => h.members_declareField⟩⟩
  · have hentry : MemberKind.methods.Answers (r.md.method m) method := by
      obtain ⟨k, b, rfl, hb, hanswers⟩ := h.methods.entry method m hm
      exact r.md.method_of_getElem? hb ▸ hanswers
    exact ⟨hentry.1, hentry.2, fun _ hdeclaring => h.declareMethod_eq hm hdeclaring⟩
  · obtain ⟨k, b, rfl, hb, rfl⟩ := h.fields.entry field f hf
    exact congrArg (·.getD default) hb
  · rw [get_names_run hM (hrun.trans hrun')]
    exact h.findType_run hrun' ((hget name).symm.trans ht)

/-- The map as a list of pairs, to which a name that it has already is not added again. -/
def pairMap : NameMap where
  Map := List (TypeName × TypeRef)
  empty := []
  insert names name t := if (names.lookup name).isSome then names else (name, t) :: names
  get names name := names.lookup name

/-- Pairs that are searched from the front keep the first value of each name. -/
theorem pairMap_keepsFirst : pairMap.KeepsFirst where
  get_empty _ := rfl
  get_insert_self := by
    intro (names : List (TypeName × TypeRef)) name t
    dsimp only [pairMap]
    cases hfound : names.lookup name with
    | none => rw [Option.isSome_none, if_neg Bool.false_ne_true, List.lookup_cons_self]; rfl
    | some u => rw [Option.isSome_some, if_pos rfl, hfound]; rfl
  get_insert_of_ne := by
    intro (names : List (TypeName × TypeRef)) name t name' hne
    dsimp only [pairMap]
    split
    · rfl
    · rw [List.lookup_cons, beq_false_of_ne hne]

/-- A method without parameters and result, with the attribute bits. -/
def plainMethod (declaring : TypeRef) (bits : BitVec 32) : Method where
  declaring := declaring
  name := .constructor
  signature := ⟨[], none⟩
  generics := []
  attributes := .ofBits _ bits

/-- Two types of one name. The first has a method that was declared a second time as a virtual one,
and then a static method; the second has a method that looks like the first one's, and a field. -/
def namesakes : Registry pairMap :=
  ({} : Registry pairMap)
    |>.declare (.type { name := .object, base := none, attributes := .ofBits _ 0x1 })
    |>.declare (.type { name := .object, base := some ⟨0⟩, attributes := .ofBits _ 0x1 })
    |>.declare (.method (plainMethod ⟨0⟩ 0x6))
    |>.declare (.method (plainMethod ⟨1⟩ 0x6))
    |>.declare (.method (plainMethod ⟨0⟩ 0x46))
    |>.declare (.method (plainMethod ⟨0⟩ 0x16))
    |>.declare (.field { declaring := ⟨1⟩, name := .constructor, type := .base .object,
                         attributes := .ofBits _ 0x6 })

/-- The second declaration as a virtual method was answered by the method already there. -/
theorem members_of_run_namesakes :
    ReflTransGen Step {} namesakes ∧
      namesakes.methods.map (·.2) = [⟨0⟩, ⟨1⟩, ⟨0⟩, ⟨2⟩] ∧
      (namesakes.md.type ⟨0⟩).methods = [⟨0⟩, ⟨2⟩] ∧ (namesakes.md.type ⟨1⟩).methods = [⟨1⟩] ∧
      (namesakes.md.type ⟨1⟩).fields = [⟨0⟩] ∧
      pairMap.get namesakes.names .object = some ⟨0⟩ ∧
      namesakes.md.findType .object = some ⟨0⟩ ∧
      namesakes.md.declareMethod (plainMethod ⟨1⟩ 0x46) = (⟨1⟩, namesakes.md) := by
  have hrun : ReflTransGen Step {} namesakes := by
    refine .head ⟨_, ?_, rfl⟩ <| .head ⟨_, ?_, rfl⟩ <| .head ⟨_, ?_, rfl⟩ <| .head ⟨_, ?_, rfl⟩ <|
      .head ⟨_, ?_, rfl⟩ <| .head ⟨_, ?_, rfl⟩ <| .head ⟨_, ?_, rfl⟩ .refl
    · nofun
    · rintro _ ⟨⟩
      exact ⟨_, List.mem_cons_self⟩
    · exact ⟨_, List.mem_cons_self⟩
    · exact ⟨_, List.mem_cons_of_mem _ List.mem_cons_self⟩
    · exact ⟨_, List.mem_cons_self⟩
    · exact ⟨_, List.mem_cons_self⟩
    · exact ⟨_, List.mem_cons_of_mem _ List.mem_cons_self⟩
  obtain ⟨-, hlisted, hmethods, -, htypes, -⟩ := members_of_run pairMap_keepsFirst hrun
  obtain ⟨hfirst, hfound, -⟩ := htypes .object
  have hobject : pairMap.get namesakes.names .object = some ⟨0⟩ := hfirst.trans (by decide)
  refine ⟨hrun, by decide, (hlisted ⟨0⟩).1.trans (by decide), (hlisted ⟨1⟩).1.trans (by decide),
    (hlisted ⟨1⟩).2.trans (by decide), hobject, hfound.symm.trans hobject, ?_⟩
  exact (hmethods (plainMethod ⟨1⟩ 0x6) ⟨1⟩ (by decide)).2.2.2 _ rfl ⟨rfl, rfl, rfl, rfl⟩

end Registry

end Weaving
