import Mathlib.Data.Set.Subsingleton
import Weaving.Proofs.Atomic
import Weaving.Proofs.Registry
import Weaving.Proofs.StackBalance

/-!
# The choice of an overload

The methods that a call may mean are those of the type that have the name and take the arguments
(`Metadata.Candidates`), where an instance method does not look at the first argument. The choice
gives the only candidate, and fails when there is none or more than one. That is said of sets of
candidates and not of lists, so it needs that the lists of a reached registry name no method twice.
Two candidates have the name and the parameters in common, so they differ in the rest of what tells
overloads apart (`Registry.Consistent.candidates_differ`). When there are too many, the two of them
that were declared first are named (`FirstTwo`).
-/

namespace Weaving

open Relation (ReflTransGen)

/-- The method takes arguments of the types. With a receiver, the first argument is the receiver and
its type does not matter. -/
inductive Method.Takes (m : Method) : List (ValueType TypeRef) → Prop
  | direct : m.isStatic = true → Takes m m.signature.parameters
  | onReceiver (receiver : ValueType TypeRef) :
      m.isStatic = false → Takes m (receiver :: m.signature.parameters)

/-- Two methods that take the same arguments, both with or both without a receiver, have the same
parameters. -/
theorem Method.Takes.parameters_eq {m n : Method} {types : List (ValueType TypeRef)}
    (hm : m.Takes types) (hn : n.Takes types) (hstatic : m.isStatic = n.isStatic) :
    m.signature.parameters = n.signature.parameters := by
  cases hm with
  | direct hm =>
    generalize htypes : m.signature.parameters = types at hn
    cases hn with
    | direct => rfl
    | onReceiver _ hn => simp_all
  | onReceiver receiver hm =>
    generalize htypes : receiver :: m.signature.parameters = types at hn
    cases hn with
    | direct hn => simp_all
    | onReceiver _ hn => exact (List.cons.inj htypes).2

/-- The methods of the type with the name that take arguments of the types. -/
def Metadata.Candidates (md : Metadata) (t : TypeRef) (name : MemberName)
    (types : List (ValueType TypeRef)) : Set MethodRef :=
  {m | m ∈ (md.type t).methods ∧ (md.method m).name = name ∧ (md.method m).Takes types}

namespace Metadata

variable {md : Metadata} {t : TypeRef} {name : MemberName} {types : List (ValueType TypeRef)}

/-- The method has the name and takes arguments of the types. -/
def fits (md : Metadata) (name : MemberName) (types : List (ValueType TypeRef)) (m : MethodRef) :
    Bool :=
  (md.method m).name == name &&
    if (md.method m).isStatic then types == (md.method m).signature.parameters
    else match types with
      | [] => false
      | _ :: rest => rest == (md.method m).signature.parameters

/-- The overloads are those of the methods of the type that fit, in the order of the type. -/
theorem overloads_eq :
    md.overloads t name types = (md.type t).methods.filter (md.fits name types) := by
  rw [overloads, methodGroup, List.filter_filter]
  exact List.filter_congr fun m _ => Bool.and_comm _ _

/-- A method fits by its name and by the types that it takes. -/
theorem fits_iff {m : MethodRef} :
    md.fits name types m = true ↔ (md.method m).name = name ∧ (md.method m).Takes types := by
  unfold fits
  rw [Bool.and_eq_true, beq_iff_eq]
  refine and_congr_right fun _ => ?_
  cases hstatic : (md.method m).isStatic with
  | true =>
    rw [if_pos rfl, beq_iff_eq]
    constructor
    · rintro rfl
      exact .direct hstatic
    · intro h
      cases h with
      | direct => rfl
      | onReceiver _ hinstance => simp_all
  | false =>
    rw [if_neg Bool.false_ne_true]
    constructor
    · intro h
      split at h
      · cases h
      · next receiver rest =>
        cases eq_of_beq h
        exact .onReceiver receiver hstatic
    · intro h
      cases h with
      | direct hstatic' => simp_all
      | onReceiver receiver => simp

/-- The overloads are exactly the candidates. -/
theorem mem_overloads {m : MethodRef} :
    m ∈ md.overloads t name types ↔ m ∈ md.Candidates t name types := by
  rw [overloads_eq, List.mem_filter, fits_iff]
  rfl

/-- What the choice gives, by the list of the methods to choose from. -/
theorem resolveOverload_cases (md : Metadata) (t : TypeRef) (name : MemberName)
    (types : List (ValueType TypeRef)) :
    (md.overloads t name types = [] ∧
        md.resolveOverload t name types = .error (.missingOverload t name types)) ∨
      (∃ m, md.overloads t name types = [m] ∧ md.resolveOverload t name types = .ok m) ∨
      ∃ m n rest, md.overloads t name types = m :: n :: rest ∧
        md.resolveOverload t name types = .error (.ambiguousMethod m n) := by
  unfold resolveOverload
  rcases md.overloads t name types with _ | ⟨m, _ | ⟨n, rest⟩⟩
  · exact .inl ⟨rfl, rfl⟩
  · exact .inr (.inl ⟨m, rfl, rfl⟩)
  · exact .inr (.inr ⟨m, n, rest, rfl, rfl⟩)

/-- The choice looks at no position. -/
theorem resolveOverload_ne_position {position : Int} {length : Nat} :
    md.resolveOverload t name types ≠ .error (.positionOutOfRange position length) := by
  intro hposition
  rcases md.resolveOverload_cases t name types with
    ⟨-, hchoice⟩ | ⟨m, -, hchoice⟩ | ⟨m, n, rest, -, hchoice⟩ <;>
    cases hchoice.symm.trans hposition

end Metadata

/-! ## The first two of a kind -/

/-- The two elements are the first two of the kind in the list, where the first may be repeated
before the second. -/
def FirstTwo {α : Type} (K : Set α) (l : List α) (a b : α) : Prop :=
  ∃ before between behind, l = before ++ a :: (between ++ b :: behind) ∧ a ∈ K ∧ b ∈ K ∧ a ≠ b ∧
    (∀ x ∈ before, x ∉ K) ∧ ∀ x ∈ between, x ∈ K → x = a

/-- Two of a kind are more than one. -/
theorem FirstTwo.nontrivial {α : Type} {K : Set α} {l : List α} {a b : α} (h : FirstTwo K l a b) :
    K.Nontrivial := by
  obtain ⟨-, -, -, -, ha, hb, hne, -⟩ := h
  exact ⟨a, ha, b, hb, hne⟩

/-- The first two elements that are left without repetitions are the first two of their kind. -/
theorem firstTwo_of_eraseDups {α : Type} [DecidableEq α] {p : α → Bool} {l rest : List α} {a b : α}
    (h : (l.filter p).eraseDups = a :: b :: rest) : FirstTwo {x | p x = true} l a b := by
  cases hfirst : l.filter p with
  | nil =>
    rw [hfirst] at h
    cases h
  | cons a' later =>
    rw [hfirst, List.eraseDups_cons] at h
    obtain ⟨rfl, htail⟩ := List.cons.inj h
    cases hsecond : later.filter fun x => !x == a' with
    | nil =>
      rw [hsecond] at htail
      cases htail
    | cons b' later' =>
      rw [hsecond, List.eraseDups_cons] at htail
      obtain ⟨rfl, -⟩ := List.cons.inj htail
      obtain ⟨before, l', rfl, hbefore, ha, hlater⟩ := List.filter_eq_cons_iff.1 hfirst
      rw [← hlater, List.filter_filter] at hsecond
      obtain ⟨between, behind, rfl, hbetween, hb, -⟩ := List.filter_eq_cons_iff.1 hsecond
      simp only [Bool.and_eq_true, Bool.not_eq_true', beq_eq_false_iff_ne, ne_eq] at hbetween hb
      refine ⟨before, between, behind, rfl, ha, hb.2, fun heq => hb.1 heq.symm, hbefore, ?_⟩
      intro x hx hp
      by_contra hne
      exact hbetween x hx ⟨hne, hp⟩

/-! ## Candidates in a reached registry -/

namespace Registry.Consistent

variable {M : NameMap} {r : Registry M} {t : TypeRef} {name : MemberName}
  {types : List (ValueType TypeRef)}

/-- Two candidates differ in something that no argument tells. -/
theorem candidates_differ (h : r.Consistent) {m n : MethodRef}
    (hm : m ∈ r.md.Candidates t name types) (hn : n ∈ r.md.Candidates t name types) (hne : m ≠ n) :
    (r.md.method m).isStatic ≠ (r.md.method n).isStatic ∨
      (r.md.method m).generics ≠ (r.md.method n).generics ∨
      (r.md.method m).signature.result ≠ (r.md.method n).signature.result := by
  by_contra hsame
  simp only [not_or, not_not] at hsame
  obtain ⟨hstatic, hgenerics, hresult⟩ := hsame
  obtain ⟨hlisted, hname, htakes⟩ := hm
  obtain ⟨hlisted', hname', htakes'⟩ := hn
  have hsignature : (r.md.method m).signature = (r.md.method n).signature := by
    have hparameters := htakes.parameters_eq htakes' hstatic
    revert hparameters hresult
    cases (r.md.method m).signature
    cases (r.md.method n).signature
    rintro rfl rfl
    rfl
  exact hne (h.overloads t m hlisted n hlisted'
    ⟨hname.trans hname'.symm, hsignature, hgenerics, hstatic⟩)

/-- The methods to choose from are listed as they were declared first. -/
theorem firstTwo_of_overloads (h : r.Consistent) {m n : MethodRef} {rest : List MethodRef}
    (hmn : r.md.overloads t name types = m :: n :: rest) :
    FirstTwo (r.md.Candidates t name types) (r.methods.map (·.2)) m n := by
  rw [Metadata.overloads_eq, h.methods.filter_listed] at hmn
  have htwo := firstTwo_of_eraseDups hmn
  have hset : {x | (decide (x ∈ (r.md.type t).methods) && r.md.fits name types x) = true} =
      r.md.Candidates t name types := by
    ext x
    simp only [Set.mem_ofPred_eq, Bool.and_eq_true, decide_eq_true_eq, Metadata.fits_iff]
    rfl
  rwa [hset] at htwo

/-- The choice by the candidates: there is none, there is one, or there are two that were declared
before all others. -/
theorem choice_cases (h : r.Consistent) (t : TypeRef) (name : MemberName)
    (types : List (ValueType TypeRef)) :
    (r.md.Candidates t name types = ∅ ∧
        r.md.resolveOverload t name types = .error (.missingOverload t name types)) ∨
      (∃ m, r.md.Candidates t name types = {m} ∧ r.md.resolveOverload t name types = .ok m) ∨
      ∃ m n, FirstTwo (r.md.Candidates t name types) (r.methods.map (·.2)) m n ∧
        r.md.resolveOverload t name types = .error (.ambiguousMethod m n) := by
  rcases r.md.resolveOverload_cases t name types with
    ⟨hlist, hchoice⟩ | ⟨m, hlist, hchoice⟩ | ⟨m, n, rest, hlist, hchoice⟩
  · refine .inl ⟨Set.eq_empty_iff_forall_notMem.2 fun k hk => ?_, hchoice⟩
    rw [← Metadata.mem_overloads, hlist] at hk
    cases hk
  · refine .inr (.inl ⟨m, Set.ext fun k => ?_, hchoice⟩)
    rw [← Metadata.mem_overloads, hlist, List.mem_singleton, Set.mem_singleton_iff]
  · exact .inr (.inr ⟨m, n, h.firstTwo_of_overloads hlist, hchoice⟩)

/-- A method is chosen exactly if it is the only candidate. -/
theorem resolveOverload_eq_ok (h : r.Consistent) {m : MethodRef} :
    r.md.resolveOverload t name types = .ok m ↔ r.md.Candidates t name types = {m} := by
  rcases h.choice_cases t name types with ⟨hK, hchoice⟩ | ⟨k, hK, hchoice⟩ | ⟨k, l, htwo, hchoice⟩
  · simp [hchoice, hK, (Set.singleton_ne_empty m).symm]
  · simp [hchoice, hK]
  · rw [hchoice]
    refine iff_of_false nofun fun hK => ?_
    exact htwo.nontrivial.ne_singleton hK

/-- No overload is found exactly if there is no candidate. -/
theorem resolveOverload_eq_missing (h : r.Consistent) :
    r.md.resolveOverload t name types = .error (.missingOverload t name types) ↔
      r.md.Candidates t name types = ∅ := by
  rcases h.choice_cases t name types with ⟨hK, hchoice⟩ | ⟨k, hK, hchoice⟩ | ⟨k, l, htwo, hchoice⟩
  · simp [hchoice, hK]
  · simp [hchoice, hK]
  · rw [hchoice]
    refine iff_of_false nofun fun hK => ?_
    exact htwo.nontrivial.nonempty.ne_empty hK

/-- The choice is ambiguous exactly if there are two candidates or more. -/
theorem resolveOverload_eq_ambiguous (h : r.Consistent) :
    (∃ m n, r.md.resolveOverload t name types = .error (.ambiguousMethod m n)) ↔
      (r.md.Candidates t name types).Nontrivial := by
  rcases h.choice_cases t name types with ⟨hK, hchoice⟩ | ⟨k, hK, hchoice⟩ | ⟨k, l, htwo, hchoice⟩
  · simp [hchoice, hK]
  · simp [hchoice, hK]
  · exact iff_of_true ⟨k, l, hchoice⟩ htwo.nontrivial

/-- The methods that are named as too many are the two that were declared first. -/
theorem firstTwo_of_resolveOverload (h : r.Consistent) {m n : MethodRef}
    (hmn : r.md.resolveOverload t name types = .error (.ambiguousMethod m n)) :
    FirstTwo (r.md.Candidates t name types) (r.methods.map (·.2)) m n := by
  rcases h.choice_cases t name types with ⟨-, hchoice⟩ | ⟨k, -, hchoice⟩ | ⟨k, l, htwo, hchoice⟩
  · cases hchoice.symm.trans hmn
  · cases hchoice.symm.trans hmn
  · cases hchoice.symm.trans hmn
    exact htwo

end Registry.Consistent

/-! ## Calls of the chosen overload -/

namespace Edit

variable {σ : Type} {md : Metadata} {context : EditedMethod} {as : List Argument}
  {types : List (ValueType TypeRef)} {w w₁ : Workspace σ}

/-- Instructions can be inserted behind pushed arguments exactly where they could be before. -/
theorem canInsert_of_pushEach (hpush : pushEach md context as w = .ok types w₁) :
    w₁.cursor.CanInsert ↔ w.cursor.CanInsert := by
  obtain ⟨block, -, hblock⟩ := (pushEach_implements md context as).ok hpush
  refine ⟨fun hins => ?_, hblock.canInsert⟩
  rcases hblock with ⟨hcursor, rfl | hbefore⟩
  · rwa [hcursor, Cursor.splice_nil] at hins
  · exact hbefore

/-- With its arguments pushed, a call gives the chosen overload if it can be inserted, and fails
with the error of the choice. Where the choice is made and the call cannot be inserted, it fails
with the error of the position. -/
theorem pushCall_of_pushEach (t : TypeRef) (name : MemberName)
    (hpush : pushEach md context as w = .ok types w₁) :
    (∀ m, (∃ w', pushCall md context t name as w = .ok m w') ↔
      md.resolveOverload t name types = .ok m ∧ w.cursor.CanInsert) ∧
    ∀ err, (∃ w', pushCall md context t name as w = .error err w') ↔
      md.resolveOverload t name types = .error err ∨
        (∃ m, md.resolveOverload t name types = .ok m) ∧ ¬ w.cursor.CanInsert ∧
          err = .positionOutOfRange w.cursor.position w.cursor.length := by
  have himplements := pushEach_call_implements (σ := σ) md context t name as
  cases hm : md.resolveOverload t name types with
  | error err =>
    obtain ⟨w', hcall⟩ : ∃ w', pushCall md context t name as w = .error err w' := by
      refine himplements.allOrNothing_fails_iff.2 ⟨w₁, ?_⟩
      rw [bind_of_ok hpush, hm]
      rfl
    simp [hcall]
  | ok m =>
    by_cases hins : w.cursor.CanInsert
    · obtain ⟨block, hcompile, -⟩ := (pushEach_implements md context as).ok hpush
      have hcompiled : Argument.compileCall md context t name as =
          .ok (block ++ [.call md m], m) := by
        rw [Argument.compileCall, hcompile]
        show (do
          let m ← md.resolveOverload t name types
          return (block ++ [Instruction.call md m], m)) = _
        rw [hm]
        rfl
      obtain ⟨w', hcall, -⟩ := himplements.allOrNothing_of_result_ok hcompiled hins
      have hcall : pushCall md context t name as w = .ok m w' := hcall
      simp [hcall, hins]
    · have hins₁ := mt (canInsert_of_pushEach hpush).1 hins
      obtain ⟨-, -, hcursor⟩ := eq_nil_of_pushEach hpush hins₁
      obtain ⟨w', hcall⟩ : ∃ w', pushCall md context t name as w =
          .error (.positionOutOfRange w.cursor.position w.cursor.length) w' := by
        refine himplements.allOrNothing_fails_iff.2 ⟨w₁, ?_⟩
        rw [bind_of_ok hpush, hm, ← hcursor]
        show (do emit [.call md m]; record (.callInserted m); return m : Edit σ MethodRef) w₁ = _
        rw [bind_of_error (emit_of_not_canInsert [.call md m] hins₁)]
      simp [hcall, hins, eq_comm]

end Edit

namespace Registry

/-- In a reached registry, the choice gives a method exactly when it is the only candidate. It finds
none exactly when there is no candidate, and too many exactly when there are two, and it names those
two that were declared first. Candidates differ in staticness, generic arguments or result, so no
method is in its own way because it was declared twice. A chosen method takes as many values as
there are arguments, with a receiver or without. A call whose arguments can be pushed answers as the
choice does. There is one exception: a call without arguments is not given the only candidate where
nothing can be inserted, and fails for its position there. -/
theorem resolveOverload_exact {σ : Type} {M : NameMap} {r : Registry M}
    (hrun : ReflTransGen Step {} r)
    (t : TypeRef) (name : MemberName) (types : List (ValueType TypeRef)) :
    let K := r.md.Candidates t name types
    (∀ m, r.md.resolveOverload t name types = .ok m ↔ K = {m}) ∧
    (r.md.resolveOverload t name types = .error (.missingOverload t name types) ↔ K = ∅) ∧
    ((∃ m n, r.md.resolveOverload t name types = .error (.ambiguousMethod m n)) ↔ K.Nontrivial) ∧
    (∀ m n, r.md.resolveOverload t name types = .error (.ambiguousMethod m n) →
      FirstTwo K (r.methods.map (·.2)) m n) ∧
    (∀ m ∈ K, ∀ n ∈ K, m ≠ n →
      (r.md.method m).isStatic ≠ (r.md.method n).isStatic ∨
        (r.md.method m).generics ≠ (r.md.method n).generics ∨
        (r.md.method m).signature.result ≠ (r.md.method n).signature.result) ∧
    (∀ m, r.md.resolveOverload t name types = .ok m →
      types.length = (r.md.method m).consumption) ∧
    ∀ (context : EditedMethod) (as : List Argument) (w w₁ : Workspace σ),
      Edit.pushArguments r.md context as w = .ok types w₁ →
      (∀ m, (∃ w', Edit.pushCall r.md context t name as w = .ok m w') ↔
        K = {m} ∧ w.cursor.CanInsert) ∧
      ((∃ w', Edit.pushCall r.md context t name as w =
        .error (.missingOverload t name types) w') ↔ K = ∅) ∧
      ((∃ m n w', Edit.pushCall r.md context t name as w = .error (.ambiguousMethod m n) w') ↔
        K.Nontrivial) ∧
      (∀ m n w', Edit.pushCall r.md context t name as w = .error (.ambiguousMethod m n) w' →
        FirstTwo K (r.methods.map (·.2)) m n) ∧
      (¬ w.cursor.CanInsert → as = [] ∧
        ((∃ w', Edit.pushCall r.md context t name as w =
          .error (.positionOutOfRange w.cursor.position w.cursor.length) w') ↔ ∃ m, K = {m})) := by
  intro K
  have h : r.Consistent := Consistent.empty.run hrun
  refine ⟨fun m => h.resolveOverload_eq_ok, h.resolveOverload_eq_missing,
    h.resolveOverload_eq_ambiguous, fun m n => h.firstTwo_of_resolveOverload,
    fun m hm n hn => h.candidates_differ hm hn,
    fun m hm => (Metadata.consumption_of_resolveOverload hm).symm,
    fun context as w w₁ hpush => ?_⟩
  have hpush := (Edit.pushEach_implements r.md context as).allOrNothing_eq_ok.1 hpush
  obtain ⟨hok, herror⟩ := Edit.pushCall_of_pushEach t name hpush
  have hambiguous : ∀ m n, (∃ w', Edit.pushCall r.md context t name as w =
      .error (.ambiguousMethod m n) w') ↔
        r.md.resolveOverload t name types = .error (.ambiguousMethod m n) := by
    intro m n
    simp [herror]
  refine ⟨fun m => ?_, ?_, ?_,
    fun m n w' hmn => h.firstTwo_of_resolveOverload ((hambiguous m n).1 ⟨w', hmn⟩),
    fun hins => ⟨?_, ?_⟩⟩
  · rw [hok, h.resolveOverload_eq_ok]
  · rw [herror, ← h.resolveOverload_eq_missing]
    simp
  · rw [← h.resolveOverload_eq_ambiguous]
    simp only [hambiguous]
  · exact (Edit.eq_nil_of_pushEach hpush (mt (Edit.canInsert_of_pushEach hpush).1 hins)).1
  · rw [herror, or_iff_right Metadata.resolveOverload_ne_position]
    constructor
    · rintro ⟨⟨m, hm⟩, -⟩
      exact ⟨m, h.resolveOverload_eq_ok.1 hm⟩
    · rintro ⟨m, hm⟩
      exact ⟨⟨m, h.resolveOverload_eq_ok.2 hm⟩, hins, rfl⟩

/-- A constructor that takes the parameters and returns nothing, with the attribute bits. -/
def constructorTaking (parameters : List (ValueType TypeRef)) (bits : BitVec 32) : Method where
  declaring := ⟨0⟩
  name := .constructor
  signature := ⟨parameters, none⟩
  generics := []
  attributes := .ofBits _ bits

/-- A type with an instance method that takes a number, declared twice, and a static method that
takes an instance and a number. -/
def receiverOrParameter : Registry pairMap :=
  ({} : Registry pairMap)
    |>.declare (.type { name := .object, base := none, attributes := .ofBits _ 0x1 })
    |>.declare (.method (constructorTaking [.base .int32] 0x6))
    |>.declare (.method (constructorTaking [.base .int32] 0x6))
    |>.declare (.method (constructorTaking [.ofClass ⟨0⟩, .base .int32] 0x16))

/-- With an instance in front of a number both methods are meant. With two numbers only the instance
method is, and its second declaration does not count. -/
theorem resolveOverload_exact_receiver :
    ReflTransGen Step {} receiverOrParameter ∧
      receiverOrParameter.methods.map (·.2) = [⟨0⟩, ⟨0⟩, ⟨1⟩] ∧
      FirstTwo
        (receiverOrParameter.md.Candidates ⟨0⟩ .constructor [.ofClass ⟨0⟩, .base .int32])
        [⟨0⟩, ⟨0⟩, ⟨1⟩] ⟨0⟩ ⟨1⟩ ∧
      receiverOrParameter.md.Candidates ⟨0⟩ .constructor [.base .int32, .base .int32] = {⟨0⟩} ∧
      (receiverOrParameter.md.method ⟨0⟩).consumption = 2 ∧
      ∃ w', Edit.pushCall receiverOrParameter.md ⟨⟨0⟩, []⟩ ⟨0⟩ .constructor
        [.literal (.int32 1), .literal (.int32 2)] Edit.onReturn = .ok ⟨0⟩ w' := by
  have hrun : ReflTransGen Step {} receiverOrParameter := by
    refine .head ⟨_, ?_, rfl⟩ <| .head ⟨_, ?_, rfl⟩ <| .head ⟨_, ?_, rfl⟩ <|
      .head ⟨_, ?_, rfl⟩ .refl
    · nofun
    · exact ⟨_, List.mem_cons_self⟩
    · exact ⟨_, List.mem_cons_self⟩
    · exact ⟨_, List.mem_cons_self⟩
  obtain ⟨-, -, -, hfirst, -⟩ := resolveOverload_exact (σ := Unit) hrun ⟨0⟩ .constructor
    [.ofClass ⟨0⟩, .base .int32]
  obtain ⟨hok, -, -, -, -, hlength, hcall⟩ := resolveOverload_exact (σ := Unit) hrun ⟨0⟩
    .constructor [.base .int32, .base .int32]
  have honly : receiverOrParameter.md.Candidates ⟨0⟩ .constructor [.base .int32, .base .int32] =
      {⟨0⟩} := (hok ⟨0⟩).1 rfl
  obtain ⟨hgiven, -⟩ :=
    hcall ⟨⟨0⟩, []⟩ [.literal (.int32 1), .literal (.int32 2)] Edit.onReturn _ rfl
  exact ⟨hrun, rfl, hfirst ⟨0⟩ ⟨1⟩ rfl, honly, (hlength ⟨0⟩ rfl).symm,
    (hgiven ⟨0⟩).2 ⟨honly, by decide⟩⟩

/-- A type with a static method that takes nothing. -/
def withoutParameters : Registry pairMap :=
  ({} : Registry pairMap)
    |>.declare (.type { name := .object, base := none, attributes := .ofBits _ 0x1 })
    |>.declare (.method (constructorTaking [] 0x16))

/-- The cursor in front of the only instruction of some code. -/
def beforeReturn : Workspace Unit where
  cursor := Cursor.ofCode [{ opcode := .ret }]
  own := ()

/-- In front of the code a call without arguments is not given the only candidate. -/
theorem pushCall_candidate_before_code :
    ReflTransGen Step {} withoutParameters ∧
      withoutParameters.md.Candidates ⟨0⟩ .constructor [] = {⟨0⟩} ∧
      (∃ w₁, Edit.pushArguments withoutParameters.md ⟨⟨0⟩, []⟩ [] beforeReturn = .ok [] w₁) ∧
      (∃ w', Edit.pushCall withoutParameters.md ⟨⟨0⟩, []⟩ ⟨0⟩ .constructor [] beforeReturn =
        .error (.positionOutOfRange (-1) 1) w') ∧
      ¬ ∃ w', Edit.pushCall withoutParameters.md ⟨⟨0⟩, []⟩ ⟨0⟩ .constructor [] beforeReturn =
        .ok ⟨0⟩ w' := by
  have hrun : ReflTransGen Step {} withoutParameters := by
    refine .head ⟨_, ?_, rfl⟩ <| .head ⟨_, ?_, rfl⟩ .refl
    · nofun
    · exact ⟨_, List.mem_cons_self⟩
  have honly := (Consistent.empty.run hrun).resolveOverload_eq_ok (t := ⟨0⟩) (m := ⟨0⟩)
    |>.1 (rfl : withoutParameters.md.resolveOverload ⟨0⟩ .constructor [] = .ok ⟨0⟩)
  obtain ⟨w', hfails⟩ : ∃ w', Edit.pushCall withoutParameters.md ⟨⟨0⟩, []⟩ ⟨0⟩ .constructor []
      beforeReturn = .error (.positionOutOfRange (-1) 1) w' := ⟨_, rfl⟩
  refine ⟨hrun, honly, ⟨_, rfl⟩, ⟨w', hfails⟩, ?_⟩
  rintro ⟨w'', hgiven⟩
  cases hfails.symm.trans hgiven

end Registry

end Weaving
