import Mathlib.Data.List.Forall2
import Weaving.Edit.CallSite
import Weaving.Proofs.Nearest

/-!
# Finding calls

A call is looked for by a description of its method. `MethodPattern.Describes` says what a
description asks of a method, and `Code.CallAt` which instructions are calls of such methods. The
cursor goes to the first of them from its position on, or past the code if there is none
(`Edit.seekCall_cases`).

A description gives no more than the first parameters and the first generic arguments. So it still
describes a method that got further ones at the end (`Metadata.Extends`), and a description that
gives fewer of them (`MethodPattern.Loosens`) describes what the other one did. If methods are
replaced in this way all over the code, or if the description is, a search that found a call finds
one still, at the same index or before it (`Edit.seekCall_survives`).
-/

namespace Weaving

/-! ## Descriptions -/

/-- The method has the names that the pattern gives, and begins with the parameters and the generic
arguments that it gives, if any. -/
structure MethodPattern.Describes (md : Metadata) (p : MethodPattern) (m : MethodRef) : Prop where
  declaring : (md.type (md.method m).declaring).name = p.declaring
  name : (md.method m).name = p.name
  parameters : ∀ types ∈ p.parameters, types <+: (md.method m).signature.parameters
  generics : ∀ types ∈ p.generics, types <+: (md.method m).generics

/-- The second method has the names of the first, and its parameters and generic arguments are those
of the first with further ones behind them. -/
structure Metadata.Extends (md : Metadata) (m m' : MethodRef) : Prop where
  declaring : (md.type (md.method m').declaring).name = (md.type (md.method m).declaring).name
  name : (md.method m').name = (md.method m).name
  parameters : (md.method m).signature.parameters <+: (md.method m').signature.parameters
  generics : (md.method m).generics <+: (md.method m').generics

/-- The first pattern gives the names that the second gives, and no parameters and generic arguments
but the first of those that the second gives. -/
structure MethodPattern.Loosens (p' p : MethodPattern) : Prop where
  declaring : p'.declaring = p.declaring
  name : p'.name = p.name
  parameters : ∀ types' ∈ p'.parameters, ∃ types ∈ p.parameters, types' <+: types
  generics : ∀ types' ∈ p'.generics, ∃ types ∈ p.generics, types' <+: types

namespace MethodPattern

variable {md : Metadata} {p p' : MethodPattern} {m m' : MethodRef}

/-- The test for a method decides what the pattern says. -/
theorem admits_iff : p.admits md m = true ↔ p.Describes md m := by
  simp only [admits, Bool.and_eq_true, beq_iff_eq, Option.all_eq_true, Signature.startsWith_iff,
    List.isPrefixOf_iff_prefix]
  constructor
  · rintro ⟨⟨⟨hdeclaring, hname⟩, hparameters⟩, hgenerics⟩
    refine ⟨hdeclaring, hname, fun types htypes => ?_, hgenerics⟩
    obtain ⟨rest, hrest⟩ := hparameters types htypes
    exact ⟨rest, hrest.symm⟩
  · rintro ⟨hdeclaring, hname, hparameters, hgenerics⟩
    refine ⟨⟨⟨hdeclaring, hname⟩, fun types htypes => ?_⟩, hgenerics⟩
    obtain ⟨rest, hrest⟩ := hparameters types htypes
    exact ⟨rest, hrest.symm⟩

/-- What is described stays so when parameters and generic arguments are appended to it. -/
theorem Describes.extend (h : p.Describes md m) (hextends : md.Extends m m') :
    p.Describes md m' where
  declaring := hextends.declaring.trans h.declaring
  name := hextends.name.trans h.name
  parameters types htypes := (h.parameters types htypes).trans hextends.parameters
  generics types htypes := (h.generics types htypes).trans hextends.generics

/-- What is described stays so when less is asked for. -/
theorem Describes.loosen (h : p.Describes md m) (hloosens : p'.Loosens p) :
    p'.Describes md m where
  declaring := h.declaring.trans hloosens.declaring.symm
  name := h.name.trans hloosens.name.symm
  parameters types' htypes' := by
    obtain ⟨types, htypes, hprefix⟩ := hloosens.parameters types' htypes'
    exact hprefix.trans (h.parameters types htypes)
  generics types' htypes' := by
    obtain ⟨types, htypes, hprefix⟩ := hloosens.generics types' htypes'
    exact hprefix.trans (h.generics types htypes)

end MethodPattern

/-! ## Calls in the code -/

namespace Instruction

/-- An instruction calls the method that is its operand, if it is a call. -/
theorem callee?_eq_some {i : Instruction} {m : MethodRef} :
    i.callee? = some m ↔ i.opcode.isCall = true ∧ i.operand = some (.method m) := by
  have hmethod (o : Operand) : o.method? = some m ↔ o = .method m := by
    cases o <;> simp [Operand.method?]
  simp [callee?, Option.bind_eq_some_iff, hmethod]

/-- The second instruction is the first one, or has in place of its method one that extends it. -/
inductive Extends (md : Metadata) : Instruction → Instruction → Prop
  | same (i : Instruction) : Extends md i i
  | method {i : Instruction} {m m' : MethodRef} (hmethod : i.operand = some (.method m))
      (h : md.Extends m m') : Extends md i { i with operand := some (.method m') }

end Instruction

namespace Code

variable {md : Metadata} {target target' : MethodPattern} {code code' : Code} {k : Nat}

/-- The instruction at the index is a call whose operand is a method that the pattern describes. -/
def CallAt (md : Metadata) (target : MethodPattern) (code : Code) (k : Nat) : Prop :=
  ∃ i m, code[k]? = some i ∧ i.opcode.isCall = true ∧ i.operand = some (.method m) ∧
    target.Describes md m

/-- A call is an instruction of the code. -/
theorem CallAt.lt (h : code.CallAt md target k) : k < code.length := by
  obtain ⟨i, m, hi, -⟩ := h
  exact (List.getElem?_eq_some_iff.1 hi).1

/-- A search for calls looks for calls of the methods that the pattern describes. -/
theorem holdsAt_callsMatch : code.HoldsAt (·.callsMatch md target) = code.CallAt md target := by
  funext k
  simp only [HoldsAt, CallAt, Instruction.callsMatch, Option.any_eq_true,
    Instruction.callee?_eq_some, MethodPattern.admits_iff, eq_iff_iff]
  constructor
  · rintro ⟨i, hi, m, ⟨hcall, hmethod⟩, hdescribes⟩
    exact ⟨i, m, hi, hcall, hmethod, hdescribes⟩
  · rintro ⟨i, m, hi, hcall, hmethod, hdescribes⟩
    exact ⟨i, hi, m, ⟨hcall, hmethod⟩, hdescribes⟩

/-- A call is still one after methods were replaced by others that extend them. -/
theorem CallAt.extend (hcode : List.Forall₂ (Instruction.Extends md) code code')
    (h : code.CallAt md target k) : code'.CallAt md target k := by
  obtain ⟨i, m, hi, hcall, hmethod, hdescribes⟩ := h
  obtain ⟨hlt, rfl⟩ := List.getElem?_eq_some_iff.1 hi
  have hlt' : k < code'.length := hcode.length_eq ▸ hlt
  have hat : code'[k]? = some code'[k] := List.getElem?_eq_getElem hlt'
  have hextends : Instruction.Extends md code[k] code'[k] := hcode.get hlt hlt'
  generalize code'[k] = i' at hat hextends
  cases hextends with
  | same => exact ⟨_, m, hat, hcall, hmethod, hdescribes⟩
  | @method m₀ m' hmethod₀ hm' =>
    obtain rfl : m₀ = m := by simpa [hmethod] using hmethod₀.symm
    exact ⟨_, m', hat, hcall, rfl, hdescribes.extend hm'⟩

/-- A call that is described stays described when less is asked for. -/
theorem CallAt.loosen (htarget : target'.Loosens target) (h : code.CallAt md target k) :
    code.CallAt md target' k := by
  obtain ⟨i, m, hi, hcall, hmethod, hdescribes⟩ := h
  exact ⟨i, m, hi, hcall, hmethod, hdescribes.loosen htarget⟩

end Code

/-! ## The search -/

namespace Edit

variable {σ : Type} {md : Metadata} {target : MethodPattern} {w w₁ : Workspace σ}

/-- A search succeeds always and takes the cursor to where it ends. -/
theorem search_apply (direction : Direction) (holds : Instruction → Bool) (w : Workspace σ) :
    search direction holds w = .ok () (w.landed (w.cursor.search direction holds)) := by
  rw [search, bind_of_ok (cursor_apply w), land_apply]

/-- The search for a call goes to the first one from the position on. If there is none it fails,
with the cursor past the code. Nothing of the cursor changes but its position and its failure. -/
theorem seekCall_cases (md : Metadata) (target : MethodPattern) (w : Workspace σ) :
    let s := (max w.cursor.position 0).toNat
    (∃ k w₁, IsLeast {k | s ≤ k ∧ w.cursor.code.CallAt md target k} k ∧
        seekCall md target w = .ok () w₁ ∧
        w₁.cursor = { w.cursor with position := k, failure := none }) ∨
      (∀ k, s ≤ k → ¬ w.cursor.code.CallAt md target k) ∧
        ∃ w₁, seekCall md target w = .error (.callNotFound target) w₁ ∧
          w₁.cursor = { w.cursor with
            position := w.cursor.length, failure := some (.instruction .forward s) } := by
  intro s
  let found := w.landed (w.cursor.search .forward (·.callsMatch md target))
  have hrun : search .forward (·.callsMatch md target) w = .ok () found := search_apply _ _ w
  rw [seekCall, bind_of_ok hrun, bind_of_ok (cursor_apply found)]
  obtain ⟨k, -, hnearest, heq⟩ | ⟨hnone, heq⟩ :=
    w.cursor.search_cases .forward (·.callsMatch md target)
  · rw [Code.holdsAt_callsMatch] at hnearest
    have hvalid : found.cursor.isValid = true := by
      change (w.cursor.search _ _).isValid = true
      rw [heq, Cursor.isValid_iff]
      exact ⟨Int.natCast_nonneg k, Int.ofNat_lt.2 hnearest.ahead.2.lt⟩
    rw [if_pos hvalid]
    exact .inl ⟨k, _, hnearest, rfl, heq⟩
  · rw [Code.holdsAt_callsMatch] at hnone
    have hinvalid : ¬ found.cursor.isValid = true := by
      change ¬ (w.cursor.search _ _).isValid = true
      rw [heq, Cursor.isValid_iff]
      exact fun h => Int.lt_irrefl _ h.2
    rw [if_neg hinvalid]
    refine .inr ⟨fun k hk hcall => ?_, found, rfl, heq⟩
    exact hnone ⟨Nat.lt_of_le_of_lt hk hcall.lt, k, hk, hcall⟩

/-- Where a search for a call succeeds, the cursor is on the first one. -/
theorem isLeast_of_seekCall {c : Nat} (hseek : seekCall md target w = .ok () w₁)
    (hc : w₁.cursor.position = c) :
    IsLeast {k | (max w.cursor.position 0).toNat ≤ k ∧ w.cursor.code.CallAt md target k} c := by
  obtain ⟨k, w₂, hleast, hseek₂, hcursor⟩ | ⟨-, w₂, hseek₂, -⟩ := seekCall_cases md target w
  · cases hseek.symm.trans hseek₂
    rw [hcursor] at hc
    obtain rfl : k = c := Int.ofNat_inj.1 hc
    exact hleast
  · cases hseek.symm.trans hseek₂

/-- With a call ahead the search succeeds, there or before it. -/
theorem seekCall_of_callAt {c : Nat} (hahead : (max w.cursor.position 0).toNat ≤ c)
    (hcall : w.cursor.code.CallAt md target c) :
    ∃ c' w₁, c' ≤ c ∧ seekCall md target w = .ok () w₁ ∧ w₁.cursor.position = (c' : Nat) := by
  obtain ⟨k, w₂, hleast, hseek, hcursor⟩ | ⟨hnone, -⟩ := seekCall_cases md target w
  · exact ⟨k, w₂, hleast.2 ⟨hahead, hcall⟩, hseek, by rw [hcursor]⟩
  · exact absurd hcall (hnone c hahead)

/-- The search for a call survives parameters and generic arguments that are appended to methods. If
it stops at an index, it stops there or before it, from the same position, in code in which methods
were replaced by others that extend them, and so it does for a pattern that gives fewer parameters
and generic arguments, or none. Parameters start with the given ones exactly if they are these and
then any others. -/
theorem seekCall_survives (md : Metadata) (target : MethodPattern) {w w₁ : Workspace σ} {c : Nat}
    (hseek : seekCall md target w = .ok () w₁) (hc : w₁.cursor.position = c) :
    (∀ w' : Workspace σ,
        List.Forall₂ (Instruction.Extends md) w.cursor.code w'.cursor.code →
        w'.cursor.position = w.cursor.position →
        ∃ c' w₁', c' ≤ c ∧ seekCall md target w' = .ok () w₁' ∧ w₁'.cursor.position = (c' : Nat)) ∧
      (∀ target' : MethodPattern, target'.Loosens target →
        ∃ c' w₁', c' ≤ c ∧ seekCall md target' w = .ok () w₁' ∧ w₁'.cursor.position = (c' : Nat)) ∧
      ∀ (κ : Type) [DecidableEq κ] (s : Signature κ) (types : List (ValueType κ)),
        s.startsWith types = true ↔ ∃ rest, s.parameters = types ++ rest := by
  obtain ⟨⟨hahead, hcall⟩, -⟩ := isLeast_of_seekCall hseek hc
  refine ⟨fun w' hcode hposition => ?_, fun target' htarget => ?_, fun κ _ s types => ?_⟩
  · rw [← hposition] at hahead
    exact seekCall_of_callAt hahead (hcall.extend hcode)
  · exact seekCall_of_callAt hahead (hcall.loosen htarget)
  · exact Signature.startsWith_iff

/-- A type with two methods of one name, of which the second takes a number behind the text. -/
def sayings : Metadata where
  types := [{ name := .object, base := none, attributes := .ofBits _ 0x1, methods := [⟨0⟩, ⟨1⟩] }]
  methods :=
    [{ declaring := ⟨0⟩, name := ⟨"Say", by decide⟩, signature := ⟨[.base .string], none⟩,
       generics := [], attributes := .ofBits _ 0x16 },
     { declaring := ⟨0⟩, name := ⟨"Say", by decide⟩,
       signature := ⟨[.base .string, .base .int32], none⟩, generics := [],
       attributes := .ofBits _ 0x16 }]

/-- The cursor before calls of the first method and of the second. -/
def twoSayings : Workspace Unit where
  cursor := Cursor.ofCode [.ldnull, .call sayings ⟨0⟩, .call sayings ⟨1⟩]
  own := ()

/-- The same calls, with the second method in place of the first. -/
def extendedSayings : Workspace Unit where
  cursor := Cursor.ofCode [.ldnull, .call sayings ⟨1⟩, .call sayings ⟨1⟩]
  own := ()

/-- The call with text and number is found in the code that has it later, and in the code where both
calls have it; the call with a text is found too. -/
theorem seekCall_survives_sayings :
    let target : MethodPattern :=
      { declaring := .object, name := ⟨"Say", by decide⟩,
        parameters := some [.base .string, .base .int32] }
    (∃ w₁, seekCall sayings target twoSayings = .ok () w₁ ∧ w₁.cursor.position = 2) ∧
      (∃ c w₁, c ≤ 2 ∧ seekCall sayings target extendedSayings = .ok () w₁ ∧
        w₁.cursor.position = (c : Nat)) ∧
      ∃ c w₁, c ≤ 2 ∧
        seekCall sayings { target with parameters := some [.base .string] } twoSayings =
          .ok () w₁ ∧ w₁.cursor.position = (c : Nat) := by
  intro target
  obtain ⟨w₁, hseek, hposition⟩ : ∃ w₁, seekCall sayings target twoSayings = .ok () w₁ ∧
      w₁.cursor.position = 2 := ⟨_, rfl, rfl⟩
  obtain ⟨hextended, hloosened, -⟩ := seekCall_survives sayings target (c := 2) hseek hposition
  have hmethod : sayings.Extends ⟨0⟩ ⟨1⟩ := ⟨rfl, rfl, ⟨[.base .int32], rfl⟩, ⟨[], rfl⟩⟩
  refine ⟨⟨w₁, hseek, hposition⟩, hextended extendedSayings ?_ rfl, hloosened _ ?_⟩
  · exact .cons (.same _) (.cons (.method rfl hmethod) (.cons (.same _) .nil))
  · refine ⟨rfl, rfl, ?_, nofun⟩
    rintro types' ⟨⟩
    exact ⟨_, rfl, [.base .int32], rfl⟩

end Edit

end Weaving
