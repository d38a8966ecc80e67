import Weaving.Edit.Push
import Weaving.Proofs.Compile
import Weaving.Proofs.Outcome

/-!
# Pushing arguments

Pushing arguments inserts the code that they compile to. `Edit.Implements e r` says that the edit
`e` inserts what the result `r` gives: where instructions can be inserted, `e` fails with the error
of `r` or inserts its instructions and nothing else; and wherever `e` stops, what it inserted is one
block in front of the position. Edits that implement results compose (`Implements.bind`), so
`pushEach_implements` follows the descriptions as `pushOne` and `pushEach` do. That the block is one
is what lets a failed edit be undone knowing only the position and the length of the code before it
(`allOrNothing_of_error`).
-/

namespace Weaving

/-! ## Splices -/

/-- Two insertions one behind the other are one. -/
theorem Code.insertAt_insertAt {code : Code} {index : Nat} (a b : Code)
    (h : index ≤ code.length) :
    (code.insertAt index a).insertAt (index + a.length) b = code.insertAt index (a ++ b) := by
  have hlen : (code.take index ++ a).length = index + a.length := by simp [h]
  unfold insertAt
  rw [← hlen, List.take_left, List.drop_left]
  simp only [List.append_assoc]

/-- Removing what was inserted gives the code back. -/
theorem Code.removeBetween_insertAt {code block : Code} {index : Nat} (h : index ≤ code.length)
    (hb : 0 < block.length) :
    (code.insertAt index block).removeBetween index (index + block.length - 1) = code := by
  have hlen : (code.take index ++ block).length = index + block.length := by simp [h]
  have htake : (code.take index).length = index := by simp [h]
  have hfront : (code.insertAt index block).take index = code.take index := by
    rw [insertAt, List.append_assoc, List.take_left' htake]
  have hback : (code.insertAt index block).drop (index + block.length) = code.drop index := by
    rw [insertAt, List.drop_left' hlen]
  rw [removeBetween, Nat.sub_add_cancel (by omega), hfront, hback, List.take_append_drop]

namespace Cursor

@[simp] theorem splice_nil (c : Cursor) : c.splice [] = c := by
  simp [splice, put, Code.insertAt]

@[simp] theorem length_splice (c : Cursor) (block : Code) :
    (c.splice block).length = c.length + block.length := by
  simp only [splice, put, length, Code.insertAt, List.length_append, List.length_take,
    List.length_drop]
  omega

/-- Where instructions can be inserted, the position is an index or the end of the code. -/
theorem CanInsert.toNat_le {c : Cursor} (h : c.CanInsert) :
    c.position.toNat ≤ c.code.length := by
  have hhigh : c.position ≤ c.code.length := h.2
  omega

/-- Removing what was inserted gives the cursor back. -/
theorem cut_splice {c : Cursor} {block : Code} (h : c.CanInsert) (hb : 0 < block.length) :
    (c.splice block).cut c.position.toNat (c.position.toNat + block.length - 1) = c := by
  have hcode := Code.removeBetween_insertAt h.toNat_le hb
  have hpos : (c.splice block).position = c.position + block.length := rfl
  have hlow := h.1
  unfold cut
  rw [if_pos (by rw [hpos]; omega), hpos]
  cases c
  simp only [splice, put, Cursor.mk.injEq, and_true] at *
  exact ⟨hcode, by omega⟩

/-- Two blocks that are inserted one after the other are one block. -/
theorem splice_splice {c : Cursor} (a b : Code) (h : c.CanInsert) :
    (c.splice a).splice b = c.splice (a ++ b) := by
  have hlow := h.1
  have hpos : (c.splice a).position.toNat = c.position.toNat + a.length := by
    change (c.position + a.length).toNat = _
    omega
  have hcode := Code.insertAt_insertAt a b h.toNat_le
  rw [← hpos] at hcode
  unfold splice put at *
  simp only [hcode, List.length_append, Cursor.mk.injEq, true_and, and_true]
  push_cast
  omega

/-- The second cursor is the first with the instructions inserted. Where none can be inserted there
are none. -/
def Spliced (c : Cursor) (block : Code) (c' : Cursor) : Prop :=
  c' = c.splice block ∧ (block = [] ∨ c.CanInsert)

/-- A cursor that stays as it is got nothing inserted. -/
theorem Spliced.refl (c : Cursor) : c.Spliced [] c :=
  ⟨c.splice_nil.symm, .inl rfl⟩

/-- What is inserted twice in turn is inserted at once. -/
theorem Spliced.trans {c₁ c₂ c₃ : Cursor} {a b : Code} (h₁ : c₁.Spliced a c₂)
    (h₂ : c₂.Spliced b c₃) : c₁.Spliced (a ++ b) c₃ := by
  obtain ⟨rfl, ha⟩ := h₁
  obtain ⟨rfl, hb⟩ := h₂
  rcases ha with rfl | ha
  · rw [splice_nil] at *
    exact ⟨rfl, hb⟩
  · exact ⟨splice_splice a b ha, .inr ha⟩

/-- After an insertion instructions can still be inserted. -/
theorem Spliced.canInsert {c c' : Cursor} {block : Code} (h : c.Spliced block c')
    (hins : c.CanInsert) : c'.CanInsert := by
  obtain ⟨rfl, -⟩ := h
  have hpos : (c.splice block).position = c.position + block.length := rfl
  obtain ⟨hlow, hhigh⟩ := hins
  unfold CanInsert
  rw [length_splice, hpos]
  push_cast
  omega

end Cursor

/-! ## Edits that implement results -/

/-- The instructions of the one result followed by those of the other, which depends on the value of
the first. -/
def Code.andThen {α β : Type} (r : Except Error (Code × α)) (s : α → Except Error (Code × β)) :
    Except Error (Code × β) := do
  let (block, a) ← r
  let (more, b) ← s a
  return (block ++ more, b)

@[simp] theorem Code.andThen_ok {α β : Type} (block : Code) (a : α)
    (s : α → Except Error (Code × β)) :
    Code.andThen (.ok (block, a)) s = (s a).map fun x => (block ++ x.1, x.2) := by
  change (s a >>= fun x => .ok (block ++ x.1, x.2)) = _
  cases s a <;> rfl

@[simp] theorem Code.andThen_error {α β : Type} (err : Error) (s : α → Except Error (Code × β)) :
    Code.andThen (.error err) s = .error err := rfl

namespace Edit

variable {σ α β : Type}

/-- The edit inserts what the result gives. -/
structure Implements (e : Edit σ α) (r : Except Error (Code × α)) : Prop where
  /-- A success inserts the instructions of the result. -/
  ok : ∀ {w a w'}, e w = .ok a w' → ∃ block, r = .ok (block, a) ∧ w.cursor.Spliced block w'.cursor
  /-- A failure leaves one block inserted. -/
  error : ∀ {w err w'}, e w = .error err w' → ∃ block, w.cursor.Spliced block w'.cursor
  /-- Where instructions can be inserted, a failure is that of the result. -/
  fails : ∀ {w err w'}, e w = .error err w' → w.cursor.CanInsert → r = .error err

namespace Implements

/-- Returning a value inserts nothing. -/
theorem pure (a : α) : Implements (pure a : Edit σ α) (.ok ([], a)) where
  ok h := by cases h; exact ⟨[], rfl, .refl _⟩
  error h := by cases h
  fails h := by cases h

/-- A failure inserts nothing. -/
theorem throw (err : Error) : Implements (throw err : Edit σ α) (.error err) where
  ok h := by cases h
  error h := by cases h; exact ⟨[], .refl _⟩
  fails h _ := by cases h; rfl

/-- Recording an event inserts nothing. -/
theorem record (event : Event) : Implements (record event : Edit σ Unit) (.ok ([], ())) where
  ok h := by cases h; exact ⟨[], rfl, .refl _⟩
  error h := by cases h
  fails h := by cases h

/-- An emission inserts its instructions. -/
theorem emit (more : Code) : Implements (emit more : Edit σ Unit) (.ok (more, ())) where
  ok {w a w'} h := by
    by_cases hins : w.cursor.CanInsert
    · rw [emit_of_canInsert more hins] at h
      cases h
      exact ⟨more, rfl, rfl, .inr hins⟩
    · rw [emit_of_not_canInsert more hins] at h
      cases h
  error {w err w'} h := by
    by_cases hins : w.cursor.CanInsert
    · rw [emit_of_canInsert more hins] at h
      cases h
    · rw [emit_of_not_canInsert more hins] at h
      cases h
      exact ⟨[], .refl _⟩
  fails {w err w'} h hins := by
    rw [emit_of_canInsert more hins] at h
    cases h

/-- Edits one after the other insert their instructions one behind the other. -/
theorem bind {e : Edit σ α} {f : α → Edit σ β} {r : Except Error (Code × α)}
    {s : α → Except Error (Code × β)} (he : Implements e r) (hf : ∀ a, Implements (f a) (s a)) :
    Implements (e >>= f) (Code.andThen r s) where
  ok {w b w'} h := by
    obtain ⟨a, w₁, h₁, h₂⟩ := bind_eq_ok.1 h
    obtain ⟨block, rfl, hblock⟩ := he.ok h₁
    obtain ⟨more, hs, hmore⟩ := (hf a).ok h₂
    refine ⟨block ++ more, ?_, hblock.trans hmore⟩
    rw [Code.andThen_ok, hs]
    rfl
  error {w err w'} h := by
    rcases bind_eq_error.1 h with h | ⟨a, w₁, h₁, h₂⟩
    · exact he.error h
    · obtain ⟨block, -, hblock⟩ := he.ok h₁
      obtain ⟨more, hmore⟩ := (hf a).error h₂
      exact ⟨block ++ more, hblock.trans hmore⟩
  fails {w err w'} h hins := by
    rcases bind_eq_error.1 h with h | ⟨a, w₁, h₁, h₂⟩
    · rw [he.fails h hins, Code.andThen_error]
    · obtain ⟨block, rfl, hblock⟩ := he.ok h₁
      rw [Code.andThen_ok, (hf a).fails h₂ (hblock.canInsert hins)]
      rfl

/-- Recording an event inserts nothing. -/
theorem record_bind {e : Edit σ α} {r : Except Error (Code × α)} (event : Event)
    (he : Implements e r) : Implements (do Edit.record event; e) r := by
  have h := (record event).bind fun _ => he
  have hr : (r.map fun x => ([] ++ x.1, x.2)) = r := by cases r <;> rfl
  rwa [Code.andThen_ok, hr] at h

/-- What is found without the cursor inserts nothing. -/
theorem ofExcept_bind {x : Except Error α} {f : α → Edit σ β} {s : α → Except Error (Code × β)}
    (hf : ∀ a, Implements (f a) (s a)) :
    Implements (do let a ← Edit.ofExcept x; f a) (do let a ← x; s a) := by
  cases x with
  | ok a => exact hf a
  | error err => exact throw err

/-- What is made of the value of an edit inserts nothing more. -/
theorem bind_return {e : Edit σ α} {r : Except Error (Code × α)} (he : Implements e r)
    (g : α → β) : Implements (do return g (← e)) (r.map fun x => (x.1, g x.2)) := by
  have h := he.bind fun a => pure (g a)
  cases r with
  | ok x => rwa [Code.andThen_ok, Except.map, List.append_nil] at h
  | error err => exact h

/-- An emission can return anything. -/
theorem emit_return (more : Code) (a : α) :
    Implements (do Edit.emit more; return a : Edit σ α) (.ok (more, a)) :=
  (emit more).bind_return fun _ => a

end Implements

/-! ## Pushing implements compiling -/

section
variable (md : Metadata) (context : EditedMethod)

/-- Pushing the receiver inserts what it compiles to. -/
theorem pushReceiver_implements :
    Implements (pushReceiver md context : Edit σ _) (context.compileReceiver md) := by
  unfold pushReceiver EditedMethod.compileReceiver
  dsimp only
  split
  · exact .throw _
  · exact .emit_return _ _

mutual

/-- Pushing a value inserts the instructions that its description compiles to. -/
theorem pushOne_implements (a : Argument) :
    Implements (pushOne md context a : Edit σ _) (a.compile md context) := by
  cases a with
  | this =>
    rw [pushOne, Argument.compile]
    exact (pushReceiver_implements md context).record_bind _
  | parameter index expected =>
    rw [pushOne, Argument.compile]
    exact .record_bind _ (.ofExcept_bind fun _ => .emit_return _ _)
  | «local» choice =>
    rw [pushOne, Argument.compile]
    exact .record_bind _ (.ofExcept_bind fun _ => .emit_return _ _)
  | field type name =>
    rw [pushOne, Argument.compile]
    refine .record_bind _ ?_
    cases md.findField type name with
    | none => exact .throw _
    | some f =>
      dsimp only
      cases (md.field f).isStatic with
      | true => exact .emit_return _ _
      | false => exact (pushReceiver_implements md context).bind fun _ => .emit_return _ _
  | literal value =>
    rw [pushOne, Argument.compile]
    exact .record_bind _ (.ofExcept_bind fun _ => .emit_return _ _)
  | call m arguments =>
    rw [pushOne, Argument.compile]
    refine .record_bind _ ?_
    cases (md.method m).signature.result with
    | none => exact .throw _
    | some type => exact (pushEach_implements arguments).bind fun _ => .emit_return _ _

/-- Pushing values one after the other inserts the instructions that their descriptions compile
to. -/
theorem pushEach_implements (as : List Argument) :
    Implements (pushEach md context as : Edit σ _) (Argument.compileEach md context as) := by
  cases as with
  | nil => exact .pure _
  | cons a rest =>
    rw [pushEach, Argument.compileEach]
    have h := (pushOne_implements a).bind fun type =>
      (pushEach_implements rest).bind_return fun types => type :: types
    revert h
    cases a.compile md context with
    | error err => exact id
    | ok x => cases Argument.compileEach md context rest <;> exact id

end

/-- Pushing arguments and calling the overload that takes them inserts the instructions that this
compiles to. -/
theorem pushEach_call_implements (t : TypeRef) (name : MemberName) (as : List Argument) :
    Implements (do
      let types ← pushEach md context as
      let m ← ofExcept (md.resolveOverload t name types)
      emit [.call md m]
      record (.callInserted m)
      return m : Edit σ MethodRef) (Argument.compileCall md context t name as) := by
  have hcall : ∀ m, Implements (do emit [.call md m]; record (.callInserted m); return m : Edit σ _)
      (.ok ([.call md m], m)) := by
    intro m
    exact (Implements.emit [.call md m]).bind fun _ => .record_bind _ (.pure m)
  have h := (pushEach_implements md context as).bind fun types =>
    Implements.ofExcept_bind (x := md.resolveOverload t name types) hcall
  revert h
  unfold Argument.compileCall
  cases Argument.compileEach md context as with
  | error err => exact id
  | ok x =>
    obtain ⟨block, types⟩ := x
    rw [Code.andThen_ok]
    change _ → Implements _ (do
      let m ← md.resolveOverload t name types
      return (block ++ [.call md m], m))
    cases md.resolveOverload t name types <;> exact id

end

/-! ## All or nothing -/

/-- Nothing is undone after a success. -/
theorem allOrNothing_of_ok {e : Edit σ α} {w w' : Workspace σ} {a : α} (h : e w = .ok a w') :
    allOrNothing e w = .ok a w' := by
  rw [allOrNothing, bind_of_ok (cursor_apply w)]
  exact tryCatch_of_ok h

/-- If the edit inserted one block before it failed, the cursor is as it was before, and the error
is the one that the edit failed with. -/
theorem allOrNothing_of_error {e : Edit σ α} {w w' : Workspace σ} {err : Error} {block : Code}
    (h : e w = .error err w') (hblock : w.cursor.Spliced block w'.cursor) :
    allOrNothing e w = .error err { w' with cursor := w.cursor } := by
  obtain ⟨heq, hins⟩ := hblock
  have hlen : w'.cursor.length - w.cursor.length = block.length := by
    rw [heq, Cursor.length_splice]
    omega
  rw [allOrNothing, bind_of_ok (cursor_apply w)]
  refine (tryCatch_of_error h).trans ?_
  rw [bind_of_ok (cursor_apply w'), hlen]
  by_cases hb : 0 < block.length
  · have hins : w.cursor.CanInsert := by
      rcases hins with rfl | hins
      · cases hb
      · exact hins
    have hhigh := hins.2
    rw [if_pos ⟨hb, hins.1⟩]
    refine (bind_of_ok (removeBetween_of_lt ?_)).trans ?_
    · rw [heq, Cursor.length_splice]
      omega
    · rw [heq, Nat.min_eq_left (by omega), Nat.max_eq_right (by omega),
        Cursor.cut_splice hins hb]
      rfl
  · -- nothing was inserted, so nothing is removed: the cursor never changed
    have hnil : block = [] := List.length_eq_zero_iff.1 (by omega)
    rw [hnil, Cursor.splice_nil] at heq
    rw [if_neg (fun hpos => hb hpos.1), ← heq]
    rfl

section
variable {e : Edit σ α} {r : Except Error (Code × α)} {w w' : Workspace σ} {a : α} {err : Error}

/-- An edit that only inserts, run all or nothing, succeeds as it does by itself. -/
theorem Implements.allOrNothing_eq_ok (he : Implements e r) :
    allOrNothing e w = .ok a w' ↔ e w = .ok a w' := by
  refine ⟨fun h => ?_, allOrNothing_of_ok⟩
  cases hrun : e w with
  | ok b w₁ => rwa [allOrNothing_of_ok hrun] at h
  | error err w₁ =>
    obtain ⟨block, hblock⟩ := he.error hrun
    rw [allOrNothing_of_error hrun hblock] at h
    cases h

/-- An edit that only inserts, run all or nothing, inserts the instructions of its result. -/
theorem Implements.of_allOrNothing_ok (he : Implements e r) (h : allOrNothing e w = .ok a w') :
    ∃ block, r = .ok (block, a) ∧ w.cursor.Spliced block w'.cursor :=
  he.ok (he.allOrNothing_eq_ok.1 h)

/-- An edit that only inserts, run all or nothing, fails with the error that it fails with by
itself, and leaves the cursor as it was. -/
theorem Implements.of_allOrNothing_error (he : Implements e r)
    (h : allOrNothing e w = .error err w') :
    w'.cursor = w.cursor ∧ ∃ w₁, e w = .error err w₁ := by
  cases hrun : e w with
  | ok a w₁ =>
    rw [allOrNothing_of_ok hrun] at h
    cases h
  | error err' w₁ =>
    obtain ⟨block, hblock⟩ := he.error hrun
    rw [allOrNothing_of_error hrun hblock] at h
    cases h
    exact ⟨rfl, w₁, rfl⟩

/-- An edit that only inserts, run all or nothing, fails exactly where it fails by itself. -/
theorem Implements.allOrNothing_fails_iff (he : Implements e r) :
    (∃ w', allOrNothing e w = .error err w') ↔ ∃ w', e w = .error err w' := by
  constructor
  · rintro ⟨w', h⟩
    exact (he.of_allOrNothing_error h).2
  · rintro ⟨w', h⟩
    obtain ⟨block, hblock⟩ := he.error h
    exact ⟨_, allOrNothing_of_error h hblock⟩

/-- A result that is code is put in, all of it. -/
theorem Implements.allOrNothing_of_result_ok {block : Code} (he : Implements e r)
    (hr : r = .ok (block, a)) (hins : w.cursor.CanInsert) :
    ∃ w', allOrNothing e w = .ok a w' ∧ w'.cursor = w.cursor.splice block := by
  cases hrun : e w with
  | ok b w₁ =>
    obtain ⟨block', hr', hspliced⟩ := he.ok hrun
    cases hr.symm.trans hr'
    exact ⟨w₁, allOrNothing_of_ok hrun, hspliced.1⟩
  | error err w₁ => cases hr.symm.trans (he.fails hrun hins)

/-- A result that is an error is the error, and nothing is put in. -/
theorem Implements.allOrNothing_of_result_error (he : Implements e r) (hr : r = .error err)
    (hins : w.cursor.CanInsert) :
    ∃ w', allOrNothing e w = .error err w' ∧ w'.cursor = w.cursor := by
  cases hrun : e w with
  | ok b w₁ =>
    obtain ⟨block, hr', -⟩ := he.ok hrun
    cases hr.symm.trans hr'
  | error err' w₁ =>
    cases hr.symm.trans (he.fails hrun hins)
    obtain ⟨block, hblock⟩ := he.error hrun
    exact ⟨_, allOrNothing_of_error hrun hblock, rfl⟩

end

end Edit

end Weaving
