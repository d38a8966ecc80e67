import Mathlib.Logic.Relation
import Weaving.Edit.CallSite
import Weaving.Edit.ForEach
import Weaving.Edit.Push
import Weaving.Proofs.Invariant

/-!
# What operations do to a cursor

Every operation of the library comes to some of the changes that `Cursor.Change` lists, one after
the other, and leaves the caller's own state alone (`Operation.changes`). This holds of an operation
that fails too: what it did before it failed is a list of such changes. An operation that makes a
label makes it first, and where it fails it does nothing (`MakesLabel.outcome`). Invariants of
cursors are therefore proved for each kind of change and for making a label, and no proof of them
follows the operations again.
-/

namespace Weaving

/-! ## Where searches end -/

/-- A search visits indices of the code only. -/
theorem Direction.lt_of_mem_indices {direction : Direction} {start : Int} {length i : Nat}
    (h : i ∈ direction.indices start length) : i < length := by
  cases direction with
  | forward =>
    change i ∈ (if _ then _ else _) at h
    split at h
    · obtain ⟨hlow, hhigh⟩ := List.mem_range'_1.1 h
      omega
    · cases h
  | backward =>
    change i ∈ (if _ then _ else _) at h
    split at h
    · rw [List.mem_reverse, List.mem_range] at h
      omega
    · cases h

/-- The sentinels are the two ends of the range of positions. -/
theorem Direction.sentinel_range (direction : Direction) (length : Nat) :
    -1 ≤ direction.sentinel length ∧ direction.sentinel length ≤ length := by
  cases direction with
  | forward => exact ⟨by dsimp only [sentinel]; omega, Int.le_refl _⟩
  | backward => exact ⟨Int.le_refl _, by dsimp only [sentinel]; omega⟩

/-- Patterns that match in a row fit into the code. -/
theorem Pattern.add_length_le_of_matchAll {patterns : List Pattern} {code : Code} {index : Nat}
    (h : matchAll patterns code index = true) (hindex : index ≤ code.length) :
    index + patterns.length ≤ code.length := by
  induction patterns generalizing index with
  | nil => exact hindex
  | cons p rest ih =>
    rw [matchAll, Bool.and_eq_true] at h
    have hlt : index < code.length := by
      by_contra hge
      have hnone : code[index]? = none := List.getElem?_eq_none (by omega)
      rw [matchesAt, hnone] at h
      exact Bool.false_ne_true h.1
    have hrest := ih h.2 hlt
    rw [List.length_cons]
    omega

/-- What a search finds is an instruction of the code. -/
theorem Cursor.nearest?_lt {c : Cursor} {direction : Direction} {start : Int}
    {accepts : Nat → Bool} {i : Nat} (h : c.nearest? direction start accepts = some i) :
    i < c.length :=
  Direction.lt_of_mem_indices (List.mem_of_find?_eq_some h)

/-- A match is gone to at one of its instructions, or at its place if it has none. -/
theorem Cursor.add_offset_le_of_nearestMatch? {c : Cursor} {start : Int} {q : Query} {i : Nat}
    (h : c.nearestMatch? q.direction start q.patterns = some i) : i + q.offset ≤ c.length := by
  have hfit := Pattern.add_length_le_of_matchAll (List.find?_some h) (Nat.le_of_lt (nearest?_lt h))
  unfold Query.offset
  split
  · exact Nat.le_trans (by omega) hfit
  · exact Nat.le_of_lt (nearest?_lt h)

/-- An index that lies an offset away from the position is one of the code. -/
theorem Cursor.add_eq_of_indexAt? {c : Cursor} {offset : Int} {index : Nat}
    (h : c.indexAt? offset = some index) : c.position + offset = index ∧ index < c.length := by
  unfold indexAt? at h
  dsimp only at h
  split at h
  · cases h
    omega
  · cases h

/-! ## Changes of a cursor -/

namespace Cursor

/-- What an operation does to a cursor at once, except that it makes a label. -/
inductive Change (c : Cursor) : Cursor → Prop
  /-- The outcome of a search is kept or forgotten. -/
  | note (captures : Captures) (failure : Option Failure) (remembered : Option Query) :
      Change c { c with captures, failure, remembered }
  /-- The cursor moves, to a sentinel at the furthest. -/
  | move (position : Int) (low : -1 ≤ position) (high : position ≤ c.length) :
      Change c { c with position }
  /-- Instructions are changed in place. -/
  | rewrite {code : Code} (h : code.length = c.code.length) : Change c { c with code }
  /-- Instructions are inserted, and the position goes to the first of them. -/
  | put (more : Code) (h : c.CanInsert) : Change c (c.put more)
  /-- Instructions are inserted, and the position stays on its instruction. -/
  | splice (more : Code) (h : c.CanInsert) : Change c (c.splice more)
  /-- Instructions from the position on are removed. -/
  | removeHere {first last : Nat} (hfirst : c.position = first) (hle : first ≤ last + 1)
      (hlast : last < c.length) : Change c { c with code := c.code.removeBetween first last }
  /-- Instructions are removed, and the position follows. -/
  | cut {low high : Nat} (hle : low ≤ high) (hhigh : high < c.length) : Change c (c.cut low high)

/-- Attaching the next label, once it is made, changes one instruction in place. -/
theorem change_tagNext (c : Cursor) (index : Nat) : c.dropNext.Change (c.tagNext index) :=
  .rewrite (List.length_modify _ c.code index)

/-- The second cursor is the first after changes, if any. -/
abbrev Changes (c c' : Cursor) : Prop := Relation.ReflTransGen Change c c'

/-- A search moves the cursor, to the instruction found or to a sentinel, and notes how it ended. -/
theorem changes_search (c : Cursor) (direction : Direction) (holds : Instruction → Bool) :
    c.Changes (c.search direction holds) := by
  unfold search
  split
  · next i hi =>
    have hlt := nearest?_lt hi
    refine .tail (.single (.move i (by omega) (by omega))) ?_
    exact .note c.captures none c.remembered
  · have hrange := direction.sentinel_range c.length
    refine .tail (.single (.move _ hrange.1 hrange.2)) ?_
    exact .note c.captures (some _) c.remembered

/-- A query moves the cursor, to the match or to a sentinel, and notes what was captured. -/
theorem changes_findFrom (c : Cursor) (start : Int) (q : Query) :
    c.Changes (c.findFrom start q) := by
  unfold findFrom
  split
  · next i hi =>
    have hle := add_offset_le_of_nearestMatch? hi
    refine .tail (.single (.move (i + q.offset : Nat) (by omega) (by omega))) ?_
    exact .note _ none c.remembered
  · have hrange := q.direction.sentinel_range c.length
    refine .tail (.single (.move _ hrange.1 hrange.2)) ?_
    exact .note [] (some _) c.remembered

/-- Finding a match remembers the query besides. -/
theorem changes_find (c : Cursor) (q : Query) : c.Changes (c.find q) :=
  (c.changes_findFrom c.searchStart q).tail (.note _ _ (some q))

end Cursor

/-! ## Edits that change the cursor only -/

variable {σ α β : Type}

/-- The second workspace differs from the first by changes of the cursor, and in the log. -/
structure Workspace.Changed (w w' : Workspace σ) : Prop where
  cursor : w.cursor.Changes w'.cursor
  own : w'.own = w.own

namespace Workspace.Changed

/-- Doing nothing is no change. -/
theorem refl (w : Workspace σ) : w.Changed w := ⟨.refl, rfl⟩

/-- Changes can follow each other. -/
theorem trans {w₁ w₂ w₃ : Workspace σ} (h₁ : w₁.Changed w₂) (h₂ : w₂.Changed w₃) :
    w₁.Changed w₃ :=
  ⟨h₁.cursor.trans h₂.cursor, h₂.own.trans h₁.own⟩

end Workspace.Changed

namespace Edit

/-- The edit changes the cursor and the log only, whether it succeeds or fails. -/
def Changes (e : Edit σ α) : Prop := Leads Workspace.Changed e

namespace Changes

/-- Returning a value changes nothing. -/
theorem pure (a : α) : Changes (pure a : Edit σ α) := fun w => .refl w

/-- A failure changes nothing by itself. -/
theorem throw (err : Error) : Changes (throw err : Edit σ α) := fun w => .refl w

/-- Recording an event changes the log only. -/
theorem record (event : Event) : Changes (record event : Edit σ Unit) := fun _ => ⟨.refl, rfl⟩

/-- A sequence of edits changes what its parts change. -/
theorem bind {e : Edit σ α} {f : α → Edit σ β} (he : Changes e) (hf : ∀ a, Changes (f a)) :
    Changes (e >>= f) := fun w => after_bind .trans (he w) hf

/-- A single change of the cursor is one. -/
theorem modifyCursor {f : Cursor → Cursor} (h : ∀ c : Cursor, c.Change (f c)) :
    Changes (modifyCursor f : Edit σ Unit) := fun w => ⟨.single (h w.cursor), rfl⟩

/-- Instructions can be changed in place anywhere. -/
theorem modifyCode {f : Code → Code} (h : ∀ code, (f code).length = code.length) :
    Changes (modifyCode f : Edit σ Unit) := modifyCursor fun c => .rewrite (h c.code)

/-- A change of one instruction leaves the number of instructions as it is. -/
theorem modifyAt (index : Nat) (f : Instruction → Instruction) :
    Changes (Edit.modifyCode (·.modify index f) : Edit σ Unit) :=
  modifyCode fun code => List.length_modify f code index

/-- The outcome of a lookup is passed on, and nothing is changed. -/
theorem ofExcept (x : Except Error α) : Changes (ofExcept x : Edit σ α) := by
  cases x with
  | ok a => exact pure a
  | error err => exact throw err

/-- A check changes nothing, whether it passes or not. -/
theorem check {p : Prop} [Decidable p] (err : Error) :
    Changes (if p then Pure.pure () else MonadExcept.throw err : Edit σ Unit) :=
  leads_check .refl err

end Changes

end Edit

/-! ### Edits that depend on where the cursor is -/

namespace Workspace.Changed

open Edit

variable {w : Workspace σ}

/-- What follows the lookup of an index runs only if there is one. -/
theorem offsetIndex_bind {offset : Int} {f : Nat → Edit σ α}
    (h : ∀ index, w.cursor.indexAt? offset = some index → w.Changed ((f index).after w)) :
    w.Changed ((offsetIndex offset >>= f : Edit σ α).after w) := by
  cases hindex : w.cursor.indexAt? offset with
  | some index =>
    have hf := h index hindex
    rwa [after, bind_of_ok (offsetIndex_of_some hindex)]
  | none =>
    rw [after, bind_of_error (offsetIndex_of_none hindex)]
    exact .refl w

/-- What follows the check of an index runs only if the index is one of the code. -/
theorem checkIndex_bind {index : Nat} {f : Unit → Edit σ α}
    (h : index < w.cursor.length → w.Changed ((f ()).after w)) :
    w.Changed ((checkIndex index >>= f : Edit σ α).after w) := by
  by_cases hindex : index < w.cursor.length
  · have hf := h hindex
    rwa [after, bind_of_ok (checkIndex_of_lt hindex)]
  · rw [after, bind_of_error (checkIndex_of_le (Nat.le_of_not_lt hindex))]
    exact .refl w

/-- A search takes the cursor to where it ends. -/
theorem land {c : Cursor} (h : w.cursor.Changes c) : w.Changed ((land c).after w) := by
  unfold Edit.land
  cases c.failure with
  | none => exact ⟨h, rfl⟩
  | some failure => exact ⟨h, rfl⟩

end Workspace.Changed

/-! ## The operations one by one -/

namespace Edit

/-- Advancing is a move: it stops at the sentinels. -/
theorem changes_advance (offset : Int) : Changes (advance offset : Edit σ Unit) :=
  .modifyCursor fun _ => .move _ (by omega) (by omega)

/-- The first instruction is gone to by a move, also where there is none. -/
theorem changes_toFirst : Changes (toFirst : Edit σ Unit) :=
  .modifyCursor fun _ => .move _ (by omega) (by omega)

/-- The last instruction is gone to by a move, also where there is none. -/
theorem changes_toLast : Changes (toLast : Edit σ Unit) :=
  .modifyCursor fun _ => .move _ (by omega) (by omega)

/-- Searching for an instruction changes the cursor as the search does. -/
theorem changes_search (direction : Direction) (holds : Instruction → Bool) :
    Changes (search direction holds : Edit σ Unit) :=
  fun w => after_cursor_bind (.land (w.cursor.changes_search direction holds))

/-- Looking for a match changes the cursor as the query does. -/
theorem changes_find (q : Query) : Changes (find q : Edit σ Unit) :=
  fun w => after_cursor_bind (.land (w.cursor.changes_find q))

/-- A report goes to the log at most. -/
theorem changes_report (context : String) : Changes (report context : Edit σ (Option Report)) := by
  refine fun w => after_cursor_bind ?_
  split
  · exact .refl w
  · dsimp only
    split
    · exact Changes.bind (.record _) (fun _ => .pure _) w
    · exact .refl w

/-- Asking for an instruction at the position changes nothing. -/
theorem changes_requireInstruction (explanation : String) :
    Changes (requireInstruction explanation : Edit σ Unit) :=
  fun w => after_cursor_bind (Changes.check _ w)

/-- Asking for a match at the position notes its captures when there is one. -/
theorem changes_requireMatch (explanation : String) (patterns : List Pattern) :
    Changes (requireMatch explanation patterns : Edit σ Unit) := by
  refine .bind (changes_requireInstruction explanation) fun _ w => after_cursor_bind ?_
  dsimp only
  split
  · exact ⟨.single (.note _ w.cursor.failure w.cursor.remembered), rfl⟩
  · exact .refl w

/-- Asking whether there is a match somewhere changes nothing. -/
theorem changes_requireFound (explanation : String) (direction : Direction)
    (patterns : List Pattern) :
    Changes (requireFound explanation direction patterns : Edit σ Unit) := by
  refine .bind (changes_requireInstruction explanation) fun _ w => after_cursor_bind ?_
  split
  · exact .refl w
  · exact .refl w

/-- Asking for a condition on the cursor changes nothing. -/
theorem changes_require (explanation : String) (condition : Cursor → Bool) :
    Changes (require explanation condition : Edit σ Unit) :=
  fun w => after_cursor_bind (Changes.check _ w)

/-- An instruction is replaced in place. -/
theorem changes_replace (i : Instruction) : Changes (replace i : Edit σ Unit) :=
  fun w => .offsetIndex_bind fun _ _ => Changes.modifyCode (fun _ => List.length_set) w

/-- An instruction is modified in place, and where there is none nothing is. -/
theorem changes_modifyInstruction (f : Instruction → Instruction) :
    Changes (modifyInstruction f : Edit σ Bool) := by
  refine fun w => after_cursor_bind ?_
  split
  · exact .refl w
  · exact Changes.bind (.modifyAt _ f) (fun _ => .pure true) w

/-- Opcode, operand or both are changed at the position. -/
theorem changes_modifyCurrent (f : Instruction → Instruction) :
    Changes (do let index ← currentIndex; modifyCode (·.modify index f) : Edit σ Unit) :=
  fun w => .offsetIndex_bind fun index _ => Changes.modifyAt index f w

/-- An insertion puts its instructions where it can, and elsewhere it fails. -/
theorem changes_insert (more : Code) : Changes (insert more : Edit σ Unit) := by
  intro w
  by_cases hins : w.cursor.CanInsert
  · rw [after_of_ok (insert_of_canInsert more hins)]
    exact ⟨.single (.put more hins), rfl⟩
  · rw [after, insert, bind_of_error (insertionIndex_of_not_canInsert hins)]
    exact .refl w

/-- An emission splices its instructions where it can, and elsewhere it fails. -/
theorem changes_emit (more : Code) : Changes (emit more : Edit σ Unit) := by
  intro w
  by_cases hins : w.cursor.CanInsert
  · rw [after_of_ok (emit_of_canInsert more hins)]
    exact ⟨.single (.splice more hins), rfl⟩
  · rw [after_of_error (emit_of_not_canInsert more hins)]
    exact .refl w

/-- One instruction is removed at the position, and the position stays. -/
theorem changes_remove : Changes (remove : Edit σ Unit) := by
  refine fun w => .offsetIndex_bind fun index hindex => ?_
  obtain ⟨hpos, hlt⟩ := Cursor.add_eq_of_indexAt? hindex
  rw [after, modifyCode_apply, List.eraseIdx_eq_take_drop_succ]
  exact ⟨.single (.removeHere (by omega) (Nat.le_succ index) hlt), rfl⟩

/-- An inverted range is refused before anything is removed. -/
theorem changes_removeNext (count : UInt64) : Changes (removeNext count : Edit σ Unit) := by
  unfold removeNext
  split
  · exact .pure ()
  · refine fun w => .offsetIndex_bind fun first hfirst => .offsetIndex_bind fun last hlast => ?_
    have hpos := (Cursor.add_eq_of_indexAt? hfirst).1
    have hlt := (Cursor.add_eq_of_indexAt? hlast).2
    split
    · exact .refl w
    · exact ⟨.single (.removeHere (by omega) (by omega) hlt), rfl⟩

/-- The two ends are put in order before anything is cut out. -/
theorem changes_removeBetween (a b : Nat) : Changes (removeBetween a b : Edit σ Unit) :=
  fun _ => .checkIndex_bind fun hhigh =>
    ⟨.single (.cut (Nat.le_trans (Nat.min_le_left a b) (Nat.le_max_left a b)) hhigh), rfl⟩

/-- Ends that are given by offsets are looked up first. -/
theorem changes_removeBetweenOffsets (a b : Int) :
    Changes (removeBetweenOffsets a b : Edit σ Unit) :=
  fun w => .offsetIndex_bind fun i _ => .offsetIndex_bind fun j _ => changes_removeBetween i j w

/-- Tags are attached in place. -/
theorem changes_tagAt (index : Nat) (labels : List Label) :
    Changes (tagAt index labels : Edit σ Unit) :=
  fun w => .checkIndex_bind fun _ => Changes.modifyAt index _ w

/-- Tags are attached at the position in place. -/
theorem changes_tag (labels : List Label) : Changes (tag labels : Edit σ Unit) :=
  fun w => .offsetIndex_bind fun index _ => changes_tagAt index labels w

/-- Tags are taken off one instruction and attached to another, both in place. -/
theorem changes_moveLabels (source target : Nat) :
    Changes (moveLabels source target : Edit σ Unit) := by
  refine fun w => .checkIndex_bind fun _ => .checkIndex_bind fun _ => ?_
  split
  · exact .refl w
  · exact after_cursor_bind (Changes.bind (.modifyAt source _) (fun _ => changes_tagAt target _) w)

/-- Marks of protected blocks move from one instruction to another, both in place. -/
theorem changes_moveMarks (source target : Nat) :
    Changes (moveMarks source target : Edit σ Unit) := by
  refine fun w => .checkIndex_bind fun _ => .checkIndex_bind fun _ => ?_
  split
  · exact .refl w
  · exact after_cursor_bind (Changes.bind (.modifyAt source _) (fun _ => .modifyAt target _) w)

/-- Looking for a call is a search that says in the log what it found. -/
theorem changes_seekCall (md : Metadata) (target : MethodPattern) :
    Changes (seekCall md target : Edit σ Unit) := by
  refine .bind (changes_search .forward _) fun _ w => after_cursor_bind ?_
  split
  · exact Changes.record _ w
  · exact .refl w

/-- From the call the cursor goes back to where its arguments start, or notes that this is not
known. -/
theorem changes_seekArguments (md : Metadata) (target : MethodPattern) :
    Changes (seekArguments md target : Edit σ ArgumentStart) := by
  refine .bind (changes_seekCall md target) fun _ w => after_cursor_bind ?_
  dsimp only
  split
  · exact .refl w
  · split
    · exact Changes.bind (.record _) (fun _ => .bind (changes_advance _) fun _ => .pure _) w
    · have hnote : ∀ failure : Option Failure,
          Changes (modifyCursor fun c => { c with failure := failure } : Edit σ Unit) :=
        fun failure => .modifyCursor fun c => .note c.captures failure c.remembered
      exact Changes.bind (.record _) (fun _ => .bind (hnote _) fun _ => .pure _) w

/-- From the call the cursor goes on past it, and past what discards its result. -/
theorem changes_seekAfterCall (md : Metadata) (target : MethodPattern) :
    Changes (seekAfterCall md target : Edit σ Unit) := by
  refine .bind (changes_seekCall md target) fun _ => .bind (changes_advance 1) fun _ w =>
    after_cursor_bind ?_
  split
  · exact changes_advance 1 w
  · exact .refl w

section
variable (md : Metadata) (context : EditedMethod)

/-- Pushing the receiver emits its load, unless the method has none. -/
theorem changes_pushReceiver : Changes (pushReceiver md context : Edit σ _) := by
  unfold pushReceiver
  dsimp only
  split
  · exact .throw _
  · exact .bind (changes_emit _) fun _ => .pure _

mutual

/-- An argument emits its own instructions after those of the arguments inside it. -/
theorem changes_pushOne (a : Argument) : Changes (pushOne md context a : Edit σ _) := by
  have hemit : ∀ (more : Code) (type : ValueType TypeRef),
      Changes (do emit more; return type : Edit σ _) :=
    fun more type => .bind (changes_emit more) fun _ => .pure type
  unfold pushOne
  refine .bind (.record _) fun _ => ?_
  cases a with
  | this => exact changes_pushReceiver md context
  | parameter index expected => exact .bind (.ofExcept _) fun x => hemit _ _
  | «local» choice => exact .bind (.ofExcept _) fun v => hemit _ _
  | field type name =>
    dsimp only
    split
    · exact .throw _
    · split
      · exact .bind (changes_pushReceiver md context) fun _ => hemit _ _
      · exact hemit _ _
  | literal value => exact .bind (.ofExcept _) fun x => hemit _ _
  | call m arguments =>
    dsimp only
    split
    · exact .throw _
    · exact .bind (changes_pushEach arguments) fun _ => hemit _ _

/-- Arguments emit their instructions one after the other, up to the first that fails. -/
theorem changes_pushEach (as : List Argument) : Changes (pushEach md context as : Edit σ _) := by
  cases as with
  | nil => exact .pure []
  | cons a rest =>
    rw [pushEach]
    exact .bind (changes_pushOne a) fun _ => .bind (changes_pushEach rest) fun _ => .pure _

end

end

/-- Undoing an edit is a removal, and that is a change like others. -/
theorem changes_allOrNothing {e : Edit σ α} (he : Changes e) : Changes (allOrNothing e) := by
  refine fun w => after_cursor_bind (after_tryCatch .trans (he w) fun err w₁ => ?_)
  refine after_cursor_bind ?_
  dsimp only
  split
  · exact Changes.bind (changes_removeBetween _ _) (fun _ => .throw err) w₁
  · exact .refl w₁

/-- Arguments that are pushed all or not at all change the cursor like others. -/
theorem changes_pushArguments (md : Metadata) (context : EditedMethod) (as : List Argument) :
    Changes (pushArguments md context as : Edit σ _) :=
  changes_allOrNothing (changes_pushEach md context as)

/-- A call is emitted after its arguments, and the log names its method. -/
theorem changes_pushCall (md : Metadata) (context : EditedMethod) (t : TypeRef)
    (name : MemberName) (as : List Argument) :
    Changes (pushCall md context t name as : Edit σ MethodRef) :=
  changes_allOrNothing <| .bind (changes_pushEach md context as) fun _ =>
    .bind (.ofExcept _) fun _ => .bind (changes_emit _) fun _ => .bind (.record _) fun _ => .pure _

/-! ## The operations of the library -/

/-- The operations that make a label and return it, with any arguments. -/
inductive MakesLabel : Edit σ Label → Prop
  | newLabel : MakesLabel newLabel
  | newLabelAt (index : Nat) : MakesLabel (newLabelAt index)
  | newLabelAtOffset (offset : Int) : MakesLabel (newLabelAtOffset offset)
  | insertBranch (op : Opcode) (destination : Nat) : MakesLabel (insertBranch op destination)
  | emitBranch (op : Opcode) (destination : Nat) : MakesLabel (emitBranch op destination)
  | turnIntoBranch (op : Opcode) (destination : Nat) : MakesLabel (turnIntoBranch op destination)

/-- The other operations on a cursor, with any arguments, except that a match is repeated. The
cursor can be read as a whole, and with it everything that a query asks for. -/
inductive Operation : {α : Type} → Edit σ α → Prop
  | cursor : Operation cursor
  | advance (offset : Int) : Operation (advance offset)
  | toFirst : Operation toFirst
  | toLast : Operation toLast
  | search (direction : Direction) (holds : Instruction → Bool) :
      Operation (search direction holds)
  | find (q : Query) : Operation (find q)
  | report (context : String) : Operation (report context)
  | requireInstruction (explanation : String) : Operation (requireInstruction explanation)
  | requireMatch (explanation : String) (patterns : List Pattern) :
      Operation (requireMatch explanation patterns)
  | requireFound (explanation : String) (direction : Direction) (patterns : List Pattern) :
      Operation (requireFound explanation direction patterns)
  | require (explanation : String) (condition : Cursor → Bool) :
      Operation (require explanation condition)
  | replace (i : Instruction) : Operation (replace i)
  | modifyInstruction (f : Instruction → Instruction) : Operation (modifyInstruction f)
  | setOperation (op : Opcode) (operand : Option Operand) : Operation (setOperation op operand)
  | setOpcode (op : Opcode) : Operation (setOpcode op)
  | setOperand (operand : Operand) : Operation (setOperand operand)
  | insert (more : Code) : Operation (insert more)
  | emit (more : Code) : Operation (emit more)
  | remove : Operation remove
  | removeNext (count : UInt64) : Operation (removeNext count)
  | removeBetween (a b : Nat) : Operation (removeBetween a b)
  | removeBetweenOffsets (a b : Int) : Operation (removeBetweenOffsets a b)
  | tag (labels : List Label) : Operation (tag labels)
  | tagAt (index : Nat) (labels : List Label) : Operation (tagAt index labels)
  | moveLabels (source target : Nat) : Operation (moveLabels source target)
  | moveMarks (source target : Nat) : Operation (moveMarks source target)
  | seekCall (md : Metadata) (target : MethodPattern) : Operation (seekCall md target)
  | seekArguments (md : Metadata) (target : MethodPattern) : Operation (seekArguments md target)
  | seekAfterCall (md : Metadata) (target : MethodPattern) : Operation (seekAfterCall md target)
  | pushArguments (md : Metadata) (context : EditedMethod) (as : List Argument) :
      Operation (pushArguments md context as)
  | pushCall (md : Metadata) (context : EditedMethod) (t : TypeRef) (name : MemberName)
      (as : List Argument) : Operation (pushCall md context t name as)

/-- A branch is put behind its label, or it is not put and nothing is done. -/
theorem putBranch_outcome {put : Code → Edit σ Unit} (op : Opcode) (destination : Nat)
    (hput : ∀ {w : Workspace σ} (more : Code), w.cursor.CanInsert →
      ∃ w', put more w = .ok () w' ∧ w.Changed w') (w : Workspace σ) :
    (∃ err, putBranch put op destination w = .error err w) ∨
      ∃ w', putBranch put op destination w = .ok w.cursor.nextLabel w' ∧
        Workspace.Changed { w with cursor := w.cursor.dropNext } w' := by
  by_cases hins : w.cursor.CanInsert
  · by_cases hd : destination < w.cursor.length
    · obtain ⟨w', hrun, hchanged⟩ :=
        hput (w := { w with cursor := w.cursor.tagNext destination })
          [.branch op w.cursor.nextLabel] (Cursor.canInsert_tagNext hins)
      have htag : w.cursor.dropNext.Changes (w.cursor.tagNext destination) :=
        .single (w.cursor.change_tagNext destination)
      exact .inr ⟨w', putBranch_of_lt op hins hd hrun, htag.trans hchanged.cursor, hchanged.own⟩
    · exact .inl ⟨_, putBranch_of_le op hins (Nat.le_of_not_lt hd)⟩
  · exact .inl ⟨_, putBranch_of_not_canInsert op destination hins⟩

/-- A label is made and attached, or it is not made and nothing is done. -/
theorem newLabelAt_outcome (index : Nat) (w : Workspace σ) :
    (∃ err, newLabelAt index w = .error err w) ∨
      ∃ w', newLabelAt index w = .ok w.cursor.nextLabel w' ∧
        Workspace.Changed { w with cursor := w.cursor.dropNext } w' := by
  by_cases hindex : index < w.cursor.length
  · exact .inr ⟨_, newLabelAt_of_lt hindex, .single (w.cursor.change_tagNext index), rfl⟩
  · exact .inl ⟨_, newLabelAt_of_le (Nat.le_of_not_lt hindex)⟩

/-- An operation that makes a label takes the next one out of the supply before anything else is
changed, and returns it. Where it fails, nothing is done. -/
theorem MakesLabel.outcome {e : Edit σ Label} (he : MakesLabel e) (w : Workspace σ) :
    (∃ err, e w = .error err w) ∨
      ∃ w', e w = .ok w.cursor.nextLabel w' ∧
        Workspace.Changed { w with cursor := w.cursor.dropNext } w' := by
  cases he with
  | newLabel => exact .inr ⟨_, newLabel_apply w, .refl _⟩
  | newLabelAt index => exact newLabelAt_outcome index w
  | newLabelAtOffset offset =>
    cases hindex : w.cursor.indexAt? offset with
    | none => exact .inl ⟨_, bind_of_error (offsetIndex_of_none hindex)⟩
    | some index =>
      rw [Edit.newLabelAtOffset, bind_of_ok (offsetIndex_of_some hindex)]
      exact newLabelAt_outcome index w
  | insertBranch op destination =>
    exact putBranch_outcome op destination
      (fun more hins => ⟨_, insert_of_canInsert more hins, .single (.put more hins), rfl⟩) w
  | emitBranch op destination =>
    exact putBranch_outcome op destination
      (fun more hins => ⟨_, emit_of_canInsert more hins, .single (.splice more hins), rfl⟩) w
  | turnIntoBranch op destination =>
    cases hindex : w.cursor.indexAt? 0 with
    | none => exact .inl ⟨_, turnIntoBranch_of_none op destination hindex⟩
    | some index =>
      by_cases hd : destination < w.cursor.length
      · refine .inr ⟨_, turnIntoBranch_of_lt op hindex hd, ?_, rfl⟩
        exact .tail (.single (w.cursor.change_tagNext destination))
          (.rewrite (List.length_modify _ _ index))
      · exact .inl ⟨_, turnIntoBranch_of_le op hindex (Nat.le_of_not_lt hd)⟩

/-- The operations change the cursor and the log only. -/
theorem Operation.changes {e : Edit σ α} (h : Operation e) : Changes e := by
  cases h with
  | cursor => exact .refl
  | advance offset => exact changes_advance offset
  | toFirst => exact changes_toFirst
  | toLast => exact changes_toLast
  | search direction holds => exact changes_search direction holds
  | find q => exact changes_find q
  | report context => exact changes_report context
  | requireInstruction explanation => exact changes_requireInstruction explanation
  | requireMatch explanation patterns => exact changes_requireMatch explanation patterns
  | requireFound explanation direction patterns =>
    exact changes_requireFound explanation direction patterns
  | require explanation condition => exact changes_require explanation condition
  | replace i => exact changes_replace i
  | modifyInstruction f => exact changes_modifyInstruction f
  | setOperation op operand => exact changes_modifyCurrent _
  | setOpcode op => exact changes_modifyCurrent _
  | setOperand operand => exact changes_modifyCurrent _
  | insert more => exact changes_insert more
  | emit more => exact changes_emit more
  | remove => exact changes_remove
  | removeNext count => exact changes_removeNext count
  | removeBetween a b => exact changes_removeBetween a b
  | removeBetweenOffsets a b => exact changes_removeBetweenOffsets a b
  | tag labels => exact changes_tag labels
  | tagAt index labels => exact changes_tagAt index labels
  | moveLabels source target => exact changes_moveLabels source target
  | moveMarks source target => exact changes_moveMarks source target
  | seekCall md target => exact changes_seekCall md target
  | seekArguments md target => exact changes_seekArguments md target
  | seekAfterCall md target => exact changes_seekAfterCall md target
  | pushArguments md context as => exact changes_pushArguments md context as
  | pushCall md context t name as => exact changes_pushCall md context t name as

end Edit

end Weaving
