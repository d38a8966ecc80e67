/-!
# Attributes of types, methods and fields

An attribute set is a word of flags. Each kind of entity has its own flags; a flag may be more
than one bit, as the access levels are. A set carries the proof that it has no bit outside the
flags of its kind, and every operation keeps it so.
-/

namespace Weaving

/-- What attributes are attached to. -/
inductive Entity where
  | type
  | method
  | field
deriving DecidableEq, Repr

/-- A named bit pattern. -/
structure Flag where
  name : String
  bits : BitVec 32
deriving DecidableEq, Repr

namespace Flag

/-! Types have an access flag, three flags of inheritance and one for value types. -/

def typePublic : Flag := ⟨"PUBLIC", 0x1⟩
def interface : Flag := ⟨"INTERFACE", 0x20⟩
def abstractType : Flag := ⟨"ABSTRACT", 0x80⟩
def sealed : Flag := ⟨"SEALED", 0x100⟩
def valueType : Flag := ⟨"VALUE_TYPE", 0x200⟩

/-! Members of types share their access flags and the flag for members without a receiver. -/

def privateMember : Flag := ⟨"PRIVATE", 0x1⟩
def publicMember : Flag := ⟨"PUBLIC", 0x6⟩
def staticMember : Flag := ⟨"STATIC", 0x10⟩

/-! Methods have flags of dispatch and one for names with a meaning. -/

def finalMethod : Flag := ⟨"FINAL", 0x20⟩
def virtualMethod : Flag := ⟨"VIRTUAL", 0x40⟩
def abstractMethod : Flag := ⟨"ABSTRACT", 0x400⟩
def specialName : Flag := ⟨"SPECIAL_NAME", 0x800⟩

/-! Fields have flags of constancy. -/

def initOnly : Flag := ⟨"INIT_ONLY", 0x20⟩
def literal : Flag := ⟨"LITERAL", 0x40⟩

end Flag

namespace Entity

/-- The flags of the entity, in the order in which they are listed. -/
def flags : Entity → List Flag
  | .type => [.typePublic, .interface, .abstractType, .sealed, .valueType]
  | .method =>
    [.privateMember, .publicMember, .staticMember, .finalMethod, .virtualMethod, .abstractMethod,
     .specialName]
  | .field => [.privateMember, .publicMember, .staticMember, .initOnly, .literal]

/-- All bits of the entity's flags. -/
def mask (e : Entity) : BitVec 32 :=
  e.flags.foldl (fun acc f => acc ||| f.bits) 0

end Entity

/-- A set of attributes of one kind of entity. -/
structure Attributes (e : Entity) where
  bits : BitVec 32
  known : bits &&& e.mask = bits
deriving DecidableEq

namespace Attributes

variable {e : Entity}

/-- The word with its unknown bits dropped. -/
def ofBits (e : Entity) (word : BitVec 32) : Attributes e :=
  ⟨word &&& e.mask, by rw [BitVec.and_assoc, BitVec.and_self]⟩

/-- The word has no unknown bit. -/
def isKnown (e : Entity) (word : BitVec 32) : Bool :=
  word &&& e.mask == word

/-- Every flag of the entity. -/
def all (e : Entity) : Attributes e := ⟨e.mask, BitVec.and_self⟩

/-- The bits of either set. -/
def union (a b : Attributes e) : Attributes e :=
  ⟨a.bits ||| b.bits, by rw [BitVec.and_comm, BitVec.and_or_distrib_left, BitVec.and_comm _ a.bits,
    BitVec.and_comm _ b.bits, a.known, b.known]⟩

/-- The bits of both sets. -/
def inter (a b : Attributes e) : Attributes e :=
  ⟨a.bits &&& b.bits, by rw [BitVec.and_assoc, b.known]⟩

/-- The bits of the first set that the second one lacks. -/
def diff (a b : Attributes e) : Attributes e :=
  ⟨a.bits &&& ~~~b.bits, by
    rw [BitVec.and_assoc, BitVec.and_comm (~~~b.bits), ← BitVec.and_assoc, a.known]⟩

/-- The bits of exactly one of the sets. -/
def symmDiff (a b : Attributes e) : Attributes e :=
  ofBits e (a.bits ^^^ b.bits)

/-- The bits of the entity's flags that the set lacks. -/
def compl (a : Attributes e) : Attributes e :=
  ofBits e (~~~a.bits)

/-- The first set holds every bit of the second. -/
def contains (a b : Attributes e) : Bool := a.bits &&& b.bits == b.bits

/-- Every bit of the flag is set. -/
def has (a : Attributes e) (f : Flag) : Bool := a.bits &&& f.bits == f.bits

/-- The sets have a bit in common. -/
def intersects (a b : Attributes e) : Bool := a.bits &&& b.bits != 0

/-- No bit is set. -/
def isEmpty (a : Attributes e) : Bool := a.bits == 0

/-- Every bit of the entity's flags is set. -/
def isAll (a : Attributes e) : Bool := a.contains (.all e)

/-- The names of the flags that are wholly set, in order, with bars between them. -/
def render (a : Attributes e) : String :=
  match e.flags.filter a.has with
  | [] => "(empty)"
  | flags => " | ".intercalate (flags.map (·.name))

/-! ## Questions that editing asks -/

/-- The type is an interface. -/
def isInterface (a : Attributes .type) : Bool := a.has .interface

/-- The type can never have instances: it is abstract and sealed. -/
def isStaticClass (a : Attributes .type) : Bool := a.has .abstractType && a.has .sealed

/-- The method has no receiver. -/
def isStaticMethod (a : Attributes .method) : Bool := a.has .staticMember

/-- The method is dispatched on its receiver. -/
def isVirtual (a : Attributes .method) : Bool := a.has .virtualMethod

/-- The field belongs to the type and not to its instances. -/
def isStaticField (a : Attributes .field) : Bool := a.has .staticMember

end Attributes

end Weaving
