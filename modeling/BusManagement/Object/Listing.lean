import BusManagement.Fault
import BusManagement.Object.Type

/-! The interface objects of a device. Callers name an object by its index in this list; a frame names
it by its type and by its instance, which counts the objects of the same type up to and including
it. -/

namespace BusManagement

/-- The types of the interface objects of a device, in the order of their indices. -/
structure ObjectList where
  types : List UInt16
  deriving DecidableEq

/-- How a frame names an interface object. -/
structure ObjectAddress where
  objectType : UInt16
  objectInstance : UInt8
  deriving DecidableEq

namespace ObjectList

structure Entry where
  index : UInt16
  objectType : UInt16
  deriving DecidableEq

/-- The objects that a device without an object list is taken to have: itself and its cEMI server. -/
def assumed : ObjectList := ⟨[ObjectType.device, ObjectType.cemiServer]⟩

def size (d : ObjectList) : Nat := d.types.length

/-- The objects with their indices. An index has 16 bits, so a longer list counts from zero again. -/
def entries (d : ObjectList) : List Entry := d.types.zipIdx.map fun (t, i) => ⟨UInt16.ofNat i, t⟩

/-- How many of the first objects, up to and including an index, have a type. -/
def instances (d : ObjectList) (index : Nat) (t : UInt16) : Nat := (d.types.take (index + 1)).count t

def address (d : ObjectList) (index : UInt16) : Except Fault ObjectAddress :=
  match d.types[index.toNat]? with
  | none => .error (.objectNotListed index)
  | some t =>
    let n := d.instances index.toNat t
    if n < 256 then .ok ⟨t, UInt8.ofNat n⟩ else .error (.instanceOutOfRange n)

end ObjectList

end BusManagement
